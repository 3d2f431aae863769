import Runbook.Proofs.InOrder
import Runbook.Proofs.Paths

/-!
# Waiting for loop indices

A main task that waits for loop indices at most once has nothing to do with them before, and goes on
only when all of them have ended. What it is told of their ends then is the truth: it is told of
every loop index that did anything, and each of them has gone through its program, unless it was
interrupted before it had control.

* `Program.JoinsOnce p`: the program waits for loop indices at most once, whatever the replies are.
* `State.Joining program h s`: how far a main task of such a program has come.
* `State.Reaches.accounted`: what it is told of the ends of loop indices is true.
-/

namespace Runbook

/-- A wait for loop indices. -/
def Deed.joins : Deed → Bool
  | .wait (.loops _) => true
  | _ => false

namespace Program

variable {α : Type}

/-- On every way to its end a program waits for loop indices at most once. -/
def JoinsOnce (p : Program α) : Prop := ∀ t a, p.Ends t a → t.countP Deed.joins ≤ 1

/-- Every call can be answered somehow. -/
theorem nonempty_reply (c : Call) : Nonempty c.Reply := by
  cases c <;>
    first
    | exact ⟨()⟩
    | exact ⟨(0 : Rat)⟩
    | exact ⟨true⟩
    | exact ⟨none⟩
    | exact ⟨.error (Fault.failure "")⟩
    | exact ⟨.error (Api.NoResponse.transport "")⟩
    | exact ⟨{}⟩

/-- Every program comes to an end when its calls are answered and its waits end. -/
theorem exists_ends (p : Program α) : ∃ t a, p.Ends t a := by
  induction p with
  | done a => exact ⟨[], a, .refl _⟩
  | call c k ih =>
    obtain ⟨r⟩ := nonempty_reply c
    obtain ⟨t, a, h⟩ := ih r
    exact ⟨_, a, .call h⟩
  | wait w k ih =>
    obtain ⟨t, a, h⟩ := ih .resumed
    exact ⟨_, a, .wait h⟩

theorem JoinsOnce.of_leads {p q : Program α} {t : List Deed} (hp : p.JoinsOnce)
    (h : p.Leads t q) : t.countP Deed.joins ≤ 1 := by
  -- Every way that has been begun can be gone to an end.
  obtain ⟨t', a, hq⟩ := q.exists_ends
  have hall := hp _ a (h.trans hq)
  rw [List.countP_append] at hall
  omega

end Program

namespace Schedule

variable {σ α : Type}

/-! ### A task that goes on -/

section GoesOn

variable {env : Collaborators σ} {p : Program α} {s s' : Shared σ} {t : List Deed} {task : Task α}

/-- A program that comes to wait does so last. -/
theorem GoesOn.ends_waiting {w : Wait} {k : Wake → Program α}
    (h : GoesOn env p s t (.waiting w k) s') : ∃ t', t = t' ++ [.wait w] := by
  generalize htask : Task.waiting w k = task at h
  induction h with
  | call _ ih =>
    obtain ⟨t', rfl⟩ := ih htask
    exact ⟨_ :: t', rfl⟩
  | resume _ _ ih =>
    obtain ⟨t', rfl⟩ := ih htask
    exact ⟨_ :: _ :: t', rfl⟩
  | wait =>
    cases htask
    exact ⟨[], rfl⟩
  | _ => cases htask

/-- A program that does not come to wait for loop indices has not waited for any. -/
theorem GoesOn.countP_joins (h : GoesOn env p s t task s') (hnot : ¬ task.Joins) :
    t.countP Deed.joins = 0 := by
  induction h with
  | call _ ih => exact (List.countP_cons_of_neg (by simp [Deed.joins])).trans (ih hnot)
  | @resume w _ _ _ _ _ hw _ ih =>
    have hother : Deed.joins (.wait w) = false := by
      cases w <;> first | rfl | cases hw
    rw [List.countP_cons_of_neg (by simp [hother]), List.countP_cons_of_neg (by simp [Deed.joins])]
    exact ih hnot
  | @wait w k _ _ =>
    cases w with
    | loops n => exact absurd ⟨n, k, rfl⟩ hnot
    | _ => rfl
  | _ => rfl

/-- A task that goes on does not change what is known of the ends of loop indices, and that is what
it is told. -/
theorem GoesOn.outcomes (h : GoesOn env p s t task s') :
    s'.outcomes = s.outcomes ∧ ∀ outs, .call .outcomes outs ∈ t → outs = s.outcomes := by
  have htold {c : Call} {s : Shared σ} {outs : List (Nat × Option Failure)}
      (heq : Deed.call .outcomes outs = .call c (Shared.answer env c s).1) : outs = s.outcomes := by
    cases heq
    rfl
  induction h with
  | done | before => exact ⟨rfl, nofun⟩
  | @call c _ s _ _ _ _ ih =>
    have hanswer := (Shared.answer_leaves env c s).1
    refine ⟨ih.1.trans hanswer, fun outs hm => ?_⟩
    rcases List.mem_cons.mp hm with heq | hm
    · exact htold heq
    · exact (ih.2 outs hm).trans hanswer
  | resume _ _ ih => exact ⟨ih.1, fun outs hm => ih.2 outs (by simpa using hm)⟩
  | wait => exact ⟨rfl, by simp⟩
  | after =>
    exact ⟨(Shared.answer_leaves env _ _).1, fun outs hm => htold (List.mem_singleton.mp hm)⟩

end GoesOn

namespace Task

theorem not_joins_interrupted (t : Task α) : ¬ t.interrupted.Joins := by
  rintro ⟨n, k, h⟩
  cases t <;> cases h

end Task

namespace State

variable {env : Collaborators σ} {program : Nat → Program (Option Failure)}

/-! ### Loop indices that have been started -/

/-- A loop index that has done `t` is where its program leads, or it was interrupted before it had
control and has ended. -/
def Gone (p : Program (Option Failure)) (t : List Deed) (task : Task (Option Failure)) : Prop :=
  task.Reached p t ∨ t = [] ∧ task = .ended (some .interrupted)

namespace Gone

variable {p q : Program (Option Failure)} {t first : List Deed}
  {task task' : Task (Option Failure)}

theorem turn {s s' : Shared σ} {u : List Deed} (h : Gone p t task)
    (hturn : task.turn? = some (first, q)) (hgoes : GoesOn env q s u task' s') :
    Gone p (t ++ (first ++ u)) task' := by
  rcases h with hreached | ⟨-, rfl⟩
  · exact .inl (hreached.turn hturn hgoes)
  · cases hturn

theorem wake (h : Gone p t task) (hw : task.Settles task') : Gone p t task' := by
  rcases h with hreached | ⟨rfl, rfl⟩
  · exact .inl (hreached.wake hw)
  · rcases hw with rfl | ⟨w, k, wake, hwaits, -⟩
    · exact .inr ⟨rfl, rfl⟩
    · cases hwaits

theorem interrupted (h : Gone p t task) : Gone p t task.interrupted := by
  rcases h with hreached | ⟨rfl, rfl⟩
  · exact .inl hreached.interrupt
  · exact .inr ⟨rfl, rfl⟩

/-- Interrupted before it has had control, a loop index has done nothing. -/
theorem stillborn (h : Gone p t .stillborn) : Gone p t (.ended (some .interrupted)) := by
  rcases h with hreached | ⟨-, h⟩
  · cases hreached
    exact .inr ⟨rfl, rfl⟩
  · cases h

end Gone

/-- Loop indices that have been started go through their programs, no other one does anything, and
what is known of their ends is true. -/
structure Forked (program : Nat → Program (Option Failure)) (h : List Happening) (s : State σ α) :
    Prop where
  distinct : s.Distinct
  gone {i : Nat} {task : Task (Option Failure)} :
    (i, task) ∈ s.loops → Gone (program i) (deedsOf (some i) h) task
  silent {i : Nat} : (∀ task, (i, task) ∉ s.loops) → deedsOf (some i) h = []
  known {i : Nat} {o : Option Failure} : (i, o) ∈ s.shared.outcomes ↔ (i, .ended o) ∈ s.loops

/-- A loop index has only one task. -/
theorem eq_of_mem_of_loop? {s : State σ α} (hd : s.Distinct) {i : Nat} {t u : Task (Option Failure)}
    (h : s.loop? i = some t) (hu : (i, u) ∈ s.loops) : u = t := by
  obtain ⟨before, after, hsplit⟩ := exists_split_of_loop? h
  rw [Distinct, hsplit] at hd
  simp only [List.map_append, List.map_cons, List.nodup_append, List.nodup_cons] at hd
  obtain ⟨-, ⟨hafter, -⟩, hbefore⟩ := hd
  rw [hsplit] at hu
  rcases List.mem_append.mp hu with hu | hu
  · exact absurd rfl (hbefore i (List.mem_map_of_mem hu) i (by simp))
  · rcases List.mem_cons.mp hu with heq | hu
    · cases heq
      rfl
    · exact absurd (List.mem_map_of_mem hu) hafter

theorem mem_withLoop {s : State σ α} {i j : Nat} {t t' u : Task (Option Failure)}
    (h : s.loop? i = some t) :
    (j, u) ∈ withLoop i t' s.loops ↔ j = i ∧ u = t' ∨ j ≠ i ∧ (j, u) ∈ s.loops := by
  rw [withLoop, List.mem_map]
  constructor
  · rintro ⟨⟨i', t''⟩, hm, heq⟩
    by_cases hi : i' = i
    · simp only [hi, beq_self_eq_true, if_true, Prod.mk.injEq] at heq
      exact .inl ⟨heq.1.symm, heq.2.symm⟩
    · simp only [beq_iff_eq, hi, if_false, Prod.mk.injEq] at heq
      obtain ⟨rfl, rfl⟩ := heq
      exact .inr ⟨hi, hm⟩
  · rintro (⟨rfl, rfl⟩ | ⟨hj, hm⟩)
    · exact ⟨_, mem_of_loop? h, by simp⟩
    · exact ⟨_, hm, by simp [hj]⟩

namespace Forked

variable {h : List Happening} {s : State σ α}

/-- What is kept depends on the loop indices, their deeds and what is known of their ends only. -/
theorem of_same {h' : List Happening} {s' : State σ α} (hf : Forked program h s)
    (hloops : s'.loops = s.loops) (hout : s'.shared.outcomes = s.shared.outcomes)
    (hdeeds : ∀ i, deedsOf (some i) h' = []) : Forked program (h ++ h') s' where
  distinct := by
    rw [Distinct, hloops]
    exact hf.distinct
  gone hm := by
    rw [deedsOf_append, hdeeds, List.append_nil]
    rw [hloops] at hm
    exact hf.gone hm
  silent hno := by
    rw [deedsOf_append, hdeeds, List.append_nil]
    rw [hloops] at hno
    exact hf.silent hno
  known := by
    rw [hloops, hout]
    exact hf.known

/-- One loop index goes on, and what is known of its end is brought up to date. -/
theorem withLoop {i : Nat} {t t' : Task (Option Failure)} {ds : List Deed} {sh : Shared σ}
    (hf : Forked program h s) (hloop : s.loop? i = some t) (ht : t.result? = none)
    (hgone : Gone (program i) (deedsOf (some i) h ++ ds) t')
    (hout : ∀ j o, (j, o) ∈ sh.outcomes ↔
      (j, o) ∈ s.shared.outcomes ∨ j = i ∧ t' = .ended o) :
    Forked program (h ++ ds.map (.deed (some i)))
      { s with loops := withLoop i t' s.loops, shared := sh } where
  distinct := by
    rw [Distinct, keys_withLoop]
    exact hf.distinct
  gone {j task} hm := by
    rw [deedsOf_append, deedsOf_map_deed]
    rcases (mem_withLoop hloop).mp hm with ⟨rfl, rfl⟩ | ⟨hj, hm⟩
    · rw [if_pos rfl]
      exact hgone
    · rw [if_neg (fun heq => hj (Option.some.inj heq).symm), List.append_nil]
      exact hf.gone hm
  silent {j} hno := by
    have hj : j ≠ i := by
      rintro rfl
      exact hno t' ((mem_withLoop hloop).mpr (.inl ⟨rfl, rfl⟩))
    rw [deedsOf_append, deedsOf_map_deed, if_neg (fun heq => hj (Option.some.inj heq).symm),
      List.append_nil]
    exact hf.silent fun task hm => hno task ((mem_withLoop hloop).mpr (.inr ⟨hj, hm⟩))
  known {j o} := by
    rw [hout, hf.known, mem_withLoop hloop]
    -- Before, the end of this loop index was not known, since it had not ended.
    constructor
    · rintro (hm | ⟨rfl, rfl⟩)
      · refine .inr ⟨?_, hm⟩
        rintro rfl
        rw [← eq_of_mem_of_loop? hf.distinct hloop hm] at ht
        cases ht
      · exact .inl ⟨rfl, rfl⟩
    · rintro (⟨rfl, rfl⟩ | ⟨-, hm⟩)
      · exact .inr ⟨rfl, rfl⟩
      · exact .inl hm

/-- All loop indices are interrupted. -/
theorem interrupted {sh : Shared σ} (hf : Forked program h s)
    (hout : sh.outcomes = s.shared.outcomes) : Forked program h { s with
      loops := s.loops.map fun l => (l.1, l.2.interrupted)
      joinInterrupted := true, shared := sh } where
  distinct := by simpa [Distinct, Function.comp_def] using hf.distinct
  gone {i task} hm := by
    obtain ⟨⟨j, t⟩, hloop, heq⟩ := List.mem_map.mp hm
    cases heq
    exact (hf.gone hloop).interrupted
  silent hno := hf.silent fun task hm => hno task.interrupted (List.mem_map.mpr ⟨_, hm, rfl⟩)
  known {i o} := by
    rw [hout, hf.known, List.mem_map]
    constructor
    · intro hm
      exact ⟨_, hm, rfl⟩
    · rintro ⟨⟨j, t⟩, hm, heq⟩
      cases t <;> cases heq
      exact hm

end Forked

/-! ### The main task -/

/-- How far a main task has come that waits for loop indices at most once. -/
inductive Joining (program : Nat → Program (Option Failure)) (h : List Happening) (s : State σ α) :
    Prop
  /-- It has not waited for them, and none has been started. -/
  | before (hnone : (deedsOf none h).countP Deed.joins = 0) (hloops : s.loops = [])
      (hsilent : ∀ i, deedsOf (some i) h = [])
  /-- It waits for them. -/
  | during (t : List Deed) (n : Nat) (ht : deedsOf none h = t ++ [.wait (.loops n)])
      (hmain : s.main.Joins) (hforked : Forked program h s)
  /-- It has waited for them; all of them have ended, and what it is told of their ends is what is
  known of them. -/
  | after (t : List Deed) (n : Nat) (t' : List Deed)
      (ht : deedsOf none h = t ++ .wait (.loops n) :: t')
      (hmain : ¬ s.main.Joins) (hforked : Forked program h s)
      (hall : ∀ l ∈ s.loops, l.2.result?.isSome = true)
      (htold : ∀ outs, .call .outcomes outs ∈ t' → outs = s.shared.outcomes)

namespace Joining

variable {h h' : List Happening} {s s' : State σ α}

/-- Where all loop indices have ended, none goes on. -/
theorem not_all {i : Nat} {t : Task (Option Failure)}
    (hall : ∀ l ∈ s.loops, l.2.result?.isSome = true) (hloop : s.loop? i = some t)
    (ht : t.result? = none) : False := by
  have hsome := hall _ (mem_of_loop? hloop)
  rw [ht] at hsome
  cases hsome

/-- A main task that goes on elsewhere, or stays, comes no nearer to its loop indices. -/
theorem of_same (hj : Joining program h s) (hloops : s'.loops = s.loops)
    (hout : s'.shared.outcomes = s.shared.outcomes) (hdeeds : ∀ who, deedsOf who h' = [])
    (hmain : s'.main.Joins ↔ s.main.Joins) : Joining program (h ++ h') s' := by
  have hsame (who : Option Nat) : deedsOf who (h ++ h') = deedsOf who h := by
    rw [deedsOf_append, hdeeds, List.append_nil]
  cases hj with
  | before hnone hno hsilent =>
    exact .before (by rwa [hsame]) (hloops.trans hno) fun i => (hsame _).trans (hsilent i)
  | during t n ht hjoins hforked =>
    exact .during t n ((hsame none).trans ht) (hmain.mpr hjoins)
      (hforked.of_same hloops hout fun i => hdeeds _)
  | after t n t' ht hjoins hforked hall htold =>
    refine .after t n t' ((hsame none).trans ht) (fun hj => hjoins (hmain.mp hj))
      (hforked.of_same hloops hout fun i => hdeeds _) ?_ ?_
    · rwa [hloops]
    · rwa [hout]

theorem mem_append_ended {i j : Nat} {o o' : Option Failure} {outs : List (Nat × Option Failure)} :
    (j, o') ∈ outs ++ [(i, o)] ↔ (j, o') ∈ outs ∨ j = i ∧ Task.ended o = .ended o' := by
  simp [eq_comm]

/-- One loop index goes on. -/
theorem loop (hj : Joining program h s) {i : Nat} {t t' : Task (Option Failure)} (ds : List Deed)
    {sh : Shared σ} (hloop : s.loop? i = some t) (ht : t.result? = none)
    (hgone : Gone (program i) (deedsOf (some i) h) t →
      Gone (program i) (deedsOf (some i) h ++ ds) t')
    (hout : ∀ j o, (j, o) ∈ sh.outcomes ↔ (j, o) ∈ s.shared.outcomes ∨ j = i ∧ t' = .ended o) :
    Joining program (h ++ ds.map (.deed (some i)))
      { s with loops := withLoop i t' s.loops, shared := sh } := by
  cases hj with
  | before hnone hno hsilent =>
    have hm := mem_of_loop? hloop
    rw [hno] at hm
    cases hm
  | during t₀ n hmainDeeds hjoins hforked =>
    refine .during t₀ n ((deedsOf_append ..).trans ?_) hjoins
      (hforked.withLoop hloop ht (hgone (hforked.gone (mem_of_loop? hloop))) hout)
    rw [deedsOf_map_deed, if_neg nofun, List.append_nil]
    exact hmainDeeds
  | after _ _ _ _ _ _ hall _ => exact (not_all hall hloop ht).elim

end Joining

/-- The main task goes on, and does not come to wait for loop indices. -/
private theorem Joining.main {h : List Happening} {s : State σ α} (hj : Joining program h s)
    (hmain : ¬ s.main.Joins) {ds : List Deed} {task : Task α} {sh : Shared σ} (htask : ¬ task.Joins)
    (hds : ds.countP Deed.joins = 0) (hout : sh.outcomes = s.shared.outcomes)
    (htold : ∀ outs, .call .outcomes outs ∈ ds → outs = s.shared.outcomes) :
    Joining program (h ++ ds.map (.deed none)) { s with main := task, shared := sh } := by
  have hothers (i : Nat) : deedsOf (some i) (ds.map (.deed none)) = [] := by simp
  have hown : deedsOf none (h ++ ds.map (.deed none)) = deedsOf none h ++ ds := by simp
  cases hj with
  | before hnone hno hsilent =>
    refine .before ?_ hno fun i => ?_
    · rw [hown, List.countP_append, hnone, hds]
    · rw [deedsOf_append, hothers, hsilent, List.append_nil]
  | during _ _ _ hjoins => exact absurd hjoins hmain
  | after t n t' ht _ hforked hall htold' =>
    refine .after t n (t' ++ ds) ?_ htask (hforked.of_same rfl hout hothers) hall ?_
    · rw [hown, ht]
      simp
    · intro outs hm
      rw [hout]
      rcases List.mem_append.mp hm with hm | hm
      · exact htold' outs hm
      · exact htold outs hm

/-- The main task comes to wait for loop indices, and they are started. -/
private theorem Joining.start {h : List Happening} {s : State σ α} (hj : Joining program h s)
    (hmain : ¬ s.main.Joins) {ds : List Deed} {n : Nat} {k : Wake → Program α} {sh : Shared σ}
    (honce : (deedsOf none h ++ (ds ++ [Deed.wait (.loops n)])).countP Deed.joins ≤ 1)
    (hout : sh.outcomes = []) :
    Joining program (h ++ (ds ++ [Deed.wait (.loops n)]).map (.deed none))
      { s with
        main := .waiting (.loops n) k, shared := sh
        loops := (List.range n).map fun i => (i, .fresh (program i))
        joined := 0, joinInterrupted := false } := by
  cases hj with
  | before hnone hno hsilent =>
    have hsilent' (i : Nat) :
        deedsOf (some i) (h ++ (ds ++ [Deed.wait (.loops n)]).map (.deed none)) = [] := by
      rw [deedsOf_append, hsilent, deedsOf_map_deed, if_neg nofun, List.append_nil]
    have hown : deedsOf none (h ++ (ds ++ [Deed.wait (.loops n)]).map (.deed none)) =
        deedsOf none h ++ ds ++ [Deed.wait (.loops n)] := by
      rw [deedsOf_append, deedsOf_map_deed, if_pos rfl, List.append_assoc]
    refine .during (deedsOf none h ++ ds) n hown ⟨n, k, rfl⟩ ⟨?_, ?_, ?_, ?_⟩
    · simpa [Distinct, Function.comp_def] using List.nodup_range
    · intro i task hm
      obtain ⟨j, -, heq⟩ := List.mem_map.mp hm
      cases heq
      rw [hsilent']
      exact .inl .fresh
    · exact fun _ => hsilent' _
    · intro i o
      rw [hout]
      simp
  | during _ _ _ hjoins => exact absurd hjoins hmain
  | after t n' t' ht =>
    -- It has waited for them before, and it would do so twice.
    rw [ht] at honce
    simp only [List.countP_append, List.countP_cons, Deed.joins, if_true] at honce
    omega

/-- The end of the last loop index is noted, and the main task is woken. -/
private theorem Joining.noted {h : List Happening} {s : State σ α} (hj : Joining program h s)
    (hmain : s.main.Joins) (hended : s.ended = s.loops.length) {wake : Wake}
    {k : Wake → Program α} {joined : Nat} {sh : Shared σ}
    (hout : sh.outcomes = s.shared.outcomes) :
    Joining program (h ++ []) { s with joined, main := .woken wake k, shared := sh } := by
  cases hj with
  | before hnone hno hsilent => exact .before (by simpa using hnone) hno (by simpa using hsilent)
  | during t n ht _ hforked =>
    refine .after t n [] (by simpa using ht) ?_
      (hforked.of_same rfl hout fun _ => rfl) ?_ nofun
    · rintro ⟨n, k, h⟩
      cases h
    · exact List.countP_eq_length.mp hended
  | after _ _ _ _ hnot => exact absurd hmain hnot

theorem not_joins_of_settles {task task' : Task α}
    (hloops : ∀ n k, task ≠ .waiting (.loops n) k) (htask : task.Settles task') :
    ¬ task.Joins ∧ ¬ task'.Joins := by
  have hnot : ¬ task.Joins := fun ⟨n, k, h⟩ => hloops n k h
  exact ⟨hnot, fun h => hnot (htask.joins h)⟩

theorem JoinsOnce.of_reached {p : Program α} (hp : p.JoinsOnce) {t : List Deed} {task : Task α}
    (h : task.Reached p t) : t.countP Deed.joins ≤ 1 := by
  have hwaited {t : List Deed} {w : Wait} {k : Wake → Program α} (h : p.Leads t (.wait w k)) :
      (t ++ [Deed.wait w]).countP Deed.joins ≤ 1 := by
    have hnext := hp.of_leads (h.trans (.wait (.refl (k .resumed))))
    rw [List.append_cons, List.countP_append] at hnext
    omega
  cases h with
  | fresh => exact Nat.zero_le 1
  | stillborn => exact Nat.zero_le 1
  | waiting h => exact hwaited h
  | woken h => exact hwaited h
  | paused h => exact hp.of_leads h
  | ended h => exact hp _ _ h

/-- A move brings a main task that waits for loop indices at most once no nearer to them, or begins
or ends its wait for them. -/
theorem Move.joining {p : Program α} (hp : p.JoinsOnce) {s s' : State σ α} {j : Job}
    {h h' : List Happening} (hm : Move env program s j h' s')
    (hreached : s.main.Reached p (deedsOf none h)) (hj : Joining program h s) :
    Joining program (h ++ h') s' := by
  have hnext := hm.main_reached hreached
  cases hm with
  | skip => simpa using hj
  | main hturn hgoes hloops htask hsh =>
    obtain ⟨hnot, hnot'⟩ := not_joins_of_settles hloops htask
    obtain ⟨hout, htold⟩ := hgoes.outcomes
    obtain ⟨-, _, _, _, _, rfl⟩ := hsh
    refine hj.main (not_joins_of_turn? hturn) hnot' ?_ hout ?_
    · rw [List.countP_append, hgoes.countP_joins hnot]
      rcases Task.first_of_turn? hturn with rfl | ⟨wake, rfl⟩ <;> rfl
    · intro outs hm
      refine htold outs ((List.mem_append.mp hm).resolve_left ?_)
      -- What wakes the task tells it nothing.
      rcases Task.first_of_turn? hturn with rfl | ⟨wake, rfl⟩ <;> simp
  | @start first _ _ n k sh sh' hturn hgoes hsh =>
    obtain ⟨ds, rfl⟩ := hgoes.ends_waiting
    obtain ⟨-, _, _, _, _, rfl⟩ := hsh
    have honce := JoinsOnce.of_reached hp hnext
    rw [deedsOf_map_deed, if_pos rfl, ← List.append_assoc first] at honce
    rw [← List.append_assoc first]
    exact hj.start (not_joins_of_turn? hturn) honce rfl
  | @loop i _ _ task' _ _ _ _ _ hloop hturn hgoes hend htask hsh =>
    obtain ⟨hout, -⟩ := hgoes.outcomes
    obtain ⟨-, _, _, _, _, rfl⟩ := hsh
    refine hj.loop _ hloop (result?_of_turn? hturn)
      (fun hgone => (hgone.turn hturn hgoes).wake htask) fun j o => ?_
    have hnot : task' ≠ .ended o := by
      rintro rfl
      have hnone := htask.result? hend
      cases hnone
    rw [hout]
    simp [hnot]
  | loopEnds hloop hturn hgoes hsh =>
    obtain ⟨hout, -⟩ := hgoes.outcomes
    obtain ⟨-, _, _, _, _, rfl⟩ := hsh
    refine hj.loop _ hloop (result?_of_turn? hturn) (fun hgone => hgone.turn hturn hgoes)
      fun j o' => ?_
    rw [← hout]
    exact Joining.mem_append_ended
  | stored hmain =>
    refine hj.of_same rfl rfl (by simp) ⟨?_, ?_⟩
    · rintro ⟨n, k, h⟩
      cases h
    · rintro ⟨n, k, h⟩
      cases hmain.symm.trans h
  | @stillborn i sh hloop hsh =>
    obtain ⟨-, _, _, _, _, rfl⟩ := hsh
    refine hj.loop [] hloop rfl (fun hgone => ?_) fun j o => Joining.mem_append_ended
    rw [List.append_nil]
    exact hgone.stillborn
  | note hjoined hmain hsh =>
    obtain ⟨-, _, _, _, _, rfl⟩ := hsh
    rcases hmain with rfl | ⟨w, k, wake, hwaits, ⟨⟨n, rfl⟩, hlast, -⟩, rfl⟩
    · exact hj.of_same rfl rfl (by simp) .rfl
    · exact hj.noted ⟨n, k, hwaits⟩ (by have hle := s.ended_le_length; omega) rfl
  | consumer hactive hmain hsh =>
    obtain ⟨-, _, _, _, _, rfl⟩ := hsh
    exact hj.of_same rfl (Shared.consumerTurn_leaves env s.shared).1 (by simp)
      (hmain.joins_iff (by simp))
  | ticker hactive hmain hsh =>
    obtain ⟨-, _, _, _, _, rfl⟩ := hsh
    exact hj.of_same rfl (Shared.tickerTurn_leaves env s.shared).1 (by simp)
      (hmain.joins_iff (by simp))
  | wakeMain hmain hsh =>
    obtain ⟨-, _, _, _, _, rfl⟩ := hsh
    exact hj.of_same rfl rfl (by simp) (hmain.joins_iff (by simp))
  | @wakeLoop i ms k sh hloop hsh =>
    obtain ⟨-, _, _, _, _, rfl⟩ := hsh
    have hgone (hgone : Gone (program i) (deedsOf (some i) h) (.waiting (.sleep ms) k)) :
        Gone (program i) (deedsOf (some i) h ++ []) (.woken .resumed k) := by
      rw [List.append_nil]
      exact hgone.wake (.inr ⟨_, k, _, rfl, ⟨⟨ms, rfl⟩, rfl⟩, rfl⟩)
    have hwoken : Joining program (h ++ [])
        { s with loops := withLoop i (.woken .resumed k) s.loops } :=
      hj.loop [] hloop rfl hgone (by simp)
    rw [List.append_nil] at hwoken
    exact hwoken.of_same rfl rfl (by simp) .rfl
  | idle => exact hj.of_same rfl rfl (by simp) .rfl
  | tick hphase hsh =>
    obtain ⟨-, _, _, _, _, rfl⟩ := hsh
    exact hj.of_same rfl rfl (by simp) .rfl
  | timeout => exact hj.of_same rfl rfl (by simp) .rfl
  | cancel => exact hj.of_same rfl rfl (by simp) .rfl
  | interrupt hmain hsh =>
    obtain ⟨-, _, _, _, _, rfl⟩ := hsh
    refine hj.of_same rfl rfl (by simp)
      ⟨fun h => absurd h (Task.not_joins_interrupted _), ?_⟩
    rintro ⟨n, k, hloops⟩
    simpa using hmain _ _ hloops
  | interruptConsumer hmain =>
    exact hj.of_same rfl (Shared.answer_leaves env .stopConsumer s.shared).1 (by simp) .rfl
  | interruptTicker hmain =>
    exact hj.of_same rfl (Shared.answer_leaves env .stopTicker s.shared).1 (by simp) .rfl
  | @interruptLoops n k sh hmain hsh =>
    obtain ⟨-, _, _, _, _, rfl⟩ := hsh
    have hjoins : s.main.Joins := ⟨n, k, hmain⟩
    cases hj with
    | before hnone hno hsilent =>
      exact .before (by simpa using hnone) (by rw [hno]; rfl) (by simpa using hsilent)
    | during t n ht _ hforked =>
      exact .during t n (by simpa using ht) hjoins
        ((hforked.interrupted rfl).of_same rfl rfl (by simp))
    | after _ _ _ _ hnot => exact absurd hjoins hnot

theorem Reaches.joining {p : Program α} (hp : p.JoinsOnce) {s s' : State σ α}
    {h : List Happening} (hs : Reaches env program s h s') (hmain : s.main = .fresh p)
    (hloops : s.loops = []) : Joining program h s' := by
  have hd : s.Distinct := by
    rw [Distinct, hloops]
    exact List.nodup_nil
  have hboth : s'.main.Reached p (deedsOf none h) ∧ Joining program h s' := by
    refine hs.induction
      (P := fun h s => s.main.Reached p (deedsOf none h) ∧ Joining program h s) hd ?_ ?_ ?_
    · rw [hmain]
      exact ⟨.fresh, .before rfl hloops fun _ => rfl⟩
    · rintro h s clock timers current next ⟨hreached, hj⟩
      have hsame : Joining program (h ++ [])
          { s with shared := { s.shared with clock, timers, current, next } } :=
        hj.of_same rfl rfl (fun _ => rfl) .rfl
      rw [List.append_nil] at hsame
      exact ⟨hreached, hsame⟩
    · rintro h s j h₁ s₁ ⟨hreached, hj⟩ hm
      refine ⟨?_, hm.joining hp hreached hj⟩
      rw [deedsOf_append]
      exact hm.main_reached hreached
  exact hboth.2

/-! ### What is known in the end -/

/-- A list of the ends of loop indices is true: it names every loop index that did anything, and
each that it names has gone through its program, or was interrupted before it had control. -/
structure Accounted (program : Nat → Program (Option Failure)) (h : List Happening)
    (outs : List (Nat × Option Failure)) : Prop where
  named {i : Nat} : deedsOf (some i) h ≠ [] → ∃ o, (i, o) ∈ outs
  ends {i : Nat} {o : Option Failure} : (i, o) ∈ outs →
    (program i).Ends (deedsOf (some i) h) o ∨
      deedsOf (some i) h = [] ∧ o = some .interrupted

theorem Forked.accounted {h : List Happening} {s : State σ α} (hf : Forked program h s)
    (hall : ∀ l ∈ s.loops, l.2.result?.isSome = true) :
    Accounted program h s.shared.outcomes where
  named {i} hdeeds := by
    refine Classical.byContradiction fun hno => hdeeds (hf.silent fun task hm => hno ?_)
    have hsome := hall _ hm
    cases task with
    | ended o => exact ⟨o, hf.known.mpr hm⟩
    | _ => cases hsome
  ends hm := by
    rcases hf.gone (hf.known.mp hm) with hreached | ⟨hnone, heq⟩
    · exact .inl hreached.ends
    · cases heq
      exact .inr ⟨hnone, rfl⟩

/-- A list with one wait for loop indices has only one rest behind it. -/
theorem eq_of_one_join {t t' u u' : List Deed} {n m : Nat}
    (hone : (t ++ .wait (.loops n) :: t').countP Deed.joins ≤ 1)
    (h : t ++ .wait (.loops n) :: t' = u ++ .wait (.loops m) :: u') : t' = u' := by
  -- Were one of the waits behind the other, there would be two of them.
  have htwo {t as u' : List Deed} {n m : Nat} (hone : (t ++ .wait (.loops n) ::
      (as ++ .wait (.loops m) :: u')).countP Deed.joins ≤ 1) : False := by
    rw [List.countP_append, List.countP_cons_of_pos rfl, List.countP_append,
      List.countP_cons_of_pos rfl] at hone
    omega
  rcases List.append_eq_append_iff.mp h with ⟨as, rfl, has⟩ | ⟨as, rfl, has⟩
  · cases as with
    | nil => exact (List.cons.inj has).2
    | cons d as =>
      rw [(List.cons.inj has).2] at hone
      exact (htwo hone).elim
  · cases as with
    | nil => exact (List.cons.inj has).2.symm
    | cons d as =>
      rw [h, (List.cons.inj has).2] at hone
      exact (htwo hone).elim

/-- When a main task that waits for loop indices at most once has ended, it has not waited for them
and none of them did anything, or what it was told of their ends after the wait is true. -/
theorem Reaches.accounted {p : Program α} (hp : p.JoinsOnce) {shared : Shared σ} {s : State σ α}
    {h : List Happening} {a : α} (hs : Reaches env program (start shared p) h s)
    (ha : s.main = .ended a) :
    (deedsOf none h).countP Deed.joins = 0 ∧ (∀ i, deedsOf (some i) h = []) ∨
      (deedsOf none h).countP Deed.joins = 1 ∧
        ∀ t n t' outs, deedsOf none h = t ++ .wait (.loops n) :: t' →
          .call .outcomes outs ∈ t' → Accounted program h outs := by
  cases hs.joining hp rfl rfl with
  | before hnone hno hsilent => exact .inl ⟨hnone, hsilent⟩
  | during t n ht hjoins =>
    obtain ⟨n, k, hmain⟩ := hjoins
    rw [ha] at hmain
    cases hmain
  | after t n t' ht hmain hforked hall htold =>
    have honce := hp _ a (hs.main_ends (distinct_start _ _) rfl ha)
    refine .inr ⟨?_, fun u m u' outs hu hm => ?_⟩
    · rw [ht, List.countP_append, List.countP_cons_of_pos rfl] at honce ⊢
      omega
    -- There is only one wait, and so only one part behind it.
    · rw [ht] at honce hu
      rw [htold outs (eq_of_one_join honce hu ▸ hm)]
      exact hforked.accounted hall

end State

end Schedule

end Runbook
