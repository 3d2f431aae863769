import Runbook.Proofs.Joining

/-!
# Runs that nobody interrupts

As long as no alarm interrupts the main task, hardly any wait ends with an interruption: only the
wait for the ticker, which always ends so, and the wait for a consumer that the main task itself has
told to stop. Loop indices are not interrupted at all, and what is known of their ends is what their
programs ended with.

* `Undisturbed excused t`: every interruption in a trace is excused by what was done before.
* `State.Calm p program h s`: so far nothing has been interrupted that is not excused.
* `State.Reaches.calm`: so it is in every schedule without an alarm that interrupts.
* `State.Reaches.told_undisturbed`: what the main task is told of the ends of loop indices then.
-/

namespace Runbook

/-- Every wait in a trace that ends with an interruption is excused, given what was done before. -/
def Undisturbed (excused : List Deed → Wait → Prop) (t : List Deed) : Prop :=
  ∀ a w b, t = a ++ .wait w :: .wake .interrupted :: b → excused a w

namespace Undisturbed

variable {excused : List Deed → Wait → Prop} {t t' : List Deed}

theorem nil (excused : List Deed → Wait → Prop) : Undisturbed excused [] := by
  intro a w b h
  cases a <;> cases h

/-- What follows without an interruption needs no excuse. -/
theorem append (h : Undisturbed excused t) (h' : .wake .interrupted ∉ t') :
    Undisturbed excused (t ++ t') := by
  intro a w b heq
  have hsplit : t ++ t' = (a ++ [.wait w, .wake .interrupted]) ++ b := by simpa using heq
  rcases List.append_eq_append_iff.mp hsplit with ⟨as, has, rfl⟩ | ⟨bs, rfl, -⟩
  · rcases List.eq_nil_or_concat as with rfl | ⟨as, d, rfl⟩
    · exact h a w [] (by simpa using has.symm)
    -- The interruption would be the last deed of what follows.
    · have hends : (a ++ [.wait w]) ++ [.wake .interrupted] = (t ++ as) ++ [d] := by simpa using has
      cases List.singleton_inj.mp (List.append_inj' hends rfl).2
      exact absurd (by simp) h'
  · exact h a w bs (by simp)

/-- A wait that is excused may end with an interruption. -/
theorem wake {w : Wait} (h : Undisturbed excused (t ++ [.wait w])) (hw : excused t w) :
    Undisturbed excused ((t ++ [.wait w]) ++ [.wake .interrupted]) := by
  intro a w' b heq
  rcases List.eq_nil_or_concat b with rfl | ⟨b, d, rfl⟩
  · have hends : (t ++ [.wait w]) ++ [.wake .interrupted] =
        (a ++ [.wait w']) ++ [.wake .interrupted] := by simpa using heq
    obtain ⟨rfl, hwait⟩ := List.append_inj' (List.append_inj' hends rfl).1 rfl
    cases hwait
    exact hw
  · have hends : (t ++ [.wait w]) ++ [.wake .interrupted] =
        (a ++ .wait w' :: .wake .interrupted :: b) ++ [d] := by simpa using heq
    exact h a w' b (List.append_inj' hends rfl).1

end Undisturbed

/-- Whoever comes to an end is interrupted in a wait or not at all. -/
theorem Program.Ends.not_interrupted {p : Program α} {t : List Deed} {a : α} (h : p.Ends t a)
    (hwaits : ∀ b w c, t ≠ b ++ .wait w :: .wake .interrupted :: c) :
    .wake .interrupted ∉ t := by
  induction p generalizing t with
  | done =>
    obtain ⟨rfl, -⟩ := ends_done_iff.mp h
    exact List.not_mem_nil
  | call c k ih =>
    obtain ⟨r, t', rfl, h'⟩ := ends_call_iff.mp h
    have hrest := ih r h' fun b w c heq => hwaits (_ :: b) w c (congrArg _ heq)
    simpa using hrest
  | wait w k ih =>
    obtain ⟨wake, t', rfl, h'⟩ := ends_wait_iff.mp h
    have hrest := ih wake h' fun b w c heq => hwaits (_ :: _ :: b) w c (by rw [heq]; rfl)
    cases wake with
    | resumed => simpa using hrest
    | interrupted => exact absurd rfl (hwaits [] w t')

/-- A call that begins or ends the gathering of events. -/
def Call.Gathers : Call → Prop
  | .startAggregator _ | .stopConsumer => True
  | _ => False

/-- What excuses an interruption of the main task that no alarm has caused: the ticker is stopped
in this way, and so is a consumer that the task itself has told to stop. -/
def Excused (before : List Deed) (w : Wait) : Prop :=
  w = .ticker ∨ w = .consumer ∧
    ((∃ r, .call (.startAggregator r) () ∈ before) → .call .stopConsumer () ∈ before)

namespace Schedule

variable {σ α : Type}

/-! ### The consumer is stopped only if it is told so -/

/-- A consumer that has been started in a trace is stopped only if the trace has told it so. -/
def Shared.Told (t : List Deed) (s : Shared σ) : Prop :=
  (∃ r, .call (.startAggregator r) () ∈ t) → s.consumer.stopped = true → .call .stopConsumer () ∈ t

namespace Shared

theorem stopped_of_roused {d d' : Daemon} (h : d.Roused d') : d'.stopped = d.stopped := by
  rcases h with rfl | ⟨-, rfl⟩ <;> rfl

theorem stopped_answer (env : Collaborators σ) {c : Call} (hc : ¬ c.Gathers) (s : Shared σ) :
    (answer env c s).2.consumer.stopped = s.consumer.stopped := by
  cases c with
  | emit e =>
    obtain ⟨-, consumer, js, outside, heq, hroused, -⟩ := emit_spec env e s
    exact (congrArg (·.consumer.stopped) heq).trans (stopped_of_roused hroused)
  | offerEnd =>
    obtain ⟨-, consumer, js, heq, hroused, -⟩ := offerEnd_spec s
    exact (congrArg (·.consumer.stopped) heq).trans (stopped_of_roused hroused)
  | stopTicker =>
    obtain ⟨ticker, timers, js, heq, -⟩ := stopTicker_spec s
    exact congrArg (·.consumer.stopped) heq
  | startAggregator r => exact absurd trivial hc
  | stopConsumer => exact absurd trivial hc
  | _ => rfl

theorem Told.answer (env : Collaborators σ) {t : List Deed} {s : Shared σ} (h : s.Told t)
    (c : Call) : (answer env c s).2.Told (t ++ [.call c (answer env c s).1]) := by
  by_cases hc : c.Gathers
  · cases c with
    | startAggregator r =>
      intro _ hstopped
      cases hstopped
    | stopConsumer => exact fun _ _ => by simp
    | _ => exact hc.elim
  · rintro ⟨r, hm⟩ hstopped
    rw [stopped_answer env hc] at hstopped
    rcases List.mem_append.mp hm with hm | hm
    · exact List.mem_append_left _ (h ⟨r, hm⟩ hstopped)
    · cases List.mem_singleton.mp hm
      exact absurd trivial hc

end Shared

section GoesOn

variable {env : Collaborators σ} {p : Program α} {s s' : Shared σ} {t u : List Deed} {task : Task α}

/-- A task that goes on tells the consumer to stop, or lets it go on. -/
theorem GoesOn.told (hgoes : GoesOn env p s u task s') (h : s.Told t) : s'.Told (t ++ u) := by
  have hsilent {s : Shared σ} {t ds : List Deed} (h : s.Told t)
      (hds : ∀ c reply, .call c reply ∉ ds) : s.Told (t ++ ds) := by
    rintro ⟨r, hm⟩ hstopped
    exact List.mem_append_left _ (h ⟨r, (List.mem_append.mp hm).resolve_right (hds _ _)⟩ hstopped)
  induction hgoes generalizing t with
  | done | before => rwa [List.append_nil]
  | call _ ih =>
    rw [List.append_cons]
    exact ih (h.answer env _)
  | @resume w _ _ _ _ _ _ _ ih =>
    have hwaited : Shared.Told (t ++ [.wait w, .wake .resumed]) _ := hsilent h (by simp)
    have hnext := ih hwaited
    rwa [List.append_assoc] at hnext
  | wait => exact hsilent h (by simp)
  | after => exact h.answer env _

/-- A task that does not concern itself with the gathering of events leaves the consumer alone. -/
theorem GoesOn.told_apart (hgoes : GoesOn env p s u task s') (h : s.Told t)
    (hquiet : ∀ c reply, .call c reply ∈ u → ¬ c.Gathers) : s'.Told t := by
  rintro ⟨r, hm⟩ hstopped
  have htold := hgoes.told h ⟨r, List.mem_append_left _ hm⟩ hstopped
  exact (List.mem_append.mp htold).resolve_right fun hm => hquiet _ _ hm trivial

/-! ### Tasks that are not interrupted -/

theorem GoesOn.not_interrupted (hgoes : GoesOn env p s t task s') : .wake .interrupted ∉ t := by
  induction hgoes with
  | call _ ih => simpa using ih
  | resume _ _ ih => simpa using ih
  | _ => simp

/-- A task that has gone on has been born, and has not been woken since. -/
theorem GoesOn.not_woken (hgoes : GoesOn env p s t task s') :
    task ≠ .stillborn ∧ ∀ wake k, task ≠ .woken wake k := by
  induction hgoes with
  | call _ ih => exact ih
  | resume _ _ ih => exact ih
  | _ => exact ⟨nofun, nofun⟩

end GoesOn

namespace Task

variable {excused : List Deed → Wait → Prop} {p q : Program α} {t : List Deed}
  {task task' : Task α}

/-- A task of the program `p` that has done `t` has not been interrupted, and will not be when it
goes on, but where that is excused. -/
structure Calm (excused : List Deed → Wait → Prop) (p : Program α) (t : List Deed)
    (task : Task α) : Prop where
  reached : task.Reached p t
  born : task ≠ .stillborn
  undisturbed : Undisturbed excused t
  woken {k : Wake → Program α} : task = .woken .interrupted k →
    Undisturbed excused (t ++ [.wake .interrupted])

theorem Calm.fresh (excused : List Deed → Wait → Prop) (p : Program α) :
    (Task.fresh p).Calm excused p [] :=
  ⟨.fresh, nofun, .nil excused, nofun⟩

theorem Calm.turn {env : Collaborators σ} {first u : List Deed} {s s' : Shared σ}
    (h : task.Calm excused p t) (hturn : task.turn? = some (first, q))
    (hgoes : GoesOn env q s u task' s') : task'.Calm excused p (t ++ (first ++ u)) := by
  have hcalm : Undisturbed excused (t ++ first) := by
    cases task with
    | fresh | paused =>
      cases hturn
      exact h.undisturbed.append nofun
    | woken wake k =>
      cases hturn
      cases wake with
      | resumed => exact h.undisturbed.append (by simp)
      | interrupted => exact h.woken rfl
    | _ => cases hturn
  obtain ⟨hborn, hwoken⟩ := hgoes.not_woken
  refine ⟨h.reached.turn hturn hgoes, hborn, ?_, fun heq => absurd heq (hwoken _ _)⟩
  rw [← List.append_assoc]
  exact hcalm.append hgoes.not_interrupted

/-- A task that waits is woken, and interrupted only where that is excused. -/
theorem Calm.wake {allowed : Wait → Wake → Prop} (h : task.Calm excused p t)
    (hw : task.Woken allowed task')
    (hall : ∀ w before, allowed w .interrupted → t = before ++ [.wait w] → excused before w) :
    task'.Calm excused p t := by
  refine ⟨h.reached.wake hw, ?_, h.undisturbed, ?_⟩
  · rcases hw with rfl | ⟨w, k, wake, -, -, rfl⟩
    · exact h.born
    · exact nofun
  · rintro k rfl
    rcases hw with heq | ⟨w, k, wake, rfl, ha, heq⟩
    · exact h.woken heq.symm
    · cases heq
      obtain ⟨hreached, -, hcalm, -⟩ := h
      cases hreached with
      | waiting hleads => exact hcalm.wake (hall w _ ha rfl)

/-- A task that is only resumed is not interrupted. -/
theorem Calm.resume {waits : Wait → Prop} (h : task.Calm excused p t)
    (hw : task.Woken (fun w wake => waits w ∧ wake = .resumed) task') : task'.Calm excused p t :=
  h.wake hw fun _ _ ha => nomatch ha.2

end Task

namespace State

variable {env : Collaborators σ} {program : Nat → Program (Option Failure)}

/-- So far nothing has been interrupted, but where that is excused: neither the main task of the
program `p`, nor its wait for loop indices, nor any of these. -/
structure Calm (p : Program α) (program : Nat → Program (Option Failure)) (h : List Happening)
    (s : State σ α) : Prop where
  main : s.main.Calm Excused p (deedsOf none h)
  join : s.joinInterrupted = false
  told : s.shared.Told (deedsOf none h)
  loops {i : Nat} {task : Task (Option Failure)} : (i, task) ∈ s.loops →
    task.Calm (fun _ _ => False) (program i) (deedsOf (some i) h)

/-- Loop indices leave the gathering of events alone. -/
def LoopsApart (h : List Happening) : Prop :=
  ∀ i c reply, .call c reply ∈ deedsOf (some i) h → ¬ c.Gathers

theorem LoopsApart.of_append {h h' : List Happening} (ha : LoopsApart (h ++ h')) :
    LoopsApart h ∧ LoopsApart h' := by
  constructor <;> intro i c reply hm <;> refine ha i c reply ?_ <;> rw [deedsOf_append]
  · exact List.mem_append_left _ hm
  · exact List.mem_append_right _ hm

/-- A loop index that has not had control yet has done nothing. -/
theorem Joining.silent_of_fresh {h : List Happening} {s : State σ α} (hj : Joining program h s)
    {i : Nat} {q : Program (Option Failure)} (hm : (i, .fresh q) ∈ s.loops) :
    deedsOf (some i) h = [] := by
  have hforked (hf : Forked program h s) : deedsOf (some i) h = [] := by
    rcases hf.gone hm with hreached | ⟨hnone, -⟩
    · generalize deedsOf (some i) h = t at hreached ⊢
      cases hreached
      rfl
    · exact hnone
  cases hj with
  | before _ hno =>
    rw [hno] at hm
    cases hm
  | during _ _ _ _ hf => exact hforked hf
  | after _ _ _ _ _ hf => exact hforked hf

namespace Calm

variable {p : Program α} {h h' : List Happening} {s : State σ α}

/-- What happens beside the tasks may wake the main task. -/
theorem beside {main : Task α} {joined : Nat} {sh : Shared σ} (hc : Calm p program h s)
    (hmain : main.Calm Excused p (deedsOf none h))
    (hstopped : sh.consumer.stopped = s.shared.consumer.stopped)
    (hdeeds : ∀ who, deedsOf who h' = []) :
    Calm p program (h ++ h') { s with main, joined, shared := sh } := by
  have hsame (who : Option Nat) : deedsOf who (h ++ h') = deedsOf who h := by
    rw [deedsOf_append, hdeeds, List.append_nil]
  refine ⟨?_, hc.join, ?_, fun {i task} hm => ?_⟩
  · rwa [hsame]
  · rw [hsame, Shared.Told, hstopped]
    exact hc.told
  · rw [hsame]
    exact hc.loops hm

/-- A loop index that goes on tells nobody to stop. -/
theorem told_loop (hc : Calm p program h s) {i : Nat} {first u : List Deed}
    {q : Program (Option Failure)} {task : Task (Option Failure)} {sh : Shared σ}
    (hgoes : GoesOn env q s.shared u task sh)
    (hapart : LoopsApart ((first ++ u).map (.deed (some i)))) : sh.Told (deedsOf none h) := by
  refine hgoes.told_apart hc.told fun c reply hm => hapart i c reply ?_
  rw [deedsOf_map_deed, if_pos rfl]
  exact List.mem_append_right _ hm

/-- When the main task goes on and the consumer is told to stop, it is the main task that does. -/
theorem told_main (hc : Calm p program h s) {first u : List Deed} {q : Program α} {task : Task α}
    {sh : Shared σ} (hturn : s.main.turn? = some (first, q))
    (hgoes : GoesOn env q s.shared u task sh) : sh.Told (deedsOf none h ++ (first ++ u)) := by
  rw [← List.append_assoc]
  refine hgoes.told fun ⟨r, hm⟩ hstopped => List.mem_append_left _ ?_
  refine hc.told ⟨r, (List.mem_append.mp hm).resolve_right ?_⟩ hstopped
  -- What wakes the task tells it nothing.
  rcases Task.first_of_turn? hturn with rfl | ⟨wake, rfl⟩ <;> simp

/-- One loop index goes on. -/
theorem withLoop {i : Nat} {t t' : Task (Option Failure)} {ds : List Deed} {sh : Shared σ}
    (hc : Calm p program h s) (hloop : s.loop? i = some t)
    (hcalm : t'.Calm (fun _ _ => False) (program i) (deedsOf (some i) h ++ ds))
    (htold : sh.Told (deedsOf none h)) :
    Calm p program (h ++ ds.map (.deed (some i)))
      { s with loops := withLoop i t' s.loops, shared := sh } := by
  have hother (who : Option Nat) (hne : some i ≠ who) :
      deedsOf who (h ++ ds.map (.deed (some i))) = deedsOf who h := by
    rw [deedsOf_append, deedsOf_map_deed, if_neg hne, List.append_nil]
  refine ⟨?_, hc.join, ?_, fun {j u} hm => ?_⟩
  · rw [hother none nofun]
    exact hc.main
  · rwa [hother none nofun]
  · rcases (mem_withLoop hloop).mp hm with ⟨rfl, rfl⟩ | ⟨hj, hm⟩
    · rwa [deedsOf_append, deedsOf_map_deed, if_pos rfl]
    · rw [hother _ fun heq => hj (Option.some.inj heq).symm]
      exact hc.loops hm

end Calm

/-- Without an alarm that interrupts, a move interrupts nothing. -/
theorem Move.calm {p : Program α} {s s' : State σ α} {j : Job} {h h' : List Happening}
    (hm : Move env program s j h' s') (hj : Joining program (h ++ h') s')
    (hnone : .alarm .interrupt ∉ h') (hapart : LoopsApart h') (hc : Calm p program h s) :
    Calm p program (h ++ h') s' := by
  cases hm with
  | skip => simpa using hc
  | main hturn hgoes hloops htask hsh =>
    have htold := hc.told_main hturn hgoes
    obtain ⟨-, _, _, _, _, rfl⟩ := hsh
    refine ⟨?_, hc.join, ?_, fun {i u} hm => ?_⟩
    · rw [deedsOf_append, deedsOf_map_deed, if_pos rfl]
      exact (hc.main.turn hturn hgoes).resume htask
    · rwa [deedsOf_append, deedsOf_map_deed, if_pos rfl]
    · rw [deedsOf_append, deedsOf_map_deed, if_neg nofun, List.append_nil]
      exact hc.loops hm
  | start hturn hgoes hsh =>
    have htold := hc.told_main hturn hgoes
    obtain ⟨-, _, _, _, _, rfl⟩ := hsh
    refine ⟨?_, rfl, ?_, fun {i u} hm => ?_⟩
    · rw [deedsOf_append, deedsOf_map_deed, if_pos rfl]
      exact hc.main.turn hturn hgoes
    · rwa [deedsOf_append, deedsOf_map_deed, if_pos rfl]
    · obtain ⟨j, -, heq⟩ := List.mem_map.mp hm
      cases heq
      rw [hj.silent_of_fresh hm]
      exact .fresh _ _
  | loop hloop hturn hgoes hend htask hsh =>
    have htold := hc.told_loop hgoes hapart
    obtain ⟨-, _, _, _, _, rfl⟩ := hsh
    exact hc.withLoop hloop (((hc.loops (mem_of_loop? hloop)).turn hturn hgoes).resume htask) htold
  | loopEnds hloop hturn hgoes hsh =>
    have htold := hc.told_loop hgoes hapart
    obtain ⟨-, _, _, _, _, rfl⟩ := hsh
    exact hc.withLoop hloop ((hc.loops (mem_of_loop? hloop)).turn hturn hgoes) htold
  | stored hmain =>
    exact hc.beside (hc.main.resume (.inr ⟨_, _, _, hmain, ⟨rfl, rfl⟩, rfl⟩)) rfl (by simp)
  | stillborn hloop hsh => exact absurd rfl (hc.loops (mem_of_loop? hloop)).born
  | note hjoined hmain hsh =>
    obtain ⟨-, _, _, _, _, rfl⟩ := hsh
    rw [hc.join] at hmain
    exact hc.beside (hc.main.resume (hmain.mono fun w wake hw => ⟨hw.1, hw.2.2⟩)) rfl (by simp)
  | consumer hactive hmain hsh =>
    obtain ⟨_, _, _, _, _, hturn⟩ := Shared.consumerTurn_spec env s.shared
    have hstopped := congrArg (·.consumer.stopped) hturn
    obtain ⟨-, _, _, _, _, rfl⟩ := hsh
    refine hc.beside (hc.main.wake hmain fun w before hw ht => ?_) hstopped (by simp)
    rcases hw with ⟨-, hwake⟩ | ⟨rfl, -, hwake⟩
    · cases hwake
    -- The consumer has been stopped, and so the main task has told it to stop.
    · refine .inr ⟨rfl, fun ⟨r, hm⟩ => ?_⟩
      have hstop : s.shared.consumer.stopped = true := by
        rw [← hstopped]
        split at hwake
        · assumption
        · cases hwake
      have htold := hc.told ⟨r, ht ▸ List.mem_append_left _ hm⟩ hstop
      rw [ht] at htold
      exact (List.mem_append.mp htold).resolve_right (by simp)
  | ticker hactive hmain hsh =>
    obtain ⟨_, _, _, _, hturn⟩ := Shared.tickerTurn_spec env s.shared
    have hstopped := congrArg (·.consumer.stopped) hturn
    obtain ⟨-, _, _, _, _, rfl⟩ := hsh
    exact hc.beside (hc.main.wake hmain fun w _ hw _ => .inl hw.1) hstopped (by simp)
  | wakeMain hmain hsh =>
    obtain ⟨-, _, _, _, _, rfl⟩ := hsh
    exact hc.beside (hc.main.resume hmain) rfl (by simp)
  | @wakeLoop i ms k sh hloop hsh =>
    obtain ⟨-, _, _, _, _, rfl⟩ := hsh
    have hsettles : (Task.waiting (.sleep ms) k).Settles (.woken .resumed k) :=
      .inr ⟨_, k, _, rfl, ⟨⟨ms, rfl⟩, rfl⟩, rfl⟩
    have hwoken : (Task.woken .resumed k).Calm (fun _ _ => False) (program i)
        (deedsOf (some i) h ++ []) := by
      rw [List.append_nil]
      exact (hc.loops (mem_of_loop? hloop)).resume hsettles
    have hnext := hc.withLoop hloop hwoken hc.told
    rw [List.map_nil, List.append_nil] at hnext
    exact hnext.beside hnext.main rfl (by simp)
  | idle => exact hc.beside hc.main rfl (by simp)
  | tick hphase hsh =>
    obtain ⟨-, _, _, _, _, rfl⟩ := hsh
    exact hc.beside hc.main rfl (by simp)
  | timeout => exact hc.beside hc.main rfl (by simp)
  | cancel => exact hc.beside hc.main rfl (by simp)
  | interrupt => exact absurd (List.mem_singleton_self _) hnone
  | interruptConsumer => exact absurd (List.mem_singleton_self _) hnone
  | interruptTicker => exact absurd (List.mem_singleton_self _) hnone
  | interruptLoops => exact absurd (List.mem_singleton_self _) hnone

/-- In a schedule without an alarm that interrupts, nothing is interrupted. -/
theorem Reaches.calm {p : Program α} (hp : p.JoinsOnce) {shared : Shared σ} {s : State σ α}
    {h : List Happening} (hs : Reaches env program (start shared p) h s)
    (hnone : .alarm .interrupt ∉ h) (hapart : LoopsApart h) : Calm p program h s := by
  have hall : s.main.Reached p (deedsOf none h) ∧ Joining program h s ∧
      (.alarm .interrupt ∉ h → LoopsApart h → Calm p program h s) := by
    refine hs.induction (P := fun h s => s.main.Reached p (deedsOf none h) ∧
      Joining program h s ∧ (.alarm .interrupt ∉ h → LoopsApart h → Calm p program h s))
      (distinct_start _ _) ?_ ?_ ?_
    · exact ⟨.fresh, .before rfl rfl fun _ => rfl, fun _ _ =>
        ⟨.fresh _ _, rfl, fun ⟨_, hm⟩ => absurd hm List.not_mem_nil, nofun⟩⟩
    · rintro h s clock timers current next ⟨hreached, hj, hcalm⟩
      refine ⟨hreached, ?_, fun hnone hapart => ?_⟩
      · rw [← List.append_nil h]
        exact hj.of_same rfl rfl (fun _ => rfl) .rfl
      · have hc := hcalm hnone hapart
        rw [← List.append_nil h]
        exact hc.beside hc.main rfl fun _ => rfl
    · rintro h s j h₁ s₁ ⟨hreached, hj, hcalm⟩ hm
      have hj₁ := hm.joining hp hreached hj
      refine ⟨?_, hj₁, fun hnone hapart => ?_⟩
      · rw [deedsOf_append]
        exact hm.main_reached hreached
      · rw [List.mem_append, not_or] at hnone
        obtain ⟨hapart, hapart₁⟩ := hapart.of_append
        exact hm.calm hj₁ hnone.2 hapart₁ (hcalm hnone.1 hapart)
  exact hall.2.2 hnone hapart

/-- When a main task has ended that nobody interrupted, all that it was told of the ends of loop
indices is what their programs, which nobody interrupted either, ended with. -/
theorem Reaches.told_undisturbed {p : Program α} (hp : p.JoinsOnce) {shared : Shared σ}
    {s : State σ α} {h : List Happening} {a : α} (hs : Reaches env program (start shared p) h s)
    (ha : s.main = .ended a) (hnone : .alarm .interrupt ∉ h) (hapart : LoopsApart h)
    {t t' : List Deed} {n : Nat} {outs : List (Nat × Option Failure)}
    (ht : deedsOf none h = t ++ .wait (.loops n) :: t') (hm : .call .outcomes outs ∈ t') {i : Nat}
    {o : Option Failure} (ho : (i, o) ∈ outs) :
    (program i).Ends (deedsOf (some i) h) o ∧
      Undisturbed (fun _ _ => False) (deedsOf (some i) h) := by
  have hcalm := hs.calm hp hnone hapart
  cases hs.joining hp rfl rfl with
  | before hnone =>
    rw [ht, List.countP_append, List.countP_cons_of_pos rfl] at hnone
    omega
  | during u m hu hjoins =>
    obtain ⟨m, k, hmain⟩ := hjoins
    rw [ha] at hmain
    cases hmain
  | after u m u' hu hjoins hforked hall htold =>
    have honce := hp _ a (hs.main_ends (distinct_start _ _) rfl ha)
    rw [ht] at honce hu
    rw [htold outs (eq_of_one_join honce hu ▸ hm)] at ho
    have hloop := hcalm.loops (hforked.known.mp ho)
    exact ⟨hloop.reached.ends, hloop.undisturbed⟩

end State

end Schedule

end Runbook
