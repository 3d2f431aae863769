import Runbook.Proofs.Stopping
import Runbook.Proofs.Underway

/-!
# Winding down

Between a look at the request to stop and the next wait of a task, or its next call that takes time,
no other task has control and no alarm goes off. So as long as the task is free to go on, nobody has
asked it to stop. Once somebody has, no step is announced any more, and no action of a step or of a
loop begins, in any loop index: only branching actions that are under way at that moment, or that
begin in their turn in this way, go on with what they list.

* `Unasked earlier h`: whenever a task that is free to go on does something at once, nobody has
  asked to stop.
* `State.Reaches.unasked`: so it is in every schedule.
* `Winds automation S t S'`: the deeds `t` take the actions under way from `S` to `S'`, and only
  what branching actions list begins.
* `Whole.winds_down`: after a request, all tasks wind down.
-/

namespace Runbook

open Program Schedule Rehearsal

namespace Schedule

variable {σ α : Type} {earlier c : Option Cancellation} {h h' : List Happening} {who : Option Nat}

/-! ### Looks that are still true -/

/-- Whether a task is free to go on after a history. -/
def isFree (who : Option Nat) (h : List Happening) : Bool := (deedsOf who h).foldl Deed.frees false

/-- Whenever a task that is free to go on does something at once, nobody has asked to stop. -/
def Unasked (earlier : Option Cancellation) (h : List Happening) : Prop :=
  ∀ g who d g', h = g ++ .deed who d :: g' → ¬ d.TakesTime → isFree who g = true →
    requested earlier g = none

namespace Unasked

theorem nil (earlier : Option Cancellation) : Unasked earlier [] := by
  intro g who d g' hsplit
  cases g <;> cases hsplit

/-- One more thing happens. -/
theorem snoc (hu : Unasked earlier h) {x : Happening}
    (hx : ∀ who d, x = .deed who d → ¬ d.TakesTime → isFree who h = true →
      requested earlier h = none) : Unasked earlier (h ++ [x]) := by
  intro g who d g' hsplit
  rcases List.eq_nil_or_concat g' with rfl | ⟨g', y, rfl⟩
  · obtain ⟨rfl, hxs⟩ := List.append_inj' hsplit rfl
    exact hx who d (List.head_eq_of_cons_eq hxs)
  · have hends : h ++ [x] = (g ++ .deed who d :: g') ++ [y] := by simpa using hsplit
    exact hu g who d g' (List.append_inj' hends rfl).1

/-- Where no task does anything, nothing has to be shown. -/
theorem append (hu : Unasked earlier h) (hnone : ∀ who d, .deed who d ∉ h') :
    Unasked earlier (h ++ h') := by
  induction h' generalizing h with
  | nil => rwa [List.append_nil]
  | cons x h' ih =>
    rw [List.append_cons]
    refine ih (hu.snoc fun who d heq => ?_) fun who d hm => hnone who d (List.mem_cons_of_mem _ hm)
    exact absurd (heq ▸ List.mem_cons_self) (hnone who d)

/-- A task does something that takes time, or when nobody has asked to stop, or when it is not free
to go on. -/
theorem deed (hu : Unasked earlier h) {d : Deed}
    (hfree : isFree who h = true → d.TakesTime ∨ requested earlier h = none) :
    Unasked earlier (h ++ [.deed who d]) := by
  refine hu.snoc fun who' d' heq hd hf => ?_
  cases heq
  exact (hfree hf).resolve_left hd

end Unasked

theorem isFree_snoc (who : Option Nat) (h : List Happening) (d : Deed) :
    isFree who (h ++ [.deed who d]) = Deed.frees (isFree who h) d := by
  have hone : deedsOf who [.deed who d] = [d] := deedsOf_map_deed who who [d] ▸ if_pos rfl
  rw [isFree, deedsOf_append, hone, List.foldl_append]
  rfl

/-- Whoever goes on after a wait is not free to go on. -/
theorem isFree_wake (who : Option Nat) (h : List Happening) (wake : Wake) :
    isFree who (h ++ [.deed who (.wake wake)]) = false :=
  isFree_snoc ..

/-- A call leaves a task free only if nobody has asked to stop. -/
theorem Shared.cancellation_of_frees (env : Collaborators σ) (c : Call) {s : Shared σ} {free : Bool}
    (hfree : free = true → c.TakesTime ∨ s.cancellation = none)
    (h : Deed.frees free (.call c (answer env c s).1) = true) :
    (answer env c s).2.cancellation = none := by
  have hquick : ¬ c.TakesTime := fun hc =>
    absurd ((Deed.frees_of_takesTime hc _ free).symm.trans h) Bool.false_ne_true
  have hsame (hfrees : Deed.frees free (.call c (answer env c s).1) = free) :
      s.cancellation = none :=
    (hfree (hfrees ▸ h)).resolve_left hquick
  cases c with
  | cancellation => exact Option.isNone_iff_eq_none.mp h
  | cancel reason timedOut => cases h
  | _ =>
    refine ((answer_leaves env _ s).2 (by simp)).trans (hsame ?_)
    simp [Deed.frees, hquick]

/-- Nobody else has control while a task goes on, so that what a look has found is still true. A
task that is free to go on where it gives way begins with a call that takes time. -/
theorem Unasked.goesOn {env : Collaborators σ} {p : Program α} {s s' : Shared σ} {t : List Deed}
    {task : Task α} (hgoes : GoesOn env p s t task s') (hu : Unasked earlier h)
    (hnow : s.cancellation = requested earlier h)
    (hfree : isFree who h = true → p.TakesTime ∨ s.cancellation = none) :
    Unasked earlier (h ++ t.map (.deed who)) := by
  induction hgoes generalizing h with
  | done | before => rwa [List.map_nil, List.append_nil]
  | @call c k s s' t task _ ih =>
    rw [List.map_cons, List.append_cons]
    refine ih (hu.deed (hnow ▸ hfree)) ?_ fun hf => .inr ?_
    · rw [Shared.cancellation_answer env c who s, hnow, requested_append]
      rfl
    · rw [isFree_snoc] at hf
      exact Shared.cancellation_of_frees env c hfree hf
  | @resume w k s s' t task _ _ ih =>
    rw [List.map_cons, List.map_cons, List.append_cons, List.append_cons]
    have hwoken : Unasked earlier (h ++ [.deed who (.wait w)] ++ [.deed who (.wake .resumed)]) :=
      (hu.deed (hnow ▸ hfree)).deed (by simp [isFree_snoc, Deed.frees])
    refine ih hwoken ?_ fun hf => absurd ((isFree_wake ..).symm.trans hf) Bool.false_ne_true
    rw [requested_append, requested_append]
    exact hnow
  | wait => exact hu.deed (hnow ▸ hfree)
  | after => exact hu.deed (hnow ▸ hfree)

/-- Between its turns a task is not free to go on, unless it has given way before a call. -/
theorem Task.Reached.not_free {task : Task α} {p q : Program α} {t first : List Deed}
    (h : task.Reached p t) (hturn : task.turn? = some (first, q)) :
    t.foldl Deed.frees false = false ∨ first = [] ∧ q.TakesTime := by
  cases h with
  | fresh => exact .inl rfl
  | woken =>
    rw [List.foldl_append]
    exact .inl rfl
  | paused _ _ hgives =>
    cases hturn
    rcases hgives with hbefore | ⟨before, c, r, rfl, hc⟩
    · exact .inr ⟨rfl, hbefore⟩
    · rw [List.foldl_append]
      exact .inl (Deed.frees_of_takesTime hc r _)
  | _ => cases hturn

/-- A task whose turn it is goes on. -/
theorem Unasked.turn {env : Collaborators σ} {task task' : Task α} {first t : List Deed}
    {p q : Program α} {s s' : Shared σ} (hturn : task.turn? = some (first, q))
    (hgoes : GoesOn env q s t task' s') (hreached : task.Reached p (deedsOf who h))
    (hu : Unasked earlier h) (hnow : s.cancellation = requested earlier h) :
    Unasked earlier (h ++ (first ++ t).map (.deed who)) := by
  have hnot := hreached.not_free hturn
  rcases Task.first_of_turn? hturn with rfl | ⟨wake, rfl⟩
  · refine hu.goesOn hgoes hnow fun hf => .inl ?_
    rcases hnot with hnot | ⟨-, hbefore⟩
    · exact absurd (hnot.symm.trans hf) Bool.false_ne_true
    · exact hbefore
  · have hnot : isFree who h = false := hnot.resolve_right (by simp)
    rw [List.singleton_append, List.map_cons, List.append_cons]
    refine (hu.deed (by simp [hnot])).goesOn hgoes ?_ fun hf =>
      absurd ((isFree_wake who h wake).symm.trans hf) Bool.false_ne_true
    rw [hnow, requested_append]
    rfl

namespace State

variable {env : Collaborators σ} {program : Nat → Program (Option Failure)}

/-- A loop index whose turn it is has not ended. -/
theorem Gone.reached {p q : Program (Option Failure)} {t first : List Deed}
    {task : Task (Option Failure)} (h : Gone p t task) (hturn : task.turn? = some (first, q)) :
    task.Reached p t := by
  rcases h with hreached | ⟨-, rfl⟩
  · exact hreached
  · cases hturn

/-- A loop index whose turn it is has been started, and is where its program leads. -/
theorem Joining.reached {s : State σ α} (hj : Joining program h s) {i : Nat}
    {task : Task (Option Failure)} {first : List Deed} {q : Program (Option Failure)}
    (hloop : s.loop? i = some task) (hturn : task.turn? = some (first, q)) :
    task.Reached (program i) (deedsOf (some i) h) := by
  have hm := mem_of_loop? hloop
  cases hj with
  | before _ hno =>
    rw [hno] at hm
    cases hm
  | during _ _ _ _ hforked => exact (hforked.gone hm).reached hturn
  | after _ _ _ _ _ hforked => exact (hforked.gone hm).reached hturn

/-- A move lets one task go on, or none. -/
theorem Move.unasked {p : Program α} {s s' : State σ α} {j : Job} (hm : Move env program s j h' s')
    (hreached : s.main.Reached p (deedsOf none h)) (hj : Joining program h s)
    (hh : Heard earlier h s.shared.cancellation) (hu : Unasked earlier h) :
    Unasked earlier (h ++ h') := by
  cases hm with
  | main hturn hgoes => exact hu.turn hturn hgoes hreached hh.now
  | start hturn hgoes => exact hu.turn hturn hgoes hreached hh.now
  | loop hloop hturn hgoes => exact hu.turn hturn hgoes (hj.reached hloop hturn) hh.now
  | loopEnds hloop hturn hgoes => exact hu.turn hturn hgoes (hj.reached hloop hturn) hh.now
  | skip => exact hu.append (by simp)
  | consumer =>
    refine hu.append fun who d => ?_
    unfold consumerHistory
    split
    · simp
    · split <;> simp
  | ticker =>
    refine hu.append fun who d => ?_
    unfold tickerHistory
    split <;> simp
  | _ => exact hu.append (by simp)

/-- In every schedule, whenever a task that is free to go on does something at once, nobody has
asked to stop. -/
theorem Reaches.unasked {p : Program α} (hp : p.JoinsOnce) {shared : Shared σ} {s : State σ α}
    (hs : Reaches env program (start shared p) h s) : Unasked shared.cancellation h := by
  have hall : s.main.Reached p (deedsOf none h) ∧ Joining program h s ∧
      Heard shared.cancellation h s.shared.cancellation ∧ Unasked shared.cancellation h := by
    refine hs.induction (P := fun h s => s.main.Reached p (deedsOf none h) ∧
      Joining program h s ∧ Heard shared.cancellation h s.shared.cancellation ∧
        Unasked shared.cancellation h) (distinct_start _ _) ?_ ?_ ?_
    · exact ⟨.fresh, .before rfl rfl fun _ => rfl, .start _, .nil _⟩
    · rintro h s clock timers current next ⟨hreached, hj, hh, hu⟩
      refine ⟨hreached, ?_, hh, hu⟩
      rw [← List.append_nil h]
      exact hj.of_same rfl rfl (fun _ => rfl) .rfl
    · rintro h s j h₁ s₁ ⟨hreached, hj, hh, hu⟩ hm
      refine ⟨?_, hm.joining hp hreached hj, hm.heard hh, hm.unasked hreached hj hh hu⟩
      rw [deedsOf_append]
      exact hm.main_reached hreached
  exact hall.2.2.2

end State

end Schedule

/-! ### Tasks that are not free to go on -/

/-- What the deeds of a task do to the actions under way when it is never free to go on. -/
abbrev Winds (automation : Automation) : List Running → List Deed → List Running → Prop :=
  Passage automation (fun _ _ => false) false

variable {automation : Automation} {S S' : List Running} {t : List Deed}

/-- A call that takes time neither begins nor ends anything. -/
theorem Passes.of_takesTime {free free' : Bool} {d : Deed} (h : Passes automation free S d S')
    (hd : d.TakesTime) : Passes automation free' S d S' := by
  cases h with
  | quiet h => exact .quiet h
  | _ => exact hd.elim

/-- A task winds down that is free to go on at most where it makes calls that take time. -/
theorem Passage.winds {free : Bool} (h : Proceeds automation free S t S')
    (hnot : ∀ g d g', t = g ++ d :: g' → g.foldl Deed.frees free = true → d.TakesTime) :
    Winds automation S t S' := by
  induction h with
  | nil => exact .nil
  | @cons free S S₁ S' d t hd _ ih =>
    refine .cons ?_ (ih fun g d' g' heq => hnot (d :: g) d' g' (congrArg (d :: ·) heq))
    cases free with
    | false => exact hd
    | true => exact hd.of_takesTime (hnot [] d t rfl rfl)

/-- A part of winding down is winding down. -/
theorem Passage.split_winds {t' : List Deed} (h : Winds automation S (t ++ t') S') :
    ∃ S₁, Winds automation S t S₁ ∧ Winds automation S₁ t' S' := by
  have hnever (t : List Deed) : t.foldl (fun _ _ => false) false = false := by
    induction t with
    | nil => rfl
    | cons d t ih => exact ih
  obtain ⟨S₁, h₁, h₂⟩ := h.split
  rw [hnever] at h₂
  exact ⟨S₁, h₁, h₂⟩

/-- An action under way was so before, or it has been dispatched. -/
theorem Passage.dispatched {look : Bool → Deed → Bool} {free : Bool}
    (h : Passage automation look free S t S') {run : Running} (hrun : run ∈ S') :
    run ∈ S ∨ ∃ i, .call (.dispatched i run.frame run.config) () ∈ t := by
  induction h with
  | nil => exact .inl hrun
  | @cons free S S₁ S' d t hd _ ih =>
    rcases ih hrun with hm | ⟨i, hm⟩
    · cases hd with
      | quiet => exact .inl hm
      | step => exact .inl hm
      | refuse => exact .inl hm
      | finish => exact .inl (List.mem_cons_of_mem _ hm)
      | interrupt => cases hm
      | begin =>
        rcases List.mem_cons.mp hm with rfl | hm
        · exact .inr ⟨_, List.mem_cons_self⟩
        · exact .inl hm
    · exact .inr ⟨i, List.mem_cons_of_mem _ hm⟩

/-- No step is announced while a task winds down. -/
theorem Passage.not_step (h : Winds automation S t S') {e : RunEvent} {taken : Bool}
    (hm : .call (.emit e) taken ∈ t) : e.type ≠ .step := by
  obtain ⟨before, after, rfl⟩ := List.append_of_mem hm
  obtain ⟨S₁, -, h₁⟩ := h.split_winds
  intro he
  cases h₁ with
  | cons hd =>
    cases hd with
    | quiet hd => cases he.symm.trans hd
    | step hfree => cases hfree
    | finish _ htype => rcases htype with htype | htype <;> cases he.symm.trans htype

/-- A branching action lists what begins while a task winds down, and it was under way before or has
begun meanwhile. -/
theorem Passage.exists_branching {before after : List Deed} {i : Int} {frame : Frame}
    {config : Fields}
    (h : Winds automation S (before ++ .call (.dispatched i frame config) () :: after) S') :
    ∃ run a, run.frame.actionType = "playwright:if_else" ∧ IfElse.Lists run.frame run.config a ∧
      run.nested a = ⟨frame, config⟩ ∧
      (run ∈ S ∨ ∃ j, .call (.dispatched j run.frame run.config) () ∈ before) := by
  obtain ⟨S₁, hbefore, h₁⟩ := h.split_winds
  have hlisted {begun : Running} (hadmits : Admits automation false S₁ begun) :
      ∃ run a, run.frame.actionType = "playwright:if_else" ∧ IfElse.Lists run.frame run.config a ∧
        run.nested a = begun ∧
        (run ∈ S ∨ ∃ j, .call (.dispatched j run.frame run.config) () ∈ before) := by
    cases hadmits with
    | action hfree => cases hfree
    | iteration hfree => cases hfree
    | branch htype ha => exact ⟨_, _, htype, ha, rfl, hbefore.dispatched List.mem_cons_self⟩
  cases h₁ with
  | cons hd =>
    cases hd with
    | quiet hd => exact hd.elim
    | begin hadmits => exact hlisted hadmits
    | refuse hadmits => exact hlisted hadmits

namespace Whole

/-- **Winding down.** In every schedule, once a run has been asked to stop, no step is announced any
more, and each of its tasks winds down: whatever action begins is listed by a branching action that
was under way at that moment, or has begun in this way since. -/
theorem winds_down {σ : Type} (env : Collaborators σ) (runner : Runner) (automation : Automation)
    (record : RunRecord) (shared : Shared σ) {h₁ h₂ : List Happening} {s : State σ Ended}
    {c : Cancellation}
    (hs : Scheduled env { runner with registry := Catalogue.registry } automation record shared
      (h₁ ++ h₂) s)
    (hc : requested shared.cancellation h₁ = some c) (who : Option Nat) :
    (∀ e taken, .call (.emit e) taken ∈ deedsOf who h₂ → e.type ≠ .step) ∧
    ∃ underway rest, Proceeds automation false [] (deedsOf who h₁) underway ∧
      Winds automation underway (deedsOf who h₂) rest ∧
      ∀ before i frame config after,
        deedsOf who h₂ = before ++ .call (.dispatched i frame config) () :: after →
        ∃ run a, run.frame.actionType = "playwright:if_else" ∧
          IfElse.Lists run.frame run.config a ∧ run.nested a = ⟨frame, config⟩ ∧
          (run ∈ underway ∨ ∃ j, .call (.dispatched j run.frame run.config) () ∈ before) := by
  have hunasked : Unasked shared.cancellation (h₁ ++ h₂) :=
    State.Reaches.unasked (joinsOnce_run Catalogue.registry_proper automation record) hs
  obtain ⟨rest, hall⟩ := hs.proceeds rfl who
  rw [deedsOf_append] at hall
  obtain ⟨underway, hunderway, hrest⟩ := hall.split
  -- Were the task free to go on where it does something at once, nobody would have asked to stop.
  have hwinds : Winds automation underway (deedsOf who h₂) rest := by
    refine hrest.winds fun g d g' hsplit hfree => ?_
    obtain ⟨k, k', rfl, rfl⟩ := exists_split_of_deedsOf hsplit
    rw [← List.foldl_append, ← deedsOf_append] at hfree
    refine Classical.byContradiction fun hd => ?_
    have hnone := hunasked (h₁ ++ k) who d k' (List.append_assoc ..).symm hd hfree
    rw [requested_append, hc, requested_some] at hnone
    cases hnone
  exact ⟨fun e taken hm => hwinds.not_step hm, underway, rest, hunderway, hwinds,
    fun before i frame config after hsplit => Passage.exists_branching (hsplit ▸ hwinds)⟩

/-! ### A rehearsal -/

/-- The types of the actions that are dispatched in a trace. -/
def dispatchedTypes (t : List Deed) : List String :=
  t.filterMap fun
    | .call (.dispatched _ frame _) _ => some frame.actionType
    | _ => none

/-- An automation that waits and then logs something in a branch. -/
def lingering : Automation :=
  sampleAutomation [
    .object [
      ("action_type", .text "playwright:wait_for_timeout"),
      ("action_config", .object [("timeout", .int 2000)])],
    .object [
      ("action_type", .text "playwright:log"),
      ("action_config", .object [("message", .text "late")])]]

/-- What happens in a rehearsal until it is asked to stop, in the middle of its branch. -/
def lingered : List Happening × State World Ended :=
  State.carryOut World.collaborators (loopProgram sampleRunner lingering sampleRecord.id)
    [.main, .alarm (.cancel "stop")]
    (State.start (sampleShared 1704067200000) (run sampleRunner lingering sampleRecord))

/-- What happens in it afterwards. -/
def lingeredOn : List Happening × State World Ended :=
  State.carryOut World.collaborators (loopProgram sampleRunner lingering sampleRecord.id)
    [.alarm .wakeMain, .main] lingered.2

theorem exists_of_dispatchedTypes {t : List Deed} {type : String}
    (h : type ∈ dispatchedTypes t) : ∃ before i frame config after,
      t = before ++ .call (.dispatched i frame config) () :: after ∧ frame.actionType = type := by
  obtain ⟨d, hd, hsome⟩ := List.mem_filterMap.mp h
  obtain ⟨before, after, rfl⟩ := List.append_of_mem hd
  split at hsome
  · cases hsome
    exact ⟨before, _, _, _, after, rfl, rfl⟩
  · cases hsome

/-- Asked to stop in the middle of a branch, a run still begins what follows in this branch. -/
theorem branch_goes_on : ∃ h₁ h₂ s c underway rest run,
    Scheduled World.collaborators sampleRunner lingering sampleRecord (sampleShared 1704067200000)
      (h₁ ++ h₂) s ∧
    requested (sampleShared 1704067200000).cancellation h₁ = some c ∧
    dispatchedTypes (deedsOf none h₂) = ["playwright:log"] ∧
    Proceeds lingering false [] (deedsOf none h₁) underway ∧
    Winds lingering underway (deedsOf none h₂) rest ∧
    run ∈ underway ∧ run.frame.actionType = "playwright:if_else" := by
  have hs : Scheduled World.collaborators sampleRunner lingering sampleRecord
      (sampleShared 1704067200000) (lingered.1 ++ lingeredOn.1) lingeredOn.2 :=
    (State.carryOut_reaches _ _ _ (by decide) _).trans
      (State.carryOut_reaches _ _ _ (by decide) _)
  have hc : requested (sampleShared 1704067200000).cancellation lingered.1 =
      some ⟨"stop", false⟩ := by
    decide +kernel
  have htypes : dispatchedTypes (deedsOf none lingeredOn.1) = ["playwright:log"] := by
    decide +kernel
  obtain ⟨-, underway, rest, hunderway, hwinds, hbranching⟩ := winds_down World.collaborators
    sampleRunner lingering sampleRecord (sampleShared 1704067200000) hs hc none
  obtain ⟨before, i, frame, config, after, hsplit, -⟩ : ∃ before i frame config after,
      deedsOf none lingeredOn.1 = before ++ .call (.dispatched i frame config) () :: after ∧
        frame.actionType = "playwright:log" :=
    exists_of_dispatchedTypes (by simp [htypes])
  obtain ⟨run, a, htype, -, -, hrun | ⟨j, hdispatched⟩⟩ := hbranching _ _ _ _ _ hsplit
  · exact ⟨_, _, _, _, underway, rest, run, hs, hc, htypes, hunderway, hwinds, hrun, htype⟩
  -- No branching action has begun since.
  · have hm : run.frame.actionType ∈ dispatchedTypes (deedsOf none lingeredOn.1) :=
      List.mem_filterMap.mpr
        ⟨_, hsplit ▸ List.mem_append_left _ hdispatched, rfl⟩
    rw [htypes, htype] at hm
    exact absurd hm (by decide)

end Whole

end Runbook
