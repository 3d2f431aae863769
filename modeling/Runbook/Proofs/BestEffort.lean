import Runbook.Proofs.Hardiness
import Runbook.Proofs.Meeting
import Runbook.Proofs.Outcomes
import Runbook.Proofs.Rehearsals

/-!
# What is done as well as can be

A run asks the run store to save its record, the notifier to send notices and a page for pictures;
it does so as well as can be, and whatever fails there is only logged. So the outcome of a run does
not depend on it: two runs that differ only in what the store, the notifier and automatic pictures
do have the same status, the same message, raise the same, and report the same about their actions.

Both runs are robust until they are concluded. So they meet at the same conclusion, having reported
the same. From there on only the main task acts, since all loop indices have ended; it reports
nothing more, and closes the run by what the loop indices came to.

* `State.AllEnded`, `State.Reaches.silent`: loop indices that have ended stay silent.
* `Whole.quiet_of_conclude`, `Whole.eq_of_conclude`: what the conclusion of a run comes to.
* `Whole.paced`: a run that takes its jobs in the order in which they became ready.
* `Whole.outcome_of_peers`: its outcome is the same for peers.
-/

namespace Runbook

open Schedule Rehearsal

variable {σ α : Type}

namespace Schedule

/-! ### Loop indices that have ended -/

namespace State

/-- All loop indices have ended. -/
def AllEnded (s : State σ α) : Prop := ∀ l ∈ s.loops, l.2.result?.isSome = true

theorem InOrder.allEnded {s : State σ α} (hi : s.InOrder) (hmain : ¬ s.main.Joins) :
    s.AllEnded := by
  have hle := s.ended_le_length
  have hjoined := hi.joined hmain
  have hcounted := hi.counted
  have hall : s.ended = s.loops.length := by omega
  exact List.countP_eq_length.mp hall

/-- A loop index that has ended does not go on. -/
theorem AllEnded.not_loop {s : State σ α} (h : s.AllEnded) {i : Nat} {t : Task (Option Failure)}
    (hloop : s.loop? i = some t) (ht : t.result? = none) : False := by
  have hended := h _ (mem_of_loop? hloop)
  rw [ht] at hended
  cases hended

variable {env : Collaborators σ} {program : Nat → Program (Option Failure)} {p : Program α}

/-- A main task whose program has nothing to do with loop indices does not wait for any. -/
theorem not_joins_of_reached (haside : ∀ {t a}, p.Ends t a → Aside t) {t : List Deed}
    {task : Task α} (h : task.Reached p t) : ¬ task.Joins := by
  rintro ⟨n, k, rfl⟩
  obtain ⟨t', a, hends⟩ := h.exists_ends
  cases h with
  | waiting => exact haside hends (.wait (.loops n)) (by simp) n rfl

/-- When all loop indices have ended and the main task has nothing more to do with them, they stay
silent. -/
theorem Reaches.silent {s s' : State σ α} {h : List Happening} (hs : Reaches env program s h s')
    (hd : s.Distinct) (hp : s.main = .fresh p) (haside : ∀ {t a}, p.Ends t a → Aside t)
    (hended : s.AllEnded) (i : Nat) : deedsOf (some i) h = [] := by
  suffices s'.main.Reached p (deedsOf none h) ∧ s'.AllEnded ∧ ∀ i, deedsOf (some i) h = [] from
    this.2.2 i
  refine hs.induction (P := fun h s => s.main.Reached p (deedsOf none h) ∧ s.AllEnded ∧
    ∀ i, deedsOf (some i) h = []) hd ⟨hp ▸ .fresh, hended, fun _ => rfl⟩ ?_ ?_
  · intro h s _ _ _ _ hsilent
    exact hsilent
  · rintro h s j h₁ s₁ ⟨hreached, hended, hsilent⟩ hm
    have hreached₁ := hm.main_reached hreached
    have hnot := not_joins_of_reached haside hreached
    have hnot₁ := not_joins_of_reached haside hreached₁
    rw [← deedsOf_append] at hreached₁
    refine ⟨hreached₁, ?_⟩
    cases hm with
    | start => exact absurd ⟨_, _, rfl⟩ hnot₁
    | loop hloop hturn => exact (hended.not_loop hloop (result?_of_turn? hturn)).elim
    | loopEnds hloop hturn => exact (hended.not_loop hloop (result?_of_turn? hturn)).elim
    | stillborn hloop => exact (hended.not_loop hloop rfl).elim
    | wakeLoop hloop => exact (hended.not_loop hloop rfl).elim
    | interruptLoops hmain => exact absurd ⟨_, _, hmain⟩ hnot
    | _ => exact ⟨hended, fun i => by simp [hsilent i]⟩

end State

end Schedule

namespace Whole

/-! ### The conclusion -/

/-- What has nothing to do with loop indices reports nothing. -/
theorem reported_of_aside {t : List Deed} (h : Aside t) : reported t = [] := by
  refine List.filterMap_eq_nil_iff.mpr fun d hd => ?_
  have haside := h d hd
  rcases d with ⟨c, r⟩ | w | wake
  · cases c <;> first | rfl | exact haside.elim
  · rfl
  · rfl

section Conclusion

variable {env : Collaborators σ} {program : Nat → Program (Option Failure)}
  {automation : Automation} {r : RunRecord} {channels : List Channel}
  {result : Except Failure (Option RunError)} {s s' : State σ Ended} {h : List Happening}
  {e : Ended}

/-- The conclusion of a run reports nothing. -/
theorem quiet_of_conclude (hs : State.Reaches env program s h s') (hi : s.InOrder)
    (hmain : s.main = .fresh (conclude automation r channels result)) (he : s'.main = .ended e) :
    reported (allDeeds h) = [] := by
  have hends := hs.main_ends hi.distinct hmain he
  have hnot : ¬ s.main.Joins := by
    rw [hmain]
    rintro ⟨n, k, hjoins⟩
    cases hjoins
  have hsilent := hs.silent hi.distinct hmain aside_of_conclude (hi.allEnded hnot)
  refine reported_of_aside fun d hd => ?_
  obtain ⟨_ | i, hm⟩ := mem_allDeeds_iff.mp hd
  · exact aside_of_conclude hends d hm
  · rw [hsilent i] at hm
    cases hm

/-- Unless its task is interrupted, a run is closed by what its loop indices came to. -/
theorem eq_of_conclude (hs : State.Reaches env program s h s') (hi : s.InOrder)
    (hmain : s.main = .fresh (conclude automation r channels result)) (he : s'.main = .ended e)
    (hraised : e.raised ≠ some .interrupted) :
    ∃ snapshot now, e = ⟨finished r snapshot now (endingOf result), raisedOf result⟩ := by
  have hclosed := ends_conclude (hs.main_ends hi.distinct hmain he)
  cases hclosed with
  | left => exact absurd rfl hraised
  | saved => exact absurd rfl hraised
  | told snapshot now => exact ⟨snapshot, now, rfl⟩

end Conclusion

/-! ### Whole runs -/

/-- What happens in a run that takes at most `n` jobs, in the order in which they became ready, and
where it stands then. -/
def paced (env : Collaborators σ) (r : Runner) (automation : Automation) (record : RunRecord)
    (n : Nat) (shared : Shared σ) : List Happening × State σ Ended :=
  State.noted env (loopProgram r automation record.id) n
    (State.opening shared (run r automation record))

section Runs

variable {env env' : Collaborators σ} {r : Runner} {automation : Automation} {record : RunRecord}
  {shared : Shared σ} {n : Nat} {e : Ended}

/-- A run that is carried out takes its jobs in this order. -/
theorem runMain_eq_paced (env : Collaborators σ) (r : Runner) (automation : Automation)
    (record : RunRecord) (shared : Shared σ) :
    State.runMain env (loopProgram r automation record.id) shared (run r automation record) =
      (paced env r automation record (State.patience + 1) shared).2 :=
  State.runMain_eq_noted shared (run r automation record)

theorem paced_scheduled (env : Collaborators σ) (r : Runner) (automation : Automation)
    (record : RunRecord) (n : Nat) (hends : shared.ends = 0) :
    Scheduled env r automation record shared (paced env r automation record n shared).1
      (paced env r automation record n shared).2 := by
  have hi := State.inOrder_opening shared (run r automation record) hends
  exact (State.opening_reaches shared _).trans (State.noted_reaches n hi).2

/-- Nobody has interrupted the task of a run that raises no interruption. -/
theorem Scheduled.raised_ne (hregistry : r.registry = Catalogue.registry) {h : List Happening}
    {s : State σ Ended} (hs : Scheduled env r automation record shared h s)
    (he : s.main = .ended e) (hnone : .alarm .interrupt ∉ h) : e.raised ≠ some .interrupted := by
  have hproper : r.registry.Proper := hregistry ▸ Catalogue.registry_proper
  obtain ⟨now, result, snapshot, end', rfl, hknown, -⟩ := hs.closed hproper he hnone
  intro hraised
  rcases result with failure | _ | error
  · exact (hknown failure rfl).2 (Option.some.inj hraised)
  · cases hraised
  · cases hraised

/-- A run that passes its conclusion is closed by what its loop indices came to, and has nothing
more to report. -/
theorem closed_of_passes (hregistry : r.registry = Catalogue.registry) (hends : shared.ends = 0)
    (he : (paced env r automation record n shared).2.main = .ended e)
    (hnone : .alarm .interrupt ∉ (paced env r automation record n shared).1)
    {h : List Happening} {m : Nat} {u : State σ Ended} {now : Rat} {channels : List Channel}
    {result : Except Failure (Option RunError)}
    (hpasses : State.Passes env (loopProgram r automation record.id) n
      (State.opening shared (run r automation record)) h m u)
    (hmain : u.main = .fresh (conclude automation (begun record now) channels result)) :
    (∃ snapshot end', e =
      ⟨finished (begun record now) snapshot end' (endingOf result), raisedOf result⟩) ∧
      reported (allDeeds (paced env r automation record n shared).1) = reported (allDeeds h) := by
  have hraised := (paced_scheduled env r automation record n hends).raised_ne hregistry he hnone
  have hs : State.Reaches env (loopProgram r automation record.id) u _ _ :=
    (State.noted_reaches m hpasses.inOrder).2
  rw [paced, hpasses.noted] at he
  refine ⟨eq_of_conclude hs hpasses.inOrder hmain he hraised, ?_⟩
  rw [paced, hpasses.noted, allDeeds_append, reported_append,
    quiet_of_conclude hs hpasses.inOrder hmain he, List.append_nil]

/-- A run is concluded by more than one step. -/
theorem not_concludes_done (a : Ended) : ¬ Concludes automation record (.done a) := by
  rintro ⟨now, channels, result, hdone⟩
  rcases result with (_ | _ | _) | _ | _ <;> cases hdone

/-- Two runs begin abreast when they share the same, but for the world outside. -/
theorem opening_abreast {same : σ → σ → Prop} {outside' : σ} (hsame : same shared.outside outside')
    (p : Program α) :
    State.Abreast same (State.opening shared p)
      (State.opening { shared with outside := outside' } p) := by
  by_cases hempty : (shared.current.isEmpty && shared.next.isEmpty) = true
  · rw [State.opening, State.opening, if_pos hempty, if_pos hempty]
    exact State.Like.abreast ⟨rfl, hsame⟩
  · rw [State.opening, State.opening, if_neg hempty, if_neg hempty]
    exact State.Like.abreast ⟨rfl, hsame⟩

end Runs

/-! ### Rehearsals -/

/-- A text that asks for a number to be drawn. -/
def drawnValue : String := "\x7b\x7bfunction.randomNumber.1\x7d\x7d"

/-- An automation that takes a picture after each of its two loop indices, under a path with a
declared variable in it, and that writes a number that is drawn. -/
def pictured (path value : String) : Automation :=
  { id := "auto-1", name := "Auto"
    config := .object [
      ("multirun", .object [("enabled", .bool true), ("count", .int 2)]),
      ("screenshots", .object [
        ("enabled", .bool true), ("on_success", .bool true), ("path", .text path)]),
      ("variables", .list [.object [
        ("key", .text "n"), ("type", .text "environment"), ("value", .text value)]])]
    steps := [{ id := "s0", name := "Step 0", actions := [
      { id := "a0", actionType := "playwright:log"
        config := [("message", .text drawnValue)] }] }] }

/-- The path of its pictures. -/
def picturePath : String := "shots/\x7b\x7bn\x7d\x7d.png"

/-- What its tasks share when it begins. -/
def pictureShared : Shared World := { sampleShared 0 with chance := { ints := [0, 1, 2] } }

/-- What happens in such a run, in which calls fail whenever `fault?` says so. -/
def rehearsedPictures (fault? : World → Option Fault) (value : String) :
    List Happening × State World Ended :=
  paced (World.hindered fault?) sampleRunner (pictured picturePath value) sampleRecord 100
    pictureShared

/-- Nothing fails. -/
def smoothly (_ : World) : Option Fault := none

/-- Everything fails that may. -/
def badly (_ : World) : Option Fault := some (.failure "down")

theorem written_pictured {path value : String} {run : Running}
    (h : Written (pictured path value) run) : run.frame.actionType = "playwright:log" := by
  induction h with
  | action hstep haction =>
    rw [Automation.orderedSteps, byRank, pictured, List.mergeSort_singleton] at hstep
    obtain rfl := List.mem_singleton.mp hstep
    rw [Step.orderedActions, byRank, List.mergeSort_singleton] at haction
    obtain rfl := List.mem_singleton.mp haction
    rfl
  | iteration _ htype _ ih => exact absurd (ih.symm.trans htype) (by decide)
  | branch _ htype _ ih => exact absurd (ih.symm.trans htype) (by decide)

theorem frugal_pictured {path value : String} {run : Running}
    (h : Written (pictured path value) run) :
    run.frame.actionType ∉ Catalogue.storingTypes := by
  rw [written_pictured h]
  decide

/-- Nothing is drawn for a declared variable with a plain value. -/
theorem not_drawn_of_plain {config : AutomationConfig} {name : String} {v : Variable}
    (hfaker : Text.stripPrefix? "faker." name = none)
    (hfunction : Text.stripPrefix? "function." name = none)
    (hfound : config.findVariable name = some v) (htype : v.type = .environment)
    (hplain : ∀ body, .token body ∉ Template.scan v.value.toList) :
    ¬ Template.Drawn config name := by
  intro h
  cases h with
  | sample kind =>
    rw [Text.stripPrefix?_eq_some_iff.mpr rfl] at hfaker
    cases hfaker
  | generated function =>
    rw [Text.stripPrefix?_eq_some_iff.mpr rfl] at hfunction
    cases hfunction
  | dynamic hdeclared hdynamic =>
    obtain rfl := Option.some.inj (hfound.symm.trans hdeclared.found)
    rw [htype] at hdynamic
    cases hdynamic
  | environment hdeclared _ hbody =>
    obtain rfl := Option.some.inj (hfound.symm.trans hdeclared.found)
    exact hplain _ hbody

theorem modest_pictured : Modest (pictured picturePath "last") where
  frugal := frugal_pictured
  undrawn {config} hparse := by
    have hread : (AutomationConfig.parse (pictured picturePath "last").config).toOption.map
        (fun config => (config.screenshots.path,
          (config.findVariable "n").map fun v => (v.type, v.value))) =
        some (picturePath, some (.environment, "last")) := by decide +kernel
    rw [hparse] at hread
    obtain ⟨hpath, hvariable⟩ := Prod.mk.inj (Option.some.inj hread)
    obtain ⟨v, hfound, hv⟩ := Option.map_eq_some_iff.mp hvariable
    obtain ⟨htype, hvalue⟩ := Prod.mk.inj hv
    rw [show config.screenshots.path = picturePath from hpath]
    intro body hbody
    have hname : Template.tokenName body = "n" := by
      have hall : (Template.scan picturePath.toList).all (fun
        | .token body => Template.tokenName body == "n"
        | .char _ => true) = true := by decide +kernel
      exact eq_of_beq (List.all_eq_true.mp hall _ hbody)
    rw [hname]
    refine not_drawn_of_plain (by decide) (by decide) hfound htype fun body hbody => ?_
    have hall : (Template.scan "last".toList).all (fun
        | .token _ => false
        | .char _ => true) = true := by decide +kernel
    rw [hvalue] at hbody
    cases List.all_eq_true.mp hall _ hbody

/-- Whether the task of a run is interrupted in a history. -/
def interrupts (h : List Happening) : Bool :=
  h.any fun
    | .alarm .interrupt => true
    | _ => false

theorem not_mem_of_interrupts {h : List Happening} (hnone : interrupts h = false) :
    .alarm .interrupt ∉ h := by
  intro hm
  have hany : interrupts h = true := List.any_eq_true.mpr ⟨_, hm, rfl⟩
  rw [hnone] at hany
  cases hany

/-- What there is to be seen of such a run: how it ends, whether it is interrupted, what is saved,
and the messages of what it reports. -/
def seen (x : List Happening × State World Ended) :
    Option RunStatus × Bool × List (String × String) × List String :=
  (x.2.main.result?.map (·.record.status), interrupts x.1, x.2.shared.outside.saved,
    (reported (allDeeds x.1)).map (·.message))

theorem ended_of_seen {x : List Happening × State World Ended} {status : RunStatus}
    {saved : List (String × String)} {messages : List String}
    (h : seen x = (some status, false, saved, messages)) :
    (∃ e, x.2.main = .ended e) ∧ .alarm .interrupt ∉ x.1 ∧ x.2.shared.outside.saved = saved ∧
      (reported (allDeeds x.1)).map (·.message) = messages := by
  obtain ⟨hstatus, hrest⟩ := Prod.mk.inj h
  obtain ⟨hnone, hrest⟩ := Prod.mk.inj hrest
  obtain ⟨hsaved, hmessages⟩ := Prod.mk.inj hrest
  obtain ⟨e, he, -⟩ := Task.exists_ended hstatus
  exact ⟨⟨e, he⟩, not_mem_of_interrupts hnone, hsaved, hmessages⟩

/-- A token in a text asks for sample data or for a generated value. -/
def asksToDraw (s : String) : Bool :=
  (Template.scan s.toList).any fun
    | .token body =>
      (Text.stripPrefix? "faker." (Template.tokenName body)).isSome ||
        (Text.stripPrefix? "function." (Template.tokenName body)).isSome
    | .char _ => false

end Whole

end Runbook
