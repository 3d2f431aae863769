import Runbook.Proofs.Lockstep
import Runbook.Proofs.Pages
import Runbook.Proofs.Strands
import Runbook.Proofs.Together

/-!
# Isolation of loop indices

What a loop index of a settled automation tells is a matter of its own page and of the shared
variables, which nobody changes. So when the pages behave independently, it tells the same whoever
runs along with it, in whatever order everybody goes on, and also when nobody else is there.

The argument: what is watched of a history is the page of one loop index and the shared variables.
Other loop indices do not change that, since each is confined to its own page. So the trace of the
loop index fits what it makes of the page by itself, in all histories alike, and programs that are
alike tell the same when their traces fit.

* `Sole i me h`: one task is confined to a loop index, and all others keep apart from it.
* `eventsOf i h`: the events with the loop index `i` in a history, times aside.
* `Whole.Performs`: ways to execute a loop index from its beginning to its end.
* `Whole.events_isolated`: the events of a loop index are the same however it is executed.
-/

namespace Runbook

open Schedule Rehearsal
open Whole (allDeeds mem_deedsOf_iff)

variable {σ π α : Type} {env : Collaborators σ}

/-! ### Somebody else -/

/-- A deed that neither concerns the page of loop index `i` nor tells of it, and that changes no
shared variable. -/
def Deed.Apart (i : Int) : Deed → Prop
  | .call (.emit e) _ => e.loopIndex ≠ i
  | .call (.page j _) _ | .call (.screenshot j _) _ => j ≠ i
  | .call (.openSession j) _ | .call (.closeSession j) _ => (j : Int) ≠ i
  | .call (.setGlobal _ _) _ => False
  | _ => True

/-- Who is confined to a loop index keeps apart from the others. -/
theorem Deed.Confined.apart {i j : Int} {d : Deed} (h : d.Confined j) (hij : j ≠ i) :
    d.Apart i := by
  rcases d with ⟨c, r⟩ | w | wake
  · cases c with
    | emit | page | screenshot | openSession | closeSession => exact fun heq => hij (h ▸ heq)
    | setGlobal => exact h
    | _ => trivial
  · trivial
  · trivial

/-- Who does nothing that only loop indices do keeps apart from all of them. -/
theorem apart_of_not_executes {i : Int} {c : Call} (h : ¬ c.Executes) (r : c.Reply) :
    Deed.Apart i (.call c r) := by
  cases c with
  | emit | page | screenshot | openSession | closeSession | setGlobal =>
    exact absurd ⟨trivial, id⟩ h
  | _ => trivial

theorem Schedule.after_of_apart {page : Nat → LonePage π} {view : Nat → σ → π}
    (hpages : Independent env page view) {i : Nat} {c : Call} {r : c.Reply}
    (h : Deed.Apart i (.call c r)) (b : Fields × π) : (pageWatch hpages i).after b c r = b := by
  cases c with
  | page j => exact Prod.ext rfl (if_neg h)
  | screenshot j => exact Prod.ext rfl (if_neg h)
  | openSession j => exact Prod.ext rfl (if_neg fun heq => h (congrArg Int.ofNat heq))
  | closeSession j => exact Prod.ext rfl (if_neg fun heq => h (congrArg Int.ofNat heq))
  | setGlobal => exact h.elim
  | _ => rfl

/-- The events with the loop index `i` that are emitted in a history, whether or not there is room
for them, times aside. -/
def eventsOf (i : Int) (h : List Happening) : List RunEvent :=
  (told (allDeeds h)).filter fun e => e.loopIndex = i

/-- In a history one task is confined to the loop index `i`, and all others keep apart from it. -/
structure Sole (i : Int) (me : Option Nat) (h : List Happening) : Prop where
  own : ∀ d ∈ deedsOf me h, d.Confined i
  others {who : Option Nat} : who ≠ me → ∀ d ∈ deedsOf who h, d.Apart i

namespace Sole

variable {i : Int} {me : Option Nat} {h h' : List Happening} {d : Deed}

theorem left (hs : Sole i me (h ++ h')) : Sole i me h where
  own d hd := hs.own d (by rw [deedsOf_append]; exact List.mem_append_left _ hd)
  others hwho d hd := hs.others hwho d (by rw [deedsOf_append]; exact List.mem_append_left _ hd)

theorem right (hs : Sole i me (h ++ h')) : Sole i me h' where
  own d hd := hs.own d (by rw [deedsOf_append]; exact List.mem_append_right _ hd)
  others hwho d hd := hs.others hwho d (by rw [deedsOf_append]; exact List.mem_append_right _ hd)

theorem deed (hs : Sole i me [.deed me d]) : d.Confined i :=
  hs.own d (mem_deedsOf_iff.mpr List.mem_cons_self)

theorem deed_other {who : Option Nat} (hs : Sole i me [.deed who d]) (hwho : who ≠ me) :
    d.Apart i :=
  hs.others hwho d (mem_deedsOf_iff.mpr List.mem_cons_self)

/-- When each loop index is confined to itself and the main task keeps apart, the task of a loop
index is the only one that concerns itself with it. -/
theorem of_confined {i : Nat} (hloops : ∀ j, ∀ d ∈ deedsOf (some j) h, d.Confined (j : Nat))
    (hmain : ∀ d ∈ deedsOf none h, d.Apart i) : Sole i (some i) h where
  own := hloops i
  others {who} hwho d hd := by
    cases who with
    | none => exact hmain d hd
    | some j => exact (hloops j d hd).apart fun heq => hwho (congrArg some (Int.ofNat.inj heq))

end Sole

theorem deedsOf_singleton (who task : Option Nat) (d : Deed) :
    deedsOf who [.deed task d] = if task = who then [d] else [] :=
  deedsOf_map_deed who task [d]

theorem eventsOf_append (i : Int) (h h' : List Happening) :
    eventsOf i (h ++ h') = eventsOf i h ++ eventsOf i h' := by
  rw [eventsOf, allDeeds, List.filterMap_append, told_append, List.filter_append]
  rfl

theorem filter_told_of_confined {i : Int} {d : Deed} (h : d.Confined i) :
    (told [d]).filter (fun e => e.loopIndex = i) = told [d] := by
  refine List.filter_eq_self.mpr fun e he => decide_eq_true ?_
  obtain ⟨e', taken, rfl, rfl⟩ := exists_emit_of_told he
  rw [RunEvent.loopIndex_timeless]
  exact h

theorem filter_told_of_apart {i : Int} {d : Deed} (h : d.Apart i) :
    (told [d]).filter (fun e => e.loopIndex = i) = [] := by
  refine List.filter_eq_nil_iff.mpr fun e he heq => absurd (of_decide_eq_true heq) ?_
  obtain ⟨e', taken, rfl, rfl⟩ := exists_emit_of_told he
  rw [RunEvent.loopIndex_timeless]
  exact h

/-- The events of a loop index are what its task tells. -/
theorem Sole.eventsOf_eq {i : Int} {me : Option Nat} {h : List Happening} (hs : Sole i me h) :
    eventsOf i h = told (deedsOf me h) := by
  induction h with
  | nil => rfl
  | cons x h ih =>
    have hone : eventsOf i [x] = told (deedsOf me [x]) := by
      have hx := hs.left (h := [x])
      cases x with
      | deed who d =>
        rw [deedsOf_singleton]
        by_cases hwho : who = me
        · subst hwho
          rw [if_pos rfl]
          exact filter_told_of_confined hx.deed
        · rw [if_neg hwho]
          exact filter_told_of_apart (hx.deed_other hwho)
      | _ => rfl
    rw [← List.singleton_append, eventsOf_append, deedsOf_append, told_append, hone,
      ih (hs.right (h := [x]))]

/-- What is watched of the page of a loop index is what its task makes of it. -/
theorem Sole.through_eq {page : Nat → LonePage π} {view : Nat → σ → π}
    (hpages : Independent env page view) {i : Nat} {me : Option Nat} {h : List Happening}
    (hs : Sole i me h) (b : Fields × π) :
    (pageWatch hpages i).through b h = (pageWatch hpages i).follow b (deedsOf me h) := by
  induction h generalizing b with
  | nil => rfl
  | cons x h ih =>
    have hone : (pageWatch hpages i).through b [x] =
        (pageWatch hpages i).follow b (deedsOf me [x]) := by
      have hx := hs.left (h := [x])
      cases x with
      | deed who d =>
        rw [deedsOf_singleton]
        by_cases hwho : who = me
        · rw [if_pos hwho]
          cases d <;> rfl
        · rw [if_neg hwho]
          cases d with
          | call c r => exact after_of_apart hpages (hx.deed_other hwho) b
          | _ => rfl
      | _ => rfl
    rw [← List.singleton_append, Watch.through_append, deedsOf_append, Watch.follow_append, hone,
      ih (hs.right (h := [x]))]

/-! ### Executions -/

/-- In a history a program of the loop index `i` goes from its beginning to its end, and it is told
what fits somebody who saw `b` when it began. -/
def Plays {β : Type} (W : Watch env β) (b : β) (i : Int) (p : Program α) (h : List Happening) :
    Prop :=
  ∃ t a, p.Ends t a ∧ Fits W b t ∧ eventsOf i h = told t

/-- Programs that are alike tell the same. -/
theorem Plays.eventsOf_eq {β : Type} {W : Watch env β} {b : β} {i : Int} {p p' : Program α}
    {h h' : List Happening} (halike : p.Alike W i p') (hp : Plays W b i p h)
    (hp' : Plays W b i p' h') : eventsOf i h = eventsOf i h' := by
  obtain ⟨t, a, hends, hfits, htold⟩ := hp
  obtain ⟨t', a', hends', hfits', htold'⟩ := hp'
  rw [htold, htold', (halike.agree hends hends' hfits hfits').2.2]

/-- The trace of the only task that concerns itself with a page fits what is watched of it. -/
theorem Sole.fits {page : Nat → LonePage π} {view : Nat → σ → π}
    (hpages : Independent env page view) {i : Nat} {me : Option Nat} {h : List Happening}
    {b : Fields × π} {s : Shared σ} {c : Option Cancellation} (hs : Sole i me h)
    (hwatched : Watched (pageWatch hpages i) b h s) (hheard : Heard none h c)
    (hrequests : requests h = []) (hwake : .wake .interrupted ∉ deedsOf me h) :
    Fits (pageWatch hpages i) b (deedsOf me h) where
  answered hsplit := by
    obtain ⟨k, k', rfl, rfl⟩ := exists_split_of_deedsOf hsplit
    obtain ⟨s', hsees, hreply⟩ := hwatched.found rfl
    exact ⟨s', hsees.trans (hs.left.through_eq hpages b), hreply⟩
  unasked hm := by
    obtain ⟨k, k', hsplit⟩ := List.append_of_mem (mem_deedsOf_iff.mp hm)
    rw [hsplit, requests, List.filterMap_append] at hrequests
    rw [hheard.found hsplit, requested_eq_head?, requests, (List.append_eq_nil_iff.mp hrequests).1]
    rfl
  undisturbed := hwake

/-- The only task that concerns itself with a page executes its program there. -/
theorem Sole.plays {page : Nat → LonePage π} {view : Nat → σ → π}
    (hpages : Independent env page view) {i : Nat} {me : Option Nat} {h : List Happening}
    {b : Fields × π} {s : Shared σ} {c : Option Cancellation} {p : Program α} {t u : List Deed}
    {a : α} (hs : Sole i me h) (hwatched : Watched (pageWatch hpages i) b h s)
    (hheard : Heard none h c) (hrequests : requests h = []) (hdeeds : deedsOf me h = t ++ u)
    (hends : p.Ends t a) (hwake : .wake .interrupted ∉ t) (hu : ∀ d ∈ u, d.Silent) :
    Plays (pageWatch hpages i) b i p h := by
  have hfits := hs.fits hpages hwatched hheard hrequests (by
    rw [hdeeds, List.mem_append, not_or]
    exact ⟨hwake, fun hm => hu _ hm⟩)
  rw [hdeeds] at hfits
  refine ⟨t, a, hends, hfits.left, ?_⟩
  rw [hs.eventsOf_eq, hdeeds, told_append, told_of_silent hu, List.append_nil]

namespace Whole

/-- Nobody asks to stop in a history, and nobody interrupts the main task. -/
structure Undeterred (shared : Shared σ) (h : List Happening) : Prop where
  unasked : shared.cancellation = none
  requests : requests h = []
  uninterrupted : .alarm .interrupt ∉ h

/-- Ways to execute a loop index from its beginning to its end, with nobody asking to stop. -/
inductive Performs (env : Collaborators σ) (r : Runner) (automation : Automation)
    (config : AutomationConfig) (record : RunRecord) (shared : Shared σ) (i : Nat) :
    List Happening → Prop
  /-- A parallel run executes all of its loop indices, in some schedule. -/
  | together {h : List Happening} {s : State σ Ended} {e : Ended}
      (hmode : config.runMode = .parallel) (hi : i < config.runCount)
      (hs : Scheduled env r automation record shared h s) (he : s.main = .ended e)
      (hu : Undeterred shared h) : Performs env r automation config record shared i h
  /-- Loop indices run at once, and may give way to each other at every call. Any of them may take
  part. -/
  | interleaved {h : List Happening} {w : Strands σ (Except Failure Unit)}
      {result : Except Failure Unit}
      (hs : Strands.Reaches env ⟨shared, Loop.run r automation config record.id⟩ h w)
      (he : w.rest i = .done result) (hu : Undeterred shared h) :
      Performs env r automation config record shared i h
  /-- The loop index runs alone. -/
  | alone {program : Nat → Program (Option Failure)} {h : List Happening}
      {s : State σ (Except Failure Unit)} {result : Except Failure Unit}
      (hs : State.Reaches env program
        (State.start shared (Loop.run r automation config record.id i)) h s)
      (he : s.main = .ended result) (hu : Undeterred shared h) :
      Performs env r automation config record shared i h

section Performs

variable {page : Nat → LonePage π} {view : Nat → σ → π} (hpages : Independent env page view)
  {r : Runner} {automation : Automation} {record : RunRecord} {config : AutomationConfig}
  {shared : Shared σ} {h : List Happening} {i : Nat}
  (hregistry : r.registry = Catalogue.registry) (hsettled : Settled automation config)

include hpages hregistry hsettled

/-- A loop index of a settled automation is confined to its own page. -/
theorem confined_run {t : List Deed} {q : Program (Except Failure Unit)}
    (hleads : (Loop.run r automation config record.id i).Leads t q) : ∀ d ∈ t, d.Confined i := by
  -- Every way that has been begun can be gone to an end.
  obtain ⟨t', result, hends⟩ := q.exists_ends
  have halike : (Loop.run r automation config record.id i).Alike (pageWatch hpages i) i
      (Loop.run { r with data := r.data } automation config record.id i) :=
    Loop.alike_run (minds_pageWatch hpages i) hregistry hsettled record.id
  exact fun d hd => halike.confined (hleads.trans hends) d (List.mem_append_left _ hd)

omit hpages hregistry hsettled in
theorem silent_loopFailed (runId : String) (i : Nat) (result : Except Failure Unit) :
    ∀ d ∈ loopFailed runId i result, d.Silent := by
  rcases result with (e | f | _) | _
  · exact List.forall_mem_singleton.mpr trivial
  all_goals exact List.forall_mem_nil _

/-- In a parallel run every loop index executes its program on its own page. -/
theorem Scheduled.plays {s : State σ Ended} {e : Ended}
    (hparse : AutomationConfig.parse automation.config = .ok config)
    (hmode : config.runMode = .parallel) (hi : i < config.runCount)
    (hs : Scheduled env r automation record shared h s) (he : s.main = .ended e)
    (hu : Undeterred shared h) :
    Plays (pageWatch hpages i) ((pageWatch hpages i).see shared) i
      (Loop.run r automation config record.id i) h := by
  have hproper : r.registry.Proper := hregistry ▸ Catalogue.registry_proper
  obtain ⟨before, after, outs, hdeeds, houts, hidle, -, -⟩ :=
    hs.joins hproper he hu.uninterrupted hparse hmode
  obtain ⟨hall, -, hnobody, htrue, -⟩ :=
    hs.told hproper he hu.uninterrupted hparse hdeeds (List.mem_cons_of_mem _ houts)
  have hexecuted {j : Nat} (hj : j < config.runCount) : ∃ result,
      Executed (Loop.run r automation config record.id) record.id h j result := by
    obtain ⟨o, hm⟩ := hall j hj
    obtain ⟨result, hresult, -⟩ := htrue j o hm
    exact ⟨result, hresult⟩
  have hconfined (j : Nat) : ∀ d ∈ deedsOf (some j) h, d.Confined j := by
    rcases Nat.lt_or_ge j config.runCount with hj | hj
    · obtain ⟨result, t, hends, -, hdeeds⟩ := hexecuted hj
      rw [hdeeds]
      exact List.forall_mem_append.mpr ⟨confined_run hpages hregistry hsettled hends,
        fun d hd => (silent_loopFailed _ _ _ d hd).confined⟩
    · rw [hnobody j hj]
      exact List.forall_mem_nil _
  have hsole : Sole i (some i) h := by
    refine .of_confined hconfined fun d hd => ?_
    rw [hdeeds] at hd
    cases d with
    | call c reply => exact apart_of_not_executes (hidle c reply (by simpa using hd)) reply
    | _ => trivial
  obtain ⟨result, t, hends, hundisturbed, hdeeds⟩ := hexecuted hi
  have hheard := State.Reaches.heard hs (State.distinct_start _ _)
  rw [State.start, hu.unasked] at hheard
  exact hsole.plays hpages (State.Reaches.watched _ hs (State.distinct_start _ _)) hheard
    hu.requests hdeeds hends (hends.not_interrupted hundisturbed) (silent_loopFailed _ _ _)

omit hpages hsettled in
/-- A loop index that runs alone does what its program can do, undisturbed by others. -/
theorem alone_ends {program : Nat → Program (Option Failure)}
    {s : State σ (Except Failure Unit)} {result : Except Failure Unit}
    (hs : State.Reaches env program
      (State.start shared (Loop.run r automation config record.id i)) h s)
    (he : s.main = .ended result) (hu : Undeterred shared h) :
    (Loop.run r automation config record.id i).Ends (deedsOf none h) result ∧
      (∀ j, deedsOf (some j) h = []) ∧ .wake .interrupted ∉ deedsOf none h := by
  have hproper : r.registry.Proper := hregistry ▸ Catalogue.registry_proper
  have hindexed {t : List Deed} {result : Except Failure Unit}
      (hends : (Loop.run r automation config record.id i).Ends t result) :
      Indexed t (failureOf result) :=
    Loop.lawful_run (indexed_broad.steers hproper automation) hends
  have honce : (Loop.run r automation config record.id i).JoinsOnce :=
    fun t result hends => (hindexed hends).joins ▸ Nat.zero_le 1
  have hends := State.Reaches.main_ends hs (State.distinct_start _ _) rfl he
  have hnobody (j : Nat) : deedsOf (some j) h = [] := by
    rcases State.Reaches.accounted honce hs he with ⟨-, hsilent⟩ | ⟨hjoins, -⟩
    · exact hsilent j
    · rw [(hindexed hends).joins] at hjoins
      cases hjoins
  have hapart : State.LoopsApart h := fun j c reply hm => by
    rw [hnobody j] at hm
    cases hm
  have hcalm := (State.Reaches.calm honce hs hu.uninterrupted hapart).main.undisturbed
  refine ⟨hends, hnobody, hends.not_interrupted fun b w c heq => ?_⟩
  -- A loop index waits for nothing but the end of a sleep.
  obtain ⟨ms, rfl⟩ : ∃ ms, w = .sleep ms := hindexed hends (.wait w) (by simp [heq])
  exact hcalm.not_interrupted (.sleep ms) nofun nofun b c heq

/-- A loop index executes its program on its own page, however it is executed. -/
theorem Performs.plays (hparse : AutomationConfig.parse automation.config = .ok config)
    (hp : Performs env r automation config record shared i h) :
    Plays (pageWatch hpages i) ((pageWatch hpages i).see shared) i
      (Loop.run r automation config record.id i) h := by
  cases hp with
  | together hmode hi hs he hu => exact hs.plays hpages hregistry hsettled hparse hmode hi he hu
  | @interleaved _ w result hs he hu =>
    have hsole : Sole i (some i) h := by
      refine .of_confined (fun j => confined_run hpages hregistry hsettled (hs.leads j))
        fun d hd => ?_
      obtain ⟨j, d', heq, -⟩ := hs.own (mem_deedsOf_iff.mp hd)
      cases heq
    have hends := hs.leads i
    rw [he] at hends
    have hheard := hs.heard
    rw [hu.unasked] at hheard
    refine hsole.plays hpages (hs.watched _) hheard hu.requests (List.append_nil _).symm hends
      (fun hm => ?_) (List.forall_mem_nil _)
    obtain ⟨j, d, heq, hd⟩ := hs.own (mem_deedsOf_iff.mp hm)
    cases heq
    exact hd rfl
  | alone hs he hu =>
    obtain ⟨hends, hnobody, hwake⟩ := alone_ends hregistry hs he hu
    have hsole : Sole i none h := by
      refine ⟨confined_run hpages hregistry hsettled hends, fun {who} hwho d hd => ?_⟩
      obtain ⟨j, rfl⟩ := Option.ne_none_iff_exists'.mp hwho
      rw [hnobody j] at hd
      cases hd
    have hheard := State.Reaches.heard hs (State.distinct_start _ _)
    rw [State.start, hu.unasked] at hheard
    exact hsole.plays hpages (State.Reaches.watched _ hs (State.distinct_start _ _)) hheard
      hu.requests (List.append_nil _).symm hends hwake (List.forall_mem_nil _)

end Performs

/-- **Isolation of loop indices.** When nothing that the actions and steps of an automation do is
left to chance, to the time or to what is shared, and when the pages behave independently, then the
events with a loop index are the same, times aside, whenever that loop index is executed: in every
schedule of a parallel run, in every finer interleaving of loop indices, whichever take part, and
alone. It makes no difference when the execution begins, what is drawn, or whether there is room for
the events, as long as it begins with the same shared variables and the same page. -/
theorem events_isolated (page : Nat → LonePage π) (view : Nat → σ → π)
    (hpages : Independent env page view) (runner : Runner) (automation : Automation)
    (record : RunRecord) {config : AutomationConfig}
    (hparse : AutomationConfig.parse automation.config = .ok config)
    (hsettled : Settled automation config) (data : SampleData) {shared shared' : Shared σ} {i : Nat}
    {h h' : List Happening}
    (hp : Performs env { runner with registry := Catalogue.registry } automation config record
      shared i h)
    (hp' : Performs env { runner with registry := Catalogue.registry, data } automation config
      record shared' i h')
    (hglobals : shared.globals = shared'.globals)
    (hview : view i shared.outside = view i shared'.outside) : eventsOf i h = eventsOf i h' := by
  have hplays := hp.plays hpages rfl hsettled hparse
  have hplays' := hp'.plays hpages rfl hsettled hparse
  have hsee : (pageWatch hpages i).see shared = (pageWatch hpages i).see shared' :=
    Prod.ext hglobals hview
  rw [← hsee] at hplays'
  exact hplays.eventsOf_eq
    (Loop.alike_run (minds_pageWatch hpages i) rfl hsettled record.id) hplays'

/-! ### A rehearsal -/

/-- An automation that runs twice at once and pauses. -/
def pausing : Automation :=
  { id := "auto-1", name := "Auto"
    config := .object [
      ("multirun", .object [
        ("enabled", .bool true), ("mode", .text "parallel"), ("count", .int 2)]),
      ("screenshots", .object [("enabled", .bool false)])]
    steps := [{ id := "s0", name := "Step 0", actions := [
      { id := "a0", actionType := "playwright:wait_for_timeout"
        config := [("timeout", .int 5)] }] }] }

theorem written_pausing {run : Running} (h : Written pausing run) :
    run.frame.actionType = "playwright:wait_for_timeout" ∧ run.config = [("timeout", .int 5)] := by
  induction h with
  | action hstep haction =>
    rw [Automation.orderedSteps, byRank, pausing, List.mergeSort_singleton] at hstep
    obtain rfl := List.mem_singleton.mp hstep
    rw [Step.orderedActions, byRank, List.mergeSort_singleton] at haction
    obtain rfl := List.mem_singleton.mp haction
    exact ⟨rfl, rfl⟩
  | iteration _ htype _ ih => exact absurd (ih.1.symm.trans htype) (by decide)
  | branch _ htype _ ih => exact absurd (ih.1.symm.trans htype) (by decide)

theorem settled_pausing {config : AutomationConfig} (hconfig : config.screenshots.enabled = false) :
    Settled pausing config where
  inward hrun := by
    rw [(written_pausing hrun).1]
    decide +kernel
  steady {run kind} hrun hget := by
    rw [(written_pausing hrun).1] at hget
    obtain rfl : Browser.waitForTimeout = kind := Except.ok.inj hget
    rw [(written_pausing hrun).2]
    exact ⟨_, rfl, _, _, rfl, rfl, rfl⟩
  unshared {run kind env resolved params} hrun hget hgives hvalid := by
    rw [(written_pausing hrun).1] at hget
    obtain rfl : Browser.waitForTimeout = kind := Except.ok.inj hget
    rw [(written_pausing hrun).2] at hgives
    obtain ⟨fields, rfl, y, fs, rfl, hy, hfs⟩ := Template.rewritten_of_gives hgives
    obtain rfl : y = .int 5 := hy
    obtain rfl : fs = [] := hfs
    have hscope : (Browser.waitForTimeout.validate (.object [("timeout", .int 5)])).toOption.map
        (fun params => Fields.textAt params "scope") = some "" := by decide +kernel
    rw [hvalid] at hscope
    rw [show Fields.textAt params "scope" = "" from Option.some.inj hscope]
    decide
  untimed hrun htype := absurd ((written_pausing hrun).1.symm.trans htype) (by decide)
  certain {step key} hstep _ := by
    rw [Automation.orderedSteps, byRank, pausing, List.mergeSort_singleton] at hstep
    obtain rfl := List.mem_singleton.mp hstep
    rintro ⟨⟩
  unpictured := hconfig

/-- A parallel run of it: the second loop index comes to its end first. -/
def pausedTogether : List Happening × State World Ended :=
  State.carryOut World.collaborators (loopProgram sampleRunner pausing sampleRecord.id)
    [.main, .loop 0, .loop 1, .alarm (.wakeLoop 1), .loop 1, .alarm (.wakeLoop 0), .loop 0,
      .loopEnded, .loopEnded, .main, .consumer, .main, .ticker, .main]
    (State.start (sampleShared 1704067200000) (run sampleRunner pausing sampleRecord))

/-- Its loop indices in turn, one deed each. -/
def pausedInTurn (config : AutomationConfig) :
    List Happening × Strands World (Except Failure Unit) :=
  Strands.goOnAll World.collaborators ((List.range 60).map fun n => n % 2)
    ⟨sampleShared 0, Loop.run sampleRunner pausing config sampleRecord.id⟩

/-- Its second loop index alone. -/
def pausedAlone (config : AutomationConfig) :
    List Happening × State World (Except Failure Unit) :=
  State.carryOut World.collaborators (fun _ => .done none) [.main, .alarm .wakeMain, .main]
    (State.start (sampleShared 0) (Loop.run sampleRunner pausing config sampleRecord.id 1))

/-- The second loop index tells the same together with the first one, in turn with it, and alone at
another time. -/
theorem second_tells_same : ∃ config, AutomationConfig.parse pausing.config = .ok config ∧
    Settled pausing config ∧
    Performs World.collaborators sampleRunner pausing config sampleRecord
      (sampleShared 1704067200000) 1 pausedTogether.1 ∧
    Performs World.collaborators sampleRunner pausing config sampleRecord (sampleShared 0) 1
      (pausedInTurn config).1 ∧
    Performs World.collaborators sampleRunner pausing config sampleRecord (sampleShared 0) 1
      (pausedAlone config).1 ∧
    (eventsOf 1 pausedTogether.1).length = 2 ∧
    eventsOf 1 pausedTogether.1 = eventsOf 1 (pausedInTurn config).1 ∧
    eventsOf 1 pausedTogether.1 = eventsOf 1 (pausedAlone config).1 := by
  obtain ⟨config, hparse, hfacts⟩ : ∃ config, AutomationConfig.parse pausing.config = .ok config ∧
      (config.runMode, config.screenshots.enabled, (pausedInTurn config).2.hasEnded 1,
        (requests (pausedInTurn config).1).isEmpty, (pausedAlone config).2.main.result?.isSome,
        (requests (pausedAlone config).1).isEmpty) = (.parallel, false, true, true, true, true) :=
    Json.exists_ok (by decide +kernel)
  simp only [Prod.mk.injEq] at hfacts
  obtain ⟨hmode, hpictures, hturn, hturnRequests, halone, haloneRequests⟩ := hfacts
  have hsettled := settled_pausing hpictures
  have htogether : Performs World.collaborators sampleRunner pausing config sampleRecord
      (sampleShared 1704067200000) 1 pausedTogether.1 := by
    obtain ⟨e, he, -⟩ : ∃ e, pausedTogether.2.main = .ended e ∧ e.raised.isNone = true :=
      Task.exists_ended (by decide +kernel)
    exact .together hmode (count_of_parallel hmode)
      (State.carryOut_reaches_of _ _ _ _ (by decide +kernel)) he
      ⟨rfl, List.isEmpty_iff.mp (by decide +kernel), State.not_mem_carryOut (by decide) _⟩
  have hinTurn : Performs World.collaborators sampleRunner pausing config sampleRecord
      (sampleShared 0) 1 (pausedInTurn config).1 := by
    obtain ⟨result, hended⟩ := Strands.exists_done hturn
    have hs : Strands.Reaches World.collaborators
        ⟨sampleShared 0, Loop.run sampleRunner pausing config sampleRecord.id⟩
        (pausedInTurn config).1 (pausedInTurn config).2 := Strands.reaches_goOnAll _ _ _
    refine .interleaved hs hended ⟨rfl, List.isEmpty_iff.mp hturnRequests, fun hm => ?_⟩
    obtain ⟨_, _, heq, -⟩ := hs.own hm
    cases heq
  have hsolo : Performs World.collaborators sampleRunner pausing config sampleRecord
      (sampleShared 0) 1 (pausedAlone config).1 := by
    obtain ⟨result, hended⟩ := Option.isSome_iff_exists.mp halone
    obtain ⟨result, he, -⟩ := Task.exists_ended (f := id) (congrArg (Option.map id) hended)
    exact .alone (State.carryOut_reaches _ _ _ (by decide) _) he
      ⟨rfl, List.isEmpty_iff.mp haloneRequests, State.not_mem_carryOut (by decide) _⟩
  exact ⟨config, hparse, hsettled, htogether, hinTurn, hsolo, by decide +kernel,
    events_isolated (fun _ => World.lonePage) World.sight World.independent sampleRunner pausing
      sampleRecord hparse hsettled sampleData htogether hinTurn rfl rfl,
    events_isolated (fun _ => World.lonePage) World.sight World.independent sampleRunner pausing
      sampleRecord hparse hsettled sampleData htogether hsolo rfl rfl⟩

end Whole

end Runbook
