import Runbook.Proofs.Outcomes
import Runbook.Proofs.Underway

/-!
# Running out of time

A run that is asked to stop fails at a look at the request, and the error of that look is what the
run raises in the end. Its words depend on the place of the look. Before a step or an action of a
step they are those of the request; where the innermost action under way is a loop they are the
loop's own, and the reason of the request is lost.

* `Says c S e`: with the actions `S` under way, a look at the request `c` ends in `e`.
* `Found automation free S t e`: a look among the deeds `t` ends in `e`.
* `Whole.Scheduled.found`: in every schedule, a cancellation that is raised was found in this way.
* `Whole.timed_out_message`: which message a run has that has run out of time.
-/

namespace Runbook

open Program Schedule Rehearsal

/-! ### Looks that find a request -/

/-- With these actions under way, a look that finds the request ends in this failure. -/
inductive Says (c : Cancellation) : List Running → Failure → Prop
  /-- Before a step or an action of a step, in the words of the request. -/
  | boundary : Says c [] (.error (c.toError ""))
  /-- In a loop, in the words of the loop. -/
  | loop {run : Running} {S : List Running} {message : String}
      (htype : run.frame.actionType = "playwright:loop_until")
      (hwords : message ∈ LoopUntil.words) :
      Says c (run :: S) (.error (c.toError message))

/-- A look among some deeds finds a request and ends in this failure. -/
def Found (automation : Automation) (free : Bool) (S : List Running) (t : List Deed)
    (e : Failure) : Prop :=
  ∃ before c after S', t = before ++ .call .cancellation (some c) :: after ∧
    Proceeds automation free S before S' ∧ Says c S' e

variable {automation : Automation} {free : Bool} {S S₁ : List Running} {t t' : List Deed}
  {e : Failure}

namespace Found

theorem append_right (h : Found automation free S t e) (t' : List Deed) :
    Found automation free S (t ++ t') e := by
  obtain ⟨before, c, after, S', rfl, hproceeds, hsays⟩ := h
  exact ⟨before, c, after ++ t', S', by simp, hproceeds, hsays⟩

theorem append_left (hproceeds : Proceeds automation free S t S₁)
    (h : Found automation (t.foldl Deed.frees free) S₁ t' e) :
    Found automation free S (t ++ t') e := by
  obtain ⟨before, c, after, S', rfl, hproceeds', hsays⟩ := h
  exact ⟨t ++ before, c, after, S', by simp, hproceeds.append hproceeds', hsays⟩

/-- The first deed is a look that ends in the failure. -/
theorem here {c : Cancellation} (h : Says c S e) :
    Found automation free S [.call .cancellation (some c)] e :=
  ⟨[], c, [], S, rfl, .nil, h⟩

end Found

/-- Some actions are under way before and after, and a cancellation is found on the way. -/
def Finds (automation : Automation) (S : List Running) : Law := fun t o =>
  Keeps automation S t o ∧
    ∀ e, o = some e → e.cancellation? ≠ none → ∀ free, Found automation free S t e

theorem Keeps.finds {o : Option Failure} (h : Keeps automation S t o)
    (ho : ∀ e, o = some e → e.cancellation? = none) : Finds automation S t o :=
  ⟨h, fun e he hne => absurd (ho e he) hne⟩

theorem finds_lenient (automation : Automation) (S : List Running) :
    (Finds automation S).Lenient where
  nil := (keeps_lenient automation S).nil.finds (by simp)
  append h h' := ⟨(keeps_lenient automation S).append h.1 h'.1, fun e he hne free =>
    (h'.2 e he hne _).append_left (h.1 free)⟩
  call hc := ((keeps_lenient automation S).call hc).finds (by simp)
  fail he := ((keeps_lenient automation S).fail he).finds fun _ h => Option.some.inj h ▸ he.1
  file he := ((keeps_lenient automation S).file he).finds (by simp)
  sleep := (keeps_lenient automation S).sleep.finds (by simp)
  interrupted := (keeps_lenient automation S).interrupted.finds (by simp [Failure.cancellation?])
  go := (keeps_lenient automation S).go.finds (by simp)
  after {t t' e e' o} h hne h' he := by
    refine ⟨(keeps_lenient automation S).after h.1 hne h'.1 he, fun e'' heq hcancel free => ?_⟩
    cases heq
    rcases he with ⟨rfl, -⟩ | ho
    · exact (h.2 _ rfl hcancel free).append_right t'
    · have hkeeps := h.1 free
      rw [left_of_ne fun heq => hne (Option.some.inj heq)] at hkeeps
      exact (h'.2 _ ho hcancel _).append_left hkeeps

/-! ### Looks of actions -/

/-- While it does what it does, an action finds cancellations by its own looks, if it is a loop, or
by those of the actions that it dispatches. -/
theorem finds_governs {run : Running} {kind : ActionKind} {R : String → String → Prop}
    {resolved params : Fields} {nested : Dispatcher}
    (hget : Catalogue.registry.get run.frame.actionType = .ok kind)
    (hresolved : Template.Rewritten R (kind.deferred.map Template.Deferral.ofText) []
      (.object run.config) (.object resolved))
    (hvalid : kind.validate (.object resolved) = .ok params)
    (hproceeds : ∀ {a free s t r s'}, Admits automation free (run :: S) (run.nested a) →
      (nested (run.nested a).frame (run.nested a).config).Ends s t r s' →
      Proceeds automation free (run :: S) t (left (failureOf r) (run :: S)))
    (hfound : ∀ {a free s t r s' e}, Admits automation free (run :: S) (run.nested a) →
      (nested (run.nested a).frame (run.nested a).config).Ends s t r s' → failureOf r = some e →
      e.cancellation? ≠ none → Found automation free (run :: S) t e) :
    (Finds automation (run :: S)).Governs kind.type nested run.frame params where
  toLenient := finds_lenient automation (run :: S)
  branch htype ha := fun s t r s' h =>
    have hadmits {free : Bool} : Admits automation free (run :: S) (run.nested _) :=
      admits_branch hget hresolved hvalid htype ha
    ⟨fun _ => hproceeds hadmits h, fun _ he hcancel _ => hfound hadmits h he hcancel⟩
  iteration htype ha h :=
    have hadmits := admits_iteration hget hresolved hvalid htype ha
    ⟨fun _ => .cons (.quiet trivial) (hproceeds hadmits h), fun _ he hcancel _ =>
      (hfound hadmits h he hcancel).append_left (t := [.call .cancellation none])
        (.cons (.quiet trivial) .nil)⟩
  stop {c message} htype hwords := by
    have heq : run.frame.actionType = "playwright:loop_until" :=
      (Catalogue.registry_proper hget).2.symm.trans htype
    refine ⟨keeps_one (.call .cancellation _) trivial nofun, fun e he _ free => ?_⟩
    cases he
    exact .here (.loop heq hwords)

namespace Action

variable {ctx : LoopContext}

/-- A dispatch that ends in a cancellation has found it. -/
theorem found_dispatchWithin {levels : Nat} {run : Running} {s s' : LoopState}
    {r : Except Failure Unit} (hadmits : Admits automation free S run)
    (h : (dispatchWithin Catalogue.registry ctx levels run.frame run.config).Ends s t r s')
    (hr : failureOf r = some e) (hcancel : e.cancellation? ≠ none) :
    Found automation free S t e := by
  induction levels generalizing S run free s t r s' e with
  | zero =>
    obtain ⟨rfl, rfl, -⟩ := Act.ends_fail_iff.mp h
    cases hr
    exact absurd rfl hcancel
  | succ levels ih =>
    obtain ⟨t', rfl, hfollows⟩ := ends_dispatchWith h
    cases hfollows with
    | unknown hget =>
      cases hr
      exact absurd rfl hcancel
    | unresolved e ht =>
      cases hr
      exact absurd (Template.ResolveFault.own_toFailure e).1 hcancel
    | @executed kind globals now resolved t₁ t₂ r s' hget ht hresolved h =>
      rcases ActionKind.ends_execute h with ⟨e, hvalid, rfl, -, -⟩ |
        ⟨params, started, t₃, result, report, s₁, t₄, hvalid, rfl, rfl, rfl, hbehave, -⟩
      · obtain ⟨error, field, rfl, hfield⟩ := ActionKind.validate_error hvalid
        cases hr
        refine absurd ?_ hcancel
        rw [Failure.cancellation?, RunError.cancellation?, hfield]
      have hproper := Catalogue.registry_proper hget
      have hresult : failureOf result = some e := by
        rcases result with (error | fault | _) | message
        · exact hr
        -- The failure of a collaborator is told in words of the action.
        · cases hr
          exact absurd (hproper.1.wrap fault params) hcancel
        · exact hr
        · cases hr
      have hdone : Finds automation (run :: S) t₃ (failureOf result) :=
        hproper.1.behave (finds_governs hget hresolved hvalid proceeds_dispatchWithin ih) ctx
          _ _ _ _ _ _ hbehave
      have hquiet := quiet_of_plain ht.plain
      have hbegins : Proceeds automation free S
          (.call (.dispatched ctx.loopIndex run.frame run.config) () ::
            (t₁ ++ [.call .now started])) (run :: S) :=
        .cons (.begin hadmits) ((Passage.quiet hquiet).append (.cons (.quiet trivial) .nil))
      have hfound := ((hdone.2 e hresult hcancel _).append_left hbegins).append_right t₄
      simpa using hfound

end Action

/-! ### Looks of a loop index -/

/-- A loop index finds cancellations by its own looks, or by those of its actions. -/
theorem finds_steers {r : Runner} (hr : r.registry = Catalogue.registry)
    (automation : Automation) : (Finds automation []).Steers r automation where
  toLenient := finds_lenient automation []
  stop := by
    refine ⟨keeps_one (.call .cancellation _) trivial nofun, fun e he _ free => ?_⟩
    cases he
    exact .here .boundary
  openSession := (keeps_steers hr automation).openSession.finds (by simp)
  close {t o i} h := by
    refine ⟨(keeps_steers hr automation).close h.1, fun e he hcancel free => ?_⟩
    exact (h.2 e he hcancel free).append_right _
  announce ht he := ((keeps_steers hr automation).announce ht he).finds (by simp)
  act {ctx step action s s' t result} hstep haction h := by
    refine ⟨(keeps_steers hr automation).act hstep haction h, fun e he hcancel free => ?_⟩
    have hadmits : Admits automation true [] ⟨Loop.frameOf step action, action.config⟩ :=
      .action rfl hstep haction
    rw [hr] at h
    have hfound : Found automation true [] t e :=
      Action.found_dispatchWithin hadmits h he hcancel
    exact hfound.append_left (t := [.call .cancellation none]) (.cons (.quiet trivial) .nil)

namespace Whole

/-! ### Who asks to stop -/

/-- A call that asks to stop, now or later. -/
def Asks : Call → Prop
  | .cancel _ _ | .armTimeout _ _ => True
  | _ => False

/-- The reason that the time limit of a run gives. -/
def timeUp (config : AutomationConfig) : String := s!"automation timed out after {config.timeoutS}s"

theorem not_asks_of_indexed {c : Call} (h : c.Indexed) : ¬ Asks c := by
  intro hc
  cases c <;> first | exact hc | exact h

theorem Begins.not_asks {r : RunRecord} {c : Call} {reply : c.Reply} (h : Begins r t)
    (hm : .call c reply ∈ t) : ¬ Asks c := by
  obtain ⟨now, saved, told, rfl, htold⟩ := h
  intro hc
  simp only [List.mem_cons, List.mem_append, List.not_mem_nil, or_false, reduceCtorEq,
    false_or] at hm
  rcases hm with heq | heq | hm | heq
  case inr.inr.inl =>
    obtain ⟨r, heq⟩ := htold _ hm
    cases heq
    exact hc
  all_goals
    cases heq
    exact hc

theorem not_asks_of_finish {automation : Automation} {r : RunRecord} {channels : List Channel}
    {ending : Ending} {raised : Option Failure} {e : Ended} {c : Call} {reply : c.Reply}
    (h : (finish automation r channels ending raised).Ends t e) (hm : .call c reply ∈ t) :
    ¬ Asks c := by
  intro hc
  have honly := ((only_finish automation r channels ending raised).of_leads h).2.1 _ _ hm
  rcases honly with h | h <;> cases c <;> first | exact hc | exact h

/-- The main task asks for nothing but its time limit while its loop indices go on. -/
theorem Went.not_asks {r : Runner} (hregistry : r.registry.Proper) {config : AutomationConfig}
    {runId : String} {result : Except Failure (Option RunError)} {c : Call} {reply : c.Reply}
    (h : Went r automation config runId t result) (hm : .call c reply ∈ t) : ¬ Asks c := by
  cases h with
  | sequential _ hends =>
    have hindexed := lawful_sequential (indexed_broad.steers hregistry automation) hends
    exact not_asks_of_indexed (hindexed _ hm)
  | interrupted => simp at hm
  | parallel =>
    simp only [List.mem_cons, reduceCtorEq, false_or, List.not_mem_nil, or_false] at hm
    cases hm
    exact id

theorem armed_of_loops {loop : Nat → Program (Except Failure Unit)} {config : AutomationConfig}
    {runId : String} {result : Except Failure (Option RunError)}
    (h : (loops loop config runId).Ends t result) : ∃ t',
      t = .call (.armTimeout ((config.timeoutS : Rat) * 1000) (timeUp config)) () :: t' := by
  rw [loops] at h
  obtain ⟨_, t', rfl, -⟩ := ends_ask_bind_iff.mp h
  exact ⟨t', rfl⟩

/-! ### Runs that raise a cancellation -/

section Schedules

variable {σ : Type} {env : Collaborators σ} {r : Runner} {record : RunRecord}
  {shared : Shared σ} {h : List Happening} {s : State σ Ended} {ended : Ended} {error : RunError}

/-- What raises an error has come to it in its loop indices. -/
theorem eq_of_raisedOf {result : Except Failure (Option RunError)}
    (hknown : ∀ failure, result = .error failure → Unknown failure)
    (h : raisedOf result = some (.error error)) : result = .ok (some error) := by
  rcases result with failure | _ | error'
  · cases h
    exact absurd rfl (hknown _ rfl error)
  · cases h
  · cases h
    rfl

/-- The cancellation that loop indices come to has been found by one of them. -/
theorem Went.found (hr : r.registry = Catalogue.registry)
    (hs : Scheduled env r automation record shared h s) (he : s.main = .ended ended)
    {config : AutomationConfig} {before after : List Deed}
    (hdeeds : deedsOf none h = before ++ (t ++ after))
    (hbefore : Proceeds automation false [] before []) (hcancel : error.cancellation? ≠ none)
    (hwent : Went r automation config record.id t (.ok (some error))) :
    ∃ who, Found automation false [] (deedsOf who h) (.error error) := by
  have hregistry : r.registry.Proper := hr ▸ Catalogue.registry_proper
  generalize hresult : (.ok (some error) : Except Failure (Option RunError)) = result at hwent
  have hraised : raisedOf result = some (.error error) := hresult ▸ rfl
  cases hwent with
  | sequential _ hends =>
    have hfinds := lawful_sequential (finds_steers hr automation) hends
    refine ⟨none, hdeeds ▸ ?_⟩
    exact ((hfinds.2 _ hraised hcancel _).append_right after).append_left hbefore
  | interrupted => cases hresult
  | @parallel outs =>
    obtain ⟨i, ho⟩ := mem_of_joined hraised
    have hsplit : deedsOf none h = before ++ .wait (.loops config.runCount) ::
        (.wake .resumed :: .call .outcomes outs :: after) := hdeeds
    rcases State.Reaches.accounted (joinsOnce_run hregistry automation record) hs he with
      ⟨hnone, -⟩ | ⟨-, htrue⟩
    · rw [hsplit, List.countP_append, List.countP_cons_of_pos rfl] at hnone
      omega
    · refine ⟨some i, ?_⟩
      rcases (htrue _ _ _ outs hsplit (by simp)).ends ho with hends | ⟨-, heq⟩
      · exact (lawful_loopProgram (finds_steers hr automation) hends).2 _ rfl hcancel _
      · cases heq

/-- A run that raises a cancellation has failed with it under a time limit, and some task has found
the request. It has asked for nothing but its time limit. -/
theorem Scheduled.found (hr : r.registry = Catalogue.registry)
    (hs : Scheduled env r automation record shared h s) (he : s.main = .ended ended)
    (hraised : ended.raised = some (.error error)) (hcancel : error.cancellation? ≠ none) :
    ∃ config r snapshot now, AutomationConfig.parse automation.config = .ok config ∧
      ended.record = finished r snapshot now (.failed error) ∧
      (∀ c reply, .call c reply ∈ deedsOf none h → Asks c →
        c = .armTimeout ((config.timeoutS : Rat) * 1000) (timeUp config)) ∧
      ∃ who, Found automation false [] (deedsOf who h) (.error error) := by
  have hregistry : r.registry.Proper := hr ▸ Catalogue.registry_proper
  rcases ends_run (hs.ends he) with ⟨now, reply, -, rfl⟩ |
    ⟨now, before, t, after, channels, result, hdeeds, hbegins, hcame, hconclude⟩
  · cases hraised
  have hclosed := ends_conclude hconclude
  cases hclosed with
  | left => cases hraised
  | saved => cases hraised
  | told snapshot end' =>
    cases hcame with
    | @faulty fault _ _ hparse hfault =>
      refine absurd ?_ hcancel
      have heq : fault.toFailure = .error error := Option.some.inj (hfault.symm.trans hraised)
      change Failure.cancellation? (.error error) = none
      rw [← heq]
      cases fault <;> rfl
    | @gone config _ _ hparse hloops =>
      obtain ⟨t₀, heq⟩ := armed_of_loops hloops
      obtain ⟨ms, reason, t', rfl, hwent⟩ := ends_loops hloops
      cases heq
      obtain rfl := eq_of_raisedOf (fun _ hresult => (hresult ▸ hwent).unknown) hraised
      refine ⟨config, _, snapshot, end', hparse, rfl, fun c reply hm hc => ?_, ?_⟩
      · rw [hdeeds] at hm
        simp only [List.mem_append, List.mem_cons, List.not_mem_nil, or_false] at hm
        rcases hm with hm | (heq | hm | heq) | hm
        · exact absurd hc (Begins.not_asks hbegins hm)
        · cases heq
          rfl
        · exact absurd hc (hwent.not_asks hregistry hm)
        · cases heq
          exact hc.elim
        · exact absurd hc (not_asks_of_finish hconclude hm)
      · have harmed : Proceeds automation false []
            (before ++ [.call (.armTimeout ((config.timeoutS : Rat) * 1000) (timeUp config)) ()])
            [] :=
          hbegins.aside.proceeds.append (.cons (.quiet trivial) .nil)
        have hsplit : deedsOf none h =
            (before ++ [.call (.armTimeout ((config.timeoutS : Rat) * 1000) (timeUp config)) ()]) ++
              (t' ++ (.call .disarmTimeout () :: after)) := by
          rw [hdeeds]
          simp
        exact hwent.found hr hs he hsplit harmed hcancel

end Schedules

/-! ### The words of a time limit -/

theorem head?_timeUp (config : AutomationConfig) : (timeUp config).toList.head? = some 'a' := by
  have hchars : (timeUp config).toList = "automation timed out after ".toList ++
      ((toString config.timeoutS).toList ++ "s".toList) := by
    rw [← String.toList_append, ← String.toList_append, ← String.append_assoc]
    rfl
  rw [hchars]
  rfl

/-- A loop never gives the reason of the time limit. -/
theorem timeUp_not_mem_words (config : AutomationConfig) : timeUp config ∉ LoopUntil.words := by
  intro hm
  have hhead : ∀ m ∈ LoopUntil.words, m.toList.head? ≠ some 'a' := by decide
  exact hhead _ hm (head?_timeUp config)

theorem message_toError_timeUp (config : AutomationConfig) :
    (Cancellation.toError ⟨timeUp config, true⟩ "").message = timeUp config := by
  have hne : (timeUp config).isEmpty = false := by
    refine Bool.eq_false_iff.mpr fun hempty => ?_
    have hhead := head?_timeUp config
    rw [String.isEmpty_iff.mp hempty] at hhead
    cases hhead
  change Cancellation.firstWords (timeUp config) Cancellation.defaultMessage = _
  rw [Cancellation.firstWords, hne]
  rfl

theorem message_toError_of_mem_words {c : Cancellation} {message : String}
    (h : message ∈ LoopUntil.words) : (c.toError message).message = message := by
  have hne : ∀ m ∈ LoopUntil.words, m.isEmpty = false := by decide
  change Cancellation.firstWords message _ = _
  rw [Cancellation.firstWords, hne message h]
  rfl

/-- The first request to stop is the time limit of the run itself, if it came from a time limit and
nobody else had set one. -/
theorem Scheduled.eq_timeUp {σ : Type} {env : Collaborators σ} {r : Runner} {record : RunRecord}
    {shared : Shared σ} {h : List Happening} {s : State σ Ended} {config : AutomationConfig}
    (hregistry : r.registry.Proper) (hs : Scheduled env r automation record shared h s)
    (hmain : ∀ c reply, .call c reply ∈ deedsOf none h → Asks c →
      c = .armTimeout ((config.timeoutS : Rat) * 1000) (timeUp config))
    (hearlier : ∀ c, shared.cancellation = some c → c.timedOut = false)
    (hown : ∀ reason, .alarm (.timeout reason) ∈ h →
      ∃ ms, .call (.armTimeout ms reason) () ∈ deedsOf none h)
    {c : Cancellation} (hc : requested shared.cancellation h = some c)
    (htimedOut : c.timedOut = true) :
    c = ⟨timeUp config, true⟩ := by
  rw [requested_eq_head?] at hc
  rcases List.mem_append.mp (List.mem_of_head? hc) with hm | hm
  · have hfalse := hearlier c (Option.mem_toList.mp hm)
    rw [htimedOut] at hfalse
    cases hfalse
  · obtain ⟨x, hx, hasks⟩ := List.mem_filterMap.mp hm
    unfold Happening.asks? at hasks
    split at hasks
    · rename_i reason
      cases hasks
      obtain ⟨ms, harmed⟩ := hown reason hx
      cases hmain _ _ harmed trivial
      rfl
    · cases hasks
      cases htimedOut
    · rename_i who reason timedOut reply
      cases who with
      | none => cases hmain _ _ (mem_deedsOf_iff.mpr hx) trivial
      | some i =>
        obtain ⟨t, o, hends⟩ := hs.exists_ends_loop hregistry i
        have hindexed := lawful_loopProgram (indexed_broad.steers hregistry automation) hends _
          (List.mem_append_left _ (mem_deedsOf_iff.mpr hx))
        exact absurd trivial (not_asks_of_indexed (c := .cancel reason timedOut) hindexed)
    · cases hasks

/-- **Running out of time.** In every schedule, a run that raises a timeout, and whose token has not
timed out for another reason, has failed, and its message is that of the error that it raises. Some
task has found the request of the time limit. If no action was under way at that look, the message
is the reason that the time limit gives. Otherwise the innermost action under way was a loop, and
the message is one of the loop's own, and not that reason. -/
theorem timed_out_message {σ : Type} (env : Collaborators σ) (runner : Runner)
    (automation : Automation) (record : RunRecord) (shared : Shared σ) {h : List Happening}
    {s : State σ Ended} {e : Ended} {error : RunError}
    (hs : Scheduled env { runner with registry := Catalogue.registry } automation record shared h s)
    (he : s.main = .ended e) (hraised : e.raised = some (.error error))
    (htimedOut : error.cancellation? = some true)
    (hearlier : ∀ c, shared.cancellation = some c → c.timedOut = false)
    (hown : ∀ reason, .alarm (.timeout reason) ∈ h →
      ∃ ms, .call (.armTimeout ms reason) () ∈ deedsOf none h) :
    e.record.status = .failed ∧ e.record.errorMessage = error.message ∧
    ∃ config, AutomationConfig.parse automation.config = .ok config ∧
      ∃ who before after S,
        deedsOf who h = before ++ .call .cancellation (some ⟨timeUp config, true⟩) :: after ∧
        Proceeds automation false [] before S ∧
        (S = [] ↔ error.message = timeUp config) ∧
        ∀ run S', S = run :: S' → run.frame.actionType = "playwright:loop_until" ∧
          error.message ∈ LoopUntil.words := by
  have hcancel : error.cancellation? ≠ none := by simp [htimedOut]
  obtain ⟨config, r, snapshot, now, hparse, hrecord, hmain, who, before, c, after, S, hsplit,
    hproceeds, hsays⟩ := hs.found rfl he hraised hcancel
  have hheard : Heard shared.cancellation h s.shared.cancellation :=
    State.Reaches.heard hs (State.distinct_start _ _)
  have hc : requested shared.cancellation h = some c := by
    obtain ⟨k, k', rfl, -⟩ := exists_split_of_deedsOf hsplit
    rw [requested_append, ← hheard.found rfl, requested_some]
  have hcounts : c.timedOut = true := by
    cases hsays <;> exact Option.some.inj htimedOut
  obtain rfl := hs.eq_timeUp Catalogue.registry_proper hmain hearlier hown hc hcounts
  refine ⟨?_, ?_, config, hparse, who, before, after, S, hsplit, hproceeds, ?_, ?_⟩
  · rw [hrecord, status_finished]
    simp [Ending.verdict, htimedOut]
  · rw [hrecord]
    rfl
  · cases hsays with
    | boundary => exact iff_of_true rfl (message_toError_timeUp config)
    | loop htype hwords =>
      refine iff_of_false (List.cons_ne_nil _ _) fun heq => timeUp_not_mem_words config ?_
      rw [← heq, message_toError_of_mem_words hwords]
      exact hwords
  · rintro run S' rfl
    cases hsays with
    | loop htype hwords =>
      refine ⟨htype, ?_⟩
      rw [message_toError_of_mem_words hwords]
      exact hwords

/-! ### Rehearsals -/

/-- An automation with a time limit of one second, whose only action waits for two seconds in a loop
and then logs something. -/
def circlingOn : Automation :=
  { id := "auto-1", name := "Auto"
    config := .object [("timeout", .int 1)]
    steps := [{ id := "s0", name := "Step 0", actions := [
      { id := "a0", actionType := "playwright:loop_until"
        config := [
          ("max_loops", .int 1),
          ("loop_actions", .list [
            .object [
              ("action_type", .text "playwright:wait_for_timeout"),
              ("action_config", .object [("timeout", .int 2000)])],
            .object [
              ("action_type", .text "playwright:log"),
              ("action_config", .object [("message", .text "late")])]])] }] }] }

/-- The jobs of a rehearsal that runs out of time while its main task sleeps. -/
def overtime : List Job :=
  [.main, .alarm (.timeout "automation timed out after 1s"), .alarm .wakeMain, .main, .consumer,
    .main, .ticker, .main]

/-- What happens when an automation is rehearsed in this way. -/
def ranOut (automation : Automation) : List Happening × State World Ended :=
  State.carryOut World.collaborators (loopProgram sampleRunner automation sampleRecord.id) overtime
    (State.start (sampleShared 1704067200000) (run sampleRunner automation sampleRecord))

theorem ranOut_scheduled (automation : Automation) :
    Scheduled World.collaborators sampleRunner automation sampleRecord
      (sampleShared 1704067200000) (ranOut automation).1 (ranOut automation).2 :=
  State.carryOut_reaches _ _ _ (by decide) _

/-- The reasons of the time limits that a trace sets. -/
def limits (t : List Deed) : List String :=
  t.filterMap fun
    | .call (.armTimeout _ reason) _ => some reason
    | _ => none

/-- The only time limit that such a rehearsal runs into is the one that it has set. -/
theorem ranOut_own {automation : Automation}
    (hlimits : limits (deedsOf none (ranOut automation).1) = ["automation timed out after 1s"])
    (reason : String) (h : .alarm (.timeout reason) ∈ (ranOut automation).1) :
    ∃ ms, .call (.armTimeout ms reason) () ∈ deedsOf none (ranOut automation).1 := by
  have hrung : .alarm (.timeout reason) ∈ overtime :=
    Classical.not_not.mp fun hno => State.not_mem_carryOut hno _ h
  obtain rfl : reason = "automation timed out after 1s" := by simpa [overtime] using hrung
  have hset : "automation timed out after 1s" ∈ limits (deedsOf none (ranOut automation).1) :=
    hlimits ▸ List.mem_singleton_self _
  obtain ⟨d, hd, hsome⟩ := List.mem_filterMap.mp hset
  split at hsome
  · cases hsome
    exact ⟨_, hd⟩
  · cases hsome

/-- What a rehearsal raises, whether that is a cancellation, and what its record says. -/
def showing (ended : Ended) : Option (String × Option Bool) × RunStatus × String :=
  (ended.raised.map fun e => (e.text, e.cancellation?), ended.record.status,
    ended.record.errorMessage)

/-- What is raised as a timeout is an error. -/
theorem exists_error_of_cancellation {failure : Failure} {timedOut : Bool}
    (h : failure.cancellation? = some timedOut) : ∃ error, failure = .error error := by
  cases failure with
  | error error => exact ⟨error, rfl⟩
  | _ => cases h

/-- Out of time in its first loop index, a run fails before the first step of the second, and its
message is the reason that the time limit gives. -/
theorem timed_out_at_boundary : ∃ h s e error who before after,
    Scheduled World.collaborators sampleRunner (hurried twice) sampleRecord
      (sampleShared 1704067200000) h s ∧
    s.main = .ended e ∧ e.raised = some (.error error) ∧ error.cancellation? = some true ∧
    e.record.status = .failed ∧ e.record.errorMessage = "automation timed out after 1s" ∧
    deedsOf who h =
      before ++ .call .cancellation (some ⟨"automation timed out after 1s", true⟩) :: after ∧
    Proceeds (hurried twice) false [] before [] := by
  have hs := ranOut_scheduled (hurried twice)
  have hlimits : limits (deedsOf none (ranOut (hurried twice)).1) =
      ["automation timed out after 1s"] := by
    decide +kernel
  obtain ⟨e, he, hshows⟩ : ∃ e, (ranOut (hurried twice)).2.main = .ended e ∧ showing e =
      (some ("automation timed out after 1s", some true), .failed,
        "automation timed out after 1s") :=
    Task.exists_ended (by decide +kernel)
  obtain ⟨hraised, hrecord⟩ := Prod.mk.inj hshows
  obtain ⟨-, hmessage⟩ := Prod.mk.inj hrecord
  obtain ⟨failure, hraised, hfailure⟩ := Option.map_eq_some_iff.mp hraised
  obtain ⟨htext, htimedOut⟩ := Prod.mk.inj hfailure
  obtain ⟨error, rfl⟩ := exists_error_of_cancellation htimedOut
  obtain ⟨hstatus, -, config, hparse, who, before, after, S, hsplit, hproceeds, hwords, -⟩ :=
    timed_out_message World.collaborators sampleRunner (hurried twice) sampleRecord
      (sampleShared 1704067200000) hs he hraised htimedOut nofun (ranOut_own hlimits)
  have hreason : timeUp config = "automation timed out after 1s" := by
    have hlimit : (AutomationConfig.parse (hurried twice).config).toOption.map timeUp =
        some "automation timed out after 1s" := by
      decide +kernel
    rw [hparse] at hlimit
    exact Option.some.inj hlimit
  obtain rfl : S = [] := hwords.mpr (htext.trans hreason.symm)
  rw [hreason] at hsplit
  exact ⟨_, _, e, error, who, before, after, hs, he, hraised, htimedOut, hstatus, hmessage, hsplit,
    hproceeds⟩

/-- Out of time in a loop, a run fails with a message that does not tell of it. -/
theorem timed_out_in_loop : ∃ h s e error,
    Scheduled World.collaborators sampleRunner circlingOn sampleRecord
      (sampleShared 1704067200000) h s ∧
    s.main = .ended e ∧ e.raised = some (.error error) ∧ error.cancellation? = some true ∧
    requests h = [⟨"automation timed out after 1s", true⟩] ∧
    (∀ reason, .alarm (.timeout reason) ∈ h →
      ∃ ms, .call (.armTimeout ms reason) () ∈ deedsOf none h) ∧
    e.record.status = .failed ∧
    e.record.errorMessage = "loop cancelled during action execution" := by
  obtain ⟨e, he, hshows⟩ : ∃ e, (ranOut circlingOn).2.main = .ended e ∧ showing e =
      (some ("loop cancelled during action execution", some true), .failed,
        "loop cancelled during action execution") :=
    Task.exists_ended (by decide +kernel)
  obtain ⟨hraised, hrecord⟩ := Prod.mk.inj hshows
  obtain ⟨hstatus, hmessage⟩ := Prod.mk.inj hrecord
  obtain ⟨failure, hraised, hfailure⟩ := Option.map_eq_some_iff.mp hraised
  obtain ⟨-, htimedOut⟩ := Prod.mk.inj hfailure
  obtain ⟨error, rfl⟩ := exists_error_of_cancellation htimedOut
  exact ⟨_, _, e, error, ranOut_scheduled circlingOn, he, hraised, htimedOut, by decide +kernel,
    ranOut_own (by decide +kernel), hstatus, hmessage⟩

end Whole

end Runbook
