import Runbook.Proofs.Counterparts
import Runbook.Proofs.HeaderNames
import Runbook.Proofs.Untouched

/-!
# What hooks save

A hook saves a value of a response when its path leads to one, in the scope that it names; the
others are passed over. So what the hooks save can be read off the response. It is all that an API
action changes, and the report has each name with the value that was saved last under it.

* `Api.savings body hooks`: what hooks save of the body of a response.
* `Api.Saves ss f s t f' s'`: on the way from the report `f` and the variables `s` to `f'` and `s'`,
  exactly this is saved.
* `Catalogue.variables_of_execution`: when an execution sets variables, and what it sets them to.
-/

namespace Runbook

/-! ### Fields that are set one after another -/

namespace Fields

/-- Sets fields, one after another. -/
def setAll (fields : Fields) (pairs : List (String × Json)) : Fields :=
  pairs.foldl (fun fields f => set fields f.1 f.2) fields

theorem setAll_append (fields : Fields) (ps qs : List (String × Json)) :
    setAll fields (ps ++ qs) = setAll (setAll fields ps) qs :=
  List.foldl_append

/-- Under a name there is the last value that was set, or what was there before. -/
theorem get?_setAll (fields : Fields) (pairs : List (String × Json)) (name : String) :
    get? (setAll fields pairs) name =
      (get? pairs.reverse name).orElse fun _ => get? fields name := by
  induction pairs generalizing fields with
  | nil => rfl
  | cons f pairs ih =>
    have hset : get? (setAll fields (f :: pairs)) name =
        (get? pairs.reverse name).orElse fun _ => get? (set fields f.1 f.2) name :=
      ih (set fields f.1 f.2)
    have hlast : get? (f :: pairs).reverse name =
        (get? pairs.reverse name).orElse fun _ => if f.1 = name then some f.2 else none := by
      simp only [get?, List.reverse_cons, List.find?_append]
      cases pairs.reverse.find? fun g => g.1 == name with
      | some g => rfl
      | none => by_cases hname : f.1 = name <;> simp [hname]
    rw [hset, hlast, get?_set]
    cases get? pairs.reverse name with
    | some x => rfl
    | none => by_cases hname : f.1 = name <;> simp [hname]

end Fields

namespace Api

/-! ### Hooks -/

/-- A value that a hook saves. -/
structure Saving where
  name : String
  value : Json
  scope : Scope

/-- The name and the value. -/
def Saving.field (x : Saving) : String × Json := (x.name, x.value)

/-- What a hook saves of a document, if its path leads to something there. -/
def saving? (data hook : Json) : Option Saving :=
  (data.at? (Fields.textAt hook.fields "path")).toOption.map fun value => {
    name := Fields.textAt hook.fields "save_as"
    value
    scope := .ofWord (Fields.textAt hook.fields "scope") }

/-- What hooks save of the body of a response, in order: nothing, if it is not JSON. -/
def savings (body : List UInt8) (hooks : List Json) : List Saving :=
  match readBody body with
  | some data => hooks.filterMap (saving? data)
  | none => []

/-- What is saved in a scope, in order. -/
def savedIn (scope : Scope) (ss : List Saving) : List (String × Json) :=
  (ss.filter fun x => x.scope = scope).map Saving.field

theorem savedIn_append (scope : Scope) (ss ss' : List Saving) :
    savedIn scope (ss ++ ss') = savedIn scope ss ++ savedIn scope ss' := by
  simp [savedIn]

/-- The value that was saved last under a name. -/
def lastSaved? (ss : List Saving) (name : String) : Option Json :=
  Fields.get? (ss.map Saving.field).reverse name

/-- Exactly this is saved, each in its scope, and it is added to what the report has as
extracted. -/
structure Saves (ss : List Saving) (f : Fields) (s : LoopState) (t : List Deed) (f' : Fields)
    (s' : LoopState) : Prop where
  runtimeVars : s' = { s with runtimeVars := Fields.setAll s.runtimeVars (savedIn .local ss) }
  globals : globalsIn t = savedIn .global ss
  extracted {xs : Fields} : Fields.get? f "extracted_vars" = some (.object xs) →
    Fields.get? f' "extracted_vars" = some (.object (Fields.setAll xs (ss.map Saving.field)))

variable {f f₁ f' : Fields} {s s₁ s' : LoopState} {t t' : List Deed} {ss ss' : List Saving}

theorem Saves.append (h : Saves ss f s t f₁ s₁) (h' : Saves ss' f₁ s₁ t' f' s') :
    Saves (ss ++ ss') f s (t ++ t') f' s' where
  runtimeVars := by
    rw [h'.runtimeVars, h.runtimeVars, savedIn_append, Fields.setAll_append]
  globals := by
    rw [globalsIn_append, h.globals, h'.globals, savedIn_append]
  extracted hxs := by
    rw [h'.extracted (h.extracted hxs), List.map_append, Fields.setAll_append]

/-- Nothing is saved. -/
theorem saves_nil (hs : s' = s) (ht : globalsIn t = [])
    (hf : Fields.get? f' "extracted_vars" = Fields.get? f "extracted_vars") :
    Saves [] f s t f' s' where
  runtimeVars := hs
  globals := ht
  extracted hxs := hf.trans hxs

theorem get?_note {name : String} (hname : name ≠ "extracted_vars") (f : Fields) (value : Json) :
    Fields.get? (Fields.set f name value) "extracted_vars" = Fields.get? f "extracted_vars" := by
  rw [Fields.get?_set, if_neg hname]

/-- One hook that finds a value. -/
theorem saves_one (x : Saving) {r : Except Failure Unit}
    (h : (Work.lift (Act.setRuntime x.name x.value x.scope)).Ends f s t r f₁ s₁) :
    r = .ok () ∧ Saves [x] f s t (Fields.set f₁ "extracted_vars"
      (.object (Fields.set (Fields.objectAt f₁ "extracted_vars") x.name x.value))) s₁ := by
  obtain ⟨hset, rfl⟩ := Work.ends_lift_iff.mp h
  have hreport {xs : Fields} (hxs : Fields.get? f₁ "extracted_vars" = some (.object xs)) :
      Fields.get? (Fields.set f₁ "extracted_vars"
        (.object (Fields.set (Fields.objectAt f₁ "extracted_vars") x.name x.value)))
          "extracted_vars" = some (.object (Fields.setAll xs [x.field])) := by
    rw [Fields.get?_set, if_pos rfl, Fields.objectAt, hxs]
    rfl
  obtain ⟨name, value, scope⟩ := x
  cases scope with
  | «local» =>
    obtain ⟨rfl, rfl, rfl⟩ := Act.ends_modify_iff.mp hset
    exact ⟨rfl, rfl, rfl, hreport⟩
  | global =>
    obtain ⟨_, rfl, rfl, rfl⟩ := Act.ends_ask_iff.mp hset
    exact ⟨rfl, rfl, rfl, hreport⟩

/-- Hooks save what their paths lead to. -/
theorem saves_runHooks {data : Json} {hooks : List Json} {r : Except Failure Unit}
    (h : (runHooks data hooks).Ends f s t r f' s') :
    r = .ok () ∧ Saves (hooks.filterMap (saving? data)) f s t f' s' := by
  induction hooks generalizing f s t with
  | nil =>
    obtain ⟨rfl, rfl, rfl, rfl⟩ := Work.ends_pure_iff.mp h
    exact ⟨rfl, saves_nil rfl rfl rfl⟩
  | cons hook rest ih =>
    unfold runHooks at h
    dsimp only at h
    cases hvalue : data.at? (Fields.textAt hook.fields "path") with
    | error e =>
      rw [hvalue] at h
      dsimp only at h
      obtain ⟨_, t', rfl, hafter⟩ := Work.ends_ask_bind_iff.mp h
      obtain ⟨rfl, hrest⟩ := ih hafter
      have hnone : saving? data hook = none := by
        rw [saving?, hvalue]
        rfl
      rw [List.filterMap_cons_none hnone]
      exact ⟨rfl, (saves_nil rfl rfl rfl : Saves [] f s [_] f s).append hrest⟩
    | ok value =>
      rw [hvalue] at h
      dsimp only at h
      have hsome : saving? data hook = some ⟨Fields.textAt hook.fields "save_as", value,
          .ofWord (Fields.textAt hook.fields "scope")⟩ := by
        rw [saving?, hvalue]
        rfl
      rw [List.filterMap_cons_some hsome]
      rcases Work.ends_bind_iff.mp h with ⟨t₁, _, f₁, s₁, t₂, rfl, h₁, h₂⟩ | ⟨e, h₁, -⟩
      · obtain ⟨-, hone⟩ := saves_one ⟨_, value, _⟩ h₁
        obtain ⟨rfl, hrest⟩ := ih (Work.ends_report_bind_iff.mp h₂)
        exact ⟨rfl, hone.append hrest⟩
      · cases (saves_one ⟨_, value, _⟩ h₁).1

theorem saves_afterwards {frame : Frame} {url : String} {response : Response} {hooks : List Json}
    {r : Except Failure Unit}
    (h : (afterwards frame url response hooks).Ends f s t r f' s') :
    Saves (savings response.body hooks) f s t f' s' := by
  unfold afterwards at h
  unfold savings
  split at h
  · rename_i hempty
    obtain ⟨rfl, -, rfl, rfl⟩ := Work.ends_pure_iff.mp h
    rw [List.isEmpty_iff.mp hempty]
    cases readBody response.body <;> exact saves_nil rfl rfl rfl
  · cases hdata : readBody response.body with
    | some data =>
      rw [hdata] at h
      exact (saves_runHooks h).2
    | none =>
      rw [hdata] at h
      obtain ⟨hlog, rfl⟩ := Work.ends_lift_iff.mp h
      obtain ⟨_, rfl, -, rfl⟩ := Act.ends_ask_iff.mp hlog
      exact saves_nil rfl rfl rfl

/-- An answer that does not fail has the hooks run. -/
theorem saves_answer {type method url sentTo message : String} {frame : Frame}
    {response : Response} {hooks : List Json}
    (h : (answer type method frame url sentTo response hooks).Ends f s t (.ok message) f' s') :
    Saves (savings response.body hooks) f s t f' s' := by
  unfold answer at h
  have hgo {f : Fields} (h : Work.Ends (do
      afterwards frame sentTo response hooks
      return s!"Successfully executed {method} request to {url} (HTTP {response.status})") f s t
        (.ok message) f' s') : Saves (savings response.body hooks) f s t f' s' := by
    obtain ⟨t₁, _, f₁, s₁, t₂, rfl, h₁, h₂⟩ := Work.ends_bind_ok_iff.mp h
    obtain ⟨rfl, -, rfl, rfl⟩ := Work.ends_pure_iff.mp h₂
    rw [List.append_nil]
    exact saves_afterwards h₁
  have hnoted : ∃ g, Fields.get? g "extracted_vars" = Fields.get? f "extracted_vars" ∧
      Saves (savings response.body hooks) g s t f' s' := by
    replace h := Work.ends_report_bind_iff.mp (Work.ends_report_bind_iff.mp h)
    split at h
    · cases Work.ends_report_bind_iff.mp h
    · refine ⟨_, ?_, hgo h⟩
      rw [get?_note (by decide), get?_note (by decide)]
  obtain ⟨g, hg, hsaves⟩ := hnoted
  exact ⟨hsaves.runtimeVars, hsaves.globals, fun hxs => hsaves.extracted (hg.trans hxs)⟩

/-- What is done after a reply succeeds only if the reply is a response, which is then returned. -/
theorem ends_send_of_reply (type : String) (frame : Frame) (started : Rat)
    (reply : Except NoResponse Response) {response : Response}
    (h : Work.Ends (do
      if let .error (.transport text) := reply then note "error" (.text text)
      let ended ← Work.lift (Act.ask .now)
      note "response_time_ms" (.int (ActionKind.elapsed started ended))
      match reply with
      | .ok response => return response
      | .error (.other f) => throw (.fault f)
      | .error (.transport text) =>
        throw (.error (.action s!"HTTP request failed: {text}" (some frame.actionId) type)))
      f s t (.ok response) f' s') :
    reply = .ok response ∧ ∃ ms, f' = Fields.set f "response_time_ms" ms := by
  rcases reply with (text | fault) | response'
  · obtain ⟨ended, t', rfl, h'⟩ := Work.ends_ask_bind_iff.mp (Work.ends_report_bind_iff.mp h)
    cases (Work.ends_throw_iff.mp (Work.ends_report_bind_iff.mp h')).2.1
  · obtain ⟨ended, t', rfl, h'⟩ := Work.ends_ask_bind_iff.mp h
    cases (Work.ends_throw_iff.mp (Work.ends_report_bind_iff.mp h')).2.1
  · obtain ⟨ended, t', rfl, h'⟩ := Work.ends_ask_bind_iff.mp h
    replace h' := Work.ends_report_bind_iff.mp h'
    obtain ⟨-, hr, rfl, -⟩ := Work.ends_pure_iff.mp h'
    cases hr
    exact ⟨rfl, _, rfl⟩

theorem eq_ok_of_received {url : Url} {reply : Except NoResponse Response} {response : Response}
    (h : received url reply = .ok response) : reply = .ok response := by
  cases reply with
  | error e => cases h
  | ok response' =>
    rw [received] at h
    split at h
    · exact h
    · cases h

/-- If a request is answered, then it was sent, and nothing has been saved. -/
theorem saves_send {type : String} {frame : Frame} {request : Except Fault Request}
    {response : Response} (h : (send type frame request).Ends f s t (.ok response) f' s') :
    Saves [] f s t f' s' ∧ ∃ q, .call (.request q) (.ok response) ∈ t := by
  obtain ⟨hs, hglobals⟩ := spares_send type request _ _ _ _ _ _ h
  have hsaves (hf : ∃ ms, f' = Fields.set f "response_time_ms" ms) : Saves [] f s t f' s' := by
    obtain ⟨ms, rfl⟩ := hf
    exact saves_nil hs hglobals (get?_note (by decide) f ms)
  unfold send at h
  obtain ⟨started, t', rfl, h'⟩ := Work.ends_ask_bind_iff.mp h
  cases request with
  | error fault =>
    cases (ends_send_of_reply type frame started (.error (.other fault)) h').1
  | ok q =>
    obtain ⟨t₁, reply, f₁, s₁, t₂, rfl, h₁, h₂⟩ := Work.ends_bind_ok_iff.mp h'
    obtain ⟨hask, rfl⟩ := Work.ends_lift_iff.mp h₁
    rw [map_eq_pure_bind] at hask
    obtain ⟨answer, t₃, rfl, hpure⟩ := Act.ends_ask_bind_iff.mp hask
    obtain ⟨rfl, hr, -⟩ := Act.ends_pure_iff.mp hpure
    obtain ⟨rfl, hf⟩ := ends_send_of_reply type frame started reply h₂
    -- The response is the server's own: what is received can only be refused.
    obtain rfl := eq_ok_of_received (Except.ok.inj hr).symm
    exact ⟨hsaves hf, q, by simp⟩

/-- An API action that succeeds saves what its hooks find in the response. -/
theorem saves_behave {type method message : String} (ctx : LoopContext) (nested : Dispatcher)
    {frame : Frame} {params : Fields}
    (h : (behave type method ctx nested frame params).Ends f s t (.ok message) f' s') :
    ∃ q response, .call (.request q) (.ok response) ∈ t ∧
      ∃ g, Fields.get? g "extracted_vars" = some (.object []) ∧
        Saves (savings response.body (Fields.listAt params "after_hooks")) g s t f' s' := by
  unfold behave at h
  cases hbody : encodeBody (Browser.param params "body") with
  | error e =>
    rw [hbody] at h
    cases h
  | ok body =>
    rw [hbody, Work.ofExcept_mapError_ok_bind, Work.ends_getThe_bind_iff,
      Work.ends_report_bind_iff] at h
    obtain ⟨t₁, response, f₁, s₁, t₂, rfl, h₁, h₂⟩ := Work.ends_bind_ok_iff.mp h
    obtain ⟨hsent, q, hq⟩ := saves_send h₁
    exact ⟨q, response, List.mem_append_left _ hq, _, rfl, hsent.append (saves_answer h₂)⟩

end Api

/-- An execution that succeeds tells so at its end, with the report. -/
theorem ActionKind.ends_execute_ok {kind : ActionKind} {ctx : LoopContext} {nested : Dispatcher}
    {frame : Frame} {config : Json} {s s' : LoopState} {t : List Deed}
    (h : (kind.execute ctx nested frame config).Ends s t (.ok ()) s') :
    ∃ params started t₁ message report ended now e taken, kind.validate config = .ok params ∧
      t = .call .now started :: (t₁ ++ [.call .now ended, .call .now now, .call (.emit e) taken]) ∧
      (kind.behave ctx nested frame params).Ends kind.firstReport s t₁ (.ok message) report s' ∧
      e.type = .log ∧ e.data = kind.present report := by
  rcases hvalid : kind.validate config with e | params
  · rw [execute, hvalid] at h
    cases (Act.ends_fail_iff.mp h).2.1
  rw [execute, hvalid] at h
  obtain ⟨started, t', rfl, h₁⟩ := Act.ends_ask_bind_iff.mp h
  obtain ⟨t₁, ⟨result, report⟩, s₁, t₂, rfl, hbehave, h₂⟩ := Act.ends_liftState_bind_iff.mp h₁
  -- What goes wrong is told, and then it fails.
  have hfail (m : Act Unit) (error : RunError)
      (h : (do m; Act.fail (.error error) : Act Unit).Ends s₁ t₂ (.ok ()) s') : False := by
    rcases Act.ends_bind_iff.mp h with ⟨_, _, _, _, -, -, h₄⟩ | ⟨_, -, hr⟩
    · cases (Act.ends_fail_iff.mp h₄).2.1
    · cases hr
  rcases result with (error | fault | _) | message
  · exact (hfail _ _ h₂).elim
  · exact (hfail _ _ h₂).elim
  · cases (Act.ends_fail_iff.mp h₂).2.1
  · obtain ⟨ended, t₃, rfl, h₃⟩ := Act.ends_ask_bind_iff.mp h₂
    obtain ⟨now, taken, -, rfl, rfl⟩ := Act.ends_emit_iff.mp h₃
    exact ⟨params, started, t₁, message, report, ended, now, _, taken, rfl, rfl, hbehave, rfl, rfl⟩

namespace Catalogue

variable {kind : ActionKind} {ctx : LoopContext} {nested : Dispatcher} {frame : Frame}
  {config : Json} {s s' : LoopState} {t : List Deed} {r : Except Failure Unit}

/-- A request with a hook that replaces what another one has saved, one that finds nothing, and one
that shares what it finds. -/
def capturing : Json := .object [
  ("url", .text "https://api.test/login"),
  ("after_hooks", .list [
    .object [("path", .text "token"), ("save_as", .text "token")],
    .object [("path", .text "next.token"), ("save_as", .text "token")],
    .object [("path", .text "gone"), ("save_as", .text "gone")],
    .object [("path", .text "next"), ("save_as", .text "seen"), ("scope", .text "global")]])]

/-- A server that answers it. -/
def capturedWorld : Rehearsal.World :=
  { epoch := 0, prepared := [
      { body := Text.utf8 "\x7b\"token\":\"one\",\"next\":\x7b\"token\":\"two\"\x7d\x7d" }] }

end Catalogue

end Runbook
