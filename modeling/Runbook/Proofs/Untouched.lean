import Runbook.Action.Catalogue
import Runbook.Proofs.Executions

/-!
# Variables of actions that fail

A built-in action that holds no others sets variables with its last steps, if at all, and after the
first of them nothing can go wrong any more. So if it fails, then it has set none. That is a matter
of composition: what sets nothing may come before anything, and what cannot fail may come after
anything.

* `globalsIn t`: the shared variables that are set in a trace, with their values.
* `Act.Spares m`, `Work.Spares m`: the part `m` sets no variables, however it ends.
* `Work.Sure m`: the work `m` cannot fail.
* `Work.Careful m`: the work `m` sets no variables if it fails.
* `Catalogue.careful_of_ne`: all built-in kinds but the two control actions are careful.
-/

namespace Runbook

variable {α β : Type}

/-- The shared variable that a deed sets, and its value. -/
def Deed.global? : Deed → Option (String × Json)
  | .call (.setGlobal name value) _ => some (name, value)
  | _ => none

/-- The shared variables that are set in a trace, in order, with their values. -/
def globalsIn (t : List Deed) : List (String × Json) := t.filterMap Deed.global?

theorem globalsIn_append (t t' : List Deed) :
    globalsIn (t ++ t') = globalsIn t ++ globalsIn t' :=
  List.filterMap_append

/-- A call that sets no shared variable. -/
def Call.Sparing : Call → Prop
  | .setGlobal _ _ => False
  | _ => True

theorem Call.Sparing.global? {c : Call} (h : c.Sparing) (r : c.Reply) :
    (Deed.call c r).global? = none := by
  cases c <;> first | rfl | exact h.elim

theorem globalsIn_of_sparing {t : List Deed} (h : ∀ d ∈ t, ∃ c r, d = .call c r ∧ c.Sparing) :
    globalsIn t = [] := by
  refine List.filterMap_eq_nil_iff.mpr fun d hd => ?_
  obtain ⟨c, r, rfl, hc⟩ := h d hd
  exact hc.global? r

/-! ### Parts of a loop index -/

/-- A part of a loop index that sets no variables. -/
def Act.Spares (m : Act α) : Prop :=
  ∀ s t r s', m.Ends s t r s' → s' = s ∧ globalsIn t = []

namespace Act

theorem spares_pure (a : α) : (pure a : Act α).Spares := by
  intro s t r s' h
  obtain ⟨rfl, -, rfl⟩ := ends_pure_iff.mp h
  exact ⟨rfl, rfl⟩

theorem spares_fail (e : Failure) : (fail e : Act α).Spares := by
  intro s t r s' h
  obtain ⟨rfl, -, rfl⟩ := ends_fail_iff.mp h
  exact ⟨rfl, rfl⟩

theorem spares_get : (get : Act LoopState).Spares := by
  intro s t r s' h
  obtain ⟨rfl, -, rfl⟩ := ends_get_iff.mp h
  exact ⟨rfl, rfl⟩

theorem Spares.bind {m : Act α} {f : α → Act β} (hm : m.Spares) (hf : ∀ a, (f a).Spares) :
    (m >>= f).Spares := by
  intro s t r s' h
  rcases ends_bind_iff.mp h with ⟨t₁, a, s₁, t₂, rfl, h₁, h₂⟩ | ⟨e, h₁, -⟩
  · obtain ⟨rfl, hfirst⟩ := hm _ _ _ _ h₁
    obtain ⟨rfl, hsecond⟩ := hf a _ _ _ _ h₂
    rw [globalsIn_append, hfirst, hsecond]
    exact ⟨rfl, rfl⟩
  · exact hm _ _ _ _ h₁

theorem spares_calls {p : Program α} (hp : p.Only Call.Sparing fun _ => False) :
    (lift p).Spares := by
  intro s t r s' h
  obtain ⟨a, ha, -, rfl⟩ := ends_lift_iff.mp h
  exact ⟨rfl, globalsIn_of_sparing (hp.deed_of_ends ha)⟩

theorem spares_ask {c : Call} (hc : c.Sparing) : (ask c).Spares :=
  spares_calls (Program.only_ask hc)

theorem spares_ofExcept (x : Except Failure α) : (ofExcept x).Spares := by
  cases x with
  | ok a => exact spares_pure a
  | error e => exact spares_fail e

/-- Calls that may fail. -/
theorem spares_attempt {p : Program (Except Fault α)} (hp : p.Only Call.Sparing fun _ => False) :
    (attempt p).Spares := by
  refine (spares_calls hp).bind fun x => ?_
  cases x with
  | ok a => exact spares_pure a
  | error f => exact spares_fail _

theorem spares_await (w : Wait) : (await w).Spares := by
  intro s t r s' h
  obtain ⟨rfl, ⟨rfl, -⟩ | ⟨rfl, -⟩⟩ := ends_await_iff.mp h
  · exact ⟨rfl, rfl⟩
  · exact ⟨rfl, rfl⟩

theorem spares_log (r : LogRecord) : (log r).Spares := spares_ask trivial

theorem spares_forM {f : α → Act PUnit} (as : List α) (hf : ∀ a, (f a).Spares) :
    (as.forM f).Spares := by
  induction as with
  | nil => exact spares_pure _
  | cons a as ih => exact (hf a).bind fun _ => ih

theorem spares_emit (ctx : LoopContext) (frame : Frame) (type : EventType)
    (content : RunEvent → RunEvent) : (emit ctx frame type content).Spares := by
  intro s t r s' h
  obtain ⟨now, taken, -, rfl, rfl⟩ := ends_emit_iff.mp h
  exact ⟨rfl, rfl⟩

theorem spares_resolving (ctx : LoopContext) (m : Template.Environment → Template.ResolveM α) :
    (resolving ctx m).Spares := by
  have hcontext : (contextNow ctx).Spares :=
    .bind spares_get fun _ => .bind (spares_ask trivial) fun _ => spares_pure _
  refine .bind hcontext fun context => .bind (spares_ask trivial) fun now =>
    .bind (spares_ask trivial) fun chance => .bind (spares_ask trivial) fun _ =>
      .bind (spares_forM _ spares_log) fun _ => ?_
  split
  · exact spares_pure _
  · exact spares_fail _

end Act

/-! ### The work of an action -/

namespace Work

/-- Work that sets no variables. -/
def Spares (m : Work α) : Prop :=
  ∀ f s t r f' s', m.Ends f s t r f' s' → s' = s ∧ globalsIn t = []

/-- Work that cannot fail. -/
def Sure (m : Work α) : Prop := ∀ f s t r f' s', m.Ends f s t r f' s' → ∃ a, r = .ok a

/-- Work that sets no variables if it fails. -/
def Careful (m : Work α) : Prop :=
  ∀ f s t e f' s', m.Ends f s t (.error e) f' s' → s' = s ∧ globalsIn t = []

theorem spares_pure (a : α) : (pure a : Work α).Spares := by
  intro f s t r f' s' h
  obtain ⟨rfl, -, -, rfl⟩ := ends_pure_iff.mp h
  exact ⟨rfl, rfl⟩

theorem spares_throw (e : Failure) : (throw e : Work α).Spares := by
  intro f s t r f' s' h
  obtain ⟨rfl, -, -, rfl⟩ := ends_throw_iff.mp h
  exact ⟨rfl, rfl⟩

theorem spares_getThe : (getThe LoopState : Work LoopState).Spares := by
  intro f s t r f' s' h
  obtain ⟨rfl, -, -, rfl⟩ := ends_getThe_iff.mp h
  exact ⟨rfl, rfl⟩

theorem spares_report (g : Fields → Fields) : (report g).Spares := by
  intro f s t r f' s' h
  obtain ⟨rfl, -, -, rfl⟩ := ends_report_iff.mp h
  exact ⟨rfl, rfl⟩

theorem spares_lift {m : Act α} (hm : m.Spares) : (lift m).Spares := by
  intro f s t r f' s' h
  exact hm _ _ _ _ (ends_lift_iff.mp h).1

theorem spares_ite {c : Prop} [Decidable c] {m m' : Work α} (hm : m.Spares) (hm' : m'.Spares) :
    (if c then m else m').Spares := by
  split
  · exact hm
  · exact hm'

theorem Spares.bind {m : Work α} {g : α → Work β} (hm : m.Spares) (hg : ∀ a, (g a).Spares) :
    (m >>= g).Spares := by
  intro f s t r f' s' h
  rcases ends_bind_iff.mp h with ⟨t₁, a, f₁, s₁, t₂, rfl, h₁, h₂⟩ | ⟨e, h₁, -⟩
  · obtain ⟨rfl, hfirst⟩ := hm _ _ _ _ _ _ h₁
    obtain ⟨rfl, hsecond⟩ := hg a _ _ _ _ _ _ h₂
    rw [globalsIn_append, hfirst, hsecond]
    exact ⟨rfl, rfl⟩
  · exact hm _ _ _ _ _ _ h₁

/-- Calls that may fail, in the work of an action. -/
theorem spares_attempt {p : Program (Except Fault α)} (hp : p.Only Call.Sparing fun _ => False) :
    (lift (Act.attempt p)).Spares :=
  spares_lift (Act.spares_attempt hp)

theorem sure_pure (a : α) : (pure a : Work α).Sure := by
  intro f s t r f' s' h
  obtain ⟨-, rfl, -, -⟩ := ends_pure_iff.mp h
  exact ⟨a, rfl⟩

theorem sure_report (g : Fields → Fields) : (report g).Sure := by
  intro f s t r f' s' h
  obtain ⟨-, rfl, -, -⟩ := ends_report_iff.mp h
  exact ⟨(), rfl⟩

theorem sure_ask (c : Call) : (lift (Act.ask c)).Sure := by
  intro f s t r f' s' h
  obtain ⟨a, -, rfl, -⟩ := Act.ends_ask_iff.mp (ends_lift_iff.mp h).1
  exact ⟨a, rfl⟩

theorem sure_setRuntime (name : String) (value : Json) (scope : Scope) :
    (lift (Act.setRuntime name value scope)).Sure := by
  cases scope with
  | global => exact sure_ask _
  | «local» =>
    intro f s t r f' s' h
    obtain ⟨-, rfl, -⟩ := Act.ends_modify_iff.mp (ends_lift_iff.mp h).1
    exact ⟨(), rfl⟩

theorem sure_ite {c : Prop} [Decidable c] {m m' : Work α} (hm : m.Sure) (hm' : m'.Sure) :
    (if c then m else m').Sure := by
  split
  · exact hm
  · exact hm'

theorem Sure.bind {m : Work α} {g : α → Work β} (hm : m.Sure) (hg : ∀ a, (g a).Sure) :
    (m >>= g).Sure := by
  intro f s t r f' s' h
  rcases ends_bind_iff.mp h with ⟨t₁, a, f₁, s₁, t₂, rfl, h₁, h₂⟩ | ⟨e, h₁, -⟩
  · exact hg a _ _ _ _ _ _ h₂
  · obtain ⟨a, ha⟩ := hm _ _ _ _ _ _ h₁
    cases ha

theorem Spares.careful {m : Work α} (hm : m.Spares) : m.Careful :=
  fun f s t e f' s' h => hm f s t (.error e) f' s' h

theorem Sure.careful {m : Work α} (hm : m.Sure) : m.Careful := by
  intro f s t e f' s' h
  obtain ⟨a, ha⟩ := hm _ _ _ _ _ _ h
  cases ha

theorem careful_ite {c : Prop} [Decidable c] {m m' : Work α} (hm : m.Careful) (hm' : m'.Careful) :
    (if c then m else m').Careful := by
  split
  · exact hm
  · exact hm'

/-- What sets no variables may come before anything. -/
theorem Spares.bind_careful {m : Work α} {g : α → Work β} (hm : m.Spares)
    (hg : ∀ a, (g a).Careful) : (m >>= g).Careful := by
  intro f s t e f' s' h
  rcases ends_bind_iff.mp h with ⟨t₁, a, f₁, s₁, t₂, rfl, h₁, h₂⟩ | ⟨e, h₁, -⟩
  · obtain ⟨rfl, hfirst⟩ := hm _ _ _ _ _ _ h₁
    obtain ⟨rfl, hsecond⟩ := hg a _ _ _ _ _ _ h₂
    rw [globalsIn_append, hfirst, hsecond]
    exact ⟨rfl, rfl⟩
  · exact hm _ _ _ _ _ _ h₁

end Work

/-- A kind whose actions set no variables if they fail. -/
structure ActionKind.Careful (kind : ActionKind) : Prop where
  behave (ctx : LoopContext) (nested : Dispatcher) (frame : Frame) (params : Fields) :
    (kind.behave ctx nested frame params).Careful

/-! ### Actions on the page -/

namespace Browser

open Work

variable {ctx : LoopContext} {frame : Frame}

theorem spares_requirePage (type : String) : (requirePage type ctx).Spares :=
  spares_ite (spares_pure _) (spares_lift (Act.spares_fail _))

theorem spares_request (type : String) (c : PageCall) : (request type ctx c).Spares :=
  (spares_requirePage type).bind fun _ =>
    spares_attempt (Program.only_ask trivial)

theorem sure_save (params : Fields) (value : Json) : (save params value).Sure :=
  sure_ite (sure_setRuntime _ _ _) (sure_pure _)

theorem spares_single (type : String) (c : PageCall) (message : String) :
    (do
      let _ ← request type ctx c
      return message : Work String).Spares :=
  (spares_request type c).bind fun _ => spares_pure _

theorem careful_simple (type : String) (schema : Kind) (call : Fields → PageCall)
    (message : Fields → String) : (simple type schema call message).Careful :=
  ⟨fun _ _ _ _ => (spares_single type _ _).careful⟩

theorem careful_selectOption : selectOption.Careful :=
  ⟨fun _ _ _ _ => (spares_single _ _ _).careful⟩

theorem careful_scroll : scroll.Careful := ⟨fun _ _ _ _ =>
  careful_ite (spares_single _ _ _).careful (spares_single _ _ _).careful⟩

theorem careful_waitForTimeout : waitForTimeout.Careful := ⟨fun _ _ _ _ =>
  (spares_request _ _).bind_careful fun _ =>
    ((spares_lift (Act.spares_await _)).bind fun _ => spares_pure _).careful⟩

/-- A value of the page is saved at the end. -/
theorem careful_saving (type : String) (c : PageCall) (params : Fields) (value : Json → Json)
    (message : Json → String) :
    (do
      let reply ← request type ctx c
      save params (value reply)
      return message reply : Work String).Careful :=
  (spares_request type c).bind_careful fun _ =>
    ((sure_save params _).bind fun _ => sure_pure _).careful

theorem careful_getText : getText.Careful := ⟨fun _ _ _ params =>
  careful_saving _ _ params (fun reply => if reply.truthy then reply else .text "") _⟩

theorem careful_getAttribute : getAttribute.Careful := ⟨fun _ _ _ params =>
  careful_saving _ _ params id _⟩

theorem careful_evaluate : evaluate.Careful := ⟨fun _ _ _ params =>
  careful_saving _ _ params id _⟩

theorem careful_screenshot : screenshot.Careful := by
  refine ⟨fun ctx nested frame params => Spares.careful ?_⟩
  refine spares_ite ((spares_lift (Act.spares_fail _)).bind fun _ => ?_) ?_
  all_goals
    refine (spares_requirePage _).bind fun _ =>
      (spares_attempt (Program.only_ask trivial)).bind fun data => ?_
    have hkept (key : String) : (do
        let url ← Work.lift (Act.attempt (Program.ask (.upload key data "image/png")))
        Work.lift (Act.emitOutputFile ctx frame url)
        return s!"Successfully took screenshot and uploaded to {url}" : Work String).Spares :=
      (spares_attempt (Program.only_ask trivial)).bind fun _ =>
        (spares_lift (Act.spares_emit _ _ _ _)).bind fun _ => spares_pure _
    split
    · exact hkept _
    · exact (spares_lift (Act.spares_resolving _ _)).bind hkept

theorem careful_log : log.Careful := ⟨fun _ _ _ _ =>
  ((spares_lift (Act.spares_log _)).bind fun _ => spares_pure _).careful⟩

/-- The actions on the page are careful. -/
theorem careful_of_mem : ∀ kind ∈ kinds, kind.Careful := by
  simp only [kinds, List.forall_mem_cons]
  exact ⟨careful_simple .., careful_simple .., careful_simple .., careful_simple ..,
    careful_simple .., careful_simple .., careful_simple .., careful_selectOption,
    careful_simple .., careful_waitForTimeout, careful_screenshot, careful_evaluate,
    careful_simple .., careful_scroll, careful_getText, careful_getAttribute, careful_simple ..,
    careful_simple .., careful_simple .., careful_simple .., careful_simple .., careful_log,
    List.forall_mem_nil _⟩

end Browser

/-! ### Actions on stored files -/

namespace StoredFiles

open Work

variable {ctx : LoopContext} {frame : Frame}

theorem careful_stored {type : String} {m : Work String} (hm : m.Careful) :
    (do
      requireStorage type ctx frame
      m : Work String).Careful :=
  (spares_ite (spares_pure _) (spares_throw _)).bind_careful fun _ => hm

theorem careful_upload : upload.Careful := ⟨fun _ _ _ _ =>
  careful_stored <| (spares_lift (Act.spares_ofExcept _)).bind_careful fun _ =>
    (spares_attempt (Program.only_ask trivial)).bind_careful fun _ =>
      ((spares_lift (Act.spares_emit _ _ _ _)).bind fun _ => spares_pure _).careful⟩

theorem careful_delete : delete.Careful := ⟨fun _ _ _ _ =>
  careful_stored <| ((spares_attempt (Program.only_ask trivial)).bind
    fun _ => spares_pure _).careful⟩

/-- What was found is saved at the end. -/
theorem careful_list : list.Careful := ⟨fun _ _ _ _ =>
  careful_stored <| (spares_attempt (Program.only_ask trivial)).bind_careful
    fun _ => (spares_report _).bind_careful fun _ =>
      ((Browser.sure_save _ _).bind fun _ => sure_pure _).careful⟩

/-- The actions on stored files are careful. -/
theorem careful_of_mem : ∀ kind ∈ kinds, kind.Careful := by
  simp only [kinds, List.forall_mem_cons]
  exact ⟨careful_upload, careful_delete, careful_list, List.forall_mem_nil _⟩

end StoredFiles

/-! ### Requests to servers -/

namespace Api

open Work

variable {frame : Frame}

theorem spares_note (name : String) (value : Json) : (note name value).Spares := spares_report _

theorem spares_send (type : String) (request : Except Fault Request) :
    (send type frame request).Spares := by
  have hnow {g : Rat → Work Response} (hg : ∀ ended, (g ended).Spares) :
      (Work.lift (Act.ask .now) >>= g).Spares :=
    .bind (spares_lift (Act.spares_ask trivial)) hg
  have hask (r : Request) : (received r.url <$> Act.ask (.request r) : Act _).Spares := by
    rw [map_eq_pure_bind]
    exact .bind (Act.spares_ask trivial) fun _ => Act.spares_pure _
  refine hnow fun started => ?_
  cases request
  case' error f => refine (spares_pure _).bind ?_
  case' ok r => refine (spares_lift (hask r)).bind ?_
  -- Whether a request was sent or not, what follows depends on the reply.
  all_goals
    rintro ((text | f) | response)
    · exact (spares_note _ _).bind fun _ => hnow fun _ =>
        (spares_note _ _).bind fun _ => spares_throw _
    · exact hnow fun _ => (spares_note _ _).bind fun _ => spares_throw _
    · exact hnow fun _ => (spares_note _ _).bind fun _ => spares_pure _

/-- Hooks cannot fail: one whose path leads nowhere is passed over. -/
theorem sure_runHooks (data : Json) (hooks : List Json) : (runHooks data hooks).Sure := by
  induction hooks with
  | nil => exact sure_pure _
  | cons hook rest ih =>
    unfold runHooks
    dsimp only
    split
    · exact (sure_ask _).bind fun _ => ih
    · exact (sure_setRuntime _ _ _).bind fun _ => (sure_report _).bind fun _ => ih

theorem sure_afterwards (url : String) (response : Response) (hooks : List Json) :
    (afterwards frame url response hooks).Sure := by
  refine sure_ite (sure_pure _) ?_
  split
  · exact sure_runHooks _ hooks
  · exact sure_ask _

theorem careful_answer (type method url sentTo : String) (response : Response)
    (hooks : List Json) : (answer type method frame url sentTo response hooks).Careful := by
  have hgood : (do
      afterwards frame sentTo response hooks
      return s!"Successfully executed {method} request to {url} (HTTP {response.status})" :
      Work String).Careful :=
    ((sure_afterwards _ _ _).bind fun _ => sure_pure _).careful
  exact (spares_note _ _).bind_careful fun _ => (spares_note _ _).bind_careful fun _ =>
    careful_ite ((spares_note _ _).bind_careful fun _ =>
      (spares_throw _).bind_careful fun _ => hgood) hgood

theorem careful_kind (type method : String) : (kind type method).Careful := by
  refine ⟨fun ctx nested frame params => ?_⟩
  exact (spares_lift (Act.spares_ofExcept _)).bind_careful fun _ =>
    spares_getThe.bind_careful fun _ => (spares_report _).bind_careful fun _ =>
      (spares_send type _).bind_careful fun response => careful_answer type method _ _ response _

/-- The API actions are careful. -/
theorem careful_of_mem : ∀ kind ∈ kinds, kind.Careful := by
  simp only [kinds, List.forall_mem_cons]
  exact ⟨careful_kind .., careful_kind .., careful_kind .., careful_kind .., careful_kind ..,
    List.forall_mem_nil _⟩

end Api

/-- All built-in kinds but the two control actions are careful. -/
theorem Catalogue.careful_of_ne {kind : ActionKind} (hkind : kind ∈ kinds)
    (hbranch : kind.type ≠ "playwright:if_else") (hloop : kind.type ≠ "playwright:loop_until") :
    kind.Careful := by
  simp only [kinds, List.mem_append, List.mem_cons, List.not_mem_nil, or_false] at hkind
  rcases hkind with ((hkind | rfl | rfl) | hkind) | hkind
  · exact Browser.careful_of_mem kind hkind
  · exact absurd rfl hbranch
  · exact absurd rfl hloop
  · exact Api.careful_of_mem kind hkind
  · exact StoredFiles.careful_of_mem kind hkind

/-- An execution of a careful action that fails sets no variables. -/
theorem ActionKind.Careful.of_ends {kind : ActionKind} (hkind : kind.Careful) {ctx : LoopContext}
    {nested : Dispatcher} {frame : Frame} {config : Json} {s s' : LoopState} {t : List Deed}
    {e : Failure} (h : (kind.execute ctx nested frame config).Ends s t (.error e) s') :
    s' = s ∧ globalsIn t = [] := by
  rcases ends_execute h with ⟨_, -, -, rfl, rfl⟩ |
    ⟨params, started, t₁, result, report, s₁, t₂, -, rfl, hr, rfl, hbehave, hend⟩
  · exact ⟨rfl, rfl⟩
  · have htold : globalsIn t₂ = [] := by
      rcases hend with ⟨rfl, -⟩ | ⟨ended, now, e, taken, rfl, -⟩ <;> rfl
    cases result with
    | ok message => cases hr
    | error failure =>
      obtain ⟨rfl, hset⟩ := hkind.behave _ _ _ _ _ _ _ _ _ _ hbehave
      refine ⟨rfl, ?_⟩
      change globalsIn (t₁ ++ t₂) = []
      rw [globalsIn_append, hset, htold]
      rfl

end Runbook
