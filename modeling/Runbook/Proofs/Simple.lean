import Runbook.Action.Catalogue
import Runbook.Proofs.Laws

/-!
# Simple actions

All built-in actions but the two control actions are simple. They are made up, one thing after
another, of plain calls, failures of their own, looks at the variables of the loop index and changes
of them, sleep, and the telling of stored files. In particular a simple action dispatches nothing
and never sets the local loop index.

What holds of these few ingredients, and of one part after another, holds of all simple actions, by
induction on the way in which they are made up. Most actions do without pictures and without
storage, so that these calls are an ingredient of their own.

* `Call.Frugal`, `Call.Stores`: plain calls without pictures and storage, and those with them.
* `Act.Simple stores ctx frame m`, `Work.Simple stores ctx frame m`: the part `m` of an action at
  `frame` is made up of such ingredients, those with pictures and storage only if it `stores`.
* `ActionKind.Simple stores kind`: all actions of the kind are simple.
* `Catalogue.simple_of_ne`: which kinds are simple, and which of them without storage.
-/

namespace Runbook

/-- A plain call that needs neither pictures nor storage. -/
def Call.Frugal : Call → Prop
  | .now | .log _ | .chance | .setChance _ | .globals | .setGlobal _ _ | .page _ _ | .request _ =>
    True
  | _ => False

/-- A call that takes a picture or concerns stored files. -/
def Call.Stores : Call → Prop
  | .screenshot _ _ | .upload _ _ _ | .delete _ | .list _ => True
  | _ => False

theorem Call.Frugal.plain {c : Call} (h : c.Frugal) : c.Plain := by
  cases c <;> trivial

theorem Call.Stores.plain {c : Call} (h : c.Stores) : c.Plain := by
  cases c <;> trivial

theorem Program.Only.plain_of_frugal {α : Type} {p : Program α}
    (hp : p.Only Call.Frugal fun _ => False) : p.Only Call.Plain fun _ => False :=
  hp.mono (fun _ => Call.Frugal.plain) fun _ => id

theorem Program.Only.plain_of_stores {α : Type} {p : Program α}
    (hp : p.Only Call.Stores fun _ => False) : p.Only Call.Plain fun _ => False :=
  hp.mono (fun _ => Call.Stores.plain) fun _ => id

/-- A part of a simple action at a place, as far as it concerns the loop index. -/
inductive Act.Simple (stores : Prop) (ctx : LoopContext) (frame : Frame) :
    {α : Type} → Act α → Prop
  | pure {α : Type} (a : α) : Simple stores ctx frame (pure a : Act α)
  | bind {α β : Type} {m : Act α} {f : α → Act β} (hm : Simple stores ctx frame m)
      (hf : ∀ a, Simple stores ctx frame (f a)) : Simple stores ctx frame (m >>= f)
  | calls {α : Type} {p : Program α} (hp : p.Only Call.Frugal fun _ => False) :
    Simple stores ctx frame (Act.lift p)
  | stored {α : Type} {p : Program α} (hstores : stores)
      (hp : p.Only Call.Stores fun _ => False) : Simple stores ctx frame (Act.lift p)
  | fail {α : Type} {e : Failure} (he : e.Own) : Simple stores ctx frame (Act.fail e : Act α)
  | read : Simple stores ctx frame (get : Act LoopState)
  | write (g : Fields → Fields) : Simple stores ctx frame
      (modify fun s => { s with runtimeVars := g s.runtimeVars } : Act Unit)
  | sleep (ms : Rat) : Simple stores ctx frame (Act.await (.sleep ms))
  /-- A stored file is told of. -/
  | file (url : String) : Simple stores ctx frame (Act.emitOutputFile ctx frame url)

/-- A part of a simple action at a place. -/
inductive Work.Simple (stores : Prop) (ctx : LoopContext) (frame : Frame) :
    {α : Type} → Work α → Prop
  | pure {α : Type} (a : α) : Simple stores ctx frame (pure a : Work α)
  | bind {α β : Type} {m : Work α} {g : α → Work β} (hm : Simple stores ctx frame m)
      (hg : ∀ a, Simple stores ctx frame (g a)) : Simple stores ctx frame (m >>= g)
  | lift {α : Type} {m : Act α} (hm : m.Simple stores ctx frame) :
      Simple stores ctx frame (Work.lift m)
  | throw {α : Type} {e : Failure} (he : e.Own) : Simple stores ctx frame (throw e : Work α)
  | read : Simple stores ctx frame (getThe LoopState : Work LoopState)
  | report (g : Fields → Fields) : Simple stores ctx frame (Work.report g)

/-- A kind whose actions are simple. -/
structure ActionKind.Simple (stores : Prop) (kind : ActionKind) : Prop where
  behave (ctx : LoopContext) (nested : Dispatcher) (frame : Frame) (params : Fields) :
    (kind.behave ctx nested frame params).Simple stores ctx frame

variable {α β : Type} {stores : Prop} {ctx : LoopContext} {frame : Frame}

/-! ### Parts that are made up of ingredients -/

namespace Act

theorem simple_ofFault (x : Except Fault α) :
    (ofExcept (x.mapError .fault)).Simple stores ctx frame := by
  cases x with
  | ok a => exact .pure a
  | error f => exact .fail (Failure.own_fault f)

theorem simple_call {c : Call} (hc : c.Frugal) : (ask c).Simple stores ctx frame :=
  .calls (Program.only_ask hc)

/-- Something that may fail. -/
theorem simple_attempt {p : Program (Except Fault α)} (hp : (lift p).Simple stores ctx frame) :
    (attempt p).Simple stores ctx frame := by
  refine .bind hp fun x => ?_
  cases x with
  | ok a => exact .pure a
  | error f => exact .fail (Failure.own_fault f)

theorem simple_log (r : LogRecord) : (log r).Simple stores ctx frame := simple_call trivial

theorem simple_forM {f : α → Act PUnit} {as : List α} (hf : ∀ a, (f a).Simple stores ctx frame) :
    (as.forM f).Simple stores ctx frame := by
  induction as with
  | nil => exact .pure _
  | cons a as ih => exact .bind (hf a) fun _ => ih

theorem simple_setRuntime (name : String) (value : Json) (scope : Scope) :
    (setRuntime name value scope).Simple stores ctx frame := by
  cases scope with
  | global => exact simple_call trivial
  | «local» => exact .write fun vars => Fields.set vars name value

theorem simple_resolving (m : Template.Environment → Template.ResolveM α) :
    (resolving ctx m).Simple stores ctx frame := by
  have hcontext : (contextNow ctx).Simple stores ctx frame :=
    .bind .read fun _ => .bind (simple_call trivial) fun _ => .pure _
  refine .bind hcontext fun context => .bind (simple_call trivial) fun now =>
    .bind (simple_call trivial) fun chance => .bind (simple_call trivial) fun _ =>
      .bind (simple_forM fun r => simple_log r) fun _ => ?_
  split
  · exact .pure _
  · exact .fail (Template.ResolveFault.own_toFailure _)

end Act

theorem Work.simple_ite {c : Prop} [Decidable c] {m m' : Work α} (hm : m.Simple stores ctx frame)
    (hm' : m'.Simple stores ctx frame) : (if c then m else m').Simple stores ctx frame := by
  split
  · exact hm
  · exact hm'

/-- A call without pictures and storage that may fail, in the work of an action. -/
theorem Work.simple_attempt {p : Program (Except Fault α)}
    (hp : p.Only Call.Frugal fun _ => False) :
    (Work.lift (Act.attempt p)).Simple stores ctx frame :=
  .lift (Act.simple_attempt (.calls hp))

/-- A call with pictures or storage that may fail, in the work of an action. -/
theorem Work.simple_storing (hstores : stores) {p : Program (Except Fault α)}
    (hp : p.Only Call.Stores fun _ => False) :
    (Work.lift (Act.attempt p)).Simple stores ctx frame :=
  .lift (Act.simple_attempt (.stored hstores hp))

/-! ### Actions on the page -/

namespace Browser

theorem simple_requirePage (type : String) : (requirePage type ctx).Simple stores ctx frame :=
  Work.simple_ite (.pure _) (.lift (.fail (Failure.own_error rfl)))

theorem simple_request (type : String) (c : PageCall) :
    (request type ctx c).Simple stores ctx frame :=
  .bind (simple_requirePage type) fun _ => Work.simple_attempt (Program.only_ask trivial)

theorem simple_save (params : Fields) (value : Json) :
    (save params value).Simple stores ctx frame :=
  Work.simple_ite (.lift (Act.simple_setRuntime _ _ _)) (.pure _)

theorem simple_single (type : String) (c : PageCall) (message : String) :
    (do
      let _ ← request type ctx c
      return message : Work String).Simple stores ctx frame :=
  .bind (simple_request type c) fun _ => .pure _

theorem simple_simple (type : String) (schema : Kind) (call : Fields → PageCall)
    (message : Fields → String) : (simple type schema call message).Simple stores :=
  ⟨fun _ _ _ _ => simple_single type _ _⟩

theorem simple_onElement (type : String) (operation : PageOperation) (schema : Kind)
    (names : List String) (message : String → String) :
    (onElement type operation schema names message).Simple stores :=
  simple_simple ..

theorem simple_selectOption : selectOption.Simple stores :=
  ⟨fun _ _ _ _ => simple_single _ _ _⟩

theorem simple_scroll : scroll.Simple stores := ⟨fun _ _ _ _ =>
  Work.simple_ite (simple_single _ _ _) (simple_single _ _ _)⟩

theorem simple_waitForTimeout : waitForTimeout.Simple stores := ⟨fun _ _ _ _ =>
  .bind (simple_request _ _) fun _ => .bind (.lift (.sleep _)) fun _ => .pure _⟩

theorem simple_getText : getText.Simple stores := ⟨fun _ _ _ _ =>
  .bind (simple_request _ _) fun _ => .bind (simple_save _ _) fun _ => .pure _⟩

theorem simple_getAttribute : getAttribute.Simple stores := ⟨fun _ _ _ _ =>
  .bind (simple_request _ _) fun _ => .bind (simple_save _ _) fun _ => .pure _⟩

theorem simple_evaluate : evaluate.Simple stores := ⟨fun _ _ _ _ =>
  .bind (simple_request _ _) fun _ => .bind (simple_save _ _) fun _ => .pure _⟩

theorem simple_screenshot (hstores : stores) : screenshot.Simple stores := by
  refine ⟨fun ctx nested frame params => ?_⟩
  refine Work.simple_ite (.bind (.lift (.fail (Failure.own_error rfl))) fun _ => ?_) ?_
  all_goals
    refine .bind (simple_requirePage _) fun _ =>
      .bind (Work.simple_storing hstores (Program.only_ask trivial)) fun data => ?_
    have hkept (key : String) : (do
        let url ← Work.lift (Act.attempt (Program.ask (.upload key data "image/png")))
        Work.lift (Act.emitOutputFile ctx frame url)
        return s!"Successfully took screenshot and uploaded to {url}" : Work String).Simple stores
          ctx frame :=
      .bind (Work.simple_storing hstores (Program.only_ask trivial)) fun _ =>
        .bind (.lift (.file _)) fun _ => .pure _
    split
    · exact hkept _
    · exact .bind (.lift (Act.simple_resolving _)) hkept

theorem simple_log : log.Simple stores := ⟨fun _ _ _ _ =>
  .bind (.lift (Act.simple_log _)) fun _ => .pure _⟩

/-- The actions on the page are simple. -/
theorem simple_of_mem : ∀ kind ∈ kinds, (kind.type = "playwright:screenshot" → stores) →
    kind.Simple stores := by
  simp only [kinds, List.forall_mem_cons]
  exact ⟨fun _ => simple_simple .., fun _ => simple_onElement .., fun _ => simple_onElement ..,
    fun _ => simple_onElement .., fun _ => simple_simple .., fun _ => simple_onElement ..,
    fun _ => simple_onElement .., fun _ => simple_selectOption, fun _ => simple_onElement ..,
    fun _ => simple_waitForTimeout, fun h => simple_screenshot (h rfl), fun _ => simple_evaluate,
    fun _ => simple_onElement .., fun _ => simple_scroll, fun _ => simple_getText,
    fun _ => simple_getAttribute, fun _ => simple_simple .., fun _ => simple_simple ..,
    fun _ => simple_simple .., fun _ => simple_simple .., fun _ => simple_simple ..,
    fun _ => simple_log, List.forall_mem_nil _⟩

end Browser

/-! ### Actions on stored files -/

namespace StoredFiles

theorem simple_stored {type : String} {m : Work String} (hm : m.Simple stores ctx frame) :
    (do
      requireStorage type ctx frame
      m : Work String).Simple stores ctx frame :=
  .bind (Work.simple_ite (.pure _) (.throw (Failure.own_error rfl))) fun _ => hm

section Stores

variable (hstores : stores)

include hstores

theorem simple_upload : upload.Simple stores := ⟨fun _ _ _ _ =>
  simple_stored <| .bind (.lift (Act.simple_ofFault _)) fun _ =>
    .bind (Work.simple_storing hstores (Program.only_ask trivial)) fun _ =>
    .bind (.lift (.file _)) fun _ => .pure _⟩

theorem simple_delete : delete.Simple stores := ⟨fun _ _ _ _ =>
  simple_stored <| .bind (Work.simple_storing hstores (Program.only_ask trivial)) fun _ => .pure _⟩

theorem simple_list : list.Simple stores := ⟨fun _ _ _ _ =>
  simple_stored <| .bind (Work.simple_storing hstores (Program.only_ask trivial)) fun _ =>
    .bind (.report _) fun _ => .bind (Browser.simple_save _ _) fun _ => .pure _⟩

/-- The actions on stored files are simple. -/
theorem simple_of_mem : ∀ kind ∈ kinds, kind.Simple stores := by
  simp only [kinds, List.forall_mem_cons]
  exact ⟨simple_upload hstores, simple_delete hstores, simple_list hstores, List.forall_mem_nil _⟩

end Stores

end StoredFiles

/-! ### Requests to servers -/

namespace Api

theorem simple_note (name : String) (value : Json) : (note name value).Simple stores ctx frame :=
  .report _

theorem simple_send (type : String) (request : Except Fault Request) :
    (send type frame request).Simple stores ctx frame := by
  have hnow {g : Rat → Work Response} (hg : ∀ ended, (g ended).Simple stores ctx frame) :
      (Work.lift (Act.ask .now) >>= g).Simple stores ctx frame :=
    .bind (.lift (Act.simple_call trivial)) hg
  have hask (r : Request) :
      (received r.url <$> Act.ask (.request r) : Act _).Simple stores ctx frame := by
    rw [map_eq_pure_bind]
    exact .bind (Act.simple_call trivial) fun _ => .pure _
  refine hnow fun started => ?_
  cases request
  case' error f => refine .bind (.pure _) ?_
  case' ok r => refine .bind (.lift (hask r)) ?_
  -- Whether a request was sent or not, what follows depends on the reply.
  all_goals
    rintro ((text | f) | response)
    · exact .bind (simple_note _ _) fun _ => hnow fun _ =>
        .bind (simple_note _ _) fun _ => .throw (Failure.own_error rfl)
    · exact hnow fun _ => .bind (simple_note _ _) fun _ => .throw (Failure.own_fault f)
    · exact hnow fun _ => .bind (simple_note _ _) fun _ => .pure _

theorem simple_runHooks (data : Json) (hooks : List Json) :
    (runHooks data hooks).Simple stores ctx frame := by
  induction hooks with
  | nil => exact .pure _
  | cons hook rest ih =>
    unfold runHooks
    dsimp only
    split
    · exact .bind (.lift (Act.simple_log _)) fun _ => ih
    · exact .bind (.lift (Act.simple_setRuntime _ _ _)) fun _ => .bind (.report _) fun _ => ih

theorem simple_afterwards (url : String) (response : Response) (hooks : List Json) :
    (afterwards frame url response hooks).Simple stores ctx frame := by
  refine Work.simple_ite (.pure _) ?_
  split
  · exact simple_runHooks _ hooks
  · exact .lift (Act.simple_log _)

theorem simple_answer (type method url sentTo : String) (response : Response) (hooks : List Json) :
    (answer type method frame url sentTo response hooks).Simple stores ctx frame := by
  have hgood : (do
      afterwards frame sentTo response hooks
      return s!"Successfully executed {method} request to {url} (HTTP {response.status})" :
      Work String).Simple stores ctx frame :=
    .bind (simple_afterwards _ _ _) fun _ => .pure _
  exact .bind (simple_note _ _) fun _ => .bind (simple_note _ _) fun _ =>
    Work.simple_ite (.bind (simple_note _ _) fun _ =>
      .bind (.throw (Failure.own_error rfl)) fun _ => hgood) hgood

theorem simple_kind (type method : String) : (kind type method).Simple stores := by
  refine ⟨fun ctx nested frame params => ?_⟩
  exact .bind (.lift (Act.simple_ofFault _)) fun _ => .bind .read fun _ => .bind (.report _)
    fun _ => .bind (simple_send type _) fun response => simple_answer type method _ _ response _

/-- The API actions are simple. -/
theorem simple_of_mem : ∀ kind ∈ kinds, kind.Simple stores := by
  simp only [kinds, List.forall_mem_cons]
  exact ⟨simple_kind .., simple_kind .., simple_kind .., simple_kind .., simple_kind ..,
    List.forall_mem_nil _⟩

end Api

/-- The types of actions that take pictures or concern stored files. -/
def Catalogue.storingTypes : List String :=
  Browser.screenshot.type :: StoredFiles.kinds.map ActionKind.type

/-- All built-in kinds but the two control actions are simple, and most do without pictures and
storage. -/
theorem Catalogue.simple_of_ne {kind : ActionKind} (hkind : kind ∈ kinds)
    (hbranch : kind.type ≠ "playwright:if_else") (hloop : kind.type ≠ "playwright:loop_until")
    (hstores : kind.type ∈ storingTypes → stores) : kind.Simple stores := by
  simp only [kinds, List.mem_append, List.mem_cons, List.not_mem_nil, or_false] at hkind
  rcases hkind with ((hkind | rfl | rfl) | hkind) | hkind
  · exact Browser.simple_of_mem kind hkind fun h =>
      hstores (List.mem_cons.mpr (.inl h))
  · exact absurd rfl hbranch
  · exact absurd rfl hloop
  · exact Api.simple_of_mem kind hkind
  · exact StoredFiles.simple_of_mem
      (hstores (List.mem_cons_of_mem _ (List.mem_map_of_mem hkind))) kind hkind

end Runbook
