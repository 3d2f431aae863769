import Runbook.Proofs.Deferral
import Runbook.Proofs.Robust
import Runbook.Proofs.Steadiness

/-!
# Pictures that are taken on the way

When the settings ask for it, a loop index takes a picture of its page, stores it and tells of the
stored file. Whatever fails meanwhile is only logged. So taking a picture is a detour: whether it
succeeds or not, the loop index goes on in the same way.

There is one thing that a detour can change. The path under which a picture is stored is a
template, and if it is resolved, it may draw numbers that are missed later on. It is only resolved
when the picture has been taken, and so what is drawn afterwards depends on whether it could be
taken. The path must therefore do without generated values, in itself and in the values of the
declared variables that it names.

* `Template.Drawn config name`: what takes the place of a token of this name may be drawn.
* `Template.Undrawn config s`: no token in the text `s` has such a name.
* `Template.keeps_resolveText`: the resolution of such a text draws no numbers.
* `Act.Spare P m`: the part `m` of a loop index is a detour, which fails only if `P` says so.
* `Loop.spare_capture`: taking a picture is one.
-/

namespace Runbook

open Text

variable {α β : Type}

/-! ### Texts for which nothing is drawn -/

namespace Template

/-- What takes the place of a token of this name may be drawn: it is sample data, the value of a
generator function, or a declared variable that stands for sample data or whose value is a template
with such a token in it. -/
inductive Drawn (config : AutomationConfig) : String → Prop
  | sample (kind : String) : Drawn config ("faker." ++ kind)
  | generated (function : String) : Drawn config ("function." ++ function)
  | dynamic {name kind : String} {v : Variable} (h : Declares config name v)
      (hv : v.type = .dynamic) (hvalue : trim v.value = "\x7b\x7bfaker." ++ (kind ++ "\x7d\x7d")) :
      Drawn config name
  | environment {name : String} {v : Variable} {body : List Char} (h : Declares config name v)
      (hv : v.type = .environment) (hbody : .token body ∈ scan v.value.toList)
      (hname : Drawn config (tokenName body)) : Drawn config name

/-- No token in a text has a name for which something may be drawn. -/
def Undrawn (config : AutomationConfig) (s : String) : Prop :=
  ∀ body, .token body ∈ scan s.toList → ¬ Drawn config (tokenName body)

/-- A resolution draws no numbers. -/
def Keeps (m : ResolveM α) : Prop := ∀ d, (m.run.run d).2.ints = d.ints

theorem keeps_pure (a : α) : Keeps (pure a) := fun _ => rfl

theorem keeps_throw (e : ResolveFault) : Keeps (throw e : ResolveM α) := fun _ => rfl

theorem keeps_warn (event : String) (fields : Fields) : Keeps (warn event fields) := fun _ => rfl

/-- One resolution after another draws no numbers if neither part does. -/
theorem Keeps.bind {m : ResolveM α} {f : α → ResolveM β} (hm : Keeps m)
    (hf : ∀ a, Keeps (f a)) : Keeps (m >>= f) := by
  intro d
  change ((ExceptT.bindCont f (m.run.run d).1).run (m.run.run d).2).2.ints = d.ints
  rw [← hm d]
  cases (m.run.run d).1 with
  | ok a => exact hf a _
  | error e => rfl

theorem keeps_runtimeValue (v : VariableContext) (path : String) : Keeps (runtimeValue v path) := by
  unfold runtimeValue
  split
  · exact keeps_pure _
  · exact (keeps_warn _ _).bind fun _ => keeps_pure _

section Settings

variable {config : AutomationConfig} {env : Environment} (hconfig : env.config = some config)
  (hstatic : env.context.staticVars = Loop.staticVars config.declared)

include hconfig hstatic

/-- For a token nothing is drawn unless its name says so, or the declared variable for which it
stands does. -/
theorem keeps_tokenValue {declared : Variable → ResolveM String} {name : String}
    (hname : ¬ Drawn config name)
    (hdeclared : ∀ v, Declares config name v → Keeps (declared v)) :
    Keeps (tokenValue env declared name) := by
  have hsource := source_tokenValue env declared name
  generalize tokenValue env declared name = m at hsource ⊢
  cases hsource with
  | reserved => exact keeps_pure _
  | @runtime path => exact (keeps_runtimeValue env.context path).bind fun s => keeps_pure _
  | sample h => exact absurd (h ▸ .sample _) hname
  | generated h => exact absurd (h ▸ .generated _) hname
  | static => exact keeps_pure _
  | @declared v hord hnone h =>
    exact (hdeclared v (hord.declares hconfig hstatic hnone h)).bind fun s => keeps_pure _
  | unknown => exact (keeps_warn _ _).bind fun _ => keeps_pure _

section Pieces

variable {declared : Variable → ResolveM String}
  (hdeclared : ∀ {name v}, ¬ Drawn config name → Declares config name v → Keeps (declared v))

include hdeclared

theorem keeps_piecesValue {ps : List Piece}
    (hps : ∀ body, .token body ∈ ps → ¬ Drawn config (tokenName body)) :
    Keeps (piecesValue env declared ps) := by
  induction ps with
  | nil => exact keeps_pure _
  | cons p ps ih =>
    have hpiece : Keeps (pieceValue env declared p) := by
      cases p with
      | char c => exact keeps_pure _
      | token body =>
        have hname := hps body List.mem_cons_self
        refine (keeps_tokenValue hconfig hstatic hname fun v => hdeclared hname).bind ?_
        rintro (_ | found) <;> exact keeps_pure _
    exact hpiece.bind fun front =>
      (ih fun body hbody => hps body (List.mem_cons_of_mem _ hbody)).bind fun back => keeps_pure _

theorem keeps_textWith {s : String} (hs : Undrawn config s) : Keeps (textWith env declared s) :=
  (keeps_piecesValue hconfig hstatic hdeclared hs).bind fun _ => keeps_pure _

end Pieces

omit hconfig hstatic in
theorem keeps_dynamicValue {name : String} (hname : ¬ Drawn config name) {v : Variable}
    (hv : Declares config name v) (htype : v.type = .dynamic) : Keeps (dynamicValue env v) := by
  unfold dynamicValue
  dsimp only
  split
  · rename_i rest hrest
    have hvalue := stripPrefix?_eq_some_iff.mp hrest
    split
    · rename_i hends
      rw [hvalue] at hends
      exact absurd (.dynamic hv htype (hvalue.trans (congrArg _ (eq_append_of_endsWith hends))))
        hname
    · exact keeps_pure _
  · exact keeps_pure _

/-- For a declared variable nothing is drawn unless its name says so. -/
theorem keeps_declaredValue (n : Nat) {name : String} {v : Variable}
    (hname : ¬ Drawn config name) (hv : Declares config name v) :
    Keeps (declaredValue env n v) := by
  induction n generalizing name v with
  | zero =>
    unfold declaredValue
    split
    · exact keeps_pure _
    · exact keeps_dynamicValue hname hv ‹_›
    · exact keeps_throw _
  | succ n ih =>
    unfold declaredValue
    split
    · exact keeps_pure _
    · exact keeps_dynamicValue hname hv ‹_›
    · exact keeps_textWith hconfig hstatic ih fun body hbody hdrawn =>
        hname (.environment hv ‹_› hbody hdrawn)

/-- The resolution of such a text draws no numbers. -/
theorem keeps_resolveText {s : String} (hs : Undrawn config s) : Keeps (resolveText env s) :=
  keeps_textWith hconfig hstatic (keeps_declaredValue hconfig hstatic maxDepth) hs

end Settings

end Template

/-! ### Detours of a loop index -/

namespace Act

/-- A part of a loop index makes spare calls only, keeps the variables, and if it fails, it fails in
one of the expected ways. -/
def Spare (P : Failure → Prop) (m : Act α) : Prop :=
  ∀ s, (m.run.run s).Spare fun x => (∀ e, x.1 = .error e → P e) ∧ x.2 = s

variable {P Q : Failure → Prop} {m : Act α}

theorem spare_pure (a : α) : (pure a : Act α).Spare P := fun _ => .done ⟨fun _ => nofun, rfl⟩

theorem spare_fail {e : Failure} (h : P e) : (fail e : Act α).Spare P := by
  refine fun _ => .done ⟨fun e' heq => ?_, rfl⟩
  cases heq
  exact h

theorem spare_ask {c : Call} (hc : c.Spare) : (ask c).Spare P :=
  fun _ => .call hc fun _ => .done ⟨fun _ => nofun, rfl⟩

/-- One detour after another. -/
theorem Spare.bind {f : α → Act β} (hm : m.Spare P) (hf : ∀ a, (f a).Spare P) :
    (m >>= f).Spare P := by
  intro s
  refine (hm s).bind fun x hx => ?_
  obtain ⟨e | a, s₁⟩ := x
  · refine .done ⟨fun e' heq => hx.1 e' ?_, hx.2⟩
    cases heq
    rfl
  · obtain rfl : s₁ = s := hx.2
    exact hf a s₁

theorem spare_log (r : LogRecord) : (log r).Spare P := spare_ask (c := .log r) trivial

theorem spare_forM {f : β → Act PUnit} {bs : List β} (hf : ∀ b, (f b).Spare P) :
    (bs.forM f).Spare P := by
  induction bs with
  | nil => exact spare_pure _
  | cons b bs ih => exact (hf b).bind fun _ => ih

/-- A spare call that may fail does not come to an interruption. -/
theorem spare_attempt {p : Program (Except Fault α)} (hp : (lift p).Spare (· ≠ .interrupted)) :
    (attempt p).Spare (· ≠ .interrupted) := by
  refine hp.bind fun x => ?_
  cases x with
  | ok a => exact spare_pure a
  | error f => exact spare_fail nofun

/-- What follows on the outcome of a detour has to be a detour only after those outcomes that it can
have. -/
theorem Spare.outcome_bind {f : Except Failure α → Act β} (hm : m.Spare P)
    (hf : ∀ x, (∀ e, x = .error e → P e) → (f x).Spare Q) :
    (Loop.outcome m >>= f).Spare Q := by
  intro s
  have houtcome : ((Loop.outcome m).run.run s).Spare fun x =>
      ∃ y, x = (.ok y, s) ∧ ∀ e, y = .error e → P e :=
    (hm s).bind fun x hx => .done ⟨x.1, Prod.ext rfl hx.2, hx.1⟩
  refine houtcome.bind fun x hx => ?_
  obtain ⟨y, rfl, hy⟩ := hx
  exact hf y hy s

theorem spare_emitOutputFile (ctx : LoopContext) (frame : Frame) (url : String) :
    (emitOutputFile ctx frame url).Spare P :=
  fun _ => .call (c := .now) trivial fun _ => .call (c := .emit _) rfl fun _ =>
    .done ⟨fun _ => nofun, rfl⟩

theorem spare_resolved (x : Except Template.ResolveFault α) :
    (match x with
      | .ok a => return a
      | .error e => fail e.toFailure : Act α).Spare (· ≠ .interrupted) := by
  cases x with
  | ok a => exact spare_pure a
  | error e =>
    refine spare_fail ?_
    cases e <;> rintro ⟨⟩

/-- A resolution that draws no numbers is a detour: it puts back what it could have drawn on. -/
theorem spare_resolving {ctx : LoopContext} {m : Template.Environment → Template.ResolveM α}
    (hm : ∀ s globals now, Template.Keeps (m (environment ctx s globals now))) :
    (resolving ctx m).Spare (· ≠ .interrupted) := by
  intro s
  refine .call (c := .globals) trivial fun globals => .call (c := .now) trivial fun now => ?_
  refine .putBack (fun chance => ?_) fun chance => ?_
  · exact congrArg (Chance.mk chance.draws) (hm s globals now { ints := chance.ints })
  · exact (spare_forM spare_log).bind (fun _ => spare_resolved _) s

end Act

namespace Loop

/-- **Detours.** Taking a picture is a detour, whether it can be taken and stored or not, when its
path does without generated values. -/
theorem spare_capture {ctx : LoopContext}
    (hstatic : ctx.staticVars = staticVars ctx.config.declared)
    (hpath : Template.Undrawn ctx.config ctx.config.screenshots.path) (frame : Frame) :
    (capture ctx frame).Spare fun _ => False := by
  have hstored : (do
      let data ← Act.attempt (Program.ask (.screenshot ctx.loopIndex []))
      let key ← Act.resolving ctx fun env =>
        Template.resolveText env ctx.config.screenshots.path
      Act.attempt (Program.ask (.upload key data "image/png")) : Act String).Spare
        (· ≠ .interrupted) := by
    refine (Act.spare_attempt (Act.spare_ask (c := .screenshot _ _) trivial)).bind fun data => ?_
    refine (Act.spare_resolving fun s globals now => ?_).bind fun key => ?_
    · exact Template.keeps_resolveText rfl hstatic hpath
    · exact Act.spare_attempt (Act.spare_ask (c := .upload _ _ _) trivial)
  have htaken : (takePicture ctx frame).Spare fun _ => False := by
    refine hstored.outcome_bind fun stored hne => ?_
    rcases stored with (e | f | _) | url
    · exact Act.spare_log _
    · exact Act.spare_log _
    · exact absurd rfl (hne _ rfl)
    · exact Act.spare_emitOutputFile ctx frame url
  unfold capture
  split
  · exact htaken
  · exact Act.spare_pure ()

end Loop

end Runbook
