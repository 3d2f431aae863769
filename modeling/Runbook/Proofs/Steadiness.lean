import Runbook.Proofs.Templates
import Runbook.Run.Loop

/-!
# Steady templates

What takes the place of a token depends on the variables of the loop index and on the settings, and
for some names on more than that: a timestamp, sample data and the values of generator functions may
be different every time. A template without such names comes to the same whenever it is resolved.

* `Template.Agree m m'`: two resolutions come to the same, whatever they draw on.
* `Template.Volatile config name`: what takes the place of a token may be different every time.
* `Template.Steady config s`: no token in the text `s` has such a name.
* `Template.Mentions P deferred x`: all texts in the document `x` that are resolved have `P`.
* `Template.agree_resolveTree`: steady documents come to the same in environments that differ in
  their timestamps, their sample data and the time.
-/

namespace Runbook.Template

open Text

variable {α β : Type}

/-! ### Resolutions that agree -/

/-- Two resolutions come to the same, whatever they draw on. -/
def Agree (m m' : ResolveM α) : Prop := ∀ d d', (m.run.run d).1 = (m'.run.run d').1

theorem agree_pure (a : α) : Agree (pure a) (pure a) := fun _ _ => rfl

theorem agree_throw (e : ResolveFault) : Agree (throw e : ResolveM α) (throw e) := fun _ _ => rfl

theorem agree_warn (event : String) (fields : Fields) :
    Agree (warn event fields) (warn event fields) := fun _ _ => rfl

/-- One resolution after another agrees when both parts do. -/
theorem Agree.bind {m m' : ResolveM α} {f f' : α → ResolveM β} (hm : Agree m m')
    (hf : ∀ a, Agree (f a) (f' a)) : Agree (m >>= f) (m' >>= f') := by
  intro d d'
  change ((ExceptT.bindCont f (m.run.run d).1).run (m.run.run d).2).1 =
    ((ExceptT.bindCont f' (m'.run.run d').1).run (m'.run.run d').2).1
  rw [hm d d']
  cases (m'.run.run d').1 with
  | ok a => exact hf a _ _
  | error e => rfl

/-! ### Names -/

/-- The name that the body of a token gives. -/
abbrev tokenName (body : List Char) : String := String.ofList (trimBoth isBlank body)

/-- A token of this name stands for a declared variable. -/
structure Declares (config : AutomationConfig) (name : String) (v : Variable) : Prop where
  ordinary (env : Environment) : Ordinary env name
  static : (Loop.staticVars config.declared).find? (fun s => s.1 == name) = none
  found : config.findVariable name = some v

/-- What takes the place of a token of this name may be different every time: it is a timestamp,
sample data, the value of a generator function, or a declared variable that stands for sample data
or whose value is a template with such a token in it. -/
inductive Volatile (config : AutomationConfig) : String → Prop
  | timestamp : Volatile config "timestamp"
  | sample (kind : String) : Volatile config ("faker." ++ kind)
  | generated (function : String) : Volatile config ("function." ++ function)
  | dynamic {name kind : String} {v : Variable} (h : Declares config name v)
      (hv : v.type = .dynamic) (hvalue : trim v.value = "\x7b\x7bfaker." ++ (kind ++ "\x7d\x7d")) :
      Volatile config name
  | environment {name : String} {v : Variable} {body : List Char} (h : Declares config name v)
      (hv : v.type = .environment) (hbody : .token body ∈ scan v.value.toList)
      (hname : Volatile config (tokenName body)) : Volatile config name

/-- No token in a text has a name whose value may be different every time. -/
def Steady (config : AutomationConfig) (s : String) : Prop :=
  ∀ body, .token body ∈ scan s.toList → ¬ Volatile config (tokenName body)

/-! ### Environments that differ -/

/-- An environment with another timestamp, other sample data and another time. -/
def Environment.varied (env : Environment) (timestamp : String) (data : SampleData) (now : Int) :
    Environment :=
  { env with context := { env.context with timestamp }, data, now }

theorem reserved?_eq_none (v v' : VariableContext) {name : String}
    (h : v.reserved? name = none) : v'.reserved? name = none := by
  unfold VariableContext.reserved? at h ⊢
  split at h <;> cases h
  rfl

theorem Ordinary.elsewhere {env : Environment} {name : String} (h : Ordinary env name)
    (env' : Environment) : Ordinary env' name :=
  { h with reserved := reserved?_eq_none _ _ h.reserved }

theorem reserved?_varied (env : Environment) (timestamp : String) (data : SampleData) (now : Int)
    {name : String} (h : name ≠ "timestamp") :
    (env.varied timestamp data now).context.reserved? name = env.context.reserved? name := by
  unfold VariableContext.reserved?
  split <;> first | rfl | exact absurd rfl h

theorem agree_runtimeValue (v : VariableContext) (path : String) :
    Agree (runtimeValue v path) (runtimeValue v path) := by
  unfold runtimeValue
  split
  · exact agree_pure _
  · exact (agree_warn _ _).bind fun _ => agree_pure _

section Settings

variable {config : AutomationConfig} {env : Environment} (hconfig : env.config = some config)
  (hstatic : env.context.staticVars = Loop.staticVars config.declared)

include hconfig hstatic

/-- In a loop index, a name that is declared and not the key of a static variable stands for its
declaration in every other loop index as well. -/
theorem Ordinary.declares {name : String} {v : Variable} (hname : Ordinary env name)
    (hnone : env.context.static? name = none)
    (hv : env.config.bind (·.findVariable name) = some v) : Declares config name v where
  ordinary := hname.elsewhere
  static := by rwa [VariableContext.static?, Option.map_eq_none_iff, hstatic] at hnone
  found := by rwa [hconfig, Option.bind_some] at hv

section Varied

variable {timestamp : String} {data : SampleData} {now : Int}

/-- A token comes to the same when its name is not volatile and the declared variable that it may
stand for comes to the same. -/
theorem agree_tokenValue {declared declared' : Variable → ResolveM String} {name : String}
    (hname : ¬ Volatile config name)
    (hdeclared : ∀ v, Declares config name v → Agree (declared v) (declared' v)) :
    Agree (tokenValue env declared name)
      (tokenValue (env.varied timestamp data now) declared' name) := by
  have htimestamp : name ≠ "timestamp" := fun h => hname (h ▸ .timestamp)
  have hto {m m' : ResolveM (Option String)} (hm : Agree m m')
      (h : Source (env.varied timestamp data now) declared' name m') :
      Agree m (tokenValue (env.varied timestamp data now) declared' name) := h.eq ▸ hm
  have hsource := source_tokenValue env declared name
  generalize tokenValue env declared name = m at hsource ⊢
  cases hsource with
  | reserved h =>
    exact hto (agree_pure _) (.reserved ((reserved?_varied _ _ _ _ htimestamp).trans h))
  | runtime h => exact hto ((agree_runtimeValue _ _).bind fun s => agree_pure _) (.runtime h)
  | sample h => exact absurd (h ▸ .sample _) hname
  | generated h => exact absurd (h ▸ .generated _) hname
  | static hord h => exact hto (agree_pure _) (.static (hord.elsewhere _) h)
  | @declared v hord hnone h =>
    have hv := hdeclared v (hord.declares hconfig hstatic hnone h)
    exact hto (hv.bind fun s => agree_pure _) (.declared (hord.elsewhere _) hnone h)
  | unknown h =>
    exact hto ((agree_warn _ _).bind fun _ => agree_pure _)
      (.unknown ⟨h.elsewhere _, h.static, h.declared⟩)

section Pieces

variable {declared declared' : Variable → ResolveM String}
  (hdeclared : ∀ {name v}, ¬ Volatile config name → Declares config name v →
    Agree (declared v) (declared' v))

include hdeclared

theorem agree_piecesValue {ps : List Piece}
    (hps : ∀ body, .token body ∈ ps → ¬ Volatile config (tokenName body)) :
    Agree (piecesValue env declared ps)
      (piecesValue (env.varied timestamp data now) declared' ps) := by
  induction ps with
  | nil => exact agree_pure _
  | cons p ps ih =>
    have hpiece : Agree (pieceValue env declared p)
        (pieceValue (env.varied timestamp data now) declared' p) := by
      cases p with
      | char c => exact agree_pure _
      | token body =>
        have hname := hps body List.mem_cons_self
        refine (agree_tokenValue hconfig hstatic hname fun v => hdeclared hname).bind ?_
        rintro (_ | found) <;> exact agree_pure _
    exact hpiece.bind fun front =>
      (ih fun body hbody => hps body (List.mem_cons_of_mem _ hbody)).bind fun back => agree_pure _

theorem agree_textWith {s : String} (hs : Steady config s) :
    Agree (textWith env declared s) (textWith (env.varied timestamp data now) declared' s) :=
  (agree_piecesValue hconfig hstatic hdeclared hs).bind fun _ => agree_pure _

end Pieces

omit hconfig hstatic in
theorem agree_dynamicValue {name : String} (hname : ¬ Volatile config name) {v : Variable}
    (hv : Declares config name v) (htype : v.type = .dynamic) :
    Agree (dynamicValue env v) (dynamicValue (env.varied timestamp data now) v) := by
  unfold dynamicValue
  dsimp only
  split
  · rename_i rest hrest
    have hvalue := stripPrefix?_eq_some_iff.mp hrest
    split
    · rename_i hends
      rw [hvalue] at hends
      exact absurd (.dynamic hv htype (hvalue.trans (congrArg _ (eq_append_of_endsWith hends))))
        hname
    · exact agree_pure _
  · exact agree_pure _

/-- A declared variable comes to the same when its name is not volatile. -/
theorem agree_declaredValue (n : Nat) {name : String} {v : Variable}
    (hname : ¬ Volatile config name) (hv : Declares config name v) :
    Agree (declaredValue env n v) (declaredValue (env.varied timestamp data now) n v) := by
  induction n generalizing name v with
  | zero =>
    unfold declaredValue
    split
    · exact agree_pure _
    · exact agree_dynamicValue hname hv ‹_›
    · exact agree_throw _
  | succ n ih =>
    unfold declaredValue
    split
    · exact agree_pure _
    · exact agree_dynamicValue hname hv ‹_›
    · exact agree_textWith hconfig hstatic ih fun body hbody hvolatile =>
        hname (.environment hv ‹_› hbody hvolatile)

/-- A steady text comes to the same. -/
theorem agree_resolveText {s : String} (hs : Steady config s) :
    Agree (resolveText env s) (resolveText (env.varied timestamp data now) s) :=
  agree_textWith hconfig hstatic (agree_declaredValue hconfig hstatic maxDepth) hs

end Varied

end Settings

/-! ### Documents -/

/-- All texts in a document have a property, but for those in deferred places. As in a resolution,
`deferred` names places in an object, and `inner` in each item of a list. -/
abbrev Mentions (P : String → Prop) (deferred inner : List Deferral) (x : Json) : Prop :=
  Rewritten (fun s _ => P s) deferred inner x x

section Documents

variable {config : AutomationConfig} {env : Environment} {timestamp : String} {data : SampleData}
  {now : Int}

mutual

/-- A document in which all texts are steady comes to the same. -/
theorem agree_resolveTree (hconfig : env.config = some config)
    (hstatic : env.context.staticVars = Loop.staticVars config.declared)
    {deferred inner : List Deferral} :
    ∀ {x : Json}, Mentions (Steady config) deferred inner x →
      Agree (resolveTree env deferred inner x)
        (resolveTree (env.varied timestamp data now) deferred inner x)
  | .text s, h => by
    obtain ⟨_, -, hs⟩ := h
    rw [resolveTree, resolveTree]
    exact (agree_resolveText hconfig hstatic hs).bind fun _ => agree_pure _
  | .list items, h => by
    obtain ⟨_, heq, hitems⟩ := h
    cases heq
    rw [resolveTree, resolveTree]
    exact (agree_resolveItems hconfig hstatic hitems).bind fun _ => agree_pure _
  | .object fields, h => by
    obtain ⟨_, heq, hfields⟩ := h
    cases heq
    rw [resolveTree, resolveTree]
    exact (agree_resolveFields hconfig hstatic hfields).bind fun _ => agree_pure _
  | .null, _ => agree_pure _
  | .bool _, _ => agree_pure _
  | .int _, _ => agree_pure _
  | .float _, _ => agree_pure _
  | .foreign _ _ _, _ => agree_pure _

theorem agree_resolveItems (hconfig : env.config = some config)
    (hstatic : env.context.staticVars = Loop.staticVars config.declared) {inner : List Deferral} :
    ∀ {xs : List Json}, RewrittenItems (fun s _ => Steady config s) inner xs xs →
      Agree (resolveItems env inner xs) (resolveItems (env.varied timestamp data now) inner xs)
  | [], _ => agree_pure _
  | x :: xs, h => by
    obtain ⟨_, _, heq, hx, hxs⟩ := h
    cases heq
    rw [resolveItems, resolveItems]
    exact (agree_resolveTree hconfig hstatic hx).bind fun _ =>
      (agree_resolveItems hconfig hstatic hxs).bind fun _ => agree_pure _

theorem agree_resolveFields (hconfig : env.config = some config)
    (hstatic : env.context.staticVars = Loop.staticVars config.declared)
    {deferred : List Deferral} :
    ∀ {fs : List (String × Json)}, RewrittenFields (fun s _ => Steady config s) deferred fs fs →
      Agree (resolveFields env deferred fs)
        (resolveFields (env.varied timestamp data now) deferred fs)
  | [], _ => agree_pure _
  | (key, x) :: fs, h => by
    obtain ⟨_, _, heq, hx, hfs⟩ := h
    cases heq
    have hrest (y : Json) : Agree (do return (key, y) :: (← resolveFields env deferred fs))
        (do return (key, y) :: (← resolveFields (env.varied timestamp data now) deferred fs)) :=
      (agree_resolveFields hconfig hstatic hfs).bind fun _ => agree_pure _
    rw [resolveFields, resolveFields]
    simp only [List.contains_iff_mem]
    split
    · exact hrest x
    · rw [if_neg ‹_›] at hx
      exact (agree_resolveTree hconfig hstatic hx).bind hrest

end

end Documents

end Runbook.Template
