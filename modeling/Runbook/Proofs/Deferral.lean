import Runbook.Proofs.Kinds
import Runbook.Proofs.Templates

/-!
# Deferral

Before an action is executed, the texts in its configuration are resolved, but not those in the
places that hold nested actions. Nor does the check of the configuration change anything there, so
that a nested action is dispatched with the configuration that stands in that of the action which
holds it.

* `Act.Consults globals now t`: a resolution that looks at the shared variables and at the time.
* `Action.Follows`: what follows the announcement of an action.
* `Action.ends_dispatchWith`: a dispatch resolves the configuration once, and executes the action on
  the outcome.
* `ActionKind.validate_eq_ok_iff`: when a configuration is accepted, and what the check makes of it.
* `IfElse.lists_of_holds`, `LoopUntil.holds_of_holds`: what a control action holds stands in the
  configuration that it was dispatched with.
-/

namespace Runbook

/-! ### Resolutions in a loop index -/

namespace Act

variable {s s' : LoopState} {t : List Deed}

/-- What a template may refer to in a loop index with these variables, given the shared ones and the
time. -/
def environment (ctx : LoopContext) (s : LoopState) (globals : Fields) (now : Rat) :
    Template.Environment where
  context := {
    loopIndex := ctx.loopIndex
    localLoopIndex := s.localLoopIndex
    runId := ctx.runId
    timestamp := ctx.timestamp
    userId := ctx.userId
    projectId := ctx.projectId
    automationId := ctx.automationId
    staticVars := ctx.staticVars
    runtimeVars := s.runtimeVars
    globalVars := globals }
  config := some ctx.config
  data := ctx.data
  now := (now / 1000).floor

theorem ends_logs {rs : List LogRecord} {r : Except Failure PUnit}
    (h : (rs.forM log).Ends s t r s') :
    t = rs.map (fun r => .call (.log r) ()) ∧ r = .ok () ∧ s' = s := by
  induction rs generalizing t with
  | nil => exact ends_pure_iff.mp h
  | cons record rs ih =>
    obtain ⟨_, t', rfl, h'⟩ := ends_ask_bind_iff.mp h
    obtain ⟨rfl, rfl, rfl⟩ := ih h'
    exact ⟨rfl, rfl, rfl⟩

/-- A resolution looks at the shared variables and at the time, once each. Then it takes its draws
and logs its warnings. -/
def Consults (globals : Fields) (now : Rat) (t : List Deed) : Prop :=
  ∃ (chance chance' : Chance) (logs : List LogRecord),
    t = [.call .globals globals, .call .now now, .call .chance chance,
      .call (.setChance chance') ()] ++ logs.map fun r => .call (.log r) ()

theorem Consults.plain {globals : Fields} {now : Rat} (h : Consults globals now t) :
    ∀ d ∈ t, ∃ c r, d = .call c r ∧ c.Plain := by
  obtain ⟨chance, chance', logs, rfl⟩ := h
  intro d hd
  simp only [List.mem_append, List.mem_cons, List.not_mem_nil, or_false, List.mem_map] at hd
  rcases hd with (rfl | rfl | rfl | rfl) | ⟨r, -, rfl⟩ <;> exact ⟨_, _, rfl, trivial⟩

/-- A resolution comes to what it comes to at that moment, whatever it draws on. -/
theorem ends_resolving_run {α : Type} {ctx : LoopContext}
    {m : Template.Environment → Template.ResolveM α} {r : Except Failure α}
    (h : (resolving ctx m).Ends s t r s') :
    s' = s ∧ ∃ globals now d, Consults globals now t ∧
      r = ((m (environment ctx s globals now)).run.run d).1.mapError
        Template.ResolveFault.toFailure := by
  rw [resolving, contextNow, bind_assoc] at h
  rcases ends_bind_iff.mp h with ⟨t₁, vars, s₁, t₂, rfl, h₁, h₂⟩ | ⟨e, h₁, -⟩
  · obtain ⟨rfl, hvars, rfl⟩ := ends_get_iff.mp h₁
    cases hvars
    rw [bind_assoc] at h₂
    obtain ⟨globals, t₃, rfl, h₃⟩ := ends_ask_bind_iff.mp h₂
    rw [pure_bind] at h₃
    obtain ⟨now, t₄, rfl, h₄⟩ := ends_ask_bind_iff.mp h₃
    obtain ⟨chance, t₅, rfl, h₅⟩ := ends_ask_bind_iff.mp h₄
    rcases hrun : (m (environment ctx vars globals now)).run.run { ints := chance.ints } with
      ⟨result, drawing⟩
    have hresult := congrArg Prod.fst hrun
    rw [environment] at hrun
    dsimp only at h₅
    rw [hrun] at h₅
    obtain ⟨_, t₆, rfl, h₆⟩ := ends_ask_bind_iff.mp h₅
    rcases ends_bind_iff.mp h₆ with ⟨t₇, _, s₂, t₈, rfl, h₇, h₈⟩ | ⟨e, h₇, -⟩
    · obtain ⟨rfl, -, rfl⟩ := ends_logs h₇
      have hends : t₈ = [] ∧ r = result.mapError Template.ResolveFault.toFailure ∧ s' = s₂ := by
        cases result with
        | ok a => exact ends_pure_iff.mp h₈
        | error e => exact ends_fail_iff.mp h₈
      obtain ⟨rfl, hr, rfl⟩ := hends
      refine ⟨rfl, globals, now, { ints := chance.ints },
        ⟨chance, _, drawing.log, by rw [List.append_nil]; rfl⟩, ?_⟩
      rw [hr, hresult]
    · obtain ⟨-, hr, -⟩ := ends_logs h₇
      cases hr
  · obtain ⟨-, hr, -⟩ := ends_get_iff.mp h₁
    cases hr

/-- A resolution comes to what it gives at that moment, or it is refused. -/
theorem ends_resolving {α : Type} {ctx : LoopContext}
    {m : Template.Environment → Template.ResolveM α} {r : Except Failure α}
    (h : (resolving ctx m).Ends s t r s') :
    s' = s ∧ ∃ globals now, Consults globals now t ∧
      ((∃ a, r = .ok a ∧ Template.Gives (m (environment ctx s globals now)) a) ∨
        ∃ e : Template.ResolveFault, r = .error e.toFailure) := by
  obtain ⟨hs, globals, now, d, ht, rfl⟩ := ends_resolving_run h
  refine ⟨hs, globals, now, ht, ?_⟩
  rcases hrun : (m (environment ctx s globals now)).run.run d with ⟨e | a, d'⟩
  · exact .inr ⟨e, rfl⟩
  · exact .inl ⟨a, rfl, d, d', hrun⟩

end Act

/-! ### Dispatches -/

namespace Action

/-- Dispatches an action, given how what it holds is dispatched. -/
def dispatchWith (registry : Registry ActionKind) (ctx : LoopContext) (nested : Dispatcher) :
    Dispatcher := fun frame config => do
  Act.ask (.dispatched ctx.loopIndex frame config)
  let kind ← Act.ofExcept (registry.get frame.actionType)
  let deferred := kind.deferred.map Template.Deferral.ofText
  let resolved ← Act.resolving ctx fun env => Template.resolve env deferred (.object config)
  kind.execute ctx nested frame resolved

/-- What follows the announcement of an action: it is unknown, or its configuration cannot be
resolved, or it is executed on the configuration as it has just been resolved. -/
inductive Follows (registry : Registry ActionKind) (ctx : LoopContext) (nested : Dispatcher)
    (frame : Frame) (config : Fields) (s : LoopState) :
    List Deed → Except Failure Unit → LoopState → Prop
  | unknown (hget : registry.get frame.actionType = .error (.error (.unknownAction
      frame.actionType))) : Follows registry ctx nested frame config s []
        (.error (.error (.unknownAction frame.actionType))) s
  | unresolved {globals : Fields} {now : Rat} {t : List Deed} (e : Template.ResolveFault)
      (ht : Act.Consults globals now t) :
      Follows registry ctx nested frame config s t (.error e.toFailure) s
  | executed {kind : ActionKind} {globals : Fields} {now : Rat} {resolved : Fields}
      {t t' : List Deed} {r : Except Failure Unit} {s' : LoopState}
      (hget : registry.get frame.actionType = .ok kind) (ht : Act.Consults globals now t)
      (hresolved : Template.Rewritten
        (Template.Within (Act.environment ctx s globals now) Template.maxDepth)
        (kind.deferred.map Template.Deferral.ofText) [] (.object config) (.object resolved))
      (h : (kind.execute ctx nested frame (.object resolved)).Ends s t' r s') :
      Follows registry ctx nested frame config s (t ++ t') r s'

variable {registry : Registry ActionKind} {ctx : LoopContext} {nested : Dispatcher}
  {frame : Frame} {config : Fields} {s s' : LoopState} {t : List Deed} {r : Except Failure Unit}

theorem eq_unknown_of_get {type : String} {e : Failure} (h : registry.get type = .error e) :
    e = .error (.unknownAction type) := by
  unfold Registry.get at h
  split at h <;> cases h
  rfl

/-- An action is announced with the configuration that it was dispatched with, which is then
resolved once. -/
theorem ends_dispatchWith (h : (dispatchWith registry ctx nested frame config).Ends s t r s') :
    ∃ t', t = .call (.dispatched ctx.loopIndex frame config) () :: t' ∧
      Follows registry ctx nested frame config s t' r s' := by
  obtain ⟨_, t', rfl, h'⟩ := Act.ends_ask_bind_iff.mp h
  refine ⟨t', rfl, ?_⟩
  rcases Act.ends_bind_iff.mp h' with ⟨t₁, kind, s₁, t₂, rfl, h₁, h₂⟩ | ⟨e, h₁, rfl⟩
  · obtain ⟨rfl, hget, rfl⟩ := Act.ends_ofExcept_iff.mp h₁
    rcases Act.ends_bind_iff.mp h₂ with ⟨t₃, resolved, s₂, t₄, rfl, h₃, h₄⟩ | ⟨e, h₃, rfl⟩
    · obtain ⟨rfl, globals, now, ht, ⟨_, hr, hgives⟩ | ⟨_, hr⟩⟩ := Act.ends_resolving h₃
      · obtain rfl := Except.ok.inj hr
        have hrewritten := Template.rewritten_of_gives hgives
        obtain ⟨fields, rfl, -⟩ := id hrewritten
        rw [List.nil_append]
        exact .executed hget.symm ht hrewritten h₄
      · cases hr
    · obtain ⟨rfl, globals, now, ht, ⟨_, hr, -⟩ | ⟨e', hr⟩⟩ := Act.ends_resolving h₃
      · cases hr
      · cases hr
        exact .unresolved e' ht
  · obtain ⟨rfl, hget, rfl⟩ := Act.ends_ofExcept_iff.mp h₁
    obtain rfl := eq_unknown_of_get hget.symm
    exact .unknown hget.symm

end Action

/-! ### Lists of actions that are checked -/

/-- A field for a list of anything, by default an empty one. -/
abbrev Field.listOfAny (name : String) : Field := .withDefault name (.list 0 .any) (.list [])

namespace Kind

variable {write : Json → String} {fields : List Field} {raw : Fields}

theorem checkFields_eq_map (write : Json → String) (fields : List Field) (raw : Fields) :
    checkFields write fields raw = fields.map fun field => checkField write field raw := by
  induction fields with
  | nil => rfl
  | cons field fields ih => rw [checkFields, ih, List.map_cons]

/-- A checked field keeps its name. -/
theorem name_of_checkField {field : Field} {f : String × Json}
    (h : checkField write field raw = .ok f) : f.1 = field.name := by
  obtain ⟨name, otherKey, kind, default, preparation⟩ := field
  unfold checkField at h
  split at h
  · split at h <;> cases h
    rfl
  · split at h <;> cases h
    rfl

/-- A field with a default takes the value that is given under its name. -/
theorem checkField_withDefault (write : Json → String) (name : String) (kind : Kind)
    (default : Json) (raw : Fields) : checkField write (.withDefault name kind default) raw =
      match Fields.get? raw name with
      | some x => under (.key name) ((check write kind x).map fun y => (name, y))
      | none => .ok (name, default) := by
  rw [Field.withDefault]
  unfold checkField
  cases hget : Fields.get? raw name with
  | none => simp [Field.given?, Field.otherKey, Field.name, hget]
  | some x =>
    simp only [Field.given?, Field.otherKey, Field.name, hget, Preparation.apply]
    cases hx : check write kind x <;> simp [hx, under, Except.map]

/-- A field without a default takes the value that is given under its name, and there must be
one. -/
theorem checkField_required (write : Json → String) (name : String) (kind : Kind) (raw : Fields) :
    checkField write (.required name kind) raw =
      match Fields.get? raw name with
      | some x => under (.key name) ((check write kind x).map fun y => (name, y))
      | none => .error [⟨[.key name], .missing⟩] := by
  rw [Field.required]
  unfold checkField
  cases hget : Fields.get? raw name with
  | none => simp [Field.given?, Field.otherKey, Field.name, hget]
  | some x =>
    simp only [Field.given?, Field.otherKey, Field.name, hget, Preparation.apply]
    cases hx : check write kind x <;> simp [hx, under, Except.map]

theorem under_map_ne_error_nil {place : Place} {x : Checked} {g : Json → String × Json}
    (h : x ≠ .error []) : under place (x.map g) ≠ .error [] := by
  rcases x with (_ | ⟨p, ps⟩) | x
  · exact absurd rfl h
  · exact nofun
  · exact nofun

theorem eq_ok_of_under_map {place : Place} {x : Checked} {name key : String} {value : Json}
    (h : under place (x.map fun y => (key, y)) = .ok (name, value)) : x = .ok value := by
  cases x <;> cases h
  rfl

theorem collect_map_ok {α : Type} (xs : List α) :
    collect (xs.map (Except.ok : α → Except (List Problem) α)) = .ok xs := by
  simp [collect, List.flatMap_map, List.filterMap_map, Function.comp_def]

/-- A check that succeeds has found no problem, and joins the values that it has found. -/
theorem eq_filterMap_of_collect {α : Type} {results : List (Except (List Problem) α)} {xs : List α}
    (h : collect results = .ok xs) :
    xs = results.filterMap Except.toOption ∧ ∀ p ps, .error (p :: ps) ∉ results := by
  unfold collect at h
  dsimp only at h
  split at h
  · rename_i hnone
    cases h
    constructor
    · congr 1
      funext x
      cases x <;> rfl
    · intro p ps hm
      rw [List.isEmpty_iff, List.flatMap_eq_nil_iff] at hnone
      cases hnone _ hm
  · cases h

/-- Checks that are joined fail only with a problem. -/
theorem collect_ne_error_nil {α : Type} (results : List (Except (List Problem) α)) :
    collect results ≠ .error [] := by
  unfold collect
  dsimp only
  split
  · exact nofun
  · rename_i hsome
    rintro heq
    rw [Except.error.inj heq] at hsome
    exact hsome rfl

theorem check_model_ne_error_nil (write : Json → String) (name : String) (keepExtra : Bool)
    (fields : List Field) (x : Json) :
    check write (.model name keepExtra fields) x ≠ .error [] := by
  unfold check
  split
  · split
    · rename_i ps hcollect
      rintro ⟨⟩
      exact collect_ne_error_nil _ hcollect
    · exact nofun
  · exact nofun

/-- A text that is long enough stays as it is, and anything else is refused. -/
theorem check_text (write : Json → String) (least : Nat) (x : Json) :
    ((∃ s, x = .text s) ∧ check write (.text least) x = .ok x) ∨
      ∃ v, check write (.text least) x = fail v := by
  unfold check
  split
  · rename_i s
    split
    · exact .inr ⟨_, rfl⟩
    · exact .inl ⟨⟨s, rfl⟩, rfl⟩
  · exact .inr ⟨_, rfl⟩

/-- A check that keeps what it does not refuse fails only with a problem. -/
theorem ne_error_nil_of_keeps {p : Prop} {x : Json} {checked : Checked}
    (h : p ∧ checked = .ok x ∨ ∃ v, checked = fail v) : checked ≠ .error [] := by
  rintro rfl
  rcases h with ⟨-, h⟩ | ⟨v, h⟩ <;> cases h

/-- A list of anything is checked to be a list. -/
theorem check_list_any (write : Json → String) (x : Json) : check write (.list 0 .any) x = .ok x ∧
    (∃ items, x = .list items) ∨ check write (.list 0 .any) x = fail .notList := by
  cases x with
  | list items =>
    have hall : (items.mapIdx fun i y => under (.index i) (check write .any y)) =
        items.map .ok := by
      refine List.ext_getElem? fun i => ?_
      simp [check, under]
    refine .inl ⟨?_, items, rfl⟩
    unfold check
    simp only [hall, collect_map_ok, Nat.not_lt_zero, if_false]
  | _ => exact .inr (by unfold check; rfl)

/-- Among the values that a check joins, a field is found under its name if no field before it has
the same one. -/
theorem get?_joined {before after : List (Except (List Problem) (String × Json))} {key : String}
    (value : Json) (more : Fields) (hbefore : ∀ f, .ok f ∈ before → f.1 ≠ key) :
    Fields.get? ((before ++ .ok (key, value) :: after).filterMap Except.toOption ++ more) key =
      some value := by
  have hnone : (before.filterMap Except.toOption).find? (fun f => f.1 == key) = none := by
    refine List.find?_eq_none.mpr fun f hf => ?_
    obtain ⟨x, hx, heq⟩ := List.mem_filterMap.mp hf
    cases x with
    | error ps => cases heq
    | ok f' =>
      cases heq
      simpa using hbefore f hx
  simp [Fields.get?, List.filterMap_append, List.find?_append, hnone, Except.toOption]

/-- A declared field is checked to hold what its check gives. -/
theorem get?_of_checkField {name : String} {keepExtra : Bool} {field : Field} {x y : Json}
    {before after : List Field} (hbefore : ∀ f ∈ before, f.name ≠ field.name)
    (hfails : ∀ raw, checkField write field raw ≠ .error [])
    (h : check write (.model name keepExtra (before ++ field :: after)) x = .ok y) :
    ∃ value, checkField write field x.fields = .ok (field.name, value) ∧
      Fields.get? y.fields field.name = some value := by
  unfold check at h
  split at h
  case h_2 => cases h
  rename_i raw
  split at h
  · cases h
  rename_i declared hcollect
  cases h
  obtain ⟨rfl, hgood⟩ := eq_filterMap_of_collect hcollect
  rw [checkFields_eq_map, List.map_append, List.map_cons] at hgood ⊢
  have hnames : ∀ f, .ok f ∈ before.map (checkField write · raw) → f.1 ≠ field.name := by
    intro f hf
    obtain ⟨earlier, hearlier, hchecked⟩ := List.mem_map.mp hf
    rw [name_of_checkField hchecked]
    exact hbefore earlier hearlier
  cases hchecked : checkField write field raw with
  | ok found =>
    obtain ⟨key, value⟩ := found
    obtain rfl : key = field.name := name_of_checkField hchecked
    exact ⟨value, hchecked, get?_joined _ _ hnames⟩
  | error ps =>
    rw [hchecked] at hgood
    cases ps with
    | nil => exact absurd hchecked (hfails raw)
    | cons p ps => exact absurd (List.mem_append_right _ List.mem_cons_self) (hgood _ _)

/-- A field with a default is checked to hold that, or what the check makes of what was given. -/
theorem get?_of_check {name key : String} {keepExtra : Bool} {kind : Kind} {default x y : Json}
    {before after : List Field} (hbefore : ∀ field ∈ before, field.name ≠ key)
    (hfails : ∀ z, check write kind z ≠ .error [])
    (h : check write (.model name keepExtra (before ++ .withDefault key kind default :: after)) x =
      .ok y) :
    Fields.get? y.fields key = some default ∨
      ∃ given value, Fields.get? x.fields key = some given ∧ check write kind given = .ok value ∧
        Fields.get? y.fields key = some value := by
  have hfield (raw : Fields) :
      checkField write (.withDefault key kind default) raw ≠ .error [] := by
    rw [checkField_withDefault]
    split
    · exact under_map_ne_error_nil (hfails _)
    · exact nofun
  obtain ⟨value, hchecked, hvalue⟩ := get?_of_checkField hbefore hfield h
  rw [checkField_withDefault] at hchecked
  split at hchecked
  · rename_i given hgiven
    exact .inr ⟨given, value, hgiven, eq_ok_of_under_map hchecked, hvalue⟩
  · cases hchecked
    exact .inl hvalue

/-- A field without a default is checked to hold what the check makes of what was given. -/
theorem get?_required_of_check {name key : String} {keepExtra : Bool} {kind : Kind} {x y : Json}
    {before after : List Field} (hbefore : ∀ field ∈ before, field.name ≠ key)
    (hfails : ∀ z, check write kind z ≠ .error [])
    (h : check write (.model name keepExtra (before ++ .required key kind :: after)) x = .ok y) :
    ∃ given value, Fields.get? x.fields key = some given ∧ check write kind given = .ok value ∧
      Fields.get? y.fields key = some value := by
  have hfield (raw : Fields) : checkField write (.required key kind) raw ≠ .error [] := by
    rw [checkField_required]
    split
    · exact under_map_ne_error_nil (hfails _)
    · exact nofun
  obtain ⟨value, hchecked, hvalue⟩ := get?_of_checkField hbefore hfield h
  rw [checkField_required] at hchecked
  split at hchecked
  · rename_i given hgiven
    exact ⟨given, value, hgiven, eq_ok_of_under_map hchecked, hvalue⟩
  · cases hchecked

/-- A field for a list, by default an empty one, is checked to hold the list that was given. -/
theorem get?_list_of_check {name key : String} {keepExtra : Bool} {before after : List Field}
    {x y : Json} (hbefore : ∀ field ∈ before, field.name ≠ key)
    (h : check write (.model name keepExtra (before ++ .listOfAny key :: after)) x = .ok y) :
    Fields.get? y.fields key = some (.list []) ∨
      ∃ items, Fields.get? x.fields key = some (.list items) ∧
        Fields.get? y.fields key = some (.list items) := by
  have hfails (z : Json) : check write (.list 0 .any) z ≠ .error [] := by
    rcases check_list_any write z with ⟨hz, -⟩ | hz <;> rw [hz] <;> exact nofun
  rcases get?_of_check hbefore hfails h with hdefault | ⟨given, value, hgiven, hchecked, hvalue⟩
  · exact .inl hdefault
  · rcases check_list_any write given with ⟨hsame, items, rfl⟩ | hfail
    · rw [hsame] at hchecked
      cases hchecked
      exact .inr ⟨items, hgiven, hvalue⟩
    · rw [hfail] at hchecked
      cases hchecked

end Kind

namespace ActionKind

variable {kind : ActionKind} {key : String} {fields params : Fields}

/-- A configuration is accepted when its check gives fields that the action does not refuse. -/
theorem validate_eq_ok_iff {config : Json} {name : String} {keepExtra : Bool}
    {schema : List Field} (hschema : kind.schema = .model name keepExtra schema) :
    kind.validate config = .ok params ↔
      ∃ y, (Kind.model name keepExtra schema).check (Json.write .spaced)
          (kind.prepare (if config.truthy then config else .object [])) = .ok y ∧
        y.fields = params ∧ kind.refuse params = none := by
  unfold validate
  rw [hschema]
  dsimp only
  constructor
  · intro h
    split at h
    · cases h
    · rename_i hcheck
      exact absurd hcheck (Kind.check_model_ne_error_nil _ _ _ _ _)
    · rename_i y hcheck
      split at h <;> cases h
      exact ⟨y, hcheck, rfl, ‹_›⟩
  · rintro ⟨y, hcheck, rfl, hrefuse⟩
    rw [hcheck]
    dsimp only
    rw [hrefuse]

/-- An object is checked as it is, the empty one too. -/
theorem validate_object_eq_ok_iff {name : String} {keepExtra : Bool} {schema : List Field}
    (hprepare : kind.prepare = id) (hschema : kind.schema = .model name keepExtra schema) :
    kind.validate (.object fields) = .ok params ↔
      ∃ y, (Kind.model name keepExtra schema).check (Json.write .spaced) (.object fields) = .ok y ∧
        y.fields = params ∧ kind.refuse params = none := by
  have hraw : (if (Json.object fields).truthy then .object fields else .object []) =
      Json.object fields := by
    cases fields <;> rfl
  rw [validate_eq_ok_iff hschema, hraw, hprepare, id]

/-- A kind whose configuration has a list of anything under a key, by default an empty one. -/
structure HasList (kind : ActionKind) (key : String) : Prop where
  prepare : kind.prepare = id
  schema : ∃ name keepExtra before after, (∀ field ∈ before, field.name ≠ key) ∧
    kind.schema = .model name keepExtra (before ++ .listOfAny key :: after)

/-- A checked configuration has the list that was given, or else none. -/
theorem HasList.get?_of_validate (hlist : kind.HasList key)
    (h : kind.validate (.object fields) = .ok params) :
    Fields.get? params key = Fields.get? fields key ∧ (∃ items, Fields.get? fields key =
      some (.list items)) ∨ Fields.get? params key = some (.list []) ∨
        Fields.get? params key = none := by
  obtain ⟨hprepare, name, keepExtra, before, after, hbefore, hschema⟩ := hlist
  obtain ⟨y, hcheck, rfl, -⟩ := (validate_object_eq_ok_iff hprepare hschema).mp h
  rcases Kind.get?_list_of_check hbefore hcheck with hnone | ⟨items, hgiven, hfound⟩
  · exact .inr (.inl hnone)
  · exact .inl ⟨hfound.trans hgiven.symm, items, hgiven⟩

theorem HasList.isEntry (hlist : kind.HasList key)
    (h : kind.validate (.object fields) = .ok params) {idStem : String} {a : NestedAction}
    (ha : Action.IsEntry (Browser.param params key) idStem a) :
    Action.IsEntry (Browser.param fields key) idStem a := by
  rcases hlist.get?_of_validate h with ⟨hsame, -⟩ | hnone
  · rwa [Browser.param, hsame] at ha
  -- Nothing is an entry of no list.
  · obtain ⟨entries, i, entry, hentries, hi, -⟩ := ha
    have hempty : Action.entries (Browser.param params key) = .ok [] := by
      rcases hnone with hnone | hnone <;> rw [Browser.param, hnone] <;> rfl
    rw [hempty] at hentries
    cases hentries
    cases hi

theorem HasList.getElem?_listAt (hlist : kind.HasList key)
    (h : kind.validate (.object fields) = .ok params) {i : Nat} {entry : Json}
    (hi : (Fields.listAt params key)[i]? = some entry) :
    ∃ items, Fields.get? fields key = some (.list items) ∧ items[i]? = some entry := by
  rcases hlist.get?_of_validate h with ⟨hsame, items, hitems⟩ | hnone
  · rw [Fields.listAt, hsame, hitems] at hi
    exact ⟨items, hitems, hi⟩
  · rcases hnone with hnone | hnone <;> rw [Fields.listAt, hnone] at hi <;> cases hi

end ActionKind

/-! ### Held actions as they are written -/

/-- The actions that the configuration of a branching action lists. -/
inductive IfElse.Lists (frame : Frame) (config : Fields) (action : NestedAction) : Prop
  | if (h : Action.IsEntry (Browser.param config "if_actions") s!"{IfElse.idStem frame}-if" action)
  | alternative {index : Nat} {fields : Fields}
      (hentry : (Fields.listAt config "else_if_conditions")[index]? = some (.object fields))
      (h : Action.IsEntry (Browser.param fields "actions")
        s!"{IfElse.idStem frame}-else_if-{index}" action)
  | else (h : Action.IsEntry (Browser.param config "else_actions") s!"{IfElse.idStem frame}-else"
      action)
  | final (h : Action.IsEntry (Browser.param config "final_actions")
      s!"{IfElse.idStem frame}-final" action)

namespace IfElse

theorem hasList_if : kind.HasList "if_actions" :=
  ⟨rfl, _, _, [Browser.filled "selector", .required "condition_type" (.choice stateWords)], _,
    by decide, rfl⟩

theorem hasList_alternatives : kind.HasList "else_if_conditions" :=
  ⟨rfl, _, _, [Browser.filled "selector", .required "condition_type" (.choice stateWords),
    .listOfAny "if_actions"], _, by decide, rfl⟩

theorem hasList_else : kind.HasList "else_actions" :=
  ⟨rfl, _, _, [Browser.filled "selector", .required "condition_type" (.choice stateWords),
    .listOfAny "if_actions", .listOfAny "else_if_conditions"], _, by decide, rfl⟩

theorem hasList_final : kind.HasList "final_actions" :=
  ⟨rfl, _, _, [Browser.filled "selector", .required "condition_type" (.choice stateWords),
    .listOfAny "if_actions", .listOfAny "else_if_conditions", .listOfAny "else_actions"], _,
    by decide, rfl⟩

/-- An alternative that makes sense is an object, and its actions are under their key. -/
theorem object_of_ofEntry {entry : Json} {found : Alternative}
    (h : Alternative.ofEntry entry = .ok (some found)) :
    ∃ fields, entry = .object fields ∧ found.actions = Browser.param fields "actions" := by
  unfold Alternative.ofEntry at h
  split at h
  · rename_i fields
    dsimp only at h
    split at h
    · cases h
    · split at h <;> try cases h
      simp only [Except.ok.injEq, Option.map_eq_some_iff] at h
      obtain ⟨state, -, rfl⟩ := h
      exact ⟨fields, rfl, rfl⟩
  · cases h

variable {R : String → String → Prop} {config fields params : Fields} {frame : Frame}
  {a : NestedAction}

/-- An alternative, when the configuration has been resolved and checked, has the actions that it
has in the configuration as it was. -/
theorem exists_alternative (hresolved : Template.RewrittenFields R
      (kind.deferred.map Template.Deferral.ofText) config fields)
    (hvalid : kind.validate (.object fields) = .ok params) {index : Nat} {gs : Fields}
    (hentry : (Fields.listAt params "else_if_conditions")[index]? = some (.object gs)) :
    ∃ fs, (Fields.listAt config "else_if_conditions")[index]? = some (.object fs) ∧
      Fields.get? gs "actions" = Fields.get? fs "actions" := by
  obtain ⟨items, hitems, hindex⟩ := hasList_alternatives.getElem?_listAt hvalid hentry
  obtain ⟨x, hx, hrewritten⟩ := hresolved.exists_of_get? (by decide) hitems
  obtain ⟨xs, rfl, hxs⟩ := hrewritten.exists_list
  obtain ⟨fs, hfs, hrewritten⟩ := hxs.exists_of_getElem? hindex
  refine ⟨fs, ?_, hrewritten.get?_of_deferred (by decide)⟩
  rwa [Fields.listAt, hx]

/-- What a branching action holds, when its configuration has been resolved and checked, is listed
in the configuration as it was. -/
theorem lists_of_holds (hresolved : Template.RewrittenFields R
      (kind.deferred.map Template.Deferral.ofText) config fields)
    (hvalid : kind.validate (.object fields) = .ok params) (h : Holds frame params a) :
    Lists frame config a := by
  have hsame {key : String} (hlist : kind.HasList key) {idStem : String} (hkey :
      .key key ∈ kind.deferred.map Template.Deferral.ofText)
      (h : Action.IsEntry (Browser.param params key) idStem a) :
      Action.IsEntry (Browser.param config key) idStem a := by
    have hentry := hlist.isEntry hvalid h
    rwa [Browser.param, hresolved.get?_of_deferred hkey] at hentry
  cases h with
  | «if» h => exact .if (hsame hasList_if (by decide) h)
  | «else» h => exact .else (hsame hasList_else (by decide) h)
  | final h => exact .final (hsame hasList_final (by decide) h)
  | @alternative index entry found hentry hfound h =>
    obtain ⟨gs, rfl, hactions⟩ := object_of_ofEntry hfound
    obtain ⟨fs, hlisted, hsame⟩ := exists_alternative hresolved hvalid hentry
    rw [hactions, Browser.param, hsame] at h
    exact .alternative hlisted h

end IfElse

namespace LoopUntil

theorem hasList : kind.HasList "loop_actions" :=
  ⟨rfl, _, _, [.optional "selector" (.text 0),
    .optional "condition_type" (.choice IfElse.stateWords),
    .mk "max_loops" none (.optional (.integer (some 1) none)) (some .null) .zeroIsUnset,
    .mk "timeout_ms" none (.optional (.integer (some 1) none)) (some .null) .zeroIsUnset,
    .withDefault "fail_on_force_stop" .boolean (.bool false)], _, by decide, rfl⟩

variable {R : String → String → Prop} {config fields params : Fields} {frame : Frame}
  {a : NestedAction}

/-- What stands in the list of a loop, when its configuration has been resolved and checked, stands
there in its configuration as it was. -/
theorem isEntry_of_isEntry (hresolved : Template.RewrittenFields R
      (kind.deferred.map Template.Deferral.ofText) config fields)
    (hvalid : kind.validate (.object fields) = .ok params) {stem : String}
    (h : Action.IsEntry (Browser.param params "loop_actions") stem a) :
    Action.IsEntry (Browser.param config "loop_actions") stem a := by
  have hentry := hasList.isEntry hvalid h
  rwa [Browser.param, hresolved.get?_of_deferred (by decide)] at hentry

/-- What a loop holds, when its configuration has been resolved and checked, it holds by its
configuration as it was. -/
theorem holds_of_holds (hresolved : Template.RewrittenFields R
      (kind.deferred.map Template.Deferral.ofText) config fields)
    (hvalid : kind.validate (.object fields) = .ok params) (h : Holds frame params a) :
    Holds frame config a := by
  obtain ⟨n, h⟩ := h
  exact ⟨n, isEntry_of_isEntry hresolved hvalid h⟩

end LoopUntil

end Runbook
