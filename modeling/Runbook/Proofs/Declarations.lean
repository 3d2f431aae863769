import Runbook.Proofs.Deferral
import Runbook.Proofs.Rescanning
import Runbook.Rehearsal.Whole
import Mathlib.Data.List.Induction

/-!
# Which declaration a token stands for

A configuration may declare a key more than once. When a loop index begins, the static declarations
go into a table, in which a later one replaces an earlier one. A token is looked up in that table
first, and only then among all declarations, where the first one of the key counts. So a static
declaration goes before all others of its key, wherever these stand, and among static ones it is
the last that counts; the first declaration decides when none of the key is static.

* `AutomationConfig.lastStatic?`, `AutomationConfig.effective?`: the declaration that counts.
* `Loop.find?_staticVars`: the table has the value of the last static declaration.
* `AutomationConfig.effective?_eq_findVariable`: when the first declaration is the one that counts.
* `Template.token_stands_for_effective_declaration`: what a token comes to in a loop index.
* `Template.later_static_declaration_counts`: a key with two static declarations.
-/

namespace Runbook

namespace AutomationConfig

/-- The last static declaration of a key. -/
def lastStatic? (c : AutomationConfig) (key : String) : Option Variable :=
  c.declared.reverse.find? fun v => v.type = .static && v.key == key

/-- The declaration that counts: the last static one of a key, or the first one if none is
static. -/
def effective? (c : AutomationConfig) (key : String) : Option Variable :=
  (c.lastStatic? key).or (c.findVariable key)

end AutomationConfig

/-! ### The table of static variables -/

namespace Loop

theorem find?_put (key value name : String) (vars : List (String × String)) :
    (staticVars.put key value vars).find? (fun s => s.1 == name) =
      if key = name then some (key, value) else vars.find? (fun s => s.1 == name) := by
  induction vars with
  | nil => by_cases hname : key = name <;> simp [staticVars.put, hname]
  | cons s vars ih =>
    obtain ⟨k, v⟩ := s
    by_cases hk : k = key
    · by_cases hname : key = name <;> simp [staticVars.put, hk, hname]
    · by_cases hname : k = name
      · obtain rfl := hname
        simp [staticVars.put, hk, Ne.symm hk]
      · simpa [staticVars.put, hk, hname] using ih

theorem staticVars_append (vs : List Variable) (v : Variable) :
    staticVars (vs ++ [v]) =
      if v.type = .static then staticVars.put v.key v.value (staticVars vs) else staticVars vs := by
  unfold staticVars
  split <;> simp_all

/-- The table has the value of the last static declaration of a key. -/
theorem find?_staticVars (config : AutomationConfig) (key : String) :
    ((staticVars config.declared).find? fun s => s.1 == key).map Prod.snd =
      (config.lastStatic? key).map Variable.value := by
  unfold AutomationConfig.lastStatic?
  induction config.declared using List.reverseRecOn with
  | nil => rfl
  | append_singleton vs v ih =>
    rw [staticVars_append, List.reverse_append, List.reverse_singleton, List.singleton_append,
      List.find?_cons]
    by_cases hstatic : v.type = .static
    · rw [if_pos hstatic, find?_put]
      by_cases hkey : v.key = key
      · simp [hstatic, hkey]
      · simpa [hstatic, List.find?_cons, beq_eq_false_iff_ne.mpr hkey, hkey] using ih
    · simpa [hstatic] using ih

end Loop

/-! ### The first declaration and the one that counts -/

namespace AutomationConfig

variable {c : AutomationConfig} {key : String}

/-- The first declaration of a key is the one that counts, unless a static one comes after it. -/
theorem effective?_eq_findVariable
    (h : ∀ v w, [v, w].Sublist c.declared → v.key = key → w.key = key → w.type ≠ .static) :
    c.effective? key = c.findVariable key := by
  unfold effective?
  cases hlast : c.lastStatic? key with
  | none => rfl
  | some v =>
    have hv := List.find?_some hlast
    rw [Bool.and_eq_true, decide_eq_true_iff, beq_iff_eq] at hv
    have hmem : v ∈ c.declared := List.mem_reverse.mp (List.mem_of_find?_eq_some hlast)
    cases hfirst : c.findVariable key with
    | none => exact absurd (by simpa using hv.2) (List.find?_eq_none.mp hfirst v hmem)
    | some u =>
      obtain ⟨hu, before, after, hdeclared, hbefore⟩ := List.find?_eq_some_iff_append.mp hfirst
      rw [hdeclared, List.mem_append, List.mem_cons] at hmem
      rcases hmem with hmem | rfl | hmem
      · exact absurd hv.2 (by simpa using hbefore v hmem)
      · rfl
      · have hsub : [u, v].Sublist c.declared := by
          rw [hdeclared]
          exact (List.cons_sublist_cons.mpr (List.singleton_sublist.mpr hmem)).trans
            (List.sublist_append_right _ _)
        exact absurd hv.1 (h u v hsub (eq_of_beq hu) hv.2)

end AutomationConfig

/-! ### Tokens -/

namespace Template

open Text

variable {env : Environment} {body : List Char}

/-- A text that is a token, and nothing else, comes to the value of that token. -/
theorem textWith_written (declared : Variable → ResolveM String) (hbody : Enclosed body) :
    textWith env declared (String.ofList (written body)) = do
      let value ← tokenValue env declared (tokenName body)
      return value.getD (String.ofList (written body)) := by
  have hscan : scan (written body) = [.token body] := by
    have hsome := tokenAt?_eq_some_iff.mpr ⟨hbody, (List.append_nil (written body)).symm⟩
    rw [scan_of_some hsome, scan_nil]
  rw [textWith, String.toList_ofList, hscan]
  simp only [piecesValue, pieceValue, bind_assoc, pure_bind]
  congr 1
  funext value
  cases value <;> simp

theorem declaredValue_of_static {remaining : Nat} {v : Variable} (h : v.type = .static) :
    declaredValue env remaining v = pure v.value := by
  unfold declaredValue
  rw [h]

section LoopIndex

variable (r : Runner) (automation : Automation) (config : AutomationConfig) (runId : String)
  (loopIndex : Nat) (start : Rat)

/-- In a loop index, an ordinary name stands for the declaration that counts. -/
theorem tokenValue_environment (s : LoopState) (globals : Fields) (now : Rat) (remaining : Nat)
    {name : String} (hname : ∀ env, Ordinary env name) :
    let env := Act.environment (Loop.contextOf r automation config runId loopIndex start) s globals
      now
    tokenValue env (declaredValue env remaining) name =
      match config.effective? name with
      | some v => some <$> declaredValue env remaining v
      | none => do
        warn "variable_not_found" [("name", .text name)]
        return none := by
  intro env
  have htable : env.context.static? name = (config.lastStatic? name).map Variable.value :=
    Loop.find?_staticVars config name
  have hconfig : env.config.bind (·.findVariable name) = config.findVariable name := rfl
  rw [(hname env).tokenValue_eq, lookedUp, htable, hconfig, AutomationConfig.effective?]
  cases hlast : config.lastStatic? name with
  | some v =>
    have hv := List.find?_some hlast
    rw [Bool.and_eq_true, decide_eq_true_iff] at hv
    simp [declaredValue_of_static hv.1]
  | none => cases config.findVariable name <;> rfl

/-- **Which declaration counts.** Let a token name a key that is not reserved and does not begin
like the name of a runtime variable, of sample data or of a generator function. In a loop index of
any run it stands for the last static declaration of the key, if there is one, and else for the
first declaration: it comes to the value of a static one, to the sample data that a dynamic one asks
for, and for one of type environment to what its value becomes as a template. With no declaration
of the key it stays, with a warning. So the first declaration is the one that counts, unless a
static one comes after it. -/
theorem token_stands_for_effective_declaration {body : List Char} (hbody : Enclosed body)
    (hname : ∀ env, Ordinary env (tokenName body)) :
    let ctx := Loop.contextOf r automation config runId loopIndex start
    let token := String.ofList (written body)
    (∀ s globals now remaining,
      let env := Act.environment ctx s globals now
      tokenValue env (declaredValue env remaining) (tokenName body) =
        match config.effective? (tokenName body) with
        | some v => some <$> declaredValue env remaining v
        | none => do
          warn "variable_not_found" [("name", .text (tokenName body))]
          return none) ∧
    (∀ v, config.effective? (tokenName body) = some v → ∀ s t result s',
      (Act.resolving ctx fun env => resolveText env token).Ends s t result s' →
      s' = s ∧ ∃ globals now d, Act.Consults globals now t ∧
        let value := declaredValue (Act.environment ctx s globals now) maxDepth v
        result = (value.run.run d).1.mapError ResolveFault.toFailure) ∧
    ((∀ v w, [v, w].Sublist config.declared → v.key = tokenName body → w.key = tokenName body →
        w.type ≠ .static) →
      config.effective? (tokenName body) = config.findVariable (tokenName body)) := by
  intro ctx token
  have htoken (s globals now remaining) := tokenValue_environment r automation config runId
    loopIndex start s globals now remaining hname
  refine ⟨htoken, fun v hv s t result s' h => ?_, AutomationConfig.effective?_eq_findVariable⟩
  obtain ⟨rfl, globals, now, d, ht, rfl⟩ := Act.ends_resolving_run h
  have hresolved : resolveText (Act.environment ctx s' globals now) token =
      declaredValue (Act.environment ctx s' globals now) maxDepth v := by
    rw [resolveText, textWith_written _ hbody, htoken s' globals now maxDepth, hv]
    simp [ctx]
  exact ⟨rfl, globals, now, d, ht, by rw [hresolved]⟩

end LoopIndex

theorem ordinary_k (env : Environment) : Ordinary env "k" :=
  ordinary_of_none rfl rfl rfl rfl

/-- Among three declarations of a key, it is the static one that counts. -/
theorem static_declaration_between_others :
    let config : AutomationConfig := { declared := [
      { key := "k", type := .environment, value := "\x7b\x7bloopIndex\x7d\x7d" },
      { key := "k", value := "one" }, { key := "k", type := .dynamic, value := "two" }] }
    let ctx := Loop.contextOf Rehearsal.sampleRunner { id := "auto-1", name := "Auto" } config
      "run-1" 0 0
    Enclosed ['k'] ∧ (∀ env, Ordinary env (tokenName ['k'])) ∧
    ∀ s t result s',
      (Act.resolving ctx fun env => resolveText env (String.ofList (written ['k']))).Ends s t result
        s' → result = .ok "one" := by
  intro config ctx
  have hbody : Enclosed ['k'] := ⟨List.cons_ne_nil _ _, List.forall_mem_singleton.mpr rfl⟩
  refine ⟨hbody, ordinary_k, fun s t result s' h => ?_⟩
  obtain ⟨-, globals, now, d, -, rfl⟩ := (token_stands_for_effective_declaration
    Rehearsal.sampleRunner { id := "auto-1", name := "Auto" } config "run-1" 0 0 hbody
      ordinary_k).2.1 { key := "k", value := "one" } rfl s t result s' h
  rfl

/-- Settings that declare a key twice, both times as a static variable. -/
def declaredTwice : Json :=
  .object [("variables", .list [
    .object [("key", .text "k"), ("value", .text "1")],
    .object [("key", .text "k"), ("value", .text "2")]])]

/-- Of two static declarations of a key, the first one is found, but a token has the value of the
second one. -/
theorem later_static_declaration_counts :
    ∃ config, AutomationConfig.parse declaredTwice = .ok config ∧ (∀ env, Ordinary env "k") ∧
      (config.findVariable "k").map (fun v => (v.type, v.value)) = some (.static, "1") ∧
      ((resolveText (Act.environment (Loop.contextOf Rehearsal.sampleRunner
          { id := "auto-1", name := "Auto", config := declaredTwice } config "run-1" 0 0) {} [] 0)
        "\x7b\x7bk\x7d\x7d").run.run {}).1.toOption = some "2" := by
  have hread : (AutomationConfig.parse declaredTwice).toOption.map (fun config =>
      ((config.findVariable "k").map (fun v => (v.type, v.value)),
        ((resolveText (Act.environment (Loop.contextOf Rehearsal.sampleRunner
            { id := "auto-1", name := "Auto", config := declaredTwice } config "run-1" 0 0) {} [] 0)
          "\x7b\x7bk\x7d\x7d").run.run {}).1.toOption)) =
      some (some (.static, "1"), some "2") := by decide +kernel
  cases hparse : AutomationConfig.parse declaredTwice with
  | error e =>
    rw [hparse] at hread
    cases hread
  | ok config =>
    rw [hparse] at hread
    obtain ⟨hfound, hresolved⟩ := Prod.mk.inj (Option.some.inj hread)
    exact ⟨config, rfl, ordinary_k, hfound, hresolved⟩

end Template

end Runbook
