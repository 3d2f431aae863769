import Runbook.Proofs.Deferral
import Runbook.Proofs.Iterations

/-!
# The branch that is taken

A branching action asks for the state of its own element first. If the element is in that state, its
first list is the branch. Otherwise it goes through its alternatives in their order. One that makes
no sense is passed over, one that makes sense is asked for, and the first one that holds is the
branch; one whose element cannot be looked at does not hold. When none holds, the last list is the
branch. When the first question fails, there is no branch at all.

Whatever comes of the branch, the final actions are run after it. Only an interruption from outside
ends everything at once. A request to stop that an action of the branch finds is a failure like any
other, and so the final actions are run then, too. The failure of the branch goes before theirs.

* `IfElse.Alternative.Plain entry`: an alternative that is an object is given a word and a list.
* `IfElse.alternativesFrom`: the alternatives that make sense, with their positions.
* `IfElse.Evaluates`: which questions are asked, with which replies, and which branch is chosen.
* `IfElse.Carries`: the branch that is chosen is run.
* `IfElse.Concludes`: the final actions, and what the action comes to.
* `IfElse.branch_law`: what a branching action does, from its first question to its end.
-/

namespace Runbook

/-! ### Questions -/

/-- The questions to the page in a trace, with their replies. -/
def asked (t : List Deed) : List (PageCall × Except Fault Json) :=
  t.filterMap fun
    | .call (.page _ c) reply => some (c, reply)
    | _ => none

theorem asked_append (t t' : List Deed) : asked (t ++ t') = asked t ++ asked t' :=
  List.filterMap_append

/-- A question to the page of a loop index, or a record in the log. -/
def Deed.Considers (i : Int) : Deed → Prop
  | .call (.page j _) _ => j = i
  | .call (.log _) _ => True
  | _ => False

/-! ### Accepted settings -/

theorem Action.entries_list (items : List Json) : entries (.list items) = .ok items := by
  cases items <;> rfl

namespace Kind

variable {write : Json → String}

theorem check_choice (options : List String) (x : Json) :
    ((∃ s ∈ options, x = .text s) ∧ check write (.choice options) x = .ok x) ∨
      ∃ v, check write (.choice options) x = fail v := by
  unfold check
  split
  · rename_i s
    split
    · rename_i hs
      exact .inl ⟨⟨s, List.contains_iff_mem.mp hs, rfl⟩, rfl⟩
    · exact .inr ⟨_, rfl⟩
  · exact .inr ⟨_, rfl⟩

/-- A field without a default is checked to hold what was given, if the check keeps what it does not
refuse. -/
theorem get?_kept_of_check {P : Json → Prop} {name key : String} {keepExtra : Bool} {kind : Kind}
    {x y : Json} {before after : List Field} (hbefore : ∀ field ∈ before, field.name ≠ key)
    (hkeeps : ∀ z, (P z ∧ check write kind z = .ok z) ∨ ∃ v, check write kind z = fail v)
    (h : check write (.model name keepExtra (before ++ .required key kind :: after)) x = .ok y) :
    ∃ value, P value ∧ Fields.get? y.fields key = some value := by
  obtain ⟨given, value, -, hchecked, hvalue⟩ :=
    get?_required_of_check hbefore (fun z => ne_error_nil_of_keeps (hkeeps z)) h
  rcases hkeeps given with ⟨hgiven, hz⟩ | ⟨v, hz⟩
  · cases hz.symm.trans hchecked
    exact ⟨given, hgiven, hvalue⟩
  · cases hz.symm.trans hchecked

end Kind

namespace ActionKind

variable {kind : ActionKind} {key : String} {config : Json} {params : Fields}

/-- A checked list is a list. -/
theorem HasList.param_eq (hlist : kind.HasList key) (h : kind.validate config = .ok params) :
    Browser.param params key = .list (Fields.listAt params key) := by
  obtain ⟨-, name, keepExtra, before, after, hbefore, hschema⟩ := hlist
  obtain ⟨y, hcheck, rfl, -⟩ := (validate_eq_ok_iff hschema).mp h
  obtain ⟨items, hitems⟩ : ∃ items, Fields.get? y.fields key = some (.list items) := by
    rcases Kind.get?_list_of_check hbefore hcheck with hnone | ⟨items, -, hitems⟩
    · exact ⟨[], hnone⟩
    · exact ⟨items, hitems⟩
  rw [Browser.param, Fields.listAt, hitems]
  rfl

theorem HasList.entries_eq (hlist : kind.HasList key) (h : kind.validate config = .ok params) :
    Action.entries (Browser.param params key) = .ok (Fields.listAt params key) := by
  rw [hlist.param_eq h, Action.entries_list]

end ActionKind

namespace IfElse

variable {config : Json} {params : Fields}

/-- An accepted configuration names an element and a state. -/
theorem named_of_validate (h : kind.validate config = .ok params) : ∃ selector state,
    Fields.get? params "selector" = some (.text selector) ∧
    Fields.get? params "condition_type" = some (.text (ElementState.word state)) := by
  obtain ⟨y, hcheck, rfl, -⟩ := (ActionKind.validate_eq_ok_iff rfl).mp h
  have hbefore : ∀ field ∈ [Browser.filled "selector"], field.name ≠ "condition_type" := by decide
  obtain ⟨_, ⟨selector, rfl⟩, hselector⟩ :=
    Kind.get?_kept_of_check (List.forall_mem_nil _) (Kind.check_text _ 1) hcheck
  obtain ⟨_, ⟨word, hword, rfl⟩, hstate⟩ :=
    Kind.get?_kept_of_check hbefore (Kind.check_choice stateWords) hcheck
  obtain ⟨state, -, rfl⟩ := List.mem_map.mp hword
  exact ⟨selector, state, hselector, hstate⟩

/-! ### Alternatives -/

/-- An alternative that is an object has a text or nothing for its state, and a list or nothing for
its actions. -/
def Alternative.Plain (entry : Json) : Prop :=
  ∀ fields, entry = .object fields →
    ((Fields.get? fields "condition_type").getD .null = .null ∨
      ∃ word, Fields.get? fields "condition_type" = some (.text word)) ∧
    ((Fields.get? fields "actions").getD .null = .null ∨
      ∃ items, Fields.get? fields "actions" = some (.list items))

/-- The question that an alternative asks. -/
def Alternative.question (a : Alternative) : PageCall := IfElse.question a.selector a.state

/-- The list of an alternative. -/
def Alternative.list (a : Alternative) : List Json :=
  match a.actions with
  | .list items => items
  | _ => []

/-- An alternative makes sense when it is an object that names an element and a state. -/
theorem Alternative.ofEntry_eq_some_iff {entry : Json} {a : Alternative} :
    Alternative.ofEntry entry = .ok (some a) ↔ ∃ fields word, entry = .object fields ∧
      (Fields.get? fields "selector").getD .null = a.selector ∧ a.selector.truthy = true ∧
      Fields.get? fields "condition_type" = some (.text word) ∧
      ElementState.ofWord? word = some a.state ∧
      (Fields.get? fields "actions").getD .null = a.actions := by
  constructor
  · intro h
    unfold ofEntry at h
    split at h
    · rename_i fields
      dsimp only at h
      split at h
      · cases h
      · rename_i hselector
        split at h <;> try cases h
        rename_i word hword
        simp only [Except.ok.injEq, Option.map_eq_some_iff] at h
        obtain ⟨state, hstate, rfl⟩ := h
        refine ⟨fields, word, rfl, rfl, by simpa using hselector, ?_, hstate, rfl⟩
        cases hget : Fields.get? fields "condition_type" with
        | none =>
          rw [hget] at hword
          cases hword
        | some x =>
          rw [hget] at hword
          exact congrArg some hword
    · cases h
  · obtain ⟨selector, state, actions⟩ := a
    rintro ⟨fields, word, rfl, rfl, htruthy, hword, hstate, rfl⟩
    simp [ofEntry, htruthy, hword, hstate]

/-- Whether a plain alternative makes sense can be told. -/
theorem Alternative.Plain.exists_eq_ok {entry : Json} (h : Plain entry) :
    ∃ found, Alternative.ofEntry entry = .ok found := by
  unfold ofEntry
  split
  · obtain ⟨hword, -⟩ := h _ rfl
    dsimp only
    split
    · exact ⟨_, rfl⟩
    · rcases hword with hnull | ⟨word, hword⟩
      · rw [hnull]
        exact ⟨_, rfl⟩
      · rw [hword]
        exact ⟨_, rfl⟩
  · exact ⟨_, rfl⟩

/-- A plain alternative has a list. -/
theorem Alternative.Plain.entries_eq {entry : Json} {a : Alternative} (h : Plain entry)
    (ha : Alternative.ofEntry entry = .ok (some a)) : Action.entries a.actions = .ok a.list := by
  obtain ⟨fields, _, rfl, -, -, -, -, hactions⟩ := ofEntry_eq_some_iff.mp ha
  obtain ⟨-, hnull | ⟨items, hitems⟩⟩ := h _ rfl
  · rw [list, ← hactions, hnull]
    rfl
  · rw [list, ← hactions, hitems]
    exact Action.entries_list items

/-- The alternatives that make sense among entries from a position on, each with its position. -/
def alternativesFrom (index : Nat) : List Json → List (Nat × Alternative)
  | [] => []
  | entry :: rest =>
    match Alternative.ofEntry entry with
    | .ok (some a) => (index, a) :: alternativesFrom (index + 1) rest
    | _ => alternativesFrom (index + 1) rest

/-! ### The course of a branching action -/

/-- The questions of alternatives have been asked in turn, and none of them holds. -/
inductive Refuted : List (Nat × Alternative) → List (PageCall × Except Fault Json) → Prop
  | nil : Refuted [] []
  | cons {index : Nat} {a : Alternative} {answer : Except Fault Json}
      {rest : List (Nat × Alternative)} {qs : List (PageCall × Except Fault Json)}
      (h : ∀ reply, answer = .ok reply → reply.truthy = false) (hrest : Refuted rest qs) :
      Refuted ((index, a) :: rest) ((a.question, answer) :: qs)

theorem Refuted.append {xs ys : List (Nat × Alternative)}
    {qs qs' : List (PageCall × Except Fault Json)} (h : Refuted xs qs) (h' : Refuted ys qs') :
    Refuted (xs ++ ys) (qs ++ qs') := by
  induction h with
  | nil => exact h'
  | cons hno _ ih => exact .cons hno ih

/-- A branch. -/
inductive Choice where
  /-- The own element is in its state. -/
  | if
  | alternative (index : Nat) (a : Alternative)
  /-- None holds. -/
  | otherwise

/-- The list of a branch. -/
def Choice.list (params : Fields) : Choice → List Json
  | .if => Fields.listAt params "if_actions"
  | .alternative _ a => a.list
  | .otherwise => Fields.listAt params "else_actions"

/-- How the identifiers of the actions of a branch begin. -/
def Choice.stem (frame : Frame) : Choice → String
  | .if => s!"{idStem frame}-if"
  | .alternative index _ => s!"{idStem frame}-else_if-{index}"
  | .otherwise => s!"{idStem frame}-else"

/-- The report about a branch. Nothing is noted about an empty list when none holds. -/
def Choice.note (params : Fields) : Choice → Fields → Fields
  | .if, f => Fields.set f "branch" (.text "if")
  | .alternative index _, f => Fields.set f "branch" (.text s!"else_if[{index}]")
  | .otherwise, f =>
    if (Fields.listAt params "else_actions").isEmpty then f
    else Fields.set f "branch" (.text "else")

section Course

variable (ctx : LoopContext) (nested : Dispatcher) (frame : Frame) (params : Fields)

/-- The error of a branching action without a page. -/
def pageless : Failure :=
  .error (.browser "playwright:if_else requires a browser page" (some "playwright:if_else") none)

/-- Which questions are asked, with which replies, and which branch is chosen. -/
inductive Evaluates (primary : PageCall) (alternatives : List (Nat × Alternative)) :
    List (PageCall × Except Fault Json) → Except Failure Choice → Prop
  | pageless (h : ctx.hasPage = false) : Evaluates primary alternatives [] (.error pageless)
  | failed {f : Fault} : Evaluates primary alternatives [(primary, .error f)] (.error (.fault f))
  | if {reply : Json} (h : reply.truthy = true) :
      Evaluates primary alternatives [(primary, .ok reply)] (.ok .if)
  /-- The alternatives before the one that is chosen do not hold, and none after it is asked for. -/
  | alternative {reply yes : Json} {qs : List (PageCall × Except Fault Json)}
      {before after : List (Nat × Alternative)} {index : Nat} {a : Alternative}
      (h : reply.truthy = false) (halternatives : alternatives = before ++ (index, a) :: after)
      (hbefore : Refuted before qs) (hyes : yes.truthy = true) :
      Evaluates primary alternatives
        ((primary, .ok reply) :: (qs ++ [(a.question, .ok yes)])) (.ok (.alternative index a))
  | otherwise {reply : Json} {qs : List (PageCall × Except Fault Json)} (h : reply.truthy = false)
      (hall : Refuted alternatives qs) :
      Evaluates primary alternatives ((primary, .ok reply) :: qs) (.ok .otherwise)

/-- The branch that is chosen is run and noted, and nothing is run if there is none. -/
inductive Carries (f : Fields) (s : LoopState) :
    Except Failure Choice → List Deed → Except Failure Unit → Fields → LoopState → Prop
  | fails {e : Failure} : Carries f s (.error e) [] (.error e) f s
  | runs {choice : Choice} {t : List Deed} {r : Except Failure Unit} {s' : LoopState}
      (h : Action.Runs nested frame (choice.stem frame) none 0 (choice.list params) s t r s') :
      Carries f s (.ok choice) t r (choice.note params f) s'

/-- What is run in the end. -/
abbrev RunsFinal : LoopState → List Deed → Except Failure Unit → LoopState → Prop :=
  Action.Runs nested frame s!"{idStem frame}-final" none 0 (Fields.listAt params "final_actions")

end Course

section Conclusion

variable (frame : Frame) (Final : LoopState → List Deed → Except Failure Unit → LoopState → Prop)

/-- What a branching action comes to: the failure of its branch goes before that of its final
actions. -/
def verdict : Except Failure Unit → Except Failure Unit → Except Failure String
  | .error e, _ => .error e
  | .ok (), .error e => .error e
  | .ok (), .ok () => .ok "Successfully completed conditional logic"

/-- A failure of the final actions that does not count is logged. -/
def lost : Except Failure Unit → Except Failure Unit → List Deed
  | .error _, .error e => [.call (.log (.warning "final_actions_failed"
      [("action_id", .text frame.actionId), ("error", .text e.text)])) ()]
  | _, _ => []

/-- After the branch the final actions are run, and then it is clear what the action comes to. An
interruption from outside ends it at once. -/
inductive Concludes (s : LoopState) :
    Except Failure Unit → List Deed → Except Failure String → LoopState → Prop
  | interrupted : Concludes s (.error .interrupted) [] (.error .interrupted) s
  | broken {r : Except Failure Unit} {t : List Deed} {s' : LoopState}
      (h : r ≠ .error .interrupted) (hruns : Final s t (.error .interrupted) s') :
      Concludes s r t (.error .interrupted) s'
  | ended {r r' : Except Failure Unit} {t : List Deed} {s' : LoopState}
      (h : r ≠ .error .interrupted) (hruns : Final s t r' s') (h' : r' ≠ .error .interrupted) :
      Concludes s r (t ++ lost frame r r') (verdict r r') s'

end Conclusion

variable {ctx : LoopContext} {nested : Dispatcher} {frame : Frame} {f f' : Fields}
  {s s' : LoopState} {t : List Deed}

/-- Some alternatives are gone through, and none of them holds. -/
structure Passes (ctx : LoopContext) (alternatives : List (Nat × Alternative)) (t : List Deed) :
    Prop where
  considers : ∀ d ∈ t, d.Considers ctx.loopIndex
  refuted : Refuted alternatives (asked t)

theorem passes_nil (ctx : LoopContext) : Passes ctx [] [] := ⟨List.forall_mem_nil _, .nil⟩

theorem passes_log (ctx : LoopContext) (record : LogRecord) :
    Passes ctx [] [.call (.log record) ()] :=
  ⟨List.forall_mem_singleton.mpr trivial, .nil⟩

theorem passes_page (ctx : LoopContext) (index : Nat) (a : Alternative) (answer : Except Fault Json)
    (h : ∀ reply, answer = .ok reply → reply.truthy = false) :
    Passes ctx [(index, a)] [.call (.page ctx.loopIndex a.question) answer] :=
  ⟨List.forall_mem_singleton.mpr rfl, .cons h .nil⟩

theorem Passes.append {xs ys : List (Nat × Alternative)} {t' : List Deed} (h : Passes ctx xs t)
    (h' : Passes ctx ys t') : Passes ctx (xs ++ ys) (t ++ t') :=
  ⟨List.forall_mem_append.mpr ⟨h.considers, h'.considers⟩,
    asked_append t t' ▸ h.refuted.append h'.refuted⟩

/-- What comes of alternatives: none of them holds, or the first one that holds is run. -/
inductive Seeks (ctx : LoopContext) (nested : Dispatcher) (frame : Frame) (params : Fields)
    (alternatives : List (Nat × Alternative)) (f : Fields) (s : LoopState) :
    List Deed → Except Failure Bool → Fields → LoopState → Prop
  | none {t : List Deed} (h : Passes ctx alternatives t) :
      Seeks ctx nested frame params alternatives f s t (.ok false) f s
  | found {before after : List (Nat × Alternative)} {index : Nat} {a : Alternative}
      {t t' : List Deed} {yes : Json} {r : Except Failure Unit} {f' : Fields} {s' : LoopState}
      (halternatives : alternatives = before ++ (index, a) :: after)
      (hbefore : Passes ctx before t) (hyes : yes.truthy = true)
      (h : Carries nested frame params f s (.ok (.alternative index a)) t' r f' s') :
      Seeks ctx nested frame params alternatives f s
        (t ++ .call (.page ctx.loopIndex a.question) (.ok yes) :: t') (r.map fun _ => true) f' s'

theorem seeks_first {index : Nat} {a : Alternative} {rest : List (Nat × Alternative)} {yes : Json}
    {r : Except Failure Unit} (hyes : yes.truthy = true)
    (h : Carries nested frame params f s (.ok (.alternative index a)) t r f' s') :
    Seeks ctx nested frame params ((index, a) :: rest) f s
      (.call (.page ctx.loopIndex a.question) (.ok yes) :: t) (r.map fun _ => true) f' s' :=
  .found (List.nil_append _).symm (passes_nil ctx) hyes h

/-- Alternatives are gone through first. -/
theorem Seeks.after {xs ys : List (Nat × Alternative)} {t' : List Deed} {r : Except Failure Bool}
    (h : Passes ctx xs t) (hrest : Seeks ctx nested frame params ys f s t' r f' s') :
    Seeks ctx nested frame params (xs ++ ys) f s (t ++ t') r f' s' := by
  cases hrest with
  | none hnone => exact .none (h.append hnone)
  | found halternatives hbefore hyes hcarries =>
    rw [halternatives, ← List.append_assoc, ← List.append_assoc]
    exact .found rfl (h.append hbefore) hyes hcarries

/-- A branch is noted and run. -/
theorem carries_of_ends {choice : Choice} {name : String} {items : Json} {r : Except Failure Unit}
    (hname : choice.note params f = Fields.set f "branch" (.text name))
    (hitems : Action.entries items = .ok (choice.list params))
    (h : (take name >>= fun _ => Work.lift
      (Action.runNested nested frame items (choice.stem frame) none)).Ends f s t r f' s') :
    Carries nested frame params f s (.ok choice) t r f' s' := by
  rcases Work.ends_bind_iff.mp h with ⟨t₁, _, f₁, s₁, t₂, rfl, h₁, h₂⟩ | ⟨e, h₁, -⟩
  · obtain ⟨rfl, -, rfl, rfl⟩ := Work.ends_report_iff.mp h₁
    obtain ⟨hends, rfl⟩ := Work.ends_lift_iff.mp h₂
    rw [Action.runNested, hitems] at hends
    rw [← hname]
    exact .runs (Action.runs_of_ends hends)
  · obtain ⟨-, hr, -⟩ := Work.ends_report_iff.mp h₁
    cases hr

/-- The alternatives are gone through up to the first one that holds. -/
theorem seeks_of_ends {index : Nat} {entries : List Json} {r : Except Failure Bool}
    (hplain : ∀ entry ∈ entries, Alternative.Plain entry)
    (h : (runAlternatives ctx nested frame (idStem frame) index entries).Ends f s t r f' s') :
    Seeks ctx nested frame params (alternativesFrom index entries) f s t r f' s' := by
  induction entries generalizing index t with
  | nil =>
    obtain ⟨rfl, rfl, rfl, rfl⟩ := Work.ends_pure_iff.mp h
    exact .none (passes_nil ctx)
  | cons entry rest ih =>
    obtain ⟨hentry, hrest⟩ := List.forall_mem_cons.mp hplain
    obtain ⟨found, hfound⟩ := hentry.exists_eq_ok
    have hrestends {t : List Deed} (h : (runAlternatives ctx nested frame (idStem frame)
        (index + 1) rest).Ends f s t r f' s') := ih hrest h
    rw [runAlternatives, hfound] at h
    rw [alternativesFrom, hfound]
    cases found with
    | none =>
      obtain ⟨_, t', rfl, h'⟩ := Work.ends_ask_bind_iff.mp h
      exact .after (passes_log ctx _) (hrestends h')
    | some a =>
      obtain ⟨answer, t', rfl, h'⟩ := Work.ends_ask_bind_iff.mp h
      cases answer with
      | error fault =>
        obtain ⟨_, t'', rfl, h''⟩ := Work.ends_ask_bind_iff.mp h'
        exact .after (passes_page ctx index a (.error fault) nofun)
          (.after (passes_log ctx _) (hrestends h''))
      | ok reply =>
        dsimp only at h'
        split at h'
        · rename_i hyes
          rw [← bind_assoc] at h'
          have hcarries {t₁ : List Deed} {r₁ : Except Failure Unit} {f₁ : Fields} {s₁ : LoopState}
              (h₁ : (take s!"else_if[{index}]" >>= fun _ => Work.lift (Action.runNested nested
                frame a.actions s!"{idStem frame}-else_if-{index}" none)).Ends f s t₁ r₁ f₁ s₁) :
              Carries nested frame params f s (.ok (.alternative index a)) t₁ r₁ f₁ s₁ :=
            carries_of_ends rfl (hentry.entries_eq hfound) h₁
          rcases Work.ends_bind_iff.mp h' with ⟨t₁, _, f₁, s₁, t₂, rfl, h₁, h₂⟩ | ⟨e, h₁, rfl⟩
          · obtain ⟨rfl, rfl, rfl, rfl⟩ := Work.ends_pure_iff.mp h₂
            rw [List.append_nil]
            exact seeks_first hyes (hcarries h₁)
          · exact seeks_first hyes (hcarries h₁)
        · rename_i hno
          refine .after (passes_page ctx index a _ fun _ hreply => ?_) (hrestends h')
          cases hreply
          simpa using hno

/-- The own element is asked for when there is a page. -/
theorem ends_request {c : PageCall} {r : Except Failure Json}
    (h : (Browser.request "playwright:if_else" ctx c).Ends f s t r f' s') : f' = f ∧ s' = s ∧
      (ctx.hasPage = false ∧ t = [] ∧ r = .error pageless ∨
        ∃ answer, t = [.call (.page ctx.loopIndex c) answer] ∧
          r = answer.mapError Failure.fault) := by
  rw [Browser.request, Browser.requirePage] at h
  cases hpage : ctx.hasPage with
  | false =>
    rw [hpage] at h
    rcases Work.ends_bind_iff.mp h with ⟨_, _, _, _, _, rfl, h₁, -⟩ | ⟨e, h₁, rfl⟩
    · obtain ⟨-, hr, -⟩ := Act.ends_fail_iff.mp (Work.ends_lift_iff.mp h₁).1
      cases hr
    · obtain ⟨hends, rfl⟩ := Work.ends_lift_iff.mp h₁
      obtain ⟨rfl, hr, rfl⟩ := Act.ends_fail_iff.mp hends
      cases hr
      exact ⟨rfl, rfl, .inl ⟨rfl, rfl, rfl⟩⟩
  | true =>
    rw [hpage] at h
    obtain ⟨hends, rfl⟩ := Work.ends_lift_iff.mp h
    obtain ⟨answer, t', rfl, h'⟩ := Act.ends_ask_bind_iff.mp hends
    cases answer with
    | ok reply =>
      obtain ⟨rfl, rfl, rfl⟩ := Act.ends_pure_iff.mp h'
      exact ⟨rfl, rfl, .inr ⟨.ok reply, rfl, rfl⟩⟩
    | error fault =>
      obtain ⟨rfl, rfl, rfl⟩ := Act.ends_fail_iff.mp h'
      exact ⟨rfl, rfl, .inr ⟨.error fault, rfl, rfl⟩⟩

/-- A branch is chosen and run. -/
def Branches (ctx : LoopContext) (nested : Dispatcher) (frame : Frame) (params : Fields)
    (primary : PageCall) (f : Fields) (s : LoopState) (t : List Deed) (r : Except Failure Unit)
    (f' : Fields) (s' : LoopState) : Prop :=
  ∃ t₁ t₂ outcome, t = t₁ ++ t₂ ∧ (∀ d ∈ t₁, d.Considers ctx.loopIndex) ∧
    Evaluates ctx primary (alternativesFrom 0 (Fields.listAt params "else_if_conditions"))
      (asked t₁) outcome ∧
    Carries nested frame params f s outcome t₂ r f' s'

section Branches

variable {primary : PageCall} {reply : Json} {r : Except Failure Unit}
  (hvalid : kind.validate config = .ok params)
  (hplain : ∀ entry ∈ Fields.listAt params "else_if_conditions", Alternative.Plain entry)

include hvalid

/-- None of the alternatives holds. -/
theorem carries_otherwise
    (h : (let otherwise := Browser.param params "else_actions"
      if otherwise.truthy then do
        take "else"
        Work.lift (Action.runNested nested frame otherwise s!"{idStem frame}-else" none)
      else pure () : Work Unit).Ends f s t r f' s') :
    Carries nested frame params f s (.ok .otherwise) t r f' s' := by
  rw [hasList_else.param_eq hvalid] at h
  dsimp only at h
  split at h
  · rename_i htruthy
    refine carries_of_ends (if_neg ?_) (Action.entries_list _) h
    simpa [Json.truthy] using htruthy
  · rename_i hempty
    have hnil : Fields.listAt params "else_actions" = [] := by simpa [Json.truthy] using hempty
    obtain ⟨rfl, rfl, rfl, rfl⟩ := Work.ends_pure_iff.mp h
    have hruns : Action.Runs nested frame (Choice.stem frame .otherwise) none 0
        (Choice.list params .otherwise) s' [] (.ok ()) s' := by
      rw [Choice.list, hnil]
      exact .done
    have hnote : Choice.note params .otherwise f' = f' := if_pos (List.isEmpty_iff.mpr hnil)
    have hcarries : Carries nested frame params f' s' _ _ _ _ _ := .runs hruns
    rwa [hnote] at hcarries

omit hvalid in
/-- The own element is not in its state. Then no alternative holds, or the first one that does is
the branch. -/
theorem Seeks.passes_or_branches {r : Except Failure Bool} (hno : reply.truthy = false)
    (h : Seeks ctx nested frame params
      (alternativesFrom 0 (Fields.listAt params "else_if_conditions")) f s t r f' s') :
    (r = .ok false ∧ f' = f ∧ s' = s ∧
      Passes ctx (alternativesFrom 0 (Fields.listAt params "else_if_conditions")) t) ∨
    ∃ r₁ : Except Failure Unit, r = r₁.map (fun _ => true) ∧
      Branches ctx nested frame params primary f s
        (.call (.page ctx.loopIndex primary) (.ok reply) :: t) r₁ f' s' := by
  cases h with
  | none hnone => exact .inl ⟨rfl, rfl, rfl, hnone⟩
  | @found before after index a t t' yes r₁ f' s' halternatives hbefore hyes hcarries =>
    refine .inr ⟨r₁, rfl, .call (.page ctx.loopIndex primary) (.ok reply) ::
      (t ++ [.call (.page ctx.loopIndex a.question) (.ok yes)]), t', _, by simp,
      List.forall_mem_cons.mpr ⟨rfl, List.forall_mem_append.mpr ⟨hbefore.considers, ?_⟩⟩, ?_,
      hcarries⟩
    · exact List.forall_mem_singleton.mpr rfl
    · change Evaluates ctx primary _ ((primary, .ok reply) :: asked (t ++ [_])) _
      rw [asked_append]
      exact .alternative hno halternatives hbefore.refuted hyes

include hplain

/-- The own element is not in its state, and so the alternatives are gone through. -/
theorem branches_of_others (hno : reply.truthy = false)
    (h : (do
      if !(← runAlternatives ctx nested frame (idStem frame) 0
          (Fields.listAt params "else_if_conditions")) then
        let otherwise := Browser.param params "else_actions"
        if otherwise.truthy then
          take "else"
          Work.lift (Action.runNested nested frame otherwise s!"{idStem frame}-else" none)
      : Work Unit).Ends f s t r f' s') :
    Branches ctx nested frame params primary f s
      (.call (.page ctx.loopIndex primary) (.ok reply) :: t) r f' s' := by
  rcases Work.ends_bind_iff.mp h with ⟨t₁, found, f₁, s₁, t₂, rfl, h₁, h₂⟩ | ⟨e, h₁, rfl⟩
  · rcases (seeks_of_ends hplain h₁).passes_or_branches hno with
      ⟨hr, rfl, rfl, hnone⟩ | ⟨_ | _, hr, hbranches⟩
    · cases hr
      exact ⟨_ :: t₁, t₂, _, rfl, List.forall_mem_cons.mpr ⟨rfl, hnone.considers⟩,
        .otherwise hno hnone.refuted, carries_otherwise hvalid h₂⟩
    · cases hr
    · cases hr
      obtain ⟨rfl, rfl, rfl, rfl⟩ := Work.ends_pure_iff.mp h₂
      rw [List.append_nil]
      exact hbranches
  · rcases (seeks_of_ends hplain h₁).passes_or_branches hno with
      ⟨hr, -⟩ | ⟨_ | _, hr, hbranches⟩ <;> cases hr
    exact hbranches

theorem branches_of_ends {selector : String} {state : ElementState}
    (hselector : Fields.get? params "selector" = some (.text selector))
    (hstate : Fields.get? params "condition_type" = some (.text state.word))
    (h : (runBranch ctx nested frame params (idStem frame)).Ends f s t r f' s') :
    Branches ctx nested frame params (question (.text selector) state) f s t r f' s' := by
  have hread : ElementState.read (Fields.textAt params "condition_type") = .ok state := by
    rw [Fields.textAt, hstate, ElementState.read, ElementState.ofWord?_word]
  have hparam : Browser.param params "selector" = .text selector := by
    rw [Browser.param, hselector]
    rfl
  have hif := hasList_if.entries_eq hvalid
  rw [runBranch, hread, hparam, Work.ofExcept_ok_bind] at h
  rcases Work.ends_bind_iff.mp h with ⟨t₁, reply, f₁, s₁, t₂, rfl, h₁, h₂⟩ | ⟨e, h₁, rfl⟩
  · obtain ⟨rfl, rfl, ⟨-, -, hr⟩ | ⟨answer, rfl, hr⟩⟩ := ends_request h₁
    · cases hr
    obtain rfl : answer = .ok reply := eq_ok_of_mapError hr.symm
    split at h₂
    · rename_i hyes
      exact ⟨[_], t₂, _, rfl, List.forall_mem_singleton.mpr rfl, .if hyes,
        carries_of_ends rfl hif h₂⟩
    · rename_i hno
      exact branches_of_others hvalid hplain (by simpa using hno) h₂
  · obtain ⟨rfl, rfl, ⟨hpage, rfl, hr⟩ | ⟨answer, rfl, hr⟩⟩ := ends_request h₁
    · cases hr
      exact ⟨[], [], _, rfl, List.forall_mem_nil _, .pageless hpage, .fails⟩
    · cases answer with
      | ok reply => cases hr
      | error fault =>
        cases hr
        exact ⟨_, [], _, (List.append_nil _).symm, List.forall_mem_singleton.mpr rfl, .failed,
          .fails⟩

end Branches

/-- What a branching action does after its branch. -/
def finish (frame : Frame) (final : Act Unit) (branchFailure : Option Failure) : Work String := do
  let finalFailure ← Work.attempt (Work.lift final)
  match branchFailure, finalFailure with
  | none, none => return "Successfully completed conditional logic"
  | some e, none | none, some e => throw e
  | some e, some final =>
    Work.lift (Act.log (.warning "final_actions_failed"
      [("action_id", .text frame.actionId), ("error", .text final.text)]))
    throw e

/-- After a branch that has not been interrupted comes what is run in the end. -/
theorem concludes_of_finish {final : Act Unit} {r₁ : Except Failure Unit}
    {r : Except Failure String} (hkept : failureOf r₁ ≠ some .interrupted)
    (h : (finish frame final (failureOf r₁)).Ends f s t r f' s') :
    Concludes frame final.Ends s r₁ t r s' ∧ f' = f := by
  have hne₁ : r₁ ≠ .error .interrupted := fun heq => hkept (congrArg failureOf heq)
  rcases Work.ends_bind_iff.mp h with ⟨t₁, failure, f₁, s₁, t₂, rfl, h₁, h₂⟩ | ⟨e, h₁, rfl⟩
  · obtain ⟨r₂, hends, ⟨hr, -⟩ | ⟨hr, hne⟩⟩ := ends_attempt h₁
    · cases hr
    cases hr
    obtain ⟨hfinal, rfl⟩ := Work.ends_lift_iff.mp hends
    have hne₂ : r₂ ≠ .error .interrupted := fun heq => hne (congrArg failureOf heq)
    suffices hlast : t₂ = lost frame r₁ r₂ ∧ r = verdict r₁ r₂ ∧ f' = f₁ ∧ s' = s₁ by
      obtain ⟨rfl, rfl, rfl, rfl⟩ := hlast
      exact ⟨.ended hne₁ hfinal hne₂, rfl⟩
    match r₁, r₂ with
    | .ok (), .ok () => exact Work.ends_pure_iff.mp h₂
    | .ok (), .error final => exact Work.ends_throw_iff.mp h₂
    | .error e, .ok () => exact Work.ends_throw_iff.mp h₂
    | .error e, .error final =>
      obtain ⟨_, t₃, rfl, h₃⟩ := Work.ends_ask_bind_iff.mp h₂
      obtain ⟨rfl, rfl, rfl, rfl⟩ := Work.ends_throw_iff.mp h₃
      exact ⟨rfl, rfl, rfl, rfl⟩
  · obtain ⟨r₂, hends, ⟨hr, rfl⟩ | ⟨hr, -⟩⟩ := ends_attempt h₁
    · cases hr
      obtain ⟨hfinal, rfl⟩ := Work.ends_lift_iff.mp hends
      exact ⟨.broken hne₁ hfinal, rfl⟩
    · cases hr

/-- The final actions are a list that is run. -/
theorem Concludes.of_runNested {r₁ : Except Failure Unit} {r : Except Failure String}
    (hvalid : kind.validate config = .ok params)
    (h : Concludes frame (Action.runNested nested frame (Browser.param params "final_actions")
      s!"{idStem frame}-final" none).Ends s r₁ t r s') :
    Concludes frame (RunsFinal nested frame params) s r₁ t r s' := by
  have hruns {t : List Deed} {r : Except Failure Unit} {s' : LoopState}
      (h : (Action.runNested nested frame (Browser.param params "final_actions")
        s!"{idStem frame}-final" none).Ends s t r s') :
      RunsFinal nested frame params s t r s' := by
    rw [Action.runNested, hasList_final.entries_eq hvalid] at h
    exact Action.runs_of_ends h
  cases h with
  | interrupted => exact .interrupted
  | broken h hfinal => exact .broken h (hruns hfinal)
  | ended h hfinal h' => exact .ended h (hruns hfinal) h'

/-- **Branching.** A branching action whose configuration is accepted, and whose alternatives are
plain, comes to an end whatever it is told. It asks for its own element, and then for those of the
alternatives that make sense, in their order and up to the first one that holds; one whose element
cannot be looked at does not hold. It runs one list at most: its first one, that of the alternative,
or its last one when none holds, and none when the first question fails. Then it runs its final
actions, unless it is interrupted from outside. The failure of the branch is its failure, and that
of the final actions when the branch has not failed. -/
theorem branch_law (ctx : LoopContext) (nested : Dispatcher) (frame : Frame)
    (hvalid : kind.validate config = .ok params)
    (hplain : ∀ entry ∈ Fields.listAt params "else_if_conditions", Alternative.Plain entry) :
    ∃ selector state, Fields.get? params "selector" = some (.text selector) ∧
      Fields.get? params "condition_type" = some (.text (ElementState.word state)) ∧
      (∀ (answers : Answers) f s, ∃ t r f' s',
        (kind.behave ctx nested frame params).Ends f s t r f' s' ∧ answers.Give [] t) ∧
      ∀ f s t r f' s', (kind.behave ctx nested frame params).Ends f s t r f' s' →
        ∃ t₁ t₂ t₃ outcome r₁ s₁, t = t₁ ++ (t₂ ++ t₃) ∧
          (∀ d ∈ t₁, d.Considers ctx.loopIndex) ∧
          Evaluates ctx (question (.text selector) state)
            (alternativesFrom 0 (Fields.listAt params "else_if_conditions")) (asked t₁) outcome ∧
          Carries nested frame params f s outcome t₂ r₁ f' s₁ ∧
          Concludes frame (RunsFinal nested frame params) s₁ r₁ t₃ r s' := by
  obtain ⟨selector, state, hselector, hstate⟩ := named_of_validate hvalid
  refine ⟨selector, state, hselector, hstate, fun answers f s => ?_, fun f s t r f' s' h => ?_⟩
  · obtain ⟨t, ⟨⟨r, f'⟩, s'⟩, hends, hgive⟩ := Program.exists_ends_given
      (((kind.behave ctx nested frame params).run.run f).run s) answers []
    exact ⟨t, r, f', s', hends, hgive⟩
  · rcases Work.ends_bind_iff.mp h with ⟨t₁, failure, f₁, s₁, t₂, rfl, h₁, h₂⟩ | ⟨e, h₁, rfl⟩
    · obtain ⟨r₁, hends, ⟨hr, -⟩ | ⟨hr, hkept⟩⟩ := ends_attempt h₁
      · cases hr
      cases hr
      obtain ⟨t₃, t₄, outcome, rfl, hconsiders, hevaluates, hcarries⟩ :=
        branches_of_ends hvalid hplain hselector hstate hends
      obtain ⟨hconcludes, rfl⟩ := concludes_of_finish hkept h₂
      exact ⟨t₃, t₄, t₂, outcome, r₁, s₁, List.append_assoc .., hconsiders, hevaluates, hcarries,
        hconcludes.of_runNested hvalid⟩
    · obtain ⟨r₁, hends, ⟨hr, rfl⟩ | ⟨hr, -⟩⟩ := ends_attempt h₁
      · cases hr
        obtain ⟨t₃, t₄, outcome, rfl, hconsiders, hevaluates, hcarries⟩ :=
          branches_of_ends hvalid hplain hselector hstate hends
        exact ⟨t₃, t₄, [], outcome, _, s', by simp, hconsiders, hevaluates, hcarries, .interrupted⟩
      · cases hr

/-! ### An action with an alternative -/

/-- An action that is held. -/
def logged (id : String) : Json :=
  .object [("action_type", .text "playwright:log"), ("id", .text id)]

/-- Alternatives of which one makes sense. -/
def others : List Json := [.text "#b", .object [("selector", .text "#b"),
  ("condition_type", .text "is_checked"), ("actions", .list [logged "first"])]]

/-- A branching action with an alternative and a final action. -/
def either : Fields := [("selector", .text "#a"), ("condition_type", .text "is_visible"),
  ("else_if_conditions", .list others), ("final_actions", .list [logged "last"])]

/-- The action as it is once its configuration has been accepted. -/
def eitherParams : Fields := [("selector", .text "#a"), ("condition_type", .text "is_visible"),
  ("if_actions", .list []), ("else_if_conditions", .list others), ("else_actions", .list []),
  ("final_actions", .list [logged "last"])]

/-- Actions that are only noted do not fail. -/
theorem eq_ok_of_runs_noting {idStem : String} {i : Nat} {es : List Json}
    {r : Except Failure Unit}
    (h : Action.Runs LoopUntil.noting frame idStem none i es s t r s') : r = .ok () := by
  generalize hcheckpoint : none = checkpoint at h
  induction h with
  | done => rfl
  | stopped hstop => rw [← hcheckpoint] at hstop; cases hstop
  | passed _ _ ih => exact ih
  | failed _ h =>
    obtain ⟨_, -, hr, -⟩ := Act.ends_ask_iff.mp h
    cases hr
  | next _ _ _ ih => exact ih

/-- Whatever the page says, the final action is noted. -/
theorem either_concludes : kind.validate (.object either) = .ok eitherParams ∧
    (∀ entry ∈ Fields.listAt eitherParams "else_if_conditions", Alternative.Plain entry) ∧
    ∀ ctx frame f s t r f' s',
      (kind.behave ctx LoopUntil.noting frame eitherParams).Ends f s t r f' s' →
      .call (.log (.warning "dispatched" [("action_id", .text "last")])) () ∈ t := by
  have hvalid : kind.validate (.object either) = .ok eitherParams := rfl
  have hplain : ∀ entry ∈ Fields.listAt eitherParams "else_if_conditions",
      Alternative.Plain entry := by
    refine List.forall_mem_cons.mpr ⟨nofun, List.forall_mem_singleton.mpr ?_⟩
    rintro fields ⟨⟩
    exact ⟨.inr ⟨_, rfl⟩, .inr ⟨_, rfl⟩⟩
  refine ⟨hvalid, hplain, fun ctx frame f s t r f' s' h => ?_⟩
  obtain ⟨_, _, -, -, -, hlaw⟩ := branch_law ctx LoopUntil.noting frame hvalid hplain
  obtain ⟨t₁, t₂, t₃, outcome, r₁, s₁, rfl, -, hevaluates, hcarries, hconcludes⟩ :=
    hlaw _ _ _ _ _ _ h
  have hnoted {t : List Deed} {r : Except Failure Unit} {s' : LoopState}
      (h : RunsFinal LoopUntil.noting frame eitherParams s₁ t r s') :
      .call (.log (.warning "dispatched" [("action_id", .text "last")])) () ∈ t := by
    cases h with
    | stopped hstop => cases hstop
    | passed hentry => cases hentry
    | failed _ h =>
      obtain ⟨_, -, hr, -⟩ := Act.ends_ask_iff.mp h
      cases hr
    | next hentry h =>
      cases hentry
      obtain ⟨_, rfl, -, -⟩ := Act.ends_ask_iff.mp h
      exact List.mem_cons_self
  cases hconcludes with
  | interrupted =>
    cases hcarries with
    | fails =>
      generalize asked t₁ = qs at hevaluates
      cases hevaluates
    | runs h => cases eq_ok_of_runs_noting h
  | broken _ h => simp [hnoted h]
  | ended _ h _ => simp [hnoted h]

end IfElse

end Runbook
