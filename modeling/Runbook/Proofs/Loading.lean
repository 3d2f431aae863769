import Runbook.Definition.File
import Runbook.Proofs.Entries
import Runbook.Proofs.Natives
import Runbook.Proofs.Valueless

/-!
# Loading definitions

Whatever is wrong with a definition ought to be told as an error of its configuration. Three layers
take a definition apart, and each of them tells what it objects to in that way: the reader of the
file's format, the form, and the settings. Two things come through as faults all the same, and both
are values that YAML can write and JSON cannot: a scalar that promises a value which does not exist,
and a value of a variable that has no JSON text.

* `Definition.Unwritable x type`: a definition holds a variable with a value of such a type.
* `Definition.Breaks path content f`: a file cannot be loaded for one of these reasons.
* `Definition.WellFormed x`: a definition has the right form, and all of it can be read.
* `Definition.loading`: there is an automation or an error of configuration unless there is such a
  reason, and then its fault; an automation exactly when the definition is well formed.
-/

namespace Runbook

/-- An error of configuration. -/
def Failure.IsConfig (e : Failure) : Prop := ∃ r place, e = .error r ∧ r.kind = .config place

/-! ### Settings -/

theorem ConfigFault.isConfig_toFailure {fault : ConfigFault}
    (h : ∀ type, fault ≠ .unwritable type) : fault.toFailure.IsConfig := by
  cases fault with
  | unwritable type => exact absurd rfl (h type)
  | _ => exact ⟨_, none, rfl, rfl⟩

namespace AutomationConfig

/-- The type of the first value of a variable in some settings that has no JSON text. -/
def UnwritableIn (settings : Json) (type : String) : Prop :=
  ∃ fields, settings = .object fields ∧ unwritableValue? fields = some type

theorem ofObject_eq_unwritable_iff {fields : Fields} {type : String} :
    ofObject fields = .error (.unwritable type) ↔ unwritableValue? fields = some type := by
  unfold ofObject
  split
  · rename_i hempty
    rw [List.isEmpty_iff] at hempty
    simp [hempty, unwritableValue?, Fields.listAt, Fields.get?]
  · cases hvalue : unwritableValue? fields with
    | some other => simp
    | none =>
      dsimp only
      split <;> simp

/-- Settings written as JSON text hold no value without JSON text. -/
theorem unwritableValue?_of_native {fields : Fields} (h : Json.Native (.object fields)) :
    unwritableValue? fields = none := by
  rw [unwritableValue?, List.findSome?_eq_none_iff]
  intro v hv
  rw [Option.bind_eq_none_iff]
  intro y hy
  exact (Json.native_of_mem_listAt h hv).get? hy

theorem parse_eq_unwritable_iff {settings : Json} {type : String} :
    parse settings = .error (.unwritable type) ↔ UnwritableIn settings type := by
  unfold UnwritableIn
  cases settings with
  | object fields => simp [parse, ofObject_eq_unwritable_iff]
  | text s =>
    simp only [reduceCtorEq, false_and, exists_false, iff_false]
    intro h
    unfold parse at h
    dsimp only at h
    split at h
    · cases h
    · split at h
      · cases h
      · rename_i fields hread
        rw [ofObject_eq_unwritable_iff, unwritableValue?_of_native (Json.native_of_read hread)] at h
        cases h
      · cases h
  | _ => simp [parse]

/-- What is refused with settings is refused as an error of configuration, or a value of a variable
has no JSON text. -/
theorem isConfig_or_unwritableIn {settings : Json} {e : Failure}
    (h : (parse settings).mapError ConfigFault.toFailure = .error e) :
    e.IsConfig ∨ ∃ type, UnwritableIn settings type := by
  cases hparse : parse settings with
  | ok config =>
    rw [hparse] at h
    cases h
  | error fault =>
    rw [hparse] at h
    cases h
    by_cases hfault : ∃ type, fault = .unwritable type
    · obtain ⟨type, rfl⟩ := hfault
      exact .inr ⟨type, parse_eq_unwritable_iff.mp hparse⟩
    · exact .inl (ConfigFault.isConfig_toFailure fun type h => hfault ⟨type, h⟩)

end AutomationConfig

namespace Definition

variable {source : Option String} {x : Json}

theorem isConfig_invalid (source : Option String) (message : String) :
    (invalid source message).IsConfig := ⟨_, source, rfl, rfl⟩

/-- A definition of the right form has a variable whose value has no JSON text; its type is told for
the first of them. -/
def Unwritable (x : Json) (type : String) : Prop :=
  Form.definition x = [] ∧ AutomationConfig.UnwritableIn
    ((Fields.get? (Fields.objectAt x.fields "automation") "config").getD .null) type

theorem Unwritable.exists_variable {type : String} (h : Unwritable x type) :
    ∃ settings v y, Fields.get? (Fields.objectAt x.fields "automation") "config" =
        some (.object settings) ∧ v ∈ Fields.listAt settings "variables" ∧
      v.get? "value" = some y ∧ y.foreignType? = some type := by
  obtain ⟨-, settings, hsettings, hvalue⟩ := h
  obtain ⟨v, hv, hy⟩ := List.exists_of_findSome?_eq_some hvalue
  obtain ⟨y, hget, htype⟩ := Option.bind_eq_some_iff.mp hy
  refine ⟨settings, v, y, ?_, hv, hget, htype⟩
  cases hconfig : Fields.get? (Fields.objectAt x.fields "automation") "config" with
  | none =>
    rw [hconfig] at hsettings
    cases hsettings
  | some config =>
    rw [hconfig] at hsettings
    exact congrArg some hsettings

theorem not_unwritable_of_native (h : x.Native) (type : String) : ¬Unwritable x type := by
  intro hx
  obtain ⟨settings, v, y, hsettings, hv, hy, htype⟩ := hx.exists_variable
  have hobject := Json.native_of_fieldsGet? (Json.native_objectAt h.fields "automation") hsettings
  rw [(Json.native_of_mem_listAt hobject hv).get? hy] at htype
  cases htype

/-! ### Parts -/

theorem isConfig_of_actionConfig {config? : Option Json} {e : Failure}
    (h : actionConfig source config? = .error e) : e.IsConfig := by
  unfold actionConfig at h
  split at h
  · cases h
  · split at h
    · cases h
    · split at h <;> cases h
      · exact isConfig_invalid ..
      · exact isConfig_invalid ..
  · cases h

/-- The configuration of an action can be read: as a text it is empty or writes an object. -/
def Readable (config? : Option Json) : Prop :=
  ∀ s, config? = some (.text s) → s = "" ∨ ∃ fields, Json.read s = .ok (.object fields)

theorem exists_actionConfig_iff {config? : Option Json} :
    (∃ config, actionConfig source config? = .ok config) ↔ Readable config? := by
  unfold actionConfig Readable
  split
  · simp
  · rename_i s
    split
    · simp_all
    · rename_i hne
      split <;> simp_all
  · rename_i hobject htext
    exact iff_of_true ⟨_, rfl⟩ fun s hs => absurd hs (htext s)

theorem exists_actions_iff {stepId : String} {position : Nat} {xs : List Json} :
    (∃ as, actions source stepId position xs = .ok as) ↔
      ∀ x ∈ xs, Readable (Fields.get? x.fields "action_config") := by
  induction xs generalizing position with
  | nil => simp [actions]
  | cons x xs ih =>
    rw [List.forall_mem_cons, ← ih, ← @exists_actionConfig_iff source]
    constructor
    · rintro ⟨as, h⟩
      obtain ⟨first, hfirst, h⟩ := Json.exists_of_bind_eq_ok h
      obtain ⟨config, hconfig, -⟩ := Json.exists_of_bind_eq_ok hfirst
      obtain ⟨rest, hrest, -⟩ := Json.exists_of_bind_eq_ok h
      exact ⟨⟨config, hconfig⟩, rest, hrest⟩
    · rintro ⟨⟨config, hconfig⟩, rest, hrest⟩
      simp only [actions, action, hconfig, hrest]
      exact ⟨_, rfl⟩

theorem exists_steps_iff {position : Nat} {xs : List Json} :
    (∃ ss, steps source position xs = .ok ss) ↔
      ∀ y ∈ xs, ∀ x ∈ Fields.listAt y.fields "actions",
        Readable (Fields.get? x.fields "action_config") := by
  induction xs generalizing position with
  | nil => simp [steps]
  | cons y xs ih =>
    rw [List.forall_mem_cons, ← ih]
    constructor
    · rintro ⟨ss, h⟩
      obtain ⟨first, hfirst, h⟩ := Json.exists_of_bind_eq_ok h
      obtain ⟨as, has, -⟩ := Json.exists_of_bind_eq_ok hfirst
      obtain ⟨rest, hrest, -⟩ := Json.exists_of_bind_eq_ok h
      exact ⟨exists_actions_iff.mp ⟨as, has⟩, rest, hrest⟩
    · rintro ⟨hactions, rest, hrest⟩
      obtain ⟨as, has⟩ : ∃ as, actions source (textOr y.fields "id" s!"step-{position}") 1
          (Fields.listAt y.fields "actions") = .ok as := exists_actions_iff.mpr hactions
      simp only [steps, step, has, hrest]
      exact ⟨_, rfl⟩

theorem isConfig_of_actions {stepId : String} {position : Nat} {xs : List Json} {e : Failure}
    (h : actions source stepId position xs = .error e) : e.IsConfig := by
  induction xs generalizing position with
  | nil => cases h
  | cons x xs ih =>
    rcases Json.exists_of_bind_eq_error h with h | ⟨first, -, h⟩
    · rcases Json.exists_of_bind_eq_error h with h | ⟨config, -, h⟩
      · exact isConfig_of_actionConfig h
      · cases h
    · rcases Json.exists_of_bind_eq_error h with h | ⟨rest, -, h⟩
      · exact ih h
      · cases h

theorem isConfig_of_steps {position : Nat} {xs : List Json} {e : Failure}
    (h : steps source position xs = .error e) : e.IsConfig := by
  induction xs generalizing position with
  | nil => cases h
  | cons x xs ih =>
    rcases Json.exists_of_bind_eq_error h with h | ⟨first, -, h⟩
    · rcases Json.exists_of_bind_eq_error h with h | ⟨as, -, h⟩
      · exact isConfig_of_actions h
      · cases h
    · rcases Json.exists_of_bind_eq_error h with h | ⟨rest, -, h⟩
      · exact ih h
      · cases h

theorem nearest?_eq_none_iff {ds : List Deviation} : Deviation.nearest? ds = none ↔ ds = [] := by
  cases ds with
  | nil => simp [Deviation.nearest?]
  | cons d ds =>
    rw [Deviation.nearest?]
    split <;> simp

theorem formError?_eq_none_iff : formError? source x = none ↔ Form.definition x = [] := by
  rw [formError?, Option.map_eq_none_iff, nearest?_eq_none_iff]

theorem exists_object_of_form (h : Form.definition x = []) : ∃ fields, x = .object fields := by
  have hshape := List.flatMap_eq_nil_iff.mp h (Form.ofShape [.object]) (by simp)
  cases x with
  | object fields => exact ⟨fields, rfl⟩
  | _ => cases hshape

/-! ### Definitions -/

/-- A definition is well formed: it has the form of one, its settings are accepted, and the
configurations of all its actions can be read. -/
structure WellFormed (x : Json) : Prop where
  form : Form.definition x = []
  settings : ∃ config, AutomationConfig.parse
    ((Fields.get? (Fields.objectAt x.fields "automation") "config").getD .null) = .ok config
  readable : ∀ y ∈ Fields.listAt x.fields "steps", ∀ a ∈ Fields.listAt y.fields "actions",
    Readable (Fields.get? a.fields "action_config")

theorem exists_read_iff :
    (∃ automation, Definition.read source x = .ok automation) ↔ WellFormed x := by
  constructor
  · rintro ⟨automation, h⟩
    have hsettings := (describes_of_read h).accepted
    rw [(describes_of_read h).config] at hsettings
    unfold Definition.read at h
    split at h
    · cases h
    · rename_i hform
      obtain ⟨config, -, h⟩ := Json.exists_of_bind_eq_ok h
      obtain ⟨ss, hss, -⟩ := Json.exists_of_bind_eq_ok h
      exact ⟨formError?_eq_none_iff.mp (Option.eq_none_iff_forall_ne_some.mpr hform), hsettings,
        exists_steps_iff.mp ⟨ss, hss⟩⟩
  · rintro ⟨hform, ⟨config, hparse⟩, hreadable⟩
    obtain ⟨ss, hss⟩ : ∃ ss, steps source 1 (Fields.listAt x.fields "steps") = .ok ss :=
      exists_steps_iff.mpr hreadable
    unfold Definition.read
    rw [@formError?_eq_none_iff source x |>.mpr hform]
    simp only [hparse, hss]
    exact ⟨_, rfl⟩

/-- A result is an automation of some sort or an error of configuration. -/
def Answers (P : Automation → Prop) : Except Failure Automation → Prop
  | .ok automation => P automation
  | .error e => e.IsConfig

theorem Answers.imp {P Q : Automation → Prop} (hPQ : ∀ automation, P automation → Q automation)
    {result : Except Failure Automation} (h : Answers P result) : Answers Q result := by
  cases result with
  | ok automation => exact hPQ automation h
  | error e => exact h

theorem not_answers_fault {P : Automation → Prop} {f : Fault} :
    ¬Answers P (.error (.fault f)) := by
  rintro ⟨r, place, heq, -⟩
  cases heq

theorem read_of_unwritable {type : String} (h : Unwritable x type) (source : Option String) :
    Definition.read source x = .error (.fault (.unwritable type)) := by
  obtain ⟨hform, hsettings⟩ := h
  unfold Definition.read
  rw [formError?_eq_none_iff.mpr hform]
  dsimp only
  rw [AutomationConfig.parse_eq_unwritable_iff.mpr hsettings]
  rfl

/-- A definition is answered for, or its settings hold a value that has no JSON text. -/
theorem answers_or_unwritable (source : Option String) (x : Json) :
    Answers (Describes source x) (Definition.read source x) ∨ ∃ type, Unwritable x type := by
  cases hread : Definition.read source x with
  | ok automation => exact .inl (describes_of_read hread)
  | error e =>
    unfold Definition.read at hread
    split at hread
    · rename_i hform
      cases hread
      obtain ⟨d, -, rfl⟩ := Option.map_eq_some_iff.mp hform
      exact .inl (isConfig_invalid ..)
    · rename_i hform
      have hform := formError?_eq_none_iff.mp (Option.eq_none_iff_forall_ne_some.mpr hform)
      rcases Json.exists_of_bind_eq_error hread with hsettings | ⟨config, -, hread⟩
      · exact (AutomationConfig.isConfig_or_unwritableIn hsettings).imp_right fun ⟨type, h⟩ =>
          ⟨type, hform, h⟩
      · rcases Json.exists_of_bind_eq_error hread with hsteps | ⟨steps, -, hread⟩
        · exact .inl (isConfig_of_steps hsteps)
        · cases hread

/-! ### Files -/

/-- The text of a file with its line ends unified. -/
def lines (content : String) : String := String.ofList (unifyLineEnds content.toList)

/-- Why the definition in a file cannot be loaded, and with which fault: the file is in YAML and
promises a value that does not exist, or a variable has a value without JSON text. -/
inductive Breaks (path content : String) : Fault → Prop
  | scalar {f : Fault} (hpath : suffix path = ".yaml" ∨ suffix path = ".yml")
      (h : Yaml.read (lines content) = .error (.valueless f))
      (hpromise : Yaml.Promises (lines content) f) : Breaks path content f
  | settings {x : Json} {type : String} (hpath : suffix path = ".yaml" ∨ suffix path = ".yml")
      (h : Yaml.read (lines content) = .ok x) (hx : Unwritable x type) :
      Breaks path content (.unwritable type)

variable {path content : String}

theorem document_of_yaml (hpath : suffix path = ".yaml" ∨ suffix path = ".yml") :
    document path content = yamlDocument path (lines content) := by
  unfold document lines
  rcases hpath with hpath | hpath <;> rw [hpath] <;> rfl

/-- What is refused with a file is refused as an error of configuration, or its YAML holds a scalar
without its value. -/
theorem isConfig_or_breaks_of_document {e : Failure} (h : document path content = .error e) :
    e.IsConfig ∨ ∃ f, Breaks path content f := by
  by_cases hpath : suffix path = ".yaml" ∨ suffix path = ".yml"
  · rw [document_of_yaml hpath, yamlDocument] at h
    split at h
    · cases h
    · cases h
      exact .inl (isConfig_invalid ..)
    · cases h
      rename_i f hread
      exact .inr ⟨f, .scalar hpath hread (Yaml.promises_of_valueless hread)⟩
  · unfold document jsonDocument at h
    dsimp only at h
    split at h
    · exact absurd (.inl ‹_›) hpath
    · exact absurd (.inr ‹_›) hpath
    · split at h <;> cases h
      exact .inl (isConfig_invalid ..)
    · cases h
      exact .inl (isConfig_invalid ..)

/-- A document that is no YAML is native. -/
theorem yaml_or_native_of_document (h : document path content = .ok x) :
    (suffix path = ".yaml" ∨ suffix path = ".yml") ∧ Yaml.read (lines content) = .ok x ∨
      x.Native := by
  by_cases hpath : suffix path = ".yaml" ∨ suffix path = ".yml"
  · rw [document_of_yaml hpath, yamlDocument] at h
    split at h
    · rename_i y hread
      cases h
      split
      · exact .inl ⟨hpath, hread⟩
      · exact .inr (Json.native_object_iff.mpr (by simp))
    · cases h
    · cases h
  · unfold document jsonDocument at h
    dsimp only at h
    split at h
    · exact absurd (.inl ‹_›) hpath
    · exact absurd (.inr ‹_›) hpath
    · split at h <;> cases h
      exact .inr (Json.native_of_read ‹_›)
    · cases h

theorem load_of_breaks {f : Fault} (h : Breaks path content f) :
    load path (some content) = .error (.fault f) := by
  cases h with
  | scalar hpath h _ =>
    rw [load, document_of_yaml hpath, yamlDocument, h]
    rfl
  | @settings x type hpath h hx =>
    obtain ⟨fields, rfl⟩ := exists_object_of_form hx.1
    have htruthy : (Json.object fields).truthy = true := by
      cases fields with
      | nil =>
        obtain ⟨settings, -, -, hsettings, -⟩ := hx.exists_variable
        cases hsettings
      | cons => rfl
    rw [load, document_of_yaml hpath, yamlDocument, h]
    dsimp only
    rw [if_pos htruthy]
    exact read_of_unwritable hx _

/-- A definition in a file is answered for, or the file breaks the loading. -/
theorem answers_or_breaks (path content : String) :
    Answers (fun automation => ∃ y, document path content = .ok y ∧
        Describes (some path) y automation) (load path (some content)) ∨
      ∃ f, Breaks path content f := by
  cases hdocument : document path content with
  | error e =>
    rcases isConfig_or_breaks_of_document hdocument with h | h
    · rw [load, hdocument]
      exact .inl h
    · exact .inr h
  | ok x =>
    rw [load, hdocument]
    dsimp only [bind, Except.bind]
    split
    · rename_i fields
      rcases answers_or_unwritable (some path) (.object fields) with h | ⟨type, h⟩
      · exact .inl (h.imp fun automation hdescribes => ⟨_, rfl, hdescribes⟩)
      · rcases yaml_or_native_of_document hdocument with ⟨hpath, hread⟩ | hnative
        · exact .inr ⟨_, .settings hpath hread h⟩
        · exact absurd h (not_unwritable_of_native hnative type)
    · exact .inl (isConfig_invalid ..)

theorem exists_load_iff : (∃ automation, load path (some content) = .ok automation) ↔
    ∃ y, document path content = .ok y ∧ WellFormed y := by
  constructor
  · rintro ⟨automation, h⟩
    obtain ⟨y, hdocument, h⟩ := Json.exists_of_bind_eq_ok h
    split at h
    · exact ⟨_, hdocument, exists_read_iff.mp ⟨automation, h⟩⟩
    · cases h
  · rintro ⟨y, hdocument, hy⟩
    obtain ⟨fields, rfl⟩ := exists_object_of_form hy.form
    rw [load, hdocument]
    exact exists_read_iff.mpr hy

/-! ### What comes of it -/

/-- What comes of loading a definition: an automation of some sort or an error of configuration,
unless there is a reason to break off, and then its fault; an automation exactly when the definition
is accepted. -/
structure Outcome (result : Except Failure Automation) (IsOf : Automation → Prop)
    (accepted : Prop) (Reason : Fault → Prop) : Prop where
  answers : Answers IsOf result ↔ ¬∃ f, Reason f
  returns : (∃ automation, result = .ok automation) ↔ accepted
  faults : ∀ f, result = .error (.fault f) ↔ Reason f

theorem outcome_of {result : Except Failure Automation} {IsOf : Automation → Prop}
    {accepted : Prop} {Reason : Fault → Prop} (hanswers : Answers IsOf result ∨ ∃ f, Reason f)
    (hreturns : (∃ automation, result = .ok automation) ↔ accepted)
    (hreason : ∀ f, Reason f → result = .error (.fault f)) :
    Outcome result IsOf accepted Reason where
  answers := by
    refine ⟨?_, hanswers.resolve_right⟩
    rintro h ⟨f, hf⟩
    rw [hreason f hf] at h
    exact not_answers_fault h
  returns := hreturns
  faults f := by
    refine ⟨fun h => ?_, hreason f⟩
    obtain ⟨f', hf'⟩ := hanswers.resolve_left (h ▸ not_answers_fault)
    cases (hreason f' hf').symm.trans h
    exact hf'

/-- The fault that a result is. -/
def fault? : Except Failure Automation → Option Fault
  | .error (.fault f) => some f
  | _ => none

theorem eq_of_fault? {result : Except Failure Automation} {f : Fault}
    (h : fault? result = some f) : result = .error (.fault f) := by
  unfold fault? at h
  split at h
  · exact congrArg (Except.error ∘ Failure.fault) (Option.some.inj h)
  · cases h

/-- An automation that was made in the thirteenth month of a year, and says so. -/
def misdated : String := "automation: \x7bname: N, created: 2024-13-01\x7d\nsteps: []\n"

end Definition

end Runbook
