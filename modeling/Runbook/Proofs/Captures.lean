import Runbook.Proofs.BestEffort
import Runbook.Proofs.Decompositions
import Runbook.Proofs.Identifiers
import Runbook.Proofs.Parts
import Runbook.Proofs.Weights

/-!
# Where pictures are stored by default

An action that takes a picture of the page may name a place for it. When it names none, the picture
is stored under the default path, and so are the pictures that are taken unasked, after a failure
and at the end, unless the settings say otherwise. The default path is a template with the time at
which the loop index began and its number. Both are the same for all that a loop index does, and the
number is the last word of the key but for its ending. So all default pictures of a loop index have
one key, and those of different loop indices have different ones.

* `pictureKey timestamp i`: the default key of a loop index.
* `Under key`: nothing is stored but under the key.
* `Action.IsDispatch.under`, `Loop.under_capture`: so it is for both kinds of default pictures, with
  the default key.
* `Loop.StoresPicture`: a default picture is stored under a key in the trace of a loop index.
* `Whole.default_captures_share_key_iff_same_index`: two of them have the same key exactly when
  they are of the same loop index.
-/

namespace Runbook

open Schedule Rehearsal

/-! ### The default key -/

/-- The key under which a loop index that began at a time stores its pictures by default. -/
def pictureKey (timestamp : String) (i : Int) : String :=
  "screenshots/" ++ timestamp ++ "-" ++ toString i ++ ".png"

section Keys

open Identifier

theorem pictureKey_eq_join (timestamp : String) (i : Nat) :
    pictureKey timestamp i = join ("screenshots/" ++ timestamp) (i.repr ++ ".png") := by
  have hjoin (a b : String) : join a b = a ++ "-" ++ b := rfl
  have hnumber : toString (i : Int) = i.repr := rfl
  rw [pictureKey, hjoin, hnumber, String.append_assoc]

/-- Keys with the same last word are of the same loop index. -/
theorem index_eq_of_pictureKey_eq {timestamp timestamp' : String} {i j : Nat}
    (h : pictureKey timestamp i = pictureKey timestamp' j) : i = j := by
  have hword (n : Nat) : IsWord (n.repr ++ ".png") := by
    rw [IsWord, String.toList_append, List.mem_append, not_or]
    exact ⟨isWord_repr n, by decide⟩
  have hwords := congrArg words h
  rw [pictureKey_eq_join, pictureKey_eq_join, words_join, words_join, words_of_isWord (hword i),
    words_of_isWord (hword j)] at hwords
  have hlast := (List.append_inj' hwords rfl).2
  have hnumbers : i.repr ++ ".png" = j.repr ++ ".png" :=
    String.toList_inj.mp (List.cons.inj hlast).1
  have hread := congrArg (fun s : String => Nat.ofDigitChars 10 s.toList 0)
    (String.append_left_inj _ |>.mp hnumbers)
  simpa using hread

end Keys

namespace Template

/-- The tokens of the default path, and the gaps around them. -/
def defaultScreenshotParts : Decomposition :=
  .token "screenshots/".toList "timestamp".toList
    (.token "-".toList "loopIndex".toList (.last ".png".toList))

theorem scan_defaultScreenshotPath :
    scan defaultScreenshotPath.toList = defaultScreenshotParts.pieces := by
  decide +kernel

/-- The default path becomes the default key. -/
theorem resolveText_defaultScreenshotPath (env : Environment) :
    resolveText env defaultScreenshotPath =
      pure (pictureKey env.context.timestamp env.context.loopIndex) := by
  have htimestamp : tokenValue env (declaredValue env maxDepth) (tokenName "timestamp".toList) =
      pure (some env.context.timestamp) := (Source.reserved rfl).eq
  have hindex : tokenValue env (declaredValue env maxDepth) (tokenName "loopIndex".toList) =
      pure (some (toString env.context.loopIndex)) := (Source.reserved rfl).eq
  have hfill : defaultScreenshotParts.fill env (declaredValue env maxDepth) =
      pure (pictureKey env.context.timestamp env.context.loopIndex).toList := by
    simp only [defaultScreenshotParts, Decomposition.fill, htimestamp, hindex, pure_bind]
    refine congrArg pure ?_
    simp [pictureKey]
  rw [resolveText, textWith, scan_defaultScreenshotPath, Decomposition.piecesValue_pieces, hfill,
    pure_bind, String.ofList_toList]

end Template

/-! ### What is stored under a key -/

/-- A deed that stores nothing, unless it is under the key. -/
def Deed.Under (key : String) : Deed → Prop
  | .call (.upload k _ _) _ => k = key
  | _ => True

/-- Nothing is stored but under the key. -/
abbrev Under (key : String) : Law := Each (Deed.Under key)

theorem Deed.Slight.under {d : Deed} (h : d.Slight) (key : String) : d.Under key := by
  rcases d with ⟨c, r⟩ | _ | _
  · cases c <;> first | exact trivial | exact h.elim
  all_goals trivial

section Parts

variable {α : Type} {ctx : LoopContext} {frame : Frame} {key : String} {s s' : LoopState}
  {t : List Deed}

namespace Act

theorem Consults.slight {globals : Fields} {now : Rat} (h : Consults globals now t) :
    ∀ d ∈ t, d.Slight := by
  obtain ⟨chance, chance', logs, rfl⟩ := h
  simp [Deed.Slight]

/-- The default path becomes the default key of the loop index at any moment. -/
theorem ends_resolving_default {r : Except Failure String}
    (h : (resolving ctx fun env =>
      Template.resolveText env defaultScreenshotPath).Ends s t r s') :
    r = .ok (pictureKey ctx.timestamp ctx.loopIndex) ∧ ∀ d ∈ t, d.Slight := by
  obtain ⟨-, globals, now, d, ht, rfl⟩ := ends_resolving_run h
  rw [Template.resolveText_defaultScreenshotPath]
  exact ⟨rfl, ht.slight⟩

theorem under_of_slight {m : Act α} (h : m.Obeys Slightly) : m.Obeys (Under key) :=
  fun s t r s' hends d hd => (h s t r s' hends d hd).under key

/-- A call that may fail. -/
theorem under_attempt {p : Program (Except Fault α)}
    (hp : ∀ t x, p.Ends t x → ∀ d ∈ t, d.Under key) : (attempt p).Obeys (Under key) :=
  obeys_attempt (each_sequential _) hp fun _ => List.forall_mem_nil _

theorem under_screenshot (i : Int) (options : Fields) :
    (attempt (Program.ask (.screenshot i options))).Obeys (Under key) :=
  under_attempt fun t x h => by
    obtain rfl := Program.ends_ask_iff.mp h
    exact List.forall_mem_singleton.mpr trivial

theorem under_upload (data : List UInt8) (contentType : String) :
    (attempt (Program.ask (.upload key data contentType))).Obeys (Under key) :=
  under_attempt fun t x h => by
    obtain rfl := Program.ends_ask_iff.mp h
    exact List.forall_mem_singleton.mpr rfl

theorem under_emitOutputFile (url : String) :
    (emitOutputFile ctx frame url).Obeys (Under key) := by
  intro s t r s' h
  obtain ⟨now, taken, -, -, rfl⟩ := ends_emit_iff.mp h
  simp [Each, Deed.Under]

end Act

namespace Loop

/-- A picture that is taken unasked is stored under the default key, if that is its path. -/
theorem under_capture (hpath : ctx.config.screenshots.path = defaultScreenshotPath) :
    (capture ctx frame).Obeys (Under (pictureKey ctx.timestamp ctx.loopIndex)) := by
  have hs := each_sequential (Deed.Under (pictureKey ctx.timestamp ctx.loopIndex))
  have hstored : (do
      let data ← Act.attempt (Program.ask (.screenshot ctx.loopIndex []))
      let key ← Act.resolving ctx fun env => Template.resolveText env ctx.config.screenshots.path
      Act.attempt (Program.ask (.upload key data "image/png")) : Act String).Obeys
        (Under (pictureKey ctx.timestamp ctx.loopIndex)) := by
    rw [hpath]
    refine .bind hs (Act.under_screenshot _ _) fun data s t r s' h => ?_
    rcases Act.ends_bind_iff.mp h with ⟨t₁, key, s₁, t₂, rfl, h₁, h₂⟩ | ⟨e, h₁, -⟩
    · obtain ⟨hkey, hslight⟩ := Act.ends_resolving_default h₁
      cases hkey
      exact hs.append (o := none) (fun d hd => (hslight d hd).under _)
        (Act.under_upload data "image/png" _ _ _ _ h₂)
    · cases (Act.ends_resolving_default h₁).1
  refine Act.obeys_ite (fun s t r s' h => ?_) (Act.obeys_pure hs _)
  obtain ⟨t₁, x, s₁, t₂, rfl, h₁, h₂⟩ := ends_outcome_bind_iff.mp h
  refine hs.append (o := none) (hstored _ _ _ _ h₁) ?_
  rcases x with (e | f | _) | url
  · exact Act.under_of_slight (slight_ask (c := .log _) fun _ => trivial) _ _ _ _ h₂
  · exact Act.under_of_slight (slight_ask (c := .log _) fun _ => trivial) _ _ _ _ h₂
  · exact Act.obeys_fail (L := Under _) (List.forall_mem_nil _) _ _ _ _ h₂
  · exact Act.under_emitOutputFile url _ _ _ _ h₂

end Loop

namespace Browser

/-- A picture that is asked for without a place is stored under the default key. -/
theorem under_behave_screenshot {params : Fields} {nested : Dispatcher}
    (hplace : firstText? params ["r2_key", "path"] = none) :
    (screenshot.behave ctx nested frame params).Obeys
      (Under (pictureKey ctx.timestamp ctx.loopIndex)) := by
  have hs := each_sequential (Deed.Under (pictureKey ctx.timestamp ctx.loopIndex))
  have hfail (e : Failure) : (Work.lift (Act.fail e) : Work Unit).Obeys
      (Under (pictureKey ctx.timestamp ctx.loopIndex)) :=
    Work.obeys_lift (Act.obeys_fail (List.forall_mem_nil _))
  refine Work.obeys_ite (.bind hs (hfail _) fun _ => ?_) ?_
  all_goals
    refine .bind hs (Work.obeys_ite (Work.obeys_pure hs _) (hfail _)) fun _ =>
      .bind hs (Work.obeys_lift (Act.under_screenshot _ _)) fun data => ?_
    rw [hplace]
    intro f s t r f' s' h
    rcases Work.ends_bind_iff.mp h with ⟨t₁, key, f₁, s₁, t₂, rfl, h₁, h₂⟩ | ⟨e, h₁, -⟩
    · obtain ⟨hkey, hslight⟩ := Act.ends_resolving_default (Work.ends_lift_iff.mp h₁).1
      cases hkey
      refine hs.append (o := none) (fun d hd => (hslight d hd).under _)
        (Work.Obeys.bind hs (Work.obeys_lift (Act.under_upload _ _)) (fun url => ?_) _ _ _ _ _ _ h₂)
      exact .bind hs (Work.obeys_lift (Act.under_emitOutputFile url)) fun _ => Work.obeys_pure hs _
    · cases (Act.ends_resolving_default (Work.ends_lift_iff.mp h₁).1).1

/-! ### Pictures without a place -/

section Place

variable {config resolved params : Fields} {key : String}

theorem textAt_eq_empty_iff :
    Fields.textAt config key = "" ↔ ∀ s, Fields.get? config key = some (.text s) → s = "" := by
  unfold Fields.textAt
  constructor
  · intro h s hs
    rwa [hs] at h
  · intro h
    split
    · exact h _ ‹_›
    · rfl

theorem firstText?_eq_none {names : List String}
    (h : ∀ name ∈ names, Fields.textAt config name = "") : firstText? config names = none := by
  refine List.find?_eq_none.mpr fun s hs => ?_
  obtain ⟨name, hname, hs⟩ := List.mem_filterMap.mp hs
  have hempty := h name hname
  unfold Fields.text? at hs
  split at hs
  · rename_i htext
    cases hs
    simp [textAt_eq_empty_iff.mp hempty s htext]
  · cases hs

/-- A text that is empty stays empty when it is resolved. -/
theorem textAt_of_rewritten {env : Template.Environment} {n : Nat}
    (h : Template.RewrittenFields (Template.Within env n) [] config resolved)
    (hempty : Fields.textAt config key = "") : Fields.textAt resolved key = "" := by
  refine textAt_eq_empty_iff.mpr fun s hs => ?_
  obtain ⟨x, hx, hrewritten⟩ := h.exists_of_get? List.not_mem_nil hs
  cases x with
  | text s' =>
    obtain ⟨s'', heq, hwithin⟩ := hrewritten
    cases heq
    rw [textAt_eq_empty_iff.mp hempty s' hx] at hwithin
    have hrendered {inner : String → String → Prop} (h : Template.Rendered env inner "" s) :
        s = "" := by
      obtain ⟨cs, hcs, rfl⟩ := h
      rw [show Template.scan "".toList = [] from Template.scan_nil] at hcs
      cases hcs
      rfl
    cases n <;> exact hrendered hwithin
  | list =>
    obtain ⟨_, heq, -⟩ := hrewritten
    cases heq
  | object =>
    obtain ⟨_, heq, -⟩ := hrewritten
    cases heq
  | _ => cases hrewritten

/-- A text that may be absent is checked to be as it was. -/
theorem textAt_of_check {write : Json → String} {name : String} {keepExtra : Bool} {x y : Json}
    {before after : List Field} (hbefore : ∀ field ∈ before, field.name ≠ key)
    (h : Kind.check write (.model name keepExtra (before ++ .optional key (.text 0) :: after)) x =
      .ok y) (hempty : Fields.textAt x.fields key = "") : Fields.textAt y.fields key = "" := by
  have hkept (z : Json) : True ∧ Kind.check write (.optional (.text 0)) z = .ok z ∨
      ∃ v, Kind.check write (.optional (.text 0)) z = Kind.fail v := by
    simp only [Kind.check]
    split
    · exact .inl ⟨trivial, rfl⟩
    · exact (Kind.check_text write 0 z).imp_left fun h => ⟨trivial, h.2⟩
  have hfails (z : Json) := Kind.ne_error_nil_of_keeps (hkept z)
  refine textAt_eq_empty_iff.mpr fun s hs => ?_
  rcases Kind.get?_of_check hbefore hfails h with hnull | ⟨given, value, hgiven, hchecked, hvalue⟩
  · cases hs.symm.trans hnull
  · obtain rfl := Option.some.inj (hs.symm.trans hvalue)
    rcases hkept given with ⟨-, hz⟩ | ⟨v, hz⟩ <;> cases hz.symm.trans hchecked
    exact textAt_eq_empty_iff.mp hempty s hgiven

/-- Where no place is given, none is found in the checked configuration. -/
theorem firstText?_of_validate (h : screenshot.validate (.object resolved) = .ok params)
    (hempty : ∀ key ∈ ["r2_key", "path"], Fields.textAt resolved key = "") :
    firstText? params ["r2_key", "path"] = none := by
  obtain ⟨y, hcheck, rfl, -⟩ := (ActionKind.validate_object_eq_ok_iff rfl rfl).mp h
  have hbefore : ∀ field ∈ [Field.optional "path" (.text 0)], field.name ≠ "r2_key" := by decide
  refine firstText?_eq_none fun key hkey => ?_
  have hgiven := hempty key hkey
  simp only [List.mem_cons, List.not_mem_nil, or_false] at hkey
  rcases hkey with rfl | rfl
  · exact textAt_of_check hbefore hcheck hgiven
  · exact textAt_of_check (List.forall_mem_nil _) hcheck hgiven

end Place

end Browser

theorem Catalogue.get_screenshot :
    registry.get "playwright:screenshot" = .ok Browser.screenshot := rfl

/-- What is dispatched to take a picture and names no place stores it under the default key. -/
theorem Action.IsDispatch.under {config : Fields}
    (htype : frame.actionType = "playwright:screenshot")
    (hempty : ∀ key ∈ ["r2_key", "path"], Fields.textAt config key = "")
    (h : IsDispatch Catalogue.registry ctx frame config t) :
    ∀ d ∈ t, d.Under (pictureKey ctx.timestamp ctx.loopIndex) := by
  obtain ⟨levels, s, r, s', h⟩ := h
  have hs := each_sequential (Deed.Under (pictureKey ctx.timestamp ctx.loopIndex))
  have hslight {t : List Deed} (ht : ∀ d ∈ t, d.Slight) :
      ∀ d ∈ t, d.Under (pictureKey ctx.timestamp ctx.loopIndex) := fun d hd => (ht d hd).under _
  cases levels with
  | zero =>
    obtain ⟨rfl, -⟩ := Act.ends_fail_iff.mp h
    exact List.forall_mem_nil _
  | succ levels =>
    obtain ⟨t', rfl, hfollows⟩ := ends_dispatchWith h
    refine List.forall_mem_cons.mpr ⟨trivial, ?_⟩
    cases hfollows with
    | unknown => exact List.forall_mem_nil _
    | unresolved _ ht => exact hslight ht.slight
    | executed hget ht hresolved hends =>
      rw [htype, Catalogue.get_screenshot] at hget
      cases hget
      obtain ⟨_, heq, hrewritten⟩ := hresolved
      cases heq
      refine hs.append (o := none) (hslight ht.slight) ?_
      rcases ActionKind.ends_execute hends with ⟨-, -, -, rfl, -⟩ |
        ⟨params, started, t₁, result, report, s₁, t₂, hvalid, rfl, -, -, hbehave, htold⟩
      · exact List.forall_mem_nil _
      have hplace := Browser.firstText?_of_validate hvalid fun key hkey =>
        Browser.textAt_of_rewritten hrewritten (hempty key hkey)
      have hdone := Browser.under_behave_screenshot hplace _ _ _ _ _ _ hbehave
      refine List.forall_mem_cons.mpr ⟨trivial, hs.append (o := none) hdone (hslight ?_)⟩
      rcases htold with ⟨rfl, -⟩ | ⟨ended, now, e, taken, rfl, -⟩ <;> simp [Deed.Slight]

end Parts

/-! ### Default captures -/

namespace Loop

/-- A part of a loop index in which a picture is stored under the default path, if it comes to
that: an action asks for it and names no place, or it is taken unasked. -/
inductive Captures (registry : Registry ActionKind) (ctx : LoopContext) : List Deed → Prop
  | asked {frame : Frame} {config : Fields} {t : List Deed}
      (htype : frame.actionType = "playwright:screenshot")
      (hpath : Fields.textAt config "path" = "") (hkey : Fields.textAt config "r2_key" = "")
      (h : Action.IsDispatch registry ctx frame config t) : Captures registry ctx t
  | unasked {frame : Frame} {s s' : LoopState} {t : List Deed} {result : Except Failure Unit}
      (h : (capture ctx frame).Ends s t result s') : Captures registry ctx t

theorem Captures.under {ctx : LoopContext} {t : List Deed}
    (hpath : ctx.config.screenshots.path = defaultScreenshotPath)
    (h : Captures Catalogue.registry ctx t) :
    ∀ d ∈ t, d.Under (pictureKey ctx.timestamp ctx.loopIndex) := by
  cases h with
  | asked htype hpath hkey h => exact h.under htype (by simp [hpath, hkey])
  | unasked h => exact under_capture hpath _ _ _ _ h

/-- In the trace of a loop index, a default capture stores its picture under the key. -/
def StoresPicture (r : Runner) (automation : Automation) (config : AutomationConfig)
    (runId : String) (i : Nat) (t : List Deed) (key : String) : Prop :=
  ∃ now before part after data contentType reply,
    t = .call .now now :: (before ++ (part ++ after)) ∧
    Captures r.registry (contextOf r automation config runId i now) part ∧
    .call (.upload key data contentType) reply ∈ part

/-- The default key of a loop index is made up of the time at which it began and its number. -/
theorem StoresPicture.eq_pictureKey {r : Runner} (hregistry : r.registry = Catalogue.registry)
    {automation : Automation} {config : AutomationConfig}
    (hpath : config.screenshots.path = defaultScreenshotPath) {runId : String} {i : Nat}
    {t : List Deed} {key : String} {now : Rat}
    (h : StoresPicture r automation config runId i (.call .now now :: t) key) :
    key = pictureKey (Timestamp.ofMillis now).toStamp i := by
  obtain ⟨now', before, part, after, data, contentType, reply, heq, hcaptures, hmem⟩ := h
  cases heq
  rw [hregistry] at hcaptures
  exact hcaptures.under hpath _ hmem

end Loop

namespace Whole

/-- **Default captures.** In every schedule of a run with the default path for pictures, the deeds
of each task are those of loop indices, and slight ones. Each loop index is made up of slight deeds,
of the dispatches of its actions, and of pictures that are taken unasked; and in it every
announcement of an action, however deep it is nested, begins the dispatch of that action. A picture
that an action takes without naming a place, or that is taken unasked, is stored under a key made up
of the time at which its loop index began and the number of that loop index. So two of them have the
same key exactly when they are of the same loop index. -/
theorem default_captures_share_key_iff_same_index {σ : Type} (env : Collaborators σ)
    (runner : Runner) (automation : Automation) (record : RunRecord) (shared : Shared σ)
    {config : AutomationConfig} {h : List Happening} {s : State σ Ended}
    (hs : Scheduled env { runner with registry := Catalogue.registry } automation record shared h s)
    (hparse : AutomationConfig.parse automation.config = .ok config)
    (hpath : config.screenshots.path = defaultScreenshotPath) :
    let r : Runner := { runner with registry := Catalogue.registry }
    let stores := Loop.StoresPicture r automation config record.id
    ∃ loops : Option Nat → List (Nat × List Deed),
      Divides (fun i t => ∃ result, (Loop.run r automation config record.id i).Ends t result) h
        loops ∧
      (∀ who i t, (i, t) ∈ loops who → ∃ now t', t = .call .now now :: t' ∧
        let ctx := Loop.contextOf r automation config record.id i now
        MadeOf (Loop.Part r automation ctx) t' ∧ Action.Unfolds r.registry ctx t' ∧
        ∀ key, stores i t key → key = pictureKey (Timestamp.ofMillis now).toStamp i) ∧
      ∀ who who' i j t t' key key', (i, t) ∈ loops who → (j, t') ∈ loops who' →
        stores i t key → stores j t' key' → (key = key' ↔ i = j) := by
  intro r stores
  obtain ⟨loops, hdivides⟩ := hs.exists_divides Catalogue.registry_proper hparse
  have hparts {who i t} (hl : (i, t) ∈ loops who) : ∃ now t', t = .call .now now :: t' ∧
      MadeOf (Loop.Part r automation (Loop.contextOf r automation config record.id i now)) t' := by
    obtain ⟨result, hends⟩ := hdivides.executed hl
    exact Loop.exists_parts hends
  have hkey {i now t key} (hstores : stores i (.call .now now :: t) key) :
      key = pictureKey (Timestamp.ofMillis now).toStamp i :=
    hstores.eq_pictureKey rfl hpath
  refine ⟨loops, hdivides, fun who i t hl => ?_, ?_⟩
  · obtain ⟨now, t', rfl, hmade⟩ := hparts hl
    have hunfolds := Loop.unfolds_of_parts Catalogue.registry_proper hmade
    exact ⟨now, t', rfl, hmade, hunfolds, fun key => hkey⟩
  · intro who who' i j t t' key key' hl hl' hstores hstores'
    constructor
    · rintro rfl
      obtain ⟨now, t₁, rfl, -⟩ := hparts hl
      obtain ⟨now', t₁', rfl, -⟩ := hparts hl'
      exact index_eq_of_pictureKey_eq ((hkey hstores).symm.trans (hkey hstores'))
    · rintro rfl
      obtain rfl := hdivides.once hl hl'
      obtain ⟨now, t₁, rfl, -⟩ := hparts hl
      exact (hkey hstores).trans (hkey hstores').symm

/-! ### Rehearsals -/

/-- The keys under which files are stored in a trace, in order. -/
def storedKeys (t : List Deed) : List String :=
  t.filterMap fun
    | .call (.upload key _ _) _ => some key
    | _ => none

/-- The keys of the files that a storage has kept. -/
def keptKeys : Storage → List String
  | .files entries => entries.map Prod.fst
  | .failing => []

/-- An automation with a loop that takes a picture, without naming a place, and waits for a second,
twice. -/
def capturing (config : Json) : Automation :=
  { id := "auto-1", name := "Auto", config
    steps := [{ id := "s0", name := "Step 0", actions := [
      { id := "a0", actionType := "playwright:loop_until"
        config := [("max_loops", .int 2), ("loop_actions", .list [
          .object [("action_type", .text "playwright:screenshot")],
          .object [("action_type", .text "playwright:wait_for_timeout"),
            ("action_config", .object [("timeout", .int 1000)])]])] }] }] }

/-- What happens in a run of it. -/
def rehearsedCaptures (config : Json) : List Happening × State World Ended :=
  paced World.collaborators sampleRunner (capturing config) sampleRecord 100
    (sampleShared 1704067200000)

/-- Two loop indices that take a third picture in the end. -/
def capturingTwice : Json := .object [
  ("multirun", .object [("enabled", .bool true), ("count", .int 2)]),
  ("screenshots", .object [("on_success", .bool true)])]

/-- Of two loop indices with three pictures each, every one has a key of its own. -/
theorem captures_of_two_loop_indices : ∃ config h s,
    Scheduled World.collaborators sampleRunner (capturing capturingTwice) sampleRecord
      (sampleShared 1704067200000) h s ∧
    AutomationConfig.parse (capturing capturingTwice).config = .ok config ∧
    config.screenshots.path = defaultScreenshotPath ∧
    storedKeys (allDeeds h) = ["screenshots/20240101-000000-0.png",
      "screenshots/20240101-000000-0.png", "screenshots/20240101-000000-0.png",
      "screenshots/20240101-000003-1.png", "screenshots/20240101-000003-1.png",
      "screenshots/20240101-000003-1.png"] ∧
    ∃ loops : Option Nat → List (Nat × List Deed),
      Divides (fun i t => ∃ result, (Loop.run sampleRunner (capturing capturingTwice) config
        sampleRecord.id i).Ends t result) h loops ∧
      ∀ who who' i j t t' key key', (i, t) ∈ loops who → (j, t') ∈ loops who' →
        Loop.StoresPicture sampleRunner (capturing capturingTwice) config sampleRecord.id i t key →
        Loop.StoresPicture sampleRunner (capturing capturingTwice) config sampleRecord.id j t'
          key' → (key = key' ↔ i = j) := by
  have hs : Scheduled World.collaborators sampleRunner (capturing capturingTwice) sampleRecord
      (sampleShared 1704067200000) (rehearsedCaptures capturingTwice).1
        (rehearsedCaptures capturingTwice).2 :=
    paced_scheduled _ _ _ _ _ rfl
  obtain ⟨config, hparse, hpath⟩ : ∃ config,
      AutomationConfig.parse (capturing capturingTwice).config = .ok config ∧
        config.screenshots.path = defaultScreenshotPath :=
    Json.exists_ok (by decide +kernel)
  have hkeys : storedKeys (allDeeds (rehearsedCaptures capturingTwice).1) =
      ["screenshots/20240101-000000-0.png", "screenshots/20240101-000000-0.png",
        "screenshots/20240101-000000-0.png", "screenshots/20240101-000003-1.png",
        "screenshots/20240101-000003-1.png", "screenshots/20240101-000003-1.png"] := by
    decide +kernel
  obtain ⟨loops, hdivides, -, hiff⟩ := default_captures_share_key_iff_same_index
    World.collaborators sampleRunner (capturing capturingTwice) sampleRecord
      (sampleShared 1704067200000) hs hparse hpath
  exact ⟨config, _, _, hs, hparse, hpath, hkeys, loops, hdivides, hiff⟩

/-- In one loop index the second picture takes the place of the first one, though a second has
passed. -/
theorem second_capture_replaces_first : ∃ config h s e,
    Scheduled World.collaborators sampleRunner (capturing (.object [])) sampleRecord
      (sampleShared 1704067200000) h s ∧ s.main = .ended e ∧
    AutomationConfig.parse (capturing (.object [])).config = .ok config ∧
    config.screenshots.path = defaultScreenshotPath ∧
    storedKeys (allDeeds h) =
      ["screenshots/20240101-000000-0.png", "screenshots/20240101-000000-0.png"] ∧
    ¬ (storedKeys (allDeeds h)).Nodup ∧
    keptKeys s.shared.outside.storage = ["screenshots/20240101-000000-0.png"] := by
  have hs : Scheduled World.collaborators sampleRunner (capturing (.object [])) sampleRecord
      (sampleShared 1704067200000) (rehearsedCaptures (.object [])).1
        (rehearsedCaptures (.object [])).2 :=
    paced_scheduled _ _ _ _ _ rfl
  obtain ⟨config, hparse, hpath⟩ : ∃ config,
      AutomationConfig.parse (capturing (.object [])).config = .ok config ∧
        config.screenshots.path = defaultScreenshotPath :=
    Json.exists_ok (by decide +kernel)
  have hkeys : (storedKeys (allDeeds (rehearsedCaptures (.object [])).1),
      keptKeys (rehearsedCaptures (.object [])).2.shared.outside.storage) =
        (["screenshots/20240101-000000-0.png", "screenshots/20240101-000000-0.png"],
          ["screenshots/20240101-000000-0.png"]) := by
    decide +kernel
  obtain ⟨hstored, hkept⟩ := Prod.mk.inj hkeys
  obtain ⟨e, he, -⟩ : ∃ e, (rehearsedCaptures (.object [])).2.main = .ended e ∧
      e.raised.isNone = true :=
    Task.exists_ended (by decide +kernel)
  refine ⟨config, _, _, e, hs, he, hparse, hpath, hstored, ?_, hkept⟩
  rw [hstored]
  decide

end Whole

end Runbook
