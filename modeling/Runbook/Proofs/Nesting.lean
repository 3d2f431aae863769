import Runbook.Proofs.Executions
import Runbook.Proofs.Termination

/-!
# How held actions are run

A control action does little on its own: it makes calls and waits. In between it runs lists of the
actions that it holds. An entry of a list is passed over when it is malformed, and dispatched
otherwise, and the first one that fails ends the list. A branching action runs one branch at most,
and then its final actions. A loop runs its actions once in each iteration, with the number of the
iteration as the local loop index, and pauses after it.

* `Deed.Belongs i frame l`: what an action at `frame` does on its own.
* `Act.Stays P m`, `Work.Stays P m`: the part `m` does such things only, and leaves the local loop
  index alone.
* `Action.Runs`: what it is to run a list of held actions.
* `IfElse.ends_behave`: what a branching action does.
* `LoopUntil.Rounds`: what a loop does from an iteration on.
-/

namespace Runbook

variable {α β : Type}

/-! ### Deeds of an action's own -/

/-- What an action at a place does on its own, in the loop index `i` and the local one `l`: it tells
events of that place, and dispatches nothing. -/
def Deed.Belongs (i : Int) (frame : Frame) (l : Int) : Deed → Prop
  | .call (.emit e) _ => e.At frame ∧ e.Counts i l
  | .call (.dispatched _ _ _) _ => False
  | _ => True

/-- A deed by which nothing is told, nothing is dispatched and nothing goes on after a wait. -/
def Deed.Mute : Deed → Prop
  | .call (.emit _) _ | .call (.dispatched _ _ _) _ | .wake .resumed => False
  | _ => True

theorem Deed.Mute.belongs {d : Deed} (h : d.Mute) (i : Int) (frame : Frame) (l : Int) :
    d.Belongs i frame l := by
  rcases d with ⟨c, r⟩ | _ | _ | _
  · cases c <;> trivial
  all_goals trivial

theorem Call.Plain.mute {c : Call} (h : c.Plain) (r : c.Reply) : (Deed.call c r).Mute := by
  cases c <;> trivial

theorem Act.Consults.mute {globals : Fields} {now : Rat} {t : List Deed}
    (h : Act.Consults globals now t) : ∀ d ∈ t, d.Mute := by
  intro d hd
  obtain ⟨c, r, rfl, hc⟩ := h.plain d hd
  exact hc.mute r

/-- A part of a loop index that leaves the local loop index as it is, and with which only some deeds
are done. -/
def Act.Stays (P : Int → Deed → Prop) (m : Act α) : Prop :=
  ∀ s t r s', m.Ends s t r s' →
    s'.localLoopIndex = s.localLoopIndex ∧ ∀ d ∈ t, P s.localLoopIndex d

/-- A part of the work that leaves the local loop index as it is, and with which only some deeds are
done. -/
def Work.Stays (P : Int → Deed → Prop) (m : Work α) : Prop :=
  ∀ f s t r f' s', m.Ends f s t r f' s' →
    s'.localLoopIndex = s.localLoopIndex ∧ ∀ d ∈ t, P s.localLoopIndex d

variable {P : Int → Deed → Prop}

namespace Act

theorem stays_pure (a : α) : (pure a : Act α).Stays P := by
  intro s t r s' h
  obtain ⟨rfl, -, rfl⟩ := ends_pure_iff.mp h
  exact ⟨rfl, List.forall_mem_nil _⟩

theorem stays_fail (e : Failure) : (fail e : Act α).Stays P := by
  intro s t r s' h
  obtain ⟨rfl, -, rfl⟩ := ends_fail_iff.mp h
  exact ⟨rfl, List.forall_mem_nil _⟩

theorem stays_get : (get : Act LoopState).Stays P := by
  intro s t r s' h
  obtain ⟨rfl, -, rfl⟩ := ends_get_iff.mp h
  exact ⟨rfl, List.forall_mem_nil _⟩

theorem stays_modify {g : LoopState → LoopState}
    (hg : ∀ s, (g s).localLoopIndex = s.localLoopIndex) : (modify g : Act Unit).Stays P := by
  intro s t r s' h
  obtain ⟨rfl, -, rfl⟩ := ends_modify_iff.mp h
  exact ⟨hg s, List.forall_mem_nil _⟩

theorem Stays.bind {m : Act α} {f : α → Act β} (hm : m.Stays P) (hf : ∀ a, (f a).Stays P) :
    (m >>= f).Stays P := by
  intro s t r s' h
  rcases ends_bind_iff.mp h with ⟨t₁, a, s₁, t₂, rfl, h₁, h₂⟩ | ⟨e, h₁, -⟩
  · obtain ⟨hfirst, ht₁⟩ := hm _ _ _ _ h₁
    obtain ⟨hsecond, ht₂⟩ := hf a _ _ _ _ h₂
    rw [hfirst] at hsecond ht₂
    exact ⟨hsecond, List.forall_mem_append.mpr ⟨ht₁, ht₂⟩⟩
  · exact hm _ _ _ _ h₁

theorem stays_calls {p : Program α} (hP : ∀ {l c r}, c.Plain → P l (.call c r))
    (hp : p.Only Call.Plain fun _ => False) : (lift p).Stays P := by
  intro s t r s' h
  obtain ⟨a, ha, -, rfl⟩ := ends_lift_iff.mp h
  refine ⟨rfl, fun d hd => ?_⟩
  obtain ⟨c, x, rfl, hc⟩ := hp.deed_of_ends ha d hd
  exact hP hc

theorem stays_ofExcept (x : Except Failure α) : (ofExcept x).Stays P := by
  cases x with
  | ok a => exact stays_pure a
  | error e => exact stays_fail e

theorem stays_attempt {p : Program (Except Fault α)} (hP : ∀ {l c r}, c.Plain → P l (.call c r))
    (hp : p.Only Call.Plain fun _ => False) : (attempt p).Stays P := by
  refine .bind (stays_calls hP hp) fun x => ?_
  cases x with
  | ok a => exact stays_pure a
  | error f => exact stays_fail _

end Act

namespace Work

theorem stays_pure (a : α) : (pure a : Work α).Stays P := by
  intro f s t r f' s' h
  obtain ⟨rfl, -, -, rfl⟩ := ends_pure_iff.mp h
  exact ⟨rfl, List.forall_mem_nil _⟩

theorem stays_throw (e : Failure) : (throw e : Work α).Stays P := by
  intro f s t r f' s' h
  obtain ⟨rfl, -, -, rfl⟩ := ends_throw_iff.mp h
  exact ⟨rfl, List.forall_mem_nil _⟩

theorem stays_getThe : (getThe LoopState : Work LoopState).Stays P := by
  intro f s t r f' s' h
  obtain ⟨rfl, -, -, rfl⟩ := ends_getThe_iff.mp h
  exact ⟨rfl, List.forall_mem_nil _⟩

theorem Stays.bind {m : Work α} {g : α → Work β} (hm : m.Stays P) (hg : ∀ a, (g a).Stays P) :
    (m >>= g).Stays P := by
  intro f s t r f' s' h
  rcases ends_bind_iff.mp h with ⟨t₁, a, f₁, s₁, t₂, rfl, h₁, h₂⟩ | ⟨e, h₁, -⟩
  · obtain ⟨hfirst, ht₁⟩ := hm _ _ _ _ _ _ h₁
    obtain ⟨hsecond, ht₂⟩ := hg a _ _ _ _ _ _ h₂
    rw [hfirst] at hsecond ht₂
    exact ⟨hsecond, List.forall_mem_append.mpr ⟨ht₁, ht₂⟩⟩
  · exact hm _ _ _ _ _ _ h₁

theorem stays_lift {m : Act α} (hm : m.Stays P) : (lift m).Stays P := by
  intro f s t r f' s' h
  exact hm _ _ _ _ (ends_lift_iff.mp h).1

theorem stays_report (g : Fields → Fields) : (report g).Stays P := by
  intro f s t r f' s' h
  obtain ⟨rfl, -, -, rfl⟩ := ends_report_iff.mp h
  exact ⟨rfl, List.forall_mem_nil _⟩

theorem stays_ite {c : Prop} [Decidable c] {m m' : Work α} (hm : m.Stays P) (hm' : m'.Stays P) :
    (if c then m else m').Stays P := by
  split
  · exact hm
  · exact hm'

end Work

/-- What a simple action does, it does on its own. -/
theorem Act.Simple.stays {stores : Prop} {ctx : LoopContext} {frame : Frame} {m : Act α}
    (h : m.Simple stores ctx frame) : m.Stays (Deed.Belongs ctx.loopIndex frame) := by
  induction h with
  | pure a => exact stays_pure a
  | bind _ _ ih ih' => exact .bind ih ih'
  | calls hp =>
    exact stays_calls (fun hc => (hc.mute _).belongs _ _ _) hp.plain_of_frugal
  | stored _ hp =>
    exact stays_calls (fun hc => (hc.mute _).belongs _ _ _) hp.plain_of_stores
  | fail => exact stays_fail _
  | read => exact stays_get
  | write g => exact stays_modify fun _ => rfl
  | sleep ms =>
    intro s t r s' h
    obtain ⟨rfl, ⟨rfl, -⟩ | ⟨rfl, -⟩⟩ := ends_await_iff.mp h <;>
      exact ⟨rfl, by simp [Deed.Belongs]⟩
  | file url =>
    intro s t r s' h
    obtain ⟨now, taken, -, rfl, rfl⟩ := ends_emit_iff.mp h
    refine ⟨rfl, ?_⟩
    simp only [List.forall_mem_cons, List.not_mem_nil, false_imp_iff, implies_true, and_true]
    exact ⟨trivial, ⟨rfl, rfl, rfl, rfl, rfl, rfl⟩, rfl, rfl⟩

theorem Work.Simple.stays {stores : Prop} {ctx : LoopContext} {frame : Frame} {m : Work α}
    (h : m.Simple stores ctx frame) : m.Stays (Deed.Belongs ctx.loopIndex frame) := by
  induction h with
  | pure a => exact stays_pure a
  | bind _ _ ih ih' => exact .bind ih ih'
  | lift hm => exact stays_lift hm.stays
  | throw => exact stays_throw _
  | read => exact stays_getThe
  | report g => exact stays_report g

/-! ### Lists of held actions -/

namespace Action

section Runs

variable (nested : Dispatcher) (frame : Frame) (idStem : String) (checkpoint : Option String)

/-- The warning about a malformed entry. -/
def malformed (i : Nat) : LogRecord :=
  .warning "nested_action_malformed"
    [("parent_action_id", .text frame.actionId), ("index", .nat i)]

/-- What it is to run the entries of a list from a position on. -/
inductive Runs : Nat → List Json → LoopState → List Deed → Except Failure Unit → LoopState → Prop
  | done {i : Nat} {s : LoopState} : Runs i [] s [] (.ok ()) s
  /-- The look at the request to stop before an entry finds one. -/
  | stopped {i : Nat} {entry : Json} {rest : List Json} {s : LoopState} {message : String}
      {c : Cancellation} (h : checkpoint = some message) :
      Runs i (entry :: rest) s [.call .cancellation (some c)]
        (.error (.error (c.toError message))) s
  | passed {i : Nat} {entry : Json} {rest : List Json} {s s' : LoopState} {t : List Deed}
      {r : Except Failure Unit} (hentry : NestedAction.ofEntry? entry s!"{idStem}-{i}" = none)
      (hrest : Runs (i + 1) rest s t r s') :
      Runs i (entry :: rest) s (looks checkpoint ++ .call (.log (malformed frame i)) () :: t) r s'
  | failed {i : Nat} {entry : Json} {rest : List Json} {a : NestedAction} {s s' : LoopState}
      {t : List Deed} {e : Failure}
      (hentry : NestedAction.ofEntry? entry s!"{idStem}-{i}" = some a)
      (h : (nested (frame.child a.id a.actionType a.name) a.config).Ends s t (.error e) s') :
      Runs i (entry :: rest) s (looks checkpoint ++ t) (.error e) s'
  | next {i : Nat} {entry : Json} {rest : List Json} {a : NestedAction} {s s₁ s' : LoopState}
      {t t' : List Deed} {r : Except Failure Unit}
      (hentry : NestedAction.ofEntry? entry s!"{idStem}-{i}" = some a)
      (h : (nested (frame.child a.id a.actionType a.name) a.config).Ends s t (.ok ()) s₁)
      (hrest : Runs (i + 1) rest s₁ t' r s') :
      Runs i (entry :: rest) s (looks checkpoint ++ (t ++ t')) r s'

end Runs

variable {nested : Dispatcher} {frame : Frame} {idStem : String} {checkpoint : Option String}
  {i : Nat} {es : List Json} {s s' : LoopState} {t : List Deed} {r : Except Failure Unit}

/-- What is done about an entry, behind the look that comes before it. -/
theorem runs_of_entry {entry : Json} {rest : List Json}
    (hrest : ∀ {s t}, (runEntries nested frame idStem checkpoint (i + 1) rest).Ends s t r s' →
      Runs nested frame idStem checkpoint (i + 1) rest s t r s')
    (h : (match NestedAction.ofEntry? entry s!"{idStem}-{i}" with
      | none => Act.log (malformed frame i) >>= fun _ =>
        runEntries nested frame idStem checkpoint (i + 1) rest
      | some a => nested (frame.child a.id a.actionType a.name) a.config >>= fun _ =>
        runEntries nested frame idStem checkpoint (i + 1) rest : Act Unit).Ends s t r s') :
    Runs nested frame idStem checkpoint i (entry :: rest) s (looks checkpoint ++ t) r s' := by
  cases ha : NestedAction.ofEntry? entry s!"{idStem}-{i}" with
  | none =>
    rw [ha] at h
    obtain ⟨_, t', rfl, h'⟩ := Act.ends_ask_bind_iff.mp h
    exact .passed ha (hrest h')
  | some a =>
    rw [ha] at h
    rcases Act.ends_bind_iff.mp h with ⟨t₁, _, s₁, t₂, rfl, h₁, h₂⟩ | ⟨e, h₁, rfl⟩
    · exact .next ha h₁ (hrest h₂)
    · exact .failed ha h₁

theorem runs_of_ends (h : (runEntries nested frame idStem checkpoint i es).Ends s t r s') :
    Runs nested frame idStem checkpoint i es s t r s' := by
  induction es generalizing i s t with
  | nil =>
    obtain ⟨rfl, rfl, rfl⟩ := Act.ends_pure_iff.mp h
    exact .done
  | cons entry rest ih =>
    cases checkpoint with
    | none => exact runs_of_entry ih h
    | some message =>
      rcases Act.ends_bind_iff.mp h with ⟨t₁, _, s₁, t₂, rfl, h₁, h₂⟩ | ⟨e, h₁, rfl⟩
      · obtain ⟨rfl, ⟨rfl, -⟩ | ⟨_, -, hr⟩⟩ := Act.ends_checkpoint_iff.mp h₁
        · exact runs_of_entry ih h₂
        · cases hr
      · obtain ⟨rfl, ⟨-, hr⟩ | ⟨c, rfl, hr⟩⟩ := Act.ends_checkpoint_iff.mp h₁
        · cases hr
        · cases hr
          exact .stopped rfl

/-- What does not count as a list is not run at all. -/
theorem ends_runNested {items : Json}
    (h : (runNested nested frame items idStem checkpoint).Ends s t r s') :
    t = [] ∧ s' = s ∨
      ∃ es, entries items = .ok es ∧ Runs nested frame idStem checkpoint 0 es s t r s' := by
  rcases Act.ends_bind_iff.mp h with ⟨t₁, es, s₁, t₂, rfl, h₁, h₂⟩ | ⟨e, h₁, -⟩
  · obtain ⟨rfl, hes, rfl⟩ := Act.ends_ofExcept_iff.mp h₁
    exact .inr ⟨es, eq_ok_of_mapError hes.symm, runs_of_ends h₂⟩
  · obtain ⟨rfl, -, rfl⟩ := Act.ends_ofExcept_iff.mp h₁
    exact .inl ⟨rfl, rfl⟩

theorem mute_of_looks : ∀ d ∈ looks checkpoint, d.Mute := by
  cases checkpoint <;> simp [looks, Deed.Mute]

end Action

/-! ### Branching -/

namespace IfElse

/-- The branches of a branching action: lists, with how the identifiers of their actions begin. -/
inductive Branch (frame : Frame) (params : Fields) : Json → String → Prop
  | if : Branch frame params (Browser.param params "if_actions") s!"{idStem frame}-if"
  | alternative {index : Nat} {entry : Json} {a : Alternative}
      (hentry : (Fields.listAt params "else_if_conditions")[index]? = some entry)
      (ha : Alternative.ofEntry entry = .ok (some a)) :
      Branch frame params a.actions s!"{idStem frame}-else_if-{index}"
  | else : Branch frame params (Browser.param params "else_actions") s!"{idStem frame}-else"

variable {ctx : LoopContext} {nested : Dispatcher} {frame : Frame} {params f f' : Fields}
  {s s' : LoopState} {t : List Deed}

theorem Branch.holds {items : Json} {stem : String} {a : NestedAction}
    (h : Branch frame params items stem) (ha : Action.IsEntry items stem a) :
    Holds frame params a := by
  cases h with
  | «if» => exact .if ha
  | alternative hentry hfound => exact .alternative hentry hfound ha
  | «else» => exact .else ha

/-- Some mute deeds, and then one branch at most. -/
def Takes (nested : Dispatcher) (frame : Frame) (params : Fields) (s : LoopState) (t : List Deed)
    (s' : LoopState) : Prop :=
  ∃ t₁ s₁ t₂, t = t₁ ++ t₂ ∧ s₁.localLoopIndex = s.localLoopIndex ∧ (∀ d ∈ t₁, d.Mute) ∧
    (t₂ = [] ∧ s' = s₁ ∨ ∃ items stem r, Branch frame params items stem ∧
      (Action.runNested nested frame items stem none).Ends s₁ t₂ r s')

/-- A part of the work that takes one branch at most, and none if it comes to certain values. -/
def Chooses (nested : Dispatcher) (frame : Frame) (params : Fields) (idle : α → Prop)
    (m : Work α) : Prop := ∀ f s t r f' s', m.Ends f s t r f' s' →
  Takes nested frame params s t s' ∧ ∀ a, r = .ok a → idle a →
    s'.localLoopIndex = s.localLoopIndex ∧ ∀ d ∈ t, d.Mute

theorem chooses_of_stays {idle : α → Prop} {m : Work α} (hm : m.Stays fun _ => Deed.Mute) :
    Chooses nested frame params idle m := by
  intro f s t r f' s' h
  have hsame := hm _ _ _ _ _ _ h
  exact ⟨⟨t, s', [], (List.append_nil t).symm, hsame.1, hsame.2, .inl ⟨rfl, rfl⟩⟩,
    fun _ _ _ => hsame⟩

/-- When a branch has been taken, nothing else follows. -/
theorem Chooses.bind {idle : α → Prop} {idle' : β → Prop} {m : Work α} {g : α → Work β}
    (hm : Chooses nested frame params idle m)
    (hidle : ∀ a, idle a → Chooses nested frame params idle' (g a))
    (hdone : ∀ a, ¬ idle a → ∃ b, g a = pure b ∧ ¬ idle' b) :
    Chooses nested frame params idle' (m >>= g) := by
  intro f s t r f' s' h
  rcases Work.ends_bind_iff.mp h with ⟨t₁, a, f₁, s₁, t₂, rfl, h₁, h₂⟩ | ⟨e, h₁, rfl⟩
  · obtain ⟨htakes, hfound⟩ := hm _ _ _ _ _ _ h₁
    by_cases ha : idle a
    · obtain ⟨hsame, hmute⟩ := hfound a rfl ha
      obtain ⟨⟨t₃, s₂, t₄, rfl, hsame', hmute', hbranch⟩, hfound'⟩ := hidle a ha _ _ _ _ _ _ h₂
      refine ⟨⟨t₁ ++ t₃, s₂, t₄, (List.append_assoc ..).symm, hsame'.trans hsame,
        List.forall_mem_append.mpr ⟨hmute, hmute'⟩, hbranch⟩, fun b hr hb => ?_⟩
      obtain ⟨hlast, hrest⟩ := hfound' b hr hb
      exact ⟨hlast.trans hsame, List.forall_mem_append.mpr ⟨hmute, hrest⟩⟩
    · obtain ⟨b, hb, hnot⟩ := hdone a ha
      rw [hb] at h₂
      obtain ⟨rfl, rfl, -, rfl⟩ := Work.ends_pure_iff.mp h₂
      rw [List.append_nil]
      refine ⟨htakes, fun b' hr hb' => ?_⟩
      cases hr
      exact absurd hb' hnot
  · exact ⟨(hm _ _ _ _ _ _ h₁).1, nofun⟩

theorem Chooses.after {idle : β → Prop} {m : Work α} {g : α → Work β}
    (hm : m.Stays fun _ => Deed.Mute) (hg : ∀ a, Chooses nested frame params idle (g a)) :
    Chooses nested frame params idle (m >>= g) := by
  have hfirst : Chooses nested frame params (fun _ => True) m := chooses_of_stays hm
  exact hfirst.bind (fun a _ => hg a) fun _ h => absurd trivial h

/-- A branch is run, and noted before. -/
theorem chooses_branch {items : Json} {stem : String} (hbranch : Branch frame params items stem)
    (name : String) : Chooses nested frame params (fun _ => False) (do
      take name
      Work.lift (Action.runNested nested frame items stem none)) := by
  refine .after (Work.stays_report _) fun _ f s t r f' s' h => ⟨?_, fun _ _ h => h.elim⟩
  exact ⟨[], s, t, rfl, rfl, List.forall_mem_nil _,
    .inr ⟨items, stem, r, hbranch, (Work.ends_lift_iff.mp h).1⟩⟩

theorem chooses_ite {idle : α → Prop} {c : Prop} [Decidable c] {m m' : Work α}
    (hm : Chooses nested frame params idle m) (hm' : Chooses nested frame params idle m') :
    Chooses nested frame params idle (if c then m else m') := by
  split
  · exact hm
  · exact hm'

/-- A value that may be missing first, and then what depends on it. -/
theorem chooses_ofExcept_bind {idle : β → Prop} {x : Except Failure α} {g : α → Work β}
    (hg : ∀ a, x = .ok a → Chooses nested frame params idle (g a)) :
    Chooses nested frame params idle (Work.lift (Act.ofExcept x) >>= g) := by
  cases x with
  | ok a => exact hg a rfl
  | error e => exact chooses_of_stays (Work.stays_throw e)

theorem stays_request (type : String) (ctx : LoopContext) (c : PageCall) :
    (Browser.request type ctx c).Stays fun _ => Deed.Mute :=
  .bind (Work.stays_ite (Work.stays_pure _) (Work.stays_lift (Act.stays_fail _))) fun _ =>
    Work.stays_lift (Act.stays_attempt (fun hc => hc.mute _) (Program.only_ask trivial))

theorem stays_call {c : Call} (hc : c.Plain) :
    (Work.lift (Act.ask c)).Stays fun _ => Deed.Mute :=
  Work.stays_lift (Act.stays_calls (fun hc => hc.mute _) (Program.only_ask hc))

/-- Among the alternatives one is run at most, and none if none is found. -/
theorem chooses_runAlternatives {index : Nat} {alternatives : List Json}
    (hall : ∀ {j entry}, alternatives[j]? = some entry →
      (Fields.listAt params "else_if_conditions")[index + j]? = some entry) :
    Chooses nested frame params (fun found => found = false)
      (runAlternatives ctx nested frame (idStem frame) index alternatives) := by
  induction alternatives generalizing index with
  | nil => exact chooses_of_stays (Work.stays_pure _)
  | cons entry rest ih =>
    have hrest : Chooses nested frame params (fun found => found = false)
        (runAlternatives ctx nested frame (idStem frame) (index + 1) rest) := by
      refine ih fun {j entry} hj => ?_
      rw [Nat.add_right_comm]
      exact hall (j := j + 1) hj
    have hwarn (event : String) (more : Fields) :
        Chooses nested frame params (fun found => found = false) (do
          Work.lift (warn event frame index more)
          runAlternatives ctx nested frame (idStem frame) (index + 1) rest) :=
      .after (stays_call trivial) fun _ => hrest
    refine chooses_ofExcept_bind fun found ha => ?_
    cases found with
    | none => exact hwarn _ _
    | some a =>
      refine .after (stays_call trivial) fun reply => ?_
      cases reply with
      | error => exact hwarn _ _
      | ok reply =>
        have hbranch : Branch frame params a.actions s!"{idStem frame}-else_if-{index}" :=
          .alternative (hall (j := 0) rfl) (eq_ok_of_mapError ha)
        have htaken : Chooses nested frame params (fun found => found = false) ((do
            take s!"else_if[{index}]"
            Work.lift (Action.runNested nested frame a.actions s!"{idStem frame}-else_if-{index}"
              none)) >>= fun _ => pure true) :=
          (chooses_branch hbranch _).bind (fun _ h => h.elim) fun _ _ => ⟨true, rfl, nofun⟩
        rw [bind_assoc] at htaken
        exact chooses_ite htaken hrest

theorem chooses_runBranch : Chooses nested frame params (fun _ => False)
    (runBranch ctx nested frame params (idStem frame)) := by
  refine .after (Work.stays_lift (Act.stays_ofExcept _)) fun state =>
    .after (stays_request _ _ _) fun reply => chooses_ite (chooses_branch .if _) ?_
  refine (chooses_runAlternatives fun {j entry} hj => ?_).bind (fun found hfound => ?_) ?_
  · rwa [Nat.zero_add]
  · rw [hfound]
    exact chooses_ite (chooses_ite (chooses_branch .else _) (chooses_of_stays (Work.stays_pure _)))
      (chooses_of_stays (Work.stays_pure _))
  · intro found hfound
    rw [Bool.not_eq_false] at hfound
    rw [hfound]
    exact ⟨(), rfl, not_false⟩

/-- **Branching.** A branching action takes one branch at most, and then it runs its final actions,
unless it is interrupted; besides, nothing is told or dispatched. -/
theorem ends_behave {r : Except Failure String}
    (h : (behave ctx nested frame params).Ends f s t r f' s') :
    ∃ t₁ t₂ t₃ s₁ s₂, t = t₁ ++ (t₂ ++ t₃) ∧ Takes nested frame params s t₁ s₁ ∧
      (t₂ = [] ∧ s₂ = s₁ ∨ ∃ r', (Action.runNested nested frame
        (Browser.param params "final_actions") s!"{idStem frame}-final" none).Ends s₁ t₂ r' s₂) ∧
      s'.localLoopIndex = s₂.localLoopIndex ∧ ∀ d ∈ t₃, d.Mute := by
  rcases Work.ends_bind_iff.mp h with ⟨t₁, branchFailure, f₁, s₁, t₂, rfl, h₁, h₂⟩ | ⟨e, h₁, -⟩
  · obtain ⟨r₁, hends, -⟩ := ends_attempt h₁
    have htakes := (chooses_runBranch _ _ _ _ _ _ hends).1
    rcases Work.ends_bind_iff.mp h₂ with ⟨t₃, finalFailure, f₂, s₂, t₄, rfl, h₃, h₄⟩ | ⟨e, h₃, -⟩
    · obtain ⟨r₂, hends, -⟩ := ends_attempt h₃
      have hfinal := (Work.ends_lift_iff.mp hends).1
      refine ⟨t₁, t₃, t₄, s₁, s₂, rfl, htakes, .inr ⟨r₂, hfinal⟩, ?_⟩
      -- What is left is to say how it went.
      have hsaid (e final : Failure) : (do
          Work.lift (Act.log (.warning "final_actions_failed"
            [("action_id", .text frame.actionId), ("error", .text final.text)]))
          throw e : Work String).Stays fun _ => Deed.Mute :=
        .bind (stays_call trivial) fun _ => Work.stays_throw e
      have hthrown (e : Failure) : (throw e : Work String).Stays fun _ => Deed.Mute :=
        Work.stays_throw e
      have hreturned (a : String) : (pure a : Work String).Stays fun _ => Deed.Mute :=
        Work.stays_pure a
      cases branchFailure <;> cases finalFailure
      · exact hreturned _ _ _ _ _ _ _ h₄
      · exact hthrown _ _ _ _ _ _ _ h₄
      · exact hthrown _ _ _ _ _ _ _ h₄
      · exact hsaid _ _ _ _ _ _ _ _ h₄
    · obtain ⟨r₂, hends, -⟩ := ends_attempt h₃
      exact ⟨t₁, t₂, [], s₁, s', by simp, htakes, .inr ⟨r₂, (Work.ends_lift_iff.mp hends).1⟩, rfl,
        List.forall_mem_nil _⟩
  · obtain ⟨r₁, hends, -⟩ := ends_attempt h₁
    exact ⟨t, [], [], s', s', by simp, (chooses_runBranch _ _ _ _ _ _ hends).1, .inl ⟨rfl, rfl⟩,
      rfl, List.forall_mem_nil _⟩

end IfElse

/-! ### Loops -/

namespace LoopUntil

section Rounds

variable (nested : Dispatcher) (frame : Frame) (loop : Loop)

/-- What a loop does after `n` iterations. -/
inductive Rounds : Nat → LoopState → List Deed → LoopState → Prop
  /-- The loop ends before its actions are run again. -/
  | ends {n : Nat} {s s' : LoopState} {t : List Deed} (ht : ∀ d ∈ t, d.Mute) : Rounds n s t s'
  /-- The loop ends with its actions, or in the pause after them. -/
  | breaks {n : Nat} {s s₁ s₂ s' : LoopState} {t t' t'' : List Deed} {r : Except Failure Unit}
      (ht : ∀ d ∈ t, d.Mute) (hs : s₁.localLoopIndex = n + 1)
      (h : (Action.runNested nested frame loop.actions s!"{frame.actionId}-loop-{n + 1}"
        (some "loop cancelled during action execution")).Ends s₁ t' r s₂)
      (ht' : ∀ d ∈ t'', d.Mute) : Rounds n s (t ++ (t' ++ t'')) s'
  /-- The loop goes on after the pause. -/
  | again {n : Nat} {s s₁ s₂ s' : LoopState} {t t' t'' : List Deed}
      (ht : ∀ d ∈ t, d.Mute) (hs : s₁.localLoopIndex = n + 1)
      (h : (Action.runNested nested frame loop.actions s!"{frame.actionId}-loop-{n + 1}"
        (some "loop cancelled during action execution")).Ends s₁ t' (.ok ()) s₂)
      (hrest : Rounds (n + 1) s₂ t'' s') :
      Rounds n s (t ++ (t' ++ .wait (.sleep pause) :: .wake .resumed :: t'')) s'

end Rounds

variable {ctx : LoopContext} {nested : Dispatcher} {frame : Frame} {loop : Loop} {started : Rat}
  {n m : Nat} {f f' : Fields} {s s' : LoopState} {t : List Deed} {r : Except Failure String}

theorem stays_conditionMet : (conditionMet ctx frame loop).Stays fun _ => Deed.Mute := by
  have hfailed (error : String) : (do
      Work.lift (Act.log (.warning "loop_condition_check_failed"
        [("action_id", .text frame.actionId), ("selector", .text loop.selector),
         ("error", .text error)]))
      return false : Work Bool).Stays fun _ => Deed.Mute :=
    .bind (IfElse.stays_call trivial) fun _ => Work.stays_pure _
  unfold conditionMet
  split
  · exact Work.stays_pure _
  · refine Work.stays_ite (Work.stays_pure _) (Work.stays_ite (hfailed _) ?_)
    refine .bind (IfElse.stays_call trivial) fun reply => ?_
    cases reply with
    | ok reply => exact Work.stays_pure _
    | error f => exact hfailed _

theorem stays_exit (n : Nat) (reason : String) : (exit n reason).Stays fun _ => Deed.Mute :=
  .bind (Work.stays_report _) fun _ => Work.stays_pure _

theorem stays_forceStop (n : Nat) (reasons : List String) :
    (forceStop frame loop n reasons).Stays fun _ => Deed.Mute :=
  Work.stays_ite (Work.stays_throw _) (stays_exit _ _)

/-- At the beginning of an iteration the local loop index is set to its number. -/
theorem ends_opens {r : Except Failure Bool} (h : (opens ctx frame loop n).Ends f s t r f' s') :
    (∀ d ∈ t, d.Mute) ∧ ((∃ met, r = .ok met) → s'.localLoopIndex = n + 1) := by
  rcases Work.ends_bind_iff.mp h with ⟨t₁, _, f₁, s₁, t₂, rfl, h₁, h₂⟩ | ⟨e, h₁, rfl⟩
  · rcases Work.ends_bind_iff.mp h₂ with ⟨t₃, _, f₂, s₂, t₄, rfl, h₃, h₄⟩ | ⟨e, h₃, -⟩
    · obtain ⟨-, ⟨rfl, -⟩ | ⟨_, -, hr⟩⟩ :=
        Act.ends_checkpoint_iff.mp (Work.ends_lift_iff.mp h₁).1
      · obtain ⟨rfl, -, rfl⟩ := Act.ends_modify_iff.mp (Work.ends_lift_iff.mp h₃).1
        obtain ⟨hsame, hmute⟩ := stays_conditionMet _ _ _ _ _ _ h₄
        refine ⟨?_, fun _ => hsame⟩
        simpa [Deed.Mute] using hmute
      · cases hr
    · obtain ⟨-, hr, -⟩ := Act.ends_modify_iff.mp (Work.ends_lift_iff.mp h₃).1
      cases hr
  · obtain ⟨-, ⟨-, hr⟩ | ⟨_, rfl, -⟩⟩ := Act.ends_checkpoint_iff.mp (Work.ends_lift_iff.mp h₁).1
    · cases hr
    · exact ⟨List.forall_mem_singleton.mpr trivial, nofun⟩

/-- The rest of an iteration is to run the actions of the loop, and to pause if none has failed. -/
theorem ends_rest {r : Except Failure Unit} (h : (rest nested frame loop n).Ends f s t r f' s') :
    ∃ t₁ t₂ r₁ s₁, t = t₁ ++ t₂ ∧ (Action.runNested nested frame loop.actions
        s!"{frame.actionId}-loop-{n + 1}"
        (some "loop cancelled during action execution")).Ends s t₁ r₁ s₁ ∧
      ((∀ d ∈ t₂, d.Mute) ∧ r ≠ .ok () ∨
        t₂ = [.wait (.sleep pause), .wake .resumed] ∧ r₁ = .ok () ∧ r = .ok () ∧ s' = s₁) := by
  rcases Work.ends_bind_iff.mp h with ⟨t₁, _, f₁, s₁, t₂, rfl, h₁, h₂⟩ | ⟨e, h₁, rfl⟩
  · refine ⟨t₁, t₂, _, s₁, rfl, (Work.ends_lift_iff.mp h₁).1, ?_⟩
    rcases Work.ends_bind_iff.mp h₂ with ⟨t₃, _, f₂, s₂, t₄, rfl, h₃, h₄⟩ | ⟨e, h₃, -⟩
    · obtain ⟨rfl, -, -, rfl⟩ := Work.ends_report_iff.mp h₃
      obtain ⟨rfl, ⟨rfl, hr⟩ | ⟨rfl, rfl⟩⟩ := Act.ends_await_iff.mp (Work.ends_lift_iff.mp h₄).1
      · exact .inr ⟨rfl, rfl, hr, rfl⟩
      · exact .inl ⟨by simp [Deed.Mute], nofun⟩
    · obtain ⟨-, hr, -⟩ := Work.ends_report_iff.mp h₃
      cases hr
  · exact ⟨t, [], _, s', (List.append_nil t).symm, (Work.ends_lift_iff.mp h₁).1,
      .inl ⟨List.forall_mem_nil _, nofun⟩⟩

/-- Unless the loop ends at the beginning of an iteration, it goes on behind some mute deeds. -/
theorem rounds_of_begin {goOn : List String → Work String}
    (h : (begin ctx frame loop started n goOn).Ends f s t r f' s')
    (hgoOn : ∀ (t₁ t₂ : List Deed) (f₁ : Fields) (s₁ : LoopState) (reasons : List String),
      (∀ d ∈ t₁, d.Mute) → s₁.localLoopIndex = n + 1 →
      (goOn reasons).Ends f₁ s₁ t₂ r f' s' → Rounds nested frame loop n s (t₁ ++ t₂) s') :
    Rounds nested frame loop n s t s' := by
  rcases ends_begin_iff.mp h with ⟨e, h₁, -⟩ | ⟨t₁, t₂, f₁, s₁, rfl, h₁, h₂⟩ |
    ⟨t₁, now, t₂, f₁, s₁, rfl, h₁, h₂⟩
  · exact .ends (ends_opens h₁).1
  · exact .ends (List.forall_mem_append.mpr ⟨(ends_opens h₁).1, (stays_exit _ _ _ _ _ _ _ _ h₂).2⟩)
  · obtain ⟨hmute, hset⟩ := ends_opens h₁
    have hlooked : ∀ d ∈ t₁ ++ [.call .now now], d.Mute :=
      List.forall_mem_append.mpr ⟨hmute, List.forall_mem_singleton.mpr trivial⟩
    simpa using hgoOn _ _ _ _ _ hlooked (hset ⟨false, rfl⟩) h₂

theorem rounds_of_stop {t₁ t₂ : List Deed} {f₁ : Fields} {s₁ : LoopState} {reasons : List String}
    (ht₁ : ∀ d ∈ t₁, d.Mute) (h : (forceStop frame loop n reasons).Ends f₁ s₁ t₂ r f' s') :
    Rounds nested frame loop n s (t₁ ++ t₂) s' :=
  .ends (List.forall_mem_append.mpr ⟨ht₁, (stays_forceStop n reasons _ _ _ _ _ _ h).2⟩)

/-- **Loops.** A loop does its iterations one after another. -/
theorem rounds_of_ends (h : (iterate ctx nested frame loop started m n).Ends f s t r f' s') :
    Rounds nested frame loop n s t s' := by
  induction m generalizing n f s t with
  | zero => exact rounds_of_begin h fun _ _ _ _ _ ht₁ _ h₂ => rounds_of_stop ht₁ h₂
  | succ m ih =>
    rw [iterate_succ] at h
    refine rounds_of_begin h fun t₁ t₂ f₁ s₁ reasons ht₁ hset h₂ => ?_
    split at h₂
    · rcases Work.ends_bind_iff.mp h₂ with ⟨t₃, _, f₂, s₂, t₄, rfl, h₃, h₄⟩ | ⟨e, h₃, -⟩
      · obtain ⟨t₅, t₆, r₁, s₃, rfl, hrun, ⟨-, hr⟩ | ⟨rfl, rfl, -, rfl⟩⟩ := ends_rest h₃
        · exact absurd rfl hr
        · simpa using Rounds.again ht₁ hset hrun (ih h₄)
      · obtain ⟨t₅, t₆, r₁, s₃, rfl, hrun, ⟨ht₆, -⟩ | ⟨-, -, hr, -⟩⟩ := ends_rest h₃
        · exact .breaks ht₁ hset hrun ht₆
        · cases hr
    · exact rounds_of_stop ht₁ h₂

/-- What the looping action does is to look at the clock and to do its iterations. Afterwards the
local loop index is what it was before. -/
theorem ends_behave {params : Fields} (h : (behave ctx nested frame params).Ends f s t r f' s') :
    s'.localLoopIndex = s.localLoopIndex ∧ ∃ now t' s₁, t = .call .now now :: t' ∧
      Rounds nested frame (Loop.ofParams params) 0 s t' s₁ := by
  rcases Work.ends_bind_iff.mp h with ⟨t₁, now, f₁, s₁, t₂, rfl, h₁, h₂⟩ | ⟨e, h₁, -⟩
  · obtain ⟨_, rfl, -, rfl⟩ := Act.ends_ask_iff.mp (Work.ends_lift_iff.mp h₁).1
    obtain ⟨s₂, hends, rfl⟩ := ends_restoringLocalIndex_iff.mp h₂
    exact ⟨rfl, _, t₂, s₂, rfl, rounds_of_ends hends⟩
  · obtain ⟨_, -, hr, -⟩ := Act.ends_ask_iff.mp (Work.ends_lift_iff.mp h₁).1
    cases hr

end LoopUntil

end Runbook
