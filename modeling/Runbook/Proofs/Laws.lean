import Runbook.Action.Kind
import Runbook.Proofs.Trace

/-!
# Laws of traces

A law says which traces may come to which outcome: success, or a failure. A part of a loop index
obeys a law when all its traces do, whatever the replies are. Laws that go together with doing one
thing after another are obeyed by a part as soon as they are obeyed by the parts that it is made of,
so that each way to build a part has one lemma here.

* `Act.Obeys L m`: all that the part `m` of a loop index can do is lawful.
* `Work.Obeys L m`: the same for the work of an action.
-/

namespace Runbook

variable {α β : Type}

/-- How a part failed, if it did. -/
def failureOf : Except Failure α → Option Failure
  | .ok _ => none
  | .error e => some e

/-- Which traces may come to which outcome: success, or a failure. -/
abbrev Law := List Deed → Option Failure → Prop

/-- To do nothing is lawful, and so is one lawful thing after another. -/
structure Law.Sequential (L : Law) : Prop where
  nil : L [] none
  append {t t' : List Deed} {o : Option Failure} : L t none → L t' o → L (t ++ t') o

/-! ### Parts of a loop index -/

namespace Act

/-- All that a part of a loop index can do is lawful. -/
def Obeys (L : Law) (m : Act α) : Prop := ∀ s t r s', m.Ends s t r s' → L t (failureOf r)

variable {L : Law}

theorem obeys_pure (hL : L.Sequential) (a : α) : (pure a : Act α).Obeys L := by
  intro s t r s' h
  obtain ⟨rfl, rfl, -⟩ := ends_pure_iff.mp h
  exact hL.nil

theorem Obeys.bind (hL : L.Sequential) {m : Act α} {f : α → Act β} (hm : m.Obeys L)
    (hf : ∀ a, (f a).Obeys L) : (m >>= f).Obeys L := by
  intro s t r s' h
  rcases ends_bind_iff.mp h with ⟨t₁, a, s₁, t₂, rfl, h₁, h₂⟩ | ⟨e, h₁, rfl⟩
  · exact hL.append (hm _ _ _ _ h₁) (hf a _ _ _ _ h₂)
  · exact hm _ _ _ _ h₁

theorem obeys_ite {c : Prop} [Decidable c] {m m' : Act α} (hm : m.Obeys L) (hm' : m'.Obeys L) :
    (if c then m else m').Obeys L := by
  split
  · exact hm
  · exact hm'

theorem obeys_lift {p : Program α} (hp : ∀ t a, p.Ends t a → L t none) : (lift p).Obeys L := by
  intro s t r s' h
  obtain ⟨a, ha, rfl, -⟩ := ends_lift_iff.mp h
  exact hp t a ha

theorem obeys_ask {c : Call} (hc : ∀ r, L [.call c r] none) : (ask c).Obeys L := by
  refine obeys_lift fun t r h => ?_
  obtain rfl := Program.ends_ask_iff.mp h
  exact hc r

theorem obeys_fail {e : Failure} (he : L [] (some e)) : (fail e : Act α).Obeys L := by
  intro s t r s' h
  obtain ⟨rfl, rfl, -⟩ := ends_fail_iff.mp h
  exact he

theorem obeys_ofExcept (hL : L.Sequential) {x : Except Failure α}
    (hx : ∀ e, x = .error e → L [] (some e)) : (ofExcept x).Obeys L := by
  cases x with
  | ok a => exact obeys_pure hL a
  | error e => exact obeys_fail (hx e rfl)

/-- A value that may be missing first, and then what depends on it. -/
theorem obeys_ofExcept_bind (hL : L.Sequential) {x : Except Failure α} {f : α → Act β}
    (hx : ∀ e, x = .error e → L [] (some e)) (hf : ∀ a, x = .ok a → (f a).Obeys L) :
    (ofExcept x >>= f).Obeys L := by
  intro s t r s' h
  rcases ends_bind_iff.mp h with ⟨t₁, a, s₁, t₂, rfl, h₁, h₂⟩ | ⟨e, h₁, rfl⟩
  · obtain ⟨rfl, hx, rfl⟩ := ends_ofExcept_iff.mp h₁
    exact hL.append hL.nil (hf a hx.symm _ _ _ _ h₂)
  · obtain ⟨rfl, he, -⟩ := ends_ofExcept_iff.mp h₁
    exact hx e he.symm

/-- A call that may fail. -/
theorem obeys_attempt (hL : L.Sequential) {p : Program (Except Fault α)}
    (hp : ∀ t x, p.Ends t x → L t none) (hf : ∀ f, L [] (some (.fault f))) :
    (attempt p).Obeys L := by
  refine .bind hL (obeys_lift hp) fun x => ?_
  cases x with
  | ok a => exact obeys_pure hL a
  | error f => exact obeys_fail (hf f)

theorem obeys_await {w : Wait} (hresumed : L [.wait w, .wake .resumed] none)
    (hinterrupted : L [.wait w, .wake .interrupted] (some .interrupted)) : (await w).Obeys L := by
  intro s t r s' h
  obtain ⟨-, ⟨rfl, rfl⟩ | ⟨rfl, rfl⟩⟩ := ends_await_iff.mp h
  · exact hresumed
  · exact hinterrupted

theorem obeys_checkpoint {message : String} (hgo : L [.call .cancellation none] none)
    (hstop : ∀ c : Cancellation,
      L [.call .cancellation (some c)] (some (.error (c.toError message)))) :
    (checkpoint message).Obeys L := by
  intro s t r s' h
  obtain ⟨-, ⟨rfl, rfl⟩ | ⟨c, rfl, rfl⟩⟩ := ends_checkpoint_iff.mp h
  · exact hgo
  · exact hstop c

/-- What follows a checkpoint is done right after a look that has found nothing. -/
theorem obeys_checkpoint_bind {message : String} {m : Act α}
    (hstop : ∀ c : Cancellation,
      L [.call .cancellation (some c)] (some (.error (c.toError message))))
    (hm : ∀ s t r s', m.Ends s t r s' → L (.call .cancellation none :: t) (failureOf r)) :
    (checkpoint message >>= fun _ => m).Obeys L := by
  intro s t r s' h
  rcases ends_bind_iff.mp h with ⟨t₁, _, s₁, t₂, rfl, h₁, h₂⟩ | ⟨e, h₁, rfl⟩
  · obtain ⟨rfl, ⟨rfl, -⟩ | ⟨_, -, hr⟩⟩ := ends_checkpoint_iff.mp h₁
    · exact hm _ _ _ _ h₂
    · cases hr
  · obtain ⟨-, ⟨-, hr⟩ | ⟨c, rfl, hr⟩⟩ := ends_checkpoint_iff.mp h₁
    · cases hr
    · cases hr
      exact hstop c

theorem ends_get_iff {s s' : LoopState} {t : List Deed} {r : Except Failure LoopState} :
    (get : Act LoopState).Ends s t r s' ↔ t = [] ∧ r = .ok s ∧ s' = s := by
  change (pure (.ok s, s) : Program _).Ends t (r, s') ↔ _
  simp

theorem obeys_get (hL : L.Sequential) : (get : Act LoopState).Obeys L := by
  intro s t r s' h
  obtain ⟨rfl, rfl, -⟩ := ends_get_iff.mp h
  exact hL.nil

theorem ends_modify_iff {f : LoopState → LoopState} {s s' : LoopState} {t : List Deed}
    {r : Except Failure Unit} :
    (modify f : Act Unit).Ends s t r s' ↔ t = [] ∧ r = .ok () ∧ s' = f s := by
  change (pure (.ok (), f s) : Program _).Ends t (r, s') ↔ _
  simp

theorem obeys_modify (hL : L.Sequential) (f : LoopState → LoopState) :
    (modify f : Act Unit).Obeys L := by
  intro s t r s' h
  obtain ⟨rfl, rfl, -⟩ := ends_modify_iff.mp h
  exact hL.nil

theorem obeys_forM (hL : L.Sequential) {f : α → Act PUnit} {as : List α}
    (hf : ∀ a ∈ as, (f a).Obeys L) : (as.forM f).Obeys L := by
  induction as with
  | nil => exact obeys_pure hL _
  | cons a as ih =>
    exact .bind hL (hf a List.mem_cons_self) fun _ =>
      ih fun b hb => hf b (List.mem_cons_of_mem _ hb)

/-- To emit an event is to look at the clock and to offer the event, at its place. -/
theorem ends_emit_iff {ctx : LoopContext} {frame : Frame} {type : EventType}
    {content : RunEvent → RunEvent} {s s' : LoopState} {t : List Deed} {r : Except Failure Unit} :
    (emit ctx frame type content).Ends s t r s' ↔ ∃ now taken, r = .ok () ∧ s' = s ∧
      t = [.call .now now, .call (.emit (content (frame.event type (.ofMillis now) ctx.loopIndex
        s.localLoopIndex))) taken] := by
  change (Program.call .now fun now => Program.call (.emit (content (frame.event type
    (.ofMillis now) ctx.loopIndex s.localLoopIndex))) fun _ => Program.done (.ok (), s)).Ends t
      (r, s') ↔ _
  simp only [Program.ends_call_iff, Program.ends_done_iff, Prod.mk.injEq]
  constructor
  · rintro ⟨now, _, rfl, taken, _, rfl, rfl, rfl, rfl⟩
    exact ⟨now, taken, rfl, rfl, rfl⟩
  · rintro ⟨now, taken, rfl, rfl, rfl⟩
    exact ⟨now, _, rfl, taken, _, rfl, rfl, rfl, rfl⟩

end Act

/-! ### The work of an action -/

namespace Work

/-- The work `m` can do `t` and end with `r`; it takes the report from `f` to `f'` and the variables
from `s` to `s'`. -/
def Ends (m : Work α) (f : Fields) (s : LoopState) (t : List Deed) (r : Except Failure α)
    (f' : Fields) (s' : LoopState) : Prop :=
  ((m.run.run f).run s).Ends t ((r, f'), s')

variable {f f' : Fields} {s s' : LoopState} {t : List Deed}

theorem ends_pure_iff {a : α} {r : Except Failure α} :
    (pure a : Work α).Ends f s t r f' s' ↔ t = [] ∧ r = .ok a ∧ f' = f ∧ s' = s := by
  change (pure ((.ok a, f), s) : Program _).Ends t ((r, f'), s') ↔ _
  simp [and_assoc]

/-- One part of the work after another: the second begins where the first succeeded. -/
theorem ends_bind_iff {m : Work α} {g : α → Work β} {r : Except Failure β} :
    (m >>= g).Ends f s t r f' s' ↔
      (∃ t₁ a f₁ s₁ t₂, t = t₁ ++ t₂ ∧ m.Ends f s t₁ (.ok a) f₁ s₁ ∧ (g a).Ends f₁ s₁ t₂ r f' s') ∨
      ∃ e, m.Ends f s t (.error e) f' s' ∧ r = .error e := by
  change (((m.run.run f).run s) >>= fun x =>
    ((ExceptT.bindCont g x.1.1).run x.1.2).run x.2).Ends t ((r, f'), s') ↔ _
  rw [Program.ends_bind_iff]
  constructor
  · rintro ⟨t₁, ⟨⟨r₁, f₁⟩, s₁⟩, t₂, rfl, h₁, h₂⟩
    cases r₁ with
    | ok a => exact .inl ⟨t₁, a, f₁, s₁, t₂, rfl, h₁, h₂⟩
    | error e =>
      change (pure ((.error e, f₁), s₁) : Program _).Ends t₂ ((r, f'), s') at h₂
      obtain ⟨rfl, h⟩ := Program.ends_pure_iff.mp h₂
      simp only [Prod.mk.injEq] at h
      obtain ⟨⟨rfl, rfl⟩, rfl⟩ := h
      rw [List.append_nil]
      exact .inr ⟨e, h₁, rfl⟩
  · rintro (⟨t₁, a, f₁, s₁, t₂, rfl, h₁, h₂⟩ | ⟨e, h, rfl⟩)
    · exact ⟨t₁, ((.ok a, f₁), s₁), t₂, rfl, h₁, h₂⟩
    · exact ⟨t, ((.error e, f'), s'), [], (List.append_nil t).symm, h,
        Program.ends_pure_iff.mpr ⟨rfl, rfl⟩⟩

/-- Work succeeds if both of its parts do. -/
theorem ends_bind_ok_iff {m : Work α} {g : α → Work β} {b : β} :
    (m >>= g).Ends f s t (.ok b) f' s' ↔ ∃ t₁ a f₁ s₁ t₂, t = t₁ ++ t₂ ∧
      m.Ends f s t₁ (.ok a) f₁ s₁ ∧ (g a).Ends f₁ s₁ t₂ (.ok b) f' s' := by
  rw [ends_bind_iff, or_iff_left]
  rintro ⟨e, -, he⟩
  cases he

/-- A part of a loop index leaves the report as it is. -/
theorem ends_lift_iff {m : Act α} {r : Except Failure α} :
    (lift m).Ends f s t r f' s' ↔ m.Ends s t r s' ∧ f' = f := by
  change (((m.run.run s) >>= fun x => pure ((x.1, f), x.2)) : Program _).Ends t ((r, f'), s') ↔ _
  simp only [Program.ends_bind_iff, Program.ends_pure_iff, Prod.mk.injEq]
  constructor
  · rintro ⟨t₁, ⟨r₁, s₁⟩, _, rfl, h, rfl, ⟨rfl, rfl⟩, rfl⟩
    rw [List.append_nil]
    exact ⟨h, rfl⟩
  · rintro ⟨h, rfl⟩
    exact ⟨t, (r, s'), [], by simp, h, rfl, ⟨rfl, rfl⟩, rfl⟩

theorem ends_throw_iff {e : Failure} {r : Except Failure α} :
    (throw e : Work α).Ends f s t r f' s' ↔ t = [] ∧ r = .error e ∧ f' = f ∧ s' = s := by
  change (pure ((.error e, f), s) : Program _).Ends t ((r, f'), s') ↔ _
  simp [and_assoc]

/-- All that the work of an action can do is lawful. -/
def Obeys (L : Law) (m : Work α) : Prop :=
  ∀ f s t r f' s', m.Ends f s t r f' s' → L t (failureOf r)

variable {L : Law}

theorem obeys_pure (hL : L.Sequential) (a : α) : (pure a : Work α).Obeys L := by
  intro f s t r f' s' h
  obtain ⟨rfl, rfl, -, -⟩ := ends_pure_iff.mp h
  exact hL.nil

theorem Obeys.bind (hL : L.Sequential) {m : Work α} {g : α → Work β} (hm : m.Obeys L)
    (hg : ∀ a, (g a).Obeys L) : (m >>= g).Obeys L := by
  intro f s t r f' s' h
  rcases ends_bind_iff.mp h with ⟨t₁, a, f₁, s₁, t₂, rfl, h₁, h₂⟩ | ⟨e, h₁, rfl⟩
  · exact hL.append (hm _ _ _ _ _ _ h₁) (hg a _ _ _ _ _ _ h₂)
  · exact hm _ _ _ _ _ _ h₁

theorem obeys_ite {c : Prop} [Decidable c] {m m' : Work α} (hm : m.Obeys L) (hm' : m'.Obeys L) :
    (if c then m else m').Obeys L := by
  split
  · exact hm
  · exact hm'

theorem obeys_lift {m : Act α} (hm : m.Obeys L) : (lift m).Obeys L := by
  intro f s t r f' s' h
  exact hm _ _ _ _ (ends_lift_iff.mp h).1

/-- A value that may be missing first, and then what depends on it. -/
theorem obeys_ofExcept_bind {x : Except Failure α} {g : α → Work β}
    (hx : ∀ e, x = .error e → L [] (some e)) (hg : ∀ a, x = .ok a → (g a).Obeys L) :
    (lift (Act.ofExcept x) >>= g).Obeys L := by
  intro f s t r f' s' h
  rcases ends_bind_iff.mp h with ⟨t₁, a, f₁, s₁, t₂, rfl, h₁, h₂⟩ | ⟨e, h₁, rfl⟩
  · obtain ⟨rfl, ha, rfl⟩ := Act.ends_ofExcept_iff.mp (ends_lift_iff.mp h₁).1
    exact hg a ha.symm _ _ _ _ _ _ h₂
  · obtain ⟨rfl, he, -⟩ := Act.ends_ofExcept_iff.mp (ends_lift_iff.mp h₁).1
    exact hx e he.symm

theorem obeys_throw {e : Failure} (he : L [] (some e)) : (throw e : Work α).Obeys L := by
  intro f s t r f' s' h
  obtain ⟨rfl, rfl, -, -⟩ := ends_throw_iff.mp h
  exact he

theorem ends_report_iff {g : Fields → Fields} {r : Except Failure Unit} :
    (report g).Ends f s t r f' s' ↔ t = [] ∧ r = .ok () ∧ f' = g f ∧ s' = s := by
  change (pure ((.ok (), g f), s) : Program _).Ends t ((r, f'), s') ↔ _
  simp [and_assoc]

theorem obeys_report (hL : L.Sequential) (g : Fields → Fields) : (report g).Obeys L := by
  intro f s t r f' s' h
  obtain ⟨rfl, rfl, -, -⟩ := ends_report_iff.mp h
  exact hL.nil

theorem ends_getThe_iff {r : Except Failure LoopState} :
    (getThe LoopState : Work LoopState).Ends f s t r f' s' ↔
      t = [] ∧ r = .ok s ∧ f' = f ∧ s' = s := by
  change (pure ((.ok s, f), s) : Program _).Ends t ((r, f'), s') ↔ _
  simp [and_assoc]

theorem obeys_getThe (hL : L.Sequential) : (getThe LoopState : Work LoopState).Obeys L := by
  intro f s t r f' s' h
  obtain ⟨rfl, rfl, -, -⟩ := ends_getThe_iff.mp h
  exact hL.nil

/-- A call first, and then what depends on the reply. -/
theorem ends_ask_bind_iff {c : Call} {g : c.Reply → Work α} {r : Except Failure α} :
    (lift (Act.ask c) >>= g).Ends f s t r f' s' ↔
      ∃ a t', t = .call c a :: t' ∧ (g a).Ends f s t' r f' s' := by
  rw [ends_bind_iff]
  constructor
  · rintro (⟨t₁, a, f₁, s₁, t₂, rfl, h₁, h₂⟩ | ⟨e, h₁, -⟩)
    · obtain ⟨hask, rfl⟩ := ends_lift_iff.mp h₁
      obtain ⟨_, rfl, hr, rfl⟩ := Act.ends_ask_iff.mp hask
      cases hr
      exact ⟨a, t₂, rfl, h₂⟩
    · obtain ⟨_, -, hr, -⟩ := Act.ends_ask_iff.mp (ends_lift_iff.mp h₁).1
      cases hr
  · rintro ⟨a, t', rfl, h⟩
    refine .inl ⟨[.call c a], a, f, s, t', rfl, ends_lift_iff.mpr ⟨?_, rfl⟩, h⟩
    exact Act.ends_ask_iff.mpr ⟨a, rfl, rfl, rfl⟩

/-- A value that is there, and then what depends on it. -/
theorem ofExcept_ok_bind (b : β) (g : β → Work α) :
    lift (Act.ofExcept (.ok b)) >>= g = g b := rfl

theorem ofExcept_mapError_ok_bind (h : Fault → Failure) (b : β) (g : β → Work α) :
    lift (Act.ofExcept ((Except.ok b).mapError h)) >>= g = g b := rfl

/-- The variables as they are, and then what depends on them. -/
theorem ends_getThe_bind_iff {g : LoopState → Work β} {r : Except Failure β} :
    (getThe LoopState >>= g).Ends f s t r f' s' ↔ (g s).Ends f s t r f' s' :=
  Iff.rfl

/-- A change of the report, and then the rest. -/
theorem ends_report_bind_iff {h : Fields → Fields} {g : Unit → Work β} {r : Except Failure β} :
    (report h >>= g).Ends f s t r f' s' ↔ (g ()).Ends (h f) s t r f' s' :=
  Iff.rfl

end Work

/-! ### Liberal laws -/

/-- A call that concerns neither events nor the request to stop, and that does not begin an
action. -/
def Call.Plain : Call → Prop
  | .now | .log _ | .chance | .setChance _ | .globals | .setGlobal _ _
  | .page _ _ | .screenshot _ _ | .upload _ _ _ | .delete _ | .list _ | .request _ => True
  | _ => False

/-- A plain call that is answered without the help of anything outside. -/
def Call.Prompt (c : Call) : Prop := c.Plain ∧ ¬ c.TakesTime

/-- Whether a failure reports a cancellation, and if so whether by timeout. -/
def Failure.cancellation? : Failure → Option Bool
  | .error e => e.cancellation?
  | _ => none

/-- A failure of its own: neither the answer to a request to stop nor an interruption. -/
def Failure.Own (e : Failure) : Prop := e.cancellation? = none ∧ e ≠ .interrupted

/-- Plain calls are lawful, and so are failures of a part's own. -/
structure Law.Liberal (L : Law) : Prop extends L.Sequential where
  call {c : Call} {r : c.Reply} : c.Plain → L [.call c r] none
  fail {e : Failure} : e.Own → L [] (some e)

theorem Law.Liberal.calls {L : Law} (hL : L.Liberal) {t : List Deed}
    (ht : ∀ d ∈ t, ∃ c r, d = .call c r ∧ c.Plain) : L t none := by
  induction t with
  | nil => exact hL.nil
  | cons d t ih =>
    obtain ⟨c, r, rfl, hc⟩ := ht d List.mem_cons_self
    exact hL.append (hL.call hc) (ih fun d hd => ht d (List.mem_cons_of_mem _ hd))

theorem Failure.own_fault (f : Fault) : (Failure.fault f).Own := ⟨rfl, nofun⟩

theorem Failure.own_error {e : RunError} (he : e.cancellation? = none) : (Failure.error e).Own :=
  ⟨he, nofun⟩

theorem Template.ResolveFault.own_toFailure (e : Template.ResolveFault) : e.toFailure.Own := by
  cases e with
  | tooDeep key => exact Failure.own_error rfl
  | badCount digits => exact Failure.own_fault _

theorem own_of_mapError {x : Except Fault α} {e : Failure} (h : x.mapError .fault = .error e) :
    e.Own := by
  cases x with
  | ok a => cases h
  | error f =>
    cases h
    exact Failure.own_fault f

theorem eq_ok_of_mapError {x : Except Fault α} {a : α} (h : x.mapError Failure.fault = .ok a) :
    x = .ok a := by
  cases x <;> cases h
  rfl

namespace Act

variable {L : Law}

theorem obeys_plain (hL : L.Liberal) {c : Call} (hc : c.Plain) : (ask c).Obeys L :=
  obeys_ask fun _ => hL.call hc

theorem obeys_own (hL : L.Liberal) {e : Failure} (he : e.Own) : (fail e : Act α).Obeys L :=
  obeys_fail (hL.fail he)

/-- Plain calls that may fail. -/
theorem obeys_attempt_plain (hL : L.Liberal) {p : Program (Except Fault α)}
    (hp : p.Only Call.Plain fun _ => False) : (attempt p).Obeys L :=
  obeys_attempt hL.toSequential (fun _ _ h => hL.calls (hp.deed_of_ends h)) fun f =>
    hL.fail (Failure.own_fault f)

theorem obeys_log (hL : L.Liberal) (r : LogRecord) : (log r).Obeys L := obeys_plain hL trivial

theorem obeys_resolving (hL : L.Liberal) (ctx : LoopContext)
    (m : Template.Environment → Template.ResolveM α) : (resolving ctx m).Obeys L := by
  have hs := hL.toSequential
  have hcontext : (contextNow ctx).Obeys L :=
    .bind hs (obeys_get hs) fun _ => .bind hs (obeys_plain hL trivial) fun _ => obeys_pure hs _
  refine .bind hs hcontext fun context => .bind hs (obeys_plain hL trivial) fun now =>
    .bind hs (obeys_plain hL trivial) fun chance => .bind hs (obeys_plain hL trivial) fun _ =>
      .bind hs (obeys_forM hs fun r _ => obeys_log hL r) fun _ => ?_
  split
  · exact obeys_pure hs _
  · exact obeys_own hL (Template.ResolveFault.own_toFailure _)

end Act

end Runbook
