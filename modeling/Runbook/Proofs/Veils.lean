import Runbook.Proofs.Laws
import Mathlib.Data.List.Forall2
import Mathlib.Tactic.ByContra

/-!
# Two programs under a veil

Two programs that go on side by side are told the same, and do the same but for the headers of the
requests that they send: over these there is a veil. Nothing that comes later depends on what is
under it, for the replies are those that both are told. So to whoever cannot look into a request,
they are one program.

That is a relation between the trees of the two programs, with one way to go on for each way in
which a program is built. What is shown of the parts holds of the whole, and then of any two
executions in which the surroundings never answer the one otherwise than the other.

* `Api.Request.Veiled q q'`: two requests that are the same, headers aside.
* `Program.Veiled R p p'`: the programs `p` and `p'` go on alike under the veil, to ends in `R`.
* `Act.Veiled R m m'`, `Work.Veiled R m m'`: the same for parts of a loop index and for the work of
  actions, with variables in `R` before and after.
* `AnsweredAlike t t'`: the surroundings do not answer otherwise in the one trace than in the other.
* `Program.Veiled.of_ends`: what two such executions have in common.
-/

namespace Runbook

variable {α β : Type}

/-- Two requests that are the same, headers aside. -/
structure Api.Request.Veiled (q q' : Api.Request) : Prop where
  method : q.method = q'.method
  url : q.url = q'.url
  body : q.body = q'.body
  timeout : q.timeout = q'.timeout

/-! ### Deeds -/

/-- Two deeds that are the same, the headers of requests aside. -/
inductive Deed.Veiled : Deed → Deed → Prop
  | same (d : Deed) : Veiled d d
  | request {q q' : Api.Request} (h : q.Veiled q') (reply : Except Api.NoResponse Api.Response) :
      Veiled (.call (.request q) reply) (.call (.request q') reply)

/-- The surroundings answer otherwise in the one deed than in the other: the same call, or a request
of each, gets another reply, or a wait ends in another way. -/
inductive Deed.Contrary : Deed → Deed → Prop
  | call {c : Call} {r r' : c.Reply} (h : r ≠ r') : Contrary (.call c r) (.call c r')
  | request {q q' : Api.Request} {r r' : Except Api.NoResponse Api.Response} (h : r ≠ r') :
      Contrary (.call (.request q) r) (.call (.request q') r')
  | wake {w w' : Wake} (h : w ≠ w') : Contrary (.wake w) (.wake w')

/-- Of two traces, the surroundings do not answer otherwise in the one than in the other. -/
def AnsweredAlike (t t' : List Deed) : Prop := ∀ p ∈ t.zip t', ¬ p.1.Contrary p.2

theorem answeredAlike_cons_iff {d d' : Deed} {t t' : List Deed} :
    AnsweredAlike (d :: t) (d' :: t') ↔ ¬ d.Contrary d' ∧ AnsweredAlike t t' := by
  rw [AnsweredAlike, List.zip_cons_cons, List.forall_mem_cons]
  rfl

theorem Deed.Veiled.not_contrary {d d' : Deed} (h : d.Veiled d') : ¬ d.Contrary d' := by
  intro hcontrary
  cases h with
  | same => cases hcontrary <;> exact absurd rfl ‹_›
  | request => cases hcontrary <;> exact absurd rfl ‹_›

/-- What is the same under the veil has been answered alike. -/
theorem answeredAlike_of_veiled {t t' : List Deed} (h : List.Forall₂ Deed.Veiled t t') :
    AnsweredAlike t t' := by
  induction h with
  | nil => exact List.forall_mem_nil _
  | cons hd _ ih => exact answeredAlike_cons_iff.mpr ⟨hd.not_contrary, ih⟩

/-- The event that a deed emits. -/
def Deed.event? : Deed → Option RunEvent
  | .call (.emit e) _ => some e
  | _ => none

/-- The events that are emitted in a trace, in order. -/
def emittedIn (t : List Deed) : List RunEvent := t.filterMap Deed.event?

/-- The same events are emitted under the veil. -/
theorem emittedIn_of_veiled {t t' : List Deed} (h : List.Forall₂ Deed.Veiled t t') :
    emittedIn t = emittedIn t' := by
  induction h with
  | nil => rfl
  | @cons d d' t t' hd _ ih =>
    have hevent : d.event? = d'.event? := by
      cases hd <;> rfl
    rw [emittedIn, emittedIn, List.filterMap_cons, List.filterMap_cons, hevent]
    cases d'.event? with
    | none => exact ih
    | some e => exact congrArg (e :: ·) ih

/-! ### Programs -/

namespace Program

/-- Two programs go on alike under the veil, and come to ends in `R`. -/
inductive Veiled (R : α → α → Prop) : Program α → Program α → Prop
  | done {a b : α} (h : R a b) : Veiled R (.done a) (.done b)
  | call {c : Call} {k k' : c.Reply → Program α} (h : ∀ r, Veiled R (k r) (k' r)) :
      Veiled R (.call c k) (.call c k')
  | request {q q' : Api.Request} {k k' : Except Api.NoResponse Api.Response → Program α}
      (hq : q.Veiled q') (h : ∀ r, Veiled R (k r) (k' r)) :
      Veiled R (.call (.request q) k) (.call (.request q') k')
  | wait {w : Wait} {k k' : Wake → Program α} (h : ∀ wake, Veiled R (k wake) (k' wake)) :
      Veiled R (.wait w k) (.wait w k')

variable {R : α → α → Prop} {p p' : Program α}

/-- One program after another goes on alike when both do. -/
theorem Veiled.bind {S : β → β → Prop} {f f' : α → Program β} (hp : p.Veiled R p')
    (hf : ∀ a b, R a b → (f a).Veiled S (f' b)) : (p >>= f).Veiled S (p' >>= f') := by
  induction hp with
  | done h => exact hf _ _ h
  | call _ ih => exact .call ih
  | request hq _ ih => exact .request hq ih
  | wait _ ih => exact .wait ih

/-- Two executions that are answered alike do the same under the veil, and come to ends in `R`. -/
theorem Veiled.of_ends {t t' : List Deed} {a b : α} (h : p.Veiled R p') (hp : p.Ends t a)
    (hp' : p'.Ends t' b) (halike : AnsweredAlike t t') :
    R a b ∧ List.Forall₂ Deed.Veiled t t' := by
  induction h generalizing t t' with
  | done h =>
    obtain ⟨rfl, rfl⟩ := ends_done_iff.mp hp
    obtain ⟨rfl, rfl⟩ := ends_done_iff.mp hp'
    exact ⟨h, .nil⟩
  | call _ ih =>
    obtain ⟨r, t, rfl, hk⟩ := ends_call_iff.mp hp
    obtain ⟨r', t', rfl, hk'⟩ := ends_call_iff.mp hp'
    obtain ⟨hsame, hrest⟩ := answeredAlike_cons_iff.mp halike
    obtain rfl : r = r' := by_contra fun hne => hsame (.call hne)
    obtain ⟨hR, hveiled⟩ := ih r hk hk' hrest
    exact ⟨hR, .cons (.same _) hveiled⟩
  | request hq _ ih =>
    obtain ⟨r, t, rfl, hk⟩ := ends_call_iff.mp hp
    obtain ⟨r', t', rfl, hk'⟩ := ends_call_iff.mp hp'
    obtain ⟨hsame, hrest⟩ := answeredAlike_cons_iff.mp halike
    obtain rfl : r = r' := by_contra fun hne => hsame (.request hne)
    obtain ⟨hR, hveiled⟩ := ih r hk hk' hrest
    exact ⟨hR, .cons (.request hq r) hveiled⟩
  | wait _ ih =>
    obtain ⟨wake, t, rfl, hk⟩ := ends_wait_iff.mp hp
    obtain ⟨wake', t', rfl, hk'⟩ := ends_wait_iff.mp hp'
    obtain ⟨hsame, hrest⟩ := answeredAlike_cons_iff.mp (answeredAlike_cons_iff.mp halike).2
    obtain rfl : wake = wake' := by_contra fun hne => hsame (.wake hne)
    obtain ⟨hR, hveiled⟩ := ih wake hk hk' hrest
    exact ⟨hR, .cons (.same _) (.cons (.same _) hveiled)⟩

/-- Whatever the one program is told, the other one can be told as well. -/
theorem Veiled.exists_ends {t : List Deed} {a : α} (h : p.Veiled R p') (hp : p.Ends t a) :
    ∃ t' b, p'.Ends t' b ∧ List.Forall₂ Deed.Veiled t t' := by
  induction h generalizing t with
  | done =>
    obtain ⟨rfl, -⟩ := ends_done_iff.mp hp
    exact ⟨[], _, ends_done_iff.mpr ⟨rfl, rfl⟩, .nil⟩
  | call _ ih =>
    obtain ⟨r, t, rfl, hk⟩ := ends_call_iff.mp hp
    obtain ⟨t', b, hp', hveiled⟩ := ih r hk
    exact ⟨_, b, .call hp', .cons (.same _) hveiled⟩
  | request hq _ ih =>
    obtain ⟨r, t, rfl, hk⟩ := ends_call_iff.mp hp
    obtain ⟨t', b, hp', hveiled⟩ := ih r hk
    exact ⟨_, b, .call hp', .cons (.request hq r) hveiled⟩
  | wait _ ih =>
    obtain ⟨wake, t, rfl, hk⟩ := ends_wait_iff.mp hp
    obtain ⟨t', b, hp', hveiled⟩ := ih wake hk
    exact ⟨_, b, .wait hp', .cons (.same _) (.cons (.same _) hveiled)⟩

end Program

/-! ### Parts of a loop index -/

/-- Two ends with the same outcome, and with variables in `R`. -/
abbrev SameOutcome (R : LoopState → LoopState → Prop) (x x' : α × LoopState) : Prop :=
  x.1 = x'.1 ∧ R x.2 x'.2

variable {R : LoopState → LoopState → Prop}

namespace Act

/-- Two parts of a loop index go on alike under the veil from the variables `s` and `s'`: they come
to the same outcome, with variables in `R`. -/
def VeiledFrom (R : LoopState → LoopState → Prop) (s s' : LoopState) (m m' : Act α) : Prop :=
  (m.run.run s).Veiled (SameOutcome R) (m'.run.run s')

/-- Two parts of a loop index go on alike under the veil from all variables in `R`. -/
def Veiled (R : LoopState → LoopState → Prop) (m m' : Act α) : Prop :=
  ∀ s s', R s s' → VeiledFrom R s s' m m'

theorem veiled_pure (a : α) : (pure a : Act α).Veiled R (pure a) :=
  fun _ _ hs => .done ⟨rfl, hs⟩

theorem veiled_fail (e : Failure) : (fail e : Act α).Veiled R (fail e) :=
  fun _ _ hs => .done ⟨rfl, hs⟩

theorem Veiled.bind {m m' : Act α} {f f' : α → Act β} (hm : m.Veiled R m')
    (hf : ∀ a, (f a).Veiled R (f' a)) : (m >>= f).Veiled R (m' >>= f') := by
  intro s s' hs
  change ((m.run.run s) >>= fun x => (ExceptT.bindCont f x.1).run x.2).Veiled _
    ((m'.run.run s') >>= fun x => (ExceptT.bindCont f' x.1).run x.2)
  refine Program.Veiled.bind (hm s s' hs) ?_
  rintro ⟨r, u⟩ ⟨-, u'⟩ ⟨rfl, hu⟩
  cases r with
  | ok a => exact hf a u u' hu
  | error e => exact .done ⟨rfl, hu⟩

theorem veiled_ask (c : Call) : (ask c).Veiled R (ask c) :=
  fun _ _ hs => .call fun _ => .done ⟨rfl, hs⟩

theorem veiled_request {q q' : Api.Request} (hq : q.Veiled q') :
    (ask (.request q)).Veiled R (ask (.request q')) :=
  fun _ _ hs => .request hq fun _ => .done ⟨rfl, hs⟩

theorem veiled_modify {g g' : LoopState → LoopState} (hg : ∀ s s', R s s' → R (g s) (g' s')) :
    (modify g : Act Unit).Veiled R (modify g') :=
  fun s s' hs => .done ⟨rfl, hg s s' hs⟩

/-- An event is emitted alike where the local loop index is the same. -/
theorem veiled_emit (hR : ∀ s s', R s s' → s.localLoopIndex = s'.localLoopIndex)
    {ctx : LoopContext} {frame : Frame} {type : EventType} {content : RunEvent → RunEvent} :
    (emit ctx frame type content).Veiled R (emit ctx frame type content) := by
  intro s s' hs
  change Program.Veiled (SameOutcome R) (.call .now fun now => .call (.emit (content (frame.event
    type (.ofMillis now) ctx.loopIndex s.localLoopIndex))) fun _ => .done (Except.ok (), s)) (.call
      .now fun now => .call (.emit (content (frame.event type (.ofMillis now) ctx.loopIndex
        s'.localLoopIndex))) fun _ => .done (Except.ok (), s'))
  rw [hR s s' hs]
  exact .call fun now => .call fun taken => .done ⟨rfl, hs⟩

end Act

/-! ### The work of actions -/

namespace Work

/-- The work of two actions goes on alike under the veil, from the report `f` and from the variables
`s` and `s'`: it comes to the same outcome and the same report, with variables in `R`. -/
def VeiledFrom (R : LoopState → LoopState → Prop) (f : Fields) (s s' : LoopState) (m m' : Work α) :
    Prop :=
  ((m.run.run f).run s).Veiled (SameOutcome R) ((m'.run.run f).run s')

/-- The work of two actions goes on alike under the veil, from all variables in `R`. -/
def Veiled (R : LoopState → LoopState → Prop) (m m' : Work α) : Prop :=
  ∀ f s s', R s s' → VeiledFrom R f s s' m m'

theorem Veiled.from {m m' : Work α} (h : m.Veiled R m') {f : Fields} {s s' : LoopState}
    (hs : R s s') : VeiledFrom R f s s' m m' := h f s s' hs

theorem veiled_pure (a : α) : (pure a : Work α).Veiled R (pure a) :=
  fun _ _ _ hs => .done ⟨rfl, hs⟩

theorem veiled_throw (e : Failure) : (throw e : Work α).Veiled R (throw e) :=
  fun _ _ _ hs => .done ⟨rfl, hs⟩

theorem veiled_report (g : Fields → Fields) : (report g).Veiled R (report g) :=
  fun _ _ _ hs => .done ⟨rfl, hs⟩

theorem Veiled.bind {m m' : Work α} {g g' : α → Work β} (hm : m.Veiled R m')
    (hg : ∀ a, (g a).Veiled R (g' a)) : (m >>= g).Veiled R (m' >>= g') := by
  intro f s s' hs
  change (((m.run.run f).run s) >>= fun x =>
    ((ExceptT.bindCont g x.1.1).run x.1.2).run x.2).Veiled _
    (((m'.run.run f).run s') >>= fun x => ((ExceptT.bindCont g' x.1.1).run x.1.2).run x.2)
  refine Program.Veiled.bind (hm f s s' hs) ?_
  rintro ⟨⟨r, f₁⟩, u⟩ ⟨-, u'⟩ ⟨rfl, hu⟩
  cases r with
  | ok a => exact hg a f₁ u u' hu
  | error e => exact .done ⟨rfl, hu⟩

theorem veiled_lift {m m' : Act α} (hm : m.Veiled R m') : (lift m).Veiled R (lift m') := by
  intro f s s' hs
  change ((m.run.run s) >>= fun x => pure ((x.1, f), x.2)).Veiled _
    ((m'.run.run s') >>= fun x => pure ((x.1, f), x.2))
  refine Program.Veiled.bind (hm s s' hs) ?_
  rintro ⟨r, u⟩ ⟨-, u'⟩ ⟨rfl, hu⟩
  exact .done ⟨rfl, hu⟩

/-- A value that may be missing first, and then what depends on it. -/
theorem veiledFrom_ofExcept_bind {x : Except Failure α} {g g' : α → Work β} {f : Fields}
    {s s' : LoopState} (hs : R s s') (hg : ∀ a, VeiledFrom R f s s' (g a) (g' a)) :
    VeiledFrom R f s s' (lift (Act.ofExcept x) >>= g) (lift (Act.ofExcept x) >>= g') := by
  cases x with
  | ok a => exact hg a
  | error e => exact .done ⟨rfl, hs⟩

/-- A look at the variables first, which may be different ones, and then what depends on them. -/
theorem veiledFrom_getThe_bind {g g' : LoopState → Work β} {f : Fields} {s s' : LoopState}
    (hg : VeiledFrom R f s s' (g s) (g' s')) :
    VeiledFrom R f s s' (getThe LoopState >>= g) (getThe LoopState >>= g') := hg

/-- The work of an action as a part of a loop index, and then what depends on its outcome and on its
report. -/
theorem veiledFrom_run_bind {m m' : Work α} {g g' : Except Failure α × Fields → Act β} {f : Fields}
    {s s' : LoopState} (hm : VeiledFrom R f s s' m m') (hg : ∀ x, (g x).Veiled R (g' x)) :
    Act.VeiledFrom R s s' (ExceptT.lift (m.run.run f) >>= g)
      (ExceptT.lift (m'.run.run f) >>= g') := by
  change ((((m.run.run f).run s) >>= fun x => pure (.ok x.1, x.2)) >>= fun x =>
    (ExceptT.bindCont g x.1).run x.2).Veiled _ ((((m'.run.run f).run s') >>= fun x =>
      pure (.ok x.1, x.2)) >>= fun x => (ExceptT.bindCont g' x.1).run x.2)
  rw [bind_assoc, bind_assoc]
  refine Program.Veiled.bind hm ?_
  rintro ⟨x, u⟩ ⟨-, u'⟩ ⟨rfl, hu⟩
  exact hg x u u' hu

theorem veiled_ite {c : Prop} [Decidable c] {m m' n n' : Work α} (hm : m.Veiled R m')
    (hn : n.Veiled R n') : (if c then m else n).Veiled R (if c then m' else n') := by
  split
  · exact hm
  · exact hn

end Work

end Runbook
