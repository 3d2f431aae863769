import Runbook.Proofs.Course
import Runbook.Proofs.Peers

/-!
# Programs that go on alike

A program is robust when it goes on alike in surroundings that are alike. It makes calls to which
both runs get the same reply, offers events without looking at what becomes of them, and sleeps.
Now and then it makes a detour: a part that makes spare calls only, and comes to the same whatever
their replies are. There the two runs do different things, each for itself, and meet again behind.

* `Program.Spare P p`: the program `p` makes spare calls only, and what it comes to has `P`.
* `Program.Robust final p`: the program `p` goes on alike until it comes to what is `final`.
* `reported t`: the events in a trace that tell how actions came out.
* `Program.Robust.comes`: the runs of a robust program meet where it waits or is final, and have
  reported the same until then.
* `Act.Robust`, `Work.Robust`: the same for parts of a loop index and for the work of an action.
-/

namespace Runbook

open Schedule

variable {σ α β γ : Type}

/-! ### Going on -/

namespace Schedule

/-- A program that goes on comes to `q`, which goes on from `s'`, and has done `t` until then. -/
structure Comes (env : Collaborators σ) (p : Program α) (s : Shared σ) (t : List Deed)
    (q : Program α) (s' : Shared σ) : Prop where
  advance : advance env p s = Schedule.advance env q s'
  deeds : deeds env p s = t ++ Schedule.deeds env q s'

namespace Comes

variable {env : Collaborators σ} {p q r : Program α} {s s₁ s₂ : Shared σ} {t t' : List Deed}

theorem refl (p : Program α) (s : Shared σ) : Comes env p s [] p s := ⟨rfl, rfl⟩

theorem call {c : Call} {k : c.Reply → Program α}
    (h : Comes env (k (Shared.answer env c s).1) (Shared.answer env c s).2 t q s₁) :
    Comes env (.call c k) s (.call c (Shared.answer env c s).1 :: t) q s₁ :=
  ⟨h.advance, congrArg (_ :: ·) h.deeds⟩

/-- What the store was asked to do is over at once. -/
theorem store {k : Wake → Program α} (h : Comes env (k .resumed) s t q s₁) :
    Comes env (.wait .store k) s (.wait .store :: .wake .resumed :: t) q s₁ := by
  refine ⟨?_, ?_⟩
  · rw [advance_wait_of_over rfl]
    exact h.advance
  · rw [deeds_wait_of_over rfl, h.deeds]
    rfl

theorem trans (h : Comes env p s t q s₁) (h' : Comes env q s₁ t' r s₂) :
    Comes env p s (t ++ t') r s₂ := by
  refine ⟨h.advance.trans h'.advance, ?_⟩
  rw [h.deeds, h'.deeds, List.append_assoc]

end Comes

end Schedule

/-! ### What is reported -/

/-- The event with which a deed reports how an action came out. -/
def Deed.report? : Deed → Option RunEvent
  | .call (.emit e) _ => if e.tellsOutcome then some e else none
  | _ => none

/-- The events in a trace that tell how actions came out, whatever became of them. -/
def reported (t : List Deed) : List RunEvent := t.filterMap Deed.report?

theorem reported_append (t t' : List Deed) : reported (t ++ t') = reported t ++ reported t' :=
  List.filterMap_append

theorem reported_cons (d : Deed) (t : List Deed) :
    reported (d :: t) = reported [d] ++ reported t :=
  reported_append [d] t

/-- A spare call reports nothing. -/
theorem Call.Spare.reported {c : Call} (hc : c.Spare) (r : c.Reply) :
    reported [.call c r] = [] := by
  cases c with
  | emit e =>
    have hquiet : e.tellsOutcome = false := hc
    have hnone : Deed.report? (.call (.emit e) r) = none := if_neg (by simp [hquiet])
    exact List.filterMap_cons_none hnone
  | _ => rfl

/-- A wait that ends at the same moment in both runs. -/
def Wait.Ordinary : Wait → Prop
  | .sleep _ | .loops _ => True
  | _ => False

namespace Program

/-! ### Detours -/

/-- The program only makes spare calls, and what it comes to has a property, whatever the replies
are. -/
inductive Spare (P : α → Prop) : Program α → Prop
  | done {a : α} (h : P a) : Spare P (.done a)
  | call {c : Call} {k : c.Reply → Program α} (hc : c.Spare) (h : ∀ r, Spare P (k r)) :
      Spare P (.call c k)
  /-- Nothing is drawn, and what was there to be drawn is put back. -/
  | kept {k : Chance → Program α} (h : ∀ chance, Spare P (k chance)) :
      Spare P (.call .chance fun chance => .call (.setChance chance) fun _ => k chance)
  | store {k : Wake → Program α} (h : Spare P (k .resumed)) : Spare P (.wait .store k)

theorem Spare.bind {P : α → Prop} {Q : β → Prop} {p : Program α} {f : α → Program β}
    (hp : p.Spare P) (hf : ∀ a, P a → (f a).Spare Q) : (p >>= f).Spare Q := by
  induction hp with
  | done h => exact hf _ h
  | call hc _ ih => exact .call hc ih
  | kept _ ih => exact .kept ih
  | store _ ih => exact .store ih

theorem Spare.mono {P Q : α → Prop} {p : Program α} (hp : p.Spare P) (h : ∀ a, P a → Q a) :
    p.Spare Q := by
  induction hp with
  | done ha => exact .done (h _ ha)
  | call hc _ ih => exact .call hc ih
  | kept _ ih => exact .kept ih
  | store _ ih => exact .store ih

/-- Nothing is drawn either when what is put back is what was there. -/
theorem Spare.putBack {P : α → Prop} {f : Chance → Chance} {k : Chance → Program α}
    (hf : ∀ chance, f chance = chance) (h : ∀ chance, Spare P (k chance)) :
    Spare P (.call .chance fun chance => .call (.setChance (f chance)) fun _ => k chance) := by
  obtain rfl : f = id := funext hf
  exact .kept h

/-- Some of the ends of a program that makes spare calls only have the property. -/
theorem Spare.exists_ends {P : α → Prop} {p : Program α} (hp : p.Spare P) :
    ∃ t a, p.Ends t a ∧ P a := by
  induction hp with
  | done h => exact ⟨[], _, .refl _, h⟩
  | @call c k _ _ ih =>
    obtain ⟨t, _, hends⟩ := (Program.call c fun r => Program.done r).exists_ends
    obtain ⟨r, _, rfl, -⟩ := ends_call_iff.mp hends
    obtain ⟨t', a, h, ha⟩ := ih r
    exact ⟨_, a, .call h, ha⟩
  | @kept k _ ih =>
    obtain ⟨t, a, h, ha⟩ := ih ({} : Chance)
    have hput : (Program.call (.setChance {}) fun _ => k {}).Ends
        (.call (.setChance {}) () :: t) a := .call h
    exact ⟨_, a, .call hput, ha⟩
  | store _ ih =>
    obtain ⟨t, a, h, ha⟩ := ih
    exact ⟨_, a, .wait h, ha⟩

section Runs

variable {env env' : Collaborators σ} {same : σ → σ → Prop} {s s' : Shared σ}

/-- A run that goes through a detour alone reports nothing and stays like the other. -/
theorem Spare.comes (hp : Peers env env' same) {P : β → Prop} {q : Program β} (hq : q.Spare P)
    (f : β → Program α) (h : Shared.Like same s s') :
    ∃ b s₁ t, P b ∧ Comes env (q >>= f) s t (f b) s₁ ∧ Shared.Like same s₁ s' ∧
      reported t = [] := by
  induction hq generalizing s with
  | @done b hb => exact ⟨b, s, [], hb, .refl _ _, h, rfl⟩
  | call hc _ ih =>
    obtain ⟨b, s₁, t, hb, hcomes, hlike, ht⟩ := ih _ (h.answer_left hp hc)
    exact ⟨b, s₁, _, hb, hcomes.call, hlike, by rw [reported_cons, hc.reported, ht]; rfl⟩
  | kept _ ih =>
    obtain ⟨b, s₁, t, hb, hcomes, hlike, ht⟩ := ih s.chance h
    exact ⟨b, s₁, _, hb, (Comes.call (c := .chance) (Comes.call (c := .setChance s.chance) hcomes)),
      hlike, ht⟩
  | store _ ih =>
    obtain ⟨b, s₁, t, hb, hcomes, hlike, ht⟩ := ih h
    exact ⟨b, s₁, _, hb, hcomes.store, hlike, ht⟩

end Runs

/-! ### Robust programs -/

/-- The program goes on alike in surroundings that are alike, until it comes to what is final. -/
inductive Robust (final : Program α → Prop) : Program α → Prop
  | final {p : Program α} (h : final p) : Robust final p
  | call {c : Call} {k : c.Reply → Program α} (hc : c.Ordinary) (h : ∀ r, Robust final (k r)) :
      Robust final (.call c k)
  /-- What becomes of an event does not matter. -/
  | emit {e : RunEvent} {p : Program α} (h : Robust final p) :
      Robust final (.call (.emit e) fun _ => p)
  | wait {w : Wait} {k : Wake → Program α} (hw : w.Ordinary) (h : ∀ wake, Robust final (k wake)) :
      Robust final (.wait w k)
  | detour {β : Type} {q : Program β} {b : β} {f : β → Program α} (hq : q.Spare (· = b))
      (h : Robust final (f b)) : Robust final (q >>= f)

/-- A program that has come to its end. -/
def IsDone (p : Program α) : Prop := ∃ a, p = .done a

/-- Where the runs of a robust program meet. -/
def Meets (final : Program α → Prop) (q : Program α) : Prop :=
  final q ∨ ∃ w k, q = .wait w k ∧ w.Ordinary ∧ ∀ wake, (k wake).Robust final

/-- The runs of a robust program meet, and have reported the same until then. -/
theorem Robust.comes {env env' : Collaborators σ} {same : σ → σ → Prop} (hp : Peers env env' same)
    {final : Program α → Prop} {p : Program α} (hr : p.Robust final) {s s' : Shared σ}
    (h : Shared.Like same s s') :
    ∃ q s₁ s₁' t t', q.Meets final ∧ Comes env p s t q s₁ ∧ Comes env' p s' t' q s₁' ∧
      Shared.Like same s₁ s₁' ∧ reported t = reported t' := by
  induction hr generalizing s s' with
  | final hfinal => exact ⟨_, s, s', [], [], .inl hfinal, .refl _ _, .refl _ _, h, rfl⟩
  | @call c _ hc _ ih =>
    obtain ⟨hreply, hlike⟩ := h.answer hp hc
    obtain ⟨q, s₁, s₁', t, t', hq, hcomes, hcomes', hlike₁, ht⟩ :=
      ih (Shared.answer env c s).1 hlike
    rw [hreply] at hcomes'
    refine ⟨q, s₁, s₁', _, _, hq, hcomes.call, hcomes'.call, hlike₁, ?_⟩
    rw [reported_cons, ht, hreply, ← reported_cons]
  | emit _ ih =>
    obtain ⟨q, s₁, s₁', t, t', hq, hcomes, hcomes', hlike, ht⟩ := ih (h.emit hp _)
    refine ⟨q, s₁, s₁', _, _, hq, hcomes.call, hcomes'.call, hlike, ?_⟩
    rw [reported_cons, ht, reported_cons _ t']
    rfl
  | wait hw hk => exact ⟨_, s, s', [], [], .inr ⟨_, _, rfl, hw, hk⟩, .refl _ _, .refl _ _, h, rfl⟩
  | @detour β q b f hq _ ih =>
    -- One run goes through the detour and then the other; so they are alike behind it.
    obtain ⟨_, s₁, t₁, rfl, hcomes, hlike, ht⟩ := hq.comes hp f h
    obtain ⟨_, s₁', t₁', rfl, hcomes', hlike', ht'⟩ := hq.comes hp.symm f hlike.symm
    obtain ⟨r, s₂, s₂', t₂, t₂', hr, hcomes₂, hcomes₂', hlike₂, ht₂⟩ := ih hlike'.symm
    refine ⟨r, s₂, s₂', _, _, hr, hcomes.trans hcomes₂, hcomes'.trans hcomes₂', hlike₂, ?_⟩
    rw [reported_append, reported_append, ht, ht', ht₂]

theorem robust_pure (a : α) : (pure a : Program α).Robust IsDone := .final ⟨a, rfl⟩

theorem robust_ask {c : Call} (hc : c.Ordinary) : (ask c).Robust IsDone :=
  .call hc robust_pure

theorem robust_await {w : Wait} (hw : w.Ordinary) : (await w).Robust IsDone :=
  .wait hw robust_pure

/-- A part that makes spare calls only and always comes to the same. -/
theorem Spare.robust {p : Program α} {a : α} (hp : p.Spare (· = a)) : p.Robust IsDone := by
  have hdetour : (p >>= Program.done).Robust IsDone := .detour hp (robust_pure a)
  rwa [show (p >>= Program.done) = p from bind_done p] at hdetour

/-- A robust program and then others that are robust; of these only those matter that can follow. -/
theorem Robust.bind_of_ends {final : Program β → Prop} {p : Program α} {f : α → Program β}
    (hp : p.Robust IsDone) (hf : ∀ {t a}, p.Ends t a → (f a).Robust final) :
    (p >>= f).Robust final := by
  induction hp with
  | final h =>
    obtain ⟨a, rfl⟩ := h
    exact hf (.refl _)
  | call hc _ ih => exact .call hc fun r => ih r fun h => hf (.call h)
  | @emit e p _ ih => exact .emit (ih fun h => hf (.call (r := true) h))
  | wait hw _ ih => exact .wait hw fun wake => ih wake fun h => hf (.wait h)
  | @detour β q b g hq _ ih =>
    obtain ⟨t, _, hends, rfl⟩ := hq.exists_ends
    rw [show (q >>= g) >>= f = q >>= fun b => g b >>= f from bind_bind q g f]
    exact .detour hq (ih fun h => hf (ends_bind_iff.mpr ⟨t, _, _, rfl, hends, h⟩))

theorem Robust.bind {final : Program β → Prop} {p : Program α} {f : α → Program β}
    (hp : p.Robust IsDone) (hf : ∀ a, (f a).Robust final) : (p >>= f).Robust final :=
  hp.bind_of_ends fun {_ a} _ => hf a

/-- A program that makes ordinary calls only. -/
theorem Only.robust {p : Program α} (hp : p.Only Call.Ordinary fun _ => False) :
    p.Robust IsDone := by
  induction hp with
  | done a => exact robust_pure a
  | call hc _ ih => exact .call hc ih
  | wait hw => exact hw.elim

end Program

/-! ### Parts of a loop index -/

namespace Act

/-- A part of a loop index goes on alike in surroundings that are alike, whatever its variables
are. -/
def Robust (m : Act α) : Prop := ∀ s, (m.run.run s).Robust Program.IsDone

variable {m : Act α}

theorem robust_pure (a : α) : (pure a : Act α).Robust := fun _ => Program.robust_pure _

theorem robust_fail (e : Failure) : (fail e : Act α).Robust := fun _ => Program.robust_pure _

theorem robust_ofExcept (x : Except Failure α) : (ofExcept x).Robust := by
  cases x with
  | ok a => exact robust_pure a
  | error e => exact robust_fail e

/-- One part after another; of what follows only that matters which can follow. -/
theorem Robust.bind_of_ends {f : α → Act β} (hm : m.Robust)
    (hf : ∀ {s t a s'}, m.Ends s t (.ok a) s' → (f a).Robust) : (m >>= f).Robust := by
  intro s
  refine (hm s).bind_of_ends fun {t x} h => ?_
  obtain ⟨_ | a, s₁⟩ := x
  · exact Program.robust_pure _
  · exact hf h s₁

theorem Robust.bind {f : α → Act β} (hm : m.Robust) (hf : ∀ a, (f a).Robust) :
    (m >>= f).Robust :=
  hm.bind_of_ends fun {_ _ a _} _ => hf a

/-- A value that may be missing first, and then what depends on it. -/
theorem robust_ofExcept_bind {x : Except Failure α} {f : α → Act β}
    (hf : ∀ a, x = .ok a → (f a).Robust) : (ofExcept x >>= f).Robust := by
  cases x with
  | ok a => exact hf a rfl
  | error e => exact robust_fail e

theorem robust_ite {c : Prop} [Decidable c] {m₁ : Act α} (hm : m.Robust) (hm₁ : m₁.Robust) :
    (if c then m else m₁).Robust := by
  split
  · exact hm
  · exact hm₁

theorem robust_get : (get : Act LoopState).Robust := fun _ => Program.robust_pure _

theorem robust_modify (g : LoopState → LoopState) : (modify g : Act Unit).Robust :=
  fun _ => Program.robust_pure _

theorem robust_lift {p : Program α} (hp : p.Robust Program.IsDone) : (lift p).Robust :=
  fun s => (hp.bind fun a => Program.robust_pure (a, s)).bind fun _ => Program.robust_pure _

theorem robust_ask {c : Call} (hc : c.Ordinary) : (ask c).Robust :=
  robust_lift (Program.robust_ask hc)

theorem robust_await {w : Wait} (hw : w.Ordinary) : (await w).Robust := by
  refine (robust_lift (Program.robust_await hw)).bind fun wake => ?_
  cases wake with
  | resumed => exact robust_pure ()
  | interrupted => exact robust_fail _

theorem robust_forM {f : β → Act PUnit} {bs : List β} (hf : ∀ b ∈ bs, (f b).Robust) :
    (bs.forM f).Robust := by
  induction bs with
  | nil => exact robust_pure _
  | cons b bs ih =>
    exact (hf b List.mem_cons_self).bind fun _ => ih fun b hb => hf b (List.mem_cons_of_mem _ hb)

theorem robust_log (r : LogRecord) : (log r).Robust := robust_ask trivial

theorem robust_checkpoint (message : String) : (checkpoint message).Robust := by
  refine (robust_ask (c := .cancellation) trivial).bind fun asked => ?_
  cases asked with
  | none => exact robust_pure ()
  | some c => exact robust_fail _

/-- An event is emitted, whatever becomes of it. -/
theorem robust_emit (ctx : LoopContext) (frame : Frame) (type : EventType)
    (content : RunEvent → RunEvent) : (emit ctx frame type content).Robust :=
  (robust_ask (c := .now) trivial).bind fun _ => robust_get.bind fun _ _ =>
    .emit (Program.robust_pure _)

/-- A resolution does the same in both runs, since both draw on the same. -/
theorem robust_resolving (ctx : LoopContext)
    (m : Template.Environment → Template.ResolveM α) : (resolving ctx m).Robust := by
  have hcontext : (contextNow ctx).Robust :=
    robust_get.bind fun _ => (robust_ask (c := .globals) trivial).bind fun _ => robust_pure _
  refine hcontext.bind fun context => (robust_ask (c := .now) trivial).bind fun now =>
    (robust_ask (c := .chance) trivial).bind fun _ =>
      (robust_ask (c := .setChance _) trivial).bind fun _ =>
        (robust_forM fun r _ => robust_log r).bind fun _ => ?_
  split
  · exact robust_pure _
  · exact robust_fail _

/-- A part and its outcome. -/
theorem robust_outcome (hm : m.Robust) : (Loop.outcome m).Robust :=
  fun s => (hm s).bind fun _ => Program.robust_pure _

end Act

/-! ### The work of an action -/

namespace Work

/-- The work of an action goes on alike in surroundings that are alike, whatever its report and its
variables are. -/
def Robust (m : Work α) : Prop := ∀ f s, ((m.run.run f).run s).Robust Program.IsDone

variable {m : Work α}

theorem robust_pure (a : α) : (pure a : Work α).Robust := fun _ _ => Program.robust_pure _

theorem robust_throw (e : Failure) : (throw e : Work α).Robust := fun _ _ => Program.robust_pure _

theorem robust_report (g : Fields → Fields) : (report g).Robust := fun _ _ => Program.robust_pure _

theorem robust_read : (getThe LoopState : Work LoopState).Robust :=
  fun _ _ => Program.robust_pure _

theorem Robust.bind {f : α → Work β} (hm : m.Robust) (hf : ∀ a, (f a).Robust) :
    (m >>= f).Robust := by
  intro report s
  refine (hm report s).bind fun x => ?_
  obtain ⟨⟨_ | a, report₁⟩, s₁⟩ := x
  · exact Program.robust_pure _
  · exact hf a report₁ s₁

theorem robust_lift {m : Act α} (hm : m.Robust) : (lift m).Robust :=
  fun _ s => (hm s).bind fun _ => Program.robust_pure _

/-- A value that may be missing first, and then what depends on it. -/
theorem robust_ofExcept_bind {x : Except Failure α} {f : α → Work β}
    (hf : ∀ a, x = .ok a → (f a).Robust) : (lift (Act.ofExcept x) >>= f).Robust := by
  cases x with
  | ok a => exact hf a rfl
  | error e => exact robust_throw e

theorem robust_ite {c : Prop} [Decidable c] {m₁ : Work α} (hm : m.Robust) (hm₁ : m₁.Robust) :
    (if c then m else m₁).Robust := by
  split
  · exact hm
  · exact hm₁

theorem robust_attempt {m : Work Unit} (hm : m.Robust) : (attempt m).Robust := by
  intro f s
  refine (hm f s).bind fun x => ?_
  obtain ⟨(_ | _ | _) | _, _⟩ := x <;> exact Program.robust_pure _

theorem robust_restoringLocalIndex (hm : m.Robust) : (LoopUntil.restoringLocalIndex m).Robust :=
  fun f s => (hm f s).bind fun _ => Program.robust_pure _

end Work

end Runbook
