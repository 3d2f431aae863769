import Runbook.Program.Act

/-!
# Traces of programs

A trace lists what a program does: its calls, each with the reply, and its waits, each with the way
in which it ended. Any reply and any end of a wait may occur in a trace, so what holds of all traces
of a program holds in all surroundings, whatever other tasks do between two calls.

* `Program.Leads p t q`: having done `t`, the program `p` has still to do `q`.
* `Program.Ends p t a`: the program `p` can do `t` and end with `a`.
* `Act.Ends m s t r s'`: the part `m` of a loop index can do `t` and end with `r`, and it takes the
  variables from `s` to `s'`.

Each way to build a program has a lemma that says what the traces of the whole are, given those of
its parts.
-/

namespace Runbook

/-- Whether a call is answered by something outside, which may take its time. -/
def Call.TakesTime : Call → Prop
  | .page _ _ | .screenshot _ _ | .upload _ _ _ | .delete _ | .list _ | .request _ | .openSession _
  | .closeSession _ | .notify _ _ => True
  | _ => False

instance : DecidablePred Call.TakesTime := fun c => by
  cases c <;> first | exact isTrue trivial | exact isFalse id

/-- One thing that a program does. -/
inductive Deed where
  /-- It makes a call and gets a reply. -/
  | call (c : Call) (reply : c.Reply)
  /-- It begins to wait. -/
  | wait (w : Wait)
  /-- It goes on after a wait. -/
  | wake (w : Wake)

namespace Program

variable {α β : Type}

/-- Having done `t`, the program `p` has still to do `q`. -/
inductive Leads : Program α → List Deed → Program α → Prop
  | refl (p : Program α) : Leads p [] p
  | call {c : Call} {k : c.Reply → Program α} {r : c.Reply} {t : List Deed} {q : Program α} :
      Leads (k r) t q → Leads (.call c k) (.call c r :: t) q
  | wait {w : Wait} {k : Wake → Program α} {wake : Wake} {t : List Deed} {q : Program α} :
      Leads (k wake) t q → Leads (.wait w k) (.wait w :: .wake wake :: t) q

/-- Whether a program begins with a call that takes time. -/
def TakesTime : Program α → Prop
  | .call c _ => c.TakesTime
  | _ => False

/-- The program `p` can do `t` and end with `a`. -/
def Ends (p : Program α) (t : List Deed) (a : α) : Prop := p.Leads t (.done a)

theorem Leads.trans {p q r : Program α} {t u : List Deed} (h : p.Leads t q) (h' : q.Leads u r) :
    p.Leads (t ++ u) r := by
  induction h with
  | refl => exact h'
  | call _ ih => exact .call (ih h')
  | wait _ ih => exact .wait (ih h')

/-! ### Ends of programs -/

@[simp]
theorem ends_done_iff {a b : α} {t : List Deed} : (done a).Ends t b ↔ t = [] ∧ b = a := by
  constructor
  · intro h
    cases h
    exact ⟨rfl, rfl⟩
  · rintro ⟨rfl, rfl⟩
    exact .refl _

@[simp]
theorem ends_call_iff {c : Call} {k : c.Reply → Program α} {t : List Deed} {a : α} :
    (call c k).Ends t a ↔ ∃ r t', t = .call c r :: t' ∧ (k r).Ends t' a := by
  constructor
  · intro h
    cases h with
    | call h => exact ⟨_, _, rfl, h⟩
  · rintro ⟨r, t', rfl, h⟩
    exact .call h

@[simp]
theorem ends_wait_iff {w : Wait} {k : Wake → Program α} {t : List Deed} {a : α} :
    (wait w k).Ends t a ↔ ∃ wake t', t = .wait w :: .wake wake :: t' ∧ (k wake).Ends t' a := by
  constructor
  · intro h
    cases h with
    | wait h => exact ⟨_, _, rfl, h⟩
  · rintro ⟨wake, t', rfl, h⟩
    exact .wait h

/-- One program after another does what the first does, and then what the second does. -/
theorem ends_bind_iff {p : Program α} {f : α → Program β} {t : List Deed} {b : β} :
    (p >>= f).Ends t b ↔ ∃ t₁ a t₂, t = t₁ ++ t₂ ∧ p.Ends t₁ a ∧ (f a).Ends t₂ b := by
  change (p.bind f).Ends t b ↔ _
  induction p generalizing t with
  | done a =>
    constructor
    · intro h
      exact ⟨[], a, t, rfl, .refl _, h⟩
    · rintro ⟨t₁, a', t₂, rfl, h₁, h₂⟩
      obtain ⟨rfl, rfl⟩ := ends_done_iff.mp h₁
      exact h₂
  | call c k ih =>
    simp only [bind, ends_call_iff, ih]
    constructor
    · rintro ⟨r, _, rfl, t₁, a, t₂, rfl, h₁, h₂⟩
      exact ⟨_, a, t₂, rfl, ⟨r, t₁, rfl, h₁⟩, h₂⟩
    · rintro ⟨_, a, t₂, rfl, ⟨r, t₁, rfl, h₁⟩, h₂⟩
      exact ⟨r, _, rfl, t₁, a, t₂, rfl, h₁, h₂⟩
  | wait w k ih =>
    simp only [bind, ends_wait_iff, ih]
    constructor
    · rintro ⟨wake, _, rfl, t₁, a, t₂, rfl, h₁, h₂⟩
      exact ⟨_, a, t₂, rfl, ⟨wake, t₁, rfl, h₁⟩, h₂⟩
    · rintro ⟨_, a, t₂, rfl, ⟨wake, t₁, rfl, h₁⟩, h₂⟩
      exact ⟨wake, _, rfl, t₁, a, t₂, rfl, h₁, h₂⟩

@[simp]
theorem ends_pure_iff {a b : α} {t : List Deed} :
    (pure a : Program α).Ends t b ↔ t = [] ∧ b = a :=
  ends_done_iff

@[simp]
theorem ends_ask_iff {c : Call} {t : List Deed} {r : c.Reply} :
    (ask c).Ends t r ↔ t = [.call c r] := by
  simp only [ask, ends_call_iff, ends_done_iff]
  constructor
  · rintro ⟨_, _, rfl, rfl, rfl⟩
    rfl
  · rintro rfl
    exact ⟨r, [], rfl, rfl, rfl⟩

@[simp]
theorem ends_await_iff {w : Wait} {t : List Deed} {wake : Wake} :
    (await w).Ends t wake ↔ t = [.wait w, .wake wake] := by
  simp only [await, ends_wait_iff, ends_done_iff]
  constructor
  · rintro ⟨_, _, rfl, rfl, rfl⟩
    rfl
  · rintro rfl
    exact ⟨wake, [], rfl, rfl, rfl⟩

/-- A call first, and then what depends on the reply. -/
theorem ends_ask_bind_iff {c : Call} {f : c.Reply → Program β} {t : List Deed} {b : β} :
    (ask c >>= f).Ends t b ↔ ∃ r t', t = .call c r :: t' ∧ (f r).Ends t' b :=
  ends_call_iff

/-- A wait first, and then what depends on how it ended. -/
theorem ends_await_bind_iff {w : Wait} {f : Wake → Program β} {t : List Deed} {b : β} :
    (await w >>= f).Ends t b ↔ ∃ wake t', t = .wait w :: .wake wake :: t' ∧ (f wake).Ends t' b :=
  ends_wait_iff

/-- A program comes to its end at one place only, and with one value. -/
theorem Ends.eq_of_append {p : Program α} {t t' u u' : List Deed} {a b : α} (ha : p.Ends t a)
    (hb : p.Ends t' b) (h : t ++ u = t' ++ u') : t = t' ∧ a = b := by
  induction p generalizing t t' with
  | done c =>
    obtain ⟨rfl, rfl⟩ := ends_done_iff.mp ha
    obtain ⟨rfl, rfl⟩ := ends_done_iff.mp hb
    exact ⟨rfl, rfl⟩
  | call c k ih =>
    obtain ⟨r, t₁, rfl, ha'⟩ := ends_call_iff.mp ha
    obtain ⟨r', t₁', rfl, hb'⟩ := ends_call_iff.mp hb
    obtain ⟨heq, hrest⟩ := List.cons.inj h
    cases heq
    obtain ⟨rfl, rfl⟩ := ih r ha' hb' hrest
    exact ⟨rfl, rfl⟩
  | wait w k ih =>
    obtain ⟨wake, t₁, rfl, ha'⟩ := ends_wait_iff.mp ha
    obtain ⟨wake', t₁', rfl, hb'⟩ := ends_wait_iff.mp hb
    obtain ⟨heq, hrest⟩ := List.cons.inj (List.cons.inj h).2
    cases heq
    obtain ⟨rfl, rfl⟩ := ih wake ha' hb' hrest
    exact ⟨rfl, rfl⟩

/-- What a program has done and been told determines what it ends with. -/
theorem Ends.unique {p : Program α} {t : List Deed} {a b : α} (ha : p.Ends t a)
    (hb : p.Ends t b) : a = b :=
  (ha.eq_of_append hb (rfl : t ++ [] = t ++ [])).2

/-! ### What a program can only do -/

/-- All calls and waits of a program are among some. -/
inductive Only (calls : Call → Prop) (waits : Wait → Prop) : Program α → Prop
  | done (a : α) : Only calls waits (.done a)
  | call {c : Call} {k : c.Reply → Program α} (hc : calls c) (hk : ∀ r, Only calls waits (k r)) :
      Only calls waits (.call c k)
  | wait {w : Wait} {k : Wake → Program α} (hw : waits w) (hk : ∀ wake, Only calls waits (k wake)) :
      Only calls waits (.wait w k)

section Only

variable {calls : Call → Prop} {waits : Wait → Prop} {p : Program α}

theorem only_pure (a : α) : Only calls waits (pure a : Program α) := .done a

theorem only_ask {c : Call} (hc : calls c) : Only calls waits (ask c) := .call hc fun r => .done r

theorem only_await {w : Wait} (hw : waits w) : Only calls waits (await w) :=
  .wait hw fun wake => .done wake

theorem Only.bind {f : α → Program β} (hp : Only calls waits p) (hf : ∀ a, Only calls waits (f a)) :
    Only calls waits (p >>= f) := by
  induction hp with
  | done a => exact hf a
  | call hc _ ih => exact .call hc ih
  | wait hw _ ih => exact .wait hw ih

theorem Only.mono {calls' : Call → Prop} {waits' : Wait → Prop} (hp : Only calls waits p)
    (hc : ∀ c, calls c → calls' c) (hw : ∀ w, waits w → waits' w) : Only calls' waits' p := by
  induction hp with
  | done a => exact .done a
  | call h _ ih => exact .call (hc _ h) ih
  | wait h _ ih => exact .wait (hw _ h) ih

/-- What a program does on the way is among what it can only do, and so is the rest. -/
theorem Only.of_leads {t : List Deed} {q : Program α} (hp : Only calls waits p) (h : p.Leads t q) :
    Only calls waits q ∧ (∀ c r, Deed.call c r ∈ t → calls c) ∧ ∀ w, Deed.wait w ∈ t → waits w := by
  induction h with
  | refl => exact ⟨hp, by simp, by simp⟩
  | call _ ih =>
    cases hp with
    | call hc hk =>
      obtain ⟨hq, hcalls, hwaits⟩ := ih (hk _)
      refine ⟨hq, fun c r hm => ?_, by simpa using hwaits⟩
      rcases List.mem_cons.mp hm with heq | hm
      · cases heq
        exact hc
      · exact hcalls c r hm
  | wait _ ih =>
    cases hp with
    | wait hw hk =>
      obtain ⟨hq, hcalls, hwaits⟩ := ih (hk _)
      refine ⟨hq, by simpa using hcalls, fun w hm => ?_⟩
      simp only [List.mem_cons, Deed.wait.injEq, reduceCtorEq, false_or] at hm
      rcases hm with rfl | hm
      · exact hw
      · exact hwaits w hm

/-- A program that never waits only calls. -/
theorem Only.deed_of_ends {t : List Deed} {a : α} (hp : Only calls (fun _ => False) p)
    (h : p.Ends t a) : ∀ d ∈ t, ∃ c r, d = .call c r ∧ calls c := by
  induction p generalizing t with
  | done =>
    obtain ⟨rfl, -⟩ := ends_done_iff.mp h
    simp
  | call c k ih =>
    obtain ⟨r, t', rfl, h'⟩ := ends_call_iff.mp h
    cases hp with
    | call hc hk =>
      intro d hd
      rcases List.mem_cons.mp hd with rfl | hd
      · exact ⟨c, r, rfl, hc⟩
      · exact ih r (hk r) h' d hd
  | wait w k ih =>
    cases hp with
    | wait hw hk => exact hw.elim

end Only

end Program

/-! ### Ends of parts of a loop index -/

namespace Act

variable {α β : Type}

/-- The part `m` can do `t` and end with `r`, and it takes the variables from `s` to `s'`. -/
def Ends (m : Act α) (s : LoopState) (t : List Deed) (r : Except Failure α) (s' : LoopState) :
    Prop :=
  (m.run.run s).Ends t (r, s')

variable {s s' : LoopState} {t : List Deed}

@[simp]
theorem ends_pure_iff {a : α} {r : Except Failure α} :
    (pure a : Act α).Ends s t r s' ↔ t = [] ∧ r = .ok a ∧ s' = s := by
  change (pure (.ok a, s) : Program _).Ends t (r, s') ↔ _
  simp

/-- One part after another: the second begins where the first succeeded. -/
theorem ends_bind_iff {m : Act α} {f : α → Act β} {r : Except Failure β} :
    (m >>= f).Ends s t r s' ↔
      (∃ t₁ a s₁ t₂, t = t₁ ++ t₂ ∧ m.Ends s t₁ (.ok a) s₁ ∧ (f a).Ends s₁ t₂ r s') ∨
      ∃ e, m.Ends s t (.error e) s' ∧ r = .error e := by
  change ((m.run.run s) >>= fun x => (ExceptT.bindCont f x.1).run x.2).Ends t (r, s') ↔ _
  rw [Program.ends_bind_iff]
  constructor
  · rintro ⟨t₁, ⟨r₁, s₁⟩, t₂, rfl, h₁, h₂⟩
    cases r₁ with
    | ok a => exact .inl ⟨t₁, a, s₁, t₂, rfl, h₁, h₂⟩
    | error e =>
      change (pure (.error e, s₁) : Program _).Ends t₂ (r, s') at h₂
      obtain ⟨rfl, h⟩ := Program.ends_pure_iff.mp h₂
      obtain ⟨rfl, rfl⟩ := Prod.mk.injEq .. ▸ h
      rw [List.append_nil]
      exact .inr ⟨e, h₁, rfl⟩
  · rintro (⟨t₁, a, s₁, t₂, rfl, h₁, h₂⟩ | ⟨e, h, rfl⟩)
    · exact ⟨t₁, (.ok a, s₁), t₂, rfl, h₁, h₂⟩
    · exact ⟨t, (.error e, s'), [], (List.append_nil t).symm, h,
        Program.ends_pure_iff.mpr ⟨rfl, rfl⟩⟩

@[simp]
theorem ends_lift_iff {p : Program α} {r : Except Failure α} :
    (lift p).Ends s t r s' ↔ ∃ a, p.Ends t a ∧ r = .ok a ∧ s' = s := by
  change (((p >>= fun a => pure (a, s)) >>= fun x => pure (.ok x.1, x.2)) : Program _).Ends t
    (r, s') ↔ _
  simp only [Program.ends_bind_iff, Program.ends_pure_iff]
  constructor
  · rintro ⟨_, _, _, rfl, ⟨t₁, a, _, rfl, h, rfl, rfl⟩, rfl, h'⟩
    obtain ⟨rfl, rfl⟩ := Prod.mk.injEq .. ▸ h'
    exact ⟨a, by simpa using h, rfl, rfl⟩
  · rintro ⟨a, h, rfl, rfl⟩
    exact ⟨t, (a, s'), [], by simp, ⟨t, a, [], by simp, h, rfl, rfl⟩, rfl, rfl⟩

@[simp]
theorem ends_ask_iff {c : Call} {r : Except Failure c.Reply} :
    (ask c).Ends s t r s' ↔ ∃ a, t = [.call c a] ∧ r = .ok a ∧ s' = s := by
  simp [ask]

/-- A call first, and then what depends on the reply. -/
theorem ends_ask_bind_iff {c : Call} {f : c.Reply → Act β} {r : Except Failure β} :
    (ask c >>= f).Ends s t r s' ↔ ∃ a t', t = .call c a :: t' ∧ (f a).Ends s t' r s' := by
  rw [ends_bind_iff]
  constructor
  · rintro (⟨t₁, a, s₁, t₂, rfl, h₁, h₂⟩ | ⟨e, h₁, -⟩)
    · obtain ⟨_, rfl, hr, rfl⟩ := ends_ask_iff.mp h₁
      cases hr
      exact ⟨a, t₂, rfl, h₂⟩
    · obtain ⟨_, -, hr, -⟩ := ends_ask_iff.mp h₁
      cases hr
  · rintro ⟨a, t', rfl, h⟩
    exact .inl ⟨_, a, s, t', rfl, ends_ask_iff.mpr ⟨a, rfl, rfl, rfl⟩, h⟩

@[simp]
theorem ends_fail_iff {e : Failure} {r : Except Failure α} :
    (fail e : Act α).Ends s t r s' ↔ t = [] ∧ r = .error e ∧ s' = s := by
  change (pure (.error e, s) : Program _).Ends t (r, s') ↔ _
  simp

@[simp]
theorem ends_ofExcept_iff {x r : Except Failure α} :
    (ofExcept x).Ends s t r s' ↔ t = [] ∧ r = x ∧ s' = s := by
  cases x <;> simp [ofExcept]

/-- A wait of a part goes on, or it ends the part. -/
@[simp]
theorem ends_await_iff {w : Wait} {r : Except Failure Unit} :
    (await w).Ends s t r s' ↔ s' = s ∧
      (t = [.wait w, .wake .resumed] ∧ r = .ok () ∨
        t = [.wait w, .wake .interrupted] ∧ r = .error .interrupted) := by
  simp only [await, ends_bind_iff, ends_lift_iff, Program.ends_await_iff]
  constructor
  · rintro (⟨_, wake, _, t₂, rfl, ⟨_, rfl, h, rfl⟩, h₂⟩ | ⟨_, ⟨_, _, h, _⟩, _⟩)
    · cases h
      cases wake <;> simp_all
    · cases h
  · rintro ⟨rfl, ⟨rfl, rfl⟩ | ⟨rfl, rfl⟩⟩
    · exact .inl ⟨_, .resumed, s', [], rfl, ⟨_, rfl, rfl, rfl⟩, by simp⟩
    · exact .inl ⟨_, .interrupted, s', [], rfl, ⟨_, rfl, rfl, rfl⟩, by simp⟩

/-- A checkpoint goes on when nobody has asked to stop, and stops otherwise. -/
theorem ends_checkpoint_iff {message : String} {r : Except Failure Unit} :
    (checkpoint message).Ends s t r s' ↔ s' = s ∧
      (t = [.call .cancellation none] ∧ r = .ok () ∨
        ∃ c, t = [.call .cancellation (some c)] ∧ r = .error (.error (c.toError message))) := by
  rw [checkpoint, ends_bind_iff]
  constructor
  · rintro (⟨t₁, x, s₁, t₂, rfl, h₁, h₂⟩ | ⟨e, h, -⟩)
    · obtain ⟨_, rfl, hx, rfl⟩ := ends_ask_iff.mp h₁
      cases hx
      cases x with
      | none =>
        obtain ⟨rfl, rfl, rfl⟩ := ends_pure_iff.mp h₂
        exact ⟨rfl, .inl ⟨rfl, rfl⟩⟩
      | some c =>
        obtain ⟨rfl, rfl, rfl⟩ := ends_fail_iff.mp h₂
        exact ⟨rfl, .inr ⟨c, rfl, rfl⟩⟩
    · obtain ⟨_, -, h, -⟩ := ends_ask_iff.mp h
      cases h
  · rintro ⟨rfl, ⟨rfl, rfl⟩ | ⟨c, rfl, rfl⟩⟩
    · exact .inl ⟨_, none, s', [], rfl, ends_ask_iff.mpr ⟨none, rfl, rfl, rfl⟩, by simp⟩
    · exact .inl ⟨_, some c, s', [], rfl, ends_ask_iff.mpr ⟨some c, rfl, rfl, rfl⟩, by simp⟩

end Act

end Runbook
