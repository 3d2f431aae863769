import Runbook.Proofs.Indices
import Runbook.Proofs.Watching

/-!
# Programs that go on alike

A loop index looks at the clock and at the draws that are left, which other tasks may change under
its feet, and it is told whether there was room for an event. Nothing depends on that in the end but
the times in its events and what it logs. Two programs are alike when they come to the same and tell
the same, times aside, whenever what they are told in both runs fits what is watched. Likeness goes
together with each way to build a program, so that it is enough to look at the parts.

* `Fits W b t`: the replies in a trace are those of somebody who sees what the trace makes of `b`,
  and nobody stops or interrupts it.
* `told t`: the events in a trace, times aside.
* `Deed.Confined i`: a deed that concerns no page and tells of no loop index but `i`, and changes no
  shared variable.
* `Program.Alike W i p p'`: two programs are confined to the loop index `i` and go on alike.
* `Act.Alike`, `Work.Alike`: the same for parts of a loop index and for the work of an action.
-/

namespace Runbook

open Schedule

variable {σ β : Type} {env : Collaborators σ}

/-! ### What is told -/

/-- An event but for when it was emitted and how long something took. -/
def RunEvent.timeless (e : RunEvent) : RunEvent :=
  { e with timestamp := .ofMillis 0, durationMs := 0 }

theorem RunEvent.loopIndex_timeless (e : RunEvent) : e.timeless.loopIndex = e.loopIndex := by
  simp only [timeless]

/-- The event that a deed emits, times aside. -/
def Deed.told? : Deed → Option RunEvent
  | .call (.emit e) _ => some e.timeless
  | _ => none

/-- The events that are emitted, times aside. -/
def told (t : List Deed) : List RunEvent := t.filterMap Deed.told?

theorem told_append (t t' : List Deed) : told (t ++ t') = told t ++ told t' :=
  List.filterMap_append

theorem told_emit {e : RunEvent} (now : Rat) (taken : Bool) :
    told [.call .now now, .call (.emit e) taken] = [e.timeless] := rfl

/-- An event is told when a deed emits it. -/
theorem exists_emit_of_told {d : Deed} {e : RunEvent} (h : e ∈ told [d]) :
    ∃ e' taken, d = .call (.emit e') taken ∧ e = e'.timeless := by
  obtain ⟨d', hd', he⟩ := List.mem_filterMap.mp h
  obtain rfl := List.mem_singleton.mp hd'
  unfold Deed.told? at he
  split at he
  · exact ⟨_, _, rfl, (Option.some.inj he).symm⟩
  · cases he

/-! ### Traces that fit -/

/-- What is seen after somebody has done something. -/
def Schedule.Watch.follow (W : Watch env β) (b : β) (t : List Deed) : β :=
  W.through b (t.map (.deed none))

theorem Schedule.Watch.follow_append (W : Watch env β) (b : β) (t t' : List Deed) :
    W.follow b (t ++ t') = W.follow (W.follow b t) t' := by
  rw [Watch.follow, List.map_append, Watch.through_append]
  rfl

/-- Every call in a trace has been answered by somebody who saw what the trace until then makes of
`b`. Nobody has asked to stop, and nobody has interrupted it. -/
structure Fits (W : Watch env β) (b : β) (t : List Deed) : Prop where
  answered {t₁ t₂ : List Deed} {c : Call} {r : c.Reply} : t = t₁ ++ .call c r :: t₂ →
    ∃ s, W.see s = W.follow b t₁ ∧ r = (Shared.answer env c s).1
  unasked {r : Option Cancellation} : .call .cancellation r ∈ t → r = none
  undisturbed : .wake .interrupted ∉ t

namespace Fits

variable {W : Watch env β} {b : β} {t t' : List Deed}

theorem left (h : Fits W b (t ++ t')) : Fits W b t where
  answered heq := h.answered (by rw [heq, List.append_assoc, List.cons_append])
  unasked hm := h.unasked (List.mem_append_left _ hm)
  undisturbed hm := h.undisturbed (List.mem_append_left _ hm)

theorem right (h : Fits W b (t ++ t')) : Fits W (W.follow b t) t' where
  answered {t₁ t₂ c r} heq := by
    have hsplit : t ++ t' = (t ++ t₁) ++ .call c r :: t₂ := by rw [heq, List.append_assoc]
    rw [← W.follow_append]
    exact h.answered hsplit
  unasked hm := h.unasked (List.mem_append_right _ hm)
  undisturbed hm := h.undisturbed (List.mem_append_right _ hm)

/-- The reply to a call is that of somebody who sees what is there. -/
theorem reply {c : Call} {r : c.Reply} (h : Fits W b (.call c r :: t)) :
    ∃ s, W.see s = b ∧ r = (Shared.answer env c s).1 :=
  h.answered (List.nil_append _).symm

end Fits

/-! ### What a loop index does -/

/-- A call that only the page of loop index `i` and the variables have to do with, so that nothing
else decides on the reply. It changes no shared variable. -/
def Call.Fixed (i : Int) : Call → Prop
  | .page j _ => j = i
  | .openSession j | .closeSession j => j = i
  | .globals | .log _ | .dispatched _ _ _ => True
  | _ => False

/-- A deed whose reply is a matter of the page of loop index `i` and the variables. -/
def Deed.Fixed (i : Int) : Deed → Prop
  | .call c _ => c.Fixed i
  | .wait w => ∃ ms, w = .sleep ms
  | .wake _ => True

/-- Nothing is done but what is a matter of the page of loop index `i` and the variables. -/
def Fixed (i : Int) : Law := fun t _ => ∀ d ∈ t, d.Fixed i

/-- A call that changes no page and no shared variable, and emits nothing. -/
def Call.Silent : Call → Prop
  | .now | .log _ | .dispatched _ _ _ | .cancellation | .chance | .setChance _ | .globals => True
  | _ => False

/-- A deed that changes no page and no shared variable, and emits nothing. -/
def Deed.Silent : Deed → Prop
  | .call c _ => c.Silent
  | _ => False

/-- A call that changes no page and no shared variable. -/
def Call.Idle : Call → Prop
  | .emit _ => True
  | c => c.Silent

/-- A deed that changes no page and no shared variable. -/
def Deed.Idle : Deed → Prop
  | .call c _ => c.Idle
  | _ => False

/-- A deed that concerns no page and tells of no loop index but `i`, and changes no shared
variable. -/
def Deed.Confined (i : Int) : Deed → Prop
  | .call (.emit e) _ => e.loopIndex = i
  | .call (.page j _) _ | .call (.screenshot j _) _ => j = i
  | .call (.openSession j) _ | .call (.closeSession j) _ => j = i
  | .call (.setGlobal _ _) _ => False
  | _ => True

theorem Deed.Fixed.confined {i : Int} {d : Deed} (h : d.Fixed i) : d.Confined i := by
  rcases d with ⟨c, r⟩ | w | wake
  · cases c <;> first | exact h | exact trivial | exact h.elim
  · trivial
  · trivial

theorem Deed.Silent.idle {d : Deed} (h : d.Silent) : d.Idle := by
  rcases d with ⟨c, r⟩ | w | wake
  · cases c <;> first | exact h | trivial
  · exact h
  · exact h

theorem Deed.Silent.confined {i : Int} {d : Deed} (h : d.Silent) : d.Confined i := by
  rcases d with ⟨c, r⟩ | w | wake
  · cases c <;> trivial
  · trivial
  · trivial

theorem told_of_silent {t : List Deed} (h : ∀ d ∈ t, d.Silent) : told t = [] := by
  refine List.filterMap_eq_nil_iff.mpr fun d hd => ?_
  rcases d with ⟨c, r⟩ | w | wake
  · cases c <;> first | rfl | exact (h _ hd).elim
  · rfl
  · rfl

theorem fixed_sequential (i : Int) : (Fixed i).Sequential where
  nil := List.forall_mem_nil _
  append h h' := List.forall_mem_append.mpr ⟨h, h'⟩

/-- What is watched decides on the replies of the page of loop index `i` and on the shared
variables, and idle calls do not change it. -/
structure Schedule.Watch.Minds (W : Watch env β) (i : Int) : Prop where
  settles {c : Call} {s s' : Shared σ} : c.Fixed i → W.see s = W.see s' →
    (Shared.answer env c s).1 = (Shared.answer env c s').1
  idle {c : Call} (b : β) (r : c.Reply) : c.Idle → W.after b c r = b

/-- Idle deeds change nothing that is watched. -/
theorem Schedule.Watch.Minds.follow_idle {W : Watch env β} {i : Int} (hW : W.Minds i) (b : β)
    {t : List Deed} (ht : ∀ d ∈ t, d.Idle) : W.follow b t = b := by
  induction t with
  | nil => rfl
  | cons d t ih =>
    obtain ⟨hd, hrest⟩ := List.forall_mem_cons.mp ht
    obtain ⟨c, r⟩ | w | wake := d
    · rw [← List.singleton_append, W.follow_append]
      exact (congrArg (W.follow · t) (hW.idle b r hd)).trans (ih hrest)
    · exact hd.elim
    · exact hd.elim

namespace Program

variable {α γ : Type} {W : Watch env β} {i : Int} {p p' : Program α}

/-- Two programs are confined to the loop index `i`. When they are told what fits, they come to the
same, what is watched is the same in the end, and so are the events that they emit, times aside. -/
structure Alike (W : Watch env β) (i : Int) (p p' : Program α) : Prop where
  confined {t : List Deed} {a : α} : p.Ends t a → ∀ d ∈ t, d.Confined i
  agree {b : β} {t t' : List Deed} {a a' : α} : p.Ends t a → p'.Ends t' a' → Fits W b t →
    Fits W b t' → a = a' ∧ W.follow b t = W.follow b t' ∧ told t = told t'

/-! ### Ways to be alike -/

theorem alike_pure (a : α) : (pure a : Program α).Alike W i (pure a) where
  confined h := by
    obtain ⟨rfl, -⟩ := ends_pure_iff.mp h
    exact List.forall_mem_nil _
  agree h h' _ _ := by
    obtain ⟨rfl, rfl⟩ := ends_pure_iff.mp h
    obtain ⟨rfl, rfl⟩ := ends_pure_iff.mp h'
    exact ⟨rfl, rfl, rfl⟩

/-- One program after another is like another such one when both parts are; of what follows only
that matters which can follow. -/
theorem Alike.bind_of_ends {f f' : α → Program γ} (hp : p.Alike W i p')
    (hf : ∀ {t a}, p.Ends t a → (f a).Alike W i (f' a)) : (p >>= f).Alike W i (p' >>= f') where
  confined h := by
    obtain ⟨t₁, a, t₂, rfl, h₁, h₂⟩ := ends_bind_iff.mp h
    exact List.forall_mem_append.mpr ⟨hp.confined h₁, (hf h₁).confined h₂⟩
  agree h h' hfits hfits' := by
    obtain ⟨t₁, a, t₂, rfl, h₁, h₂⟩ := ends_bind_iff.mp h
    obtain ⟨t₁', a', t₂', rfl, h₁', h₂'⟩ := ends_bind_iff.mp h'
    obtain ⟨rfl, hseen, htold⟩ := hp.agree h₁ h₁' hfits.left hfits'.left
    obtain ⟨rfl, hseen', htold'⟩ := (hf h₁).agree h₂ h₂' hfits.right (hseen ▸ hfits'.right)
    refine ⟨rfl, ?_, ?_⟩
    · rw [W.follow_append, W.follow_append, hseen', hseen]
    · rw [told_append, told_append, htold, htold']

theorem Alike.bind {f f' : α → Program γ} (hp : p.Alike W i p')
    (hf : ∀ a, (f a).Alike W i (f' a)) : (p >>= f).Alike W i (p' >>= f') :=
  hp.bind_of_ends fun {_ a} _ => hf a

/-- What a program does is fixed when its replies are. -/
theorem Ends.eq_of_fits (hW : W.Minds i) {t t' : List Deed} {a a' : α} {b : β} (h : p.Ends t a)
    (h' : p.Ends t' a') (hfixed : ∀ d ∈ t, d.Fixed i) (hfits : Fits W b t)
    (hfits' : Fits W b t') : t = t' ∧ a = a' := by
  induction p generalizing t t' b with
  | done c =>
    obtain ⟨rfl, rfl⟩ := ends_done_iff.mp h
    obtain ⟨rfl, rfl⟩ := ends_done_iff.mp h'
    exact ⟨rfl, rfl⟩
  | call c k ih =>
    obtain ⟨r, t₁, rfl, h₁⟩ := ends_call_iff.mp h
    obtain ⟨r', t₁', rfl, h₁'⟩ := ends_call_iff.mp h'
    obtain ⟨hc, hrest⟩ := List.forall_mem_cons.mp hfixed
    obtain ⟨s, hs, hr⟩ := hfits.reply
    obtain ⟨s', hs', hr'⟩ := hfits'.reply
    obtain rfl : r = r' := by rw [hr, hr', hW.settles hc (hs.trans hs'.symm)]
    obtain ⟨rfl, rfl⟩ := ih r h₁ h₁' hrest (hfits.right (t := [_])) (hfits'.right (t := [_]))
    exact ⟨rfl, rfl⟩
  | wait w k ih =>
    obtain ⟨wake, t₁, rfl, h₁⟩ := ends_wait_iff.mp h
    obtain ⟨wake', t₁', rfl, h₁'⟩ := ends_wait_iff.mp h'
    have hresumed {wake : Wake} {t : List Deed} (hfits : Fits W b (.wait w :: .wake wake :: t)) :
        wake = .resumed := by
      cases wake with
      | resumed => rfl
      | interrupted => exact absurd (by simp) hfits.undisturbed
    obtain rfl := hresumed hfits
    obtain rfl := hresumed hfits'
    obtain ⟨rfl, rfl⟩ := ih .resumed h₁ h₁' (fun d hd => hfixed d (by simp [hd]))
      (hfits.right (t := [_, _])) (hfits'.right (t := [_, _]))
    exact ⟨rfl, rfl⟩

/-- A program is like itself when only the page and the variables have to do with it. -/
theorem alike_of_fixed (hW : W.Minds i)
    (hfixed : ∀ {t a}, p.Ends t a → ∀ d ∈ t, d.Fixed i) : p.Alike W i p where
  confined h d hd := (hfixed h d hd).confined
  agree h h' hfits hfits' := by
    obtain ⟨rfl, rfl⟩ := h.eq_of_fits hW h' (hfixed h) hfits hfits'
    exact ⟨rfl, rfl, rfl⟩

/-- Programs are alike when they are idle, come to the same and tell the same. -/
theorem alike_of_idle (hW : W.Minds i)
    (hp : ∀ {t a}, p.Ends t a → ∀ d ∈ t, d.Idle ∧ d.Confined i)
    (hp' : ∀ {t a}, p'.Ends t a → ∀ d ∈ t, d.Idle)
    (hsame : ∀ {b t t' a a'}, p.Ends t a → p'.Ends t' a' → Fits W b t → Fits W b t' →
      a = a' ∧ told t = told t') : p.Alike W i p' where
  confined h d hd := (hp h d hd).2
  agree {b} _ _ _ _ h h' hfits hfits' := by
    obtain ⟨hresult, htold⟩ := hsame h h' hfits hfits'
    refine ⟨hresult, ?_, htold⟩
    rw [hW.follow_idle b fun d hd => (hp h d hd).1, hW.follow_idle b (hp' h')]

/-- Nothing that is watched depends on the time. -/
theorem alike_now (hW : W.Minds i) {f f' : Rat → Program α}
    (hf : ∀ now now', (f now).Alike W i (f' now')) :
    (call .now f).Alike W i (call .now f') where
  confined h := by
    obtain ⟨now, t, rfl, h₁⟩ := ends_call_iff.mp h
    exact List.forall_mem_cons.mpr ⟨trivial, (hf now now).confined h₁⟩
  agree {b} _ _ _ _ h h' hfits hfits' := by
    obtain ⟨now, t, rfl, h₁⟩ := ends_call_iff.mp h
    obtain ⟨now', t', rfl, h₁'⟩ := ends_call_iff.mp h'
    have hidle (now : Rat) : W.follow b [.call .now now] = b := hW.idle (c := .now) b now trivial
    have hrest := hfits.right (t := [_])
    have hrest' := hfits'.right (t := [_])
    rw [hidle] at hrest hrest'
    obtain ⟨rfl, hseen, htold⟩ := (hf now now').agree h₁ h₁' hrest hrest'
    refine ⟨rfl, ?_, htold⟩
    rw [← List.singleton_append, W.follow_append, hidle, ← List.singleton_append, W.follow_append,
      hidle, hseen]

end Program

/-! ### Parts of a loop index -/

namespace Act

variable {α γ : Type} {W : Watch env β} {i : Int} {m m' : Act α}

/-- Two parts of a loop index go on alike from the same variables. -/
def Alike (W : Watch env β) (i : Int) (m m' : Act α) : Prop :=
  ∀ s, (m.run.run s).Alike W i (m'.run.run s)

theorem alike_pure (a : α) : (pure a : Act α).Alike W i (pure a) := fun _ => Program.alike_pure _

theorem alike_fail (e : Failure) : (fail e : Act α).Alike W i (fail e) :=
  fun _ => Program.alike_pure _

theorem alike_ofExcept (x : Except Failure α) : (ofExcept x).Alike W i (ofExcept x) := by
  cases x with
  | ok a => exact alike_pure a
  | error e => exact alike_fail e

/-- One part after another; of what follows only that matters which can follow. -/
theorem Alike.bind_of_ends {f f' : α → Act γ} (hm : m.Alike W i m')
    (hf : ∀ {s t a s'}, m.Ends s t (.ok a) s' → (f a).Alike W i (f' a)) :
    (m >>= f).Alike W i (m' >>= f') := by
  intro s
  refine (hm s).bind_of_ends fun {t x} h => ?_
  obtain ⟨_ | a, s₁⟩ := x
  · exact Program.alike_pure _
  · exact hf h s₁

theorem Alike.bind {f f' : α → Act γ} (hm : m.Alike W i m') (hf : ∀ a, (f a).Alike W i (f' a)) :
    (m >>= f).Alike W i (m' >>= f') :=
  hm.bind_of_ends fun {_ _ a _} _ => hf a

/-- A value that may be missing first, and then what depends on it. -/
theorem alike_ofExcept_bind {x : Except Failure α} {f f' : α → Act γ}
    (hf : ∀ a, x = .ok a → (f a).Alike W i (f' a)) :
    (ofExcept x >>= f).Alike W i (ofExcept x >>= f') := by
  cases x with
  | ok a => exact hf a rfl
  | error e => exact alike_fail e

theorem alike_ite {c : Prop} [Decidable c] {m₁ m₁' : Act α} (hm : m.Alike W i m')
    (hm₁ : m₁.Alike W i m₁') : (if c then m else m₁).Alike W i (if c then m' else m₁') := by
  split
  · exact hm
  · exact hm₁

theorem alike_of_obeys (hW : W.Minds i) (hm : m.Obeys (Fixed i)) : m.Alike W i m :=
  fun s => Program.alike_of_fixed hW fun {_ x} h => hm s _ x.1 x.2 h

theorem alike_ask (hW : W.Minds i) {c : Call} (hc : c.Fixed i) : (ask c).Alike W i (ask c) :=
  alike_of_obeys hW (obeys_ask fun _ => List.forall_mem_singleton.mpr hc)

theorem alike_now_bind (hW : W.Minds i) {f f' : Rat → Act γ}
    (hf : ∀ now now', (f now).Alike W i (f' now')) :
    (ask .now >>= f).Alike W i (ask .now >>= f') :=
  fun s => Program.alike_now hW fun now now' => hf now now' s

theorem alike_await (hW : W.Minds i) (ms : Rat) :
    (await (.sleep ms)).Alike W i (await (.sleep ms)) := by
  have hsleep (wake : Wake) : ∀ d ∈ [Deed.wait (.sleep ms), .wake wake], d.Fixed i :=
    List.forall_mem_cons.mpr ⟨⟨ms, rfl⟩, List.forall_mem_singleton.mpr trivial⟩
  exact alike_of_obeys hW (obeys_await (hsleep _) (hsleep _))

theorem alike_forM {f f' : γ → Act PUnit} {cs : List γ} (hf : ∀ c ∈ cs, (f c).Alike W i (f' c)) :
    (cs.forM f).Alike W i (cs.forM f') := by
  induction cs with
  | nil => exact alike_pure _
  | cons c cs ih =>
    exact (hf c List.mem_cons_self).bind fun _ => ih fun c hc => hf c (List.mem_cons_of_mem _ hc)

/-- What has been tried is the same, and what depends on it is alike. -/
theorem alike_outcome_bind {f f' : Except Failure α → Act γ} (hm : m.Alike W i m')
    (hf : ∀ x, (f x).Alike W i (f' x)) :
    (Loop.outcome m >>= f).Alike W i (Loop.outcome m' >>= f') := by
  refine Alike.bind (fun s => ?_) hf
  exact (hm s).bind fun x => Program.alike_pure _

/-- Parts are alike when they are idle, come to the same and tell the same. -/
theorem alike_of_idle (hW : W.Minds i)
    (hm : ∀ {s t r s'}, m.Ends s t r s' → ∀ d ∈ t, d.Idle ∧ d.Confined i)
    (hm' : ∀ {s t r s'}, m'.Ends s t r s' → ∀ d ∈ t, d.Idle)
    (hsame : ∀ {b s t t' r r' s₁ s₁'}, m.Ends s t r s₁ → m'.Ends s t' r' s₁' → Fits W b t →
      Fits W b t' → r = r' ∧ s₁ = s₁' ∧ told t = told t') : m.Alike W i m' := by
  intro s
  refine Program.alike_of_idle hW (fun {t x} h => ?_) (fun {t x} h => ?_)
    fun {_ t t' x x'} h h' hfits hfits' => ?_
  · have hends : m.Ends s t x.1 x.2 := h
    exact hm hends
  · have hends : m'.Ends s t x.1 x.2 := h
    exact hm' hends
  · have hends : m.Ends s t x.1 x.2 := h
    have hends' : m'.Ends s t' x'.1 x'.2 := h'
    obtain ⟨hr, hs, htold⟩ := hsame hends hends' hfits hfits'
    exact ⟨Prod.ext hr hs, htold⟩

/-- Parts are alike when they are silent and come to the same. -/
theorem alike_of_silent (hW : W.Minds i)
    (hm : ∀ {s t r s'}, m.Ends s t r s' → ∀ d ∈ t, d.Silent)
    (hm' : ∀ {s t r s'}, m'.Ends s t r s' → ∀ d ∈ t, d.Silent)
    (hsame : ∀ {b s t t' r r' s₁ s₁'}, m.Ends s t r s₁ → m'.Ends s t' r' s₁' → Fits W b t →
      Fits W b t' → r = r' ∧ s₁ = s₁') : m.Alike W i m' := by
  refine alike_of_idle hW (fun h d hd => ⟨(hm h d hd).idle, (hm h d hd).confined⟩)
    (fun h d hd => (hm' h d hd).idle) fun h h' hfits hfits' => ?_
  obtain ⟨hr, hs⟩ := hsame h h' hfits hfits'
  exact ⟨hr, hs, (told_of_silent (hm h)).trans (told_of_silent (hm' h')).symm⟩

/-- A look at the request to stop finds nothing. -/
theorem alike_checkpoint (hW : W.Minds i) (message : String) :
    (checkpoint message).Alike W i (checkpoint message) := by
  have hsilent {s t r s'} (h : (checkpoint message).Ends s t r s') : ∀ d ∈ t, d.Silent := by
    obtain ⟨-, ⟨rfl, -⟩ | ⟨c, rfl, -⟩⟩ := ends_checkpoint_iff.mp h
    all_goals exact List.forall_mem_singleton.mpr trivial
  have hgoes {b s t r s'} (h : (checkpoint message).Ends s t r s') (hfits : Fits W b t) :
      r = .ok () ∧ s' = s := by
    obtain ⟨hs, ⟨-, hr⟩ | ⟨c, rfl, -⟩⟩ := ends_checkpoint_iff.mp h
    · exact ⟨hr, hs⟩
    · cases hfits.unasked List.mem_cons_self
  refine alike_of_silent hW hsilent hsilent fun h h' hfits hfits' => ?_
  obtain ⟨rfl, rfl⟩ := hgoes h hfits
  obtain ⟨rfl, rfl⟩ := hgoes h' hfits'
  exact ⟨rfl, rfl⟩

theorem alike_log (hW : W.Minds i) (r : LogRecord) : (log r).Alike W i (log r) :=
  alike_ask hW trivial

/-- Events are alike that differ in their times only. -/
theorem alike_emit (hW : W.Minds i) {ctx ctx' : LoopContext} {frame : Frame} {type : EventType}
    {content content' : RunEvent → RunEvent} (hi : ctx.loopIndex = i)
    (hi' : ctx'.loopIndex = i)
    (hindex : ∀ e, (content e).loopIndex = e.loopIndex)
    (hcontent : ∀ e e', e.timeless = e'.timeless → (content e).timeless = (content' e').timeless) :
    (emit ctx frame type content).Alike W i (emit ctx' frame type content') := by
  refine alike_of_idle hW (fun h => ?_) (fun h => ?_) fun h h' _ _ => ?_
  · obtain ⟨now, taken, -, -, rfl⟩ := ends_emit_iff.mp h
    refine List.forall_mem_cons.mpr ⟨⟨trivial, trivial⟩, List.forall_mem_singleton.mpr
      ⟨trivial, ?_⟩⟩
    exact (hindex _).trans hi
  · obtain ⟨now, taken, -, -, rfl⟩ := ends_emit_iff.mp h
    exact List.forall_mem_cons.mpr ⟨trivial, List.forall_mem_singleton.mpr trivial⟩
  · obtain ⟨now, taken, rfl, rfl, rfl⟩ := ends_emit_iff.mp h
    obtain ⟨now', taken', rfl, rfl, rfl⟩ := ends_emit_iff.mp h'
    refine ⟨rfl, rfl, ?_⟩
    rw [told_emit, told_emit, hcontent _ _ ?_]
    simp only [RunEvent.timeless, Frame.event, hi, hi']

end Act

/-! ### The work of an action -/

namespace Work

variable {α γ : Type} {W : Watch env β} {i : Int} {m m' : Work α}

/-- The work of two actions goes on alike from the same report and the same variables. -/
def Alike (W : Watch env β) (i : Int) (m m' : Work α) : Prop :=
  ∀ f s, ((m.run.run f).run s).Alike W i ((m'.run.run f).run s)

theorem alike_pure (a : α) : (pure a : Work α).Alike W i (pure a) :=
  fun _ _ => Program.alike_pure _

theorem alike_throw (e : Failure) : (throw e : Work α).Alike W i (throw e) :=
  fun _ _ => Program.alike_pure _

theorem alike_report (g : Fields → Fields) : (report g).Alike W i (report g) :=
  fun _ _ => Program.alike_pure _

theorem Alike.bind {f f' : α → Work γ} (hm : m.Alike W i m') (hf : ∀ a, (f a).Alike W i (f' a)) :
    (m >>= f).Alike W i (m' >>= f') := by
  intro report s
  refine (hm report s).bind fun x => ?_
  obtain ⟨⟨_ | a, report₁⟩, s₁⟩ := x
  · exact Program.alike_pure _
  · exact hf a report₁ s₁

theorem alike_lift {m m' : Act α} (hm : m.Alike W i m') : (lift m).Alike W i (lift m') :=
  fun _ s => (hm s).bind fun _ => Program.alike_pure _

/-- A value that may be missing first, and then what depends on it. -/
theorem alike_ofExcept_bind {x : Except Failure α} {f f' : α → Work γ}
    (hf : ∀ a, x = .ok a → (f a).Alike W i (f' a)) :
    (lift (Act.ofExcept x) >>= f).Alike W i (lift (Act.ofExcept x) >>= f') := by
  cases x with
  | ok a => exact hf a rfl
  | error e => exact alike_throw e

theorem alike_ite {c : Prop} [Decidable c] {m₁ m₁' : Work α} (hm : m.Alike W i m')
    (hm₁ : m₁.Alike W i m₁') : (if c then m else m₁).Alike W i (if c then m' else m₁') := by
  split
  · exact hm
  · exact hm₁

theorem alike_of_obeys (hW : W.Minds i) (hm : m.Obeys (Fixed i)) : m.Alike W i m :=
  fun f s => Program.alike_of_fixed hW fun {_ x} h => hm f s _ x.1.1 x.1.2 x.2 h

theorem alike_now_bind (hW : W.Minds i) {f f' : Rat → Work γ}
    (hf : ∀ now now', (f now).Alike W i (f' now')) :
    (lift (Act.ask .now) >>= f).Alike W i (lift (Act.ask .now) >>= f') :=
  fun report s => Program.alike_now hW fun now now' => hf now now' report s

theorem alike_attempt {m m' : Work Unit} (hm : m.Alike W i m') :
    (attempt m).Alike W i (attempt m') := by
  intro f s
  refine (hm f s).bind fun x => ?_
  obtain ⟨(_ | _ | _) | _, _⟩ := x <;> exact Program.alike_pure _

theorem alike_restoringLocalIndex (hm : m.Alike W i m') :
    (LoopUntil.restoringLocalIndex m).Alike W i (LoopUntil.restoringLocalIndex m') :=
  fun f s => (hm f s).bind fun _ => Program.alike_pure _

end Work

end Runbook
