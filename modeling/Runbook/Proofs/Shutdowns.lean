import Runbook.Proofs.Custody

/-!
# Shutdowns

What was started since the last shutdown is what is behind the lock. So a shutdown finds all of it:
the browser that was launched last, which it asks to close, and the browser software, which it asks
to stop. But when the browser cannot be closed, the software is not stopped, and it is forgotten all
the same.

* `System.Reaches.covers`: what is behind the lock is what was started since the last shutdown.
* `System.stopped_iff_closed`: when a shutdown has ended without interruption, the browser was asked
  to close, and all software was asked to stop unless closing failed.
-/

namespace Runbook.Launcher

namespace System

/-! ### What was started and given up -/

section

variable {ι : Type} {jobs : ι → Job} {i : ι} {q : Request} {r : q.Reply}

/-- The browser software that was started, the latest first. -/
def started (past : List (ι × Answered)) : List Nat := past.filterMap fun d => d.2.started?

/-- The browsers that were launched, the latest first. -/
def launched (past : List (ι × Answered)) : List Nat := past.filterMap fun d => d.2.launched?

/-- The browsers that were asked to close, and how that came out. -/
def closings (past : List (ι × Answered)) : List (Nat × Except Failure Unit) :=
  past.filterMap fun d => d.2.closed?

/-- The browser software that was asked to stop. -/
def stopped (past : List (ι × Answered)) : List Nat := past.filterMap fun d => d.2.stopped?

/-- A shutdown gives back the lock, having done all it does. -/
def endsShutdown (jobs : ι → Job) : ι × Answered → Bool
  | (i, ⟨.release _, _⟩) => jobs i = .shutdown
  | _ => false

/-- What was asked since the last shutdown. -/
def sinceShutdown (jobs : ι → Job) (past : List (ι × Answered)) : List (ι × Answered) :=
  past.takeWhile fun d => !endsShutdown jobs d

/-- What is behind the lock has come there since the last shutdown, and the account says what was
given up since. -/
structure Covers (a : Account) (since : List (ι × Answered)) : Prop where
  started : started since = a.parts.software.toList
  launched : (launched since).head? = a.parts.browser
  closings : ∀ b r, (b, r) ∈ closings since ↔ a.parts.browser = some b ∧ a.closing = some r
  stopped : ∀ n, n ∈ stopped since ↔ a.parts.software = some n ∧ a.stopped = true

theorem covers_nil : Covers (ι := ι) {} [] :=
  ⟨rfl, rfl, by simp [closings], by simp [stopped]⟩

theorem Covers.authorized {a : Account} {since : List (ι × Answered)} (h : Covers a since)
    (hq : Account.Allows (jobs i) (some a) q) (hends : endsShutdown jobs (i, ⟨q, r⟩) = false) :
    Covers (a.note q r) ((i, ⟨q, r⟩) :: since) := by
  obtain ⟨hstarted, hlaunched, hclosings, hstopped⟩ := h
  cases q with
  | start =>
    rcases r with f | n
    · exact ⟨hstarted, hlaunched, hclosings, hstopped⟩
    obtain ⟨hsoftware, -, hstop⟩ := hq
    refine ⟨?_, hlaunched, hclosings, fun m => ?_⟩
    · exact congrArg (n :: ·) (hstarted.trans (by rw [hsoftware]; rfl))
    · exact (hstopped m).trans (by simp [Account.note, hsoftware, hstop])
  | launch m _ _ =>
    rcases r with f | b
    · exact ⟨hstarted, hlaunched, hclosings, hstopped⟩
    obtain ⟨-, -, hclosing, -⟩ := hq
    refine ⟨hstarted, rfl, fun b' r => ?_, hstopped⟩
    exact (hclosings b' r).trans (by simp [Account.note, hclosing])
  | isConnected b => cases r <;> exact ⟨hstarted, hlaunched, hclosings, hstopped⟩
  | closeBrowser b =>
    obtain ⟨hbrowser, hclosing⟩ := hq
    refine ⟨hstarted, hlaunched, fun b' r' => ?_, hstopped⟩
    change (b', r') ∈ (b, r) :: System.closings since ↔ a.parts.browser = some b' ∧ some r = some r'
    rw [List.mem_cons, hclosings, hclosing, hbrowser]
    simp [eq_comm]
  | stop n =>
    obtain ⟨hsoftware, hstop⟩ := hq
    refine ⟨hstarted, hlaunched, hclosings, fun m => ?_⟩
    change m ∈ n :: System.stopped since ↔ a.parts.software = some m ∧ true = true
    rw [List.mem_cons, hstopped, hstop, hsoftware]
    simp [eq_comm]
  | release parts =>
    cases hjob : jobs i with
    | session _ =>
      simp only [Account.Allows, hjob] at hq
      obtain ⟨rfl, hclosing, hstop⟩ := hq
      exact ⟨hstarted, hlaunched,
        fun b r => (hclosings b r).trans (by simp [Account.note, hclosing]),
        fun n => (hstopped n).trans (by simp [Account.note, hstop])⟩
    | shutdown => simp [endsShutdown, hjob] at hends
  | log _ => exact ⟨hstarted, hlaunched, hclosings, hstopped⟩
  | _ => exact hq.elim

end

/-! ### Shutdowns -/

variable {ι : Type} [DecidableEq ι] {o : Options} {jobs : ι → Job} {s : System ι}
  {past : List (ι × Answered)} {i : ι}

/-- The account of the past covers what was asked since the last shutdown. -/
theorem Reaches.covers (h : Reaches (start o jobs) past s) :
    Covers (account past) (sinceShutdown jobs past) := by
  induction past generalizing s with
  | nil => exact covers_nil
  | cons d past ih =>
    obtain ⟨i, q, r⟩ := d
    obtain ⟨s₁, _, h₁, -⟩ := h.exists_before
    rw [sinceShutdown, List.takeWhile_cons]
    cases hends : endsShutdown jobs (i, ⟨q, r⟩) with
    | true =>
      have hq := h.authorized
      cases q with
      | release parts =>
        simp only [Account.Allows, of_decide_eq_true hends, or_false] at hq
        obtain rfl : parts = {} := hq.1
        exact covers_nil
      | _ => exact absurd hends Bool.false_ne_true
    | false =>
      rcases h.authorized with hq | hq
      · exact (ih h₁).authorized hq hends
      · obtain ⟨hstarted, hlaunched, hclosings, hstopped⟩ := ih h₁
        cases q with
        | newContext => exact ⟨hstarted, hlaunched, hclosings, hstopped⟩
        | _ => first | exact hq.elim | exact ⟨hstarted, hlaunched, hclosings, hstopped⟩

/-- Where a shutdown gives back the lock, it has asked the browser to close. It has asked the
software to stop unless closing failed. -/
theorem Reaches.given_up {parts : Parts}
    (h : Reaches (start o jobs) ((i, ⟨.release parts, ()⟩) :: past) s) (hi : jobs i = .shutdown) :
    (∀ b ∈ (launched (sinceShutdown jobs past)).head?,
      ∃ r, (b, r) ∈ closings (sinceShutdown jobs past)) ∧
    ((∀ n ∈ started (sinceShutdown jobs past), n ∈ stopped (sinceShutdown jobs past)) ↔
      started (sinceShutdown jobs past) = [] ∨
      ∀ b f, (b, .error f) ∉ closings (sinceShutdown jobs past)) := by
  obtain ⟨s₁, _, h₁, -⟩ := h.exists_before
  obtain ⟨hstarted, hlaunched, hclosings, hstopped⟩ := h₁.covers
  have hq := h.authorized
  simp only [Account.Allows, hi, or_false] at hq
  obtain ⟨-, hclosed, hstop⟩ := hq
  constructor
  · intro b hb
    have hbrowser := hlaunched.symm.trans hb
    obtain ⟨r, hr⟩ := Option.isSome_iff_exists.mp (hclosed.trans (congrArg _ hbrowser))
    exact ⟨r, (hclosings b r).mpr ⟨hbrowser, hr⟩⟩
  · rw [hstarted]
    simp only [hclosings, hstopped]
    cases hsoftware : (account past).parts.software with
    | none => simp
    | some n =>
      simp only [Option.toList_some, List.mem_singleton, forall_eq, true_and, hstop n hsoftware,
        List.cons_ne_nil, false_or]
      constructor
      · exact fun hok b f hf => hok f hf.2
      · intro hok f hf
        obtain ⟨b, hb⟩ := Option.isSome_iff_exists.mp (hclosed.symm.trans (congrArg _ hf))
        exact hok b f ⟨hb, hf⟩

/-! ### The end of a shutdown -/

/-- Whether the last request was to give back the lock; everything is allowed. -/
def released : Protocol Bool where
  Allows _ _ := True
  next _ q _ := q matches .release _

theorem follows_released {α : Type} (m : StateT Parts Work (Except Failure α)) :
    (guarded m).Follows released (fun state outcome => state = true ∨ outcome = .error .interrupted)
      false :=
  Work.follows_guarded trivial (.inr rfl) fun _ =>
    (Work.follows_of_allows (fun _ _ => trivial) _).mono fun _ _ _ => ⟨trivial, .inl rfl⟩

theorem exists_release (h : released.state false i past = true) :
    ∃ later parts earlier, past = later ++ (i, ⟨.release parts, ()⟩) :: earlier ∧
      ∀ d ∈ later, d.1 ≠ i := by
  induction past with
  | nil => exact absurd h Bool.false_ne_true
  | cons d past ih =>
    obtain ⟨j, q, r⟩ := d
    by_cases hij : j = i
    · subst hij
      rw [Protocol.state_self] at h
      cases q with
      | release parts => exact ⟨[], parts, past, rfl, List.forall_mem_nil _⟩
      | _ => exact absurd h Bool.false_ne_true
    · rw [Protocol.state_of_ne hij] at h
      obtain ⟨later, parts, earlier, rfl, hlater⟩ := ih h
      exact ⟨(j, ⟨q, r⟩) :: later, parts, earlier, rfl, List.forall_mem_cons.mpr ⟨hij, hlater⟩⟩

/-- Unless it is interrupted, the last that a shutdown does is to give back the lock. -/
theorem Reaches.exists_release_of_done (h : Reaches (start o jobs) past s)
    (hi : jobs i = .shutdown) (hdone : s.tasks i = .done (.ok ())) :
    ∃ later parts earlier, past = later ++ (i, ⟨.release parts, ()⟩) :: earlier ∧
      ∀ d ∈ later, d.1 ≠ i := by
  have hfollows : ∀ i, ((start o jobs).tasks i).Follows released
      (fun state outcome => jobs i = .shutdown → state = true ∨ outcome = .error .interrupted)
      false := by
    intro i
    change ((jobs i).work o).Follows _ _ _
    cases jobs i with
    | session _ => exact (Work.follows_of_allows (fun _ _ => trivial) _).mono fun _ _ _ => nofun
    | shutdown => exact (follows_released _).mono fun _ _ hreleased _ => hreleased
  have hend := h.follows hfollows i
  rw [hdone] at hend
  exact exists_release ((hend hi).resolve_right nofun)

/-- **When a shutdown has ended without interruption, the browser was asked to close, and the
software that was started since the shutdown before was asked to stop, unless closing failed.** -/
theorem stopped_iff_closed (h : Reaches (start o jobs) past s)
    (hi : jobs i = .shutdown) (hdone : s.tasks i = .done (.ok ())) :
    ∃ later parts earlier, past = later ++ (i, ⟨.release parts, ()⟩) :: earlier ∧
      (∀ d ∈ later, d.1 ≠ i) ∧
      (∀ b ∈ (launched (sinceShutdown jobs earlier)).head?,
        ∃ r, (b, r) ∈ closings (sinceShutdown jobs earlier)) ∧
      ((∀ n ∈ started (sinceShutdown jobs earlier), n ∈ stopped (sinceShutdown jobs earlier)) ↔
        started (sinceShutdown jobs earlier) = [] ∨
        ∀ b f, (b, .error f) ∉ closings (sinceShutdown jobs earlier)) := by
  obtain ⟨later, parts, earlier, rfl, hlater⟩ := h.exists_release_of_done hi hdone
  obtain ⟨s₁, h₁⟩ := h.of_append
  exact ⟨later, parts, earlier, rfl, hlater, h₁.given_up hi⟩

/-- A session and a shutdown. -/
def sessionAndShutdown : Bool → Job
  | false => .session 0
  | true => .shutdown

/-- No browser could be launched: the shutdown stops the software. -/
theorem stopped_after_failed_launch : ∃ (past : List (Bool × Answered)) (s : System Bool),
    Reaches (start {} sessionAndShutdown) past s ∧ s.tasks true = .done (.ok ()) ∧
      started past = [0] ∧ launched past = [] ∧ stopped past = [0] ∧
      ∃ later parts earlier, past = later ++ (true, ⟨.release parts, ()⟩) :: earlier ∧
        (∀ d ∈ later, d.1 ≠ true) ∧
        (∀ b ∈ (launched (sinceShutdown sessionAndShutdown earlier)).head?,
          ∃ r, (b, r) ∈ closings (sinceShutdown sessionAndShutdown earlier)) ∧
        ((∀ n ∈ started (sinceShutdown sessionAndShutdown earlier),
            n ∈ stopped (sinceShutdown sessionAndShutdown earlier)) ↔
          started (sinceShutdown sessionAndShutdown earlier) = [] ∨
          ∀ b f, (b, .error f) ∉ closings (sinceShutdown sessionAndShutdown earlier)) := by
  have h₀ : Reaches (start {} sessionAndShutdown) [] _ := .refl
  have h₁ := h₀.step (i := false) (q := .acquire) (r := some {}) rfl ⟨rfl, rfl⟩
  have h₂ := h₁.step (i := false) (q := .start) (r := .ok 0) rfl
    (by simp [Possible, Answered.started?])
  have h₃ := h₂.step (i := false) (q := .launch _ _ _) (r := .error (.fault (.failure "crashed")))
    rfl trivial
  have h₄ := h₃.step (i := false) (q := .release _) (r := ()) rfl trivial
  have h₅ := h₄.step (i := true) (q := .acquire) (r := some ⟨some 0, none⟩) rfl ⟨rfl, rfl⟩
  have h₆ := h₅.step (i := true) (q := .stop _) (r := .ok ()) rfl trivial
  have h₇ := h₆.step (i := true) (q := .release _) (r := ()) rfl trivial
  exact ⟨_, _, h₇, rfl, rfl, rfl, rfl, stopped_iff_closed h₇ rfl rfl⟩

/-- The session has ended and the shutdown, too, but the browser could not be closed: the software
was never asked to stop. -/
theorem unstopped_after_failed_closing : ∃ (past : List (Bool × Answered)) (s : System Bool),
    Reaches (start {} sessionAndShutdown) past s ∧
      s.tasks false = .done (.ok ()) ∧ s.tasks true = .done (.ok ()) ∧
      started past = [0] ∧ stopped past = [] := by
  have h₀ : Reaches (start {} sessionAndShutdown) [] _ := .refl
  have h₁ := h₀.step (i := false) (q := .acquire) (r := some {}) rfl ⟨rfl, rfl⟩
  have h₂ := h₁.step (i := false) (q := .start) (r := .ok 0) rfl
    (by simp [Possible, Answered.started?])
  have h₃ := h₂.step (i := false) (q := .launch _ _ _) (r := .ok 0) rfl
    (by simp [Possible, Answered.launched?])
  have h₄ := h₃.step (i := false) (q := .release _) (r := ()) rfl trivial
  have h₅ := h₄.step (i := false) (q := .newContext _ _) (r := .ok 0) rfl
    (by simp [Possible, Answered.created?])
  have h₆ := h₅.step (i := false) (q := .newPage _) (r := .ok ()) rfl trivial
  have h₇ := h₆.step (i := false) (q := .setTimeout _ _) (r := .ok ()) rfl trivial
  have h₈ := h₇.step (i := false) (q := .use _) (r := .ok ()) rfl trivial
  have h₉ := h₈.step (i := false) (q := .closeContext _) (r := .ok ()) rfl trivial
  have h₁₀ := h₉.step (i := true) (q := .acquire) (r := some ⟨some 0, some 0⟩) rfl ⟨rfl, rfl⟩
  have h₁₁ := h₁₀.step (i := true) (q := .closeBrowser _) (r := .error (.fault (.failure "hangs")))
    rfl trivial
  have h₁₂ := h₁₁.step (i := true) (q := .log _) (r := ()) rfl trivial
  have h₁₃ := h₁₂.step (i := true) (q := .release _) (r := ()) rfl trivial
  exact ⟨_, _, h₁₃, rfl, rfl, rfl, rfl⟩

end System

end Runbook.Launcher
