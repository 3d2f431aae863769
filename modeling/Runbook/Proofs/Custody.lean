import Runbook.Proofs.Sharing

/-!
# What is behind the lock

While a task has the lock, no other changes what is behind it. So what is behind the lock can be
told from the past alone, whoever asked: `account past` says what was started and launched and not
given up since, and what was asked since the lock was taken. Each task that has the lock knows as
much from its own requests, and the protocol `custody` says what it may ask for, given that:

* a session starts the browser software if there is none, and launches a browser if there is none or
  it could not be reached; then it gives back what it has found or made;
* a shutdown closes the browser and stops the browser software, unless closing fails, and gives back
  nothing.

* `System.Reaches.custody`: the account of the past is right, and only who has the lock knows it.
* `System.Reaches.authorized`: what is asked is allowed by the account of the past.
* `System.Reaches.launched_again`: between two launches the first browser was lost, or given up by a
  shutdown.
-/

namespace Runbook.Launcher

/-- What is behind the lock, and what was asked about it since it was taken. -/
structure Account where
  parts : Parts := {}
  /-- The browser could not be reached. -/
  lost : Bool := false
  /-- How it came out to close the browser. -/
  closing : Option (Except Failure Unit) := none
  /-- The browser software was asked to stop. -/
  stopped : Bool := false

namespace Account

/-- The account after a reply. -/
def note (a : Account) : (q : Request) → q.Reply → Account
  | .release parts, _ => { parts }
  | .start, .ok n => { a with parts.software := some n }
  | .launch _ _ _, .ok n => { a with parts.browser := some n, lost := false }
  | .isConnected _, false => { a with lost := true }
  | .closeBrowser _, r => { a with closing := some r }
  | .stop _, _ => { a with stopped := true }
  | _, _ => a

/-- Nothing has been given up. -/
def Kept (a : Account) : Prop := a.closing = none ∧ a.stopped = false

/-- A browser is there and has not been found lost. -/
structure AtHand (a : Account) (b : Nat) : Prop where
  browser : a.parts.browser = some b
  lost : a.lost = false

/-- The browser was asked to close, and the browser software to stop, unless closing failed. -/
structure GivenUp (a : Account) : Prop where
  closed : a.closing.isSome = a.parts.browser.isSome
  stopped : ∀ n, a.parts.software = some n → (a.stopped = true ↔ ∀ f, a.closing ≠ some (.error f))

/-- What a task may ask for that has an account of what is behind the lock, as long as it has the
lock. -/
def Allows (job : Job) : Option Account → Request → Prop
  | some a, .start => a.parts.software = none ∧ a.Kept
  | some a, .launch n _ _ =>
    a.parts.software = some n ∧ (a.parts.browser = none ∨ a.lost = true) ∧ a.Kept
  | some a, .isConnected b => a.parts.browser = some b
  | some a, .closeBrowser b => a.parts.browser = some b ∧ a.closing = none
  | some a, .stop n => a.parts.software = some n ∧ a.stopped = false
  | some a, .release parts =>
    match job with
    | .session _ => parts = a.parts ∧ a.Kept
    | .shutdown => parts = {} ∧ a.GivenUp
  | some _, .log _ => True
  | some _, _ => False
  | none, .acquire | none, .newContext _ _ | none, .newPage _ | none, .setTimeout _ _
  | none, .use _ | none, .closeContext _ | none, .log _ => True
  | none, _ => False

/-- The account of a task after a reply. -/
def next : Option Account → (q : Request) → q.Reply → Option Account
  | none, .acquire, some parts => some { parts }
  | none, _, _ => none
  | some _, .release _, _ => none
  | some a, q, r => some (a.note q r)

end Account

/-- The protocol of what is behind the lock. -/
def custody (job : Job) : Protocol (Option Account) := ⟨Account.Allows job, Account.next⟩

/-! ### The work of a task -/

namespace Account

variable {job : Job} {i : Int}

/-- What is done with the lock is lawful, and so is what it leaves behind. -/
theorem follows_guarded {α : Type} {m : StateT Parts Work (Except Failure α)}
    (hm : ∀ parts, (m.run parts).Follows (custody job)
      (fun state p => ∃ a, state = some a ∧ Account.Allows job (some a) (.release p.2))
      (some { parts })) :
    (guarded m).Follows (custody job) (fun state _ => state = none) none := by
  refine Work.follows_guarded trivial rfl fun parts => (hm parts).mono ?_
  rintro _ p ⟨a, rfl, hrelease⟩
  exact ⟨hrelease, rfl⟩

/-- Having made sure of the software, a session knows it; nothing else has changed. -/
theorem follows_ensureStarted {a : Account} (ha : a.Kept) :
    (ensureStarted.run a.parts).Follows (custody job) (fun state p => ∃ a', state = some a' ∧
      a'.parts = p.2 ∧ a'.Kept ∧ a'.parts.browser = a.parts.browser ∧ a'.lost = a.lost ∧
      ∀ n, p.1 = .ok n → a'.parts.software = some n) (some a) := by
  simp only [ensureStarted, StateT.run_bind, StateT.run_get, pure_bind]
  cases hsoftware : a.parts.software with
  | some n => exact ⟨a, rfl, rfl, ha, rfl, rfl, by rintro _ ⟨⟩; exact hsoftware⟩
  | none =>
    refine ⟨⟨hsoftware, ha⟩, ?_⟩
    rintro (f | n)
    · exact ⟨a, rfl, rfl, ha, rfl, rfl, nofun⟩
    · exact ⟨_, rfl, rfl, ha, rfl, rfl, by rintro _ ⟨⟩; rfl⟩

/-- A session that has no browser at hand may launch one. -/
theorem follows_reachable {a : Account} (ha : a.Kept) :
    (reachable?.run a.parts).Follows (custody job) (fun state p => ∃ a', state = some a' ∧
      a'.parts = p.2 ∧ a'.Kept ∧ (p.1 = none → a'.parts.browser = none ∨ a'.lost = true))
      (some a) := by
  simp only [reachable?, StateT.run_bind, StateT.run_get, pure_bind]
  cases hbrowser : a.parts.browser with
  | none => exact ⟨a, rfl, rfl, ha, fun _ => .inl hbrowser⟩
  | some b =>
    refine ⟨hbrowser, ?_⟩
    rintro (_ | _)
    · exact ⟨_, rfl, rfl, ha, fun _ => .inr rfl⟩
    · exact ⟨a, rfl, rfl, ha, nofun⟩

/-- A session gives back what it has found or made. -/
theorem follows_ensureBrowser (o : Options) {a : Account} (ha : a.Kept) :
    ((ensureBrowser o).run a.parts).Follows (custody job)
      (fun state p => ∃ a', state = some a' ∧ a'.parts = p.2 ∧ a'.Kept) (some a) := by
  rw [ensureBrowser, StateT.run_bind]
  refine (follows_reachable ha).bind ?_
  rintro _ ⟨_ | b, parts⟩ ⟨a₁, rfl, rfl, ha₁, hlost⟩
  · dsimp only
    rw [StateT.run_bind]
    refine (follows_ensureStarted ha₁).bind ?_
    rintro _ ⟨f | n, parts⟩ ⟨a₂, rfl, rfl, ha₂, hbrowser, hlost₂, hsoftware⟩
    · exact ⟨a₂, rfl, rfl, ha₂⟩
    · refine ⟨⟨hsoftware n rfl, ?_, ha₂⟩, ?_⟩
      · rw [hbrowser, hlost₂]
        exact hlost rfl
      · rintro (f | b)
        · exact ⟨a₂, rfl, rfl, ha₂⟩
        · exact ⟨_, rfl, rfl, ha₂⟩
  · exact ⟨a₁, rfl, rfl, ha₁⟩

theorem follows_preparePage (o : Options) (context : Nat) :
    (preparePage o context).Follows (custody job) (fun state _ => state = none) none := by
  refine Work.follows_request_bind_iff.mpr ⟨trivial, ?_⟩
  rintro (f | _)
  · rfl
  · dsimp only
    cases o.timeout with
    | null => rfl
    | _ => exact ⟨trivial, fun _ => rfl⟩

theorem follows_closeContext (context : Nat) :
    (closeContext i context).Follows (custody job) (fun state _ => state = none) none := by
  refine Work.follows_request_bind_iff.mpr ⟨trivial, fun r => ?_⟩
  exact (Work.follows_onlyLogged (fun _ => trivial) (fun _ _ => rfl) ..).mono fun _ _ h => h.1

theorem follows_usePage (o : Options) (context : Nat) :
    (usePage o context).Follows (custody job) (fun state _ => state = none) none := by
  refine (follows_preparePage o context).bind ?_
  rintro _ (f | _) rfl
  · rfl
  · exact ⟨trivial, fun _ => rfl⟩

/-- A session has the lock only while it makes sure of a browser. -/
theorem follows_session (o : Options) (i : Int) :
    (session o i).Follows (custody (.session i)) (fun state _ => state = none) none := by
  have hguarded : (guarded (ensureBrowser o)).Follows (custody (.session i))
      (fun state _ => state = none) none := by
    refine follows_guarded fun parts => (follows_ensureBrowser o ⟨rfl, rfl⟩).mono ?_
    rintro _ p ⟨a, rfl, hparts, ha⟩
    exact ⟨a, rfl, hparts.symm, ha⟩
  refine hguarded.bind ?_
  rintro _ (f | browser) rfl
  · rfl
  refine Work.follows_request_bind_iff.mpr ⟨trivial, ?_⟩
  rintro (f | context)
  · rfl
  refine (follows_usePage o context).bind ?_
  rintro _ outcome rfl
  refine (follows_closeContext context).bind ?_
  rintro _ (f | _) rfl <;> rfl

/-- A shutdown asks the browser to close, if there is one. -/
theorem follows_closeBrowser (parts : Parts) :
    (closeBrowser parts.browser).Follows (custody .shutdown) (fun state closed => ∃ a,
      state = some a ∧ a.parts = parts ∧ a.stopped = false ∧
      a.closing.isSome = parts.browser.isSome ∧
      (closed = .ok () ↔ ∀ f, a.closing ≠ some (.error f))) (some { parts }) := by
  cases hbrowser : parts.browser with
  | none => exact ⟨_, rfl, rfl, rfl, rfl, by simp⟩
  | some b =>
    refine ⟨⟨hbrowser, rfl⟩, ?_⟩
    rintro (f | _) <;> exact ⟨_, rfl, rfl, rfl, rfl, by simp [Account.note]⟩

/-- It stops the software, unless closing fails. -/
theorem follows_closeParts (parts : Parts) :
    (closeParts parts).Follows (custody .shutdown) (fun state _ => ∃ a, state = some a ∧ a.GivenUp)
      (some { parts }) := by
  refine (follows_closeBrowser parts).bind ?_
  rintro _ closed ⟨a, rfl, rfl, hstopped, hclosing, hclosed⟩
  rcases closed with f | _
  · exact ⟨a, rfl, hclosing, fun n _ => by rw [hstopped, ← hclosed]; simp⟩
  cases hsoftware : a.parts.software with
  | none => exact ⟨a, rfl, hclosing, by simp [hsoftware]⟩
  | some n =>
    exact ⟨⟨hsoftware, hstopped⟩, fun _ => ⟨_, rfl, hclosing, fun _ _ =>
      iff_of_true rfl (hclosed.mp rfl)⟩⟩

theorem follows_shutdown :
    shutdown.Follows (custody .shutdown) (fun state _ => state = none) none := by
  refine follows_guarded fun parts => ?_
  simp only [StateT.run_bind, StateT.run_get, pure_bind, StateT.run_monadLift, bind_assoc]
  refine (follows_closeParts parts).bind ?_
  rintro _ r ⟨a, rfl, ha⟩
  refine (Work.follows_onlyLogged (fun _ => trivial) (fun _ _ => rfl) ..).bind ?_
  rintro _ outcome ⟨rfl, -⟩
  exact ⟨a, rfl, rfl, ha⟩

/-- A shutdown or a session keeps to the protocol of its job. -/
theorem follows_work (o : Options) (job : Job) :
    (job.work o).Follows (custody job) (fun state _ => state = none) none := by
  cases job with
  | session i => exact follows_session o i
  | shutdown => exact follows_shutdown

end Account

/-! ### The account of the past -/

namespace System

variable {ι : Type} {o : Options} {jobs : ι → Job} {s : System ι} {past : List (ι × Answered)}
  {i j : ι} {q : Request} {r : q.Reply}

/-- What is behind the lock after all that was asked. -/
def account : List (ι × Answered) → Account
  | [] => {}
  | (_, ⟨q, r⟩) :: past => (account past).note q r

/-- It was found that a browser is lost, or a shutdown has given it up. -/
def Dropped (jobs : ι → Job) (b : Nat) (past : List (ι × Answered)) : Prop :=
  (∃ k, (k, ⟨.isConnected b, false⟩) ∈ past) ∨
    ∃ k parts, jobs k = .shutdown ∧ (k, ⟨.release parts, ()⟩) ∈ past

theorem Dropped.cons {b : Nat} (h : Dropped jobs b past) (d : ι × Answered) :
    Dropped jobs b (d :: past) :=
  h.imp (fun ⟨k, hk⟩ => ⟨k, .tail _ hk⟩) fun ⟨k, parts, hjob, hk⟩ => ⟨k, parts, hjob, .tail _ hk⟩

variable [DecidableEq ι]

/-- Only who has the lock knows the account of the past. While nobody has it, the account is of what
is behind the lock. -/
theorem Reaches.custody (h : Reaches (start o jobs) past s) :
    (∀ i, (custody (jobs i)).state none i past =
      if s.holder = some i then some (account past) else none) ∧
    (s.holder = none → account past = { parts := s.parts }) := by
  have hfollows : ∀ i, ((start o jobs).tasks i).Follows (Launcher.custody (jobs i))
      (fun state _ => state = none) none := fun i => Account.follows_work o (jobs i)
  induction h with
  | refl => exact ⟨fun _ => rfl, fun _ => rfl⟩
  | @step past s j q k r h htask hpossible ih =>
    obtain ⟨hstate, hfree⟩ := ih
    have hallowed := (h.step htask hpossible).allowed hfollows
    rw [hstate j] at hallowed
    by_cases hj : s.holder = some j
    -- The task has the lock: it knows the account, and gives the lock back or goes on with it.
    · rw [if_pos hj] at hallowed
      have hne : ∀ i, j ≠ i → s.holder ≠ some i := fun i hij => by simpa [hj] using hij
      refine ⟨fun i => ?_, ?_⟩
      · by_cases hij : j = i
        · subst hij
          rw [Protocol.state_self, hstate j, if_pos hj]
          cases q <;> first | exact hallowed.elim | rfl | exact (if_pos hj).symm
        · rw [Protocol.state_of_ne hij, hstate i, if_neg (hne i hij)]
          cases q <;> first | exact hallowed.elim | rfl | exact (if_neg (hne i hij)).symm
      · cases q with
        | release parts => exact fun _ => rfl
        | acquire => exact hallowed.elim
        | _ => exact fun hnone => absurd (hnone.symm.trans hj) nofun
    -- It takes the lock, which is free, or leaves what is behind it alone.
    · rw [if_neg hj] at hallowed
      have hidle (hnext : Account.next none q r = none) (i : ι) :
          (Launcher.custody (jobs i)).state none i ((j, ⟨q, r⟩) :: past) =
            if s.holder = some i then some (account past) else none := by
        rw [Protocol.state_of_next (by rintro rfl; rw [hstate j, if_neg hj]; exact hnext)]
        exact hstate i
      cases q with
      | acquire =>
        rcases r with _ | parts
        · exact ⟨hidle rfl, hfree⟩
        obtain ⟨hnone, rfl⟩ := hpossible
        refine ⟨fun i => ?_, nofun⟩
        by_cases hij : j = i
        · subst hij
          rw [Protocol.state_self, hstate j, if_neg hj]
          exact (congrArg some (hfree hnone).symm).trans (if_pos rfl).symm
        · rw [Protocol.state_of_ne hij, hstate i, hnone]
          exact (if_neg (by simpa [goOn] using hij)).symm
      | start | launch | isConnected | closeBrowser | stop | release => exact hallowed.elim
      | _ => exact ⟨hidle rfl, hfree⟩

/-- What was asked was asked by who had the lock, and allowed by the account of the past, or is no
matter of the lock. -/
theorem Reaches.authorized (h : Reaches (start o jobs) ((i, ⟨q, r⟩) :: past) s) :
    Account.Allows (jobs i) (some (account past)) q ∨ Account.Allows (jobs i) none q := by
  have hallowed := h.allowed (fun i => Account.follows_work o (jobs i))
  obtain ⟨s₁, k, h₁, -⟩ := h.exists_before
  rw [h₁.custody.1 i] at hallowed
  split at hallowed
  · exact .inl hallowed
  · exact .inr hallowed

/-! ### Launches -/

/-- Until it is dropped, a browser that was launched is at hand. -/
theorem Reaches.dropped_or_atHand {later earlier : List (ι × Answered)} {n b : Nat}
    {headless : Bool} {arguments : List String}
    (h : Reaches (start o jobs)
      (later ++ (i, ⟨.launch n headless arguments, .ok b⟩) :: earlier) s) :
    Dropped jobs b later ∨
      (account (later ++ (i, ⟨.launch n headless arguments, .ok b⟩) :: earlier)).AtHand b := by
  induction later generalizing s with
  | nil => exact .inr ⟨rfl, rfl⟩
  | cons d later ih =>
    obtain ⟨k, q, r⟩ := d
    obtain ⟨s₁, _, h₁, -⟩ := h.exists_before
    rcases ih h₁ with hdropped | ⟨hbrowser, hlost⟩
    · exact .inl (hdropped.cons _)
    rcases h.authorized with hq | hq
    · cases q with
      | launch m _ _ =>
        rcases hq.2.1 with hnone | hlost'
        · exact absurd (hnone.symm.trans hbrowser) nofun
        · exact absurd (hlost'.symm.trans hlost) nofun
      | isConnected b' =>
        cases r with
        | true => exact .inr ⟨hbrowser, hlost⟩
        | false =>
          obtain rfl : b' = b := Option.some.inj (hq.symm.trans hbrowser)
          exact .inl (.inl ⟨k, .head _⟩)
      | release parts =>
        cases hjob : jobs k with
        | session _ =>
          simp only [Account.Allows, hjob] at hq
          exact .inr ⟨(congrArg Parts.browser hq.1).trans hbrowser, rfl⟩
        | shutdown => exact .inl (.inr ⟨k, parts, hjob, .head _⟩)
      | start => rcases r with f | n <;> exact .inr ⟨hbrowser, hlost⟩
      | _ => exact .inr ⟨hbrowser, hlost⟩
    · cases q <;> first | exact hq.elim | exact .inr ⟨hbrowser, hlost⟩

/-- **A browser is launched again only when the one before was lost, or given up by a shutdown.** -/
theorem Reaches.launched_again {later between earlier : List (ι × Answered)} {n m b : Nat}
    {headless headless' : Bool} {arguments arguments' : List String} {r : Except Failure Nat}
    (h : Reaches (start o jobs) (later ++ (j, ⟨.launch m headless' arguments', r⟩) ::
      (between ++ (i, ⟨.launch n headless arguments, .ok b⟩) :: earlier)) s) :
    Dropped jobs b between := by
  obtain ⟨s₂, h₂⟩ := h.of_append
  obtain ⟨s₁, _, h₁, -⟩ := h₂.exists_before
  refine h₁.dropped_or_atHand.resolve_right fun hb => ?_
  obtain ⟨-, hnone | hlost, -⟩ | hfree := h₂.authorized
  · exact absurd (hnone.symm.trans hb.browser) nofun
  · exact absurd (hlost.symm.trans hb.lost) nofun
  · exact hfree.elim

end System

end Runbook.Launcher
