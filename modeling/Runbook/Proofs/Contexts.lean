import Runbook.Proofs.Custody
import Mathlib.Data.List.Basic

/-!
# Contexts

Each session creates at most one context, and closes it when its page has been used, or could not be
set up. No other session closes it, since each context has a number of its own. After that a session
only logs, and it ends as the use of the page did, unless it is interrupted while it waits for the
context to close.

* `contexts`: the protocol that says so of a task alone.
* `System.Reaches.collect_eq`: what a task has asked, told from the state of its protocol.
* `System.contexts_closed_once`: side by side, every context is closed once, by its own session.
-/

namespace Runbook.Launcher

/-- How far a task has come with its context. -/
inductive Stage where
  /-- There is none. -/
  | before
  | created (context : Nat)
  /-- Its page has been used. -/
  | used (context : Nat) (ended : Except Failure Unit)
  /-- It has been asked to close, perhaps after its page was used. -/
  | closed (context : Nat) (ended : Option (Except Failure Unit)) (closing : Except Failure Unit)

namespace Stage

/-- A task that has a context only sets up and uses its page, and then closes it; after that it only
logs. -/
def Allows : Stage → Request → Prop
  | before, .newPage _ | before, .setTimeout _ _ | before, .use _ | before, .closeContext _ => False
  | before, _ => True
  | created c, .newPage c' | created c, .setTimeout c' _ | created c, .use c'
  | created c, .closeContext c' | used c _, .closeContext c' => c' = c
  | closed _ _ _, .log _ => True
  | _, _ => False

/-- How far it has come after a reply. -/
def next : Stage → (q : Request) → q.Reply → Stage
  | before, .newContext _ _, .ok c => created c
  | created c, .use _, r => used c r
  | created c, .closeContext _, r => closed c none r
  | used c ended, .closeContext _, r => closed c (some ended) r
  | stage, _, _ => stage

/-- A task may end without a context, or after it has been asked to close: as the use of its page
did, or with a failure if the page was not used. An interruption takes the place of both. -/
def Ends : Stage → Outcome → Prop
  | before, _ => True
  | closed _ ended closing, outcome =>
    (closing ≠ .error .interrupted ∧ match ended with
      | none => ∃ f, outcome = .error f
      | some r => outcome = r) ∨
    outcome = closing ∧ closing = .error .interrupted
  | _, _ => False

def context? : Stage → Option Nat
  | before => none
  | created c | used c _ | closed c _ _ => some c

/-- What has been asked to close, and how that came out. -/
def closed? : Stage → Option (Nat × Except Failure Unit)
  | closed c _ r => some (c, r)
  | _ => none

/-- How the use of the page has ended. -/
def ended? : Stage → Option (Except Failure Unit)
  | used _ r => some r
  | closed _ ended _ => ended
  | _ => none

end Stage

/-- The protocol of contexts. -/
def contexts : Protocol Stage := ⟨Stage.Allows, Stage.next⟩

/-! ### The work of a task -/

namespace Stage

/-- There is no context. -/
abbrev Idle {α : Type} (stage : Stage) (_ : α) : Prop := stage = .before

theorem follows_guarded {α : Type} {m : StateT Parts Work (Except Failure α)}
    (hm : ∀ parts, (m.run parts).Follows contexts Idle .before) :
    (guarded m).Follows contexts Idle .before := by
  refine Work.follows_guarded trivial rfl fun parts => (hm parts).mono ?_
  rintro _ p rfl
  exact ⟨trivial, rfl⟩

theorem follows_ensureStarted (parts : Parts) :
    (ensureStarted.run parts).Follows contexts Idle .before := by
  simp only [ensureStarted, StateT.run_bind, StateT.run_get, pure_bind]
  cases parts.software with
  | some n => rfl
  | none => exact ⟨trivial, by rintro (f | n) <;> rfl⟩

theorem follows_reachable (parts : Parts) :
    (reachable?.run parts).Follows contexts Idle .before := by
  simp only [reachable?, StateT.run_bind, StateT.run_get, pure_bind]
  cases parts.browser with
  | none => rfl
  | some b => exact ⟨trivial, fun _ => rfl⟩

theorem follows_ensureBrowser (o : Options) (parts : Parts) :
    ((ensureBrowser o).run parts).Follows contexts Idle .before := by
  rw [ensureBrowser, StateT.run_bind]
  refine (follows_reachable parts).bind ?_
  rintro _ ⟨_ | b, parts⟩ rfl
  · dsimp only
    rw [StateT.run_bind]
    refine (follows_ensureStarted parts).bind ?_
    rintro _ ⟨f | n, parts⟩ rfl
    · rfl
    · exact ⟨trivial, by rintro (f | b) <;> rfl⟩
  · rfl

theorem follows_preparePage (o : Options) (c : Nat) :
    (preparePage o c).Follows contexts (fun stage _ => stage = created c) (created c) := by
  refine Work.follows_request_bind_iff.mpr ⟨rfl, ?_⟩
  rintro (f | _)
  · rfl
  · dsimp only
    cases o.timeout with
    | null => rfl
    | _ => exact ⟨rfl, fun _ => rfl⟩

/-- When its use has ended, the context is still to be closed. -/
theorem follows_usePage (o : Options) (c : Nat) :
    (usePage o c).Follows contexts (fun stage outcome =>
      (stage = created c ∧ ∃ f, outcome = .error f) ∨ stage = used c outcome) (created c) := by
  refine (follows_preparePage o c).bind ?_
  rintro _ (f | _) rfl
  · exact .inl ⟨rfl, f, rfl⟩
  · exact ⟨rfl, fun r => .inr rfl⟩

/-- Whether or not the context can be closed, it has been asked to. -/
theorem follows_closeContext (i : Int) {s : Stage} {c : Nat} (h : s.Allows (.closeContext c)) :
    (closeContext i c).Follows contexts (fun stage outcome => ∃ r, stage = closed c s.ended? r ∧
      (outcome = .ok () ∧ r ≠ .error .interrupted ∨ outcome = r ∧ r = .error .interrupted)) s := by
  refine Work.follows_request_bind_iff.mpr ⟨h, fun r => ?_⟩
  have hnext : contexts.next s (.closeContext c) r = closed c s.ended? r := by
    cases s with
    | created c' | used c' => rw [show c = c' from h]; rfl
    | _ => exact h.elim
  rw [hnext]
  refine (Work.follows_onlyLogged (fun _ => trivial) (fun _ _ => rfl) ..).mono ?_
  exact fun _ outcome ⟨hstage, houtcome⟩ => ⟨r, hstage, houtcome⟩

theorem follows_session (o : Options) (i : Int) :
    (session o i).Follows contexts Ends .before := by
  refine (follows_guarded (follows_ensureBrowser o)).bind ?_
  rintro _ (f | browser) rfl
  · trivial
  refine Work.follows_request_bind_iff.mpr ⟨trivial, ?_⟩
  rintro (f | c)
  · trivial
  refine (follows_usePage o c).bind ?_
  rintro stage outcome hstage
  have hallows : stage.Allows (.closeContext c) := by
    obtain ⟨rfl, -⟩ | rfl := hstage <;> rfl
  refine (follows_closeContext i hallows).bind ?_
  rintro _ _ ⟨r, rfl, ⟨rfl, hr⟩ | ⟨rfl, rfl⟩⟩
  · obtain ⟨rfl, hfailed⟩ | rfl := hstage
    · exact .inl ⟨hr, hfailed⟩
    · exact .inl ⟨hr, rfl⟩
  · exact .inr ⟨rfl, rfl⟩

theorem follows_closeParts (parts : Parts) :
    (closeParts parts).Follows contexts Idle .before := by
  have hclose : (closeBrowser parts.browser).Follows contexts Idle .before := by
    cases parts.browser with
    | none => rfl
    | some b => exact ⟨trivial, fun _ => rfl⟩
  refine hclose.bind ?_
  rintro _ (f | _) rfl
  · rfl
  · cases parts.software with
    | none => rfl
    | some n => exact ⟨trivial, fun _ => rfl⟩

theorem follows_shutdown : shutdown.Follows contexts Idle .before := by
  refine follows_guarded fun parts => ?_
  simp only [StateT.run_bind, StateT.run_get, pure_bind, StateT.run_monadLift, bind_assoc]
  refine (follows_closeParts parts).bind ?_
  rintro _ r rfl
  refine (Work.follows_onlyLogged (fun _ => trivial) (fun _ _ => rfl) ..).bind ?_
  rintro _ outcome ⟨rfl, -⟩
  rfl

theorem follows_work (o : Options) (job : Job) : (job.work o).Follows contexts Ends .before := by
  cases job with
  | session i => exact follows_session o i
  | shutdown => exact follows_shutdown.mono (by rintro _ _ rfl; trivial)

end Stage

/-! ### Side by side -/

namespace Stage

variable {s : Stage} {n : Nat} {closing : Except Failure Unit}

theorem context?_of_closed? (h : s.closed? = some (n, closing)) : s.context? = some n := by
  cases s with
  | closed =>
    cases h
    rfl
  | _ => exact absurd h nofun

theorem log_of_closed {q : Request} {r : q.Reply} (h : s.closed? = some (n, closing))
    (hq : s.Allows q) : ∃ record, (⟨q, r⟩ : Answered) = ⟨.log record, ()⟩ := by
  cases s with
  | closed =>
    cases q with
    | log record => exact ⟨record, rfl⟩
    | _ => exact hq.elim
  | _ => exact absurd h nofun

end Stage

namespace System

variable {ι : Type} [DecidableEq ι] {o : Options} {jobs : ι → Job} {s : System ι}
  {past : List (ι × Answered)} {i j : ι} {n : Nat}

/-- Who has asked a context to close. -/
def closers (n : Nat) (past : List (ι × Answered)) : List ι :=
  past.filterMap fun d => if d.2.closedContext?.map Prod.fst = some n then some d.1 else none

/-- What a task was answered about its context can be told from the stage it has come to. -/
theorem Reaches.collect_stage {α : Type} {f : Answered → Option α} {g : Stage → Option α}
    (h : Reaches (start o jobs) past s) (hg : g .before = none)
    (hnext : ∀ stage q r, stage.Allows q →
      (g (stage.next q r)).toList = (f ⟨q, r⟩).toList ++ (g stage).toList) (i : ι) :
    collect i f past = (g (contexts.state .before i past)).toList :=
  h.collect_eq (g := fun stage => (g stage).toList) (fun i => Stage.follows_work o (jobs i))
    (by rw [hg]; rfl) hnext

theorem Reaches.created_eq (h : Reaches (start o jobs) past s) (i : ι) :
    collect i Answered.created? past = (contexts.state .before i past).context?.toList := by
  refine h.collect_stage rfl (fun stage q r hq => ?_) i
  cases stage <;> cases q <;> first | rfl | exact hq.elim | (cases r <;> rfl)

theorem Reaches.used_eq (h : Reaches (start o jobs) past s) (i : ι) :
    collect i Answered.used? past = (contexts.state .before i past).ended?.toList := by
  refine h.collect_stage rfl (fun stage q r hq => ?_) i
  cases stage <;> cases q <;> first | rfl | exact hq.elim | (cases r <;> rfl)

theorem Reaches.closed_eq (h : Reaches (start o jobs) past s) (i : ι) :
    collect i Answered.closedContext? past = (contexts.state .before i past).closed?.toList := by
  refine h.collect_stage rfl (fun stage q r hq => ?_) i
  cases stage with
  | created c | used c =>
    cases q with
    | closeContext c' => exact congrArg (fun n => [(n, r)]) (show c' = c from hq).symm
    | _ => rfl
  | _ => cases q <;> first | rfl | exact hq.elim | (cases r <;> rfl)

/-- No two tasks have created contexts of one number. -/
theorem Reaches.created_unique (h : Reaches (start o jobs) past s)
    (hi : n ∈ collect i Answered.created? past) (hj : n ∈ collect j Answered.created? past) :
    i = j := by
  rw [mem_collect_iff] at hi hj
  obtain ⟨⟨_, a⟩, ha, rfl, han⟩ := hi
  obtain ⟨⟨_, b⟩, hb, rfl, hbn⟩ := hj
  induction h with
  | refl => exact absurd ha List.not_mem_nil
  | @step past s _ q _ r h _ hpossible ih =>
    have hfresh : ∀ d ∈ past, d.2.created? = some n → Answered.created? ⟨q, r⟩ ≠ some n := by
      intro d hd hdn hnew
      cases q with
      | newContext =>
        rcases r with f | m
        · exact absurd hnew nofun
        · obtain rfl : m = n := Option.some.inj hnew
          exact hpossible d hd hdn
      | _ => exact absurd hnew nofun
    rcases List.mem_cons.mp ha with hak | ha' <;> rcases List.mem_cons.mp hb with hbk | hb'
    · exact congrArg Prod.fst (hak.trans hbk.symm)
    · cases hak
      exact absurd han (hfresh _ hb' hbn)
    · cases hbk
      exact absurd hbn (hfresh _ ha' han)
    · exact ih ha' hb'

/-- A context is asked to close by no task but the one that has created it. -/
theorem Reaches.closer_unique {closing : Except Failure Unit} (h : Reaches (start o jobs) past s)
    (hi : n ∈ collect i Answered.created? past)
    (hj : (n, closing) ∈ collect j Answered.closedContext? past) : j = i := by
  refine h.created_unique (n := n) ?_ hi
  rw [h.closed_eq, Option.mem_toList] at hj
  rw [h.created_eq, Option.mem_toList]
  exact Stage.context?_of_closed? hj

/-- Who has asked a context to close: the task that has created it, if it has come so far. -/
theorem Reaches.closers_eq (h : Reaches (start o jobs) past s)
    (hi : n ∈ collect i Answered.created? past) :
    closers n past =
      if (contexts.state .before i past).closed?.map Prod.fst = some n then [i] else [] := by
  have hown : closers n past = (collect i Answered.closedContext? past).filterMap fun c =>
      if c.1 = n then some i else none := by
    rw [closers, collect, List.filterMap_filterMap]
    refine List.filterMap_congr fun d hd => ?_
    cases hclosed : d.2.closedContext? with
    | none => simp
    | some c =>
      by_cases hc : c.1 = n
      · subst hc
        have hdi : d.1 = i := h.closer_unique hi (mem_collect_iff.mpr ⟨d, hd, rfl, hclosed⟩)
        simp [hdi]
      · by_cases hdi : d.1 = i <;> simp [hc, hdi]
  rw [hown, h.closed_eq]
  cases (contexts.state .before i past).closed? with
  | none => rfl
  | some c => by_cases hc : c.1 = n <;> simp [hc]

/-- A task that has asked its context to close only logs. -/
theorem Reaches.logs_of_closed {later earlier : List (ι × Answered)}
    {r : (Request.closeContext n).Reply}
    (h : Reaches (start o jobs) (later ++ (i, ⟨.closeContext n, r⟩) :: earlier) s) :
    ∀ d ∈ later, d.1 = i → ∃ record, d.2 = ⟨.log record, ()⟩ := by
  induction later generalizing s with
  | nil => exact List.forall_mem_nil _
  | cons d later ih =>
    obtain ⟨j, q, r'⟩ := d
    rw [List.cons_append] at h
    obtain ⟨_, _, h₁, -⟩ := h.exists_before
    refine List.forall_mem_cons.mpr ⟨?_, ih h₁⟩
    rintro rfl
    have hallowed := h.allowed fun i => Stage.follows_work o (jobs i)
    have hclosed : (contexts.state .before j
        (later ++ (j, ⟨.closeContext n, r⟩) :: earlier)).closed? = some (n, r) := by
      rw [← Option.mem_toList, ← h₁.closed_eq, mem_collect_iff]
      exact ⟨_, List.mem_append_right _ (.head _), rfl, rfl⟩
    exact Stage.log_of_closed hclosed hallowed

/-- **Every context is asked to close once, by its own session, however that ends.** A session that
has created a context is never kept waiting, and when it has ended, the context was asked to close,
and the session has ended as the use of its page did, unless it was interrupted while it waited for
the context to close. After the context was asked to close, the session only logs. No browser is
launched while there is one that can be reached and was not given up by a shutdown. -/
theorem contexts_closed_once (h : Reaches (start o jobs) past s) :
    (∀ i n, n ∈ collect i Answered.created? past →
      (closers n past = [] ∨ closers n past = [i]) ∧
      (∀ q k, s.tasks i = .ask q k → q ≠ .acquire) ∧
      ∀ outcome, s.tasks i = .done outcome → closers n past = [i] ∧
        ((∀ r ∈ collect i Answered.used? past, outcome = r) ∨
          outcome = .error .interrupted ∧
            (n, .error .interrupted) ∈ collect i Answered.closedContext? past)) ∧
    (∀ later earlier i n r, past = later ++ (i, ⟨.closeContext n, r⟩) :: earlier →
      ∀ d ∈ later, d.1 = i → ∃ record, d.2 = ⟨.log record, ()⟩) ∧
    ∀ later between earlier i j n m headless headless' arguments arguments' r b,
      past = later ++ (j, ⟨.launch m headless' arguments', r⟩) ::
        (between ++ (i, ⟨.launch n headless arguments, .ok b⟩) :: earlier) →
      Dropped jobs b between := by
  refine ⟨fun i n hi => ?_, ?_, ?_⟩
  · have hcontext : (contexts.state .before i past).context? = some n := by
      rw [h.created_eq, Option.mem_toList] at hi
      exact hi
    have hfollows := h.follows (fun i => Stage.follows_work o (jobs i)) i
    rw [h.closers_eq hi, h.used_eq, h.closed_eq]
    generalize contexts.state .before i past = stage at hcontext hfollows
    refine ⟨?_, fun q k htask => ?_, fun outcome hdone => ?_⟩
    · split <;> simp
    · rw [htask] at hfollows
      rintro rfl
      cases stage with
      | before => exact absurd hcontext nofun
      | _ => exact hfollows.1.elim
    · rw [hdone] at hfollows
      cases stage with
      | closed c ended closing =>
        obtain rfl : c = n := Option.some.inj hcontext
        refine ⟨if_pos rfl, ?_⟩
        rcases hfollows with ⟨-, hended⟩ | ⟨rfl, rfl⟩
        · refine .inl fun r hr => ?_
          obtain rfl : ended = some r := Option.mem_toList.mp hr
          exact hended
        · exact .inr ⟨rfl, List.mem_singleton_self _⟩
      | before => exact absurd hcontext nofun
      | _ => exact hfollows.elim
  · rintro later earlier i n r rfl
    exact h.logs_of_closed
  · rintro later between earlier i j n m headless headless' arguments arguments' r b rfl
    exact h.launched_again

/-- Two sessions side by side: the use of one is interrupted and its context cannot be closed, the
other gets no page. -/
theorem contexts_closed_side_by_side : ∃ (past : List (Bool × Answered)) (s : System Bool),
    Reaches (start {} fun i => .session (cond i 1 0)) past s ∧
      s.tasks false = .done (.error .interrupted) ∧
      s.tasks true = .done (.error (.fault (.failure "crashed"))) ∧
      closers 0 past = [false] ∧ closers 1 past = [true] := by
  have h₀ : Reaches (start {} fun i => .session (cond i 1 0)) [] _ := .refl
  have h₁ := h₀.step (i := false) (q := .acquire) (r := some {}) rfl ⟨rfl, rfl⟩
  have h₂ := h₁.step (i := false) (q := .start) (r := .ok 0) rfl
    (by simp [Possible, Answered.started?])
  have h₃ := h₂.step (i := false) (q := .launch _ _ _) (r := .ok 0) rfl
    (by simp [Possible, Answered.launched?])
  have h₄ := h₃.step (i := false) (q := .release _) (r := ()) rfl trivial
  have h₅ := h₄.step (i := false) (q := .newContext _ _) (r := .ok 0) rfl
    (by simp [Possible, Answered.created?])
  have h₆ := h₅.step (i := true) (q := .acquire) (r := some ⟨some 0, some 0⟩) rfl ⟨rfl, rfl⟩
  have h₇ := h₆.step (i := false) (q := .newPage _) (r := .ok ()) rfl trivial
  have h₈ := h₇.step (i := true) (q := .isConnected _) (r := true) rfl trivial
  have h₉ := h₈.step (i := true) (q := .release _) (r := ()) rfl trivial
  have h₁₀ := h₉.step (i := true) (q := .newContext _ _) (r := .ok 1) rfl
    (by simp [Possible, Answered.created?])
  have h₁₁ := h₁₀.step (i := false) (q := .setTimeout _ _) (r := .ok ()) rfl trivial
  have h₁₂ := h₁₁.step (i := true) (q := .newPage _) (r := .error (.fault (.failure "crashed")))
    rfl trivial
  have h₁₃ := h₁₂.step (i := false) (q := .use _) (r := .error .interrupted) rfl trivial
  have h₁₄ := h₁₃.step (i := true) (q := .closeContext _) (r := .ok ()) rfl trivial
  have h₁₅ := h₁₄.step (i := false) (q := .closeContext _) (r := .error (.fault (.failure "gone")))
    rfl trivial
  have h₁₆ := h₁₅.step (i := false) (q := .log _) (r := ()) rfl trivial
  have hclosed := (contexts_closed_once h₁₆).1
  refine ⟨_, _, h₁₆, rfl, rfl, ?_, ?_⟩
  · exact ((hclosed false 0 (.head _)).2.2 _ rfl).1
  · exact ((hclosed true 1 (.head _)).2.2 _ rfl).1

end System

end Runbook.Launcher
