import Runbook.Proofs.Paths
import Runbook.Run.Store

/-!
# While the main task waits

The main task of a schedule has control until it waits or gives way at a call. Meanwhile loop
indices go on, the consumer and the ticker have their turns and alarms go off; but once the two
daemons are over, nothing of this flushes or touches the store any more, and daemons that are over
stay so.

So a program of the main task can be read from one wait to the next. Calls that take no time are
answered at once; around the others, and after a wait, it may find whatever the others can have made
of what it left. What it has assured in this way when it ends, it assures in every schedule.

* `KeepsRecords`: collaborators who keep records in a store.
* `Shared.Drifts`, `Shared.Around`, `Shared.After`: what others leave as it is, around a call and
  when a wait is over.
* `Assures`: a program assures something, whatever others do while it waits.
* `State.Reaches.assured`: and so does the main task of a schedule.
* `State.Reaches.drifts`: what is left as it is once the main task has ended.
-/

namespace Runbook

/-- A call that saves a record or begins to gather events for one. -/
def Call.Meddles : Call → Prop
  | .save _ | .startAggregator _ => True
  | _ => False

namespace Schedule

variable {σ α β : Type}

/-- Collaborators who keep records in a store: it takes a record that they have saved, and no other
call of a program touches it. What becomes of it when progress is written, or when a record cannot
be saved, is left open. -/
structure KeepsRecords (env : Collaborators σ) (store : σ → RunStore) : Prop where
  save (r : RunRecord) (o : σ) : (env.save r o).1 = .ok () →
    (store o).save r = .ok (store (env.save r o).2)
  aloof (c : Call) (s : Shared σ) : (∀ r, c ≠ .save r) →
    store (Shared.answer env c s).2.outside = store s.outside

/-! ### What others leave as it is -/

theorem Daemon.Roused.isActive_eq {d d' : Daemon} (h : d.Roused d') :
    d'.isActive = d.isActive := by
  rcases h with rfl | ⟨hphase, rfl⟩
  · rfl
  · simp [Daemon.isActive, hphase]

/-- A daemon that is over or has been told to stop. -/
def Daemon.Bound (d : Daemon) : Prop := d.isActive = true → d.stopped = true

namespace Shared

/-- The consumer and the ticker are over. -/
structure Still (s : Shared σ) : Prop where
  consumer : s.consumer.isActive = false
  ticker : s.ticker.isActive = false

/-- What others can do: a daemon that is over stays so, and a ticker that has been told to stop is
not set going again; once both are over, nothing is flushed and the store is not touched. -/
structure Drifts (store : σ → RunStore) (s s' : Shared σ) : Prop where
  consumer : s.consumer.isActive = false → s'.consumer.isActive = false
  ticker : s.ticker.isActive = false → s'.ticker.isActive = false
  bound : s.ticker.Bound → s'.ticker.Bound
  flushed : s.Still → s'.flushed = s.flushed
  kept : s.Still → store s'.outside = store s.outside

/-- What a task finds after a wait: what others have made of what it left, and the daemon that it
waited for is over. The ticker goes on for ever unless it has been told to stop. -/
structure After (store : σ → RunStore) (w : Wait) (s s' : Shared σ) : Prop extends
    Drifts store s s' where
  consumed : w = .consumer → s'.consumer.isActive = false
  ticked : w = .ticker → s.ticker.Bound → s'.ticker.isActive = false

/-- What a task finds around a call: what it left, or what others have made of it if the call takes
time. -/
def Around (store : σ → RunStore) (c : Call) (s s' : Shared σ) : Prop :=
  s' = s ∨ c.TakesTime ∧ Drifts store s s'

variable {store : σ → RunStore} {s s₁ s' : Shared σ} {w : Wait}

theorem Drifts.refl (s : Shared σ) : Drifts store s s := ⟨id, id, id, fun _ => rfl, fun _ => rfl⟩

theorem Drifts.still (h : Drifts store s s') (hs : s.Still) : s'.Still :=
  ⟨h.consumer hs.consumer, h.ticker hs.ticker⟩

theorem Drifts.trans (h : Drifts store s s₁) (h' : Drifts store s₁ s') : Drifts store s s' where
  consumer := h'.consumer ∘ h.consumer
  ticker := h'.ticker ∘ h.ticker
  bound := h'.bound ∘ h.bound
  flushed hs := (h'.flushed (h.still hs)).trans (h.flushed hs)
  kept hs := (h'.kept (h.still hs)).trans (h.kept hs)

theorem Around.drifts {c : Call} (h : Around store c s s') : Drifts store s s' := by
  rcases h with rfl | ⟨-, h⟩
  · exact .refl _
  · exact h

theorem Around.eq {c : Call} (h : Around store c s s') (hc : ¬ c.TakesTime) : s' = s :=
  h.resolve_right fun h => hc h.1

/-- A wait that is for no daemon. -/
theorem Drifts.after (h : Drifts store s s') (hconsumer : w ≠ .consumer) (hticker : w ≠ .ticker) :
    After store w s s' :=
  ⟨h, fun hw => absurd hw hconsumer, fun hw => absurd hw hticker⟩

theorem Drifts.trans_after (h : Drifts store s s₁) (h' : After store w s₁ s') :
    After store w s s' :=
  ⟨h.trans h'.toDrifts, h'.consumed, fun hw hs => h'.ticked hw (h.bound hs)⟩

theorem After.trans_drifts (h : After store w s s₁) (h' : Drifts store s₁ s') :
    After store w s s' :=
  ⟨h.toDrifts.trans h', fun hw => h'.consumer (h.consumed hw),
    fun hw hs => h'.ticker (h.ticked hw hs)⟩

/-- A wait that is over at once. -/
theorem after_of_over (h : s.isOver w = true) : After store w s s where
  toDrifts := .refl s
  consumed := by
    rintro rfl
    simpa [isOver] using h
  ticked := by
    rintro rfl -
    simpa [isOver] using h

/-- Something happens that flushes nothing and lets the daemons be. -/
theorem drifts_of_apart (hconsumer : s'.consumer.isActive = s.consumer.isActive)
    (hticker : s'.ticker = s.ticker) (hflushed : s'.flushed = s.flushed)
    (hkept : store s'.outside = store s.outside) : Drifts store s s' where
  consumer h := hconsumer.trans h
  ticker h := by rwa [hticker]
  bound h := by rwa [hticker]
  flushed _ := hflushed
  kept _ := hkept

theorem Alike.drifts (h : s.Alike s') : Drifts store s s' := by
  obtain ⟨-, _, _, _, _, rfl⟩ := h
  exact drifts_of_apart rfl rfl rfl rfl

/-- The ticker is bound when it has been told to stop, and one that is over stays as it is. -/
theorem ticker_stopTicker (s : Shared σ) : (stopTicker s).2.ticker.Bound ∧
    (s.ticker.isActive = false → (stopTicker s).2.ticker = s.ticker) := by
  by_cases hactive : s.ticker.isActive = true
  · refine ⟨?_, fun hover => absurd hactive (by simp [hover])⟩
    by_cases hphase : s.ticker.phase = .waiting
    · simp only [stopTicker, run_get_bind, hactive, hphase, if_true]
      exact fun _ => rfl
    · simp only [stopTicker, run_get_bind, hactive, hphase, if_true, if_false]
      exact fun _ => rfl
  · have hsame : (stopTicker s).2 = s := by
      simp only [stopTicker, run_get_bind, hactive]
      rfl
    rw [hsame]
    exact ⟨fun h => absurd h hactive, fun _ => rfl⟩

theorem drifts_stopTicker (s : Shared σ) : Drifts store s (stopTicker s).2 := by
  obtain ⟨hbound, hover⟩ := ticker_stopTicker s
  obtain ⟨ticker, timers, js, heq, -⟩ := stopTicker_spec s
  refine ⟨?_, fun h => by rw [hover h, h], fun _ => hbound, ?_, ?_⟩ <;> rw [heq]
  · exact id
  · exact fun _ => rfl
  · exact fun _ => rfl

theorem drifts_stopConsumer (s : Shared σ) : Drifts store s (stopConsumer s).2 := by
  obtain ⟨consumer, js, heq, -, hconsumer⟩ := stopConsumer_spec s
  rw [heq]
  refine drifts_of_apart ?_ rfl rfl rfl
  by_cases hactive : s.consumer.isActive = true
  · rw [if_pos hactive] at hconsumer
    exact hconsumer.isActive_eq
  · rw [if_neg hactive] at hconsumer
    rw [hconsumer]

/-- A call that does not meddle flushes nothing, sets nothing going and does not touch the store. -/
theorem drifts_answer {env : Collaborators σ} (hkeeps : KeepsRecords env store) {c : Call}
    (hc : ¬ c.Meddles) (s : Shared σ) : Drifts store s (answer env c s).2 := by
  have hkept : store (answer env c s).2.outside = store s.outside := by
    refine hkeeps.aloof c s ?_
    rintro r rfl
    exact hc trivial
  cases c with
  | emit e =>
    obtain ⟨-, consumer, js, outside, heq, hroused, -⟩ := emit_spec env e s
    have hconsumer := congrArg (·.consumer.isActive) heq
    have hticker := congrArg (·.ticker) heq
    have hflushed := congrArg (·.flushed) heq
    exact drifts_of_apart (hconsumer.trans hroused.isActive_eq) hticker hflushed hkept
  | offerEnd =>
    obtain ⟨-, consumer, js, heq, hroused, -⟩ := offerEnd_spec s
    have hconsumer := congrArg (·.consumer.isActive) heq
    have hticker := congrArg (·.ticker) heq
    have hflushed := congrArg (·.flushed) heq
    exact drifts_of_apart (hconsumer.trans hroused.isActive_eq) hticker hflushed hkept
  | stopConsumer => exact drifts_stopConsumer s
  | stopTicker => exact drifts_stopTicker s
  | save r => exact absurd trivial hc
  | startAggregator r => exact absurd trivial hc
  | _ => exact drifts_of_apart rfl rfl rfl hkept

/-- A task that goes on without meddling does no more. -/
theorem drifts_goesOn {env : Collaborators σ} (hkeeps : KeepsRecords env store) {p : Program α}
    {t : List Deed} {task : Task α} (hgoes : GoesOn env p s t task s')
    (hp : ∀ c reply, .call c reply ∈ t → ¬ c.Meddles) : Drifts store s s' := by
  induction hgoes with
  | call _ ih =>
    exact (drifts_answer hkeeps (hp _ _ List.mem_cons_self) _).trans
      (ih fun c reply hm => hp c reply (List.mem_cons_of_mem _ hm))
  | resume _ _ ih => exact ih fun c reply hm => hp c reply (by simp [hm])
  | after => exact drifts_answer hkeeps (hp _ _ List.mem_cons_self) _
  | _ => exact .refl _

/-- The consumer has turns only before it is over. -/
theorem drifts_consumerTurn (env : Collaborators σ) (hactive : s.consumer.isActive = true) :
    Drifts store s (consumerTurn env s).2 := by
  have hnot : ¬ s.Still := fun hs => by
    have hover := hs.consumer
    rw [hactive] at hover
    cases hover
  obtain ⟨_, _, _, _, _, heq⟩ := consumerTurn_spec env s
  rw [heq]
  exact ⟨fun h => absurd h (by simp [hactive]), id, id, fun hs => absurd hs hnot,
    fun hs => absurd hs hnot⟩

/-- So does the ticker, and it does not forget that it has been told to stop. -/
theorem drifts_tickerTurn (env : Collaborators σ) (hactive : s.ticker.isActive = true) :
    Drifts store s (tickerTurn env s).2 := by
  have hnot : ¬ s.Still := fun hs => by
    have hover := hs.ticker
    rw [hactive] at hover
    cases hover
  obtain ⟨_, _, _, _, heq⟩ := tickerTurn_spec env s
  rw [heq]
  exact ⟨id, fun h => absurd h (by simp [hactive]), fun hbound _ => hbound hactive,
    fun hs => absurd hs hnot, fun hs => absurd hs hnot⟩

end Shared

/-! ### What a program assures -/

/-- A program that has done `t` goes on and comes to its end as `post` says, whatever others do
while it waits and around the calls that take time. -/
def Assures (env : Collaborators σ) (store : σ → RunStore)
    (post : α → List Deed → Shared σ → Prop) : Program α → List Deed → Shared σ → Prop
  | .done a, t, s => post a t s
  | .call c k, t, s => ∀ s₁ s₂, Shared.Around store c s s₁ →
    Shared.Around store c (Shared.answer env c s₁).2 s₂ →
    Assures env store post (k (Shared.answer env c s₁).1)
      (t ++ [.call c (Shared.answer env c s₁).1]) s₂
  | .wait w k, t, s => ∀ s' wake, Shared.After store w s s' →
    Assures env store post (k wake) (t ++ [.wait w, .wake wake]) s'

section Assures

variable {env : Collaborators σ} {store : σ → RunStore} {post : α → List Deed → Shared σ → Prop}
  {p : Program α} {t : List Deed} {s : Shared σ}

theorem Assures.mono {post' : α → List Deed → Shared σ → Prop} (h : Assures env store post p t s)
    (hpost : ∀ a t s, post a t s → post' a t s) : Assures env store post' p t s := by
  induction p generalizing t s with
  | done a => exact hpost a t s h
  | call c k ih => exact fun s₁ s₂ hs₁ hs₂ => ih _ (h s₁ s₂ hs₁ hs₂)
  | wait w k ih => exact fun s' wake hs' => ih wake (h s' wake hs')

/-- A call that takes no time first, and then what depends on the reply. -/
theorem assures_ask_bind {c : Call} {f : c.Reply → Program α} (hc : ¬ c.TakesTime)
    (h : Assures env store post (f (Shared.answer env c s).1)
      (t ++ [.call c (Shared.answer env c s).1]) (Shared.answer env c s).2) :
    Assures env store post (Program.ask c >>= f) t s := by
  intro s₁ s₂ hs₁ hs₂
  obtain rfl := hs₁.eq hc
  obtain rfl := hs₂.eq hc
  exact h

/-- One program after another assures what the second does after the first. -/
theorem Assures.bind {f : α → Program β} {post : β → List Deed → Shared σ → Prop}
    (h : Assures env store (fun a t s => Assures env store post (f a) t s) p t s) :
    Assures env store post (p >>= f) t s := by
  induction p generalizing t s with
  | done a => exact h
  | call c k ih => exact fun s₁ s₂ hs₁ hs₂ => ih _ (h s₁ s₂ hs₁ hs₂)
  | wait w k ih => exact fun s' wake hs' => ih wake (h s' wake hs')

/-- Whatever a program assures, it does what it can do. -/
theorem Assures.ends (h : Assures env store post p t s) : Assures env store
    (fun a t' s' => post a t' s' ∧ ∃ u, t' = t ++ u ∧ p.Ends u a) p t s := by
  induction p generalizing t s with
  | done a => exact ⟨h, [], (List.append_nil t).symm, .refl _⟩
  | call c k ih =>
    intro s₁ s₂ hs₁ hs₂
    refine (ih _ (h s₁ s₂ hs₁ hs₂)).mono ?_
    rintro a _ s' ⟨hpost, u, rfl, hu⟩
    exact ⟨hpost, _, List.append_assoc t [_] u, .call hu⟩
  | wait w k ih =>
    intro s' wake hs'
    refine (ih wake (h s' wake hs')).mono ?_
    rintro a _ s'' ⟨hpost, u, rfl, hu⟩
    exact ⟨hpost, _, List.append_assoc t [_, _] u, .wait hu⟩

/-- Every program assures what is always so. -/
theorem assures_of_forall (h : ∀ a t s, post a t s) (p : Program α) (t : List Deed)
    (s : Shared σ) : Assures env store post p t s := by
  induction p generalizing t s with
  | done a => exact h a t s
  | call c k ih => exact fun s₁ s₂ _ _ => ih _ _ s₂
  | wait w k ih => exact fun s' wake _ => ih wake _ s'

/-- What is assured by all that may follow is assured. -/
theorem assures_bind_of_forall {f : β → Program α} (p : Program β)
    (hf : ∀ b t s, Assures env store post (f b) t s) (t : List Deed) (s : Shared σ) :
    Assures env store post (p >>= f) t s :=
  (assures_of_forall hf p t s).bind

/-- A program that does not meddle does no more than others do. -/
theorem assures_of_only (hkeeps : KeepsRecords env store)
    (hp : p.Only (fun c => ¬ c.Meddles) (fun _ => True)) (t : List Deed) (s : Shared σ) :
    Assures env store (fun _ _ s' => Shared.Drifts store s s') p t s := by
  induction hp generalizing t s with
  | done a => exact .refl s
  | @call c k hc _ ih =>
    intro s₁ s₂ hs₁ hs₂
    have hcall := (hs₁.drifts.trans (Shared.drifts_answer hkeeps hc s₁)).trans hs₂.drifts
    exact (ih _ _ s₂).mono fun _ _ _ hrest => hcall.trans hrest
  | wait _ _ ih =>
    intro s' wake hafter
    exact (ih wake _ s').mono fun _ _ _ hrest => hafter.toDrifts.trans hrest

end Assures

/-! ### Tasks -/

namespace Task

/-- A task that has done `t` goes on as `post` says when its turn comes. One that has ended did so
as `post` says, and others have gone on since. -/
def Assured (env : Collaborators σ) (store : σ → RunStore)
    (post : α → List Deed → Shared σ → Prop) (t : List Deed) (s : Shared σ) : Task α → Prop
  | .fresh p | .paused p => ∀ s', Shared.Drifts store s s' → Assures env store post p t s'
  | .stillborn => True
  | .waiting w k => ∀ s' wake, Shared.After store w s s' →
    Assures env store post (k wake) (t ++ [.wake wake]) s'
  | .woken _ k => ∀ s' wake, Shared.Drifts store s s' →
    Assures env store post (k wake) (t ++ [.wake wake]) s'
  | .ended a => ∃ s₀, post a t s₀ ∧ Shared.Drifts store s₀ s

/-- Others go on, and a task does not; but it may be woken after its wait, or be interrupted. -/
structure Stirs (store : σ → RunStore) (s s' : Shared σ) (task task' : Task α) : Prop where
  drifts : Shared.Drifts store s s'
  task : task' = task ∨ (∃ p, task = .fresh p ∧ task' = .stillborn) ∨
    (∃ w k wake, task = .waiting w k ∧ Shared.After store w s s' ∧ task' = .woken wake k) ∨
    ∃ wake wake' k, task = .woken wake k ∧ task' = .woken wake' k

variable {env : Collaborators σ} {store : σ → RunStore} {post : α → List Deed → Shared σ → Prop}
  {t : List Deed} {s s₁ s' : Shared σ} {task task' : Task α}

theorem stirs_of_drifts (h : Shared.Drifts store s s') : Stirs store s s' task task := ⟨h, .inl rfl⟩

theorem Woken.stirs {allowed : Wait → Wake → Prop} (h : task.Woken allowed task')
    (hdrifts : Shared.Drifts store s s')
    (hall : ∀ w k wake, task = .waiting w k → allowed w wake → Shared.After store w s s') :
    Stirs store s s' task task' := by
  rcases h with rfl | ⟨w, k, wake, rfl, ha, rfl⟩
  · exact stirs_of_drifts hdrifts
  · exact ⟨hdrifts, .inr (.inr (.inl ⟨w, k, wake, rfl, hall w k wake rfl ha, rfl⟩))⟩

/-- A task that waits for no daemon may be interrupted at any time. -/
theorem stirs_interrupted (hdrifts : Shared.Drifts store s s')
    (hwait : ∀ w k, task = .waiting w k → w ≠ .consumer ∧ w ≠ .ticker) :
    Stirs store s s' task task.interrupted := by
  refine ⟨hdrifts, ?_⟩
  cases task with
  | fresh p => exact .inr (.inl ⟨p, rfl, rfl⟩)
  | waiting w k =>
    obtain ⟨hconsumer, hticker⟩ := hwait w k rfl
    exact .inr (.inr (.inl ⟨w, k, .interrupted, rfl, hdrifts.after hconsumer hticker, rfl⟩))
  | woken wake k => exact .inr (.inr (.inr ⟨wake, .interrupted, k, rfl, rfl⟩))
  | _ => exact .inl rfl

/-- What a task assures does not change while others go on. -/
theorem Assured.stirs (h : task.Assured env store post t s) (hs : Stirs store s s' task task') :
    task'.Assured env store post t s' := by
  have hdrifts := hs.drifts
  rcases hs.task with rfl | ⟨p, rfl, rfl⟩ | ⟨w, k, wake, rfl, hafter, rfl⟩ |
    ⟨wake, wake', k, rfl, rfl⟩
  · cases task' with
    | fresh p | paused p => exact fun s'' hs'' => h s'' (hdrifts.trans hs'')
    | stillborn => trivial
    | waiting w k => exact fun s'' wake hs'' => h s'' wake (hdrifts.trans_after hs'')
    | woken wake k => exact fun s'' wake' hs'' => h s'' wake' (hdrifts.trans hs'')
    | ended a =>
      obtain ⟨s₀, hpost, hs₀⟩ := h
      exact ⟨s₀, hpost, hs₀.trans hdrifts⟩
  · trivial
  · exact fun s'' wake' hs'' => h s'' wake' (hafter.trans_drifts hs'')
  · exact fun s'' wake'' hs'' => h s'' wake'' (hdrifts.trans hs'')

/-- A task whose turn it is goes on with what it assures. -/
theorem Assured.turn (h : task.Assured env store post t s) {first : List Deed} {p : Program α}
    (hturn : task.turn? = some (first, p)) : Assures env store post p (t ++ first) s := by
  cases task with
  | fresh q | paused q =>
    cases hturn
    rw [List.append_nil]
    exact h s (.refl s)
  | woken wake k =>
    cases hturn
    exact h s wake (.refl s)
  | _ => cases hturn

/-- A program that goes on leaves a task that assures the same. -/
theorem assured_goesOn {p : Program α} {u : List Deed} (hgoes : GoesOn env p s u task s')
    (h : Assures env store post p t s) : task.Assured env store post (t ++ u) s' := by
  induction hgoes generalizing t with
  | done a s =>
    rw [List.append_nil]
    exact ⟨s, h, .refl s⟩
  | call _ ih =>
    rw [List.append_cons]
    exact ih (h _ _ (.inl rfl) (.inl rfl))
  | resume hw _ ih =>
    rw [List.append_cons, List.append_cons, List.append_assoc t]
    exact ih (h _ .resumed (Shared.after_of_over hw))
  | wait =>
    intro s'' wake hafter
    rw [List.append_assoc]
    exact h s'' wake hafter
  | before hc =>
    rw [List.append_nil]
    intro s'' hdrifts s₁ s₂ hs₁ hs₂
    exact h s₁ s₂ (.inr ⟨hc, hdrifts.trans hs₁.drifts⟩) hs₂
  | after hc => exact fun s'' hdrifts => h _ s'' (.inl rfl) (.inr ⟨hc, hdrifts⟩)

end Task

/-! ### Schedules -/

namespace State

/-- No loop index saves a record or begins to gather events. -/
def LoopsAloof (h : List Happening) : Prop :=
  ∀ i c reply, .call c reply ∈ deedsOf (some i) h → ¬ c.Meddles

theorem LoopsAloof.of_append {h h' : List Happening} (ha : LoopsAloof (h ++ h')) :
    LoopsAloof h ∧ LoopsAloof h' := by
  constructor <;> intro i c reply hm <;> refine ha i c reply ?_ <;> rw [deedsOf_append]
  · exact List.mem_append_left _ hm
  · exact List.mem_append_right _ hm

variable {env : Collaborators σ} {store : σ → RunStore} {program : Nat → Program (Option Failure)}
  {post : α → List Deed → Shared σ → Prop} {s s' : State σ α} {j : Job} {h : List Happening}

/-- What a loop index does in its turn. -/
private theorem drifts_turn (hkeeps : KeepsRecords env store) {i : Nat} {first t : List Deed}
    {p : Program (Option Failure)} {task : Task (Option Failure)} {sh : Shared σ}
    (hgoes : GoesOn env p s.shared t task sh)
    (hloops : LoopsAloof ((first ++ t).map (.deed (some i)))) : Shared.Drifts store s.shared sh :=
  Shared.drifts_goesOn hkeeps hgoes fun c reply hm => hloops i c reply (by simp [hm])

/-- A move is a turn of the main task, or others go on; they do not flush once the daemons are
over. -/
theorem Move.turn_or_stirs (hkeeps : KeepsRecords env store) (hm : Move env program s j h s')
    (hloops : LoopsAloof h) :
    (∃ first p t task sh, s.main.turn? = some (first, p) ∧ GoesOn env p s.shared t task sh ∧
      deedsOf none h = first ++ t ∧ Task.Stirs store sh s'.shared task s'.main) ∨
    deedsOf none h = [] ∧ Task.Stirs store s.shared s'.shared s.main s'.main ∧
      (s.shared.Still → .flush ∉ h) := by
  cases hm with
  | main hturn hgoes hno htask hsh =>
    refine .inl ⟨_, _, _, _, _, hturn, hgoes, by simp, htask.stirs hsh.drifts ?_⟩
    rintro w k wake - ⟨⟨ms, rfl⟩, -⟩
    exact hsh.drifts.after (by simp) (by simp)
  | @start _ _ _ _ _ sh _ hturn hgoes hsh =>
    have hnone : Shared.Drifts store sh { sh with outcomes := [] } :=
      Shared.drifts_of_apart rfl rfl rfl rfl
    exact .inl ⟨_, _, _, _, _, hturn, hgoes, by simp,
      Task.stirs_of_drifts (hnone.trans hsh.drifts)⟩
  | loop hloop hturn hgoes hend htask hsh =>
    exact .inr ⟨by simp, Task.stirs_of_drifts ((drifts_turn hkeeps hgoes hloops).trans hsh.drifts),
      by simp⟩
  | @loopEnds i _ _ _ _ o sh _ hloop hturn hgoes hsh =>
    have hended : Shared.Drifts store sh { sh with
        outcomes := sh.outcomes ++ [(i, o)], next := sh.next ++ [.loopEnded] } :=
      Shared.drifts_of_apart rfl rfl rfl rfl
    exact .inr ⟨by simp, Task.stirs_of_drifts
      ((drifts_turn hkeeps hgoes hloops).trans (hended.trans hsh.drifts)), by simp⟩
  | stored hmain =>
    have hafter : Shared.After store .store s.shared s.shared :=
      (Shared.Drifts.refl _).after (by simp) (by simp)
    exact .inr ⟨rfl, ⟨.refl _, .inr (.inr (.inl ⟨_, _, _, hmain, hafter, rfl⟩))⟩, by simp⟩
  | @stillborn i _ hloop hsh =>
    have hended : Shared.Drifts store s.shared { s.shared with
        outcomes := s.shared.outcomes ++ [(i, some .interrupted)]
        next := s.shared.next ++ [.loopEnded] } :=
      Shared.drifts_of_apart rfl rfl rfl rfl
    exact .inr ⟨rfl, Task.stirs_of_drifts (hended.trans hsh.drifts), by simp⟩
  | skip => exact .inr ⟨rfl, Task.stirs_of_drifts (.refl _), by simp⟩
  | idle => exact .inr ⟨rfl, Task.stirs_of_drifts (.refl _), by simp⟩
  | note hjoined hmain hsh =>
    refine .inr ⟨rfl, hmain.stirs hsh.drifts ?_, by simp⟩
    rintro w k wake - ⟨⟨n, rfl⟩, -⟩
    exact hsh.drifts.after (by simp) (by simp)
  | consumer hactive hmain hsh =>
    have hturn : Shared.Drifts store s.shared (Shared.consumerTurn env s.shared).2 :=
      Shared.drifts_consumerTurn env hactive
    have hdrifts := hturn.trans hsh.drifts
    refine .inr ⟨by simp, hmain.stirs hdrifts ?_, fun hstill => ?_⟩
    · rintro w k wake - (⟨rfl, -⟩ | ⟨rfl, hended, -⟩)
      · exact hdrifts.after (by simp) (by simp)
      · exact ⟨hdrifts, fun _ => by simp [Daemon.isActive, hended], by simp⟩
    · rw [hstill.consumer] at hactive
      cases hactive
  | ticker hactive hmain hsh =>
    have hturn : Shared.Drifts store s.shared (Shared.tickerTurn env s.shared).2 :=
      Shared.drifts_tickerTurn env hactive
    have hrest : Shared.Drifts store (Shared.tickerTurn env s.shared).2 _ := hsh.drifts
    have hdrifts := hturn.trans hrest
    refine .inr ⟨by simp, hmain.stirs hdrifts ?_, fun hstill => ?_⟩
    -- Whoever waits for the ticker has told it to stop, and so this was its last turn.
    · rintro w k wake - ⟨rfl, -⟩
      refine ⟨hdrifts, by simp, fun _ hbound => hrest.ticker ?_⟩
      rw [Shared.tickerTurn_of_stopped env (hbound hactive)]
      rfl
    · rw [hstill.ticker] at hactive
      cases hactive
  | wakeMain hmain hsh =>
    refine .inr ⟨rfl, hmain.stirs hsh.drifts ?_, by simp⟩
    rintro w k wake - ⟨⟨ms, rfl⟩, -⟩
    exact hsh.drifts.after (by simp) (by simp)
  | wakeLoop hloop hsh => exact .inr ⟨rfl, Task.stirs_of_drifts hsh.drifts, by simp⟩
  | @tick phase _ hphase hsh =>
    -- The ticker is roused at most, and it does not forget that it has been told to stop.
    have hactive :
        ({ s.shared.ticker with phase } : Daemon).isActive = s.shared.ticker.isActive := by
      rcases hphase with rfl | ⟨hwaiting, rfl⟩
      · rfl
      · simp [Daemon.isActive, hwaiting]
    have htick : Shared.Drifts store s.shared
        { s.shared with ticker := { s.shared.ticker with phase } } :=
      ⟨id, hactive.trans, fun hbound h => hbound (hactive ▸ h), fun _ => rfl, fun _ => rfl⟩
    exact .inr ⟨rfl, Task.stirs_of_drifts (htick.trans hsh.drifts), by simp⟩
  | timeout reason =>
    exact .inr ⟨rfl, Task.stirs_of_drifts (Shared.drifts_of_apart rfl rfl rfl rfl), by simp⟩
  | cancel reason =>
    exact .inr ⟨rfl, Task.stirs_of_drifts (Shared.drifts_of_apart rfl rfl rfl rfl), by simp⟩
  | interrupt hmain hsh =>
    refine .inr ⟨rfl, Task.stirs_interrupted hsh.drifts fun w k hwaiting => ?_, by simp⟩
    rcases hmain w k hwaiting with ⟨ms, rfl⟩ | rfl | rfl <;> simp
  | interruptConsumer =>
    exact .inr ⟨rfl, Task.stirs_of_drifts (Shared.drifts_stopConsumer _), by simp⟩
  | interruptTicker =>
    exact .inr ⟨rfl, Task.stirs_of_drifts (Shared.drifts_stopTicker _), by simp⟩
  | interruptLoops hmain hsh =>
    exact .inr ⟨rfl, Task.stirs_of_drifts hsh.drifts, by simp⟩

/-- **What a program assures, it assures in every schedule** in which loop indices do not meddle. -/
theorem Reaches.assured (hkeeps : KeepsRecords env store) {p : Program α} {shared : Shared σ}
    (hp : ∀ s, Assures env store post p [] s)
    (hs : Reaches env program (start shared p) h s) (hloops : LoopsAloof h) :
    s.main.Assured env store post (deedsOf none h) s.shared := by
  refine hs.induction (P := fun h s => LoopsAloof h →
    s.main.Assured env store post (deedsOf none h) s.shared) (distinct_start _ _) ?_ ?_ ?_ hloops
  · exact fun _ s' _ => hp s'
  · intro h s clock timers current next hassured hloops
    exact (hassured hloops).stirs (Task.stirs_of_drifts (Shared.drifts_of_apart rfl rfl rfl rfl))
  · intro h s j h₁ s₁ hassured hm hloops
    obtain ⟨hloops, hloops₁⟩ := hloops.of_append
    have hnow := hassured hloops
    rw [deedsOf_append]
    rcases hm.turn_or_stirs hkeeps hloops₁ with ⟨_, _, _, _, _, hturn, hgoes, hdeeds, hstirs⟩ |
      ⟨hnone, hstirs, -⟩
    · rw [hdeeds, ← List.append_assoc]
      exact (Task.assured_goesOn hgoes (hnow.turn hturn)).stirs hstirs
    · rw [hnone, List.append_nil]
      exact hnow.stirs hstirs

/-- **Once the main task has ended, others only drift on**, and once the daemons are over they do
not flush. -/
theorem Reaches.drifts (hkeeps : KeepsRecords env store) {a : α} (hs : Reaches env program s h s')
    (hd : s.Distinct) (hended : s.main = .ended a) (hloops : LoopsAloof h) :
    s'.main = .ended a ∧ deedsOf none h = [] ∧ Shared.Drifts store s.shared s'.shared ∧
      (s.shared.Still → .flush ∉ h) := by
  refine hs.induction (P := fun h s' => LoopsAloof h → s'.main = .ended a ∧ deedsOf none h = [] ∧
    Shared.Drifts store s.shared s'.shared ∧ (s.shared.Still → .flush ∉ h)) hd ?_ ?_ ?_ hloops
  · exact fun _ => ⟨hended, rfl, .refl _, fun _ => List.not_mem_nil⟩
  · intro h s' clock timers current next hp hloops
    obtain ⟨hmain, hdeeds, hdrifts, hflush⟩ := hp hloops
    exact ⟨hmain, hdeeds, hdrifts.trans (Shared.drifts_of_apart rfl rfl rfl rfl), hflush⟩
  · intro h s' j h₁ s₁ hp hm hloops
    obtain ⟨hloops, hloops₁⟩ := hloops.of_append
    obtain ⟨hmain, hdeeds, hdrifts, hflush⟩ := hp hloops
    rcases hm.turn_or_stirs hkeeps hloops₁ with ⟨_, _, _, _, _, hturn, -⟩ |
      ⟨hnone, hstirs, hflush₁⟩
    · rw [hmain] at hturn
      cases hturn
    · refine ⟨?_, by simp [hdeeds, hnone], hdrifts.trans hstirs.drifts, fun hstill => ?_⟩
      · rw [hmain] at hstirs
        rcases hstirs.task with htask | ⟨_, htask, -⟩ | ⟨_, _, _, htask, -⟩ | ⟨_, _, _, htask, -⟩
        · exact htask
        all_goals cases htask
      · rw [List.mem_append, not_or]
        exact ⟨hflush hstill, hflush₁ (hdrifts.still hstill)⟩

end State

end Schedule

end Runbook
