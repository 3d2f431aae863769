import Runbook.Schedule.Shared

/-!
# What calls and daemons do

Most calls only read what the tasks share, or let a collaborator act. The others, and the turns of
the consumer and of the ticker, are described here by what they leave: a daemon that waits may be
woken on the way, jobs become ready and collaborators act, but no end of a loop index is noted.

* `Shared.emit_spec`, `Shared.offerEnd_spec`, `Shared.stopConsumer_spec`, `Shared.stopTicker_spec`:
  the calls about events.
* `Shared.consumerTurn_spec`, `Shared.tickerTurn_spec`: the turns of the daemons.
-/

namespace Runbook.Schedule

variable {σ : Type}

theorem run_bind {ρ β γ : Type} (m : StateM ρ β) (f : β → StateM ρ γ) (s : ρ) :
    (m >>= f) s = f (m s).1 (m s).2 := rfl

theorem run_get_bind {ρ γ : Type} (f : ρ → StateM ρ γ) (s : ρ) : (get >>= f) s = f s s := rfl

theorem run_set_bind {ρ γ : Type} (s' : ρ) (f : PUnit → StateM ρ γ) (s : ρ) :
    (set s' >>= f) s = f ⟨⟩ s' := rfl

theorem Shared.run_outsideDo_bind {β γ : Type} (m : StateM σ β) (f : β → StateM (Shared σ) γ)
    (s : Shared σ) :
    (outsideDo m >>= f) s = f (m s.outside).1 { s with outside := (m s.outside).2 } := rfl

/-- A daemon that waits is woken, or it stays as it is. -/
def Daemon.Roused (d d' : Daemon) : Prop :=
  d' = d ∨ d.phase = .waiting ∧ d' = { d with phase := .woken }

/-- How often the end of a loop index is still to be noted. -/
def Shared.ends (s : Shared σ) : Nat := (s.current ++ s.next).count .loopEnded

namespace Shared

@[simp]
theorem ends_append_next (s : Shared σ) (js : List Job) :
    ({ s with next := s.next ++ js } : Shared σ).ends = s.ends + js.count .loopEnded := by
  simp only [ends, List.count_append]
  omega

/-! ### Calls about events -/

theorem wakeConsumer_spec (s : Shared σ) :
    ∃ consumer js, (wakeConsumer s).2 = { s with consumer, next := s.next ++ js } ∧
      s.consumer.Roused consumer ∧ js.count .loopEnded = 0 := by
  by_cases hphase : s.consumer.phase = .waiting
  · refine ⟨{ s.consumer with phase := .woken }, [.consumer], ?_, .inr ⟨hphase, rfl⟩, rfl⟩
    simp only [wakeConsumer, run_get_bind, hphase, if_true]
    rfl
  · refine ⟨s.consumer, [], ?_, .inl rfl, rfl⟩
    simp only [wakeConsumer, run_get_bind, hphase, if_false, List.append_nil]
    rfl

/-- An event is offered to the queue; a warning may be logged. -/
theorem emit_spec (env : Collaborators σ) (e : RunEvent) (s : Shared σ) :
    (emit env e s).1 = (s.pipeline.emit e).2.1 ∧
    ∃ consumer js outside, (emit env e s).2 = { s with
        pipeline := (s.pipeline.emit e).1, consumer, next := s.next ++ js, outside } ∧
      s.consumer.Roused consumer ∧ js.count .loopEnded = 0 := by
  rcases hemit : s.pipeline.emit e with ⟨pipeline, taken, warning⟩
  let warned : Shared σ :=
    { s with
      pipeline
      outside := match warning with
        | some r => (env.log r s.outside).2
        | none => s.outside }
  have hemit : emit env e s = (taken, if taken then (wakeConsumer warned).2 else warned) := by
    simp only [emit, run_get_bind, hemit]
    cases warning <;> cases taken <;> rfl
  rw [hemit]
  refine ⟨rfl, ?_⟩
  cases taken with
  | true =>
    obtain ⟨consumer, js, heq, hroused, hjs⟩ := wakeConsumer_spec warned
    exact ⟨consumer, js, _, heq, hroused, hjs⟩
  | false => exact ⟨s.consumer, [], warned.outside, by simp [warned], .inl rfl, rfl⟩

/-- To the world outside, an event that is offered is a warning in the log or nothing. -/
theorem outside_emit (env : Collaborators σ) (e : RunEvent) (s : Shared σ) :
    (emit env e s).2.outside = s.outside ∨
      ∃ r, (emit env e s).2.outside = (env.log r s.outside).2 := by
  have hwake (s : Shared σ) : (wakeConsumer s).2.outside = s.outside := by
    obtain ⟨consumer, js, heq, -⟩ := wakeConsumer_spec s
    rw [heq]
  rcases hemit : s.pipeline.emit e with ⟨pipeline, taken, _ | r⟩
  · refine .inl ?_
    cases taken <;> simp only [emit, run_get_bind, hemit]
    · rfl
    · exact hwake _
  · refine .inr ⟨r, ?_⟩
    cases taken <;> simp only [emit, run_get_bind, hemit]
    · rfl
    · exact hwake _

/-- The end mark is offered to the queue. -/
theorem offerEnd_spec (s : Shared σ) :
    (offerEnd s).1 = s.pipeline.offerEnd.2 ∧
    ∃ consumer js, (offerEnd s).2 = { s with
        pipeline := s.pipeline.offerEnd.1, consumer, next := s.next ++ js } ∧
      s.consumer.Roused consumer ∧ js.count .loopEnded = 0 := by
  rcases hoffer : s.pipeline.offerEnd with ⟨pipeline, taken⟩
  have heq : offerEnd s =
      (taken, if taken then (wakeConsumer { s with pipeline }).2 else { s with pipeline }) := by
    simp only [offerEnd, run_get_bind, hoffer]
    cases taken <;> rfl
  rw [heq]
  refine ⟨rfl, ?_⟩
  cases taken with
  | true => exact wakeConsumer_spec { s with pipeline }
  | false => exact ⟨s.consumer, [], by simp, .inl rfl, rfl⟩

/-- The consumer is told to stop, if it may still do something. -/
theorem stopConsumer_spec (s : Shared σ) :
    ∃ consumer js, (stopConsumer s).2 = { s with consumer, next := s.next ++ js } ∧
      js.count .loopEnded = 0 ∧
      if s.consumer.isActive then ({ s.consumer with stopped := true } : Daemon).Roused consumer
      else consumer = s.consumer := by
  by_cases hactive : s.consumer.isActive = true
  · obtain ⟨consumer, js, heq, hroused, hjs⟩ :=
      wakeConsumer_spec { s with consumer := { s.consumer with stopped := true } }
    refine ⟨consumer, js, ?_, hjs, by simpa [hactive] using hroused⟩
    rw [← heq]
    simp only [stopConsumer, run_get_bind, hactive, if_true]
    rfl
  · refine ⟨s.consumer, [], ?_, rfl, by simp [hactive]⟩
    simp only [stopConsumer, run_get_bind, hactive, List.append_nil]
    rfl

/-- The ticker is told to stop, and nothing else changes but timers and jobs. -/
theorem stopTicker_spec (s : Shared σ) :
    ∃ ticker timers js, (stopTicker s).2 = { s with ticker, timers, next := s.next ++ js } ∧
      js.count .loopEnded = 0 := by
  by_cases hactive : s.ticker.isActive = true
  · by_cases hphase : s.ticker.phase = .waiting
    · refine ⟨{ s.ticker with stopped := true, phase := .woken },
        s.timers.filter fun t => !decide (t.2 = .tick), [.ticker], ?_, rfl⟩
      simp only [stopTicker, run_get_bind, hactive, hphase, if_true]
      rfl
    · refine ⟨{ s.ticker with stopped := true }, s.timers, [], ?_, rfl⟩
      simp only [stopTicker, run_get_bind, hactive, hphase, if_true, if_false, List.append_nil]
      rfl
  · refine ⟨s.ticker, s.timers, [], ?_, rfl⟩
    simp only [stopTicker, run_get_bind, hactive, List.append_nil]
    rfl

/-- Gathering begins with what the record of a run holds, and the daemons are started. -/
theorem startAggregator_spec (r : RunRecord) (s : Shared σ) :
    (startAggregator r s).2 = { s with
      runId := r.id, gathered := ⟨r.logs, r.outputFiles⟩, flushed := r.snapshot
      consumer := { phase := .fresh }, ticker := { phase := .fresh }
      next := s.next ++ [.consumer] ++ [.ticker] } :=
  rfl

/-! ### Turns of the daemons -/

/-- A flush writes down what has been gathered, and how many events were dropped. -/
theorem flush_spec (env : Collaborators σ) (s : Shared σ) :
    ∃ outside, (flush env s).2 = { s with
      flushed := s.gathered.snapshot s.pipeline.dropped, outside } := by
  rw [flush, run_get_bind, run_set_bind, run_outsideDo_bind]
  cases (env.progress s.runId (s.gathered.snapshot s.pipeline.dropped) s.clock s.outside).1 with
  | ok => exact ⟨_, rfl⟩
  | error f => exact ⟨_, rfl⟩

private theorem consumerTurn_eq (env : Collaborators σ) (s : Shared σ) :
    (consumerTurn env s).2 =
      if s.consumer.stopped && s.consumer.phase = .fresh then (setConsumer .ended s).2
      else if s.pipeline.marked || s.consumer.stopped then
        (setConsumer .ended (flush env (gatherAll s).2).2).2
      else (setConsumer .waiting (gatherAll s).2).2 := by
  have hturn : (consumerTurn env s).2 = ((if s.consumer.stopped && s.consumer.phase = .fresh then
      setConsumer .ended
      else do
        let marked ← gatherAll
        if marked || s.consumer.stopped then
          flush env
          setConsumer .ended
        else setConsumer .waiting : StateM (Shared σ) Unit) s).2 := rfl
  rw [hturn]
  by_cases hunborn : (s.consumer.stopped && decide (s.consumer.phase = .fresh)) = true
  · rw [if_pos hunborn, if_pos hunborn]
  · rw [if_neg hunborn, if_neg hunborn, run_bind]
    change ((if s.pipeline.marked || s.consumer.stopped then _ else _ :
      StateM (Shared σ) Unit) _).2 = _
    by_cases hends : (s.pipeline.marked || s.consumer.stopped) = true
    · rw [if_pos hends, if_pos hends]
      rfl
    · rw [if_neg hends, if_neg hends]

/-- Told to stop before it ever had control, the consumer ends and does nothing. -/
theorem consumerTurn_of_unborn (env : Collaborators σ) {s : Shared σ}
    (hstopped : s.consumer.stopped = true) (hfresh : s.consumer.phase = .fresh) :
    (consumerTurn env s).2 = { s with consumer := { s.consumer with phase := .ended } } := by
  rw [consumerTurn_eq, if_pos (by simp [hstopped, hfresh])]
  rfl

/-- The consumer gathers what is in the queue, and ends with a flush when it finds the end mark or
has been told to stop. -/
theorem consumerTurn_of_ending (env : Collaborators σ) {s : Shared σ}
    (hborn : ¬ (s.consumer.stopped = true ∧ s.consumer.phase = .fresh))
    (hends : s.pipeline.marked = true ∨ s.consumer.stopped = true) :
    ∃ outside, (consumerTurn env s).2 = { s with
      pipeline := s.pipeline.drain.1
      gathered := s.gathered.gather s.pipeline.queue
      flushed := (s.gathered.gather s.pipeline.queue).snapshot s.pipeline.dropped
      consumer := { s.consumer with phase := .ended }
      outside } := by
  obtain ⟨outside, hflush⟩ := flush_spec env (gatherAll s).2
  refine ⟨outside, ?_⟩
  rw [consumerTurn_eq, if_neg (by simpa using hborn), if_pos (by simpa using hends), hflush]
  rfl

/-- To the world outside, the end of the consumer is a flush. -/
theorem outside_consumerTurn_of_ending (env : Collaborators σ) {s : Shared σ}
    (hborn : ¬ (s.consumer.stopped = true ∧ s.consumer.phase = .fresh))
    (hends : s.pipeline.marked = true ∨ s.consumer.stopped = true) :
    (consumerTurn env s).2.outside = (flush env (gatherAll s).2).2.outside := by
  rw [consumerTurn_eq, if_neg (by simpa using hborn), if_pos (by simpa using hends)]
  rfl

/-- The consumer gathers what is in the queue and waits for more. -/
theorem consumerTurn_of_waiting (env : Collaborators σ) {s : Shared σ}
    (hmarked : s.pipeline.marked = false) (hstopped : s.consumer.stopped = false) :
    (consumerTurn env s).2 = { s with
      pipeline := s.pipeline.drain.1
      gathered := s.gathered.gather s.pipeline.queue
      consumer := { s.consumer with phase := .waiting } } := by
  rw [consumerTurn_eq, if_neg (by simp [hstopped]), if_neg (by simp [hmarked, hstopped])]
  rfl

/-- Told to stop, the ticker ends. -/
theorem tickerTurn_of_stopped (env : Collaborators σ) {s : Shared σ}
    (hstopped : s.ticker.stopped = true) :
    (tickerTurn env s).2 = { s with ticker := { s.ticker with phase := .ended } } := by
  have hturn : (tickerTurn env s).2 = (setTicker .ended s).2 := by
    simp only [tickerTurn, run_get_bind, hstopped, if_true]
  exact hturn

/-- The ticker flushes if it has waited, and waits for its next turn. -/
theorem tickerTurn_of_going (env : Collaborators σ) {s : Shared σ}
    (hstopped : s.ticker.stopped = false) :
    ∃ timers outside, (tickerTurn env s).2 = { s with
      flushed := if s.ticker.phase = .woken then s.gathered.snapshot s.pipeline.dropped
        else s.flushed
      timers, ticker := { s.ticker with phase := .waiting }, outside } := by
  obtain ⟨outside, hflush⟩ := flush_spec env s
  by_cases hwoken : s.ticker.phase = .woken
  · have hturn : (tickerTurn env s).2 =
        (setTicker .waiting (arm s.flushEvery .tick (flush env s).2).2).2 := by
      simp only [tickerTurn, run_get_bind, hstopped, hwoken, if_true]
      rfl
    refine ⟨insertTimer (s.clock + s.flushEvery) .tick s.timers, outside, ?_⟩
    rw [hturn, hflush, if_pos hwoken]
    rfl
  · have hturn : (tickerTurn env s).2 = (setTicker .waiting (arm s.flushEvery .tick s).2).2 := by
      simp only [tickerTurn, run_get_bind, hstopped, hwoken, if_false]
      rfl
    refine ⟨insertTimer (s.clock + s.flushEvery) .tick s.timers, s.outside, ?_⟩
    rw [hturn, if_neg hwoken]
    rfl

/-- To the world outside, a turn of the ticker is a flush if it has waited, and else nothing. -/
theorem outside_tickerTurn_of_going (env : Collaborators σ) {s : Shared σ}
    (hstopped : s.ticker.stopped = false) :
    (tickerTurn env s).2.outside =
      if s.ticker.phase = .woken then (flush env s).2.outside else s.outside := by
  by_cases hwoken : s.ticker.phase = .woken
  · simp only [tickerTurn, run_get_bind, hstopped, hwoken, if_true]
    rfl
  · simp only [tickerTurn, run_get_bind, hstopped, hwoken, if_false]
    rfl

/-- All that a turn of the consumer changes. -/
theorem consumerTurn_spec (env : Collaborators σ) (s : Shared σ) :
    ∃ pipeline gathered flushed phase outside, (consumerTurn env s).2 = { s with
      pipeline, gathered, flushed, consumer := { s.consumer with phase }, outside } := by
  by_cases hunborn : s.consumer.stopped = true ∧ s.consumer.phase = .fresh
  · rw [consumerTurn_of_unborn env hunborn.1 hunborn.2]
    exact ⟨_, _, _, _, _, rfl⟩
  · by_cases hends : s.pipeline.marked = true ∨ s.consumer.stopped = true
    · obtain ⟨outside, heq⟩ := consumerTurn_of_ending env hunborn hends
      rw [heq]
      exact ⟨_, _, _, _, _, rfl⟩
    · rw [not_or, Bool.not_eq_true, Bool.not_eq_true] at hends
      rw [consumerTurn_of_waiting env hends.1 hends.2]
      exact ⟨_, _, _, _, _, rfl⟩

/-- All that a turn of the ticker changes. -/
theorem tickerTurn_spec (env : Collaborators σ) (s : Shared σ) :
    ∃ flushed timers phase outside, (tickerTurn env s).2 = { s with
      flushed, timers, ticker := { s.ticker with phase }, outside } := by
  cases hstopped : s.ticker.stopped with
  | true =>
    rw [tickerTurn_of_stopped env hstopped]
    exact ⟨_, _, _, _, rfl⟩
  | false =>
    obtain ⟨timers, outside, heq⟩ := tickerTurn_of_going env hstopped
    exact ⟨_, _, _, _, heq⟩

/-! ### No end of a loop index is noted -/

theorem ends_answer (env : Collaborators σ) (c : Call) (s : Shared σ) :
    (answer env c s).2.ends = s.ends := by
  have hmore {s' : Shared σ} {js : List Job} (hcurrent : s'.current = s.current)
      (hnext : s'.next = s.next ++ js) (hjs : js.count .loopEnded = 0) : s'.ends = s.ends := by
    simp only [ends, hcurrent, hnext, List.count_append, hjs]
    omega
  cases c with
  | emit e =>
    obtain ⟨-, consumer, js, outside, heq, -, hjs⟩ := emit_spec env e s
    have hcurrent := congrArg current heq
    have hnext := congrArg next heq
    exact hmore hcurrent hnext hjs
  | offerEnd =>
    obtain ⟨-, consumer, js, heq, -, hjs⟩ := offerEnd_spec s
    have hcurrent := congrArg current heq
    have hnext := congrArg next heq
    exact hmore hcurrent hnext hjs
  | startAggregator r =>
    have hnext := congrArg next (startAggregator_spec r s)
    rw [List.append_assoc] at hnext
    have hcurrent := congrArg current (startAggregator_spec r s)
    exact hmore hcurrent hnext rfl
  | stopConsumer =>
    obtain ⟨consumer, js, heq, hjs, -⟩ := stopConsumer_spec s
    have hcurrent := congrArg current heq
    have hnext := congrArg next heq
    exact hmore hcurrent hnext hjs
  | stopTicker =>
    obtain ⟨ticker, timers, js, heq, hjs⟩ := stopTicker_spec s
    have hcurrent := congrArg current heq
    have hnext := congrArg next heq
    exact hmore hcurrent hnext hjs
  | disarmTimeout =>
    change List.count _ (List.filter _ s.current ++ s.next) = List.count _ (s.current ++ s.next)
    rw [List.count_append, List.count_append, List.count_filter rfl]
  | _ => rfl

theorem ends_consumerTurn (env : Collaborators σ) (s : Shared σ) :
    (consumerTurn env s).2.ends = s.ends := by
  obtain ⟨_, _, _, _, _, heq⟩ := consumerTurn_spec env s
  rw [heq]
  rfl

theorem ends_tickerTurn (env : Collaborators σ) (s : Shared σ) :
    (tickerTurn env s).2.ends = s.ends := by
  obtain ⟨_, _, _, _, heq⟩ := tickerTurn_spec env s
  rw [heq]
  rfl

/-! ### What is left alone -/

/-- No call changes what is known of the ends of loop indices, and only the one that asks to stop
changes the request to stop. -/
theorem answer_leaves (env : Collaborators σ) (c : Call) (s : Shared σ) :
    (answer env c s).2.outcomes = s.outcomes ∧
      ((∀ reason timedOut, c ≠ .cancel reason timedOut) →
        (answer env c s).2.cancellation = s.cancellation) := by
  cases c with
  | emit e =>
    obtain ⟨-, consumer, js, outside, heq, -⟩ := emit_spec env e s
    have hout := congrArg outcomes heq
    have hcancel := congrArg cancellation heq
    exact ⟨hout, fun _ => hcancel⟩
  | offerEnd =>
    obtain ⟨-, consumer, js, heq, -⟩ := offerEnd_spec s
    have hout := congrArg outcomes heq
    have hcancel := congrArg cancellation heq
    exact ⟨hout, fun _ => hcancel⟩
  | stopConsumer =>
    obtain ⟨consumer, js, heq, -⟩ := stopConsumer_spec s
    have hout := congrArg outcomes heq
    have hcancel := congrArg cancellation heq
    exact ⟨hout, fun _ => hcancel⟩
  | stopTicker =>
    obtain ⟨ticker, timers, js, heq, -⟩ := stopTicker_spec s
    have hout := congrArg outcomes heq
    have hcancel := congrArg cancellation heq
    exact ⟨hout, fun _ => hcancel⟩
  | cancel reason b => exact ⟨rfl, fun hc => absurd rfl (hc reason b)⟩
  | _ => exact ⟨rfl, fun _ => rfl⟩

/-- The turns of the consumer leave the loop indices and the request to stop alone. -/
theorem consumerTurn_leaves (env : Collaborators σ) (s : Shared σ) :
    (consumerTurn env s).2.outcomes = s.outcomes ∧
      (consumerTurn env s).2.cancellation = s.cancellation := by
  obtain ⟨_, _, _, _, _, heq⟩ := consumerTurn_spec env s
  rw [heq]
  exact ⟨rfl, rfl⟩

/-- So do the turns of the ticker. -/
theorem tickerTurn_leaves (env : Collaborators σ) (s : Shared σ) :
    (tickerTurn env s).2.outcomes = s.outcomes ∧
      (tickerTurn env s).2.cancellation = s.cancellation := by
  obtain ⟨_, _, _, _, heq⟩ := tickerTurn_spec env s
  rw [heq]
  exact ⟨rfl, rfl⟩

end Shared

end Runbook.Schedule
