import Runbook.Proofs.InOrder
import Runbook.Proofs.Paths
import Runbook.Rehearsal.Whole

/-!
# No event is lost or kept twice

Events are offered to a queue by any number of tasks, the consumer takes them out, and the ticker
flushes now and then. When gathering has been ended properly, the record holds exactly the events
that were taken, in the order in which they were offered, and it counts those that were refused.

The invariant ties together what is in the queue, what has been gathered, the end mark and the count
of refused events (`Tally`). The end mark is only put into a closed queue, and the consumer is only
told to stop when the queue is closed; that is a matter of the program that ends gathering
(`Follows`).

* `accepted`, `refused`: what a history says about the events that were offered.
* `Conserved`: what the record holds in the end.
-/

namespace Runbook.Schedule

variable {σ α β : Type}

/-! ### Events in histories -/

/-- The events that were taken, in order. -/
def accepted (h : List Happening) : List RunEvent :=
  h.filterMap fun
    | .deed _ (.call (.emit e) taken) => if taken then some e else none
    | _ => none

/-- How many events were refused. -/
def refused (h : List Happening) : Nat :=
  h.countP fun
    | .deed _ (.call (.emit _) taken) => !taken
    | _ => false

/-- Whether something that happens is a flush. -/
def Happening.isFlush : Happening → Bool
  | .flush => true
  | _ => false

/-- A history up to its last flush. -/
def untilFlush (h : List Happening) : List Happening :=
  (h.reverse.dropWhile fun x => !x.isFlush).reverse

/-- Something that happens and has nothing to do with events. -/
def Happening.Idle : Happening → Prop
  | .deed _ (.call (.emit _) _) | .turn | .flush => False
  | _ => True

theorem Happening.idle_alarm (a : Alarm) : ∀ x ∈ [Happening.alarm a], x.Idle :=
  List.forall_mem_singleton.mpr trivial

@[simp]
theorem accepted_append (h h' : List Happening) :
    accepted (h ++ h') = accepted h ++ accepted h' :=
  List.filterMap_append

@[simp]
theorem refused_append (h h' : List Happening) : refused (h ++ h') = refused h + refused h' :=
  List.countP_append

theorem untilFlush_append {h' : List Happening} (hno : ∀ x ∈ h', x.isFlush = false)
    (h : List Happening) : untilFlush (h ++ h') = untilFlush h := by
  -- Backwards, what holds no flush is dropped before anything else is.
  have hdrop : ∀ l : List Happening, (∀ x ∈ l, x.isFlush = false) →
      ∀ l', (l ++ l').dropWhile (fun x => !x.isFlush) = l'.dropWhile fun x => !x.isFlush := by
    intro l hl l'
    induction l with
    | nil => rfl
    | cons x l ih =>
      rw [List.cons_append, List.dropWhile_cons_of_pos (by simp [hl x])]
      exact ih fun y hy => hl y (List.mem_cons_of_mem x hy)
  rw [untilFlush, List.reverse_append, hdrop _ (by simpa using hno)]
  rfl

@[simp]
theorem untilFlush_append_flush (h : List Happening) :
    untilFlush (h ++ [.flush]) = h ++ [.flush] := by
  simp [untilFlush, Happening.isFlush]

theorem accepted_of_idle {h : List Happening} (hidle : ∀ x ∈ h, x.Idle) : accepted h = [] := by
  refine List.filterMap_eq_nil_iff.mpr fun x hx => ?_
  have hx := hidle x hx
  rcases x with ⟨who, ⟨c, reply⟩ | _ | _⟩ | _ | _ | _ <;> try rfl
  cases c <;> first | rfl | exact hx.elim

theorem refused_of_idle {h : List Happening} (hidle : ∀ x ∈ h, x.Idle) : refused h = 0 := by
  refine List.countP_eq_zero.mpr fun x hx => ?_
  have hx := hidle x hx
  rcases x with ⟨who, ⟨c, reply⟩ | _ | _⟩ | _ | _ | _ <;> try simp
  cases c <;> first | exact hx.elim | simp

/-! ### The invariant -/

/-- What has been gathered and what is in the queue are the events that were taken, nothing comes
behind the end mark, and once the consumer has ended nothing is left. -/
structure Tally (r : RunRecord) (h : List Happening) (s : Shared σ) : Prop where
  gathered : s.gathered.gather s.pipeline.queue =
    (⟨r.logs, r.outputFiles⟩ : Gathered).gather (accepted h)
  dropped : s.pipeline.dropped = refused h
  flushed : .flush ∈ h → s.flushed.dropped = refused (untilFlush h)
  marked : s.pipeline.marked = true → s.pipeline.closed = true
  stopped : s.consumer.stopped = true → s.pipeline.closed = true
  present : s.consumer.phase ≠ .absent
  unborn : s.consumer.phase = .fresh → .turn ∉ h
  ended : s.consumer.phase = .ended → .turn ∈ h → s.pipeline.closed = true ∧
    s.pipeline.queue = [] ∧ .flush ∈ h ∧
    s.flushed.logs = s.gathered.logs ∧ s.flushed.outputFiles = s.gathered.outputFiles
  idle : s.consumer.phase = .ended → .turn ∉ h → s.consumer.stopped = true

/-- What stays as it is once it has come about: the queue is closed, the consumer has ended. Whether
the consumer has been told to stop does not change either. -/
structure Shared.Later (s s' : Shared σ) : Prop where
  closed : s.pipeline.closed = true → s'.pipeline.closed = true
  stopped : s'.consumer.stopped = s.consumer.stopped
  ended : s.consumer.phase = .ended → s'.consumer.phase = .ended

namespace Shared

theorem Later.refl (s : Shared σ) : s.Later s := ⟨id, rfl, id⟩

theorem Later.trans {s s₁ s₂ : Shared σ} (h : s.Later s₁) (h₁ : s₁.Later s₂) : s.Later s₂ :=
  ⟨h₁.closed ∘ h.closed, h₁.stopped.trans h.stopped, h₁.ended ∘ h.ended⟩

/-- The queue, the consumer and what has been gathered stay as they are. -/
structure Apart (s s' : Shared σ) : Prop where
  pipeline : s'.pipeline = s.pipeline
  consumer : s'.consumer = s.consumer
  gathered : s'.gathered = s.gathered
  flushed : s'.flushed = s.flushed

theorem Apart.refl (s : Shared σ) : s.Apart s := ⟨rfl, rfl, rfl, rfl⟩

theorem Apart.trans {s s₁ s₂ : Shared σ} (h : s.Apart s₁) (h₁ : s₁.Apart s₂) : s.Apart s₂ :=
  ⟨h₁.pipeline.trans h.pipeline, h₁.consumer.trans h.consumer, h₁.gathered.trans h.gathered,
    h₁.flushed.trans h.flushed⟩

theorem Apart.later {s s' : Shared σ} (h : s.Apart s') : s.Later s' := by
  refine ⟨?_, congrArg _ h.consumer, ?_⟩
  · rw [h.pipeline]
    exact id
  · rw [h.consumer]
    exact id

theorem Alike.apart {s s' : Shared σ} (h : s.Alike s') : s.Apart s' := by
  obtain ⟨-, _, _, _, _, rfl⟩ := h
  exact ⟨rfl, rfl, rfl, rfl⟩

theorem Alike.later {s s' : Shared σ} (h : s.Alike s') : s.Later s' := h.apart.later

end Shared

theorem Daemon.Roused.stopped {d d' : Daemon} (h : d.Roused d') : d'.stopped = d.stopped := by
  rcases h with rfl | ⟨-, rfl⟩ <;> rfl

/-- A daemon that is roused neither begins nor ends. -/
theorem Daemon.Roused.phase_eq {d d' : Daemon} (h : d.Roused d') (phase : Phase)
    (hw : phase ≠ .waiting) (hw' : phase ≠ .woken) : d'.phase = phase ↔ d.phase = phase := by
  rcases h with rfl | ⟨hphase, rfl⟩
  · rfl
  · rw [hphase]
    exact ⟨fun h => absurd h.symm hw', fun h => absurd h.symm hw⟩

namespace Tally

variable {r : RunRecord} {h h' : List Happening} {s s' : Shared σ}

/-- Only the queue, the consumer and what has been gathered matter. -/
theorem apart (ht : Tally r h s) (hs : s.Apart s') : Tally r h s' := by
  obtain ⟨h₁, h₂, h₃, h₄, h₅, h₆, h₇, h₈, h₉⟩ := ht
  constructor <;> simpa only [hs.pipeline, hs.consumer, hs.gathered, hs.flushed]

theorem alike (ht : Tally r h s) (hs : s.Alike s') : Tally r h s' := ht.apart hs.apart

/-- What has nothing to do with events does not matter. -/
theorem append_idle (ht : Tally r h s) (hidle : ∀ x ∈ h', x.Idle) : Tally r (h ++ h') s := by
  have hflush : (.flush : Happening) ∉ h' := fun hm => hidle _ hm
  have hturn : (.turn : Happening) ∉ h' := fun hm => hidle _ hm
  have hno : ∀ x ∈ h', x.isFlush = false := by
    intro x hx
    cases x with
    | flush => exact absurd hx hflush
    | _ => rfl
  refine ⟨?_, ?_, ?_, ht.marked, ht.stopped, ht.present, ?_, ?_, ?_⟩
  · rw [accepted_append, accepted_of_idle hidle, List.append_nil]
    exact ht.gathered
  · rw [refused_append, refused_of_idle hidle, Nat.add_zero]
    exact ht.dropped
  · rw [untilFlush_append hno]
    exact fun hm => ht.flushed (by simpa [hflush] using hm)
  · simpa [hturn] using ht.unborn
  · simpa [hturn, hflush] using ht.ended
  · simpa [hturn] using ht.idle

theorem append_one (ht : Tally r h s) (x : Happening) (hidle : x.Idle) : Tally r (h ++ [x]) s :=
  ht.append_idle (List.forall_mem_singleton.mpr hidle)

/-- The consumer may be woken, jobs become ready and collaborators act. -/
theorem roused (ht : Tally r h s) {consumer : Daemon} (hroused : s.consumer.Roused consumer)
    (next : List Job) (outside : σ) : Tally r h { s with consumer, next, outside } := by
  have hfresh := hroused.phase_eq .fresh (by simp) (by simp)
  have hended := hroused.phase_eq .ended (by simp) (by simp)
  have habsent := hroused.phase_eq .absent (by simp) (by simp)
  refine ⟨ht.gathered, ht.dropped, ht.flushed, ht.marked, ?_, ?_, ?_, ?_, ?_⟩
  · exact fun hstopped => ht.stopped (hroused.stopped ▸ hstopped)
  · exact fun hphase => ht.present (habsent.mp hphase)
  · exact fun hphase => ht.unborn (hfresh.mp hphase)
  · exact fun hphase => ht.ended (hended.mp hphase)
  · exact fun hphase hturn => hroused.stopped.trans (ht.idle (hended.mp hphase) hturn)

theorem later_of_roused {consumer : Daemon} (hroused : s.consumer.Roused consumer)
    {pipeline : Pipeline} (next : List Job) (outside : σ)
    (hclosed : s.pipeline.closed = true → pipeline.closed = true) :
    s.Later { s with pipeline, consumer, next, outside } :=
  ⟨hclosed, hroused.stopped, (hroused.phase_eq .ended (by simp) (by simp)).mpr⟩

/-- An event is offered: it is in the queue then, or it is counted. -/
theorem emit (ht : Tally r h s) (env : Collaborators σ) (e : RunEvent) (who : Option Nat) :
    Tally r (h ++ [.deed who (.call (.emit e) (Shared.emit env e s).1)]) (Shared.emit env e s).2 ∧
      s.Later (Shared.emit env e s).2 := by
  obtain ⟨htaken, consumer, js, outside, heq, hroused, -⟩ := Shared.emit_spec env e s
  have hflushed (x : Deed) : untilFlush (h ++ [.deed who x]) = untilFlush h :=
    untilFlush_append (by simp [Happening.isFlush]) h
  rw [heq, htaken]
  by_cases hfits : (s.pipeline.emit e).2.1 = true
  -- The event goes to the end of the queue, as what is offered goes to the end of the history.
  · have hclosed := ((Pipeline.emit_taken_iff s.pipeline e).mp hfits).1
    rw [Pipeline.queue_emit_of_taken _ _ hfits, hfits]
    refine ⟨roused (s := { s with
        pipeline := { s.pipeline with queue := s.pipeline.queue ++ [e] } })
      ⟨?_, ?_, ?_, ht.marked, ht.stopped, ht.present, ?_, ?_, ?_⟩ hroused _ _,
      later_of_roused hroused _ _ fun hc => hc⟩
    · rw [Gathered.gather_append, ht.gathered, ← Gathered.gather_append, accepted_append]
      rfl
    · exact ht.dropped.trans (by simp [refused])
    · rw [hflushed]
      simpa using ht.flushed
    · simpa using ht.unborn
    -- A consumer that has ended has found the queue closed, and then nothing is taken.
    · intro hphase hturn
      have hno := (ht.ended hphase (by simpa using hturn)).1
      rw [hclosed] at hno
      cases hno
    · simpa using ht.idle
  · rw [Bool.not_eq_true] at hfits
    rw [Pipeline.queue_emit_of_not_taken _ _ hfits, hfits]
    refine ⟨roused (s := { s with pipeline := s.pipeline.drop })
      ⟨?_, ?_, ?_, ht.marked, ht.stopped, ht.present, ?_, ?_, ?_⟩ hroused _ _,
      later_of_roused hroused _ _ fun hc => hc⟩
    · rw [accepted_append]
      exact ht.gathered.trans (by simp [accepted])
    · exact (congrArg (· + 1) ht.dropped).trans (by simp [refused])
    · rw [hflushed]
      simpa using ht.flushed
    · simpa using ht.unborn
    · simpa [Pipeline.drop] using ht.ended
    · simpa using ht.idle

/-- The end mark is offered to a closed queue. -/
theorem offerEnd (ht : Tally r h s) (hclosed : s.pipeline.closed = true) :
    Tally r h (Shared.offerEnd s).2 ∧ s.Later (Shared.offerEnd s).2 := by
  obtain ⟨-, consumer, js, heq, hroused, -⟩ := Shared.offerEnd_spec s
  -- The mark is put in, or there is no room for it and nothing changes.
  have hpipeline : s.pipeline.offerEnd.1 = s.pipeline ∨
      s.pipeline.offerEnd.1 = { s.pipeline with marked := true } := by
    unfold Pipeline.offerEnd
    split
    · exact .inl rfl
    · exact .inr rfl
  rw [heq]
  rcases hpipeline with hp | hp <;> rw [hp]
  · exact ⟨ht.roused hroused _ _, later_of_roused hroused _ _ fun hc => hc⟩
  · have hmarked : Tally r h { s with pipeline := { s.pipeline with marked := true } } :=
      ⟨ht.gathered, ht.dropped, ht.flushed, fun _ => hclosed, ht.stopped, ht.present, ht.unborn,
        ht.ended, ht.idle⟩
    exact ⟨hmarked.roused hroused _ _, later_of_roused hroused _ _ fun hc => hc⟩

/-- What is gathered does not depend on the ticker. -/
theorem stopTicker (ht : Tally r h s) :
    Tally r h (Shared.stopTicker s).2 ∧ s.Later (Shared.stopTicker s).2 := by
  obtain ⟨ticker, timers, js, heq, -⟩ := Shared.stopTicker_spec s
  rw [heq]
  exact ⟨ht.apart ⟨rfl, rfl, rfl, rfl⟩, ⟨id, rfl, id⟩⟩

/-- The queue is closed. -/
theorem closeQueue (ht : Tally r h s) :
    Tally r h (Shared.closeQueue s).2 ∧ s.Later (Shared.closeQueue s).2 ∧
      (Shared.closeQueue s).2.pipeline.closed = true :=
  ⟨⟨ht.gathered, ht.dropped, ht.flushed, fun _ => rfl, fun _ => rfl, ht.present, ht.unborn,
    fun hphase hturn => ⟨rfl, (ht.ended hphase hturn).2⟩, ht.idle⟩, ⟨fun _ => rfl, rfl, id⟩, rfl⟩

/-- The consumer is told to stop when the queue is closed. -/
theorem stopConsumer (ht : Tally r h s) (hclosed : s.pipeline.closed = true) :
    Tally r h (Shared.stopConsumer s).2 ∧ (Shared.stopConsumer s).2.pipeline.closed = true ∧
      (s.consumer.phase = .ended → (Shared.stopConsumer s).2.consumer = s.consumer) := by
  obtain ⟨consumer, js, heq, -, hconsumer⟩ := Shared.stopConsumer_spec s
  rw [heq]
  refine ⟨?_, hclosed, ?_⟩
  -- Told to stop, an active consumer may be woken; one that is not active stays as it is.
  · by_cases hactive : s.consumer.isActive = true
    · rw [if_pos hactive] at hconsumer
      have hstopped : Tally r h { s with consumer := { s.consumer with stopped := true } } :=
        ⟨ht.gathered, ht.dropped, ht.flushed, ht.marked, fun _ => hclosed, ht.present, ht.unborn,
          ht.ended, fun _ _ => rfl⟩
      exact hstopped.roused hconsumer _ _
    · rw [if_neg hactive] at hconsumer
      subst hconsumer
      exact ht.roused (.inl rfl) _ _
  · intro hended
    have hinactive : ¬ s.consumer.isActive = true := by simp [Daemon.isActive, hended]
    rwa [if_neg hinactive] at hconsumer

/-- The consumer gathers what is in the queue, in order, and is done only when nothing can come any
more. -/
theorem consumerTurn (ht : Tally r h s) (env : Collaborators σ) :
    Tally r (h ++ consumerHistory s) (Shared.consumerTurn env s).2 ∧
      (Shared.consumerTurn env s).2.pipeline.closed = s.pipeline.closed ∧
      (Shared.consumerTurn env s).2.consumer.stopped = s.consumer.stopped := by
  have hall : (s.gathered.gather s.pipeline.queue).gather [] =
      (⟨r.logs, r.outputFiles⟩ : Gathered).gather (accepted h) := by
    rw [← Gathered.gather_append, List.append_nil]
    exact ht.gathered
  by_cases hunborn : s.consumer.stopped = true ∧ s.consumer.phase = .fresh
  · obtain ⟨hstopped, hfresh⟩ := hunborn
    have hturn := ht.unborn hfresh
    rw [Shared.consumerTurn_of_unborn env hstopped hfresh, consumerHistory,
      if_pos (by simp [hstopped, hfresh]), List.append_nil]
    exact ⟨⟨ht.gathered, ht.dropped, ht.flushed, ht.marked, ht.stopped, by simp, by simp,
      fun _ hm => absurd hm hturn, fun _ _ => hstopped⟩, rfl, rfl⟩
  · have hborn : ¬ (s.consumer.stopped && decide (s.consumer.phase = .fresh)) = true := by
      simpa using hunborn
    by_cases hends : s.pipeline.marked = true ∨ s.consumer.stopped = true
    · obtain ⟨outside, heq⟩ := Shared.consumerTurn_of_ending env hunborn hends
      rw [heq, consumerHistory, if_neg hborn, if_pos (by simpa using hends)]
      -- Whoever put in the mark or told the consumer to stop had closed the queue, and so nothing
      -- comes after this turn.
      have hclosed : s.pipeline.closed = true := hends.elim ht.marked ht.stopped
      refine ⟨⟨?_, ?_, ?_, ?_, ht.stopped, by simp, by simp, ?_, ?_⟩, rfl, rfl⟩
      · rw [accepted_append]
        exact hall.trans (by simp [accepted])
      · exact ht.dropped.trans (by simp [refused])
      · intro _
        rw [show h ++ [.turn, .flush] = (h ++ [.turn]) ++ [Happening.flush] by simp,
          untilFlush_append_flush]
        exact ht.dropped.trans (by simp [refused])
      · intro hm
        cases hm
      · exact fun _ _ => ⟨hclosed, rfl, by simp, rfl, rfl⟩
      · exact fun _ hm => absurd (by simp) hm
    · rw [not_or, Bool.not_eq_true, Bool.not_eq_true] at hends
      rw [Shared.consumerTurn_of_waiting env hends.1 hends.2, consumerHistory, if_neg hborn,
        if_neg (by simp [hends])]
      have hflushed : untilFlush (h ++ [.turn]) = untilFlush h :=
        untilFlush_append (by simp [Happening.isFlush]) h
      refine ⟨⟨?_, ?_, ?_, ?_, ht.stopped, by simp, by simp, by simp, by simp⟩, rfl, rfl⟩
      · rw [accepted_append]
        exact hall.trans (by simp [accepted])
      · exact ht.dropped.trans (by simp [refused])
      · rw [hflushed]
        simpa using ht.flushed
      · intro hm
        cases hm

/-- The ticker writes down what has been gathered so far, or only waits. -/
theorem tickerTurn (ht : Tally r h s) (env : Collaborators σ) :
    Tally r (h ++ tickerHistory s) (Shared.tickerTurn env s).2 ∧
      s.Later (Shared.tickerTurn env s).2 := by
  cases hstopped : s.ticker.stopped with
  | true =>
    rw [Shared.tickerTurn_of_stopped env hstopped, tickerHistory, if_neg (by simp [hstopped]),
      List.append_nil]
    exact ⟨⟨ht.gathered, ht.dropped, ht.flushed, ht.marked, ht.stopped, ht.present, ht.unborn,
      ht.ended, ht.idle⟩, ⟨id, rfl, id⟩⟩
  | false =>
    obtain ⟨timers, outside, heq⟩ := Shared.tickerTurn_of_going env hstopped
    rw [heq, tickerHistory]
    by_cases hwoken : s.ticker.phase = .woken
    · rw [if_pos (by simp [hstopped, hwoken]), if_pos hwoken]
      refine ⟨⟨?_, ?_, ?_, ht.marked, ht.stopped, ht.present, ?_, ?_, ?_⟩, ⟨id, rfl, id⟩⟩
      · rw [accepted_append]
        exact ht.gathered.trans (by simp [accepted])
      · exact ht.dropped.trans (by simp [refused])
      · intro _
        rw [untilFlush_append_flush]
        exact ht.dropped.trans (by simp [refused])
      · simpa using ht.unborn
      -- Behind a consumer that has ended, another flush writes down the same again.
      · intro hphase hturn
        obtain ⟨hclosed, hqueue, -, -, -⟩ := ht.ended hphase (by simpa using hturn)
        exact ⟨hclosed, hqueue, by simp, rfl, rfl⟩
      · simpa using ht.idle
    · rw [if_neg (by simp [hstopped, hwoken]), if_neg hwoken, List.append_nil]
      exact ⟨⟨ht.gathered, ht.dropped, ht.flushed, ht.marked, ht.stopped, ht.present, ht.unborn,
        ht.ended, ht.idle⟩, ⟨id, rfl, id⟩⟩

end Tally

/-! ### Programs that produce events -/

/-- A call that neither begins nor ends the gathering of events. -/
def Ordinary : Call → Prop
  | .startAggregator _ | .closeQueue | .offerEnd | .stopConsumer => False
  | _ => True

/-- A program that may offer events but neither begins nor ends gathering them, and does not wait
for the consumer. -/
def Produces (p : Program α) : Prop := p.Only Ordinary (· ≠ .consumer)

/-- A call that is ordinary leaves the tally right. -/
theorem Tally.answer {r : RunRecord} {h : List Happening} {s : Shared σ} (ht : Tally r h s)
    (env : Collaborators σ) {c : Call} (hc : Ordinary c) (who : Option Nat) :
    Tally r (h ++ [.deed who (.call c (Shared.answer env c s).1)]) (Shared.answer env c s).2 ∧
      s.Later (Shared.answer env c s).2 := by
  have hsame {s' : Shared σ} (x : Happening) (hx : x.Idle) (hs : s.Apart s') :
      Tally r (h ++ [x]) s' ∧ s.Later s' :=
    ⟨(ht.append_one x hx).apart hs, hs.later⟩
  cases c with
  | emit e => exact ht.emit env e who
  | startAggregator | closeQueue | offerEnd | stopConsumer => exact hc.elim
  | stopTicker =>
    obtain ⟨ht', hlater⟩ := ht.stopTicker
    exact ⟨ht'.append_one _ trivial, hlater⟩
  | _ => exact hsame _ trivial ⟨rfl, rfl, rfl, rfl⟩

/-- A program that produces events leaves the tally right. -/
theorem Produces.goesOn {env : Collaborators σ} {p : Program α} {s s' : Shared σ} {t : List Deed}
    {task : Task α} (hgoes : GoesOn env p s t task s') (hp : Produces p) {r : RunRecord}
    (who : Option Nat) {h : List Happening} (ht : Tally r h s) :
    Tally r (h ++ t.map (.deed who)) s' ∧ s.Later s' := by
  induction hgoes generalizing h with
  | done | before =>
    rw [List.map_nil, List.append_nil]
    exact ⟨ht, .refl _⟩
  | call _ ih =>
    cases hp with
    | call hc hk =>
      obtain ⟨ht', hlater⟩ := ht.answer env hc who
      obtain ⟨ht'', hlater'⟩ := ih (hk _) ht'
      rw [List.map_cons, List.append_cons]
      exact ⟨ht'', hlater.trans hlater'⟩
  | @resume w _ _ _ _ _ _ _ ih =>
    cases hp with
    | wait hw hk =>
      rw [List.map_cons, List.map_cons, List.append_cons, List.append_cons]
      have hwaits := ht.append_one (.deed who (.wait w)) trivial
      exact ih (hk .resumed) (hwaits.append_one (.deed who (.wake .resumed)) trivial)
  | wait => exact ⟨ht.append_one _ trivial, .refl _⟩
  | after =>
    cases hp with
    | call hc hk => exact ht.answer env hc who

/-! ### The program that ends gathering -/

/-- What a task knows about the gathering of events. -/
structure Known where
  /-- The queue is closed. -/
  closed : Bool := false
  /-- Nobody has told the consumer to stop. -/
  unstopped : Bool := true
  /-- The consumer has ended. -/
  gone : Bool := false

/-- What is known is so. -/
structure Known.Holds (K : Known) (s : Shared σ) : Prop where
  closed : K.closed = true → s.pipeline.closed = true
  unstopped : K.unstopped = true → s.consumer.stopped = false
  gone : K.gone = true → s.consumer.phase = .ended

theorem Known.Holds.later {K : Known} {s s' : Shared σ} (hK : K.Holds s) (h : s.Later s') :
    K.Holds s' :=
  ⟨h.closed ∘ hK.closed, fun hu => h.stopped.trans (hK.unstopped hu), h.ended ∘ hK.gone⟩

/-- Knowing `K`, a program puts the end mark only into a closed queue, and it tells the consumer to
stop, or waits for it, only when the queue is closed. What it knows when it ends goes with its
result. -/
inductive Follows (result : Known → α → Prop) : Known → Program α → Prop
  | done {K : Known} {a : α} (ha : result K a) : Follows result K (.done a)
  | call {K : Known} {c : Call} {k : c.Reply → Program α} (hc : Ordinary c)
      (hk : ∀ r, Follows result K (k r)) : Follows result K (.call c k)
  | close {K : Known} {k : Bool → Program α}
      (hk : ∀ r, Follows result { K with closed := true } (k r)) :
      Follows result K (.call .closeQueue k)
  | offerEnd {K : Known} {k : Bool → Program α} (hclosed : K.closed = true)
      (hk : ∀ r, Follows result K (k r)) : Follows result K (.call .offerEnd k)
  | stop {K : Known} {k : Unit → Program α} (hclosed : K.closed = true)
      (hk : Follows result { K with unstopped := false } (k ())) :
      Follows result K (.call .stopConsumer k)
  | wait {K : Known} {w : Wait} {k : Wake → Program α} (hw : w ≠ .consumer)
      (hk : ∀ wake, Follows result K (k wake)) : Follows result K (.wait w k)
  | await {K : Known} {k : Wake → Program α} (hclosed : K.closed = true)
      (hresumed : Follows result { K with gone := true } (k .resumed))
      (hinterrupted : Follows result { K with unstopped := false, gone := true } (k .interrupted)) :
      Follows result K (.wait .consumer k)

theorem Follows.bind {result : Known → α → Prop} {result' : Known → β → Prop} {K : Known}
    {p : Program α} {f : α → Program β} (hp : Follows result K p)
    (hf : ∀ K a, result K a → Follows result' K (f a)) : Follows result' K (p >>= f) := by
  induction hp with
  | done ha => exact hf _ _ ha
  | call hc _ ih => exact .call hc ih
  | close _ ih => exact .close ih
  | offerEnd hclosed _ ih => exact .offerEnd hclosed ih
  | stop hclosed _ ih => exact .stop hclosed ih
  | wait hw _ ih => exact .wait hw ih
  | await hclosed _ _ ih ih' => exact .await hclosed ih ih'

/-- A program that produces events learns nothing. -/
theorem Produces.follows {p : Program α} (hp : Produces p) (K : Known) :
    Follows (fun K' _ => K' = K) K p := by
  induction hp with
  | done a => exact .done rfl
  | call hc _ ih => exact .call hc ih
  | wait hw _ ih => exact .wait hw ih

/-- A program may go on when what it knows is so. -/
def Entitled (result : Known → α → Prop) (s : Shared σ) (p : Program α) : Prop :=
  ∃ K : Known, K.Holds s ∧ Follows result K p

/-- A task that may go on when it is woken. Waiting for the consumer, it relies on being woken
only when that has ended, and on being told when it was told to stop. -/
def Ready (result : Known → α → Prop) (s : Shared σ) : Task α → Prop
  | .fresh p => Entitled result s p
  | .stillborn => True
  | .waiting .consumer k => s.pipeline.closed = true ∧
      (∃ unstopped, Follows result ⟨true, unstopped, true⟩ (k .resumed)) ∧
      Follows result ⟨true, false, true⟩ (k .interrupted)
  | .waiting _ k => ∀ wake, Entitled result s (k wake)
  | .woken wake k => Entitled result s (k wake) ∧ Entitled result s (k .interrupted)
  | .paused p => Entitled result s p
  | .ended a => ∃ K : Known, K.Holds s ∧ result K a

section Ready

variable {result : Known → α → Prop} {r : RunRecord} {h : List Happening} {s s' : Shared σ}

theorem Entitled.later {p : Program α} (hp : Entitled result s p) (hs : s.Later s') :
    Entitled result s' p := by
  obtain ⟨K, hK, hp⟩ := hp
  exact ⟨K, hK.later hs, hp⟩

theorem Ready.later {t : Task α} (ht : Ready result s t) (hs : s.Later s') :
    Ready result s' t := by
  cases t with
  | fresh p | paused p => exact Entitled.later ht hs
  | stillborn => trivial
  | waiting w k =>
    cases w with
    | consumer => exact ⟨hs.closed ht.1, ht.2⟩
    | _ => exact fun wake => Entitled.later (ht wake) hs
  | woken wake k => exact ⟨Entitled.later ht.1 hs, Entitled.later ht.2 hs⟩
  | ended a =>
    obtain ⟨K, hK, ha⟩ := ht
    exact ⟨K, hK.later hs, ha⟩

/-- A task is woken from anything but its wait for the consumer. -/
theorem Ready.woken {t t' : Task α} {allowed : Wait → Wake → Prop} (ht : Ready result s t)
    (hw : t.Woken allowed t') (hno : ∀ wake, ¬ allowed .consumer wake) : Ready result s t' := by
  rcases hw with rfl | ⟨w, k, wake, rfl, ha, rfl⟩
  · exact ht
  · cases w with
    | consumer => exact absurd ha (hno wake)
    | _ => exact ⟨ht wake, ht .interrupted⟩

/-- A call leaves the tally right, and its program may go on. -/
theorem Entitled.answer (env : Collaborators σ) {c : Call} {k : c.Reply → Program α}
    (hp : Entitled result s (.call c k)) (ht : Tally r h s) :
    Tally r (h ++ [.deed none (.call c (Shared.answer env c s).1)]) (Shared.answer env c s).2 ∧
      Entitled result (Shared.answer env c s).2 (k (Shared.answer env c s).1) := by
  obtain ⟨K, hK, hp⟩ := hp
  cases hp with
  | call hc hk =>
    obtain ⟨ht', hlater⟩ := ht.answer env hc none
    exact ⟨ht', K, hK.later hlater, hk _⟩
  | close hk =>
    obtain ⟨ht', hlater, hclosed⟩ := ht.closeQueue
    have hK' := hK.later hlater
    exact ⟨ht'.append_one _ trivial, { K with closed := true },
      ⟨fun _ => hclosed, hK'.unstopped, hK'.gone⟩, hk _⟩
  | offerEnd hclosed hk =>
    obtain ⟨ht', hlater⟩ := ht.offerEnd (hK.closed hclosed)
    exact ⟨ht'.append_one _ trivial, K, hK.later hlater, hk _⟩
  | stop hclosed hk =>
    obtain ⟨ht', hclosed', hended⟩ := ht.stopConsumer (hK.closed hclosed)
    have hgone (hg : K.gone = true) : (Shared.stopConsumer s).2.consumer.phase = .ended := by
      rw [hended (hK.gone hg), hK.gone hg]
    exact ⟨ht'.append_one _ trivial, { K with unstopped := false },
      ⟨fun _ => hclosed', nofun, hgone⟩, hk⟩

/-- A program may go on when what it waits for is over. -/
theorem Entitled.resumed {w : Wait} {k : Wake → Program α} (hp : Entitled result s (.wait w k))
    (ht : Tally r h s) (hover : s.isOver w = true) : Entitled result s (k .resumed) := by
  obtain ⟨K, hK, hp⟩ := hp
  cases hp with
  | wait hw hk => exact ⟨K, hK, hk .resumed⟩
  | await hclosed hresumed hinterrupted =>
    -- A consumer that has never been started would not be waited for either, but one has been.
    have hended : s.consumer.phase = .ended := by
      have hpresent := ht.present
      simp only [Shared.isOver, Daemon.isActive] at hover
      cases hphase : s.consumer.phase <;> simp_all
    exact ⟨{ K with gone := true }, ⟨hK.closed, hK.unstopped, fun _ => hended⟩, hresumed⟩

/-- A task that comes to wait is ready to go on later. -/
theorem Entitled.ready_waiting {w : Wait} {k : Wake → Program α}
    (hp : Entitled result s (.wait w k)) : Ready result s (.waiting w k) := by
  obtain ⟨K, hK, hp⟩ := hp
  cases hp with
  | wait hw hk =>
    cases w with
    | consumer => exact absurd rfl hw
    | _ => exact fun wake => ⟨K, hK, hk wake⟩
  | await hclosed hresumed hinterrupted =>
    obtain ⟨_, unstopped, gone⟩ := K
    obtain rfl : _ = true := hclosed
    exact ⟨hK.closed rfl, ⟨unstopped, hresumed⟩, hinterrupted⟩

/-- A program that may go on leaves the tally right, and its task is ready to go on later. -/
theorem Entitled.goesOn {env : Collaborators σ} {p : Program α} {t : List Deed} {task : Task α}
    (hgoes : GoesOn env p s t task s') (hp : Entitled result s p) (ht : Tally r h s) :
    Tally r (h ++ t.map (.deed none)) s' ∧ Ready result s' task := by
  induction hgoes generalizing h with
  | done =>
    obtain ⟨K, hK, hp⟩ := hp
    cases hp with
    | done ha =>
      rw [List.map_nil, List.append_nil]
      exact ⟨ht, K, hK, ha⟩
  | call _ ih =>
    obtain ⟨ht', hp'⟩ := hp.answer env ht
    rw [List.map_cons, List.append_cons]
    exact ih hp' ht'
  | @resume w _ _ _ _ _ hw _ ih =>
    rw [List.map_cons, List.map_cons, List.append_cons, List.append_cons]
    have hwaits := ht.append_one (.deed none (.wait w)) trivial
    exact ih (hp.resumed ht hw) (hwaits.append_one (.deed none (.wake .resumed)) trivial)
  | wait => exact ⟨ht.append_one _ trivial, hp.ready_waiting⟩
  | before =>
    rw [List.map_nil, List.append_nil]
    exact ⟨ht, hp⟩
  | after => exact hp.answer env ht

end Ready

/-! ### Schedules that gather events -/

/-- A task that goes on to produce events. -/
def Producing : Task α → Prop
  | .fresh p | .paused p => Produces p
  | .waiting _ k | .woken _ k => ∀ wake, Produces (k wake)
  | _ => True

theorem Produces.reached {p : Program α} (hp : Produces p) {t : List Deed} {task : Task α}
    (h : task.Reached p t) : Producing task := by
  have hnext {t : List Deed} {w : Wait} {k : Wake → Program α} (h : p.Leads t (.wait w k)) :
      ∀ wake, Produces (k wake) := by
    cases (hp.of_leads h).1 with
    | wait hw hk => exact hk
  cases h with
  | fresh => exact hp
  | stillborn => trivial
  | waiting h => exact hnext h
  | woken h => exact hnext h
  | paused h => exact (hp.of_leads h).1
  | ended => trivial

theorem Producing.woken {t t' : Task α} {allowed : Wait → Wake → Prop} (h : Producing t)
    (hw : t.Woken allowed t') : Producing t' := by
  rcases hw with rfl | ⟨w, k, wake, rfl, -, rfl⟩
  · exact h
  · exact h

theorem Producing.interrupted {t : Task α} (h : Producing t) : Producing t.interrupted := by
  cases t with
  | fresh => trivial
  | _ => exact h

theorem Producing.turn {t : Task α} {first : List Deed} {p : Program α} (h : Producing t)
    (hturn : t.turn? = some (first, p)) : Produces p ∧ ∀ d ∈ first, ∃ wake, d = .wake wake := by
  cases t with
  | fresh q | paused q =>
    cases hturn
    exact ⟨h, by simp⟩
  | woken wake k =>
    cases hturn
    exact ⟨h wake, by simp⟩
  | _ => cases hturn

namespace State

/-- Events are counted right, the main task is ready to end gathering, and the others go on to
produce events. -/
structure Gathers (result : Known → α → Prop) (r : RunRecord) (h : List Happening)
    (s : State σ α) : Prop where
  tally : Tally r h s.shared
  main : Ready result s.shared s.main
  loops : ∀ l ∈ s.loops, Producing l.2

variable {env : Collaborators σ} {program : Nat → Program (Option Failure)}
  {result : Known → α → Prop} {r : RunRecord} {h h₁ : List Happening} {s s₁ : State σ α} {j : Job}

private theorem producing_withLoop {i : Nat} {t : Task (Option Failure)}
    (hs : ∀ l ∈ s.loops, Producing l.2) (ht : Producing t) :
    ∀ l ∈ withLoop i t s.loops, Producing l.2 := by
  intro l hl
  obtain ⟨l', hl', rfl⟩ := List.mem_map.mp hl
  split
  · exact ht
  · exact hs l' hl'

/-- The main task goes on. -/
private theorem Gathers.main_turn (hg : Gathers result r h s) {first t : List Deed}
    {p : Program α} {task : Task α} {sh : Shared σ} (hturn : s.main.turn? = some (first, p))
    (hgoes : GoesOn env p s.shared t task sh) :
    Tally r (h ++ (first ++ t).map (.deed none)) sh ∧ Ready result sh task := by
  have hentitled : Entitled result s.shared p ∧ ∀ d ∈ first, ∃ wake, d = .wake wake := by
    have hmain := hg.main
    cases heq : s.main with
    | fresh q | paused q =>
      rw [heq] at hturn hmain
      cases hturn
      exact ⟨hmain, by simp⟩
    | woken wake k =>
      rw [heq] at hturn hmain
      cases hturn
      exact ⟨hmain.1, by simp⟩
    | _ =>
      rw [heq] at hturn
      cases hturn
  obtain ⟨hp, hfirst⟩ := hentitled
  have hidle : ∀ x ∈ first.map (Happening.deed none), x.Idle := by
    intro x hx
    obtain ⟨d, hd, rfl⟩ := List.mem_map.mp hx
    obtain ⟨wake, rfl⟩ := hfirst d hd
    trivial
  have hnext := hp.goesOn hgoes (hg.tally.append_idle hidle)
  rwa [List.append_assoc, ← List.map_append] at hnext

/-- A loop index goes on. -/
private theorem Gathers.loop_turn (hg : Gathers result r h s) {i : Nat}
    {was task : Task (Option Failure)} {first t : List Deed} {p : Program (Option Failure)}
    {sh : Shared σ} (hloop : s.loop? i = some was) (hturn : was.turn? = some (first, p))
    (hgoes : GoesOn env p s.shared t task sh) :
    Tally r (h ++ (first ++ t).map (.deed (some i))) sh ∧
      s.shared.Later sh ∧ Producing task := by
  obtain ⟨hp, hfirst⟩ := (hg.loops _ (mem_of_loop? hloop)).turn hturn
  have hidle : ∀ x ∈ first.map (Happening.deed (some i)), x.Idle := by
    intro x hx
    obtain ⟨d, hd, rfl⟩ := List.mem_map.mp hx
    obtain ⟨wake, rfl⟩ := hfirst d hd
    trivial
  have hnext := Produces.goesOn hgoes hp (some i) (hg.tally.append_idle hidle)
  rw [List.append_assoc, ← List.map_append] at hnext
  exact ⟨hnext.1, hnext.2, hp.reached (Task.reached_goesOn hgoes (.refl p))⟩

/-- What has nothing to do with events happens. -/
private theorem Gathers.apart (hg : Gathers result r h s) {sh : Shared σ}
    (hsh : s.shared.Apart sh) (hidle : ∀ x ∈ h₁, x.Idle) :
    Tally r (h ++ h₁) sh ∧ Ready result sh s.main :=
  ⟨(hg.tally.append_idle hidle).apart hsh, hg.main.later hsh.later⟩

/-- The consumer goes on, and the main task may be woken by it. -/
private theorem Gathers.consumer_turn (hg : Gathers result r h s)
    (hactive : s.shared.consumer.isActive = true) {main : Task α} {sh : Shared σ}
    (hmain : s.main.Woken (fun w wake => w = .room ∧ wake = .resumed ∨
      w = .consumer ∧ sh.consumer.phase = .ended ∧
        wake = if sh.consumer.stopped then .interrupted else .resumed) main)
    (hsh : (Shared.consumerTurn env s.shared).2.Alike sh) :
    Tally r (h ++ consumerHistory s.shared) sh ∧ Ready result sh main := by
  obtain ⟨htally, hclosed, hstopped⟩ := hg.tally.consumerTurn env
  -- A consumer that goes on has not ended before.
  have hturn : s.shared.Later (Shared.consumerTurn env s.shared).2 := by
    refine ⟨fun hc => hclosed.trans hc, hstopped, fun hended => ?_⟩
    simp [Daemon.isActive, hended] at hactive
  have hlater := hturn.trans hsh.later
  refine ⟨htally.alike hsh, ?_⟩
  have hready := hg.main
  rcases hmain with rfl | ⟨w, k, wake, hwaiting, ⟨rfl, rfl⟩ | ⟨rfl, hended, rfl⟩, rfl⟩
  · exact hready.later hlater
  · rw [hwaiting] at hready
    exact ⟨(hready .resumed).later hlater, (hready .interrupted).later hlater⟩
  · rw [hwaiting] at hready
    obtain ⟨hclosed, ⟨unstopped, hresumed⟩, hinterrupted⟩ := hready
    -- The end of the consumer wakes the main task, and how it does so says whether the consumer had
    -- been told to stop.
    have hgone : Entitled result sh (k .interrupted) :=
      ⟨⟨true, false, true⟩, ⟨fun _ => hlater.closed hclosed, nofun, fun _ => hended⟩, hinterrupted⟩
    refine ⟨?_, hgone⟩
    cases hst : sh.consumer.stopped with
    | true => exact hgone
    | false => exact ⟨_, ⟨fun _ => hlater.closed hclosed, fun _ => hst, fun _ => hended⟩, hresumed⟩

/-- The main task is interrupted where nothing else is. -/
private theorem ready_interrupted {sh : Shared σ} {t : Task α} (ht : Ready result sh t)
    (hno : ∀ k, t ≠ .waiting .consumer k) : Ready result sh t.interrupted := by
  cases t with
  | fresh p => trivial
  | waiting w k =>
    cases w with
    | consumer => exact absurd rfl (hno k)
    | _ => exact ⟨ht .interrupted, ht .interrupted⟩
  | woken wake k => exact ⟨ht.2, ht.2⟩
  | _ => exact ht

/-- Every move keeps events counted right. -/
theorem Gathers.move (hg : Gathers result r h s) (hprogram : ∀ i, Produces (program i))
    (hm : Move env program s j h₁ s₁) : Gathers result r (h ++ h₁) s₁ := by
  have hsleep {t t' : Task α} {sh : Shared σ} (ht : Ready result sh t) (hw : t.Settles t') :
      Ready result sh t' :=
    ht.woken hw (by rintro wake ⟨⟨ms, hms⟩, -⟩; cases hms)
  cases hm with
  | skip => rwa [List.append_nil]
  | main hturn hgoes hno htask hsh =>
    obtain ⟨htally, hready⟩ := hg.main_turn hturn hgoes
    exact ⟨htally.alike hsh, hsleep (hready.later hsh.later) htask, hg.loops⟩
  | @start _ _ _ _ _ sh _ hturn hgoes hsh =>
    obtain ⟨htally, hready⟩ := hg.main_turn hturn hgoes
    have hnone : sh.Apart { sh with outcomes := [] } := ⟨rfl, rfl, rfl, rfl⟩
    refine ⟨(htally.apart hnone).alike hsh, hready.later (hnone.later.trans hsh.later), ?_⟩
    intro l hl
    obtain ⟨i, -, rfl⟩ := List.mem_map.mp hl
    exact hprogram i
  | loop hloop hturn hgoes hend htask hsh =>
    obtain ⟨htally, hlater, hproducing⟩ := hg.loop_turn hloop hturn hgoes
    exact ⟨htally.alike hsh, hg.main.later (hlater.trans hsh.later),
      producing_withLoop hg.loops (hproducing.woken htask)⟩
  | @loopEnds i _ _ _ _ o sh _ hloop hturn hgoes hsh =>
    obtain ⟨htally, hlater, -⟩ := hg.loop_turn hloop hturn hgoes
    have hended : sh.Apart { sh with
        outcomes := sh.outcomes ++ [(i, o)], next := sh.next ++ [.loopEnded] } :=
      ⟨rfl, rfl, rfl, rfl⟩
    exact ⟨(htally.apart hended).alike hsh,
      hg.main.later (hlater.trans (hended.later.trans hsh.later)),
      producing_withLoop hg.loops trivial⟩
  | @stillborn i _ hloop hsh =>
    have hended : s.shared.Apart { s.shared with
        outcomes := s.shared.outcomes ++ [(i, some .interrupted)]
        next := s.shared.next ++ [.loopEnded] } :=
      ⟨rfl, rfl, rfl, rfl⟩
    obtain ⟨htally, hready⟩ := hg.apart (hended.trans hsh.apart) (List.forall_mem_nil _)
    exact ⟨htally, hready, producing_withLoop hg.loops trivial⟩
  | note hjoined hmain hsh =>
    obtain ⟨htally, hready⟩ := hg.apart hsh.apart (List.forall_mem_nil _)
    refine ⟨htally, hready.woken hmain ?_, hg.loops⟩
    rintro wake ⟨⟨n, hn⟩, -⟩
    cases hn
  | consumer hactive hmain hsh =>
    obtain ⟨htally, hready⟩ := hg.consumer_turn hactive hmain hsh
    exact ⟨htally, hready, hg.loops⟩
  | ticker hactive hmain hsh =>
    obtain ⟨htally, hlater⟩ := hg.tally.tickerTurn env
    refine ⟨htally.alike hsh, (hg.main.later (hlater.trans hsh.later)).woken hmain ?_, hg.loops⟩
    rintro wake ⟨hw, -⟩
    cases hw
  | wakeMain hmain hsh =>
    obtain ⟨htally, hready⟩ := hg.apart hsh.apart (Happening.idle_alarm _)
    exact ⟨htally, hsleep hready hmain, hg.loops⟩
  | stored hmain =>
    have hready := hg.main
    rw [hmain] at hready
    rw [List.append_nil]
    exact ⟨hg.tally, ⟨hready .resumed, hready .interrupted⟩, hg.loops⟩
  | wakeLoop hloop hsh =>
    obtain ⟨htally, hready⟩ := hg.apart hsh.apart (Happening.idle_alarm _)
    exact ⟨htally, hready, producing_withLoop hg.loops (hg.loops _ (mem_of_loop? hloop))⟩
  | idle =>
    obtain ⟨htally, hready⟩ := hg.apart (.refl _) (Happening.idle_alarm _)
    exact ⟨htally, hready, hg.loops⟩
  | @tick phase _ hphase hsh =>
    have htick : s.shared.Apart { s.shared with ticker := { s.shared.ticker with phase } } :=
      ⟨rfl, rfl, rfl, rfl⟩
    obtain ⟨htally, hready⟩ := hg.apart (htick.trans hsh.apart) (Happening.idle_alarm _)
    exact ⟨htally, hready, hg.loops⟩
  | timeout reason =>
    have hcancel : s.shared.Apart (Shared.cancel reason true s.shared).2 := ⟨rfl, rfl, rfl, rfl⟩
    obtain ⟨htally, hready⟩ := hg.apart hcancel (Happening.idle_alarm _)
    exact ⟨htally, hready, hg.loops⟩
  | cancel reason =>
    have hcancel : s.shared.Apart (Shared.cancel reason false s.shared).2 := ⟨rfl, rfl, rfl, rfl⟩
    obtain ⟨htally, hready⟩ := hg.apart hcancel (Happening.idle_alarm _)
    exact ⟨htally, hready, hg.loops⟩
  | interrupt hmain hsh =>
    obtain ⟨htally, hready⟩ := hg.apart hsh.apart (Happening.idle_alarm _)
    refine ⟨htally, ready_interrupted hready fun k hk => ?_, hg.loops⟩
    rcases hmain _ _ hk with ⟨ms, hw⟩ | hw | hw <;> cases hw
  | interruptConsumer hwaiting =>
    have hready := hg.main
    rw [hwaiting] at hready
    obtain ⟨htally, hclosed, -⟩ := hg.tally.stopConsumer hready.1
    refine ⟨htally.append_idle (Happening.idle_alarm _), ?_, hg.loops⟩
    rw [hwaiting]
    exact ⟨hclosed, hready.2⟩
  | interruptTicker hwaiting =>
    obtain ⟨htally, hlater⟩ := hg.tally.stopTicker
    exact ⟨htally.append_idle (Happening.idle_alarm _), hg.main.later hlater, hg.loops⟩
  | interruptLoops hwaiting hsh =>
    obtain ⟨htally, hready⟩ := hg.apart hsh.apart (Happening.idle_alarm _)
    refine ⟨htally, hready, ?_⟩
    intro l hl
    obtain ⟨l', hl', rfl⟩ := List.mem_map.mp hl
    exact (hg.loops l' hl').interrupted

/-- Gathering begins for a record, with an empty queue. The main task and the producers have not had
control yet. -/
def gathering (shared : Shared σ) (capacity : Nat) (r : RunRecord)
    (producers : Nat → Program (Option Failure)) (count : Nat) (p : Program α) : State σ α :=
  { shared := (Shared.startAggregator r { shared with pipeline := { capacity } }).2
    main := .fresh p
    loops := (List.range count).map fun i => (i, .fresh (producers i)) }

theorem distinct_gathering (shared : Shared σ) (capacity : Nat) (r : RunRecord)
    (producers : Nat → Program (Option Failure)) (count : Nat) (p : Program α) :
    (gathering shared capacity r producers count p).Distinct := by
  simpa [Distinct, gathering, Function.comp_def] using List.nodup_range

theorem Gathers.gathering (shared : Shared σ) (capacity : Nat)
    {producers : Nat → Program (Option Failure)}
    (hproducers : ∀ i, Produces (producers i)) (count : Nat) {p : Program α}
    (hp : Follows result {} p) :
    Gathers result r [] (gathering shared capacity r producers count p) := by
  refine ⟨?_, ⟨{}, ⟨nofun, fun _ => rfl, nofun⟩, hp⟩, ?_⟩
  · constructor <;>
      simp [State.gathering, Shared.startAggregator_spec, refused, accepted]
  · intro l hl
    obtain ⟨i, -, rfl⟩ := List.mem_map.mp hl
    exact hproducers i

/-- Events are counted right in every schedule. -/
theorem Gathers.of_reaches {shared : Shared σ} {capacity : Nat}
    {producers : Nat → Program (Option Failure)} (hproducers : ∀ i, Produces (producers i))
    {count : Nat} {p : Program α} (hp : Follows result {} p)
    (hs : Reaches env producers (State.gathering shared capacity r producers count p) h s) :
    Gathers result r h s := by
  refine hs.induction (P := Gathers result r) (distinct_gathering ..)
    (.gathering shared capacity hproducers count hp) ?_ fun hg hm => hg.move hproducers hm
  intro h s clock timers current next hg
  have hpass : s.shared.Apart { s.shared with clock, timers, current, next } := ⟨rfl, rfl, rfl, rfl⟩
  exact ⟨hg.tally.apart hpass, hg.main.later hpass.later, hg.loops⟩

end State

/-! ### Ending the gathering of events -/

/-- How the gathering of events is ended. -/
inductive Closing where
  /-- The end mark is put in, and the consumer is waited for. -/
  | close
  /-- The consumer is told to stop. -/
  | cancel
  deriving DecidableEq

/-- Ends the gathering of events; the reply says whether it has been interrupted. -/
def Closing.program : Closing → Program Wake
  | .close => do
    match ← Whole.closeQueue with
    | .interrupted => return .interrupted
    | .resumed => Whole.waitClosed
  | .cancel => do
    Whole.stopGathering
    return .resumed

/-- Does something, which may produce events, and then ends gathering. -/
def gatherDuring (body : Program Closing) : Program (Closing × Wake) := do
  let closing ← body
  let wake ← closing.program
  return (closing, wake)

/-- What is known when gathering has been ended and not been interrupted. -/
def Closed (K : Known) (a : Closing × Wake) : Prop :=
  a.2 = .resumed → K.gone = true ∧ (a.1 = .close → K.unstopped = true)

theorem follows_closeQueue :
    Follows (fun K _ => K = { closed := true }) {} Whole.closeQueue := by
  refine .close fun wasOpen => ?_
  cases wasOpen with
  | false => exact .done rfl
  | true =>
    refine .offerEnd rfl fun taken => ?_
    cases taken with
    | true => exact .done rfl
    | false =>
      refine .wait (by simp) fun wake => ?_
      cases wake with
      | interrupted => exact .done rfl
      | resumed => exact .offerEnd rfl fun _ => .done rfl

theorem follows_stopTicker (K : Known) : Follows (fun K' _ => K' = K) K Whole.stopTicker :=
  .call trivial fun _ => .wait (by simp) fun _ => .done rfl

theorem follows_waitClosed :
    Follows (fun K wake => wake = .resumed → K = { closed := true, gone := true })
      { closed := true } Whole.waitClosed := by
  refine .await rfl ?_ (.done nofun)
  refine (follows_stopTicker _).bind fun K _ hK => .done fun _ => hK

theorem follows_stopGathering :
    Follows (fun K _ => K = { closed := true, unstopped := false, gone := true }) {}
      Whole.stopGathering :=
  .close fun _ => .stop rfl (.await rfl (follows_stopTicker _) (follows_stopTicker _))

theorem follows_gatherDuring {body : Program Closing} (hbody : Produces body) :
    Follows Closed {} (gatherDuring body) := by
  refine (hbody.follows {}).bind ?_
  rintro _ closing rfl
  cases closing with
  | close =>
    have hclose : Follows (fun K wake => wake = .resumed → K = { closed := true, gone := true }) {}
        Closing.close.program := by
      refine follows_closeQueue.bind ?_
      rintro _ wake rfl
      cases wake with
      | interrupted => exact .done nofun
      | resumed => exact follows_waitClosed
    refine hclose.bind fun K wake hK => .done fun hwake => ?_
    obtain rfl := hK hwake
    exact ⟨rfl, fun _ => rfl⟩
  | cancel =>
    have hcancel : Follows (fun K _ => K = { closed := true, unstopped := false, gone := true }) {}
        Closing.cancel.program :=
      follows_stopGathering.bind fun K _ hK => .done hK
    refine hcancel.bind fun K wake hK => .done fun _ => ?_
    subst hK
    exact ⟨rfl, nofun⟩

/-! ### Conservation -/

/-- The record holds what it held before and then what the events that were taken leave, in order,
and it counts the events that were refused before the last flush. -/
structure Conserved (r : RunRecord) (h : List Happening) (final : RunRecord) : Prop where
  logs : final.logs =
    r.logs ++ ((accepted h).filter fun e => e.type ≠ .step).map RunEvent.toLogEntry
  outputFiles : final.outputFiles = r.outputFiles ++
    ((accepted h).filter fun e => e.type = .outputFile && e.outputFile ≠ "").map (·.outputFile)
  flushed : .flush ∈ h
  dropped : final.droppedEvents = refused (untilFlush h)

theorem filterMap_logOf? (events : List RunEvent) :
    events.filterMap Gathered.logOf? =
      (events.filter fun e => e.type ≠ .step).map RunEvent.toLogEntry := by
  induction events with
  | nil => rfl
  | cons e events ih =>
    by_cases hstep : e.type = .step <;> simp [Gathered.logOf?, hstep] <;> simpa using ih

theorem filterMap_fileOf? (events : List RunEvent) :
    events.filterMap Gathered.fileOf? =
      (events.filter fun e => e.type = .outputFile && e.outputFile ≠ "").map (·.outputFile) := by
  induction events with
  | nil => rfl
  | cons e events ih =>
    by_cases hfile : e.type = .outputFile <;> by_cases hname : e.outputFile = "" <;>
      simp [Gathered.fileOf?, hfile, hname] <;> simpa using ih

/-- What the last flush wrote is what the events that were taken leave. -/
theorem Tally.conserved {r : RunRecord} {h : List Happening} {s : Shared σ} (ht : Tally r h s)
    (hended : s.consumer.phase = .ended) (hturn : .turn ∈ h) :
    Conserved r h (r.withSnapshot s.flushed) := by
  obtain ⟨-, hqueue, hflush, hlogs, hfiles⟩ := ht.ended hended hturn
  have hgathered : s.gathered = (⟨r.logs, r.outputFiles⟩ : Gathered).gather (accepted h) := by
    rw [← ht.gathered, hqueue]
    simp [Gathered.gather]
  refine ⟨?_, ?_, hflush, ht.flushed hflush⟩
  · rw [← filterMap_logOf?]
    exact hlogs.trans (congrArg (·.logs) hgathered)
  · rw [← filterMap_fileOf?]
    exact hfiles.trans (congrArg (·.outputFiles) hgathered)

/-- **No event is lost or kept twice.** In every schedule of producers and of a main task that ends
gathering, uninterrupted, the record is left with what the events that were taken leave; told to
stop, the consumer must have had control before. An event is refused exactly when the queue is
sealed or full. -/
theorem events_conserved (capacity : Nat) (r : RunRecord) (env : Collaborators σ)
    (producers : Nat → Program (Option Failure)) (hproducers : ∀ i, Produces (producers i))
    (count : Nat) (body : Program Closing) (hbody : Produces body) (shared : Shared σ) :
    (∀ (h : List Happening) (s : State σ (Closing × Wake)) (closing : Closing),
      State.Reaches env producers
        (State.gathering shared capacity r producers count (gatherDuring body)) h s →
      s.main = .ended (closing, .resumed) → (closing = .cancel → .turn ∈ h) →
      Conserved r h (r.withSnapshot s.shared.flushed)) ∧
    ∀ (e : RunEvent) (s : Shared σ), (Shared.answer env (.emit e) s).1 = false ↔
      s.pipeline.closed = true ∨
        s.pipeline.capacity ≠ 0 ∧ s.pipeline.capacity ≤ s.pipeline.size := by
  constructor
  · intro h s closing hs hmain hcontrol
    obtain ⟨htally, hready, -⟩ :=
      State.Gathers.of_reaches hproducers (follows_gatherDuring hbody) hs
    rw [hmain] at hready
    obtain ⟨K, hK, hclosed⟩ := hready
    obtain ⟨hgone, hunstopped⟩ := hclosed rfl
    refine htally.conserved (hK.gone hgone) ?_
    cases closing with
    | cancel => exact hcontrol rfl
    | close =>
      -- Closed and waited for, the consumer has ended by itself, and so it has had control.
      refine Classical.byContradiction fun hturn => ?_
      have hstopped := htally.idle (hK.gone hgone) hturn
      rw [hK.unstopped (hunstopped rfl)] at hstopped
      cases hstopped
  · intro e s
    have hfull : s.pipeline.isFull = true ↔
        s.pipeline.capacity ≠ 0 ∧ s.pipeline.capacity ≤ s.pipeline.size := by
      simp [Pipeline.isFull]
    have htaken := Pipeline.emit_taken_iff s.pipeline e
    rw [← (Shared.emit_spec env e s).1] at htaken
    change (Shared.emit env e s).1 = false ↔ _
    rw [← Bool.not_eq_true, htaken, ← hfull]
    cases s.pipeline.closed <;> cases s.pipeline.isFull <;> simp

/-- An event to try the queue with. -/
def sampleEvent (message : String) : RunEvent :=
  { type := .log, timestamp := .ofMillis 0, message }

/-- A producer that offers two events. -/
def offersTwo (i : Nat) : Program (Option Failure) := do
  let _ ← Program.ask (.emit (sampleEvent s!"first of {i}"))
  let _ ← Program.ask (.emit (sampleEvent s!"second of {i}"))
  return none

theorem produces_offersTwo (i : Nat) : Produces (offersTwo i) :=
  (Program.only_ask trivial).bind fun _ => (Program.only_ask trivial).bind fun _ =>
    Program.only_pure none

/-- With room for one event, the second one is refused and closing has to wait for room; what was
taken is kept. -/
theorem events_conserved_in_full_queue : ∃ h s,
    State.Reaches Rehearsal.World.collaborators offersTwo (State.gathering
      (Rehearsal.sampleShared 0) 1 Rehearsal.sampleRecord offersTwo 1
      (gatherDuring (pure .close))) h s ∧
    s.main = .ended (.close, .resumed) ∧
    (accepted h).map (·.message) = ["first of 0"] ∧ refused h = 1 ∧
    Conserved Rehearsal.sampleRecord h (Rehearsal.sampleRecord.withSnapshot s.shared.flushed) := by
  let start := State.gathering (Rehearsal.sampleShared 0) 1 Rehearsal.sampleRecord offersTwo 1
    (gatherDuring (pure .close))
  let jobs : List Job := [.loop 0, .main, .consumer, .main, .consumer, .main, .ticker, .main]
  have hs := State.carryOut_reaches Rehearsal.World.collaborators offersTwo jobs (by decide) start
  obtain ⟨_, hmain, rfl⟩ : ∃ a, (State.carryOut Rehearsal.World.collaborators offersTwo jobs
      start).2.main = .ended a ∧ id a = (.close, .resumed) :=
    Task.exists_ended (by decide +kernel)
  exact ⟨_, _, hs, hmain, by decide +kernel, by decide +kernel,
    (events_conserved 1 Rehearsal.sampleRecord _ offersTwo produces_offersTwo 1 (pure .close)
      (Program.only_pure _) (Rehearsal.sampleShared 0)).1 _ _ _ hs hmain nofun⟩

end Runbook.Schedule
