import Runbook.Proofs.Gathering

/-!
# Snapshots only grow

The ticker and the consumer both write down what has been gathered, at whatever moment their turns
come, and the store may refuse any of it. Still no snapshot takes back what an earlier one showed:
what is gathered only grows, and so does the number of events that are lost.

The argument is that everything but a turn of the consumer or of the ticker leaves what has been
gathered and what has been handed to the store as it is (`Shared.Onward`). A turn of the consumer
appends to what has been gathered, and a flush hands over exactly that. The last turn of the
consumer flushes what will not change any more.

* `Collaborators.noting`: collaborators who note every snapshot they are handed, kept or not.
* `Snapshot.GrowsTo`: one snapshot is a beginning of another.
* `Grown`: the snapshots so far, and what has been gathered, in this order.
* `snapshots_grow`: the result.
-/

namespace Runbook

/-- A snapshot is a beginning of another one, which counts no fewer lost events. -/
structure Snapshot.GrowsTo (x y : Snapshot) : Prop where
  logs : x.logs <+: y.logs
  outputFiles : x.outputFiles <+: y.outputFiles
  dropped : x.dropped ≤ y.dropped

theorem Snapshot.GrowsTo.refl (x : Snapshot) : x.GrowsTo x :=
  ⟨List.prefix_rfl, List.prefix_rfl, Nat.le_refl _⟩

theorem Snapshot.GrowsTo.trans {x y z : Snapshot} (h : x.GrowsTo y) (h' : y.GrowsTo z) :
    x.GrowsTo z :=
  ⟨h.logs.trans h'.logs, h.outputFiles.trans h'.outputFiles, Nat.le_trans h.dropped h'.dropped⟩

/-- What a record holds when gathering begins: nothing has been lost by this gathering yet. -/
def RunRecord.opening (r : RunRecord) : Snapshot := ⟨r.logs, r.outputFiles, 0⟩

namespace Collaborators

variable {σ β : Type}

/-- Lets somebody act who has nothing to do with snapshots. -/
def apart (m : StateM σ β) : StateM (σ × List Snapshot) β :=
  fun o => ((m o.1).1, (m o.1).2, o.2)

/-- Collaborators who do what others do, and note the snapshots that they are handed in order. A
snapshot is noted when it is handed over, also when writing it fails. -/
def noting (env : Collaborators σ) : Collaborators (σ × List Snapshot) where
  page i c := apart (env.page i c)
  screenshot i options := apart (env.screenshot i options)
  upload key data contentType := apart (env.upload key data contentType)
  delete key := apart (env.delete key)
  list beginning := apart (env.list beginning)
  request r := apart (env.request r)
  observe entry := apart (env.observe entry)
  openSession i := apart (env.openSession i)
  closeSession i := apart (env.closeSession i)
  save r := apart (env.save r)
  progress id snapshot now := fun o =>
    let (reply, o') := env.progress id snapshot now o.1
    (reply, o', o.2 ++ [snapshot])
  notify m channels := apart (env.notify m channels)
  log r := apart (env.log r)

end Collaborators

namespace Schedule

variable {σ α : Type}

/-- What tasks share when no snapshot has been handed over yet. -/
def Shared.noting (s : Shared σ) : Shared (σ × List Snapshot) :=
  { s with outside := (s.outside, []) }

/-- The snapshots that have been handed to the store. -/
def Shared.handed (s : Shared (σ × List Snapshot)) : List Snapshot := s.outside.2

/-! ### What leaves snapshots alone -/

/-- Something happens that neither gathers nor flushes, and that neither begins nor ends the
consumer. Events may be lost meanwhile. -/
structure Shared.Onward (s s' : Shared (σ × List Snapshot)) : Prop where
  gathered : s'.gathered = s.gathered
  flushed : s'.flushed = s.flushed
  handed : s'.handed = s.handed
  dropped : s.pipeline.dropped ≤ s'.pipeline.dropped
  fresh : s'.consumer.phase = .fresh ↔ s.consumer.phase = .fresh
  ended : s'.consumer.phase = .ended ↔ s.consumer.phase = .ended

namespace Shared

variable {s s' s₁ : Shared (σ × List Snapshot)}

theorem Onward.refl (s : Shared (σ × List Snapshot)) : s.Onward s :=
  ⟨rfl, rfl, rfl, Nat.le_refl _, .rfl, .rfl⟩

theorem Onward.trans (h : s.Onward s₁) (h' : s₁.Onward s') : s.Onward s' :=
  ⟨h'.gathered.trans h.gathered, h'.flushed.trans h.flushed, h'.handed.trans h.handed,
    Nat.le_trans h.dropped h'.dropped, h'.fresh.trans h.fresh, h'.ended.trans h.ended⟩

theorem onward_of_roused {d consumer : Daemon} (hroused : d.Roused consumer)
    (hd : d.phase = s.consumer.phase) {pipeline : Pipeline}
    (hdropped : s.pipeline.dropped ≤ pipeline.dropped) (next : List Job)
    {outside : σ × List Snapshot} (houtside : outside.2 = s.outside.2) :
    s.Onward { s with pipeline, consumer, next, outside } := by
  have hphase (phase : Phase) (hw : phase ≠ .waiting) (hw' : phase ≠ .woken) :
      consumer.phase = phase ↔ s.consumer.phase = phase :=
    hd ▸ hroused.phase_eq phase hw hw'
  exact ⟨rfl, rfl, houtside, hdropped, hphase _ (by simp) (by simp), hphase _ (by simp) (by simp)⟩

theorem Alike.onward (h : s.Alike s') : s.Onward s' := by
  obtain ⟨-, _, _, _, _, rfl⟩ := h
  exact ⟨rfl, rfl, rfl, Nat.le_refl _, .rfl, .rfl⟩

theorem onward_stopConsumer (s : Shared (σ × List Snapshot)) : s.Onward (stopConsumer s).2 := by
  obtain ⟨consumer, js, heq, -, hconsumer⟩ := stopConsumer_spec s
  rw [heq]
  by_cases hactive : s.consumer.isActive = true
  · rw [if_pos hactive] at hconsumer
    exact onward_of_roused hconsumer rfl (Nat.le_refl _) _ rfl
  · rw [if_neg hactive] at hconsumer
    exact onward_of_roused (.inl hconsumer) rfl (Nat.le_refl _) _ rfl

theorem onward_stopTicker (s : Shared (σ × List Snapshot)) : s.Onward (stopTicker s).2 := by
  obtain ⟨ticker, timers, js, heq, -⟩ := stopTicker_spec s
  rw [heq]
  exact ⟨rfl, rfl, rfl, Nat.le_refl _, .rfl, .rfl⟩

theorem onward_emit (env : Collaborators σ) (e : RunEvent) (s : Shared (σ × List Snapshot)) :
    s.Onward (emit env.noting e s).2 := by
  obtain ⟨-, consumer, js, outside, heq, hroused, -⟩ := emit_spec env.noting e s
  have houtside : (emit env.noting e s).2.outside.2 = s.outside.2 := by
    rcases outside_emit env.noting e s with h | ⟨r, h⟩ <;> rw [h]
    rfl
  rw [heq] at houtside ⊢
  refine onward_of_roused hroused rfl ?_ _ houtside
  cases htaken : (s.pipeline.emit e).2.1 with
  | true => exact Nat.le_of_eq (congrArg (·.dropped) (Pipeline.queue_emit_of_taken _ _ htaken)).symm
  | false =>
    rw [Pipeline.queue_emit_of_not_taken _ _ htaken]
    exact Nat.le_succ _

theorem onward_offerEnd (s : Shared (σ × List Snapshot)) : s.Onward (offerEnd s).2 := by
  obtain ⟨-, consumer, js, heq, hroused, -⟩ := offerEnd_spec s
  rw [heq]
  refine onward_of_roused hroused rfl (Nat.le_of_eq ?_) _ rfl
  unfold Pipeline.offerEnd
  split <;> rfl

/-- No call gathers or flushes, unless it begins to gather anew. -/
theorem onward_answer (env : Collaborators σ) {c : Call} (hc : ∀ r, c ≠ .startAggregator r)
    (s : Shared (σ × List Snapshot)) : s.Onward (answer env.noting c s).2 := by
  cases c with
  | emit e => exact onward_emit env e s
  | offerEnd => exact onward_offerEnd s
  | stopConsumer => exact onward_stopConsumer s
  | stopTicker => exact onward_stopTicker s
  | startAggregator r => exact absurd rfl (hc r)
  | _ => exact ⟨rfl, rfl, rfl, Nat.le_refl _, .rfl, .rfl⟩

end Shared

/-- Whether something that happens begins to gather events. -/
def Happening.begins : Happening → Bool
  | .deed _ (.call (.startAggregator _) _) => true
  | _ => false

/-- Nobody begins to gather anew. -/
def Once (h : List Happening) : Prop := ∀ x ∈ h, x.begins = false

instance (h : List Happening) : Decidable (Once h) :=
  inferInstanceAs (Decidable (∀ x ∈ h, x.begins = false))

theorem once_append_iff {h h' : List Happening} : Once (h ++ h') ↔ Once h ∧ Once h' :=
  List.forall_mem_append

/-- A task that goes on neither gathers nor flushes. -/
theorem GoesOn.onward {env : Collaborators σ} {p : Program α} {t : List Deed} {task : Task α}
    {s s' : Shared (σ × List Snapshot)} (hgoes : GoesOn env.noting p s t task s') (who : Option Nat)
    (honce : Once (t.map (.deed who))) : s.Onward s' := by
  have hcall {c : Call} {reply : c.Reply}
      (h : Happening.begins (.deed who (.call c reply)) = false) (s : Shared (σ × List Snapshot)) :
      s.Onward (Shared.answer env.noting c s).2 := by
    refine Shared.onward_answer env ?_ s
    rintro r rfl
    cases h
  induction hgoes with
  | done | wait | before => exact .refl _
  | call _ ih =>
    obtain ⟨hfirst, hrest⟩ := List.forall_mem_cons.mp honce
    exact (hcall hfirst _).trans (ih hrest)
  | resume _ _ ih => exact ih (List.forall_mem_cons.mp (List.forall_mem_cons.mp honce).2).2
  | after => exact hcall (List.forall_mem_cons.mp honce).1 _

/-! ### What flushes -/

/-- A flush hands over what has been gathered, whether the store keeps it or not. -/
theorem Shared.handed_flush (env : Collaborators σ) (s : Shared (σ × List Snapshot)) :
    (flush env.noting s).2.handed = s.handed ++ [s.gathered.snapshot s.pipeline.dropped] := by
  rw [flush, run_get_bind, run_set_bind, run_outsideDo_bind]
  rcases hreply : (env.noting.progress s.runId (s.gathered.snapshot s.pipeline.dropped) s.clock
    s.outside).1 with f | _ <;> rfl

/-- The snapshots that have been handed over grow, each from the one before it and the first from
what the record held at the beginning; what has been gathered goes on from all of them, and the
record shows the last one. -/
structure Grown (r : RunRecord) (s : Shared (σ × List Snapshot)) : Prop where
  chain : (r.opening :: s.handed).Pairwise Snapshot.GrowsTo
  covered : ∀ x ∈ r.opening :: s.handed, x.GrowsTo (s.gathered.snapshot s.pipeline.dropped)
  last : s.handed.getLast?.getD r.snapshot = s.flushed

/-- A consumer that has not had control has gathered nothing. One that has had control and has ended
has flushed all that it had gathered. -/
structure Complete (h : List Happening) (s : Shared (σ × List Snapshot)) : Prop where
  unborn : s.consumer.phase = .fresh → .turn ∉ h
  ended : s.consumer.phase = .ended → .turn ∈ h → s.handed ≠ [] ∧
    s.flushed.logs = s.gathered.logs ∧ s.flushed.outputFiles = s.gathered.outputFiles

section Grown

variable {r : RunRecord} {h h' : List Happening} {s s' : Shared (σ × List Snapshot)}

theorem Grown.onward (hg : Grown r s) (hs : s.Onward s') : Grown r s' := by
  refine ⟨by rw [hs.handed]; exact hg.chain, fun x hx => ?_, ?_⟩
  · rw [hs.handed] at hx
    rw [hs.gathered]
    exact (hg.covered x hx).trans ⟨List.prefix_rfl, List.prefix_rfl, hs.dropped⟩
  · rw [hs.handed, hs.flushed]
    exact hg.last

theorem Complete.onward (hc : Complete h s) (hs : s.Onward s') (hturn : .turn ∉ h') :
    Complete (h ++ h') s' := by
  have hiff : .turn ∈ h ++ h' ↔ .turn ∈ h := by simp [hturn]
  refine ⟨fun hphase => ?_, fun hphase hm => ?_⟩
  · rw [hiff]
    exact hc.unborn (hs.fresh.mp hphase)
  · rw [hs.handed, hs.flushed, hs.gathered]
    exact hc.ended (hs.ended.mp hphase) (hiff.mp hm)

/-- More is gathered. -/
theorem Grown.gather (hg : Grown r s) (events : List RunEvent)
    (hgathered : s'.gathered = s.gathered.gather events)
    (hdropped : s'.pipeline.dropped = s.pipeline.dropped) (hhanded : s'.handed = s.handed)
    (hflushed : s'.flushed = s.flushed) : Grown r s' := by
  have hmore : (s.gathered.snapshot s.pipeline.dropped).GrowsTo
      (s'.gathered.snapshot s'.pipeline.dropped) := by
    rw [hgathered, hdropped]
    exact ⟨List.prefix_append _ _, List.prefix_append _ _, Nat.le_refl _⟩
  refine ⟨by rw [hhanded]; exact hg.chain, fun x hx => ?_, by rw [hhanded, hflushed]; exact hg.last⟩
  rw [hhanded] at hx
  exact (hg.covered x hx).trans hmore

/-- What has been gathered is flushed. -/
theorem Grown.flush (hg : Grown r s) (hgathered : s'.gathered = s.gathered)
    (hdropped : s'.pipeline.dropped = s.pipeline.dropped)
    (hhanded : s'.handed = s.handed ++ [s.gathered.snapshot s.pipeline.dropped])
    (hflushed : s'.flushed = s.gathered.snapshot s.pipeline.dropped) : Grown r s' := by
  refine ⟨?_, fun x hx => ?_, ?_⟩
  · rw [hhanded, ← List.cons_append]
    refine List.pairwise_append.mpr ⟨hg.chain, List.pairwise_singleton _ _, fun x hx y hy => ?_⟩
    rw [List.mem_singleton.mp hy]
    exact hg.covered x hx
  · rw [hgathered, hdropped]
    rw [hhanded, ← List.cons_append] at hx
    rcases List.mem_append.mp hx with hx | hx
    · exact hg.covered x hx
    · rw [List.mem_singleton.mp hx]
      exact .refl _
  · rw [hhanded, hflushed, List.getLast?_append]
    rfl

/-- The consumer gathers what is in the queue, and flushes it when it ends. -/
theorem Grown.consumerTurn (hg : Grown r s) (hc : Complete h s) (env : Collaborators σ) :
    Grown r (Shared.consumerTurn env.noting s).2 ∧
      Complete (h ++ consumerHistory s) (Shared.consumerTurn env.noting s).2 := by
  by_cases hunborn : s.consumer.stopped = true ∧ s.consumer.phase = .fresh
  · obtain ⟨hstopped, hfresh⟩ := hunborn
    rw [Shared.consumerTurn_of_unborn env.noting hstopped hfresh, consumerHistory,
      if_pos (by simp [hstopped, hfresh]), List.append_nil]
    refine ⟨⟨hg.chain, hg.covered, hg.last⟩, ?_, fun _ hm => absurd hm (hc.unborn hfresh)⟩
    rintro ⟨⟩
  · have hborn : ¬ (s.consumer.stopped && decide (s.consumer.phase = .fresh)) = true := by
      simpa using hunborn
    by_cases hends : s.pipeline.marked = true ∨ s.consumer.stopped = true
    · obtain ⟨outside, heq⟩ := Shared.consumerTurn_of_ending env.noting hunborn hends
      have hhanded : (Shared.consumerTurn env.noting s).2.handed = s.handed ++
          [(s.gathered.gather s.pipeline.queue).snapshot s.pipeline.dropped] :=
        (congrArg Prod.snd (Shared.outside_consumerTurn_of_ending env.noting hunborn hends)).trans
          (Shared.handed_flush env _)
      have hgathered : Grown r (Shared.gatherAll s).2 :=
        hg.gather s.pipeline.queue rfl rfl rfl rfl
      rw [heq] at hhanded ⊢
      refine ⟨hgathered.flush rfl rfl hhanded rfl, ?_, fun _ _ => ⟨?_, rfl, rfl⟩⟩
      · rintro ⟨⟩
      · rw [hhanded]
        simp
    · rw [not_or, Bool.not_eq_true, Bool.not_eq_true] at hends
      rw [Shared.consumerTurn_of_waiting env.noting hends.1 hends.2]
      refine ⟨hg.gather s.pipeline.queue rfl rfl rfl rfl, ?_, ?_⟩ <;> rintro ⟨⟩

/-- The ticker flushes what has been gathered so far, or only waits. -/
theorem Grown.tickerTurn (hg : Grown r s) (hc : Complete h s) (env : Collaborators σ) :
    Grown r (Shared.tickerTurn env.noting s).2 ∧
      Complete (h ++ tickerHistory s) (Shared.tickerTurn env.noting s).2 := by
  cases hstopped : s.ticker.stopped with
  | true =>
    rw [Shared.tickerTurn_of_stopped env.noting hstopped, tickerHistory,
      if_neg (by simp [hstopped]), List.append_nil]
    exact ⟨⟨hg.chain, hg.covered, hg.last⟩, hc.unborn, hc.ended⟩
  | false =>
    obtain ⟨timers, outside, heq⟩ := Shared.tickerTurn_of_going env.noting hstopped
    have hturn : .turn ∈ h ++ tickerHistory s ↔ .turn ∈ h := by
      unfold tickerHistory
      split <;> simp
    by_cases hwoken : s.ticker.phase = .woken
    · have hhanded : (Shared.tickerTurn env.noting s).2.handed = s.handed ++
          [s.gathered.snapshot s.pipeline.dropped] :=
        (congrArg Prod.snd ((Shared.outside_tickerTurn_of_going env.noting hstopped).trans
          (if_pos hwoken))).trans (Shared.handed_flush env s)
      rw [heq, if_pos hwoken] at hhanded ⊢
      refine ⟨hg.flush rfl rfl hhanded rfl, fun hphase => ?_, fun _ _ => ⟨?_, rfl, rfl⟩⟩
      · rw [hturn]
        exact hc.unborn hphase
      · rw [hhanded]
        simp
    · have hhanded : (Shared.tickerTurn env.noting s).2.handed = s.handed :=
        congrArg Prod.snd ((Shared.outside_tickerTurn_of_going env.noting hstopped).trans
          (if_neg hwoken))
      have honward : s.Onward (Shared.tickerTurn env.noting s).2 := by
        rw [heq, if_neg hwoken] at hhanded ⊢
        exact ⟨rfl, rfl, hhanded, Nat.le_refl _, .rfl, .rfl⟩
      exact ⟨hg.onward honward, hc.onward honward (by simp [tickerHistory, hwoken])⟩

end Grown

/-! ### Schedules -/

namespace State

variable {env : Collaborators σ} {program : Nat → Program (Option Failure)} {r : RunRecord}
  {h h' : List Happening} {s s' : State (σ × List Snapshot) α} {j : Job}

/-- A task whose turn it is neither gathers nor flushes. -/
private theorem onward_turn {β : Type} {first t : List Deed} {p : Program β} {task : Task β}
    {sh sh' : Shared (σ × List Snapshot)} {who : Option Nat}
    (hgoes : GoesOn env.noting p s.shared t task sh) (hsh : sh.Onward sh')
    (honce : Once ((first ++ t).map (.deed who))) :
    s.shared.Onward sh' ∧ .turn ∉ (first ++ t).map (Happening.deed who) := by
  rw [List.map_append, once_append_iff] at honce
  exact ⟨(hgoes.onward who honce.2).trans hsh, by simp⟩

/-- Every move but the turns of the consumer and of the ticker leaves snapshots alone. -/
theorem Move.onward_or_turn (hm : Move env.noting program s j h' s') (honce : Once h') :
    (s.shared.Onward s'.shared ∧ .turn ∉ h') ∨
    (s.shared.consumer.isActive = true ∧ h' = consumerHistory s.shared ∧
      (Shared.consumerTurn env.noting s.shared).2.Onward s'.shared) ∨
    h' = tickerHistory s.shared ∧
      (Shared.tickerTurn env.noting s.shared).2.Onward s'.shared := by
  cases hm with
  | skip | idle | stored => exact .inl ⟨.refl _, by simp⟩
  | main hturn hgoes hno htask hsh => exact .inl (onward_turn hgoes hsh.onward honce)
  | loop hloop hturn hgoes hend htask hsh => exact .inl (onward_turn hgoes hsh.onward honce)
  | @start _ _ _ _ _ sh _ hturn hgoes hsh =>
    have hnone : sh.Onward { sh with outcomes := [] } :=
      ⟨rfl, rfl, rfl, Nat.le_refl _, .rfl, .rfl⟩
    exact .inl (onward_turn hgoes (hnone.trans hsh.onward) honce)
  | @loopEnds i _ _ _ _ o sh _ hloop hturn hgoes hsh =>
    have hended : sh.Onward { sh with
        outcomes := sh.outcomes ++ [(i, o)], next := sh.next ++ [.loopEnded] } :=
      ⟨rfl, rfl, rfl, Nat.le_refl _, .rfl, .rfl⟩
    exact .inl (onward_turn hgoes (hended.trans hsh.onward) honce)
  | @stillborn i _ hloop hsh =>
    have hended : s.shared.Onward { s.shared with
        outcomes := s.shared.outcomes ++ [(i, some .interrupted)]
        next := s.shared.next ++ [.loopEnded] } :=
      ⟨rfl, rfl, rfl, Nat.le_refl _, .rfl, .rfl⟩
    exact .inl ⟨hended.trans hsh.onward, by simp⟩
  | consumer hactive hmain hsh => exact .inr (.inl ⟨hactive, rfl, hsh.onward⟩)
  | ticker hactive hmain hsh => exact .inr (.inr ⟨rfl, hsh.onward⟩)
  | note _ _ hsh | wakeMain _ hsh | wakeLoop _ hsh | interrupt _ hsh | interruptLoops _ hsh =>
    exact .inl ⟨hsh.onward, by simp⟩
  | @tick phase _ hphase hsh =>
    have htick : s.shared.Onward { s.shared with ticker := { s.shared.ticker with phase } } :=
      ⟨rfl, rfl, rfl, Nat.le_refl _, .rfl, .rfl⟩
    exact .inl ⟨htick.trans hsh.onward, by simp⟩
  | timeout reason | cancel reason =>
    exact .inl ⟨⟨rfl, rfl, rfl, Nat.le_refl _, .rfl, .rfl⟩, by simp⟩
  | interruptConsumer => exact .inl ⟨Shared.onward_stopConsumer _, by simp⟩
  | interruptTicker => exact .inl ⟨Shared.onward_stopTicker _, by simp⟩

/-- Every move lets snapshots grow, and none gathers more once the consumer has ended. -/
theorem Move.grown (hm : Move env.noting program s j h' s') (honce : Once h')
    (hg : Grown r s.shared) (hc : Complete h s.shared) :
    Grown r s'.shared ∧ Complete (h ++ h') s'.shared ∧ (s.shared.consumer.phase = .ended →
      s'.shared.consumer.phase = .ended ∧ s'.shared.gathered = s.shared.gathered) := by
  have hnot {t : Shared (σ × List Snapshot)} (ht : t.Onward s'.shared) {g : List Happening}
      (hcomplete : Complete g t) : Complete g s'.shared := by
    have hnext : Complete (g ++ []) s'.shared := hcomplete.onward ht List.not_mem_nil
    rwa [List.append_nil] at hnext
  obtain ⟨hs, hturn⟩ | ⟨hactive, rfl, hs⟩ | ⟨rfl, hs⟩ := hm.onward_or_turn honce
  · exact ⟨hg.onward hs, hc.onward hs hturn, fun hphase => ⟨hs.ended.mpr hphase, hs.gathered⟩⟩
  · obtain ⟨hgrown, hcomplete⟩ := hg.consumerTurn hc env
    refine ⟨hgrown.onward hs, hnot hs hcomplete, fun hphase => ?_⟩
    simp [Daemon.isActive, hphase] at hactive
  · obtain ⟨hgrown, hcomplete⟩ := hg.tickerTurn hc env
    refine ⟨hgrown.onward hs, hnot hs hcomplete, fun hphase => ?_⟩
    rw [hs.ended, hs.gathered]
    obtain ⟨_, _, _, _, heq⟩ := Shared.tickerTurn_spec env.noting s.shared
    rw [heq]
    exact ⟨hphase, rfl⟩

/-- Snapshots grow in every schedule, and what has been gathered when the consumer has ended stays
as it is. -/
theorem Grown.of_reaches (hs : Reaches env.noting program s h' s') (hd : s.Distinct)
    (honce : Once h') (hg : Grown r s.shared) (hc : Complete h s.shared) :
    Grown r s'.shared ∧ Complete (h ++ h') s'.shared ∧ (s.shared.consumer.phase = .ended →
      s'.shared.consumer.phase = .ended ∧ s'.shared.gathered = s.shared.gathered) := by
  refine hs.induction (P := fun h' s' => Once h' → Grown r s'.shared ∧
    Complete (h ++ h') s'.shared ∧ (s.shared.consumer.phase = .ended →
      s'.shared.consumer.phase = .ended ∧ s'.shared.gathered = s.shared.gathered))
    hd ?_ ?_ ?_ honce
  · exact fun _ => ⟨hg, by simpa using hc, fun hphase => ⟨hphase, rfl⟩⟩
  · intro h' s' clock timers current next hp honce
    obtain ⟨hg, hc, hended⟩ := hp honce
    exact ⟨⟨hg.chain, hg.covered, hg.last⟩, ⟨hc.unborn, hc.ended⟩, hended⟩
  · intro h' s' j h₁ s₁ hp hm honce
    obtain ⟨honce, honce₁⟩ := once_append_iff.mp honce
    obtain ⟨hg, hc, hended⟩ := hp honce
    obtain ⟨hg₁, hc₁, hended₁⟩ := hm.grown honce₁ hg hc
    refine ⟨hg₁, by simpa using hc₁, fun hphase => ?_⟩
    obtain ⟨hphase, hgathered⟩ := hended hphase
    obtain ⟨hphase₁, hgathered₁⟩ := hended₁ hphase
    exact ⟨hphase₁, hgathered₁.trans hgathered⟩

end State

/-! ### The result -/

/-- **Snapshots only grow.** In every schedule of producers and of a main task, whatever they do but
begin to gather anew, and whichever writes of the store fail: each snapshot that is handed to the
store goes on from the one before it, and the record always shows the last one. Once the consumer
has had control and has ended, the last snapshot holds all that has been gathered, and the record
keeps just that. -/
theorem snapshots_grow (capacity : Nat) (r : RunRecord) (env : Collaborators σ)
    (producers : Nat → Program (Option Failure)) (count : Nat) (p : Program α)
    (shared : Shared σ) {h : List Happening} {s : State (σ × List Snapshot) α}
    (hs : State.Reaches env.noting producers
      (State.gathering shared.noting capacity r producers count p) h s) (honce : Once h) :
    s.shared.handed.Pairwise Snapshot.GrowsTo ∧
    (∀ x ∈ s.shared.handed, r.opening.GrowsTo x) ∧
    s.shared.handed.getLast?.getD r.snapshot = s.shared.flushed ∧
    (s.shared.consumer.phase = .ended → .turn ∈ h →
      ∃ last, s.shared.handed.getLast? = some last ∧
        last.logs = s.shared.gathered.logs ∧ last.outputFiles = s.shared.gathered.outputFiles ∧
        ∀ h' s', State.Reaches env.noting producers s h' s' → Once h' →
          (r.withSnapshot s'.shared.flushed).logs = last.logs ∧
          (r.withSnapshot s'.shared.flushed).outputFiles = last.outputFiles) := by
  have hdistinct := State.distinct_gathering shared.noting capacity r producers count p
  have hgrown : Grown r (State.gathering shared.noting capacity r producers count p).shared := by
    refine ⟨List.pairwise_singleton _ _, fun x hx => ?_, rfl⟩
    rw [List.mem_singleton.mp hx]
    exact .refl _
  have hcomplete :
      Complete [] (State.gathering shared.noting capacity r producers count p).shared :=
    ⟨fun _ => List.not_mem_nil, nofun⟩
  obtain ⟨hg, hc, -⟩ := State.Grown.of_reaches hs hdistinct honce hgrown hcomplete
  obtain ⟨hfirst, hchain⟩ := List.pairwise_cons.mp hg.chain
  refine ⟨hchain, hfirst, hg.last, fun hphase hturn => ?_⟩
  obtain ⟨hsome, hlogs, hfiles⟩ := hc.ended hphase hturn
  obtain ⟨last, hlast⟩ := Option.isSome_iff_exists.mp (List.getLast?_isSome.mpr hsome)
  have hflushed : last = s.shared.flushed := by simpa [hlast] using hg.last
  refine ⟨last, hlast, hflushed ▸ hlogs, hflushed ▸ hfiles, fun h' s' hs' honce' => ?_⟩
  -- What comes later is flushed from the same that has been gathered.
  obtain ⟨-, hc', hended⟩ := State.Grown.of_reaches hs' (hs.distinct hdistinct) honce' hg hc
  obtain ⟨hphase', hgathered⟩ := hended hphase
  obtain ⟨-, hlogs', hfiles'⟩ := hc'.ended hphase' (List.mem_append_left _ hturn)
  rw [hflushed]
  exact ⟨hlogs'.trans (hgathered ▸ hlogs.symm), hfiles'.trans (hgathered ▸ hfiles.symm)⟩

/-- A producer that takes its time between two events. -/
def offersSlowly (i : Nat) : Program (Option Failure) := do
  let _ ← Program.ask (.emit (sampleEvent s!"first of {i}"))
  let _ ← Program.await (.sleep 1)
  let _ ← Program.ask (.emit (sampleEvent s!"second of {i}"))
  return none

/-- A store that refuses a snapshot with one entry. -/
def fickle : Collaborators Rehearsal.World :=
  { Rehearsal.World.collaborators with
    progress := fun _ snapshot _ => do
      if snapshot.logs.length = 1 then return .error ⟨.runtime, "disk full"⟩
      return .ok () }

/-- The ticker flushes between two events and again after the second one, both times before the
consumer has come to it, and the store refuses both; only the last flush shows the second event. -/
theorem snapshots_grow_despite_refusals : ∃ h s,
    State.Reaches fickle.noting offersSlowly (State.gathering (Rehearsal.sampleShared 0).noting 0
      Rehearsal.sampleRecord offersSlowly 1 (gatherDuring (pure .close))) h s ∧ Once h ∧
    s.shared.consumer.phase = .ended ∧ .turn ∈ h ∧
    s.shared.handed.map (·.logs.length) = [1, 1, 2] ∧
    s.shared.handed.Pairwise Snapshot.GrowsTo ∧
    ∃ last, s.shared.handed.getLast? = some last ∧
      (Rehearsal.sampleRecord.withSnapshot s.shared.flushed).logs = last.logs := by
  let start := State.gathering (Rehearsal.sampleShared 0).noting 0 Rehearsal.sampleRecord
    offersSlowly 1 (gatherDuring (pure .close))
  let jobs : List Job := [.loop 0, .ticker, .consumer, .alarm .tick, .ticker,
    .alarm (.wakeLoop 0), .loop 0, .alarm .tick, .ticker, .main, .consumer]
  have hs := State.carryOut_reaches fickle.noting offersSlowly jobs (by decide) start
  have honce : Once (State.carryOut fickle.noting offersSlowly jobs start).1 := by decide +kernel
  have hended : (State.carryOut fickle.noting offersSlowly jobs start).2.shared.consumer.phase =
      .ended := by decide +kernel
  have hturn : .turn ∈ (State.carryOut fickle.noting offersSlowly jobs start).1 := by
    refine List.mem_of_getElem? (i := 2) ?_
    rfl
  obtain ⟨hgrow, -, -, hlast⟩ := snapshots_grow 0 Rehearsal.sampleRecord fickle offersSlowly 1
    (gatherDuring (pure .close)) (Rehearsal.sampleShared 0) hs honce
  obtain ⟨last, hsome, -, -, hrecord⟩ := hlast hended hturn
  exact ⟨_, _, hs, honce, hended, hturn, by decide +kernel, hgrow, last, hsome,
    (hrecord [] _ (.refl _) (by decide)).1⟩

end Schedule

end Runbook
