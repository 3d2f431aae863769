import Runbook.Proofs.Paths

/-!
# Watching what is shared

Some of what tasks share is changed by their calls alone: the shared variables, and whatever of the
world outside does not depend on the log and on the record. What it is at any moment follows from
the calls until then, in whatever order the tasks made them, and a reply that depends on nothing
else does, too.

* `Watch`: something to watch, and how a call changes it.
* `State.Reaches.watched`: at the end of a schedule it is what the history says, and every call has
  been answered accordingly.
* `globalsWatch`: the shared variables.
-/

namespace Runbook.Schedule

variable {σ α β : Type}

/-- Something that can be read off the shared variables and the world outside, and that only calls
change. -/
structure Watch (env : Collaborators σ) (β : Type) where
  look : Fields → σ → β
  /-- What a call with its reply makes of it. -/
  after : β → (c : Call) → c.Reply → β
  answer (c : Call) (s : Shared σ) :
    look (Shared.answer env c s).2.globals (Shared.answer env c s).2.outside =
      after (look s.globals s.outside) c (Shared.answer env c s).1
  log (globals : Fields) (r : LogRecord) (o : σ) : look globals (env.log r o).2 = look globals o
  progress (globals : Fields) (id : String) (snapshot : Snapshot) (now : Rat) (o : σ) :
    look globals (env.progress id snapshot now o).2 = look globals o

namespace Watch

variable {env : Collaborators σ} (W : Watch env β)

/-- What is seen of what tasks share. -/
def see (s : Shared σ) : β := W.look s.globals s.outside

/-- What happens changes what is seen. -/
def next (b : β) : Happening → β
  | .deed _ (.call c reply) => W.after b c reply
  | _ => b

/-- What is seen after a history. -/
def through (b : β) (h : List Happening) : β := h.foldl W.next b

theorem through_append (b : β) (h h' : List Happening) :
    W.through b (h ++ h') = W.through (W.through b h) h' :=
  List.foldl_append

/-! ### Turns of the daemons -/

theorem look_flush (globals : Fields) (s : Shared σ) :
    W.look globals (Shared.flush env s).2.outside = W.look globals s.outside := by
  have hprogress := W.progress globals s.runId (s.gathered.snapshot s.pipeline.dropped) s.clock
    s.outside
  rw [Shared.flush, run_get_bind, run_set_bind, Shared.run_outsideDo_bind]
  cases (env.progress s.runId (s.gathered.snapshot s.pipeline.dropped) s.clock s.outside).1 with
  | ok => exact hprogress
  | error f => exact (W.log ..).trans hprogress

theorem see_consumerTurn (s : Shared σ) : W.see (Shared.consumerTurn env s).2 = W.see s := by
  have hglobals : (Shared.consumerTurn env s).2.globals = s.globals := by
    obtain ⟨_, _, _, _, _, heq⟩ := Shared.consumerTurn_spec env s
    rw [heq]
  by_cases hunborn : s.consumer.stopped = true ∧ s.consumer.phase = .fresh
  · rw [Shared.consumerTurn_of_unborn env hunborn.1 hunborn.2]
    rfl
  · by_cases hends : s.pipeline.marked = true ∨ s.consumer.stopped = true
    · rw [see, hglobals, Shared.outside_consumerTurn_of_ending env hunborn hends, W.look_flush]
      rfl
    · rw [not_or, Bool.not_eq_true, Bool.not_eq_true] at hends
      rw [Shared.consumerTurn_of_waiting env hends.1 hends.2]
      rfl

theorem see_tickerTurn (s : Shared σ) : W.see (Shared.tickerTurn env s).2 = W.see s := by
  have hglobals : (Shared.tickerTurn env s).2.globals = s.globals := by
    obtain ⟨_, _, _, _, heq⟩ := Shared.tickerTurn_spec env s
    rw [heq]
  cases hstopped : s.ticker.stopped with
  | true =>
    rw [Shared.tickerTurn_of_stopped env hstopped]
    rfl
  | false =>
    rw [see, hglobals]
    rw [Shared.outside_tickerTurn_of_going env hstopped]
    split
    · exact W.look_flush s.globals s
    · rfl

theorem see_stopConsumer (s : Shared σ) : W.see (Shared.stopConsumer s).2 = W.see s := by
  obtain ⟨consumer, js, heq, -⟩ := Shared.stopConsumer_spec s
  rw [heq]
  rfl

theorem see_stopTicker (s : Shared σ) : W.see (Shared.stopTicker s).2 = W.see s := by
  obtain ⟨ticker, timers, js, heq, -⟩ := Shared.stopTicker_spec s
  rw [heq]
  rfl

end Watch

/-! ### What a history says -/

/-- What is seen is what the history makes of it, and every call has been answered by somebody who
saw what the history until then makes of it. -/
structure Watched {env : Collaborators σ} (W : Watch env β) (b : β) (h : List Happening)
    (s : Shared σ) : Prop where
  now : W.see s = W.through b h
  found {h₁ h₂ : List Happening} {who : Option Nat} {c : Call} {reply : c.Reply} :
    h = h₁ ++ .deed who (.call c reply) :: h₂ →
      ∃ s', W.see s' = W.through b h₁ ∧ reply = (Shared.answer env c s').1

namespace Watched

variable {env : Collaborators σ} {W : Watch env β} {b : β} {h h' : List Happening}
  {s s' : Shared σ}

theorem start (W : Watch env β) (s : Shared σ) : Watched W (W.see s) [] s := by
  refine ⟨rfl, fun {h₁ h₂ who c reply} hsplit => ?_⟩
  cases h₁ <;> cases hsplit

theorem same (hw : Watched W b h s) (hs : W.see s' = W.see s) : Watched W b h s' :=
  ⟨hs.trans hw.now, hw.found⟩

/-- One more thing happens. -/
theorem snoc (hw : Watched W b h s) {x : Happening} (hs : W.see s' = W.next (W.see s) x)
    (hx : ∀ who c reply, x = .deed who (.call c reply) → reply = (Shared.answer env c s).1) :
    Watched W b (h ++ [x]) s' := by
  refine ⟨?_, fun {h₁ h₂ who c reply} hsplit => ?_⟩
  · rw [W.through_append, ← hw.now]
    exact hs
  · rcases List.eq_nil_or_concat h₂ with rfl | ⟨h₂, y, rfl⟩
    · obtain ⟨rfl, hxs⟩ := List.append_inj' hsplit rfl
      exact ⟨s, hw.now, hx who c reply (List.head_eq_of_cons_eq hxs)⟩
    · have hends : h ++ [x] = (h₁ ++ .deed who (.call c reply) :: h₂) ++ [y] := by
        simpa using hsplit
      exact hw.found (List.append_inj' hends rfl).1

/-- What is no call changes nothing. -/
theorem append (hw : Watched W b h s)
    (hno : ∀ x ∈ h', ∀ who c reply, x ≠ .deed who (.call c reply)) : Watched W b (h ++ h') s := by
  induction h' generalizing h with
  | nil => rwa [List.append_nil]
  | cons x h' ih =>
    have hnext : W.see s = W.next (W.see s) x := by
      rcases x with ⟨who, ⟨c, reply⟩ | w | wake⟩ | _ | _ | a
      · exact absurd rfl (hno _ List.mem_cons_self who c reply)
      all_goals rfl
    have hx := hw.snoc hnext fun who c reply heq =>
      absurd heq (hno x List.mem_cons_self who c reply)
    rw [List.append_cons]
    exact ih hx fun y hy => hno y (List.mem_cons_of_mem _ hy)

/-- What no task does changes nothing. -/
theorem append_idle (hw : Watched W b h s) (hidle : ∀ who, deedsOf who h' = []) :
    Watched W b (h ++ h') s := by
  refine hw.append fun x hx who c reply heq => ?_
  have hm : .call c reply ∈ deedsOf who h' := by
    rw [deedsOf, List.mem_filterMap]
    exact ⟨x, hx, by simp [heq]⟩
  rw [hidle] at hm
  cases hm

/-- A call is answered, and changes what is seen. -/
theorem call (c : Call) (who : Option Nat) (hw : Watched W b h s) :
    Watched W b (h ++ [.deed who (.call c (Shared.answer env c s).1)])
      (Shared.answer env c s).2 := by
  refine hw.snoc (W.answer c s) ?_
  rintro who' c' reply heq
  cases heq
  rfl

/-- A task whose turn it is changes what is seen by its calls. -/
theorem turn {was task : Task α} {first t : List Deed} {p : Program α} (hw : Watched W b h s)
    (hturn : was.turn? = some (first, p)) (hgoes : GoesOn env p s t task s') (who : Option Nat) :
    Watched W b (h ++ (first ++ t).map (.deed who)) s' :=
  hgoes.keeps_turn hturn (fun c hw => hw.call c who) (fun _ hw => hw.append (by simp))
    (fun _ hw => hw.append (by simp)) hw

end Watched

namespace State

variable {env : Collaborators σ} {program : Nat → Program (Option Failure)}

theorem Move.watched {W : Watch env β} {b : β} {s s' : State σ α} {j : Job}
    {h h' : List Happening} (hm : Move env program s j h' s') (hw : Watched W b h s.shared) :
    Watched W b (h ++ h') s'.shared := by
  have halarm (a : Alarm) : Watched W b (h ++ [.alarm a]) s.shared := hw.append (by simp)
  cases hm with
  | main hturn hgoes hloops htask hsh =>
    obtain ⟨-, _, _, _, _, rfl⟩ := hsh
    exact (hw.turn hturn hgoes none).same rfl
  | start hturn hgoes hsh =>
    obtain ⟨-, _, _, _, _, rfl⟩ := hsh
    exact (hw.turn hturn hgoes none).same rfl
  | @loop i _ _ _ _ _ _ _ _ hloop hturn hgoes hend htask hsh =>
    obtain ⟨-, _, _, _, _, rfl⟩ := hsh
    exact (hw.turn hturn hgoes (some i)).same rfl
  | @loopEnds i _ _ _ _ _ _ _ hloop hturn hgoes hsh =>
    obtain ⟨-, _, _, _, _, rfl⟩ := hsh
    exact (hw.turn hturn hgoes (some i)).same rfl
  | stored => rwa [List.append_nil]
  | skip => rwa [List.append_nil]
  | stillborn hloop hsh =>
    obtain ⟨-, _, _, _, _, rfl⟩ := hsh
    rw [List.append_nil]
    exact hw.same rfl
  | note hjoined hmain hsh =>
    obtain ⟨-, _, _, _, _, rfl⟩ := hsh
    rw [List.append_nil]
    exact hw.same rfl
  | consumer hactive hmain hsh =>
    obtain ⟨-, _, _, _, _, rfl⟩ := hsh
    exact (hw.append_idle (by simp)).same (W.see_consumerTurn s.shared)
  | ticker hactive hmain hsh =>
    obtain ⟨-, _, _, _, _, rfl⟩ := hsh
    exact (hw.append_idle (by simp)).same (W.see_tickerTurn s.shared)
  | wakeMain hmain hsh =>
    obtain ⟨-, _, _, _, _, rfl⟩ := hsh
    exact (halarm _).same rfl
  | wakeLoop hloop hsh =>
    obtain ⟨-, _, _, _, _, rfl⟩ := hsh
    exact (halarm _).same rfl
  | idle => exact halarm _
  | tick hphase hsh =>
    obtain ⟨-, _, _, _, _, rfl⟩ := hsh
    exact (halarm _).same rfl
  | timeout => exact (halarm _).same rfl
  | cancel => exact (halarm _).same rfl
  | interrupt hmain hsh =>
    obtain ⟨-, _, _, _, _, rfl⟩ := hsh
    exact (halarm _).same rfl
  | interruptConsumer => exact (halarm _).same (W.see_stopConsumer s.shared)
  | interruptTicker => exact (halarm _).same (W.see_stopTicker s.shared)
  | interruptLoops hmain hsh =>
    obtain ⟨-, _, _, _, _, rfl⟩ := hsh
    exact (halarm _).same rfl

/-- At the end of every schedule what is watched is what the history says. -/
theorem Reaches.watched (W : Watch env β) {s s' : State σ α} {h : List Happening}
    (hs : Reaches env program s h s') (hd : s.Distinct) :
    Watched W (W.see s.shared) h s'.shared := by
  refine hs.induction (P := fun h s' => Watched W (W.see s.shared) h s'.shared) hd (.start W _)
    ?_ ?_
  · intro h s' _ _ _ _ hw
    exact hw.same rfl
  · intro h s' j h₁ s₁ hw hm
    exact hm.watched hw

end State

/-! ### The shared variables -/

/-- What a call makes of the shared variables. -/
def globalsAfter (globals : Fields) : (c : Call) → c.Reply → Fields
  | .setGlobal name value, _ => Fields.set globals name value
  | _, _ => globals

theorem globals_answer (env : Collaborators σ) (c : Call) (s : Shared σ) :
    (Shared.answer env c s).2.globals = globalsAfter s.globals c (Shared.answer env c s).1 := by
  cases c with
  | emit e =>
    obtain ⟨-, consumer, js, outside, heq, -⟩ := Shared.emit_spec env e s
    have hglobals := congrArg Shared.globals heq
    exact hglobals
  | offerEnd =>
    obtain ⟨-, consumer, js, heq, -⟩ := Shared.offerEnd_spec s
    have hglobals := congrArg Shared.globals heq
    exact hglobals
  | stopConsumer =>
    obtain ⟨consumer, js, heq, -⟩ := Shared.stopConsumer_spec s
    have hglobals := congrArg Shared.globals heq
    exact hglobals
  | stopTicker =>
    obtain ⟨ticker, timers, js, heq, -⟩ := Shared.stopTicker_spec s
    have hglobals := congrArg Shared.globals heq
    exact hglobals
  | _ => rfl

/-- Watches the shared variables. -/
def globalsWatch (env : Collaborators σ) : Watch env Fields where
  look globals _ := globals
  after := globalsAfter
  answer c s := globals_answer env c s
  log _ _ _ := rfl
  progress _ _ _ _ _ := rfl

end Runbook.Schedule
