import Runbook.Proofs.Paths

/-!
# Requests to stop in a schedule

A run is asked to stop by an alarm or by one of its tasks, and the first request stays. At any
moment the request that tasks find when they look is the first one in the history so far.

* `requested earlier h`: the request to stop after the history `h`, the first of all `requests`.
* `Heard earlier h c`: the request is now `c`, and whoever looked found what had been requested by
  then.
* `State.Reaches.heard`: so it is in every schedule.
-/

namespace Runbook.Schedule

variable {σ α : Type} {earlier c : Option Cancellation} {h h' : List Happening}

/-- The request to stop after something happened, given the one before. -/
def Happening.request (c : Option Cancellation) : Happening → Option Cancellation
  | .alarm (.timeout reason) => Cancellation.request c reason true
  | .alarm (.cancel reason) => Cancellation.request c reason false
  | .deed _ (.call (.cancel reason timedOut) _) => Cancellation.request c reason timedOut
  | _ => c

/-- The request to stop after a history. -/
def requested (earlier : Option Cancellation) (h : List Happening) : Option Cancellation :=
  h.foldl Happening.request earlier

theorem requested_append (earlier : Option Cancellation) (h h' : List Happening) :
    requested earlier (h ++ h') = requested (requested earlier h) h' :=
  List.foldl_append

/-- The first request stays. -/
theorem requested_some (c : Cancellation) (h : List Happening) : requested (some c) h = some c := by
  induction h with
  | nil => rfl
  | cons x h ih =>
    have hx : Happening.request (some c) x = some c := by
      rcases x with ⟨task, (⟨_ | _, _⟩ | _ | _)⟩ | _ | _ | (_ | _) <;> rfl
    rw [requested, List.foldl_cons, hx]
    exact ih

/-- The request to stop that something makes. -/
def Happening.asks? : Happening → Option Cancellation
  | .alarm (.timeout reason) => some ⟨reason, true⟩
  | .alarm (.cancel reason) => some ⟨reason, false⟩
  | .deed _ (.call (.cancel reason timedOut) _) => some ⟨reason, timedOut⟩
  | _ => none

/-- All requests to stop in a history, in order. -/
def requests (h : List Happening) : List Cancellation := h.filterMap Happening.asks?

/-- Of all requests to stop it is the first that counts. -/
theorem requested_eq_head? (earlier : Option Cancellation) (h : List Happening) :
    requested earlier h = (earlier.toList ++ requests h).head? := by
  cases earlier with
  | some c => rw [requested_some, Option.toList_some, List.singleton_append, List.head?_cons]
  | none =>
    induction h with
    | nil => rfl
    | cons x h ih =>
      have hx : Happening.request none x = x.asks? := by
        rcases x with ⟨task, (⟨_ | _, _⟩ | _ | _)⟩ | _ | _ | (_ | _) <;> rfl
      rw [requested, List.foldl_cons, hx, requests, List.filterMap_cons]
      cases hasks : x.asks? with
      | none => exact ih
      | some c => exact requested_some c h

/-- Now the request to stop is `c`, and every look at it has found what had been requested by
then. -/
structure Heard (earlier : Option Cancellation) (h : List Happening) (c : Option Cancellation) :
    Prop where
  now : c = requested earlier h
  found {h₁ h₂ : List Happening} {who : Option Nat} {reply : Option Cancellation} :
    h = h₁ ++ .deed who (.call .cancellation reply) :: h₂ → reply = requested earlier h₁

/-- A look that comes after a request finds it. -/
theorem Heard.found_request {c : Cancellation} {now : Option Cancellation} {h₁ h₂ : List Happening}
    (hh : Heard earlier (h₁ ++ h₂) now) (hc : requested earlier h₁ = some c) {who : Option Nat}
    {reply : Option Cancellation} (hm : .deed who (.call .cancellation reply) ∈ h₂) :
    reply = some c := by
  obtain ⟨before, after, rfl⟩ := List.append_of_mem hm
  rw [hh.found (List.append_assoc ..).symm, requested_append, hc, requested_some]

/-- There is only one request that any look can find. -/
theorem Heard.eq_of_found {c c' : Cancellation} {now : Option Cancellation} {h₁ h₂ : List Happening}
    (hh : Heard earlier (h₁ ++ h₂) now) (hc : requested earlier h₁ = some c) {who : Option Nat}
    (hm : .deed who (.call .cancellation (some c')) ∈ h₁ ++ h₂) : c' = c := by
  obtain ⟨before, after, hsplit⟩ := List.append_of_mem hm
  have hall : requested earlier (h₁ ++ h₂) = some c := by
    rw [requested_append, hc, requested_some]
  rw [hsplit, requested_append, ← hh.found hsplit, requested_some] at hall
  exact Option.some.inj hall

theorem Heard.start (c : Option Cancellation) : Heard c [] c := by
  refine ⟨rfl, fun {h₁ h₂ who reply} hsplit => ?_⟩
  cases h₁ <;> cases hsplit

/-- One more thing happens. -/
theorem Heard.snoc (hh : Heard earlier h c) {x : Happening}
    (hx : ∀ who reply, x = .deed who (.call .cancellation reply) → reply = c) :
    Heard earlier (h ++ [x]) (x.request c) := by
  refine ⟨?_, fun {h₁ h₂ who reply} hsplit => ?_⟩
  · rw [requested_append, ← hh.now]
    rfl
  · rcases List.eq_nil_or_concat h₂ with rfl | ⟨h₂, y, rfl⟩
    · obtain ⟨rfl, hxs⟩ := List.append_inj' hsplit rfl
      rw [hx who reply (List.head_eq_of_cons_eq hxs), hh.now]
    · have hends : h ++ [x] = (h₁ ++ .deed who (.call .cancellation reply) :: h₂) ++ [y] := by
        simpa using hsplit
      exact hh.found (List.append_inj' hends rfl).1

/-- What is neither a request nor a look at it changes nothing. -/
theorem Heard.append (hh : Heard earlier h c) (hsame : ∀ x ∈ h', x.request c = c)
    (hlooks : ∀ x ∈ h', ∀ who reply, x ≠ .deed who (.call .cancellation reply)) :
    Heard earlier (h ++ h') c := by
  induction h' generalizing h with
  | nil => rwa [List.append_nil]
  | cons x h' ih =>
    have hx := hh.snoc (x := x) fun who reply heq =>
      absurd heq (hlooks x List.mem_cons_self who reply)
    rw [hsame x List.mem_cons_self] at hx
    rw [List.append_cons]
    exact ih hx (fun y hy => hsame y (List.mem_cons_of_mem _ hy))
      fun y hy => hlooks y (List.mem_cons_of_mem _ hy)

theorem Heard.alarm (hh : Heard earlier h c) (a : Alarm) :
    Heard earlier (h ++ [.alarm a]) (Happening.request c (.alarm a)) :=
  hh.snoc (by simp)

theorem Heard.consumer (hh : Heard earlier h c) (s : Shared σ) :
    Heard earlier (h ++ consumerHistory s) c := by
  unfold consumerHistory
  split
  · rwa [List.append_nil]
  · split
    · exact hh.append (by simp [Happening.request]) (by simp)
    · exact hh.append (by simp [Happening.request]) (by simp)

theorem Heard.ticker (hh : Heard earlier h c) (s : Shared σ) :
    Heard earlier (h ++ tickerHistory s) c := by
  unfold tickerHistory
  split
  · exact hh.append (by simp [Happening.request]) (by simp)
  · rwa [List.append_nil]

/-- Of all calls only one makes a request, and that is what the history says of it. -/
theorem Shared.cancellation_answer (env : Collaborators σ) (c : Call) (who : Option Nat)
    (s : Shared σ) : (answer env c s).2.cancellation =
      Happening.request s.cancellation (.deed who (.call c (answer env c s).1)) := by
  cases c with
  | cancel reason timedOut => rfl
  | _ => exact (answer_leaves env _ s).2 (by simp)

/-- A call may be a request, or a look that finds it. -/
theorem Heard.call (env : Collaborators σ) (c : Call) (who : Option Nat) {s : Shared σ}
    (hh : Heard earlier h s.cancellation) :
    Heard earlier (h ++ [.deed who (.call c (Shared.answer env c s).1)])
      (Shared.answer env c s).2.cancellation := by
  rw [Shared.cancellation_answer env c who s]
  refine hh.snoc ?_
  rintro who' reply heq
  cases heq
  rfl

/-- A task whose turn it is makes requests, and finds them. -/
theorem Heard.turn {env : Collaborators σ} {was task : Task α} {first t : List Deed}
    {p : Program α} {s s' : Shared σ} (hh : Heard earlier h s.cancellation)
    (hturn : was.turn? = some (first, p)) (hgoes : GoesOn env p s t task s') (who : Option Nat) :
    Heard earlier (h ++ (first ++ t).map (.deed who)) s'.cancellation :=
  hgoes.keeps_turn (P := fun h s => Heard earlier h s.cancellation) hturn
    (fun c hh => hh.call env c who) (fun _ hh => hh.append (by simp [Happening.request]) (by simp))
    (fun _ hh => hh.append (by simp [Happening.request]) (by simp)) hh

namespace State

variable {env : Collaborators σ} {program : Nat → Program (Option Failure)}

theorem Move.heard {s s' : State σ α} {j : Job} (hm : Move env program s j h' s')
    (hh : Heard earlier h s.shared.cancellation) :
    Heard earlier (h ++ h') s'.shared.cancellation := by
  cases hm with
  | main hturn hgoes hloops htask hsh =>
    obtain ⟨-, _, _, _, _, rfl⟩ := hsh
    exact hh.turn hturn hgoes none
  | start hturn hgoes hsh =>
    obtain ⟨-, _, _, _, _, rfl⟩ := hsh
    exact hh.turn hturn hgoes none
  | @loop i _ _ _ _ _ _ _ _ hloop hturn hgoes hend htask hsh =>
    obtain ⟨-, _, _, _, _, rfl⟩ := hsh
    exact hh.turn hturn hgoes (some i)
  | @loopEnds i _ _ _ _ _ _ _ hloop hturn hgoes hsh =>
    obtain ⟨-, _, _, _, _, rfl⟩ := hsh
    exact hh.turn hturn hgoes (some i)
  | stored => rwa [List.append_nil]
  | skip => rwa [List.append_nil]
  | stillborn hloop hsh =>
    obtain ⟨-, _, _, _, _, rfl⟩ := hsh
    rwa [List.append_nil]
  | note hjoined hmain hsh =>
    obtain ⟨-, _, _, _, _, rfl⟩ := hsh
    rwa [List.append_nil]
  | consumer hactive hmain hsh =>
    obtain ⟨-, _, _, _, _, rfl⟩ := hsh
    rw [← (Shared.consumerTurn_leaves env s.shared).2] at hh
    exact hh.consumer s.shared
  | ticker hactive hmain hsh =>
    obtain ⟨-, _, _, _, _, rfl⟩ := hsh
    rw [← (Shared.tickerTurn_leaves env s.shared).2] at hh
    exact hh.ticker s.shared
  | wakeMain hmain hsh =>
    obtain ⟨-, _, _, _, _, rfl⟩ := hsh
    exact hh.alarm .wakeMain
  | wakeLoop hloop hsh =>
    obtain ⟨-, _, _, _, _, rfl⟩ := hsh
    exact hh.alarm _
  | idle i => exact hh.alarm (.wakeLoop i)
  | tick hphase hsh =>
    obtain ⟨-, _, _, _, _, rfl⟩ := hsh
    exact hh.alarm .tick
  | timeout reason => exact hh.alarm (.timeout reason)
  | cancel reason => exact hh.alarm (.cancel reason)
  | interrupt hmain hsh =>
    obtain ⟨-, _, _, _, _, rfl⟩ := hsh
    exact hh.alarm .interrupt
  | interruptConsumer hmain =>
    have hsame := (Shared.answer_leaves env .stopConsumer s.shared).2 (by simp)
    rw [← hsame] at hh
    exact hh.alarm .interrupt
  | interruptTicker hmain =>
    have hsame := (Shared.answer_leaves env .stopTicker s.shared).2 (by simp)
    rw [← hsame] at hh
    exact hh.alarm .interrupt
  | interruptLoops hmain hsh =>
    obtain ⟨-, _, _, _, _, rfl⟩ := hsh
    exact hh.alarm .interrupt

/-- In every schedule the request to stop is the first one in its history, and every look at it has
found the one made by then. -/
theorem Reaches.heard {s s' : State σ α} {h : List Happening} (hs : Reaches env program s h s')
    (hd : s.Distinct) : Heard s.shared.cancellation h s'.shared.cancellation := by
  refine hs.induction (P := fun h s' => Heard s.shared.cancellation h s'.shared.cancellation) hd
    (.start _) ?_ ?_
  · intro h s' _ _ _ _ hh
    exact hh
  · intro h s' j h₁ s₁ hh hm
    exact hm.heard hh

end State

end Runbook.Schedule
