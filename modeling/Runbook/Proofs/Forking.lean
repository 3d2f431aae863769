import Runbook.Proofs.Undisturbed

/-!
# Forks and joins

The history of a main task that waits for loop indices falls into three parts. Until it waits, no
loop index does anything; while it waits, it does nothing itself; and once it goes on, none of them
does anything any more. Their ends become known in the order of their last deeds.

* `FinishesBefore h i j`: the loop index `j` still does something when `i` has done its last deed.
* `InTurn h outs`: loop indices are listed in the order in which they do their last deeds.
* `State.Parted h t n t'`: the three parts, before and after a wait for `n` loop indices.
* `State.Reaches.parted`: every schedule with such a wait falls into them.
* `State.Reaches.outcomes_inTurn`: the order in which ends become known.
-/

namespace Runbook.Schedule

variable {σ α : Type}

/-! ### Who finishes first -/

/-- The loop index `j` still does something when `i` has done its last deed. -/
def FinishesBefore (h : List Happening) (i j : Nat) : Prop :=
  ∃ a b, h = a ++ b ∧ deedsOf (some i) b = [] ∧ deedsOf (some j) b ≠ []

namespace FinishesBefore

variable {h h' : List Happening} {i j : Nat}

theorem append (hij : FinishesBefore h i j) (hi : deedsOf (some i) h' = []) :
    FinishesBefore (h ++ h') i j := by
  obtain ⟨a, b, rfl, hnone, hsome⟩ := hij
  refine ⟨a, b ++ h', by simp, ?_, ?_⟩
  · rw [deedsOf_append, hnone, hi, List.append_nil]
  · rw [deedsOf_append]
    exact List.append_ne_nil_of_left_ne_nil hsome _

/-- What the loop index `i` does last comes before what `j` does last, and not after it. -/
theorem asymm (hij : FinishesBefore h i j) : ¬ FinishesBefore h j i := by
  obtain ⟨a, b, rfl, hi, hj⟩ := hij
  rintro ⟨c, d, heq, hj', hi'⟩
  -- Of two rests of one history one is a rest of the other.
  rcases List.append_eq_append_iff.mp heq with ⟨x, rfl, rfl⟩ | ⟨x, rfl, rfl⟩
  · rw [deedsOf_append, List.append_eq_nil_iff] at hi
    exact hi' hi.2
  · rw [deedsOf_append, List.append_eq_nil_iff] at hj'
    exact hj hj'.2

end FinishesBefore

/-- Loop indices are listed in the order in which they do their last deeds. -/
def InTurn (h : List Happening) (outs : List (Nat × Option Failure)) : Prop :=
  outs.Pairwise fun x y => FinishesBefore h x.1 y.1

/-- A program that has something to do does it before it ends. -/
theorem GoesOn.ne_nil {env : Collaborators σ} {p : Program α} {s s' : Shared σ} {t : List Deed}
    {a : α} (hgoes : GoesOn env p s t (.ended a) s') (hp : ∀ a, p ≠ .done a) : t ≠ [] := by
  cases hgoes with
  | done => exact absurd rfl (hp a)
  | call | resume => exact nofun

namespace State

variable {env : Collaborators σ} {program : Nat → Program (Option Failure)}

/-! ### Moves along a schedule -/

/-- Whoever does something in a move is ready, and alone. -/
theorem Move.acting {s s' : State σ α} {j : Job} {h : List Happening}
    (hm : Move env program s j h s') :
    (∀ who, deedsOf who h = []) ∨
      (∃ x, s.main.turn? = some x) ∧ (∀ i, deedsOf (some i) h = []) ∨
      ∃ i t x, s.loop? i = some t ∧ t.turn? = some x ∧
        ∀ who, who ≠ some i → deedsOf who h = [] := by
  cases hm with
  | main hturn => exact .inr (.inl ⟨⟨_, hturn⟩, fun i => by simp⟩)
  | start hturn => exact .inr (.inl ⟨⟨_, hturn⟩, fun i => by simp⟩)
  | loop hloop hturn =>
    refine .inr (.inr ⟨_, _, _, hloop, hturn, fun who hwho => ?_⟩)
    rw [deedsOf_map_deed, if_neg hwho.symm]
  | loopEnds hloop hturn =>
    refine .inr (.inr ⟨_, _, _, hloop, hturn, fun who hwho => ?_⟩)
    rw [deedsOf_map_deed, if_neg hwho.symm]
  | _ => exact .inl fun who => by simp

theorem Move.loop_ready {s s' : State σ α} {j : Job} {h : List Happening}
    (hm : Move env program s j h s') {i : Nat} (hi : deedsOf (some i) h ≠ []) :
    ∃ t x, s.loop? i = some t ∧ t.turn? = some x := by
  rcases hm.acting with hnone | ⟨-, hnone⟩ | ⟨i', t, x, hloop, hturn, hnone⟩
  · exact absurd (hnone _) hi
  · exact absurd (hnone i) hi
  · by_cases heq : some i = some i'
    · cases heq
      exact ⟨t, x, hloop, hturn⟩
    · exact absurd (hnone _ heq) hi

theorem Move.main_ready {s s' : State σ α} {j : Job} {h : List Happening}
    (hm : Move env program s j h s') (hmain : deedsOf none h ≠ []) :
    (∃ x, s.main.turn? = some x) ∧ ∀ i, deedsOf (some i) h = [] := by
  rcases hm.acting with hnone | hready | ⟨i, t, x, -, -, hnone⟩
  · exact absurd (hnone _) hmain
  · exact hready
  · exact absurd (hnone none nofun) hmain

/-- Loop indices that have been started are accounted for as soon as there is one. -/
theorem Joining.forked {h : List Happening} {s : State σ α} (hj : Joining program h s) {i : Nat}
    {t : Task (Option Failure)} (hm : (i, t) ∈ s.loops) : Forked program h s := by
  cases hj with
  | before _ hno =>
    rw [hno] at hm
    cases hm
  | during _ _ _ _ hf => exact hf
  | after _ _ _ _ _ hf => exact hf

/-- Loop indices do not depend on time and order. -/
theorem Forked.of_pass {h : List Happening} {s : State σ α} {clock : Rat}
    {timers : List (Rat × Alarm)} {current next : List Job}
    (hf : Forked program h { s with shared := { s.shared with clock, timers, current, next } }) :
    Forked program h s :=
  ⟨hf.distinct, hf.gone, hf.silent, hf.known⟩

/-- A loop index whose end is known does nothing any more. -/
theorem Joining.still {s s' : State σ α} {j : Job} {h h₁ : List Happening}
    (hj : Joining program h s) (hm : Move env program s j h₁ s') {i : Nat} {o : Option Failure}
    (ho : (i, o) ∈ s.shared.outcomes) : deedsOf (some i) h₁ = [] := by
  refine Classical.byContradiction fun hne => ?_
  obtain ⟨t, x, hloop, hturn⟩ := hm.loop_ready hne
  have hf := hj.forked (mem_of_loop? hloop)
  rw [← eq_of_mem_of_loop? hf.distinct hloop (hf.known.mp ho)] at hturn
  cases hturn

/-! ### The three parts -/

/-- A history falls into three parts: before the main task waits for `n` loop indices, while it
waits, and after it has gone on. -/
def Parted (h : List Happening) (t : List Deed) (n : Nat) (t' : List Deed) : Prop :=
  ∃ h₀ h₁ h₂, h = h₀ ++ (h₁ ++ h₂) ∧
    deedsOf none h₀ = t ++ [.wait (.loops n)] ∧ (∀ i, deedsOf (some i) h₀ = []) ∧
    deedsOf none h₁ = [] ∧
    deedsOf none h₂ = t' ∧ ∀ i, deedsOf (some i) h₂ = []

/-- Where loop indices have done nothing, a history can be parted anywhere. -/
theorem Parted.of_silent {h : List Happening} {t t' : List Deed} {n : Nat}
    (ht : deedsOf none h = t ++ .wait (.loops n) :: t') (hsilent : ∀ i, deedsOf (some i) h = []) :
    Parted h t n t' := by
  rw [List.append_cons] at ht
  obtain ⟨a, b, rfl, ha, hb⟩ := exists_append_of_deedsOf ht
  simp only [deedsOf_append, List.append_eq_nil_iff] at hsilent
  exact ⟨a, [], b, rfl, ha, fun i => (hsilent i).1, rfl, hb, fun i => (hsilent i).2⟩

theorem Reaches.countP_joins_le {p : Program α} (hp : p.JoinsOnce) {shared : Shared σ}
    {s : State σ α} {h : List Happening} (hs : Reaches env program (start shared p) h s) :
    (deedsOf none h).countP Deed.joins ≤ 1 :=
  JoinsOnce.of_reached hp (hs.main_reached (distinct_start _ _) rfl)

/-- A list with one wait for loop indices is split by it in one way only. -/
theorem eq_and_eq_of_one_join {t t' u u' : List Deed} {n m : Nat}
    (hone : (t ++ .wait (.loops n) :: t').countP Deed.joins ≤ 1)
    (h : t ++ .wait (.loops n) :: t' = u ++ .wait (.loops m) :: u') : t = u ∧ n = m ∧ t' = u' := by
  obtain rfl := eq_of_one_join hone h
  obtain ⟨rfl, hcons⟩ := List.append_inj' h rfl
  cases hcons
  exact ⟨rfl, rfl, rfl⟩

/-- A schedule whose main task waits for loop indices falls into three parts. -/
theorem Reaches.parted {p : Program α} (hp : p.JoinsOnce) {shared : Shared σ} {s : State σ α}
    {h : List Happening} (hs : Reaches env program (start shared p) h s) {t t' : List Deed}
    {n : Nat} (ht : deedsOf none h = t ++ .wait (.loops n) :: t') : Parted h t n t' := by
  refine hs.along (P := fun h _ => ∀ (t : List Deed) (n : Nat) (t' : List Deed),
    deedsOf none h = t ++ .wait (.loops n) :: t' → Parted h t n t') (distinct_start _ _) ?_
    (fun _ _ _ _ hp => hp) ?_ t n t' ht
  · intro t n t' ht
    exact absurd ht (by simp)
  intro h s₁ j h₁ s₂ hs₁ hs₂ ih hm t n t' ht
  have hone := hs₂.countP_joins_le hp
  rw [ht] at hone
  rw [deedsOf_append] at ht
  by_cases hidle : deedsOf none h₁ = []
  · rw [hidle, List.append_nil] at ht
    obtain ⟨k₀, k₁, k₂, hsplit, hk₀, hsilent, hk₁, hk₂, hsilent'⟩ := ih t n t' ht
    cases hs₁.joining hp rfl rfl with
    | before hnone =>
      rw [ht, List.countP_append, List.countP_cons_of_pos rfl] at hnone
      omega
    | during u m hu =>
      -- The main task still waits, and so nothing has been done after the wait.
      obtain ⟨rfl, rfl, rfl⟩ := eq_and_eq_of_one_join hone (ht.symm.trans hu)
      refine ⟨k₀, k₁ ++ (k₂ ++ h₁), [], by simp [hsplit], hk₀, hsilent, ?_, rfl, fun _ => rfl⟩
      simp [hk₁, hk₂, hidle]
    | after u m u' hu hnot hf hall =>
      refine ⟨k₀, k₁, k₂ ++ h₁, by simp [hsplit], hk₀, hsilent, hk₁, ?_, fun i => ?_⟩
      · rw [deedsOf_append, hk₂, hidle, List.append_nil]
      · rw [deedsOf_append, hsilent', List.nil_append]
        refine Classical.byContradiction fun hne => ?_
        obtain ⟨u, x, hloop, hturn⟩ := hm.loop_ready hne
        exact Joining.not_all hall hloop (result?_of_turn? hturn)
  · obtain ⟨⟨x, hturn⟩, hothers⟩ := hm.main_ready hidle
    cases hs₁.joining hp rfl rfl with
    | before _ _ hsilent =>
      refine .of_silent ((deedsOf_append ..).trans ht) fun i => ?_
      rw [deedsOf_append, hsilent, hothers, List.append_nil]
    | during _ _ _ hjoins => exact absurd hjoins (not_joins_of_turn? hturn)
    | after u m u' hu =>
      have hboth : t ++ .wait (.loops n) :: t' =
          u ++ .wait (.loops m) :: (u' ++ deedsOf none h₁) := by
        rw [← ht, hu]
        simp
      obtain ⟨rfl, rfl, rfl⟩ := eq_and_eq_of_one_join hone hboth
      obtain ⟨k₀, k₁, k₂, rfl, hk₀, hsilent, hk₁, hk₂, hsilent'⟩ := ih t n u' hu
      refine ⟨k₀, k₁, k₂ ++ h₁, by simp, hk₀, hsilent, hk₁, ?_, fun i => ?_⟩
      · rw [deedsOf_append, hk₂]
      · rw [deedsOf_append, hsilent', hothers, List.append_nil]

/-- The loop indices that have been started are those below the number that is waited for. -/
theorem Reaches.keys_eq_range {p : Program α} (hp : p.JoinsOnce) {shared : Shared σ}
    {s : State σ α} {h : List Happening} (hs : Reaches env program (start shared p) h s) {n : Nat}
    (hn : .wait (.loops n) ∈ deedsOf none h) : s.loops.map Prod.fst = List.range n := by
  refine hs.along (P := fun h s => .wait (.loops n) ∈ deedsOf none h →
    s.loops.map Prod.fst = List.range n) (distinct_start _ _) nofun (fun _ _ _ _ hp => hp) ?_ hn
  intro h s₁ j h₁ s₂ hs₁ hs₂ ih hm hn
  have hone := hs₂.countP_joins_le hp
  rw [deedsOf_append] at hn hone
  cases hm with
  | main hturn hgoes hloops htask hsh =>
    rw [deedsOf_map_deed, if_pos rfl] at hn
    refine ih ((List.mem_append.mp hn).resolve_right fun hn => ?_)
    have hnot := hgoes.countP_joins (not_joins_of_settles hloops htask).1
    rcases List.mem_append.mp hn with hn | hn
    · rcases Task.first_of_turn? hturn with rfl | ⟨wake, rfl⟩ <;> simp at hn
    · exact List.countP_eq_zero.mp hnot _ hn rfl
  | @start first _ _ m k sh sh' hturn hgoes hsh =>
    obtain ⟨ds, rfl⟩ := hgoes.ends_waiting
    rw [deedsOf_map_deed, if_pos rfl] at hn hone
    have hlast : n = m := by
      -- Were it another wait, there would be two of them.
      obtain ⟨u, u', hu⟩ := List.append_of_mem hn
      have hboth : u ++ .wait (.loops n) :: u' =
          (deedsOf none h ++ (first ++ ds)) ++ .wait (.loops m) :: [] := by
        rw [← hu]
        simp
      rw [hu] at hone
      exact (eq_and_eq_of_one_join hone hboth).2.1
    simp [hlast, Function.comp_def]
  | loop => simpa only [keys_withLoop] using ih (by simpa using hn)
  | loopEnds => simpa only [keys_withLoop] using ih (by simpa using hn)
  | stillborn => simpa only [keys_withLoop] using ih (by simpa using hn)
  | wakeLoop => simpa only [keys_withLoop] using ih (by simpa using hn)
  | interruptLoops => simpa [Function.comp_def] using ih (by simpa using hn)
  | _ => exact ih (by simpa using hn)

/-! ### The order of ends -/

/-- Ends of loop indices become known one by one, where no loop index is interrupted before it has
control. -/
theorem Move.outcomes_eq {s s' : State σ α} {j : Job} {h : List Happening}
    (hm : Move env program s j h s') (hborn : ∀ i, s.loop? i ≠ some .stillborn) :
    s'.shared.outcomes = s.shared.outcomes ∧ s'.loops.length = s.loops.length ∨
      s'.shared.outcomes = [] ∨
      ∃ i was first q t o sh, s.loop? i = some was ∧ was.turn? = some (first, q) ∧
        GoesOn env q s.shared t (.ended o) sh ∧ h = (first ++ t).map (.deed (some i)) ∧
        s'.shared.outcomes = s.shared.outcomes ++ [(i, o)] := by
  have hlength (i : Nat) (t : Task (Option Failure)) :
      (withLoop i t s.loops).length = s.loops.length := List.length_map _
  cases hm with
  | skip => exact .inl ⟨rfl, rfl⟩
  | main hturn hgoes hloops htask hsh =>
    obtain ⟨-, _, _, _, _, rfl⟩ := hsh
    exact .inl ⟨hgoes.outcomes.1, rfl⟩
  | start hturn hgoes hsh =>
    obtain ⟨-, _, _, _, _, rfl⟩ := hsh
    exact .inr (.inl rfl)
  | loop hloop hturn hgoes hend htask hsh =>
    obtain ⟨-, _, _, _, _, rfl⟩ := hsh
    exact .inl ⟨hgoes.outcomes.1, hlength _ _⟩
  | @loopEnds i _ _ _ _ o _ _ hloop hturn hgoes hsh =>
    obtain ⟨-, _, _, _, _, rfl⟩ := hsh
    exact .inr (.inr ⟨i, _, _, _, _, o, _, hloop, hturn, hgoes, rfl,
      congrArg (· ++ [(i, o)]) hgoes.outcomes.1⟩)
  | stored => exact .inl ⟨rfl, rfl⟩
  | stillborn hloop => exact absurd hloop (hborn _)
  | consumer hactive hmain hsh =>
    obtain ⟨-, _, _, _, _, rfl⟩ := hsh
    exact .inl ⟨(Shared.consumerTurn_leaves env s.shared).1, rfl⟩
  | ticker hactive hmain hsh =>
    obtain ⟨-, _, _, _, _, rfl⟩ := hsh
    exact .inl ⟨(Shared.tickerTurn_leaves env s.shared).1, rfl⟩
  | note hjoined hmain hsh =>
    obtain ⟨-, _, _, _, _, rfl⟩ := hsh
    exact .inl ⟨rfl, rfl⟩
  | wakeMain hmain hsh =>
    obtain ⟨-, _, _, _, _, rfl⟩ := hsh
    exact .inl ⟨rfl, rfl⟩
  | wakeLoop hloop hsh =>
    obtain ⟨-, _, _, _, _, rfl⟩ := hsh
    exact .inl ⟨rfl, hlength _ _⟩
  | idle => exact .inl ⟨rfl, rfl⟩
  | tick hphase hsh =>
    obtain ⟨-, _, _, _, _, rfl⟩ := hsh
    exact .inl ⟨rfl, rfl⟩
  | timeout => exact .inl ⟨rfl, rfl⟩
  | cancel => exact .inl ⟨rfl, rfl⟩
  | interrupt hmain hsh =>
    obtain ⟨-, _, _, _, _, rfl⟩ := hsh
    exact .inl ⟨rfl, rfl⟩
  | interruptConsumer => exact .inl ⟨(Shared.answer_leaves env .stopConsumer s.shared).1, rfl⟩
  | interruptTicker => exact .inl ⟨(Shared.answer_leaves env .stopTicker s.shared).1, rfl⟩
  | interruptLoops hmain hsh =>
    obtain ⟨-, _, _, _, _, rfl⟩ := hsh
    exact .inl ⟨rfl, List.length_map _⟩

/-- A loop index that comes to its end does something on the way there. -/
theorem Gone.ne_nil {p q : Program (Option Failure)} {t first u : List Deed}
    {task : Task (Option Failure)} {s s' : Shared σ} {o : Option Failure} (hg : Gone p t task)
    (hp : ∀ a, p ≠ .done a) (hturn : task.turn? = some (first, q))
    (hgoes : GoesOn env q s u (.ended o) s') : first ++ u ≠ [] := by
  rcases hg with hreached | ⟨-, rfl⟩
  · cases hreached with
    | fresh =>
      cases hturn
      exact hgoes.ne_nil hp
    | woken =>
      cases hturn
      exact nofun
    | paused _ hq _ =>
      cases hturn
      exact hgoes.ne_nil hq
    | _ => cases hturn
  · cases hturn

/-- As long as nobody is interrupted, the ends of loop indices become known in the order of their
last deeds. -/
theorem Reaches.outcomes_inTurn {p : Program α} (hp : p.JoinsOnce)
    (hprogram : ∀ i a, program i ≠ .done a) {shared : Shared σ}
    {s : State σ α} {h : List Happening} (hs : Reaches env program (start shared p) h s)
    (hnone : .alarm .interrupt ∉ h) (hapart : LoopsApart h) (hforked : Forked program h s) :
    InTurn h s.shared.outcomes := by
  refine hs.along (P := fun h s => .alarm .interrupt ∉ h → LoopsApart h → Forked program h s →
    InTurn h s.shared.outcomes) (distinct_start _ _) ?_
    (fun _ _ _ _ hp hnone hapart hf => hp hnone hapart hf.of_pass) ?_ hnone hapart hforked
  · intro _ _ hf
    have hempty : shared.outcomes = [] := List.eq_nil_iff_forall_not_mem.mpr fun x hx =>
      absurd (hf.known.mp hx) List.not_mem_nil
    change InTurn [] shared.outcomes
    rw [hempty]
    exact .nil
  intro h s₁ j h₁ s₂ hs₁ hs₂ ih hm hnone hapart hf₂
  rw [List.mem_append, not_or] at hnone
  obtain ⟨hapart, -⟩ := hapart.of_append
  have hcalm := hs₁.calm hp hnone.1 hapart
  have hj := hs₁.joining hp rfl rfl
  have hkept (hf : Forked program h s₁) : InTurn (h ++ h₁) s₁.shared.outcomes :=
    (ih hnone.1 hapart hf).imp_of_mem fun hx _ hxy => hxy.append (hj.still hm hx)
  have hborn (i : Nat) : s₁.loop? i ≠ some .stillborn := fun hloop =>
    (hcalm.loops (mem_of_loop? hloop)).born rfl
  rcases hm.outcomes_eq hborn with ⟨hout, hlength⟩ | hout |
    ⟨i, was, first, q, t, o, sh, hloop, hturn, hgoes, hh₁, hout⟩
  · by_cases hempty : s₁.loops = []
    -- None has been started, and so none is known to have ended.
    · rw [hempty] at hlength
      have hnone : s₂.shared.outcomes = [] := List.eq_nil_iff_forall_not_mem.mpr fun x hx => by
        have hx := hf₂.known.mp hx
        rw [List.eq_nil_of_length_eq_zero hlength] at hx
        cases hx
      rw [hnone]
      exact .nil
    · obtain ⟨l, hl⟩ := List.exists_mem_of_ne_nil _ hempty
      rw [hout]
      exact hkept (hj.forked hl)
  · rw [hout]
    exact .nil
  -- The one whose end becomes known has done something just now, and those known before have not.
  · have hf := hj.forked (mem_of_loop? hloop)
    rw [hout, InTurn, List.pairwise_append]
    refine ⟨hkept hf, List.pairwise_singleton _ _, fun x hx y hy => ?_⟩
    obtain rfl := List.mem_singleton.mp hy
    refine ⟨h, h₁, rfl, hj.still hm hx, ?_⟩
    rw [hh₁, deedsOf_map_deed, if_pos rfl]
    exact (hf.gone (mem_of_loop? hloop)).ne_nil (hprogram i) hturn hgoes

end State

end Runbook.Schedule
