import Runbook.Proofs.Peers
import Runbook.Rehearsal.World

/-!
# Rehearsals that go on alike

The pages and the servers of a rehearsal answer from its script, from what they have been asked and
from the prepared responses. What is noted, stored or told does not matter to them. So two
rehearsals are peers in which pictures cannot be taken or stored, records cannot be saved and nobody
can be told at different moments.

* `World.unnoted w`: what the pages and the servers of the rehearsal `w` answer from.
* `World.Answers m`: the answer of `m` depends on nothing else.
* `World.Leaves m`: whatever `m` does, it leaves that as it is.
* `World.hindered fault?`: a rehearsal in which calls fail whenever `fault?` says so.
* `World.peers_hindered`: two such rehearsals are peers.
-/

namespace Runbook

open Schedule

namespace Rehearsal

/-- A page without its notes. -/
def Page.unnoted (p : Page) : Page := { p with calls := [] }

/-- The pages of a rehearsal without their notes. -/
def World.unnotedPages (ps : List (Int × Page)) : List (Int × Page) :=
  ps.map fun p => (p.1, p.2.unnoted)

/-- What the pages and the servers of a rehearsal answer from. -/
def World.unnoted (w : World) : World where
  epoch := 0
  script := w.script
  pages := World.unnotedPages w.pages
  prepared := w.prepared
  noSession := w.noSession

/-- Two rehearsals in which pages and servers answer from the same. -/
def World.Same (w w' : World) : Prop := w.unnoted = w'.unnoted

theorem Page.unnoted_stateOf (p : Page) (selector state : String) :
    p.unnoted.stateOf selector state =
      ((p.stateOf selector state).1, (p.stateOf selector state).2.unnoted) := by
  have hscript : p.unnoted.script = p.script := rfl
  have hasked : p.unnoted.asked = p.asked := rfl
  by_cases hmissing : p.script.missing.contains selector = true
  · simp only [stateOf, hscript, hmissing, if_true]
  · simp only [stateOf, hscript, hasked, hmissing]
    cases p.script.seriesOf selector state with
    | nil => rfl
    | cons x xs =>
      dsimp only
      generalize (x :: xs)[min (p.asked.filter (· == (selector, state))).length
        ((x :: xs).length - 1)]? = y
      rcases y with _ | (_ | _ | _ | _ | _ | _ | _) <;> rfl

theorem Page.unnoted_request (p : Page) (c : PageCall) :
    ((p.unnoted.request c).1, (p.unnoted.request c).2.unnoted) =
      ((p.request c).1, (p.request c).2.unnoted) := by
  have hscript : p.unnoted.script = p.script := rfl
  have hrefusal : p.unnoted.refusal? c = p.refusal? c := rfl
  simp only [request, hscript, hrefusal]
  cases p.script.unsupported.lookup c.operation with
  | some f => rfl
  | none =>
    cases c.operation
    case state s =>
      dsimp only
      rw [p.unnoted_stateOf]
      rfl
    all_goals
      dsimp only
      cases p.refusal? c <;> rfl

theorem Page.unnoted_screenshot (p : Page) (options : Fields) :
    (p.screenshot options).2.unnoted = p.unnoted := by
  simp only [screenshot, request]
  split
  · rfl
  · split <;> rfl

namespace World

section Answers

variable {β : Type}

theorem unnotedPages_idem (ps : List (Int × Page)) :
    unnotedPages (unnotedPages ps) = unnotedPages ps := by
  rw [unnotedPages, unnotedPages, List.map_map]
  rfl

theorem unnotedPages_reverse (ps : List (Int × Page)) :
    unnotedPages ps.reverse = (unnotedPages ps).reverse :=
  List.map_reverse

theorem onPageOf_unnoted {missing : β} {f : Page → β × Page} (i : Int)
    (hf : ∀ p : Page, ((f p.unnoted).1, (f p.unnoted).2.unnoted) = ((f p).1, (f p).2.unnoted))
    (ps : List (Int × Page)) :
    ((onPageOf i missing f (unnotedPages ps)).1,
        unnotedPages (onPageOf i missing f (unnotedPages ps)).2) =
      ((onPageOf i missing f ps).1, unnotedPages (onPageOf i missing f ps).2) := by
  induction ps with
  | nil => rfl
  | cons q ps ih =>
    obtain ⟨j, p⟩ := q
    have hcons (p : Page) (ps : List (Int × Page)) :
        unnotedPages ((j, p) :: ps) = (j, p.unnoted) :: unnotedPages ps := rfl
    by_cases hj : (j == i) = true
    · obtain ⟨hreply, hpage⟩ := Prod.mk.inj (hf p)
      simp only [hcons, onPageOf, hj, if_true, hreply, hpage, unnotedPages_idem]
    · obtain ⟨hreply, hpages⟩ := Prod.mk.inj ih
      have hidem : p.unnoted.unnoted = p.unnoted := rfl
      simp only [hcons, onPageOf, hj, Bool.false_eq_true, if_false, hreply, hpages, hidem]

/-- Whoever answers from the same gives the same answer, and there is the same to answer from
afterwards. -/
def Answers (m : StateM World β) : Prop :=
  ∀ w, ((m w.unnoted).1, (m w.unnoted).2.unnoted) = ((m w).1, (m w).2.unnoted)

theorem Answers.concur {m : StateM World β} (h : Answers m) : Concur Same m m := by
  intro w w' hw
  have hsame : ((m w).1, (m w).2.unnoted) = ((m w').1, (m w').2.unnoted) := by
    rw [← h w, ← h w', show w.unnoted = w'.unnoted from hw]
  exact Prod.mk.inj hsame

theorem answers_withPage {missing : β} {f : Page → β × Page} (i : Int)
    (hf : ∀ p : Page, ((f p.unnoted).1, (f p.unnoted).2.unnoted) = ((f p).1, (f p).2.unnoted)) :
    Answers (withPage i missing f) := by
  intro w
  obtain ⟨hreply, hpages⟩ := Prod.mk.inj (onPageOf_unnoted i hf w.pages.reverse)
  rw [unnotedPages_reverse] at hreply hpages
  refine Prod.ext hreply (congrArg (fun pages => { w.unnoted with pages }) ?_)
  change unnotedPages (onPageOf i missing f (unnotedPages w.pages).reverse).2.reverse =
    unnotedPages (onPageOf i missing f w.pages.reverse).2.reverse
  rw [unnotedPages_reverse, unnotedPages_reverse, hpages]

theorem unnoted_idem (w : World) : w.unnoted.unnoted = w.unnoted :=
  congrArg (fun pages => { w.unnoted with pages }) (unnotedPages_idem w.pages)

theorem answers_request (r : Api.Request) : Answers (request r) := by
  intro w
  have hprepared : w.unnoted.prepared = w.prepared := rfl
  have hlater (rest : List Prepared) : { w.unnoted.unnoted with prepared := rest } =
      { w.unnoted with prepared := rest } :=
    congrArg (fun k : World => { k with prepared := rest }) w.unnoted_idem
  simp only [request, run_get_bind, run_set_bind, hprepared]
  rcases w.prepared with _ | ⟨p, _ | ⟨q, rest⟩⟩ <;> dsimp only
  · exact Prod.ext rfl (hlater [])
  · cases p.refusal <;> exact Prod.ext rfl (hlater [p])
  · cases p.refusal <;> exact Prod.ext rfl (hlater (q :: rest))

theorem answers_openSession (i : Nat) : Answers (openSession i) := by
  intro w
  have hnone : w.unnoted.noSession = w.noSession := rfl
  simp only [openSession, run_get_bind, hnone]
  split
  · exact Prod.ext rfl w.unnoted_idem
  · refine Prod.ext rfl (congrArg (fun pages => { w.unnoted with pages }) ?_)
    have hopened (ps : List (Int × Page)) (q : Int × Page) :
        unnotedPages (unnotedPages ps ++ [q]) = unnotedPages (ps ++ [q]) := by
      simp only [unnotedPages, List.map_append, List.map_map]
      rfl
    exact hopened w.pages _

/-- What is left as it is by a call that only takes pictures, stores, tells or notes something. -/
def Leaves (m : StateM World β) : Prop := ∀ w, (m w).2.unnoted = w.unnoted

theorem Leaves.aloof {m m' : StateM World β} (hm : Leaves m) (hm' : Leaves m') : Aloof Same m m' :=
  fun w w' hw => ⟨(hm w).trans hw, hw.trans (hm' w').symm⟩

theorem leaves_screenshot (i : Int) (options : Fields) :
    Leaves (collaborators.screenshot i options) := by
  intro w
  have hpages (ps : List (Int × Page)) : unnotedPages (onPageOf i
      (.error noPage : Except Fault (List UInt8)) (fun p => p.screenshot options) ps).2 =
        unnotedPages ps := by
    induction ps with
    | nil => rfl
    | cons q ps ih =>
      obtain ⟨j, p⟩ := q
      by_cases hj : (j == i) = true
      · simp only [onPageOf, hj, if_true]
        exact congrArg (fun p => (j, p) :: unnotedPages ps) (p.unnoted_screenshot options)
      · simp only [onPageOf, hj]
        exact congrArg ((j, p.unnoted) :: ·) ih
  refine congrArg (fun pages => { w.unnoted with pages }) ?_
  change unnotedPages (onPageOf i (.error noPage) (fun p => p.screenshot options)
    w.pages.reverse).2.reverse = unnotedPages w.pages
  rw [unnotedPages_reverse, hpages, unnotedPages_reverse, List.reverse_reverse]

theorem leaves_upload (key : String) (data : List UInt8) (contentType : String) :
    Leaves (upload key data contentType) := by
  intro w
  simp only [upload, run_get_bind]
  cases w.storage <;> rfl

theorem leaves_save (r : RunRecord) : Leaves (save r) := by
  intro w
  simp only [save, run_get_bind]
  cases w.saveFault <;> rfl

theorem leaves_writeProgress (runId : String) (s : Snapshot) (now : Rat) :
    Leaves (writeProgress runId s now) := by
  intro w
  simp only [writeProgress, run_get_bind]
  cases w.progressFault <;> rfl

theorem leaves_notify (m : NotificationMessage) (channels : List Channel) :
    Leaves (notify m channels) := by
  intro w
  simp only [notify, run_get_bind]
  split
  · rfl
  · cases w.notifyFault <;> rfl

theorem leaves_writeLog (r : LogRecord) : Leaves (writeLog r) := by
  intro w
  simp only [writeLog]
  split <;> rfl

/-- A call that fails whenever `fault?` says so. -/
def failing (fault? : World → Option Fault) (m : StateM World (Except Fault β)) :
    StateM World (Except Fault β) := fun w =>
  match fault? w with
  | some f => (.error f, w)
  | none => m w

theorem Leaves.failing {m : StateM World (Except Fault β)} (hm : Leaves m)
    (fault? : World → Option Fault) : Leaves (failing fault? m) := by
  intro w
  unfold World.failing
  split
  · rfl
  · exact hm w

end Answers

/-- A rehearsal in which pictures cannot be taken or stored, records cannot be saved and nobody can
be told whenever `fault?` says so. -/
def hindered (fault? : World → Option Fault) : Collaborators World :=
  { collaborators with
    screenshot := fun i options => failing fault? (collaborators.screenshot i options)
    upload := fun key data contentType => failing fault? (upload key data contentType)
    save := fun r => failing fault? (save r)
    progress := fun runId s now => failing fault? (writeProgress runId s now)
    notify := fun m channels => failing fault? (notify m channels) }

/-- Whenever such calls fail, pages and servers answer alike. -/
theorem peers_hindered (fault? fault?' : World → Option Fault) :
    Peers (hindered fault?) (hindered fault?') Same where
  page i c := (answers_withPage i fun p => p.unnoted_request c).concur
  request r := (answers_request r).concur
  observe _ := Answers.concur fun w => Prod.ext rfl w.unnoted_idem
  openSession i := (answers_openSession i).concur
  closeSession _ := Answers.concur fun w => Prod.ext rfl w.unnoted_idem
  screenshot i options :=
    ((leaves_screenshot i options).failing _).aloof ((leaves_screenshot i options).failing _)
  upload key data contentType :=
    ((leaves_upload key data contentType).failing _).aloof
      ((leaves_upload key data contentType).failing _)
  save r := ((leaves_save r).failing _).aloof ((leaves_save r).failing _)
  progress runId s now :=
    ((leaves_writeProgress runId s now).failing _).aloof
      ((leaves_writeProgress runId s now).failing _)
  notify m channels :=
    ((leaves_notify m channels).failing _).aloof ((leaves_notify m channels).failing _)
  log r := (leaves_writeLog r).aloof (leaves_writeLog r)

end World

end Rehearsal

end Runbook
