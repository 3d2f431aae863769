import Runbook.Proofs.Likeness

/-!
# Pages that behave independently

The page of a loop index is a part of the world outside. Pages behave independently when each of
them answers by its own part and nobody else changes that. Then what a loop index is told follows
from the shared variables and from what it has done to its page itself, as if there were no other.

* `LonePage`: a page by itself.
* `Independent env page view`: the pages of loop indices behave independently; `page i` is that of
  the loop index `i` by itself, and `view i` is what it has of the world.
* `pageWatch`: the shared variables and the page of a loop index, as something to watch.
* `World.independent`: the pages of a rehearsal behave independently.
-/

namespace Runbook

open Schedule

variable {σ π α : Type} {env : Collaborators σ}

/-! ### Pages by themselves -/

/-- A page by itself, with a state of type `π`. -/
structure LonePage (π : Type) where
  request : PageCall → StateM π (Except Fault Json)
  screenshot : Fields → StateM π (Except Fault (List UInt8))
  openSession : StateM π (Except Fault Unit)
  closeSession : StateM π Unit

/-- What is done to the world is what is done to the part of it that is seen. -/
def Mirrors (view : σ → π) (m : StateM σ α) (m' : StateM π α) : Prop :=
  ∀ o, ((m o).1, view (m o).2) = m' (view o)

/-- What is done to the world leaves the part of it alone that is seen. -/
def Spares (view : σ → π) (m : StateM σ α) : Prop := ∀ o, view (m o).2 = view o

/-- What is seen changes only on a condition. -/
theorem view_of {p : Prop} [Decidable p] {view : σ → π} {m : StateM σ α} {m' : StateM π α}
    (h : p → Mirrors view m m') (h' : ¬ p → Spares view m) (o : σ) :
    view (m o).2 = if p then (m' (view o)).2 else view o := by
  split
  · exact congrArg Prod.snd (h ‹_› o)
  · exact h' ‹_› o

/-- The pages of loop indices behave independently: each has a part of the world to itself, it
answers by that part, and nothing else that is done to the world changes it. -/
structure Independent (env : Collaborators σ) (page : Nat → LonePage π) (view : Nat → σ → π) :
    Prop where
  request (i : Nat) (c : PageCall) : Mirrors (view i) (env.page i c) ((page i).request c)
  screenshot (i : Nat) (options : Fields) :
    Mirrors (view i) (env.screenshot i options) ((page i).screenshot options)
  openSession (i : Nat) : Mirrors (view i) (env.openSession i) (page i).openSession
  closeSession (i : Nat) : Mirrors (view i) (env.closeSession i) (page i).closeSession
  request_other {i : Nat} {j : Int} (h : j ≠ i) (c : PageCall) : Spares (view i) (env.page j c)
  screenshot_other {i : Nat} {j : Int} (h : j ≠ i) (options : Fields) :
    Spares (view i) (env.screenshot j options)
  openSession_other {i j : Nat} (h : j ≠ i) : Spares (view i) (env.openSession j)
  closeSession_other {i j : Nat} (h : j ≠ i) : Spares (view i) (env.closeSession j)
  upload (i : Nat) (key : String) (data : List UInt8) (contentType : String) :
    Spares (view i) (env.upload key data contentType)
  delete (i : Nat) (key : String) : Spares (view i) (env.delete key)
  list (i : Nat) (beginning : String) : Spares (view i) (env.list beginning)
  send (i : Nat) (r : Api.Request) : Spares (view i) (env.request r)
  observe (i : Nat) (entry : Json) : Spares (view i) (env.observe entry)
  save (i : Nat) (r : RunRecord) : Spares (view i) (env.save r)
  progress (i : Nat) (id : String) (snapshot : Snapshot) (now : Rat) :
    Spares (view i) (env.progress id snapshot now)
  notify (i : Nat) (m : NotificationMessage) (channels : List Channel) :
    Spares (view i) (env.notify m channels)
  log (i : Nat) (r : LogRecord) : Spares (view i) (env.log r)

/-- What a call makes of the page of loop index `i`. -/
def LonePage.after (page : LonePage π) (i : Nat) (p : π) : Call → π
  | .page j c => if j = i then (page.request c p).2 else p
  | .screenshot j options => if j = i then (page.screenshot options p).2 else p
  | .openSession j => if j = i then (page.openSession p).2 else p
  | .closeSession j => if j = i then (page.closeSession p).2 else p
  | _ => p

section Independent

variable {page : Nat → LonePage π} {view : Nat → σ → π} (hpages : Independent env page view)

include hpages

/-- Only calls that concern it change a page. -/
theorem Independent.view_answer (i : Nat) (c : Call) (s : Shared σ) :
    view i (Shared.answer env c s).2.outside = (page i).after i (view i s.outside) c := by
  cases c with
  | page j c =>
    refine view_of ?_ (fun hj => hpages.request_other hj c) s.outside
    rintro rfl
    exact hpages.request i c
  | screenshot j options =>
    refine view_of ?_ (fun hj => hpages.screenshot_other hj options) s.outside
    rintro rfl
    exact hpages.screenshot i options
  | openSession j =>
    refine view_of ?_ (fun hj => hpages.openSession_other hj) s.outside
    rintro rfl
    exact hpages.openSession j
  | closeSession j =>
    refine view_of ?_ (fun hj => hpages.closeSession_other hj) s.outside
    rintro rfl
    exact hpages.closeSession j
  | emit e =>
    have hlogged : view i (Shared.emit env e s).2.outside = view i s.outside := by
      rcases Shared.outside_emit env e s with heq | ⟨r, heq⟩
      · rw [heq]
      · rw [heq, hpages.log i r s.outside]
    exact hlogged
  | offerEnd =>
    obtain ⟨-, consumer, js, heq, -⟩ := Shared.offerEnd_spec s
    have houtside := congrArg Shared.outside heq
    exact congrArg (view i) houtside
  | stopConsumer =>
    obtain ⟨consumer, js, heq, -⟩ := Shared.stopConsumer_spec s
    have houtside := congrArg Shared.outside heq
    exact congrArg (view i) houtside
  | stopTicker =>
    obtain ⟨ticker, timers, js, heq, -⟩ := Shared.stopTicker_spec s
    have houtside := congrArg Shared.outside heq
    exact congrArg (view i) houtside
  | upload key data contentType => exact hpages.upload i key data contentType s.outside
  | delete key => exact hpages.delete i key s.outside
  | list beginning => exact hpages.list i beginning s.outside
  | request r => exact hpages.send i r s.outside
  | observe entry => exact hpages.observe i entry s.outside
  | save r => exact hpages.save i r s.outside
  | notify m channels => exact hpages.notify i m channels s.outside
  | log r => exact hpages.log i r s.outside
  | _ => rfl

/-- Watches the shared variables and the page of a loop index. -/
def pageWatch (i : Nat) : Watch env (Fields × π) where
  look globals o := (globals, view i o)
  after b c reply := (globalsAfter b.1 c reply, (page i).after i b.2 c)
  answer c s := Prod.ext (globals_answer env c s) (hpages.view_answer i c s)
  log _ r o := Prod.ext rfl (hpages.log i r o)
  progress _ id snapshot now o := Prod.ext rfl (hpages.progress i id snapshot now o)

/-- What is watched of a page decides on what its loop index is told. -/
theorem minds_pageWatch (i : Nat) : (pageWatch hpages i).Minds i where
  settles {c s s'} hc hsame := by
    obtain ⟨hglobals, hview⟩ := Prod.mk.inj hsame
    cases c with
    | globals => exact hglobals
    | page j c =>
      cases hc
      have hreply := congrArg (fun p => ((page i).request c p).1) hview
      exact (congrArg Prod.fst (hpages.request i c s.outside)).trans
        (hreply.trans (congrArg Prod.fst (hpages.request i c s'.outside)).symm)
    | openSession j =>
      obtain rfl := Int.ofNat.inj hc
      have hreply := congrArg (fun p => ((page j).openSession p).1) hview
      exact (congrArg Prod.fst (hpages.openSession j s.outside)).trans
        (hreply.trans (congrArg Prod.fst (hpages.openSession j s'.outside)).symm)
    | closeSession | log | dispatched => rfl
    | _ => exact hc.elim
  idle {c} b r hc := by
    cases c with
    | emit | now | log | dispatched | cancellation | chance | setChance | globals => rfl
    | _ => exact hc.elim

end Independent

/-! ### Rehearsed pages -/

namespace Rehearsal.World

/-- What a loop index sees of the world of a rehearsal: the page of it that was opened last, what a
new page would answer, and whether none can be opened. -/
structure Sight where
  page : Option Page
  script : PageScript
  refused : Bool

/-- What the loop index `i` sees. -/
def sight (i : Nat) (w : World) : Sight :=
  ⟨(w.pages.reverse.find? fun l => l.1 == (i : Int)).map Prod.snd, w.script, w.noSession i⟩

/-- Acts on the page that is seen. -/
def Sight.withPage {α : Type} (missing : α) (f : Page → α × Page) : StateM Sight α := fun v =>
  match v.page with
  | none => (missing, v)
  | some p => ((f p).1, { v with page := some (f p).2 })

/-- A page of a rehearsal by itself. -/
def lonePage : LonePage Sight where
  request c := Sight.withPage (.error noPage) fun p => p.request c
  screenshot options := Sight.withPage (.error noPage) fun p => p.screenshot options
  openSession := fun v =>
    if v.refused then (.error (.failure "chromium missing"), v)
    else (.ok (), { v with page := some { script := v.script } })
  closeSession := pure ()

section OnPage

variable {α : Type} (missing : α) (f : Page → α × Page) {i : Int}

theorem fst_onPageOf (l : List (Int × Page)) : (onPageOf i missing f l).1 =
    ((l.find? fun l => l.1 == i).map fun l => (f l.2).1).getD missing := by
  induction l with
  | nil => rfl
  | cons a l ih =>
    rw [onPageOf, List.find?_cons]
    cases a.1 == i with
    | true => rfl
    | false => exact ih

theorem find?_onPageOf (l : List (Int × Page)) :
    ((onPageOf i missing f l).2.find? fun l => l.1 == i).map Prod.snd =
      (l.find? fun l => l.1 == i).map fun l => (f l.2).2 := by
  induction l with
  | nil => rfl
  | cons a l ih =>
    rw [onPageOf, List.find?_cons]
    cases h : a.1 == i with
    | true => simp [h]
    | false => simpa [h] using ih

theorem find?_onPageOf_other {j : Int} (hj : j ≠ i) (l : List (Int × Page)) :
    ((onPageOf j missing f l).2.find? fun l => l.1 == i).map Prod.snd =
      (l.find? fun l => l.1 == i).map Prod.snd := by
  induction l with
  | nil => rfl
  | cons a l ih =>
    rw [onPageOf]
    by_cases h : a.1 = j
    · have hi : (a.1 == i) = false := beq_false_of_ne fun heq => hj (h ▸ heq)
      rw [if_pos (beq_iff_eq.mpr h), List.find?_cons, List.find?_cons]
      simp only [hi]
    · rw [if_neg fun heq => h (beq_iff_eq.mp heq), List.find?_cons, List.find?_cons]
      cases a.1 == i with
      | true => rfl
      | false => exact ih

end OnPage

theorem mirrors_withPage {α : Type} (i : Nat) (missing : α) (f : Page → α × Page) :
    Mirrors (sight i) (withPage i missing f) (Sight.withPage missing f) := by
  intro w
  rw [withPage, Sight.withPage, sight, sight]
  simp only [List.reverse_reverse, fst_onPageOf, find?_onPageOf]
  cases (w.pages.reverse.find? fun l => l.1 == (i : Int)) with
  | none => rfl
  | some l => rfl

theorem spares_withPage {α : Type} {i : Nat} {j : Int} (hj : j ≠ i) (missing : α)
    (f : Page → α × Page) : Spares (sight i) (withPage j missing f) := by
  intro w
  rw [withPage, sight, sight]
  simp only [List.reverse_reverse, find?_onPageOf_other missing f hj]

theorem openSession_eq (i : Nat) (w : World) : openSession i w =
    if w.noSession i then (.error (.failure "chromium missing"), w)
    else (.ok (), { w with
      sessions := w.sessions ++ [("open", i)]
      pages := w.pages ++ [((i : Int), ({ script := w.script } : Page))] }) := by
  unfold openSession
  rw [run_get_bind]
  split <;> rfl

theorem mirrors_openSession (i : Nat) :
    Mirrors (sight i) (openSession i) lonePage.openSession := by
  intro w
  rw [openSession_eq]
  cases hrefused : w.noSession i <;> simp [lonePage, sight, hrefused]

theorem spares_openSession {i j : Nat} (hj : j ≠ i) : Spares (sight i) (openSession j) := by
  intro w
  rw [openSession_eq]
  cases w.noSession j with
  | true => rfl
  | false =>
    have hi : ((j : Int) == i) = false := beq_false_of_ne fun heq => hj (Int.ofNat.inj heq)
    simp [sight, hi]

/-- The pages of a rehearsal behave independently. -/
theorem independent : Independent collaborators (fun _ => lonePage) sight where
  request i c := mirrors_withPage i _ _
  screenshot i options := mirrors_withPage i _ _
  openSession := mirrors_openSession
  closeSession i w := rfl
  request_other hj c := spares_withPage hj _ _
  screenshot_other hj options := spares_withPage hj _ _
  openSession_other := spares_openSession
  closeSession_other hj w := rfl
  upload i key data contentType w := by
    change sight i (upload key data contentType w).2 = sight i w
    rw [upload, run_get_bind]
    cases w.storage <;> rfl
  delete i key w := by
    change sight i (delete key w).2 = sight i w
    rw [delete, run_get_bind]
    cases w.storage <;> rfl
  list i beginning w := by
    change sight i (list beginning w).2 = sight i w
    rw [list, run_get_bind]
    cases w.storage <;> rfl
  send i r w := by
    change sight i (request r w).2 = sight i w
    rw [request, run_get_bind]
    rcases w.prepared with _ | ⟨p, _ | _⟩
    · rfl
    · simp only [run_set_bind]
      cases p.refusal <;> rfl
    · simp only [run_set_bind]
      cases p.refusal <;> rfl
  observe i entry w := rfl
  save i r w := by
    change sight i (save r w).2 = sight i w
    rw [save, run_get_bind]
    cases w.saveFault <;> rfl
  progress i id snapshot now w := by
    change sight i (writeProgress id snapshot now w).2 = sight i w
    rw [writeProgress, run_get_bind]
    cases w.progressFault <;> rfl
  notify i m channels w := by
    change sight i (notify m channels w).2 = sight i w
    rw [notify, run_get_bind]
    cases w.notifies with
    | false => rfl
    | true => cases w.notifyFault <;> rfl
  log i r w := by
    change sight i (writeLog r w).2 = sight i w
    rw [writeLog]
    split <;> rfl

end Rehearsal.World

end Runbook
