import Runbook.Rehearsal.Desk
import Mathlib.Logic.ExistsUnique
import Mathlib.Logic.Relation

/-!
# Containment in a directory

A key is a text, and where it leads depends on its slashes and points. What it means is said here
without walking along it: written behind the base directory, it is simplified as long as anything
can be, by leaving out empty segments and single points, a name with the double point after it, and
a double point at the root. All ways to simplify a path come to the same end, and a key is refused
as one that escapes exactly if this end is neither the base directory nor below it.

A file that is written is therefore never outside of the base directory. Directories may be made on
the way to it, but outside of the base directory these lead to the base directory itself.

* `Path.Normal p`: nothing in the path can be simplified.
* `Path.NormalizesTo a p`: the path `a`, simplified as far as possible, is `p`.
* `LocalDirectory.target_eq`: which keys are refused.
* `FileSystem.SparesOutside base fs fs'`: outside of a directory, nothing has been changed.
* `LocalDirectory.contained`: what can come of any operations on stored files.
-/

namespace Runbook

/-! ### Paths that are simplified -/

namespace Path

/-- A segment that names something. -/
structure Names (s : String) : Prop where
  nonempty : s ≠ ""
  here : s ≠ "."
  back : s ≠ ".."

/-- A path all of whose segments name something. -/
def Normal (p : Path) : Prop := ∀ s ∈ p, Names s

/-- One simplification of a path from the root. -/
inductive Simplifies : Path → Path → Prop
  | empty (p q : Path) : Simplifies (p ++ "" :: q) (p ++ q)
  | here (p q : Path) : Simplifies (p ++ "." :: q) (p ++ q)
  | back {s : String} (h : Names s) (p q : Path) : Simplifies (p ++ s :: ".." :: q) (p ++ q)
  | top (q : Path) : Simplifies (".." :: q) q

/-- The path `a`, simplified as far as possible, is `p`. -/
structure NormalizesTo (a p : Path) : Prop where
  simplifies : Relation.ReflTransGen Simplifies a p
  normal : Normal p

end Path

namespace LocalDirectory

open Runbook.Path (Names Normal Simplifies NormalizesTo)

variable {base p q : Path}

/-! ### Walks -/

@[simp]
theorem walkStep_empty (p : Path) : walkStep p "" = p := rfl

@[simp]
theorem walkStep_here (p : Path) : walkStep p "." = p := rfl

@[simp]
theorem walkStep_back (p : Path) : walkStep p ".." = p.dropLast := rfl

theorem walkStep_name {s : String} (h : Names s) (p : Path) : walkStep p s = p ++ [s] := by
  simp [walkStep, h.nonempty, h.here, h.back]

/-- A segment names something, or it is one of three others. -/
theorem names_or (s : String) : s = "" ∨ s = "." ∨ s = ".." ∨ Names s := by
  by_cases hempty : s = ""
  · exact .inl hempty
  by_cases hhere : s = "."
  · exact .inr (.inl hhere)
  by_cases hback : s = ".."
  · exact .inr (.inr (.inl hback))
  exact .inr (.inr (.inr ⟨hempty, hhere, hback⟩))

theorem walk_cons (p : Path) (s : String) (steps : List String) :
    walk p (s :: steps) = walk (walkStep p s) steps := rfl

theorem walk_append (p : Path) (a b : List String) : walk p (a ++ b) = walk (walk p a) b :=
  List.foldl_append

theorem normal_walkStep (hp : Normal p) (s : String) : Normal (walkStep p s) := by
  rcases names_or s with rfl | rfl | rfl | hs
  · exact hp
  · exact hp
  · exact fun s hs => hp s (List.dropLast_subset p hs)
  · rw [walkStep_name hs]
    exact List.forall_mem_append.mpr ⟨hp, by simpa using hs⟩

theorem normal_walk (hp : Normal p) (steps : List String) : Normal (walk p steps) := by
  induction steps generalizing p with
  | nil => exact hp
  | cons s steps ih => exact ih (normal_walkStep hp s)

/-- Along names, a walk only adds them. -/
theorem walk_normal (hq : Normal q) (p : Path) : walk p q = p ++ q := by
  induction q generalizing p with
  | nil => exact (List.append_nil p).symm
  | cons s q ih =>
    obtain ⟨hs, hq⟩ := List.forall_mem_cons.mp hq
    rw [walk_cons, walkStep_name hs, ih hq, List.append_assoc]
    rfl

/-- A simplification changes nothing about where a walk leads. -/
theorem walk_eq_of_simplifies {a b : Path} (h : Simplifies a b) : walk [] a = walk [] b := by
  cases h with
  | empty p q => rw [walk_append, walk_append, walk_cons, walkStep_empty]
  | here p q => rw [walk_append, walk_append, walk_cons, walkStep_here]
  | back hs p q =>
    rw [walk_append, walk_append, walk_cons, walk_cons, walkStep_name hs, walkStep_back,
      List.dropLast_concat]
  | top q => rfl

/-- However a path is simplified, it ends where a walk along it leads. -/
theorem walk_of_normalizesTo {a : Path} (h : NormalizesTo a p) : walk [] a = p := by
  obtain ⟨hsimplifies, hp⟩ := h
  induction hsimplifies using Relation.ReflTransGen.head_induction_on with
  | refl => rw [walk_normal hp, List.nil_append]
  | head hstep _ ih => rw [walk_eq_of_simplifies hstep, ih]

/-- One step of a walk is a simplification, if it is any step at all. -/
theorem simplifies_walkStep (hp : Normal p) (s : String) (steps : List String) :
    Relation.ReflTransGen Simplifies (p ++ s :: steps) (walkStep p s ++ steps) := by
  rcases names_or s with rfl | rfl | rfl | hs
  · exact .single (.empty p steps)
  · exact .single (.here p steps)
  -- A double point takes the name before it along; there is one unless the walk is at the root.
  · rcases List.eq_nil_or_concat p with rfl | ⟨q, name, rfl⟩
    · exact .single (.top steps)
    · have hname : Names name := hp name (by simp)
      rw [walkStep_back, List.concat_eq_append, List.dropLast_concat, List.append_assoc]
      exact .single (.back hname q steps)
  · rw [walkStep_name hs, List.append_assoc]
    exact .refl

/-- Where a walk leads is what the whole path comes to, simplified. -/
theorem normalizesTo_walk (hp : Normal p) (steps : List String) :
    NormalizesTo (p ++ steps) (walk p steps) := by
  refine ⟨?_, normal_walk hp steps⟩
  induction steps generalizing p with
  | nil =>
    rw [List.append_nil]
    exact .refl
  | cons s steps ih => exact (simplifies_walkStep hp s steps).trans (ih (normal_walkStep hp s))

/-- A path that is read from the root, or from a directory, is simplified. -/
theorem normal_resolve {directory : Path} (hdirectory : Normal directory) (path : String) :
    Normal (resolve directory path) := by
  unfold resolve
  split
  · exact normal_walk (List.forall_mem_nil _) _
  · exact normal_walk hdirectory _

/-- Slashes at the front of a key lead nowhere. -/
theorem walk_withoutSlashes (p : Path) (key : String) :
    walk p (segments (withoutSlashes key)) = walk p (segments key) := by
  unfold withoutSlashes segments Text.pieces
  rw [String.toList_ofList]
  induction key.toList with
  | nil => rfl
  | cons c cs ih =>
    by_cases hc : c = '/'
    -- With the slash, there is an empty segment in front, which is skipped.
    · subst hc
      rw [List.dropWhile_cons_of_pos (by simp), ih, Text.splitAt, if_pos rfl, List.map_cons,
        walk_cons]
      rfl
    · rw [List.dropWhile_cons_of_neg (by simpa using hc)]

/-! ### Targets -/

/-- The refusal of a key that leads out of the base directory. -/
def escapes (key : String) : Fault :=
  ⟨.badValue, s!"storage key escapes base directory: {key}"⟩

/-- The refusal of a key that no file can have. -/
def unspeakable : Fault := ⟨.badValue, "embedded null byte"⟩

/-- Whether there is a null character in a key. -/
def hasNull (key : String) : Bool := key.toList.any fun c => c.toNat = 0

/-- A key is refused as one that escapes exactly if it does. -/
theorem target_eq (hbase : Normal base) {key : String}
    (hp : NormalizesTo (base ++ segments key) p) :
    target base key =
      if hasNull key then .error unspeakable else if base <+: p then .ok p
      else .error (escapes key) := by
  have hwalk : walk base (segments (withoutSlashes key)) = p := by
    rw [walk_withoutSlashes, ← walk_of_normalizesTo hp, walk_append, walk_normal hbase,
      List.nil_append]
  have hbegins : base.isPrefixOf p = true ↔ base <+: p := List.isPrefixOf_iff_prefix
  unfold target
  rw [hwalk]
  simp only [hbegins]
  rfl

/-- What is not refused is at the base directory or below it. -/
theorem prefix_of_target {key : String} (h : target base key = .ok p) : base <+: p := by
  unfold target at h
  dsimp only at h
  split at h
  · cases h
  · split at h
    · rename_i hbegins
      cases h
      exact List.isPrefixOf_iff_prefix.mp hbegins
    · cases h

end LocalDirectory

/-! ### Changes of a file system -/

namespace FileSystem

variable {base p q : Path} {fs fs' fs'' : FileSystem}

theorem lookup_putEntry_self (p : Path) (e : Entry) (entries : List (Path × Entry)) :
    (putEntry p e entries).lookup p = some e := by
  induction entries with
  | nil => simp [putEntry]
  | cons entry entries ih =>
    obtain ⟨r, f⟩ := entry
    by_cases hr : r = p
    · simp [putEntry, hr]
    · simp [putEntry, hr, List.lookup_cons, beq_false_of_ne (Ne.symm hr), ih]

theorem lookup_putEntry_of_ne (h : p ≠ q) (e : Entry) (entries : List (Path × Entry)) :
    (putEntry p e entries).lookup q = entries.lookup q := by
  induction entries with
  | nil => simp [putEntry, List.lookup_cons, beq_false_of_ne h.symm]
  | cons entry entries ih =>
    obtain ⟨r, f⟩ := entry
    by_cases hr : r = p
    · subst hr
      simp [putEntry, List.lookup_cons, beq_false_of_ne h.symm]
    · simp [putEntry, hr, List.lookup_cons, ih]

theorem lookup_filter_of_ne (h : p ≠ q) (entries : List (Path × Entry)) :
    (entries.filter fun e => e.1 ≠ p).lookup q = entries.lookup q := by
  induction entries with
  | nil => rfl
  | cons entry entries ih =>
    obtain ⟨r, f⟩ := entry
    by_cases hr : r = p
    · subst hr
      simpa [List.lookup_cons, beq_false_of_ne h.symm] using ih
    · rw [List.filter_cons_of_pos (by simpa using hr), List.lookup_cons, List.lookup_cons, ih]

theorem at?_put_of_ne (h : p ≠ q) (e : Entry) : (fs.put p e).at? q = fs.at? q := by
  rw [at?, at?, put, lookup_putEntry_of_ne h]

theorem at?_put_directory (fs : FileSystem) (p : Path) :
    (fs.put p .directory).at? p = some .directory := by
  rw [at?, put, lookup_putEntry_self, ite_self]

theorem at?_removeFile_of_ne (h : p ≠ q) : (fs.removeFile p).at? q = fs.at? q := by
  unfold removeFile
  split
  · rw [at?, at?, lookup_filter_of_ne h]
  · rfl

/-- Making a directory changes nothing but that it is there, where nothing was. -/
theorem at?_makeDirectory (fs : FileSystem) (p q : Path) :
    (fs.makeDirectory p).at? q = fs.at? q ∨
      p = q ∧ fs.at? q = none ∧ (fs.makeDirectory p).at? q = some .directory := by
  by_cases hsome : (fs.at? p).isSome
  · rw [makeDirectory, if_pos hsome]
    exact .inl rfl
  rw [makeDirectory, if_neg hsome]
  by_cases h : p = q
  · subst h
    exact .inr ⟨rfl, by simpa using hsome, at?_put_directory fs p⟩
  · exact .inl (at?_put_of_ne h .directory)

/-- Outside of a directory, nothing has been changed, but that directories may have been made where
nothing was and the directory is to be. -/
def SparesOutside (base : Path) (fs fs' : FileSystem) : Prop :=
  ∀ q, ¬ base <+: q →
    fs'.at? q = fs.at? q ∨ q <+: base ∧ fs.at? q = none ∧ fs'.at? q = some .directory

namespace SparesOutside

theorem refl (base : Path) (fs : FileSystem) : SparesOutside base fs fs := fun _ _ => .inl rfl

theorem trans (h : SparesOutside base fs fs') (h' : SparesOutside base fs' fs'') :
    SparesOutside base fs fs'' := by
  intro q hq
  -- A directory that has been made stays, so it is made once at most.
  rcases h q hq with hsame | ⟨hbase, hnone, hmade⟩ <;>
    rcases h' q hq with hsame' | ⟨hbase', hnone', hmade'⟩
  · exact .inl (hsame'.trans hsame)
  · exact .inr ⟨hbase', hsame ▸ hnone', hmade'⟩
  · exact .inr ⟨hbase, hnone, hsame'.trans hmade⟩
  · exact .inr ⟨hbase, hnone, hmade'⟩

/-- What every step spares, all steps spare. -/
theorem foldl {α : Type} {step : FileSystem → α → FileSystem} {xs : List α}
    (h : ∀ fs, ∀ x ∈ xs, SparesOutside base fs (step fs x)) (fs : FileSystem) :
    SparesOutside base fs (xs.foldl step fs) := by
  induction xs generalizing fs with
  | nil => exact refl base fs
  | cons x xs ih =>
    obtain ⟨hx, hxs⟩ := List.forall_mem_cons.mp fun x hx fs => h fs x hx
    exact (hx fs).trans (ih (fun fs x hx => hxs x hx fs) (step fs x))

theorem of_at?_eq (hp : base <+: p) (h : ∀ q, p ≠ q → fs'.at? q = fs.at? q) :
    SparesOutside base fs fs' := by
  intro q hq
  have hne : p ≠ q := fun heq => hq (heq ▸ hp)
  exact .inl (h q hne)

theorem makeDirectory (h : p <+: base ∨ base <+: p) (fs : FileSystem) :
    SparesOutside base fs (fs.makeDirectory p) := by
  intro q hq
  rcases at?_makeDirectory fs p q with hsame | ⟨rfl, hnone, hmade⟩
  · exact .inl hsame
  · exact .inr ⟨h.resolve_right hq, hnone, hmade⟩

/-- The directories that lead to a path below the base directory lead to the base directory, or are
below it too. -/
theorem makeDirectories (h : base <+: q) (hp : p <+: q) (fs : FileSystem) :
    SparesOutside base fs (fs.makeDirectories p) := by
  refine foldl (fun fs d hd => ?_) fs
  obtain ⟨n, -, rfl⟩ := List.mem_map.mp hd
  have htake : p.take n <+: q := (List.take_prefix n p).trans hp
  exact makeDirectory (List.prefix_or_prefix_of_prefix htake h) fs

theorem write {data : List UInt8} (hp : base <+: p) (h : fs.write p data = .ok fs') :
    SparesOutside base fs fs' := by
  unfold FileSystem.write ensureDirectory at h
  split at h
  · cases h
  -- The directory is made first, then the file is put into it.
  · change (if _ then _ else _) = _ at h
    split at h
    · cases h
    · cases h
      have hmade := makeDirectories hp (List.dropLast_prefix p) fs
      exact hmade.trans (of_at?_eq hp fun q hq => at?_put_of_ne hq _)

theorem removeFile (hp : base <+: p) (fs : FileSystem) :
    SparesOutside base fs (fs.removeFile p) :=
  of_at?_eq hp fun _ hq => at?_removeFile_of_ne hq

/-- The files outside are the same. -/
theorem file?_eq (h : SparesOutside base fs fs') (hq : ¬ base <+: q) :
    fs'.file? q = fs.file? q := by
  rcases h q hq with hsame | ⟨-, hnone, hmade⟩
  · rw [file?, file?, hsame]
  · rw [file?, file?, hnone, hmade]

end SparesOutside

end FileSystem

/-! ### Operations -/

namespace LocalDirectory

open FileSystem (SparesOutside)
open Runbook.Path (Names Normal NormalizesTo)

variable {base p : Path} {fs fs' : FileSystem}

/-- What can be asked of the storage that may change files. -/
inductive Operation where
  | upload (key : String) (data : List UInt8)
  | delete (key : String)

namespace Operation

/-- The key that is meant. -/
def key : Operation → String
  | upload key _ => key
  | delete key => key

/-- The files after an operation, or why it fails. -/
def run (base : Path) (fs : FileSystem) : Operation → Except Fault FileSystem
  | upload key data => (LocalDirectory.upload base key data fs).map Prod.snd
  | delete key => LocalDirectory.delete base key fs

/-- An operation fails with the refusal of its key, before anything else. -/
theorem run_of_target_error (op : Operation) {f : Fault} (h : target base op.key = .error f)
    (fs : FileSystem) : op.run base fs = .error f := by
  cases op with
  | upload key data => rw [run, LocalDirectory.upload, show target base key = .error f from h]; rfl
  | delete key => rw [run, LocalDirectory.delete, show target base key = .error f from h]; rfl

/-- An operation writes or removes a file at the path of its key. -/
theorem run_of_target {op : Operation} (htarget : target base op.key = .ok p)
    (h : op.run base fs = .ok fs') :
    (∃ data, fs.write p data = .ok fs') ∨ fs' = fs.removeFile p := by
  cases op with
  | upload key data =>
    rw [run, LocalDirectory.upload, show target base key = .ok p from htarget] at h
    change Except.map Prod.snd (fs.write p data >>= _) = _ at h
    cases hwrite : fs.write p data with
    | error f =>
      rw [hwrite] at h
      cases h
    | ok written =>
      rw [hwrite] at h
      cases h
      exact .inl ⟨data, hwrite⟩
  | delete key =>
    rw [run, LocalDirectory.delete, show target base key = .ok p from htarget] at h
    change (if _ then _ else _) = _ at h
    split at h
    · cases h
    · cases h
      exact .inr rfl

theorem sparesOutside_run {op : Operation} (h : op.run base fs = .ok fs') :
    SparesOutside base fs fs' := by
  cases htarget : target base op.key with
  | error f =>
    rw [op.run_of_target_error htarget] at h
    cases h
  | ok p =>
    have hp : base <+: p := prefix_of_target htarget
    rcases run_of_target htarget h with ⟨data, hwrite⟩ | rfl
    · exact .write hp hwrite
    · exact .removeFile hp fs

end Operation

/-- The files after an operation; one that fails leaves them as they are. -/
def carryOut (base : Path) (fs : FileSystem) (op : Operation) : FileSystem :=
  (op.run base fs).toOption.getD fs

/-- The files after operations, one after the other. -/
def carryOutAll (base : Path) (ops : List Operation) (fs : FileSystem) : FileSystem :=
  ops.foldl (carryOut base) fs

theorem carryOut_of_error {op : Operation} {f : Fault} (h : op.run base fs = .error f) :
    carryOut base fs op = fs := by
  rw [carryOut, h]
  rfl

theorem sparesOutside_carryOut (base : Path) (fs : FileSystem) (op : Operation) :
    SparesOutside base fs (carryOut base fs op) := by
  cases h : op.run base fs with
  | error f =>
    rw [carryOut_of_error h]
    exact .refl base fs
  | ok fs' =>
    rw [carryOut, h]
    exact Operation.sparesOutside_run h

theorem sparesOutside_carryOutAll (base : Path) (ops : List Operation) (fs : FileSystem) :
    SparesOutside base fs (carryOutAll base ops fs) :=
  .foldl (fun fs op _ => sparesOutside_carryOut base fs op) fs

/-- The storage of a desk works so, and changes nothing else of it. -/
theorem desk_upload (key : String) (data : List UInt8) (d : Rehearsal.Desk) :
    (Rehearsal.Desk.upload key data d).2 =
      { d with files := carryOut d.storage d.files (.upload key data) } := by
  unfold Rehearsal.Desk.upload carryOut
  cases h : upload d.storage key data d.files <;> simp only [Operation.run, h] <;> rfl

theorem desk_delete (key : String) (d : Rehearsal.Desk) :
    (Rehearsal.Desk.delete key d).2 =
      { d with files := carryOut d.storage d.files (.delete key) } := by
  unfold Rehearsal.Desk.delete carryOut
  cases h : delete d.storage key d.files <;> simp only [Operation.run, h] <;> rfl

/-- A key that escapes is refused, whatever is asked with it. -/
theorem refused_of_escapes (hbase : Normal base) {op : Operation}
    (hp : NormalizesTo (base ++ segments op.key) p) (hout : ¬ base <+: p) (fs : FileSystem) :
    ∃ f, op.run base fs = .error f ∧ f.kind = .badValue ∧ carryOut base fs op = fs := by
  have htarget := target_eq hbase hp
  rw [if_neg hout] at htarget
  by_cases hnull : hasNull op.key
  · rw [if_pos hnull] at htarget
    have hrun := op.run_of_target_error htarget fs
    exact ⟨unspeakable, hrun, rfl, carryOut_of_error hrun⟩
  · rw [if_neg hnull] at htarget
    have hrun := op.run_of_target_error htarget fs
    exact ⟨escapes op.key, hrun, rfl, carryOut_of_error hrun⟩

/-- **Containment.** Whatever is stored and removed in a base directory, under any keys, the files
outside of it stay as they are, and none is made; only the directories that lead to the base
directory may be made. The key of an operation, behind the base directory, comes to one path when it
is simplified. If this is neither the base directory nor below it, then the operation fails with a
bad value and nothing changes; otherwise it is the path that the key stands for, unless the key has
a null character, which no path may have. -/
theorem contained (base : Path) (hbase : Normal base) :
    (∀ ops fs, SparesOutside base fs (carryOutAll base ops fs) ∧
      ∀ q, ¬ base <+: q → (carryOutAll base ops fs).file? q = fs.file? q) ∧
    ∀ op : Operation, (∃! p, NormalizesTo (base ++ segments op.key) p) ∧
      ∀ p, NormalizesTo (base ++ segments op.key) p →
        (¬ base <+: p → ∀ fs,
          ∃ f, op.run base fs = .error f ∧ f.kind = .badValue ∧ carryOut base fs op = fs) ∧
        (base <+: p →
          target base op.key = if hasNull op.key then .error unspeakable else .ok p) := by
  constructor
  · intro ops fs
    have hspares := sparesOutside_carryOutAll base ops fs
    exact ⟨hspares, fun q hq => hspares.file?_eq hq⟩
  · intro op
    constructor
    · refine ⟨_, normalizesTo_walk hbase (segments op.key), fun p hp => ?_⟩
      rw [← walk_of_normalizesTo hp, walk_append, walk_normal hbase, List.nil_append]
    · intro p hp
      refine ⟨fun hout fs => refused_of_escapes hbase hp hout fs, fun hin => ?_⟩
      rw [target_eq hbase hp, if_pos hin]

/-- A name that begins like that of the base directory does not lead into it, and one that leaves it
and comes back does. -/
theorem contained_siblings :
    Normal ["tmp", "out"] ∧
    (∀ fs, (carryOutAll ["tmp", "out"] [.upload "../output/a.png" [1]] fs).file?
      ["tmp", "output", "a.png"] = fs.file? ["tmp", "output", "a.png"]) ∧
    (∀ fs, ∃ f, (Operation.delete "../output/a.png").run ["tmp", "out"] fs = .error f ∧
      f.kind = .badValue ∧ carryOut ["tmp", "out"] fs (.delete "../output/a.png") = fs) ∧
    target ["tmp", "out"] "/shots/..//../out/./a.png" = .ok ["tmp", "out", "a.png"] := by
  have hbase : Normal ["tmp", "out"] := by
    have h : resolve ["tmp"] "./out" = ["tmp", "out"] := by decide +kernel
    have htmp : Names "tmp" := ⟨by decide, by decide, by decide⟩
    exact h ▸ normal_resolve (List.forall_mem_singleton.mpr htmp) "./out"
  obtain ⟨hspares, hkeys⟩ := contained ["tmp", "out"] hbase
  have hout : NormalizesTo (["tmp", "out"] ++ segments "../output/a.png")
      ["tmp", "output", "a.png"] := by
    have h : walk ["tmp", "out"] (segments "../output/a.png") = ["tmp", "output", "a.png"] := by
      decide +kernel
    exact h ▸ normalizesTo_walk hbase (segments "../output/a.png")
  have hback : NormalizesTo (["tmp", "out"] ++ segments "/shots/..//../out/./a.png")
      ["tmp", "out", "a.png"] := by
    have h : walk ["tmp", "out"] (segments "/shots/..//../out/./a.png") =
        ["tmp", "out", "a.png"] := by
      decide +kernel
    exact h ▸ normalizesTo_walk hbase (segments "/shots/..//../out/./a.png")
  have hsibling : ¬ ["tmp", "out"] <+: ["tmp", "output", "a.png"] := by decide +kernel
  have hbelow : ["tmp", "out"] <+: ["tmp", "out", "a.png"] := by decide +kernel
  have hnull : ¬ hasNull "/shots/..//../out/./a.png" := by decide +kernel
  refine ⟨hbase, fun fs => (hspares _ fs).2 _ hsibling, ?_, ?_⟩
  · exact ((hkeys (.delete "../output/a.png")).2 _ hout).1 hsibling
  · have htarget := ((hkeys (.delete "/shots/..//../out/./a.png")).2 _ hback).2 hbelow
    exact htarget.trans (if_neg hnull)

end LocalDirectory

end Runbook
