import Runbook.Proofs.Containment
import Mathlib.Data.List.Induction
import Mathlib.Data.List.Sort
import Mathlib.Data.String.Basic

/-!
# A directory as a map

What is stored in a directory is found again under its key, and nothing else is. As long as the
segments of the keys name something and no key leads through another, the storage answers as a map
from keys to bytes does: the directories that are made on the way to a file are never in the place
of another, and no file is ever on the way. Directories that are left over when files are deleted
are not listed.

* `LocalDirectory.Shelved base keys bound fs`: below the directory there are the files that the map
  `bound` has.
* `LocalDirectory.Shelved.step`: one request is answered as by the map, and changes the files as it
  does the map.
* `LocalDirectory.refines_map`: any number of requests are answered so.
-/

namespace Runbook

/-! ### Texts cut at slashes -/

namespace Text

theorem joinWith_eq_intercalate (sep : Char) (ps : List (List Char)) :
    joinWith sep ps = [sep].intercalate ps := by
  induction ps with
  | nil => rfl
  | cons p ps ih =>
    cases ps with
    | nil => rw [joinWith, List.intercalate_singleton]
    | cons q qs =>
      rw [joinWith, ih, List.intercalate_cons_cons, List.append_assoc, List.singleton_append]
      exact List.cons_ne_nil q qs

theorem intercalate_pieces (sep : Char) (s : String) :
    (String.singleton sep).intercalate (pieces sep s) = s := by
  rw [← String.toList_inj, String.toList_intercalate, String.toList_singleton, pieces, List.map_map,
    ← joinWith_eq_intercalate]
  simp [Function.comp_def, joinWith_splitAt]

end Text

/-! ### Entries -/

theorem Path.not_prefix_dropLast {p : Path} (hp : p ≠ []) : ¬ p <+: p.dropLast := by
  intro h
  have hlength := h.length_le
  have hpos := List.length_pos_of_ne_nil hp
  rw [List.length_dropLast] at hlength
  omega

namespace FileSystem

variable {base p q : Path} {fs : FileSystem} {e : Entry}

theorem at?_makeDirectory_eq (fs : FileSystem) (p q : Path) :
    (fs.makeDirectory p).at? q =
      if p = q ∧ fs.at? q = none then some .directory else fs.at? q := by
  by_cases hq : p = q ∧ fs.at? q = none
  · obtain ⟨rfl, hnone⟩ := hq
    rw [if_pos ⟨rfl, hnone⟩, makeDirectory, hnone]
    exact at?_put_directory fs p
  · rw [if_neg hq]
    rcases at?_makeDirectory fs p q with hsame | ⟨rfl, hnone, -⟩
    · exact hsame
    · exact absurd ⟨rfl, hnone⟩ hq

theorem at?_foldl_makeDirectory (ds : List Path) (fs : FileSystem) (q : Path) :
    (ds.foldl makeDirectory fs).at? q =
      if q ∈ ds ∧ fs.at? q = none then some .directory else fs.at? q := by
  induction ds generalizing fs with
  | nil => simp
  | cons d ds ih =>
    rw [List.foldl_cons, ih, at?_makeDirectory_eq]
    by_cases hd : d = q
    · subst hd
      by_cases hnone : fs.at? d = none <;> simp [hnone]
    · simp [hd, Ne.symm hd]

theorem mem_leadingTo_iff : q ∈ leadingTo p ↔ q <+: p := by
  simp only [leadingTo, List.mem_map, List.mem_range]
  constructor
  · rintro ⟨n, -, rfl⟩
    exact List.take_prefix n p
  · intro h
    exact ⟨q.length, Nat.lt_succ_of_le h.length_le, (List.prefix_iff_eq_take.mp h).symm⟩

/-- Making directories puts them where nothing is on the way. -/
theorem at?_makeDirectories (fs : FileSystem) (p q : Path) :
    (fs.makeDirectories p).at? q =
      if q <+: p ∧ fs.at? q = none then some .directory else fs.at? q := by
  rw [makeDirectories, at?_foldl_makeDirectory]
  simp only [mem_leadingTo_iff]

theorem file?_makeDirectories (fs : FileSystem) (p q : Path) :
    (fs.makeDirectories p).file? q = fs.file? q := by
  rw [file?, file?, at?_makeDirectories]
  by_cases h : q <+: p ∧ fs.at? q = none
  · rw [if_pos h, h.2]
  · rw [if_neg h]

theorem at?_put_self (fs : FileSystem) {p : Path} (hp : p ≠ []) (e : Entry) :
    (fs.put p e).at? p = some e := by
  rw [at?, if_neg (by simpa using hp), put, lookup_putEntry_self]

theorem file?_put_self (fs : FileSystem) {p : Path} (hp : p ≠ []) (data : List UInt8) :
    (fs.put p (.file data)).file? p = some data := by
  rw [file?, at?_put_self fs hp]

theorem file?_put_of_ne (h : p ≠ q) (e : Entry) : (fs.put p e).file? q = fs.file? q := by
  rw [file?, at?_put_of_ne h, file?]

theorem ne_nil_of_isFile (h : fs.isFile p) : p ≠ [] := by
  rintro rfl
  exact absurd h Bool.false_ne_true

theorem at?_of_isFile (h : fs.isFile p) : ∃ data, fs.at? p = some (.file data) := by
  unfold isFile file? at h
  split at h
  · exact ⟨_, by assumption⟩
  · exact absurd h Bool.false_ne_true

/-- Where a file was removed, nothing is left. -/
theorem at?_removeFile_self (h : fs.isFile p) : (fs.removeFile p).at? p = none := by
  rw [removeFile, if_pos h, at?, if_neg (by simpa using ne_nil_of_isFile h),
    List.lookup_eq_none_iff]
  intro e he
  have hne : e.1 ≠ p := by simpa using (List.mem_filter.mp he).2
  exact bne_iff_ne.mpr hne.symm

theorem file?_removeFile_self (fs : FileSystem) (p : Path) : (fs.removeFile p).file? p = none := by
  by_cases h : fs.isFile p
  · rw [file?, at?_removeFile_self h]
  · rw [removeFile, if_neg h]
    simpa [isFile] using h

theorem file?_removeFile_of_ne (h : p ≠ q) : (fs.removeFile p).file? q = fs.file? q := by
  rw [file?, at?_removeFile_of_ne h, file?]

/-- Removing a file leaves the directories alone. -/
theorem at?_removeFile_eq_directory_iff :
    (fs.removeFile p).at? q = some .directory ↔ fs.at? q = some .directory := by
  by_cases hq : p = q
  · subst hq
    by_cases h : fs.isFile p
    · obtain ⟨data, hdata⟩ := at?_of_isFile h
      rw [at?_removeFile_self h, hdata]
      simp
    · rw [removeFile, if_neg h]
  · rw [at?_removeFile_of_ne hq]

/-! ### The paths of entries -/

/-- The paths strictly below a directory. -/
def IsBelow (base p : Path) : Prop := base <+: p ∧ p ≠ base

instance : DecidablePred (IsBelow base) := fun _ => inferInstanceAs (Decidable (_ ∧ _))

/-- The paths of the entries strictly below a directory. -/
def pathsBelow (base : Path) (fs : FileSystem) : List Path :=
  (fs.entries.map Prod.fst).filter fun p => IsBelow base p

theorem map_fst_putEntry (p : Path) (e : Entry) (entries : List (Path × Entry)) :
    (putEntry p e entries).map Prod.fst =
      if p ∈ entries.map Prod.fst then entries.map Prod.fst else entries.map Prod.fst ++ [p] := by
  induction entries with
  | nil => rfl
  | cons entry entries ih =>
    obtain ⟨q, f⟩ := entry
    by_cases hq : q = p
    · subst hq
      simp [putEntry]
    · rw [putEntry, if_neg hq, List.map_cons, ih, List.map_cons]
      by_cases hp : p ∈ entries.map Prod.fst <;> simp [hp, Ne.symm hq]

theorem nodup_pathsBelow_put (h : (fs.pathsBelow base).Nodup) (p : Path) (e : Entry) :
    ((fs.put p e).pathsBelow base).Nodup := by
  rw [pathsBelow, put, map_fst_putEntry]
  split
  · exact h
  · rename_i hp
    rw [List.filter_append]
    refine h.append ((List.nodup_singleton p).filter _) fun q hq hqp => ?_
    obtain rfl : q = p := List.mem_singleton.mp (List.mem_of_mem_filter hqp)
    exact hp (List.mem_of_mem_filter hq)

theorem nodup_pathsBelow_makeDirectories (h : (fs.pathsBelow base).Nodup) (p : Path) :
    ((fs.makeDirectories p).pathsBelow base).Nodup := by
  unfold makeDirectories
  induction leadingTo p generalizing fs with
  | nil => exact h
  | cons d ds ih =>
    refine ih ?_
    unfold makeDirectory
    split
    · exact h
    · exact nodup_pathsBelow_put h d _

theorem nodup_pathsBelow_removeFile (h : (fs.pathsBelow base).Nodup) (p : Path) :
    ((fs.removeFile p).pathsBelow base).Nodup := by
  unfold removeFile
  split
  · exact h.sublist (((List.filter_sublist).map _).filter _)
  · exact h

theorem map_fst_files_sublist (fs : FileSystem) :
    (fs.files.map Prod.fst).Sublist (fs.entries.map Prod.fst) := by
  obtain ⟨entries⟩ := fs
  induction entries with
  | nil => exact .slnil
  | cons entry entries ih =>
    obtain ⟨p, e⟩ := entry
    cases e with
    | file data => exact ih.cons_cons p
    | directory => exact ih.cons p

/-- Where each path has one entry, the files are those that are found. -/
theorem mem_files_iff {data : List UInt8} (h : (fs.pathsBelow base).Nodup) (hp : IsBelow base p) :
    (p, data) ∈ fs.files ↔ fs.file? p = some data := by
  have hne : p ≠ [] := fun hnil => hp.2 (hnil.trans (List.prefix_nil.mp (hnil ▸ hp.1)).symm)
  have hlookup : fs.file? p = some data ↔ fs.entries.lookup p = some (.file data) := by
    rw [file?, at?, if_neg (by simpa using hne)]
    split <;> simp_all
  have hmem : (p, data) ∈ fs.files ↔ (p, .file data) ∈ fs.entries := by
    simp only [files, List.mem_filterMap]
    constructor
    · rintro ⟨⟨q, f⟩, hq, hf⟩
      cases f with
      | file d => cases hf; exact hq
      | directory => cases hf
    · exact fun hq => ⟨_, hq, rfl⟩
  rw [hlookup, hmem, List.lookup_eq_some_iff]
  constructor
  · intro hentry
    obtain ⟨l₁, l₂, hl⟩ := List.append_of_mem hentry
    refine ⟨l₁, l₂, hl, fun entry hl₁ => bne_iff_ne.mpr ?_⟩
    rintro rfl
    rw [pathsBelow, hl, List.map_append, List.filter_append] at h
    refine List.disjoint_of_nodup_append h (a := entry.1) ?_ ?_
    · exact List.mem_filter.mpr ⟨List.mem_map_of_mem hl₁, decide_eq_true hp⟩
    · exact List.mem_filter.mpr ⟨by simp, decide_eq_true hp⟩
  · rintro ⟨l₁, l₂, hl, -⟩
    simp [hl]

/-! ### Writing -/

/-- A file is written where no file is in the way and no directory in its place. -/
theorem write_eq (hway : ∀ d, d <+: p.dropLast → fs.file? d = none) (hp : p ≠ [])
    (hplace : fs.at? p ≠ some .directory) (data : List UInt8) :
    fs.write p data = .ok ((fs.makeDirectories p.dropLast).put p (.file data)) := by
  have hobstacle : fs.obstacle? p.dropLast = none := by
    have hself : fs.isFile p.dropLast = false := by
      simp [isFile, hway _ List.prefix_rfl]
    have hany : (leadingTo p.dropLast).any fs.isFile = false := by
      rw [List.any_eq_false]
      intro d hd
      simp [isFile, hway d (mem_leadingTo_iff.mp hd)]
    rw [obstacle?, if_neg (by simp [hself]), if_neg (by simp [hany])]
  have hdirectory : (fs.makeDirectories p.dropLast).isDirectory p = false := by
    rw [isDirectory, at?_makeDirectories, if_neg fun h => Path.not_prefix_dropLast hp h.1]
    simpa using hplace
  simp only [write, ensureDirectory, hobstacle, bind, Except.bind, hdirectory]
  rfl

end FileSystem

namespace LocalDirectory

open Runbook.FileSystem (IsBelow pathsBelow)
open Runbook.Path (Names Normal)

variable {base : Path} {key : String} {fs : FileSystem}

/-! ### Keys -/

instance : DecidablePred Names := fun s =>
  decidable_of_iff (s ≠ "" ∧ s ≠ "." ∧ s ≠ "..")
    ⟨fun ⟨h₁, h₂, h₃⟩ => ⟨h₁, h₂, h₃⟩, fun ⟨h₁, h₂, h₃⟩ => ⟨h₁, h₂, h₃⟩⟩

instance : DecidablePred Normal := fun p => inferInstanceAs (Decidable (∀ s ∈ p, Names s))

theorem intercalate_segments (key : String) : "/".intercalate (segments key) = key :=
  Text.intercalate_pieces '/' key

theorem segments_ne_nil (key : String) : segments key ≠ [] := by
  simpa [segments, Text.pieces] using Text.splitAt_ne_nil '/' key.toList

theorem segments_injective {k k' : String} (h : segments k = segments k') : k = k' := by
  rw [← intercalate_segments k, h, intercalate_segments]

/-- A key whose segments are names stands for the path they make, unless it has a null character. -/
theorem target_of_normal (hkey : Normal (segments key)) (base : Path) :
    target base key =
      if hasNull key then .error unspeakable else .ok (base ++ segments key) := by
  have hwalk : walk base (segments (withoutSlashes key)) = base ++ segments key := by
    rw [walk_withoutSlashes, walk_normal hkey]
  unfold target
  rw [hwalk]
  simp only [List.isPrefixOf_iff_prefix.mpr (List.prefix_append base (segments key)), if_true]
  rfl

/-! ### Requests -/

/-- What can be asked of the storage. -/
inductive Request where
  | change (op : Operation)
  | list (beginning : String)

/-- What is answered. -/
inductive Reply where
  | stored (key : String)
  | removed
  | keys (keys : List String)

namespace Request

/-- The key that is meant, if there is one. -/
def key? : Request → Option String
  | change op => some op.key
  | list _ => none

/-- The answer. -/
def reply (base : Path) (fs : FileSystem) : Request → Except Fault Reply
  | change (.upload key data) => (upload base key data fs).map fun (key, _) => .stored key
  | change (.delete key) => (delete base key fs).map fun _ => .removed
  | list beginning => .ok (.keys (LocalDirectory.list base beginning fs))

/-- The files afterwards. -/
def after (base : Path) (fs : FileSystem) : Request → FileSystem
  | change op => carryOut base fs op
  | list _ => fs

/-- What a request does to a map from keys to bytes, unless its key is refused. -/
def bind (bound : String → Option (List UInt8)) : Request → String → Option (List UInt8)
  | change op =>
    if hasNull op.key then bound
    else
      match op with
      | .upload key data => Function.update bound key (some data)
      | .delete key => Function.update bound key none
  | list _ => bound

/-- How a map answers. -/
def Meets (bound : String → Option (List UInt8)) : Request → Except Fault Reply → Prop
  | change op, r =>
    if hasNull op.key then r = .error unspeakable
    else
      match op with
      | .upload key _ => r = .ok (.stored key)
      | .delete _ => r = .ok .removed
  | list beginning, r => ∃ keys, r = .ok (.keys keys) ∧ keys.Pairwise (· < ·) ∧
    ∀ key, key ∈ keys ↔ (bound key).isSome ∧ (withoutSlashes beginning).toList <+: key.toList

/-- A request with a key that is refused is refused. -/
theorem reply_of_target_error {op : Operation} {f : Fault} (h : target base op.key = .error f) :
    (change op).reply base fs = .error f := by
  cases op with
  | upload key data => rw [reply, upload, show target base key = _ from h]; rfl
  | delete key => rw [reply, delete, show target base key = _ from h]; rfl

end Request

/-- The segments of the keys are names, and no key leads through another. -/
structure Apart (keys : List String) : Prop where
  normal : ∀ key ∈ keys, Normal (segments key)
  apart : ∀ key ∈ keys, ∀ key' ∈ keys, segments key <+: segments key' → key = key'

/-- The files below a directory are those that a map has, and the directories are on the way to
them or have been. -/
structure Shelved (base : Path) (keys : List String) (bound : String → Option (List UInt8))
    (fs : FileSystem) : Prop where
  file : ∀ q data, q ≠ [] →
    (fs.file? (base ++ q) = some data ↔ ∃ key, segments key = q ∧ bound key = some data)
  way : ∀ q, q <+: base → fs.file? q = none
  directory : ∀ q, q ≠ [] → fs.at? (base ++ q) = some .directory →
    ∃ key ∈ keys, q <+: segments key ∧ q ≠ segments key
  bound : ∀ key, (bound key).isSome → key ∈ keys ∧ fs.at? base = some .directory
  nodup : (fs.pathsBelow base).Nodup

/-- The paths of the files below a directory. -/
def filesBelow (base : Path) (fs : FileSystem) : List Path :=
  (fs.files.map Prod.fst).filter fun p => base.isPrefixOf p && p ≠ base

/-- The key of a path below a directory. -/
def keyOf (base p : Path) : String := "/".intercalate (p.drop base.length)

theorem keys_eq (base : Path) (fs : FileSystem) :
    keys base fs =
      if fs.isDirectory base then
        ((filesBelow base fs).map (keyOf base)).mergeSort fun a b => a ≤ b
      else [] :=
  rfl

theorem keyOf_append (base : Path) (key : String) : keyOf base (base ++ segments key) = key := by
  rw [keyOf, List.drop_left, intercalate_segments]

namespace Shelved

variable {keys : List String} {bound : String → Option (List UInt8)} {fs' : FileSystem}

/-- The path of a key is below the directory. -/
theorem append_ne (base : Path) (key : String) : base ++ segments key ≠ base := fun h =>
  segments_ne_nil key (List.append_right_eq_self.mp h)

theorem ne_of_leadsTo {q : Path} (hq : q <+: base) : base ++ segments key ≠ q := by
  rintro rfl
  exact append_ne base key ((List.prefix_append ..).eq_of_length (by
    have := hq.length_le
    have := (List.prefix_append base (segments key)).length_le
    omega)).symm

/-- When the file of one key is changed, the map is changed at that key. -/
theorem file_update (h : Shelved base keys bound fs) {v : Option (List UInt8)}
    (hself : fs'.file? (base ++ segments key) = v)
    (hother : ∀ q, base ++ segments key ≠ q → fs'.file? q = fs.file? q) (q : Path)
    (data : List UInt8) (hq : q ≠ []) :
    fs'.file? (base ++ q) = some data ↔
      ∃ key', segments key' = q ∧ Function.update bound key v key' = some data := by
  by_cases hkey : segments key = q
  · subst hkey
    rw [hself]
    constructor
    · exact fun hv => ⟨key, rfl, (Function.update_self ..).trans hv⟩
    · rintro ⟨key', hsegments, hv⟩
      obtain rfl := segments_injective hsegments
      rwa [Function.update_self] at hv
  · rw [hother _ fun heq => hkey (List.append_cancel_left heq), h.file q data hq]
    have hupdate : ∀ key', segments key' = q → Function.update bound key v key' = bound key' := by
      rintro key' rfl
      exact Function.update_of_ne (fun heq => hkey (congrArg segments heq.symm)) ..
    constructor
    · exact fun ⟨key', hsegments, hv⟩ => ⟨key', hsegments, (hupdate key' hsegments).trans hv⟩
    · exact fun ⟨key', hsegments, hv⟩ => ⟨key', hsegments, (hupdate key' hsegments).symm.trans hv⟩

/-- No file is in the way of a key. -/
theorem file?_of_prefix_dropLast (h : Shelved base keys bound fs) (hkeys : Apart keys)
    (hkey : key ∈ keys) {d : Path} (hd : d <+: base ++ (segments key).dropLast) :
    fs.file? d = none := by
  rcases List.prefix_or_prefix_of_prefix hd (List.prefix_append ..) with hbase | ⟨t, rfl⟩
  · exact h.way d hbase
  by_cases ht : t = []
  · subst ht
    exact h.way _ (by simp)
  refine Option.eq_none_iff_forall_ne_some.mpr fun data hdata => ?_
  obtain ⟨key', rfl, hbound⟩ := (h.file t data ht).mp hdata
  have hmem : key' ∈ keys := (h.bound key' (by rw [hbound]; rfl)).1
  have hbegins : segments key' <+: (segments key).dropLast :=
    (List.prefix_append_right_inj base).mp hd
  obtain rfl := hkeys.apart key' hmem key hkey (hbegins.trans (List.dropLast_prefix _))
  exact Path.not_prefix_dropLast (segments_ne_nil key') hbegins

/-- No directory is in the place of a key. -/
theorem at?_ne_directory (h : Shelved base keys bound fs) (hkeys : Apart keys)
    (hkey : key ∈ keys) : fs.at? (base ++ segments key) ≠ some .directory := by
  intro hdirectory
  obtain ⟨key', hkey', hbegins, hne⟩ := h.directory _ (segments_ne_nil key) hdirectory
  exact hne (congrArg segments (hkeys.apart key hkey key' hkey' hbegins))

theorem upload (h : Shelved base keys bound fs) (hkeys : Apart keys) (hkey : key ∈ keys)
    (data : List UInt8) :
    ∃ fs', fs.write (base ++ segments key) data = .ok fs' ∧
      Shelved base keys (Function.update bound key (some data)) fs' := by
  have hpath : base ++ segments key ≠ [] := by simp [segments_ne_nil]
  have hdropLast : (base ++ segments key).dropLast = base ++ (segments key).dropLast :=
    List.dropLast_append_of_ne_nil (segments_ne_nil key)
  have hway : ∀ d, d <+: (base ++ segments key).dropLast → fs.file? d = none := fun d hd =>
    h.file?_of_prefix_dropLast hkeys hkey (hdropLast ▸ hd)
  have hplace := h.at?_ne_directory hkeys hkey
  refine ⟨_, FileSystem.write_eq hway hpath hplace data, ?_⟩
  rw [hdropLast]
  have hother : ∀ q, base ++ segments key ≠ q →
      ((fs.makeDirectories (base ++ (segments key).dropLast)).put (base ++ segments key)
        (.file data)).file? q = fs.file? q := fun q hq => by
    rw [FileSystem.file?_put_of_ne hq, FileSystem.file?_makeDirectories]
  constructor
  · exact h.file_update (FileSystem.file?_put_self _ hpath data) hother
  · exact fun q hq => (hother q (ne_of_leadsTo hq)).trans (h.way q hq)
  · intro q hq hdirectory
    have hne : base ++ segments key ≠ base ++ q := by
      intro heq
      rw [← heq, FileSystem.at?_put_self _ hpath] at hdirectory
      cases hdirectory
    rw [FileSystem.at?_put_of_ne hne, FileSystem.at?_makeDirectories] at hdirectory
    split at hdirectory
    · rename_i hmade
      have hbegins := (List.prefix_append_right_inj base).mp hmade.1
      refine ⟨key, hkey, hbegins.trans (List.dropLast_prefix _), ?_⟩
      rintro rfl
      exact Path.not_prefix_dropLast hq hbegins
    · exact h.directory q hq hdirectory
  · intro key' hbound
    constructor
    · by_cases heq : key' = key
      · exact heq ▸ hkey
      · rw [Function.update_of_ne heq] at hbound
        exact (h.bound key' hbound).1
    -- The directory was there or has been made, as no file is in its place.
    · rw [FileSystem.at?_put_of_ne (append_ne base key), FileSystem.at?_makeDirectories]
      split
      · rfl
      · rename_i hthere
        have hfile := h.way base List.prefix_rfl
        rw [FileSystem.file?] at hfile
        cases hat : fs.at? base with
        | none => exact absurd ⟨List.prefix_append .., hat⟩ hthere
        | some e =>
          cases e with
          | directory => rfl
          | file data =>
            rw [hat] at hfile
            cases hfile
  · exact FileSystem.nodup_pathsBelow_put
      (FileSystem.nodup_pathsBelow_makeDirectories h.nodup _) _ _

theorem delete (h : Shelved base keys bound fs) (key : String) :
    Shelved base keys (Function.update bound key none)
      (fs.removeFile (base ++ segments key)) := by
  constructor
  · exact h.file_update (FileSystem.file?_removeFile_self ..) fun q hq =>
      FileSystem.file?_removeFile_of_ne hq
  · exact fun q hq => (FileSystem.file?_removeFile_of_ne (ne_of_leadsTo hq)).trans (h.way q hq)
  · exact fun q hq hdirectory =>
      h.directory q hq (FileSystem.at?_removeFile_eq_directory_iff.mp hdirectory)
  · intro key' hbound
    rw [FileSystem.at?_removeFile_eq_directory_iff]
    refine h.bound key' ?_
    by_cases hkey : key' = key
    · rw [hkey, Function.update_self] at hbound
      exact absurd hbound Bool.false_ne_true
    · rwa [Function.update_of_ne hkey] at hbound
  · exact FileSystem.nodup_pathsBelow_removeFile h.nodup _

/-- The paths of the files below the directory are those of the keys that are bound. -/
theorem mem_filesBelow_iff (h : Shelved base keys bound fs) (p : Path) :
    p ∈ filesBelow base fs ↔ ∃ key, (bound key).isSome ∧ p = base ++ segments key := by
  rw [filesBelow, List.mem_filter, Bool.and_eq_true, List.isPrefixOf_iff_prefix,
    decide_eq_true_iff, List.mem_map]
  constructor
  · rintro ⟨⟨⟨p, data⟩, hp, rfl⟩, ⟨q, rfl⟩, hne⟩
    have hq : q ≠ [] := by
      rintro rfl
      exact hne (List.append_nil base)
    rw [FileSystem.mem_files_iff h.nodup ⟨List.prefix_append .., hne⟩, h.file q data hq] at hp
    obtain ⟨key, rfl, hbound⟩ := hp
    exact ⟨key, by rw [hbound]; rfl, rfl⟩
  · rintro ⟨key, hbound, rfl⟩
    obtain ⟨data, hdata⟩ := Option.isSome_iff_exists.mp hbound
    have hbelow : IsBelow base (base ++ segments key) :=
      ⟨List.prefix_append .., append_ne base key⟩
    refine ⟨⟨(_, data), ?_, rfl⟩, hbelow⟩
    rw [FileSystem.mem_files_iff h.nodup hbelow, h.file _ data (segments_ne_nil key)]
    exact ⟨key, rfl, hdata⟩

theorem nodup_filesBelow (h : Shelved base keys bound fs) : (filesBelow base fs).Nodup := by
  have hbelow : (fun p : Path => base.isPrefixOf p && p ≠ base) = fun p => IsBelow base p := by
    funext p
    rw [Bool.eq_iff_iff, Bool.and_eq_true, List.isPrefixOf_iff_prefix, decide_eq_true_iff,
      decide_eq_true_iff]
    rfl
  rw [filesBelow, hbelow]
  exact h.nodup.sublist ((FileSystem.map_fst_files_sublist fs).filter _)

/-- Each key is listed once. -/
theorem nodup_keysBelow (h : Shelved base keys bound fs) :
    ((filesBelow base fs).map (keyOf base)).Nodup := by
  refine h.nodup_filesBelow.map_on fun p hp p' hp' heq => ?_
  obtain ⟨key, -, rfl⟩ := (h.mem_filesBelow_iff p).mp hp
  obtain ⟨key', -, rfl⟩ := (h.mem_filesBelow_iff p').mp hp'
  rw [keyOf_append, keyOf_append] at heq
  rw [heq]

/-- The keys that are listed are those that are bound, in order. -/
theorem keys_spec (h : Shelved base keys bound fs) :
    (LocalDirectory.keys base fs).Pairwise (· < ·) ∧
      ∀ key, key ∈ LocalDirectory.keys base fs ↔ (bound key).isSome := by
  rw [keys_eq]
  split
  · have hperm := List.mergeSort_perm ((filesBelow base fs).map (keyOf base)) fun a b => a ≤ b
    have hsorted := List.pairwise_mergeSort' (· ≤ ·) ((filesBelow base fs).map (keyOf base))
    have hnodup := hperm.nodup_iff.mpr h.nodup_keysBelow
    refine ⟨(hsorted.and hnodup).imp fun h => lt_of_le_of_ne h.1 h.2, fun key => ?_⟩
    rw [hperm.mem_iff, List.mem_map]
    simp only [h.mem_filesBelow_iff]
    constructor
    · rintro ⟨_, ⟨key', hbound, rfl⟩, rfl⟩
      rwa [keyOf_append]
    · exact fun hbound => ⟨_, ⟨key, hbound, rfl⟩, keyOf_append base key⟩
  · rename_i hmissing
    refine ⟨.nil, fun key => ⟨nofun, fun hbound => ?_⟩⟩
    exact absurd (decide_eq_true (h.bound key hbound).2) hmissing

theorem step_upload (h : Shelved base keys bound fs) (hkeys : Apart keys) (hkey : key ∈ keys)
    (htarget : target base key = .ok (base ++ segments key)) (data : List UInt8) :
    (Request.change (.upload key data)).reply base fs = .ok (.stored key) ∧
      Shelved base keys (Function.update bound key (some data))
        (carryOut base fs (.upload key data)) := by
  obtain ⟨fs', hwrite, hshelved⟩ := h.upload hkeys hkey data
  have hupload : LocalDirectory.upload base key data fs = .ok (key, fs') := by
    rw [LocalDirectory.upload, htarget]
    change (fs.write (base ++ segments key) data >>= _) = _
    rw [hwrite]
    rfl
  constructor
  · rw [Request.reply, hupload]
    rfl
  · rw [carryOut, Operation.run, hupload]
    exact hshelved

theorem step_delete (h : Shelved base keys bound fs)
    (htarget : target base key = .ok (base ++ segments key)) :
    (Request.change (.delete key)).reply base fs = .ok .removed ∧
      Shelved base keys (Function.update bound key none) (carryOut base fs (.delete key)) := by
  have hdelete : LocalDirectory.delete base key fs =
      .ok (fs.removeFile (base ++ segments key)) := by
    rw [LocalDirectory.delete, htarget]
    change (if _ then _ else _) = _
    rw [if_neg (append_ne base key)]
    rfl
  constructor
  · rw [Request.reply, hdelete]
    rfl
  · rw [carryOut, Operation.run, hdelete]
    exact h.delete key

/-- One request is answered as by the map, and changes the files as it does the map. -/
theorem step (h : Shelved base keys bound fs) (hkeys : Apart keys) {q : Request}
    (hq : ∀ key ∈ q.key?, key ∈ keys) :
    q.Meets bound (q.reply base fs) ∧ Shelved base keys (q.bind bound) (q.after base fs) := by
  cases q with
  | list beginning =>
    obtain ⟨hsorted, hmem⟩ := h.keys_spec
    refine ⟨⟨_, rfl, hsorted.filter _, fun key => ?_⟩, h⟩
    rw [LocalDirectory.list, List.mem_filter, hmem, List.isPrefixOf_iff_prefix]
  | change op =>
    have hkey : op.key ∈ keys := hq op.key rfl
    have htarget := target_of_normal (hkeys.normal op.key hkey) base
    unfold Request.Meets Request.bind
    dsimp only
    by_cases hnull : hasNull op.key
    · rw [if_pos hnull] at htarget ⊢
      rw [if_pos hnull, Request.after, carryOut_of_error (op.run_of_target_error htarget fs)]
      exact ⟨Request.reply_of_target_error htarget, h⟩
    · rw [if_neg hnull] at htarget ⊢
      rw [if_neg hnull]
      cases op with
      | upload key data => exact h.step_upload hkeys hkey htarget data
      | delete key => exact h.step_delete htarget

end Shelved

/-! ### Any number of requests -/

/-- There is nothing below a directory, and no file in its place or on the way to it. -/
structure Vacant (base : Path) (fs : FileSystem) : Prop where
  below : ∀ q, q ≠ [] → fs.at? (base ++ q) = none
  way : ∀ q, q <+: base → fs.file? q = none

/-- The files after requests, one after the other. -/
def filesAfter (base : Path) (fs : FileSystem) (requests : List Request) : FileSystem :=
  requests.foldl (Request.after base) fs

/-- The map after requests, if nothing was bound before. -/
def boundAfter (requests : List Request) : String → Option (List UInt8) :=
  requests.foldl Request.bind fun _ => none

theorem shelved_of_vacant (h : Vacant base fs) (keys : List String) :
    Shelved base keys (fun _ => none) fs := by
  constructor
  · intro q data hq
    rw [FileSystem.file?, h.below q hq]
    constructor
    · intro hnone
      cases hnone
    · rintro ⟨_, _, hnone⟩
      cases hnone
  · exact h.way
  · intro q hq hdirectory
    rw [h.below q hq] at hdirectory
    cases hdirectory
  · intro _ hnone
    cases hnone
  · suffices hnil : fs.pathsBelow base = [] by
      rw [hnil]
      exact .nil
    rw [FileSystem.pathsBelow, List.filter_eq_nil_iff]
    intro p hp hbelow
    obtain ⟨⟨q, rfl⟩, hne⟩ := of_decide_eq_true hbelow
    have hq : q ≠ [] := by
      rintro rfl
      exact hne (List.append_nil base)
    have hnone := h.below q hq
    rw [FileSystem.at?, if_neg (by simp [hq]), List.lookup_eq_none_iff] at hnone
    obtain ⟨entry, hentry, hpath⟩ := List.mem_map.mp hp
    exact absurd hpath.symm (bne_iff_ne.mp (hnone entry hentry))

theorem shelved_filesAfter (h : Vacant base fs) {keys : List String} (hkeys : Apart keys)
    {requests : List Request} (hrequests : ∀ q ∈ requests, ∀ key ∈ q.key?, key ∈ keys) :
    Shelved base keys (boundAfter requests) (filesAfter base fs requests) := by
  induction requests using List.reverseRecOn with
  | nil => exact shelved_of_vacant h keys
  | append_singleton requests q ih =>
    rw [boundAfter, filesAfter, List.foldl_concat, List.foldl_concat]
    refine (Shelved.step (ih fun q hq => hrequests q (List.mem_append_left _ hq)) hkeys ?_).2
    exact hrequests q (by simp)

/-- **Storage is a map from keys to bytes.** In a directory that is empty at first, whatever is
uploaded, deleted and listed under keys that name something, none of which leads through another:
the file of each key has the bytes that are bound to it, an upload gives its key back and a deletion
never fails, and a listing is of the bound keys that begin with a text, each once and in order. Only
a key with a null character is refused, and then nothing changes. -/
theorem refines_map (hvacant : Vacant base fs) {requests : List Request}
    (hkeys : Apart (requests.filterMap Request.key?)) :
    (∀ key, (filesAfter base fs requests).file? (base ++ segments key) =
      boundAfter requests key) ∧
    ∀ earlier q later, requests = earlier ++ q :: later →
      q.Meets (boundAfter earlier) (q.reply base (filesAfter base fs earlier)) := by
  have hmem : ∀ q ∈ requests, ∀ key ∈ q.key?, key ∈ requests.filterMap Request.key? :=
    fun q hq key hkey => List.mem_filterMap.mpr ⟨q, hq, hkey⟩
  constructor
  · intro key
    refine Option.ext fun data => ?_
    rw [(shelved_filesAfter hvacant hkeys hmem).file _ data (segments_ne_nil key)]
    constructor
    · rintro ⟨key', hsegments, hdata⟩
      rwa [segments_injective hsegments] at hdata
    · exact fun hdata => ⟨key, rfl, hdata⟩
  · rintro earlier q later rfl
    have hearlier := shelved_filesAfter hvacant hkeys fun q hq =>
      hmem q (List.mem_append_left _ hq)
    exact (hearlier.step hkeys (hmem q (by simp))).1

theorem vacant_nil (base : Path) : Vacant base {} := by
  have hnone : ∀ q : Path, ({} : FileSystem).file? q = none := fun q => by
    cases q <;> rfl
  refine ⟨fun q hq => ?_, fun q _ => hnone q⟩
  rw [FileSystem.at?, if_neg (by simp [hq])]
  rfl

/-- Two files in a directory of their own. -/
def siblings : List Request := [
  .change (.upload "a/b" [1]), .change (.upload "a/bc" [2]), .change (.delete "a/b"), .list "/a/"]

/-- One of them is deleted, and the other is listed. -/
theorem refines_map_siblings :
    Vacant ["data"] {} ∧ Apart (siblings.filterMap Request.key?) ∧
    ∃ keys, (Request.list "/a/").reply ["data"] (filesAfter ["data"] {} (siblings.take 3)) =
        .ok (.keys keys) ∧ "a/b" ∉ keys ∧ "a/bc" ∈ keys := by
  have hvacant : Vacant ["data"] {} := vacant_nil _
  have hapart : Apart (siblings.filterMap Request.key?) := ⟨by decide +kernel, by decide +kernel⟩
  obtain ⟨keys, hreply, -, hkeys⟩ := (refines_map hvacant hapart).2 (siblings.take 3) _ [] rfl
  refine ⟨hvacant, hapart, keys, hreply, ?_, ?_⟩
  · rw [hkeys]
    decide +kernel
  · rw [hkeys]
    decide +kernel

/-- A null character is no part of a name that a file can have. -/
theorem refused_of_null :
    Vacant ["data"] {} ∧ Apart ["nul\x00x"] ∧
    (Request.change (.upload "nul\x00x" [49])).reply ["data"] {} = .error unspeakable ∧
    (Request.list "").reply ["data"] (filesAfter ["data"] {} [.change (.upload "nul\x00x" [49])]) =
      .ok (.keys []) := by
  refine ⟨vacant_nil _, ⟨by decide +kernel, by decide +kernel⟩, ?_, ?_⟩
  · have htarget : target ["data"] (Operation.upload "nul\x00x" [49]).key = .error unspeakable := by
      decide +kernel
    exact Request.reply_of_target_error htarget
  · rfl

end LocalDirectory

end Runbook
