/- FastTransfer/Filesystem/DistinctPaths
   source: src/filesystem/FileEnumerator.cpp, src/platform/PlatformFilesystem.cpp
   digest: Which selections are enumerated to a manifest that keeps their files apart. -/

import FastTransfer.Filesystem.FileEnumerator
import FastTransfer.Platform.CleanPath
import Mathlib.Algebra.BigOperators.Group.List.Basic

set_option autoImplicit false
set_option relaxedAutoImplicit false

namespace FastTransfer.FileEnumerator

open QString
open PlatformFilesystem

variable (fs : FileSystem)

/-- The files that one input path selects, with the names they have before sanitising: that of the
file itself, or its path from the selected folder on. -/
def selected (pathStr : QString) : List (QString × QFileInfo) :=
  match fs.info pathStr with
  | none => []
  | some info =>
      if info.isFile then [(namePart pathStr, info)]
      else if info.isDir then
        let root := info.absoluteFilePath
        let rootDirName := if namePart pathStr = [] then literal "Folder" else namePart pathStr
        (fs.files root).map fun found =>
          (rootDirName ++ slash :: fs.relativeFilePath root found.1, found.2)
      else []

def enumerated (inputPaths : List QString) : List (QString × QFileInfo) :=
  inputPaths.flatMap (selected fs)

/-! When two names stand for one path. -/

/-- What separates the parts of a name, on one platform or another. -/
def isSeparator (c : UInt16) : Bool := c == slash || c == backslash

/-- The parts of a name, behind a drive letter. -/
def nameParts (name : QString) : List QString :=
  let name := name.dropWhile isSeparator
  (if name[1]? = some colon then name.drop 2 else name).splitOnP isSeparator

/-- The middle of a part, with nothing but blanks around it and none at its ends. -/
def Middle (part middle : QString) : Prop :=
  ∃ front behind, part = front ++ middle ++ behind ∧
    (∀ c ∈ front, isSpace c = true) ∧ (∀ c ∈ behind, isSpace c = true) ∧
    (∀ c, middle.head? = some c → isSpace c = false) ∧
    ∀ c, middle.getLast? = some c → isSpace c = false

/-- A part stands for the legal characters of its middle or, beside an unpaired surrogate, for all
of them; dots, or nothing legal, stand for nothing. -/
def StandsFor (part name : QString) : Prop :=
  name ≠ [] ∧ ∃ middle, Middle part middle ∧ middle ≠ [dot] ∧ middle ≠ [dot, dot] ∧
    (isValidUtf16 middle = true ∧ name = middle.filter (fun c => !isIllegalChar c) ∨
      isValidUtf16 middle = false ∧ name = middle)

/-- What the parts stand for, one after the other. -/
inductive Reads : List QString → List QString → Prop
  | nil : Reads [] []
  | skip {part : QString} {parts names : List QString} (none : ∀ name, ¬ StandsFor part name)
      (rest : Reads parts names) : Reads (part :: parts) names
  | keep {part name : QString} {parts names : List QString} (some : StandsFor part name)
      (rest : Reads parts names) : Reads (part :: parts) (name :: names)

/-- The parts of both names stand for the same. -/
def Alike (first second : QString) : Prop :=
  ∃ names, Reads (nameParts first) names ∧ Reads (nameParts second) names

private theorem middle_iff {part middle : QString} :
    Middle part middle ↔ trimmed part = middle := by
  constructor
  · rintro ⟨front, behind, rfl, before, after, first, last⟩
    have ahead : (front ++ middle ++ behind).dropWhile isSpace =
        (middle ++ behind).dropWhile isSpace := by
      rw [List.append_assoc, List.dropWhile_append_of_pos before]
    show ((front ++ middle ++ behind).dropWhile isSpace).rdropWhile isSpace = middle
    rw [ahead]
    by_cases empty : middle = []
    · rw [empty, List.nil_append, List.dropWhile_eq_nil_iff.mpr after]
      rfl
    · obtain ⟨c, rest, rfl⟩ := List.exists_cons_of_ne_nil empty
      rw [List.cons_append, List.dropWhile_cons_of_neg (by rw [first c rfl]; decide),
        ← List.cons_append, List.rdropWhile, List.reverse_append,
        List.dropWhile_append_of_pos fun c mem => after c (List.mem_reverse.mp mem)]
      show (c :: rest).rdropWhile isSpace = c :: rest
      rw [List.rdropWhile_eq_self_iff]
      intro more blank
      rw [last _ (List.getLast?_eq_getLast_of_ne_nil more)] at blank
      cases blank
  · rintro rfl
    refine ⟨part.takeWhile isSpace, (part.dropWhile isSpace).rtakeWhile isSpace, ?_,
      fun c mem => List.mem_takeWhile_imp mem, fun c mem => List.mem_rtakeWhile_imp mem, ?_, ?_⟩
    · show part = part.takeWhile isSpace ++ (part.dropWhile isSpace).rdropWhile isSpace ++ _
      rw [List.append_assoc, List.rdropWhile_append_rtakeWhile, List.takeWhile_append_dropWhile]
    · intro c head
      by_contra blank
      obtain ⟨rest, eq⟩ := List.head?_eq_some_iff.mp head
      -- a blank in front would be trimmed away
      have shorter : trimmed (c :: rest) = trimmed rest := by
        unfold trimmed
        rw [List.dropWhile_cons_of_pos (Bool.of_not_eq_false blank)]
      have length := (trimmed_sublist rest).length_le
      rw [← shorter, ← eq, trimmed_trimmed, eq, List.length_cons] at length
      omega
    · intro c final
      have nonempty : (part.dropWhile isSpace).rdropWhile isSpace ≠ [] := by
        intro empty
        rw [show trimmed part = [] from empty] at final
        cases final
      have stays := List.rdropWhile_last_not isSpace (part.dropWhile isSpace) nonempty
      rw [show trimmed part = (part.dropWhile isSpace).rdropWhile isSpace from rfl,
        List.getLast?_eq_getLast_of_ne_nil nonempty] at final
      rw [Option.some.inj final] at stays
      exact Bool.eq_false_iff.mpr stays

theorem standsFor_iff {part name : QString} :
    StandsFor part name ↔ sanitizeSegment part = some name := by
  have left : removeClass isIllegalChar (trimmed part) = name ↔
      (isValidUtf16 (trimmed part) = true ∧
          name = (trimmed part).filter (fun c => !isIllegalChar c) ∨
        isValidUtf16 (trimmed part) = false ∧ name = trimmed part) := by
    unfold removeClass
    cases isValidUtf16 (trimmed part) <;> simp [eq_comm]
  unfold StandsFor sanitizeSegment
  simp only [middle_iff, exists_eq_left', ← left]
  constructor
  · rintro ⟨nonempty, one, two, rfl⟩
    have some : trimmed part ≠ [] := by
      intro empty
      rw [empty] at nonempty
      exact nonempty rfl
    rw [if_neg (not_or.mpr ⟨some, not_or.mpr ⟨one, two⟩⟩), if_neg nonempty]
  · intro kept
    split at kept
    · cases kept
    rename_i proper
    split at kept
    · cases kept
    rename_i nonempty
    cases kept
    obtain ⟨-, dots⟩ := not_or.mp proper
    exact ⟨nonempty, (not_or.mp dots).1, (not_or.mp dots).2, rfl⟩

theorem reads_iff {parts names : List QString} :
    Reads parts names ↔ parts.filterMap sanitizeSegment = names := by
  constructor
  · intro reads
    induction reads with
    | nil => rfl
    | @skip part parts names none rest ih =>
        rw [List.filterMap_cons_none, ih]
        rw [Option.eq_none_iff_forall_ne_some]
        exact fun name eq => none name (standsFor_iff.mpr eq)
    | keep some rest ih => rw [List.filterMap_cons_some (standsFor_iff.mp some), ih]
  · rintro rfl
    induction parts with
    | nil => exact .nil
    | cons part parts ih =>
        cases kept : sanitizeSegment part with
        | none =>
            rw [List.filterMap_cons_none kept]
            refine .skip (fun name stands => ?_) ih
            cases kept.symm.trans (standsFor_iff.mp stands)
        | some name =>
            rw [List.filterMap_cons_some kept]
            exact .keep (standsFor_iff.mpr kept) ih

def components (name : QString) : List QString := (pathSegments name).filterMap sanitizeSegment

/-- A separator is what becomes a slash. -/
private theorem splitOnP_separator (s : QString) :
    s.splitOnP isSeparator = (replaceChar s backslash slash).splitOn slash := by
  induction s with
  | nil => rfl
  | cons c s ih =>
      rw [replaceChar, List.map_cons, List.splitOnP_cons_eq_if_modifyHead,
        List.splitOn_cons_eq_if_modifyHead, ih, replaceChar]
      by_cases back : c = backslash
      · subst back
        rfl
      · rw [if_neg back, isSeparator, (beq_eq_false_iff_ne.mpr back), Bool.or_false]

theorem components_eq (name : QString) :
    components name = (nameParts name).filterMap sanitizeSegment := by
  have leading : stripLeading slash (replaceChar name backslash slash) =
      replaceChar (name.dropWhile isSeparator) backslash slash := by
    rw [stripLeading, replaceChar, replaceChar, List.dropWhile_map]
    congr 2
    funext c
    by_cases back : c = backslash
    · subst back
      rfl
    · rw [Function.comp_apply, if_neg back, isSeparator, beq_eq_false_iff_ne.mpr back, Bool.or_false]
      rfl
  have colons : ∀ s : QString, (replaceChar s backslash slash)[1]? = some colon ↔
      s[1]? = some colon := by
    intro s
    rw [replaceChar, List.getElem?_map]
    cases s[1]? with
    | none => rfl
    | some c =>
        by_cases back : c = backslash
        · subst back
          exact iff_of_false (by decide) (by decide)
        · rw [Option.map_some, if_neg back]
  have drive : ∀ s : QString, splitSkipEmpty slash (stripDrive (replaceChar s backslash slash)) =
      splitSkipEmpty slash
        (replaceChar (if s[1]? = some colon then s.drop 2 else s) backslash slash) := by
    intro s
    unfold stripDrive
    by_cases drive : s[1]? = some colon
    · have long : 2 ≤ (replaceChar s backslash slash).length := by
        rw [replaceChar, List.length_map]
        exact (List.getElem?_eq_some_iff.mp drive).1
      rw [if_pos ⟨long, (colons s).mpr drive⟩, if_pos drive, splitSkipEmpty_stripLeading,
        replaceChar, replaceChar, List.map_drop]
    · rw [if_neg fun both => drive ((colons s).mp both.2), if_neg drive]
  rw [components, pathSegments, leading, drive, splitSkipEmpty, ← splitOnP_separator, nameParts,
    List.filterMap_filter]
  refine List.filterMap_congr fun part _ => ?_
  by_cases empty : part = []
  · subst empty
    rfl
  · rw [if_pos (by simpa using empty)]

theorem alike_iff (first second : QString) :
    Alike first second ↔ components first = components second := by
  simp only [Alike, reads_iff, ← components_eq]
  exact ⟨fun ⟨names, one, two⟩ => one.trans two.symm, fun same => ⟨_, rfl, same.symm⟩⟩

private theorem addPath_selected (state : State) (pathStr : QString) :
    addPath fs state pathStr =
      (selected fs pathStr).foldl (fun state file => addFile state file.1 file.2) state := by
  unfold addPath selected
  cases fs.info pathStr with
  | none => rfl
  | some info =>
      dsimp only
      split
      · rfl
      split
      · rw [List.foldl_map]
        rfl
      · rfl

theorem enumeratePaths_eq (inputPaths : List QString) :
    enumeratePaths fs inputPaths =
      ((enumerated fs inputPaths).foldl (fun state file => addFile state file.1 file.2)
        (0, {})).2 := by
  have step : ∀ state, inputPaths.foldl (addPath fs) state =
      (enumerated fs inputPaths).foldl (fun state file => addFile state file.1 file.2) state := by
    intro state
    rw [enumerated, List.foldl_flatMap]
    congr 1
    funext state pathStr
    exact addPath_selected fs state pathStr
  rw [enumeratePaths, step]

def itemOf (i : Nat) (file : QString × QFileInfo) : LocalFileItem :=
  { fileIndex := UInt64.ofNat i
    sourceAbsolutePath := file.2.absoluteFilePath
    relativePath := join slash (components file.1)
    fileSize := file.2.size
    modifiedTime := file.2.lastModified }

private theorem manifest_fields (files : List (QString × QFileInfo)) :
    let result := files.foldl (fun state file => addFile state file.1 file.2) (0, {})
    result.1 = UInt64.ofNat files.length ∧ result.2.items = files.mapIdx itemOf ∧
      result.2.totalFiles = UInt64.ofNat files.length ∧
      result.2.totalBytes = UInt64.ofNat (files.map (·.2.size.toNat)).sum := by
  induction files using List.reverseRecOn with
  | nil => exact ⟨rfl, rfl, rfl, rfl⟩
  | append_singleton files file ih =>
      rw [List.foldl_append]
      generalize files.foldl (fun state file => addFile state file.1 file.2) (0, {}) = state at ih ⊢
      obtain ⟨index, items, count, bytes⟩ := ih
      simp only [List.foldl_cons, List.foldl_nil, addFile]
      refine ⟨?_, ?_, ?_, ?_⟩
      · rw [index, List.length_append, UInt64.ofNat_add]
        rfl
      · rw [items, index, List.mapIdx_concat]
        rfl
      · rw [count, List.length_append, UInt64.ofNat_add]
        rfl
      · rw [bytes, List.map_append, List.sum_append, UInt64.ofNat_add]
        simp

private theorem map_items {α : Type} {of : LocalFileItem → α} {value : QString × QFileInfo → α}
    (same : ∀ i file, of (itemOf i file) = value file) (files : List (QString × QFileInfo)) :
    (files.mapIdx itemOf).map of = files.map value := by
  apply List.ext_getElem?
  intro i
  rw [List.getElem?_map, List.getElem?_mapIdx, List.getElem?_map]
  cases files[i]? with
  | none => rfl
  | some file => exact congrArg some (same i file)

/-- The items of the manifest have different relative paths, and its numbers are right. -/
structure KeepsApart (manifest : FileManifest) : Prop where
  distinct : (manifest.items.map (·.relativePath)).Nodup
  indexed : ∀ (i : Nat) (item : LocalFileItem), manifest.items[i]? = some item →
    item.fileIndex.toNat = i
  totalFiles : manifest.totalFiles.toNat = manifest.items.length
  totalBytes : manifest.totalBytes.toNat = (manifest.items.map (·.fileSize.toNat)).sum

theorem join_components_inj {first second : QString} :
    join slash (components first) = join slash (components second) ↔
      components first = components second := by
  have split : ∀ name, splitSkipEmpty slash (join slash (components name)) = components name :=
    fun name => splitSkipEmpty_join fun seg mem =>
      ⟨(sanitized_kept mem).nonempty, (sanitized_kept mem).flat⟩
  constructor
  · intro same
    rw [← split first, same, split second]
  · intro same
    rw [same]

/-- A manifest keeps files apart exactly if no two of them have names that stand for one path, and
neither their number nor the sum of their sizes reaches 2^64. -/
theorem keepsApart_iff (inputPaths : List QString) :
    KeepsApart (enumeratePaths fs inputPaths) ↔
      (enumerated fs inputPaths).Pairwise (fun file other => ¬ Alike file.1 other.1) ∧
        (enumerated fs inputPaths).length < 2 ^ 64 ∧
        ((enumerated fs inputPaths).map (·.2.size.toNat)).sum < 2 ^ 64 := by
  obtain ⟨-, items, count, bytes⟩ := manifest_fields (enumerated fs inputPaths)
  rw [← enumeratePaths_eq] at items count bytes
  generalize enumerated fs inputPaths = files at items count bytes ⊢
  have length : (enumeratePaths fs inputPaths).items.length = files.length := by
    rw [items, List.length_mapIdx]
  have paths : (enumeratePaths fs inputPaths).items.map (·.relativePath) =
      files.map fun file => join slash (components file.1) := by
    rw [items]
    exact map_items (fun i file => rfl) files
  have sizes : (enumeratePaths fs inputPaths).items.map (·.fileSize.toNat) =
      files.map (·.2.size.toNat) := by
    rw [items]
    exact map_items (fun i file => rfl) files
  have apart : (files.map fun file => join slash (components file.1)).Nodup ↔
      files.Pairwise fun file other => ¬ Alike file.1 other.1 := by
    simp only [List.Nodup, List.pairwise_map, ne_eq, join_components_inj, alike_iff]
  have exact_count : ∀ n : Nat, (UInt64.ofNat n).toNat = n ↔ n < 2 ^ 64 := by
    intro n
    rw [UInt64.toNat_ofNat']
    omega
  constructor
  · intro keeps
    refine ⟨apart.mp (paths ▸ keeps.distinct), ?_, ?_⟩
    · have total := keeps.totalFiles
      rwa [count, length, exact_count] at total
    · have total := keeps.totalBytes
      rwa [bytes, sizes, exact_count] at total
  · rintro ⟨distinct, few, small⟩
    refine ⟨paths ▸ apart.mpr distinct, ?_, ?_, ?_⟩
    · intro i item found
      rw [items, List.getElem?_mapIdx] at found
      obtain ⟨file, there, rfl⟩ := Option.map_eq_some_iff.mp found
      have inside := (List.getElem?_eq_some_iff.mp there).1
      exact (exact_count i).mpr (Nat.lt_trans inside few)
    · rw [count, length, exact_count]
      exact few
    · rw [bytes, sizes, exact_count]
      exact small

/-- Two files of one name, from two folders. -/
theorem keepsApart_homonyms :
    let manifest := enumeratePaths emptyFiles [literal "/a/x.txt", literal "/b/x.txt"]
    (manifest.items.map (·.sourceAbsolutePath)).Nodup ∧
      manifest.items.map (·.relativePath) = [literal "x.txt", literal "x.txt"] ∧
      ¬ KeepsApart manifest := by
  intro manifest
  have same : manifest.items.map (·.relativePath) = [literal "x.txt", literal "x.txt"] := by
    decide
  refine ⟨by decide, same, ?_⟩
  intro keeps
  have distinct := keeps.distinct
  rw [same] at distinct
  revert distinct
  decide

end FastTransfer.FileEnumerator
