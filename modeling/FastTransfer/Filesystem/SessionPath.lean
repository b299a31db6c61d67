/- FastTransfer/Filesystem/SessionPath
   source: src/filesystem/FileWriter.cpp, src/platform/PlatformFilesystem.cpp
   digest: The paths that the writer builds below the session folder. -/

import FastTransfer.Filesystem.FileWriter
import FastTransfer.Platform.DeviceName
import Mathlib.Data.List.Infix

set_option autoImplicit false
set_option relaxedAutoImplicit false

namespace FastTransfer

open QString

theorem QString.number_digit {n : Nat} {c : UInt16} (mem : c ∈ QString.number n) :
    0x30 ≤ c.toNat ∧ c.toNat ≤ 0x39 := by
  obtain ⟨digit, among, rfl⟩ := List.mem_map.mp mem
  have bounds : digit.isDigit = true :=
    Nat.isDigit_of_mem_toDigits (by decide) (by decide) among
  have range : 0x30 ≤ digit.toNat ∧ digit.toNat ≤ 0x39 := by
    simpa [Char.isDigit, Char.le_def, UInt32.le_iff_toNat_le] using bounds
  rw [UInt16.toNat_ofNat']
  omega

def below (folder : QString) (names : List QString) : QString :=
  folder ++ names.flatMap fun name => slash :: name

/-- The path has the folder as a proper ancestor, with names only behind it. -/
def Inside (folder path : QString) : Prop :=
  ∃ names : List QString, names ≠ [] ∧ (∀ name ∈ names, FileName name) ∧ path = below folder names

theorem below_snoc (folder : QString) (names : List QString) (last : QString) :
    below folder (names ++ [last]) = below folder names ++ slash :: last := by
  simp [below]

theorem below_join (folder : QString) {names : List QString} (nonempty : names ≠ []) :
    folder ++ slash :: join slash names = below folder names := by
  rw [below]
  congr 1
  induction names with
  | nil => exact absurd rfl nonempty
  | cons name rest ih =>
      cases rest with
      | nil => rw [join, List.intercalate_singleton, List.flatMap_singleton]
      | cons next rest =>
          have later := ih (List.cons_ne_nil _ _)
          rw [List.flatMap_cons, ← later, join, List.intercalate_cons_cons, List.append_assoc]
          rfl

section Parts

variable {dir name : QString}

theorem passes (flat : slash ∉ name) :
    ∀ c ∈ name.reverse, (decide (c ≠ slash)) = true := by
  intro c mem
  rw [decide_eq_true_eq]
  rintro rfl
  exact flat (List.mem_reverse.mp mem)

theorem namePart_append (flat : slash ∉ name) : namePart (dir ++ slash :: name) = name := by
  rw [namePart, List.reverse_append, List.reverse_cons, List.append_assoc,
    List.takeWhile_append_of_pos (passes flat), List.singleton_append,
    List.takeWhile_cons_of_neg (by simp), List.append_nil, List.reverse_reverse]

theorem dirPart_append (flat : slash ∉ name) : dirPart (dir ++ slash :: name) = dir := by
  rw [dirPart, List.reverse_append, List.reverse_cons, List.append_assoc,
    List.dropWhile_append_of_pos (passes flat), List.singleton_append,
    List.dropWhile_cons_of_neg (by simp), List.drop_one, List.tail_cons, List.reverse_reverse]

theorem folderPart_append (flat : slash ∉ name) :
    folderPart (dir ++ slash :: name) = dir ++ [slash] := by
  rw [folderPart, List.reverse_append, List.reverse_cons, List.append_assoc,
    List.dropWhile_append_of_pos (passes flat), List.singleton_append,
    List.dropWhile_cons_of_neg (by simp), List.reverse_cons, List.reverse_reverse]

end Parts

theorem namePart_flat (path : QString) : slash ∉ namePart path := by
  intro mem
  have all := List.mem_takeWhile_imp (List.mem_reverse.mp mem)
  simp at all

theorem folderPart_of_flat {path : QString} (flat : slash ∉ path) : folderPart path = [] := by
  have none : path.reverse.dropWhile (· ≠ slash) = [] :=
    List.dropWhile_eq_nil_iff.mpr (passes flat)
  rw [folderPart, none]
  rfl

theorem dirPart_of_flat {path : QString} (flat : slash ∉ path) : dirPart path = [] := by
  have none : path.reverse.dropWhile (· ≠ slash) = [] :=
    List.dropWhile_eq_nil_iff.mpr (passes flat)
  rw [dirPart, none]
  rfl

theorem dirPart_namePart {path : QString} (mem : slash ∈ path) :
    path = dirPart path ++ slash :: namePart path := by
  obtain ⟨dir, name, flat, rfl⟩ : ∃ dir name : QString, slash ∉ name ∧
      path = dir ++ slash :: name := by
    obtain ⟨behind, before, flat, eq⟩ :=
      List.eq_append_cons_of_mem (List.mem_reverse.mpr mem)
    refine ⟨before.reverse, behind.reverse, fun inside => eq (List.mem_reverse.mp inside), ?_⟩
    rw [← List.reverse_reverse path, flat]
    simp
  rw [dirPart_append flat, namePart_append flat]

theorem mem_ancestors {q path : QString} :
    q ∈ ancestors path ↔ q <+: path ∧ q ≠ [] ∧
      (q = path ∨ (path.drop q.length).head? = some slash) := by
  simp only [ancestors, List.mem_filter, List.mem_inits, decide_eq_true_eq]

theorem ancestors_dirPart {path q : QString} (mem : q ∈ ancestors (dirPart path)) :
    q ∈ ancestors path := by
  obtain ⟨⟨rest, whole⟩, nonempty, follows⟩ := mem_ancestors.mp mem
  by_cases nested : slash ∈ path
  · have split := dirPart_namePart nested
    rw [← whole] at split follows
    rw [split]
    refine mem_ancestors.mpr ⟨by simp, nonempty, .inr ?_⟩
    rw [List.append_assoc, List.drop_left]
    rcases follows with same | follows
    · rw [List.self_eq_append_right.mp same]
      rfl
    · rw [List.drop_left] at follows
      rw [List.head?_append, follows]
      rfl
  · rw [dirPart_of_flat nested] at whole
    exact absurd (List.append_eq_nil_iff.mp whole).1 nonempty

structure Folder (folder : QString) : Prop where
  nonempty : folder ≠ []
  ends : folder.getLast? ≠ some slash

theorem stripTrailing_append {front behind : QString} (nonempty : behind ≠ [])
    (ends : behind.getLast? ≠ some slash) :
    stripTrailing slash (front ++ behind) = front ++ behind := by
  show (front ++ behind).rdropWhile (· = slash) = front ++ behind
  rw [List.rdropWhile_eq_self_iff]
  intro more last
  apply ends
  rw [← List.getLast?_append_of_ne_nil front nonempty, List.getLast?_eq_getLast_of_ne_nil more,
    of_decide_eq_true last]

theorem stripTrailing_ends (path : QString) : (stripTrailing slash path).getLast? ≠ some slash := by
  intro last
  have more : path.rdropWhile (· = slash) ≠ [] := by
    intro empty
    rw [show stripTrailing slash path = [] from empty] at last
    cases last
  have stays := List.rdropWhile_last_not (fun c => decide (c = slash)) path more
  rw [show stripTrailing slash path = path.rdropWhile (· = slash) from rfl,
    List.getLast?_eq_getLast_of_ne_nil more] at last
  exact stays (decide_eq_true (Option.some.inj last))

namespace Folder

variable {folder : QString}

theorem stripTrailing (h : Folder folder) : stripTrailing slash folder = folder :=
  @stripTrailing_append [] _ h.nonempty h.ends

theorem dirName (h : Folder folder) : dirName folder = folder := by
  rw [FastTransfer.dirName, h.stripTrailing, if_neg h.nonempty]

theorem filePath (h : Folder folder) {name : QString} (nonempty : name ≠ [])
    (relative : name.head? ≠ some slash) : filePath folder name = folder ++ slash :: name := by
  rw [FastTransfer.filePath, if_neg relative, if_neg nonempty, if_neg h.nonempty, h.stripTrailing]

end Folder

theorem filePath_nil (dir : QString) : filePath dir [] = dirName dir := rfl

theorem folder_dirName {path : QString} (visible : ∃ c ∈ path, c ≠ slash) :
    Folder (dirName path) := by
  have more : stripTrailing slash path ≠ [] := by
    intro empty
    obtain ⟨c, mem, other⟩ := visible
    have all := List.rdropWhile_eq_nil_iff.mp empty
    exact other (of_decide_eq_true (all c mem))
  rw [dirName, if_neg more]
  exact ⟨more, stripTrailing_ends path⟩

theorem folder_below (dir : QString) {name : QString} (h : Folder name) :
    Folder (filePath dir name) := by
  unfold filePath
  rw [if_neg h.nonempty]
  split
  · exact h
  split
  · exact h
  · refine ⟨List.append_ne_nil_of_right_ne_nil _ (List.cons_ne_nil _ _), ?_⟩
    have last : (slash :: name).getLast? = name.getLast? :=
      List.getLast?_append_of_ne_nil [slash] h.nonempty
    rw [List.getLast?_append_of_ne_nil _ (List.cons_ne_nil _ _), last]
    exact h.ends

theorem filePath_dirName (dir name : QString) :
    filePath (dirName dir) name = filePath dir name := by
  have idem : stripTrailing slash (dirName dir) = stripTrailing slash dir := by
    unfold dirName
    split
    · rename_i empty
      have slashes := List.rdropWhile_eq_nil_iff.mp empty
      rw [empty]
      exact List.rdropWhile_eq_nil_iff.mpr fun c mem => slashes c (List.mem_of_mem_take mem)
    · exact List.rdropWhile_idempotent _ _
  have empty : dirName dir = [] ↔ dir = [] := by
    unfold dirName
    split
    · rw [List.take_eq_nil_iff, or_iff_right Nat.one_ne_zero]
    · rename_i more
      refine iff_of_false more ?_
      rintro rfl
      exact more rfl
  have again : dirName (dirName dir) = dirName dir := by
    rw [dirName, idem]
    split
    · rename_i none
      rw [dirName, if_pos none, List.take_take, Nat.min_self]
    · rename_i more
      rw [dirName, if_neg more]
  simp only [filePath, empty, idem, again]

theorem folder_filePath (dir : QString) {name : QString} (visible : ∃ c ∈ name, c ≠ slash) :
    Folder (dirName (filePath dir name)) := by
  obtain ⟨c, mem, other⟩ := visible
  have nonempty : name ≠ [] := List.ne_nil_of_mem mem
  refine folder_dirName ⟨c, ?_, other⟩
  unfold filePath
  rw [if_neg nonempty]
  split
  · exact mem
  split
  · exact mem
  · exact List.mem_append_right _ (List.mem_cons_of_mem _ mem)

namespace FileWriter

theorem targetPath_ne_nil (baseOutputDir senderDevice relativePath : QString) :
    targetPath baseOutputDir senderDevice relativePath ≠ [] := by
  have folder := folder_filePath baseOutputDir
    (PlatformFilesystem.sanitizeDeviceName_visible senderDevice)
  unfold targetPath
  rw [← filePath_dirName]
  generalize dirName (filePath baseOutputDir _) = dir at folder ⊢
  unfold filePath
  split
  · rename_i absolute
    intro empty
    rw [empty] at absolute
    cases absolute
  split
  · rw [folder.dirName]
    exact folder.nonempty
  split
  · exact fun empty => ‹_ ≠ []› empty
  · exact List.append_ne_nil_of_right_ne_nil _ (List.cons_ne_nil _ _)

def numbered (name : QString) (counter : Nat) : QString :=
  completeBaseName name ++ literal " (" ++ QString.number counter ++ literal ")" ++
    if suffix name = [] then [] else dot :: suffix name

theorem infoFolder_append {dir name : QString} (final : FileName name) :
    infoFolder (dir ++ slash :: name) = dir ++ [slash] := by
  rw [infoFolder, namePart_append final.flat, if_neg final.notDot, if_neg final.notDotDot,
    folderPart_append final.flat]

theorem folderPart_front (path : QString) : folderPart path <+: path := by
  apply List.reverse_suffix.mp
  rw [folderPart, List.reverse_reverse]
  exact List.dropWhile_suffix _

theorem dirPart_front (path : QString) : dirPart path <+: path := by
  apply List.reverse_suffix.mp
  rw [dirPart, List.reverse_reverse]
  exact (List.drop_suffix 1 _).trans (List.dropWhile_suffix _)

theorem infoFolder_front (path : QString) : infoFolder path <+: path := by
  unfold infoFolder
  split
  · exact (folderPart_front _).trans (dirPart_front path)
  split
  · exact (folderPart_front _).trans ((dirPart_front _).trans (dirPart_front path))
  · exact folderPart_front path

/-- The folder that Qt takes dots to be in is above the folder they are in. -/
theorem infoFolder_dots {folder dots : QString} (mem : dots ∈ [[dot], [dot, dot]]) :
    infoFolder (folder ++ slash :: dots) <+: folder := by
  simp only [List.mem_cons, List.not_mem_nil, or_false] at mem
  rcases mem with rfl | rfl
  · rw [infoFolder, namePart_append (by decide), if_pos rfl, dirPart_append (by decide)]
    exact folderPart_front folder
  · rw [infoFolder, namePart_append (by decide), if_neg (by decide), if_pos rfl,
      dirPart_append (by decide)]
    exact (folderPart_front _).trans (dirPart_front folder)

theorem candidate_eq (path : QString) (counter : Nat) :
    candidate path counter = infoFolder path ++ numbered (namePart path) counter := by
  have ext : (if suffix (namePart path) = [] then suffix (namePart path)
      else dot :: suffix (namePart path)) =
        if suffix (namePart path) = [] then [] else dot :: suffix (namePart path) := by
    split
    · assumption
    · rfl
  simp only [candidate, numbered, ext, List.append_assoc]

private theorem mem_completeBaseName {name : QString} {c : UInt16}
    (mem : c ∈ completeBaseName name) : c ∈ name := by
  unfold completeBaseName at mem
  split at mem
  · have front := List.mem_of_mem_drop (List.mem_reverse.mp mem)
    exact List.mem_reverse.mp ((List.dropWhile_sublist _).subset front)
  · exact mem

private theorem mem_suffix {name : QString} {c : UInt16} (mem : c ∈ suffix name) : c ∈ name := by
  unfold suffix at mem
  split at mem
  · exact List.mem_reverse.mp ((List.takeWhile_sublist _).subset (List.mem_reverse.mp mem))
  · cases mem

theorem numbered_fileName {name : QString} (flat : slash ∉ name) (counter : Nat) :
    FileName (numbered name counter) := by
  have paren : (0x28 : UInt16) ∈ numbered name counter := by
    have inner : (0x28 : UInt16) ∈ literal " (" := by decide
    simp only [numbered, List.mem_append]
    exact .inl (.inl (.inl (.inr inner)))
  refine ⟨List.ne_nil_of_mem paren, fun mem => ?_, fun eq => ?_, fun eq => ?_⟩
  · simp only [numbered, List.mem_append] at mem
    rcases mem with (((base | space) | digits) | close) | ext
    · exact flat (mem_completeBaseName base)
    · revert space
      decide
    · have := QString.number_digit digits
      revert this
      decide
    · revert close
      decide
    · split at ext
      · cases ext
      · rcases List.mem_cons.mp ext with same | inside
        · revert same
          decide
        · exact flat (mem_suffix inside)
  · rw [eq] at paren
    revert paren
    decide
  · rw [eq] at paren
    revert paren
    decide

theorem candidate_ne_nil (path : QString) (counter : Nat) : candidate path counter ≠ [] := by
  rw [candidate_eq]
  exact List.append_ne_nil_of_right_ne_nil _
    (numbered_fileName (namePart_flat path) counter).nonempty

theorem staging_fileName {name : QString} (h : FileName name) :
    FileName (name ++ partialSuffix) := by
  have letter : (0x70 : UInt16) ∈ name ++ partialSuffix :=
    List.mem_append_right _ (by decide)
  refine ⟨List.ne_nil_of_mem letter, fun mem => ?_, fun eq => ?_, fun eq => ?_⟩
  · rcases List.mem_append.mp mem with front | back
    · exact h.flat front
    · revert back
      decide
  · rw [eq] at letter
    revert letter
    decide
  · rw [eq] at letter
    revert letter
    decide

end FileWriter

section InsideFolder

variable {folder path : QString}

private theorem Inside.split (h : Inside folder path) :
    ∃ (init : List QString) (last : QString), (∀ name ∈ init, FileName name) ∧ FileName last ∧
      path = below folder init ++ slash :: last := by
  obtain ⟨names, nonempty, each, rfl⟩ := h
  obtain ⟨init, last, rfl⟩ := List.eq_nil_or_concat names |>.resolve_left nonempty
  rw [List.concat_eq_append] at each ⊢
  refine ⟨init, last, fun name mem => each name (List.mem_append_left _ mem),
    each last (List.mem_append_right _ (List.mem_singleton_self last)), below_snoc ..⟩

private theorem Inside.of_split {init : List QString} {last : QString}
    (each : ∀ name ∈ init, FileName name) (final : FileName last) :
    Inside folder (below folder init ++ slash :: last) := by
  refine ⟨init ++ [last], by simp, fun name mem => ?_, (below_snoc ..).symm⟩
  rcases List.mem_append.mp mem with early | late
  · exact each name early
  · rw [List.mem_singleton.mp late]
    exact final

theorem Inside.nonempty (h : Inside folder path) (nonempty : folder ≠ []) : path ≠ [] := by
  obtain ⟨names, -, -, rfl⟩ := h
  exact fun empty => nonempty (List.append_eq_nil_iff.mp empty).1

/-- Candidates for a path inside a folder are inside it. -/
theorem Inside.candidate (h : Inside folder path) (counter : Nat) :
    Inside folder (FileWriter.candidate path counter) := by
  obtain ⟨init, last, each, final, rfl⟩ := h.split
  rw [FileWriter.candidate_eq, FileWriter.infoFolder_append final, namePart_append final.flat,
    List.append_assoc, List.singleton_append]
  exact .of_split each (FileWriter.numbered_fileName final.flat counter)

theorem Inside.staging (h : Inside folder path) :
    Inside folder (path ++ FileWriter.partialSuffix) := by
  obtain ⟨init, last, each, final, rfl⟩ := h.split
  rw [List.append_assoc, List.cons_append]
  exact .of_split each (FileWriter.staging_fileName final)

private theorem firstFree_candidate (d : Disk) (target : QString) (fuel counter : Nat) :
    ∃ k, FileWriter.firstFree d target fuel counter = FileWriter.candidate target k := by
  induction fuel generalizing counter with
  | zero => exact ⟨counter, rfl⟩
  | succ fuel ih =>
      rw [FileWriter.firstFree]
      split
      · exact ih (counter + 1)
      · exact ⟨counter, rfl⟩

theorem resolveUniqueName_cases (d : Disk) (target : QString) :
    FileWriter.resolveUniqueName d target = target ∧ d.exists target = false ∨
      ∃ k, FileWriter.resolveUniqueName d target = FileWriter.candidate target k := by
  unfold FileWriter.resolveUniqueName
  cases taken : d.exists target with
  | false => exact .inl ⟨rfl, rfl⟩
  | true => exact .inr (firstFree_candidate d target _ 1)

theorem resolveUniqueName_ne_nil (d : Disk) (nonempty : path ≠ []) :
    FileWriter.resolveUniqueName d path ≠ [] := by
  rcases resolveUniqueName_cases d path with ⟨same, -⟩ | ⟨k, eq⟩
  · rwa [same]
  · rw [eq]
    exact FileWriter.candidate_ne_nil path k

theorem Inside.resolveUniqueName (h : Inside folder path) (d : Disk) :
    Inside folder (FileWriter.resolveUniqueName d path) := by
  rcases resolveUniqueName_cases d path with ⟨same, -⟩ | ⟨k, eq⟩
  · rwa [same]
  · rw [eq]
    exact h.candidate k

/-- What is inside a folder is a path that goes down from it. -/
theorem inside_append_iff : Inside folder (folder ++ slash :: path) ↔
    PlatformFilesystem.Descends path := by
  constructor
  · rintro ⟨names, more, each, eq⟩
    rw [← below_join folder more] at eq
    exact ⟨names, more, each, (List.cons.inj (List.append_cancel_left eq)).2⟩
  · rintro ⟨names, more, each, rfl⟩
    exact ⟨names, more, each, below_join folder more⟩

theorem dots_component {dots : QString} (mem : dots ∈ [[dot], [dot, dot]]) :
    dots ≠ [] ∧ slash ∉ dots ∧ ¬ FileName dots := by
  have each : ∀ dots ∈ [[dot], [dot, dot]], dots ≠ [] ∧ slash ∉ dots := by decide
  refine ⟨(each dots mem).1, (each dots mem).2, fun name => ?_⟩
  simp only [List.mem_cons, List.not_mem_nil, or_false] at mem
  exact mem.elim name.notDot name.notDotDot

theorem not_descends_dots {dots : QString} (mem : dots ∈ [[dot], [dot, dot]])
    {rest : List QString} (each : ∀ seg ∈ rest, FileName seg) :
    ¬ PlatformFilesystem.Descends (join slash (dots :: rest)) := by
  obtain ⟨nonempty, flat, improper⟩ := dots_component mem
  rintro ⟨others, -, names, eq⟩
  have parts := @splitSkipEmpty_join slash _ fun seg mem =>
    ⟨(names seg mem).nonempty, (names seg mem).flat⟩
  rw [← eq, splitSkipEmpty_join] at parts
  · exact improper (names dots (parts ▸ List.mem_cons_self))
  · intro seg among
    rcases List.mem_cons.mp among with rfl | later
    · exact ⟨nonempty, flat⟩
    · exact ⟨(each seg later).nonempty, (each seg later).flat⟩

theorem not_inside_dots {dots : QString} (mem : dots ∈ [[dot], [dot, dot]])
    (h : Inside (folder ++ slash :: dots) path) : ¬ Inside folder path := by
  obtain ⟨names, more, each, rfl⟩ := h
  rw [← below_join _ more, List.append_assoc, List.cons_append, ← join_cons more,
    inside_append_iff]
  exact not_descends_dots mem each

theorem not_inside_self (folder : QString) : ¬ Inside folder folder := by
  intro h
  obtain ⟨init, last, -, -, eq⟩ := h.split
  have := congrArg List.length eq
  simp [below] at this

/-- A candidate of a path that is no deeper than a folder is not inside it. -/
theorem not_inside_candidate {path : QString}
    (shallow : (FileWriter.infoFolder path).count slash ≤ folder.count slash) (counter : Nat) :
    ¬ Inside folder (FileWriter.candidate path counter) := by
  intro inside
  obtain ⟨init, last, -, final, eq⟩ := inside.split
  have flat := (FileWriter.numbered_fileName (namePart_flat path) counter).flat
  -- the candidate has as many slashes as its folder, what is inside the other has more
  have count := congrArg (List.count slash) eq
  rw [FileWriter.candidate_eq, List.count_append, List.count_eq_zero.mpr flat, List.count_append,
    List.count_cons_self, below, List.count_append] at count
  omega

end InsideFolder

end FastTransfer
