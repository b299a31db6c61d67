/- FastTransfer/Filesystem/Staging
   source: src/filesystem/FileWriter.cpp
   digest: Unique names are free, and a staging file holds the chunks written to it in order. -/

import FastTransfer.Filesystem.SessionPath
import FastTransfer.Library.LeastFree
import Mathlib.Data.List.ProdSigma

set_option autoImplicit false
set_option relaxedAutoImplicit false

namespace FastTransfer

open QString (literal slash)

theorem QString.number_injective {m n : Nat} (same : QString.number m = QString.number n) :
    m = n := by
  have digits : ∀ k, (QString.number k).map (fun c => Char.ofNat c.toNat) = Nat.toDigits 10 k := by
    intro k
    rw [QString.number, List.map_map]
    refine (List.map_congr_left fun c mem => ?_).trans (List.map_id _)
    have digit : c.isDigit = true := Nat.isDigit_of_mem_toDigits (by decide) (by decide) mem
    have range : 0x30 ≤ c.toNat ∧ c.toNat ≤ 0x39 := by
      simpa [Char.isDigit, Char.le_def, UInt32.le_iff_toNat_le] using digit
    have fits : (UInt16.ofNat c.toNat).toNat = c.toNat := by
      rw [UInt16.toNat_ofNat']
      omega
    rw [Function.comp_apply, fits, Char.ofNat_toNat]
    rfl
  calc
    m = Nat.ofDigitChars 10 (Nat.toDigits 10 m) 0 := Nat.ofDigitChars_ten_toDigits.symm
    _ = Nat.ofDigitChars 10 (Nat.toDigits 10 n) 0 := by rw [← digits m, same, digits n]
    _ = n := Nat.ofDigitChars_ten_toDigits

def Disk.hasFile (d : Disk) (path : QString) : Bool :=
  match d.node path with
  | some (.file _) => true
  | _ => false

theorem Disk.hasFile_file {d : Disk} {path : QString} {content : QByteArray}
    (found : d.node path = some (.file content)) : d.hasFile path = true := by
  rw [hasFile, found]

theorem Disk.content_no_file {d : Disk} {path : QString} (absent : d.hasFile path = false) :
    d.content path = [] := by
  unfold Disk.content
  split
  · rename_i content found
    cases absent.symm.trans (hasFile_file found)
  · rfl

namespace FileWriter

variable {B : Blake3}

section UniqueName

variable {d : Disk} {target : QString}

private theorem candidate_injective {m n : Nat} (same : candidate target m = candidate target n) :
    m = n := by
  rw [candidate_eq, candidate_eq] at same
  have names := List.append_cancel_left same
  simp only [numbered, List.append_assoc] at names
  have digits := List.append_cancel_left (List.append_cancel_left names)
  exact QString.number_injective (List.append_cancel_right digits)

private theorem firstFree_search (fuel counter : Nat) :
    firstFree d target fuel counter = candidate target
      (LeastFree.search (fun n => isTaken d (candidate target n)) fuel counter) := by
  induction fuel generalizing counter with
  | zero => rfl
  | succ fuel ih =>
      rw [firstFree, LeastFree.search]
      split
      · exact ih (counter + 1)
      · rfl

/-- The entry that takes a name, and whether it is the name's staging file. -/
private def taker (d : Disk) (path : QString) : QString × Bool :=
  if d.exists path then (path, false) else (path ++ partialSuffix, true)

private theorem taker_injective {p q : QString} (same : taker d p = taker d q) : p = q := by
  unfold taker at same
  split at same <;> split at same
  · exact (Prod.mk.inj same).1
  · cases (Prod.mk.inj same).2
  · cases (Prod.mk.inj same).2
  · exact List.append_cancel_right (Prod.mk.inj same).1

private theorem taker_mem {path : QString} (taken : isTaken d path = true) :
    taker d path ∈ d.nodes.keys ×ˢ [false, true] := by
  have key : ∀ q, d.exists q = true → q ∈ d.nodes.keys := fun q there =>
    AList.mem_keys.mp (AList.lookup_isSome.mp there)
  unfold taker
  split
  · rename_i there
    exact List.mem_product.mpr ⟨key path there, by decide⟩
  · rename_i absent
    rw [isTaken, Bool.or_eq_true] at taken
    exact List.mem_product.mpr ⟨key _ (taken.resolve_left absent), by decide⟩

theorem resolveUniqueName_least (there : d.exists target = true) :
    ∃ n, 1 ≤ n ∧ resolveUniqueName d target = candidate target n ∧
      isTaken d (candidate target n) = false ∧
      ∀ m, 1 ≤ m → m < n → isTaken d (candidate target m) = true := by
  have enough : (d.nodes.keys ×ˢ [false, true]).length ≤ 2 * d.nodes.entries.length + 1 := by
    have keys : d.nodes.keys.length = d.nodes.entries.length := List.length_map _
    rw [List.length_product, keys, List.length_cons, List.length_singleton]
    omega
  obtain ⟨free, low, least⟩ := LeastFree.search_least (fun n => taker d (candidate target n)) 1
    (fun m n same => candidate_injective (taker_injective same)) (fun n taken => taker_mem taken)
    enough
  refine ⟨_, low, ?_, free, least⟩
  rw [resolveUniqueName, there, firstFree_search]
  rfl

theorem resolveUniqueName_free (d : Disk) (target : QString) :
    d.node (resolveUniqueName d target) = none := by
  cases there : d.exists target with
  | false =>
      rw [resolveUniqueName, there]
      exact Option.isNone_iff_eq_none.mp (Option.isSome_eq_false_iff.mp there)
  | true =>
      obtain ⟨n, -, eq, free, -⟩ := resolveUniqueName_least there
      rw [isTaken, Bool.or_eq_false_iff] at free
      rw [eq]
      exact Option.isNone_iff_eq_none.mp (Option.isSome_eq_false_iff.mp free.1)

end UniqueName

/-- The writer is filling the staging file of a target: the file holds the chunks written so far,
zeros up to the announced size at most, and nothing is at the target. -/
structure Filling (target : QString) (size : Nat) (chunks : List QByteArray)
    (writer : FileWriter B) (d : Disk) : Prop where
  isOpen : writer.file.isOpen = true
  fileName : writer.file.fileName = target ++ partialSuffix
  targetFilePath : writer.targetFilePath = target
  partialFilePath : writer.partialFilePath = target ++ partialSuffix
  hasher : writer.hasher = .fed B chunks
  bytesWritten : writer.bytesWritten = UInt64.ofNat chunks.flatten.length
  free : d.node target = none
  content : ∃ reach ≤ size, d.node (target ++ partialSuffix) =
    some (.file (chunks.flatten ++ List.replicate (reach - chunks.flatten.length) 0))

private theorem dirPart_length (path : QString) : (dirPart path).length ≤ path.length - 1 := by
  have front : (path.reverse.dropWhile fun c => decide (c ≠ slash)).length ≤
      path.reverse.length := (List.dropWhile_sublist _).length_le
  rw [List.length_reverse] at front
  rw [dirPart, List.length_reverse, List.length_drop]
  omega

theorem dirPart_append_flat {path name : QString} (flat : slash ∉ name) :
    dirPart (path ++ name) = dirPart path := by
  rw [dirPart, List.reverse_append, List.dropWhile_append_of_pos (passes flat), dirPart]

theorem dirPart_folderPart (path : QString) : dirPart (folderPart path) = dirPart path := by
  by_cases nested : slash ∈ path
  · rw [dirPart_namePart nested, folderPart_append (namePart_flat path),
      dirPart_append (namePart_flat path)]
    exact dirPart_append List.not_mem_nil
  · rw [folderPart_of_flat nested, dirPart_of_flat nested]
    rfl

theorem ancestors_candidate {target q : QString} (n : Nat)
    (mem : q ∈ ancestors (dirPart (candidate target n ++ partialSuffix))) :
    q ∈ ancestors (dirPart target) := by
  have flat := (staging_fileName (numbered_fileName (namePart_flat target) n)).flat
  rw [candidate_eq, List.append_assoc, dirPart_append_flat flat] at mem
  unfold infoFolder at mem
  split at mem
  · rw [dirPart_folderPart] at mem
    exact ancestors_dirPart mem
  split at mem
  · rw [dirPart_folderPart] at mem
    exact ancestors_dirPart (ancestors_dirPart mem)
  · rwa [dirPart_folderPart] at mem

private theorem node_mkpath_longer {folder q : QString} (longer : folder.length < q.length)
    (d : Disk) : (d.mkpath folder).node q = d.node q := by
  rcases d.node_mkpath folder q with same | ⟨mem, -, -⟩
  · exact same
  · have front := (List.mem_inits _ _).mp (List.mem_filter.mp mem).1
    have := front.length_le
    omega

theorem node_mkpath_target {target : QString} (nonempty : target ≠ []) (d : Disk) :
    (d.mkpath (dirPart (target ++ partialSuffix))).node target = d.node target := by
  have positive := List.length_pos_of_ne_nil nonempty
  have shorter := dirPart_length target
  rw [dirPart_append_flat (by decide)]
  exact node_mkpath_longer (by omega) d

theorem node_mkpath_staging (d : Disk) (target : QString) :
    (d.mkpath (dirPart (target ++ partialSuffix))).node (target ++ partialSuffix) =
      d.node (target ++ partialSuffix) := by
  have nonempty : target ++ partialSuffix ≠ [] :=
    List.append_ne_nil_of_right_ne_nil target (by decide)
  have positive := List.length_pos_of_ne_nil nonempty
  have shorter := dirPart_length (target ++ partialSuffix)
  exact node_mkpath_longer (by omega) d

private theorem node_prepared_ne (d : Disk) {target q : QString} (size : UInt64)
    (apart : q ≠ target ++ partialSuffix) :
    ((staged d target size).openReadWrite (target ++ partialSuffix)).2.node q =
      (d.mkpath (dirPart (target ++ partialSuffix))).node q := by
  rw [Disk.node_openReadWrite_ne _ apart, staged, clearStaging,
    Disk.node_preallocateFile_ne _ _ apart]
  split
  · exact Disk.node_remove_ne _ apart
  · rfl

theorem checkSpace_nodes (d : Disk) (baseOutputDir : QString) (size : UInt64) :
    (checkSpace d baseOutputDir size).2.nodes = d.nodes := by
  unfold checkSpace
  split <;> rfl

private theorem firstFree_congr {d d' : Disk} (nodes : d'.nodes = d.nodes) (target : QString)
    (fuel counter : Nat) : firstFree d' target fuel counter = firstFree d target fuel counter := by
  have same : isTaken d' = isTaken d := by
    funext path
    simp only [isTaken, Disk.exists, Disk.node, nodes]
  induction fuel generalizing counter with
  | zero => rfl
  | succ fuel ih => rw [firstFree, firstFree, same, ih]

theorem resolveUniqueName_congr {d d' : Disk} (nodes : d'.nodes = d.nodes) (target : QString) :
    resolveUniqueName d' target = resolveUniqueName d target := by
  have same : d'.exists target = d.exists target := by simp only [Disk.exists, Disk.node, nodes]
  rw [resolveUniqueName, resolveUniqueName, same, nodes, firstFree_congr nodes]

theorem applyPolicy_rename (d : Disk) (target : QString) :
    applyPolicy d target .Rename = (some (resolveUniqueName d target), d) := by
  cases there : d.exists target with
  | true =>
      unfold applyPolicy
      rw [if_pos there]
  | false =>
      have same : resolveUniqueName d target = target := by simp [resolveUniqueName, there]
      rw [applyPolicy_free there, same]

theorem open_free {d : Disk} {baseOutputDir senderDevice relativePath : QString}
    (free : d.node (targetPath baseOutputDir senderDevice relativePath) = none) (size : UInt64)
    (policy : DuplicatePolicy) :
    (new B).open d baseOutputDir senderDevice relativePath size 0 policy =
      (new B).open d baseOutputDir senderDevice relativePath size 0 .Rename := by
  have absent : (checkSpace d baseOutputDir size).2.exists
      (targetPath baseOutputDir senderDevice relativePath) = false := by
    rw [Disk.exists, checkSpace_node, free]
    rfl
  simp only [«open», applyPolicy_free absent]

/-- A new writer under `Rename` starts to fill a staging file; where no file is at the staging
path, none is touched. -/
theorem filling_open {d : Disk} {baseOutputDir senderDevice relativePath : QString}
    {size : UInt64}
    (succeeded : ((new B).open d baseOutputDir senderDevice relativePath size 0
      .Rename).2.2.AllSucceeded)
    (nonempty : resolveUniqueName d (targetPath baseOutputDir senderDevice relativePath) ≠ [])
    (clear : d.hasFile (resolveUniqueName d (targetPath baseOutputDir senderDevice relativePath) ++
      partialSuffix) = false) :
    let target := resolveUniqueName d (targetPath baseOutputDir senderDevice relativePath)
    let result := (new B).open d baseOutputDir senderDevice relativePath size 0 .Rename
    result.1 = true ∧ Filling target size.toNat [] result.2.1 result.2.2 ∧
      ∀ q content, d.node q = some (.file content) →
        q ≠ target ++ partialSuffix ∧ result.2.2.node q = some (.file content) := by
  intro target result
  have opens : result.1 = true :=
    (succeeded_open succeeded).2.resolve_right fun skip => by cases skip.1
  rcases open_new (B := B) d baseOutputDir senderDevice relativePath size .Rename with
    ⟨shut, -⟩ | ⟨-, chosen, choice, opened, eq⟩
  · have both : true = false := opens.symm.trans shut
    cases both
  · let room := (checkSpace d baseOutputDir size).2
    have nodes : room.nodes = d.nodes := checkSpace_nodes d baseOutputDir size
    rw [applyPolicy_rename] at choice opened eq
    obtain rfl : target = chosen :=
      (resolveUniqueName_congr nodes _).symm.trans (Option.some.inj choice)
    have same : ∀ q, room.node q = d.node q := fun q => by rw [Disk.node, nodes]; rfl
    have found := node_staged opened
    have bare : room.content (target ++ partialSuffix) = [] := by
      refine Disk.content_no_file ?_
      rw [Disk.hasFile, same]
      exact clear
    rw [show result = _ from eq]
    refine ⟨rfl, ⟨rfl, rfl, rfl, rfl, rfl, rfl, ?_, ?_⟩, ?_⟩
    · rw [node_prepared_ne room size (partial_ne target).symm, node_mkpath_target nonempty]
      exact (same target).trans (resolveUniqueName_free ..)
    · have leftover : room.leftover (target ++ partialSuffix) = [] := by
        rw [Disk.leftover, bare, ite_self]
      rw [Disk.prepared, leftover] at found
      split at found
      · exact ⟨0, Nat.zero_le _, found⟩
      · exact ⟨size.toNat, Nat.le_refl _, found⟩
    · intro q content there
      have apart : q ≠ target ++ partialSuffix := by
        rintro rfl
        cases clear.symm.trans (Disk.hasFile_file there)
      refine ⟨apart, ?_⟩
      rw [node_prepared_ne room size apart]
      exact Disk.node_mkpath_some ((same q).trans there) _

private theorem write_zeros (content data : QByteArray) (reach : Nat) :
    Overlay.write 0 (content ++ List.replicate (reach - content.length) 0) content.length data =
      content ++ data ++ List.replicate (reach - (content ++ data).length) 0 := by
  unfold Overlay.write
  split
  · rename_i empty
    rw [empty, List.append_nil]
  · have gap : content.length -
        (content ++ List.replicate (reach - content.length) (0 : UInt8)).length = 0 := by
      rw [List.length_append]
      omega
    rw [gap, List.take_left, List.replicate_zero, List.append_nil, List.drop_append,
      List.drop_of_length_le (Nat.le_add_right _ _), List.nil_append, List.drop_replicate,
      List.length_append]
    congr 2
    omega

theorem Filling.written {target : QString} {size : Nat} {chunks : List QByteArray}
    {writer : FileWriter B} {d : Disk} (h : Filling target size chunks writer d)
    {offset : UInt64} {data : QByteArray} (next : offset.toNat = chunks.flatten.length)
    (ok : (writer.writeChunk d offset data).1 = true) :
    Filling target size (chunks ++ [data]) (writer.writeChunk d offset data).2.1
        (writer.writeChunk d offset data).2.2 ∧
      ∀ q, q ≠ target ++ partialSuffix →
        (writer.writeChunk d offset data).2.2.node q = d.node q := by
  obtain ⟨-, written, eq⟩ := writeChunk_ok ok
  obtain ⟨reach, le, found⟩ := h.content
  have others : ∀ q, q ≠ target ++ partialSuffix →
      ((writer.positioned d offset).write writer.file.fileName offset.toNat data).2.node q =
        d.node q := by
    intro q apart
    rw [Disk.node_write_ne _ _ _ (by rw [h.fileName]; exact apart), node_positioned]
  have flat : (chunks ++ [data]).flatten = chunks.flatten ++ data := by
    rw [List.flatten_append, List.flatten_singleton]
  have before : (writer.positioned d offset).node writer.file.fileName =
      some (.file (chunks.flatten ++ List.replicate (reach - chunks.flatten.length) 0)) := by
    rw [node_positioned, h.fileName, found]
  have after := Disk.node_write before written
  rw [next, write_zeros, ← flat, h.fileName] at after
  rw [eq]
  refine ⟨⟨h.isOpen, h.fileName, h.targetFilePath, h.partialFilePath, ?_, ?_, ?_, reach, le, ?_⟩,
    others⟩
  · dsimp only
    rw [h.hasher, Blake3Hasher.fed_append]
  · dsimp only
    rw [h.bytesWritten, ← UInt64.ofNat_add, flat, List.length_append]
  · exact (others target (partial_ne target).symm).trans h.free
  · dsimp only
    rw [next, h.fileName]
    exact after

/-- The commit of a file of the announced size puts the chunks at the target. -/
theorem Filling.committed {target : QString} {size : Nat} {chunks : List QByteArray}
    {writer : FileWriter B} {d : Disk} (h : Filling target size chunks writer d)
    (full : size ≤ chunks.flatten.length) {expectedBlake3 : QString}
    (ok : (writer.finalizeAndCommit d expectedBlake3).1 = true) :
    let result := writer.finalizeAndCommit d expectedBlake3
    result.2.2.node target = some (.file chunks.flatten) ∧
      result.2.2.node (target ++ partialSuffix) = none ∧
      (∀ q, q ≠ target → q ≠ target ++ partialSuffix → result.2.2.node q = d.node q) ∧
      result.2.1.file.isOpen = false ∧
      result.2.1.bytesWritten = UInt64.ofNat chunks.flatten.length ∧
      result.2.1.calculatedChecksum = Blake3Hasher.digest B chunks := by
  intro result
  have verifies : writer.Verifies expectedBlake3 := by
    by_contra mismatch
    rw [finalizeAndCommit_mismatch mismatch] at ok
    cases ok
  obtain ⟨errorString, eq⟩ := finalizeAndCommit_verified (d := d) verifies
  have untouched : writer.cleared d = d := by
    rw [cleared, h.targetFilePath, Disk.exists, h.free]
    rfl
  rw [untouched, h.targetFilePath, h.partialFilePath] at eq
  obtain ⟨reach, le, found⟩ := h.content
  have whole : chunks.flatten ++ List.replicate (reach - chunks.flatten.length) (0 : UInt8) =
      chunks.flatten := by
    rw [show reach - chunks.flatten.length = 0 by omega, List.replicate_zero, List.append_nil]
  rw [whole] at found
  have renamed : (d.rename (target ++ partialSuffix) target).1 = true := by
    rw [eq] at ok
    exact ok
  obtain ⟨content, source, -, there, gone⟩ := Disk.node_rename renamed
  cases found.symm.trans source
  rw [show result = _ from eq]
  refine ⟨there, gone, fun q notTarget notStaging => ?_, rfl, h.bytesWritten, ?_⟩
  · exact Disk.node_rename_ne d notStaging notTarget
  · show writer.hasher.finalizeHex.1 = _
    rw [h.hasher]
    rfl

end FileWriter

end FastTransfer
