/- FastTransfer/Filesystem/Assembly
   source: src/filesystem/FileWriter.cpp
   digest: A file committed from chunks at any offsets, and the bytes its checksum is over. -/

import FastTransfer.Filesystem.Lifecycle
import FastTransfer.Integrity.Blake3Tree
import FastTransfer.Library.Overlay

set_option autoImplicit false
set_option relaxedAutoImplicit false

namespace FastTransfer

open QString (literal)

namespace QByteArray

/-! Digests in hexadecimal. -/

private def digitValue (c : UInt16) : UInt8 := (if c < 0x57 then c - 0x30 else c - 0x57).toUInt8

end QByteArray

namespace FileWriter

variable {B : Blake3}

def writeChunks (self : FileWriter B) (d : Disk) :
    List (UInt64 × QByteArray) → Option (FileWriter B × Disk)
  | [] => some (self, d)
  | (offset, data) :: chunks =>
      let (written, self, d) := self.writeChunk d offset data
      if written then writeChunks self d chunks else none

def places (chunks : List (UInt64 × QByteArray)) : List (Nat × QByteArray) :=
  chunks.map fun chunk => (chunk.1.toNat, chunk.2)

def chosenPath (d : Disk) (target : QString) (policy : DuplicatePolicy) : QString :=
  if d.exists target ∧ (policy = .Rename ∨ policy = .Ask) then resolveUniqueName d target
  else target

/-- What a staging file holds once it is opened. -/
def startContent (d : Disk) (staging : QString) (size resumeOffset : UInt64) : QByteArray :=
  if 0 < resumeOffset ∧ d.exists staging then d.content staging else d.prepared staging size

/-- What of it is hashed when it is opened. -/
def hashedFront (d : Disk) (staging : QString) (resumeOffset : UInt64) : QByteArray :=
  if 0 < resumeOffset ∧ d.exists staging then
    if d.refused (.read staging) then [] else (d.content staging).take resumeOffset.toNat
  else []

/-- The chunks, each over the ones before, make the file that is hashed. -/
def Assembles (d : Disk) (staging : QString) (size resumeOffset : UInt64)
    (chunks : List (Nat × QByteArray)) : Prop :=
  Overlay.Spells 0 (startContent d staging size resumeOffset) chunks
    (hashedFront d staging resumeOffset ++ Overlay.text chunks)

/-- The writer has hashed a text, and its staging file holds a content. -/
structure Assembling (target : QString) (text content : QByteArray) (writer : FileWriter B)
    (d : Disk) : Prop where
  isOpen : writer.file.isOpen = true
  fileName : writer.file.fileName = target ++ partialSuffix
  targetFilePath : writer.targetFilePath = target
  partialFilePath : writer.partialFilePath = target ++ partialSuffix
  hasher : ∃ fed, writer.hasher = .fed B fed ∧ fed.flatten = text
  content : d.node (target ++ partialSuffix) = some (.file content)

/-! Opening. -/

theorem applyPolicy_chosen {d : Disk} {target chosen : QString} {policy : DuplicatePolicy}
    (h : (applyPolicy d target policy).1 = some chosen) :
    chosen = chosenPath d target policy ∧
      (applyPolicy d target policy).2.node (chosen ++ partialSuffix) =
        d.node (chosen ++ partialSuffix) ∧
      (applyPolicy d target policy).2.refused = d.refused ∧
      (applyPolicy d target policy).2.preallocates = d.preallocates := by
  unfold applyPolicy at h ⊢
  unfold chosenPath
  by_cases there : d.exists target = true
  · rw [if_pos there] at h ⊢
    cases policy with
    | Rename => exact ⟨by simpa [there] using (Option.some.inj h).symm, rfl, rfl, rfl⟩
    | Ask => exact ⟨by simpa [there] using (Option.some.inj h).symm, rfl, rfl, rfl⟩
    | Skip => cases h
    | Replace =>
        obtain rfl := Option.some.inj h
        have host := d.host_remove target
        exact ⟨by simp, Disk.node_remove_ne _ (partial_ne target), host.1, host.2⟩
  · rw [if_neg there] at h ⊢
    exact ⟨by simpa [there] using (Option.some.inj h).symm, rfl, rfl, rfl⟩

private theorem fastForward_front {d : Disk} {path : QString} {content : QByteArray} {n : Nat}
    (found : d.node path = some (.file content)) (reads : d.refused (.read path) = false)
    (within : n ≤ content.length) {writer : FileWriter B} (fileName : writer.file.fileName = path)
    (pos : writer.file.pos = 0) (hasher : writer.hasher = .reset B) :
    (fastForward d n writer n).hasher = .fed B (FileReader.frontPieces (content.take n)) := by
  let at' (s : Nat × Blake3Hasher B) : FileWriter B :=
    { writer with file := { writer.file with pos := s.1 }, hasher := s.2 }
  have start : writer = at' (0, .reset B) := by
    show writer = { writer with file := { writer.file with pos := 0 }, hasher := .reset B }
    rw [← pos, ← hasher]
  have front := FileReader.hash_front found reads within
    (fun fuel s => fastForward d fuel (at' s)) at'
  rw [start]
  refine congrArg FileWriter.hasher
    (front (fun fuel s => ?_) fun fuel pos hasher remaining data more read some => ?_)
  · cases fuel with
    | zero => rfl
    | succ fuel =>
        rw [fastForward]
        exact if_pos (.inl rfl)
  · show fastForward d (fuel + 1) (at' (pos, hasher)) remaining = _
    rw [fastForward, show (at' (pos, hasher)).file.fileName = path from fileName, read]
    exact if_neg (not_or.mpr ⟨more, some⟩)

private theorem resumed_hasher {writer : FileWriter B} {d : Disk} {content : QByteArray}
    (found : d.node writer.partialFilePath = some (.file content))
    (start : writer.hasher = .reset B) (resumeOffset : UInt64) :
    (writer.resumed d resumeOffset).hasher = .fed B (FileReader.frontPieces
      (if d.refused (.read writer.partialFilePath) then []
        else content.take resumeOffset.toNat)) := by
  have clamped := Disk.content_file found
  change (writer.forwarded d resumeOffset).hasher = _
  cases reads : d.refused (.read writer.partialFilePath) with
  | true =>
      have none : ∀ pos size, d.read writer.partialFilePath pos size = [] := by
        intro pos size
        rw [Disk.read, if_pos reads]
      rw [if_pos rfl, FileReader.frontPieces_nil, forwarded]
      cases min resumeOffset.toNat (d.content writer.partialFilePath).length with
      | zero => exact start
      | succ n =>
          rw [fastForward, if_pos (.inr (none _ _))]
          exact start
  | false =>
      let n := min resumeOffset.toNat content.length
      have all := @fastForward_front B d writer.partialFilePath content n found reads
        (Nat.min_le_right _ _) { writer with file := ⟨writer.partialFilePath, true, 0⟩ } rfl rfl start
      have front : content.take n = content.take resumeOffset.toNat := by
        rw [List.take_eq_take_iff]
        omega
      rw [front] at all
      rw [if_neg Bool.false_ne_true, forwarded, clamped]
      exact all

private theorem assembling_stage {writer : FileWriter B} {d : Disk} {target : QString}
    {size resumeOffset : UInt64} (aimed : writer.targetFilePath = target)
    (staging : writer.partialFilePath = target ++ partialSuffix) (start : writer.hasher = .reset B)
    (opens : (writer.stage d size resumeOffset).1 = true) :
    let result := writer.stage d size resumeOffset
    Assembling target (hashedFront d (target ++ partialSuffix) resumeOffset)
        (startContent d (target ++ partialSuffix) size resumeOffset) result.2.1 result.2.2 ∧
      result.2.1.hasher =
        .fed B (FileReader.frontPieces (hashedFront d (target ++ partialSuffix) resumeOffset)) := by
  intro result
  obtain ⟨aims, -, -, isOpen⟩ := writer.stage_frame d size resumeOffset
  have open' : result.2.1.file.isOpen = true := isOpen.trans opens
  suffices both : result.2.1.hasher =
        .fed B (FileReader.frontPieces (hashedFront d writer.partialFilePath resumeOffset)) ∧
      result.2.2.node writer.partialFilePath =
        some (.file (startContent d writer.partialFilePath size resumeOffset)) by
    rw [staging] at both
    exact ⟨⟨open', (aims.fileName open').trans staging, aims.targetFilePath.trans aimed,
      aims.partialFilePath.trans staging, ⟨_, both.1, FileReader.frontPieces_flatten _⟩, both.2⟩,
      both.1⟩
  unfold hashedFront startContent
  by_cases continues : 0 < resumeOffset ∧ d.exists writer.partialFilePath
  · have eq : result = writer.openResumed d resumeOffset := if_pos continues
    rw [if_pos continues, if_pos continues]
    cases opened : (d.openReadWrite writer.partialFilePath).1 with
    | false =>
        obtain ⟨errorString, failed⟩ := openResumed_failed opened resumeOffset
        have shut : result.1 = false := by rw [eq, failed]
        cases opens.symm.trans shut
    | true =>
        have found := Disk.node_openReadWrite opened
        have hasher := resumed_hasher found start resumeOffset
        rw [Disk.refused_openReadWrite] at hasher
        rw [eq, openResumed_ok opened]
        exact ⟨hasher, found⟩
  · have eq : result = writer.openFresh d size := if_neg continues
    rw [if_neg continues, if_neg continues]
    cases opened : ((clearStaging d writer.partialFilePath size).openReadWrite
        writer.partialFilePath).1 with
    | false =>
        obtain ⟨errorString, failed⟩ := openFresh_failed opened
        have shut : result.1 = false := by rw [eq, failed]
        cases opens.symm.trans shut
    | true =>
        have found := node_clearStaging opened
        rw [eq, openFresh_ok opened, FileReader.frontPieces_nil]
        exact ⟨start, found⟩

private theorem start_congr {d d' : Disk} {path : QString} (node : d'.node path = d.node path)
    (refused : d'.refused = d.refused) (preallocates : d'.preallocates = d.preallocates)
    (size resumeOffset : UInt64) :
    hashedFront d' path resumeOffset = hashedFront d path resumeOffset ∧
      startContent d' path size resumeOffset = startContent d path size resumeOffset := by
  have there : d'.exists path = d.exists path := congrArg Option.isSome node
  have content : d'.content path = d.content path := by
    rw [Disk.content, Disk.content, node]
  have prepared : d'.prepared path size = d.prepared path size := by
    rw [Disk.prepared, Disk.prepared, Disk.leftover, Disk.leftover, content, refused, preallocates]
  constructor
  · rw [hashedFront, hashedFront, there, content, refused]
  · rw [startContent, startContent, there, content, prepared]

/-- A writer that opens has hashed the front of what its staging file holds. -/
theorem assembling_open {self : FileWriter B} {d : Disk}
    {baseOutputDir senderDevice relativePath : QString} {size resumeOffset : UInt64}
    {policy : DuplicatePolicy}
    (opens : (self.open d baseOutputDir senderDevice relativePath size resumeOffset policy).1 =
      true) :
    let result := self.open d baseOutputDir senderDevice relativePath size resumeOffset policy
    let target := chosenPath d (targetPath baseOutputDir senderDevice relativePath) policy
    Assembling target (hashedFront d (target ++ partialSuffix) resumeOffset)
        (startContent d (target ++ partialSuffix) size resumeOffset) result.2.1 result.2.2 ∧
      result.2.1.hasher =
        .fed B (FileReader.frontPieces (hashedFront d (target ++ partialSuffix) resumeOffset)) := by
  intro result target
  have nodes := checkSpace_nodes d baseOutputDir size
  rcases self.open_cases d baseOutputDir senderDevice relativePath size resumeOffset policy with
    ⟨-, eq⟩ | ⟨-, -, eq⟩ | ⟨-, chosen, choice, eq⟩
  · rw [eq] at opens
    cases opens
  · rw [eq] at opens
    cases opens
  · obtain ⟨path, node, refused, preallocates⟩ := applyPolicy_chosen choice
    have same : chosen = target := by
      rw [path, chosenPath, resolveUniqueName_congr nodes, Disk.exists, checkSpace_node]
      rfl
    rw [eq] at opens
    have staged := @assembling_stage B (self.aimed chosen size) _ chosen size resumeOffset rfl rfl
      rfl opens
    rw [show result = _ from eq]
    have host := Disk.host_mkpath (applyPolicy (checkSpace d baseOutputDir size).2
      (targetPath baseOutputDir senderDevice relativePath) policy).2
      (dirPart (chosen ++ partialSuffix))
    have room : (checkSpace d baseOutputDir size).2.preallocates = d.preallocates := by
      unfold checkSpace
      split <;> rfl
    obtain ⟨front, content⟩ := start_congr
      ((node_mkpath_staging _ chosen).trans (node.trans (checkSpace_node ..)))
      (host.1.trans (refused.trans (checkSpace_refused d baseOutputDir size)))
      (host.2.trans (preallocates.trans room)) size resumeOffset
    rw [front, content] at staged
    rw [← same]
    exact staged

/-! Writing and committing. -/

section Writing

variable {target : QString} {text content : QByteArray} {writer : FileWriter B} {d : Disk}

theorem Assembling.written (h : Assembling target text content writer d) {offset : UInt64}
    {data : QByteArray} (ok : (writer.writeChunk d offset data).1 = true) :
    Assembling target (text ++ data) (Overlay.write 0 content offset.toNat data)
      (writer.writeChunk d offset data).2.1 (writer.writeChunk d offset data).2.2 := by
  obtain ⟨-, written, eq⟩ := writeChunk_ok ok
  obtain ⟨fed, hasher, flat⟩ := h.hasher
  have before : (writer.positioned d offset).node writer.file.fileName = some (.file content) := by
    rw [node_positioned, h.fileName, h.content]
  have after := Disk.node_write before written
  rw [h.fileName] at after
  rw [eq]
  refine ⟨h.isOpen, h.fileName, h.targetFilePath, h.partialFilePath, ⟨fed ++ [data], ?_, ?_⟩, ?_⟩
  · dsimp only
    rw [hasher, Blake3Hasher.fed_append]
  · rw [List.flatten_append, List.flatten_singleton, flat]
  · dsimp only
    rw [h.fileName]
    exact after

theorem Assembling.chunks (h : Assembling target text content writer d)
    {chunks : List (UInt64 × QByteArray)} {s : FileWriter B × Disk}
    (written : writeChunks writer d chunks = some s) :
    Assembling target (text ++ Overlay.text (places chunks))
      (Overlay.writeAll 0 content (places chunks)) s.1 s.2 := by
  induction chunks generalizing text content writer d with
  | nil =>
      obtain rfl := Option.some.inj written
      rw [show Overlay.text (places []) = [] from rfl, List.append_nil]
      exact h
  | cons chunk chunks ih =>
      cases ok : (writer.writeChunk d chunk.1 chunk.2).1 with
      | false => simp [writeChunks, ok] at written
      | true =>
          have rest : writeChunks (writer.writeChunk d chunk.1 chunk.2).2.1
              (writer.writeChunk d chunk.1 chunk.2).2.2 chunks = some s := by
            simpa [writeChunks, ok] using written
          have whole := ih (h.written ok) rest
          rw [List.append_assoc] at whole
          exact whole

theorem Assembling.committed (h : Assembling target text content writer d)
    {expectedBlake3 : QString} (ok : (writer.finalizeAndCommit d expectedBlake3).1 = true) :
    writer.Verifies expectedBlake3 ∧
      (writer.finalizeAndCommit d expectedBlake3).2.1.targetFilePath = target ∧
      (writer.finalizeAndCommit d expectedBlake3).2.2.node target = some (.file content) := by
  have verifies : writer.Verifies expectedBlake3 := by
    by_contra mismatch
    rw [finalizeAndCommit_mismatch mismatch] at ok
    cases ok
  obtain ⟨errorString, eq⟩ := finalizeAndCommit_verified (d := d) verifies
  rw [eq] at ok ⊢
  obtain ⟨moved, source, -, there, -⟩ := Disk.node_rename ok
  have apart : target ++ partialSuffix ≠ writer.targetFilePath := by
    rw [h.targetFilePath]
    exact partial_ne target
  rw [h.partialFilePath, node_cleared_ne _ _ apart, h.content] at source
  cases source
  rw [h.targetFilePath] at there ⊢
  exact ⟨verifies, h.targetFilePath, there⟩

end Writing

/-- The places of chunks make a file whatever is in the chunks, exactly if each chunk starts where
the one before ended and they reach the end of what the staging file held. -/
theorem assembles_any_iff (d : Disk) (staging : QString) (size resumeOffset : UInt64)
    (chunks : List (Nat × QByteArray)) :
    (∀ chunks', Overlay.SameLayout chunks chunks' →
      Assembles d staging size resumeOffset chunks') ↔
      Overlay.Straight (hashedFront d staging resumeOffset).length chunks ∧
        (startContent d staging size resumeOffset).length ≤
          (hashedFront d staging resumeOffset).length + (Overlay.text chunks).length := by
  have front : hashedFront d staging resumeOffset <+:
      startContent d staging size resumeOffset := by
    unfold hashedFront startContent
    split
    · split
      · exact List.nil_prefix
      · exact List.take_prefix _ _
    · exact List.nil_prefix
  have symbols : Nontrivial UInt8 := ⟨0, 1, by decide⟩
  rw [← Overlay.straight_iff 0 front chunks]
  apply forall₂_congr
  intro chunks' _
  exact (Overlay.writeAll_eq_iff 0 _ _ _).symm

def twoBytes : Bool × FileWriter Blake3.vendored × Disk :=
  (new Blake3.vendored).open Disk.blank (literal "d") (literal "pc") (literal "a.txt") 2 0 .Rename

def filled (chunks : List (UInt64 × QByteArray)) :
    Option (FileWriter Blake3.vendored × Disk) := writeChunks twoBytes.2.1 twoBytes.2.2 chunks

def receives (text : QByteArray) (s : FileWriter Blake3.vendored × Disk) :
    Bool × FileWriter Blake3.vendored × Disk :=
  s.1.finalizeAndCommit s.2 (Blake3.hash text).toHex

end FileWriter

end FastTransfer
