/- FastTransfer/Filesystem/Resume
   source: src/filesystem/FileReader.cpp, src/filesystem/FileWriter.cpp
   digest: A reader and a writer that resume at one offset copy the whole file. -/

import FastTransfer.Filesystem.Assembly

set_option autoImplicit false
set_option relaxedAutoImplicit false

namespace FastTransfer.FileWriter

open QString (literal)

variable {B : Blake3}

/-! The copying loop. -/

/-- Write each chunk that is read, at the offset where the reader was, until the reader is at its
end. Every chunk has a byte at least, so as much fuel as the file is long is enough. -/
def copy (source : Disk) : Nat → FileReader B → FileWriter B → Disk →
    FileReader B × FileWriter B × Disk
  | 0, reader, writer, d => (reader, writer, d)
  | fuel + 1, reader, writer, d =>
      if reader.isAtEnd then (reader, writer, d)
      else
        let offset := reader.currentOffset
        let (chunk, reader) := reader.readNextChunk source
        let (_, writer, d) := writer.writeChunk d offset chunk
        copy source fuel reader writer d

structure Copying (source : Disk) (path target : QString) (place : Nat) (reader : FileReader B)
    (writer : FileWriter B) (d : Disk) : Prop where
  reading : reader.Reading source path place
  inside : place ≤ (source.content path).length
  assembling : ∃ content, Assembling target ((source.content path).take place) content writer d ∧
    (source.content path).take place <+: content ∧
    content.length ≤ (source.content path).length
  hasher : writer.hasher = reader.hasher

theorem succeeded_copy {source : Disk} {fuel : Nat} {reader : FileReader B} {writer : FileWriter B}
    {d : Disk} (h : (copy source fuel reader writer d).2.2.AllSucceeded) : d.AllSucceeded := by
  induction fuel generalizing reader writer d with
  | zero => exact h
  | succ fuel ih =>
      rw [copy] at h
      split at h
      · exact h
      · exact (succeeded_writeChunk (ih h)).1

section Copy

variable {source : Disk} {path target : QString} {place : Nat} {reader : FileReader B}
  {writer : FileWriter B} {d : Disk}

theorem Copying.chunk (h : Copying source path target place reader writer d)
    (readable : FileReader.Readable source path) (before : place < (source.content path).length)
    (written : (writer.writeChunk d reader.currentOffset (reader.readNextChunk source).1).1 =
      true) :
    ∃ place', place < place' ∧ Copying source path target place' (reader.readNextChunk source).2
      (writer.writeChunk d reader.currentOffset (reader.readNextChunk source).1).2.1
      (writer.writeChunk d reader.currentOffset (reader.readNextChunk source).1).2.2 := by
  obtain ⟨content, assembling, front, fits⟩ := h.assembling
  obtain ⟨chunk, -, hasher, next⟩ := h.reading.next readable before
  have offset := h.reading.currentOffset
  have step := assembling.written written
  obtain ⟨-, -, eq⟩ := writeChunk_ok written
  have hashed : (writer.writeChunk d reader.currentOffset
      (reader.readNextChunk source).1).2.1.hasher =
        writer.hasher.update (reader.readNextChunk source).1 := by
    rw [eq]
  rw [chunk] at step hashed
  rw [chunk]
  have length : (((source.content path).drop place).take reader.chunkSize.toNat).length =
      min reader.chunkSize.toNat ((source.content path).length - place) := by
    rw [List.length_take, List.length_drop]
  have positive := h.reading.chunkSize
  have front' := List.length_take_of_le h.inside
  have longer : (source.content path).take place ++
      ((source.content path).drop place).take reader.chunkSize.toNat =
        (source.content path).take
          (place + (((source.content path).drop place).take reader.chunkSize.toNat).length) := by
    rw [List.take_add, List.append_cancel_left_eq, List.take_eq_take_iff, List.length_drop, length]
    omega
  generalize ((source.content path).drop place).take reader.chunkSize.toNat = chunk' at *
  refine ⟨place + chunk'.length, by omega, next, by omega,
    ⟨Overlay.write 0 content reader.currentOffset.toNat chunk', ?_, ?_, ?_⟩, ?_⟩
  · rw [← longer]
    exact step
  · rw [← longer, offset]
    exact Overlay.write_front 0 front (.inr front'.symm)
  · rw [Overlay.length_write]
    split <;> omega
  · rw [hashed, hasher, h.hasher]

/-- Where the disk does what it is asked to do, the loop copies the rest of the file. -/
theorem Copying.copy (h : Copying source path target place reader writer d)
    (readable : FileReader.Readable source path) {fuel : Nat}
    (enough : (source.content path).length ≤ place + fuel)
    (succeeded : (copy source fuel reader writer d).2.2.AllSucceeded) :
    let result := copy source fuel reader writer d
    result.1.isAtEnd = true ∧
      Copying source path target (source.content path).length result.1 result.2.1 result.2.2 := by
  induction fuel generalizing place reader writer d with
  | zero =>
      have last : place = (source.content path).length := by
        have := h.inside
        omega
      exact ⟨h.reading.isAtEnd_iff.mpr (by omega), last ▸ h⟩
  | succ fuel ih =>
      by_cases ended : reader.isAtEnd = true
      · have last : place = (source.content path).length := by
          have := h.reading.isAtEnd_iff.mp ended
          have := h.inside
          omega
        have stop : FileWriter.copy source (fuel + 1) reader writer d = (reader, writer, d) := by
          rw [FileWriter.copy, if_pos ended]
        rw [stop]
        exact ⟨ended, last ▸ h⟩
      · have before := h.reading.isAtEnd_iff.not.mp ended
        have turn : FileWriter.copy source (fuel + 1) reader writer d =
            FileWriter.copy source fuel (reader.readNextChunk source).2
              (writer.writeChunk d reader.currentOffset (reader.readNextChunk source).1).2.1
              (writer.writeChunk d reader.currentOffset (reader.readNextChunk source).1).2.2 := by
          rw [FileWriter.copy, if_neg ended]
        rw [turn] at succeeded ⊢
        obtain ⟨content, assembling, -, -⟩ := h.assembling
        have written := (succeeded_writeChunk (succeeded_copy succeeded)).2 assembling.isOpen
        obtain ⟨place', further, next⟩ := h.chunk readable (by omega) written
        exact ih next (by omega) succeeded

theorem Copying.committed
    (h : Copying source path target (source.content path).length reader writer d)
    (succeeded : (writer.finalizeAndCommit d reader.finalizeBlake3.1).2.2.AllSucceeded) :
    (writer.finalizeAndCommit d reader.finalizeBlake3.1).1 = true ∧
      (writer.finalizeAndCommit d reader.finalizeBlake3.1).2.2.node target =
        some (.file (source.content path)) := by
  obtain ⟨content, assembling, front, fits⟩ := h.assembling
  rw [List.take_length] at front
  have whole := front.eq_of_length_le fits
  have verifies : writer.Verifies reader.finalizeBlake3.1 := by
    right
    rw [FileReader.finalizeBlake3, h.hasher]
    exact QString.equalsIgnoringCase_self _
  have commits := (succeeded_finalizeAndCommit succeeded).2 verifies
  rw [whole]
  exact ⟨commits, (assembling.committed commits).2.2⟩

end Copy

/-! Opening where nothing is at the target. -/

section Open

variable {self : FileWriter B} {d : Disk} {baseOutputDir senderDevice relativePath : QString}
  {size resumeOffset : UInt64} {policy : DuplicatePolicy}

theorem succeeded_open_free
    (free : d.node (targetPath baseOutputDir senderDevice relativePath) = none)
    (h : (self.open d baseOutputDir senderDevice relativePath size resumeOffset
      policy).2.2.AllSucceeded) :
    (self.open d baseOutputDir senderDevice relativePath size resumeOffset policy).1 = true ∧
      (resumeOffset = 0 →
        d.leftover (targetPath baseOutputDir senderDevice relativePath ++ partialSuffix) = []) := by
  have cases := self.open_cases d baseOutputDir senderDevice relativePath size resumeOffset policy
  generalize targetPath baseOutputDir senderDevice relativePath = target at free cases ⊢
  generalize self.open d baseOutputDir senderDevice relativePath size resumeOffset policy = result
    at h cases ⊢
  have absent : (checkSpace d baseOutputDir size).2.exists target = false := by
    rw [Disk.exists, checkSpace_node, free]
    rfl
  dsimp only at cases
  rw [applyPolicy_free absent] at cases
  rcases cases with ⟨full, eq⟩ | ⟨-, skipped, -⟩ | ⟨-, chosen, same, eq⟩
  · rw [eq] at h
    have room := (succeeded_checkSpace h).2
    rw [full] at room
    cases room
  · cases skipped
  · obtain rfl := Option.some.inj same
    rw [eq] at h ⊢
    obtain ⟨-, opens, gone⟩ := succeeded_stage h
    refine ⟨opens, ?_⟩
    intro zero
    have left : ((checkSpace d baseOutputDir size).2.mkpath
        (dirPart (target ++ partialSuffix))).leftover (target ++ partialSuffix) = [] := gone zero
    rwa [Disk.leftover, Disk.content, (Disk.host_mkpath _ _).1, node_mkpath_staging,
      checkSpace_node, checkSpace_refused, ← Disk.content, ← Disk.leftover] at left

theorem chosenPath_free {target : QString} (free : d.node target = none) :
    chosenPath d target policy = target := by
  have absent : d.exists target = false := by
    rw [Disk.exists, free]
    rfl
  rw [chosenPath, absent, if_neg]
  rintro ⟨impossible, -⟩
  cases impossible

end Open

/-- The staging file is a new one, or it agrees with a file up to the offset and is no longer. -/
def Agrees (d : Disk) (staging : QString) (resumeOffset : UInt64) (file : QByteArray) : Prop :=
  resumeOffset = 0 ∨ ∃ content, d.node staging = some (.file content) ∧
    resumeOffset.toNat ≤ content.length ∧ content.length ≤ file.length ∧
    content.take resumeOffset.toNat = file.take resumeOffset.toNat

/-- What is hashed when the staging file is opened is the front of the file. -/
private theorem Agrees.start {d : Disk} {staging : QString} {resumeOffset size : UInt64}
    {file : QByteArray} (h : Agrees d staging resumeOffset file)
    (reads : d.refused (.read staging) = false)
    (gone : resumeOffset = 0 → d.leftover staging = []) (length : size.toNat = file.length) :
    hashedFront d staging resumeOffset = file.take resumeOffset.toNat ∧
      file.take resumeOffset.toNat <+: startContent d staging size resumeOffset ∧
      (startContent d staging size resumeOffset).length ≤ file.length := by
  unfold hashedFront startContent
  by_cases zero : resumeOffset = 0
  · have fresh : ¬ (0 < resumeOffset ∧ d.exists staging) := by
      rw [zero]
      rintro ⟨impossible, -⟩
      cases impossible
    rw [if_neg fresh, if_neg fresh, zero, UInt64.toNat_zero, List.take_zero]
    refine ⟨rfl, List.nil_prefix, ?_⟩
    rw [Disk.prepared, gone zero]
    split
    · exact Nat.zero_le _
    · rw [List.nil_append, List.length_replicate, List.length_nil]
      omega
  · obtain ⟨content, found, -, fits, same⟩ := h.resolve_left zero
    have continues : 0 < resumeOffset ∧ d.exists staging := by
      refine ⟨?_, ?_⟩
      · rw [UInt64.lt_iff_toNat_lt]
        exact Nat.pos_of_ne_zero (UInt64.toNat_inj.not.mpr zero)
      · rw [Disk.exists, found]
        rfl
    rw [if_pos continues, if_pos continues, reads, if_neg Bool.false_ne_true,
      Disk.content_file found]
    exact ⟨same, same ▸ List.take_prefix _ _, fits⟩

/-- A reader and a writer that are opened at one offset, of a source that the staging file agrees
with up to there, copy the whole source. -/
theorem copy_resumed {self : FileWriter B} {source d d₁ d₂ d₃ : Disk}
    {path baseOutputDir senderDevice relativePath : QString} {chunkSize : UInt32}
    {resumeOffset : UInt64} {policy : DuplicatePolicy} {fuel : Nat} {reader reader' : FileReader B}
    {writer writer' writer'' : FileWriter B} {readerOpens writerOpens commits : Bool}
    (readable : FileReader.Readable source path) (positive : 0 < chunkSize)
    (within : resumeOffset.toNat ≤ (source.content path).length)
    (free : d.node (targetPath baseOutputDir senderDevice relativePath) = none)
    (agrees : Agrees d (targetPath baseOutputDir senderDevice relativePath ++ partialSuffix)
      resumeOffset (source.content path))
    (reads : d.refused
      (.read (targetPath baseOutputDir senderDevice relativePath ++ partialSuffix)) = false)
    (opened : (FileReader.new B chunkSize).open source path resumeOffset = (readerOpens, reader))
    (opened' : self.open d baseOutputDir senderDevice relativePath
      (UInt64.ofNat (source.content path).length) resumeOffset policy = (writerOpens, writer, d₁))
    (enough : (source.content path).length ≤ fuel)
    (copied : copy source fuel reader writer d₁ = (reader', writer', d₂))
    (finished : writer'.finalizeAndCommit d₂ reader'.finalizeBlake3.1 = (commits, writer'', d₃))
    (succeeded : d₃.AllSucceeded) :
    readerOpens = true ∧ writerOpens = true ∧ reader'.isAtEnd = true ∧ commits = true ∧
      d₃.node (targetPath baseOutputDir senderDevice relativePath) =
        some (.file (source.content path)) := by
  have length : (UInt64.ofNat (source.content path).length).toNat =
      (source.content path).length :=
    UInt64.toNat_ofNat_of_lt' (by have := readable.length; rw [UInt64.size]; omega)
  -- backwards from the last operation, everything has succeeded
  have all₂ : d₂.AllSucceeded := by
    have last : (writer'.finalizeAndCommit d₂ reader'.finalizeBlake3.1).2.2.AllSucceeded := by
      rw [finished]
      exact succeeded
    exact (succeeded_finalizeAndCommit last).1
  have all₂' : (copy source fuel reader writer d₁).2.2.AllSucceeded := by
    rw [copied]
    exact all₂
  have all₁ : (self.open d baseOutputDir senderDevice relativePath
      (UInt64.ofNat (source.content path).length) resumeOffset policy).2.2.AllSucceeded := by
    rw [opened']
    exact succeeded_copy all₂'
  obtain ⟨opens, reading, hasher⟩ := FileReader.open_reading (B := B) readable positive within
  obtain ⟨opens', gone⟩ := succeeded_open_free free all₁
  obtain ⟨front, starts, fits⟩ := agrees.start reads gone length
  obtain ⟨assembling, hasher'⟩ := assembling_open opens'
  rw [chosenPath_free free, front] at assembling hasher'
  rw [opened] at opens reading hasher
  rw [opened'] at opens' assembling hasher'
  have start : Copying source path (targetPath baseOutputDir senderDevice relativePath)
      resumeOffset.toNat reader writer d₁ :=
    ⟨reading, within, ⟨_, assembling, starts, fits⟩, hasher'.trans hasher.symm⟩
  obtain ⟨ended, final⟩ := start.copy readable (by omega) all₂'
  rw [copied] at ended final
  have done := final.committed (by rw [finished]; exact succeeded)
  rw [finished] at done
  exact ⟨opens, opens', ended, done.1, done.2⟩

def threeBytes : Disk := Disk.blank.put (literal "s") (.file [1, 2, 3])

def firstByte : Disk :=
  ((Disk.blank.put (literal "d") .dir).put (literal "d/pc") .dir).put (literal "d/pc/a.txt.partial")
    (.file [1, 9])

def sending : Bool × FileReader Blake3.vendored :=
  (FileReader.new Blake3.vendored 1).open threeBytes (literal "s") 1

def receiving : Bool × FileWriter Blake3.vendored × Disk :=
  (new Blake3.vendored).open firstByte (literal "d") (literal "pc") (literal "a.txt") 3 1 .Rename

def sent : FileReader Blake3.vendored × FileWriter Blake3.vendored × Disk :=
  copy threeBytes 3 sending.2 receiving.2.1 receiving.2.2

def stored : Bool × FileWriter Blake3.vendored × Disk :=
  sent.2.1.finalizeAndCommit sent.2.2 sent.1.finalizeBlake3.1

theorem copy_resumed_first :
    sending.1 = true ∧ receiving.1 = true ∧ sent.1.isAtEnd = true ∧ stored.1 = true ∧
      stored.2.2.node (literal "d/pc/a.txt") = some (.file [1, 2, 3]) := by
  have target : targetPath (literal "d") (literal "pc") (literal "a.txt") =
      literal "d/pc/a.txt" := by
    decide
  have staging : targetPath (literal "d") (literal "pc") (literal "a.txt") ++ partialSuffix =
      literal "d/pc/a.txt.partial" := by
    decide
  have agrees : Agrees firstByte (literal "d/pc/a.txt.partial") 1
      (threeBytes.content (literal "s")) :=
    .inr ⟨[1, 9], by decide, by decide, by decide, by decide⟩
  have enough : (threeBytes.content (literal "s")).length ≤ 3 := by decide
  have parts : ∀ {α β γ : Type} (r : α × β × γ), r = (r.1, r.2.1, r.2.2) := fun _ => rfl
  rw [← staging] at agrees
  have readable : FileReader.Readable threeBytes (literal "s") := by decide
  have succeeded : stored.2.2.AllSucceeded := by decide +kernel
  have all := copy_resumed readable (by decide) (by decide) (by decide) agrees (by decide) rfl
    (parts receiving) enough (parts sent) (parts stored) succeeded
  rw [target] at all
  exact all

end FastTransfer.FileWriter
