/- FastTransfer/Filesystem/FileWriter
   source: src/filesystem/FileWriter.h, src/filesystem/FileWriter.cpp
   digest: The staging writer: duplicate policies, chunk writes, verified commit. -/

import FastTransfer.Filesystem.FileReader
import FastTransfer.Platform.PlatformFilesystem

set_option autoImplicit false
set_option relaxedAutoImplicit false

namespace FastTransfer

open QString (literal)

inductive DuplicatePolicy
  | Ask | Replace | Skip | Rename
  deriving DecidableEq

structure FileWriter (B : Blake3) where
  file : QFile
  targetFilePath : QString
  partialFilePath : QString
  expectedFileSize : UInt64
  bytesWritten : UInt64
  hasher : Blake3Hasher B
  calculatedChecksum : QString
  errorString : QString

namespace FileWriter

variable {B : Blake3}

def new (B : Blake3) : FileWriter B := ⟨{}, [], [], 0, 0, .reset B, [], []⟩

def partialSuffix : QString := literal ".partial"

/-- `QFileInfo::completeBaseName`. -/
def completeBaseName (name : QString) : QString :=
  if QString.dot ∈ name then ((name.reverse.dropWhile (· ≠ QString.dot)).drop 1).reverse else name

/-- `QFileInfo::suffix`. -/
def suffix (name : QString) : QString :=
  if QString.dot ∈ name then (name.reverse.takeWhile (· ≠ QString.dot)).reverse else []

/-- `QFileInfo::absolutePath` with a slash behind it. Dots in the place of the name are resolved
first; those in front of it are the file system's to resolve. -/
def infoFolder (path : QString) : QString :=
  if namePart path = [QString.dot] then folderPart (dirPart path)
  else if namePart path = [QString.dot, QString.dot] then folderPart (dirPart (dirPart path))
  else folderPart path

def candidate (targetFilePath : QString) (counter : Nat) : QString :=
  let ext := suffix (namePart targetFilePath)
  let ext := if ext = [] then ext else QString.dot :: ext
  infoFolder targetFilePath ++ completeBaseName (namePart targetFilePath) ++
    literal " (" ++ QString.number counter ++ literal ")" ++ ext

def isTaken (d : Disk) (path : QString) : Bool :=
  d.exists path || d.exists (path ++ partialSuffix)

/-- The counting loop. An entry of the file system blocks at most two counters, so the fuel
given by `resolveUniqueName` suffices. -/
def firstFree (d : Disk) (targetFilePath : QString) : Nat → Nat → QString
  | 0, counter => candidate targetFilePath counter
  | fuel + 1, counter =>
      if isTaken d (candidate targetFilePath counter) then
        firstFree d targetFilePath fuel (counter + 1)
      else candidate targetFilePath counter

def resolveUniqueName (d : Disk) (targetFilePath : QString) : QString :=
  if !d.exists targetFilePath then targetFilePath
  else firstFree d targetFilePath (2 * d.nodes.entries.length + 1) 1

def close (self : FileWriter B) : FileWriter B :=
  { self with file := { self.file with isOpen := false } }

/-- Closes the handle and keeps the staging file. -/
def abort (self : FileWriter B) : FileWriter B := close self

/-- The path a file is to have, before any duplicate is looked for. -/
def targetPath (baseOutputDir senderDevice relativePath : QString) : QString :=
  filePath (filePath baseOutputDir (PlatformFilesystem.sanitizeDeviceName senderDevice))
    (PlatformFilesystem.sanitizePath relativePath)

/-- The duplicate policies: the final target path unless the file is skipped, and the disk. -/
def applyPolicy (d : Disk) (target : QString) (policy : DuplicatePolicy) : Option QString × Disk :=
  if d.exists target then
    match policy with
    | .Rename | .Ask => (some (resolveUniqueName d target), d)
    | .Replace => (some target, d.remove target)
    | .Skip => (none, d)
  else (some target, d)

/-- Hash what a staging file already holds; a short read ends the loop. -/
def fastForward (d : Disk) : Nat → FileWriter B → Nat → FileWriter B
  | 0, self, _ => self
  | fuel + 1, self, remaining =>
      let data := d.read self.file.fileName self.file.pos (min remaining FileReader.kFastBufferSize)
      if remaining = 0 ∨ data = [] then self
      else fastForward d fuel
        { self with
          file := { self.file with pos := self.file.pos + data.length }
          hasher := self.hasher.update data }
        (remaining - data.length)

def openResumed (self : FileWriter B) (d : Disk) (resumeOffset : UInt64) :
    Bool × FileWriter B × Disk :=
  let path := self.partialFilePath
  let (opened, d) := d.openReadWrite path
  if !opened then
    (false, { self with
      file := ⟨path, false, 0⟩, errorString := d.errorString (.openReadWrite path) }, d)
  else
    let remaining := min resumeOffset.toNat (d.content path).length
    let self := fastForward d remaining { self with file := ⟨path, true, 0⟩ } remaining
    let (moved, d) := d.seek path resumeOffset.toNat
    (true, { self with
      file := if moved then { self.file with pos := resumeOffset.toNat } else self.file
      bytesWritten := resumeOffset }, d)

def clearStaging (d : Disk) (path : QString) (expectedFileSize : UInt64) : Disk :=
  (if d.exists path then d.remove path else d).preallocateFile path expectedFileSize

def openFresh (self : FileWriter B) (d : Disk) (expectedFileSize : UInt64) :
    Bool × FileWriter B × Disk :=
  let path := self.partialFilePath
  let (opened, d) := (clearStaging d path expectedFileSize).openReadWrite path
  if !opened then
    (false, { self with
      file := ⟨path, false, 0⟩, errorString := d.errorString (.openReadWrite path) }, d)
  else (true, { self with file := ⟨path, true, 0⟩, bytesWritten := 0 }, d)

def insufficientSpace (required available : UInt64) : QString :=
  literal "Insufficient disk space on destination drive. Required: " ++
    QString.number required.toNat ++ literal " bytes, Available: " ++
    QString.number available.toNat ++ literal " bytes"

def checkSpace (d : Disk) (baseOutputDir : QString) (expectedFileSize : UInt64) : Bool × Disk :=
  if 0 < expectedFileSize then d.reserve baseOutputDir expectedFileSize else (true, d)

def «open» (self : FileWriter B) (d : Disk) (baseOutputDir senderDevice relativePath : QString)
    (expectedFileSize resumeOffset : UInt64) (policy : DuplicatePolicy) :
    Bool × FileWriter B × Disk :=
  let self := close self
  let (space, d) := checkSpace d baseOutputDir expectedFileSize
  if !space then
    (false, { self with
      errorString := insufficientSpace expectedFileSize (d.availableDiskSpace baseOutputDir) }, d)
  else
    let target := targetPath baseOutputDir senderDevice relativePath
    let self : FileWriter B :=
      { self with
        targetFilePath := target, expectedFileSize := expectedFileSize, hasher := .reset B
        errorString := [] }
    match applyPolicy d target policy with
    | (none, d) =>
        (false, { self with
          errorString := literal "File already exists and policy is Skip" }, d)
    | (some target, d) =>
        let self : FileWriter B :=
          { self with targetFilePath := target, partialFilePath := target ++ partialSuffix }
        let d := d.mkpath (dirPart self.partialFilePath)
        if 0 < resumeOffset ∧ d.exists self.partialFilePath then openResumed self d resumeOffset
        else openFresh self d expectedFileSize

def writeChunk (self : FileWriter B) (d : Disk) (offset : UInt64) (data : QByteArray) :
    Bool × FileWriter B × Disk :=
  let path := self.file.fileName
  if !self.file.isOpen then
    (false, { self with errorString := literal "File is not open for writing" }, d)
  else
    let (moved, d) :=
      if self.file.pos ≠ offset.toNat then d.seek path offset.toNat else (true, d)
    if !moved then
      (false, { self with errorString := d.errorString (.seek path offset.toNat) }, d)
    else
      let self := { self with file := { self.file with pos := offset.toNat } }
      let (written, d) := d.write path offset.toNat data
      if !written then
        (false, { self with
          errorString := d.errorString (.write path offset.toNat data.length) }, d)
      else
        (true, { self with
          file := { self.file with pos := offset.toNat + data.length }
          hasher := self.hasher.update data
          bytesWritten := self.bytesWritten + UInt64.ofNat data.length }, d)

def checksumMismatch (expected computed : QString) : QString :=
  literal "BLAKE3 Checksum Mismatch: expected " ++ expected ++ literal ", computed " ++ computed

def cleared (self : FileWriter B) (d : Disk) : Disk :=
  if d.exists self.targetFilePath then d.remove self.targetFilePath else d

def commit (self : FileWriter B) (d : Disk) : Bool × FileWriter B × Disk :=
  let (renamed, d) := (self.cleared d).rename self.partialFilePath self.targetFilePath
  if !renamed then
    (false, { self with
      errorString := literal "Failed to commit .partial file to destination path" }, d)
  else (true, self, d)

def finished (self : FileWriter B) : FileWriter B :=
  { close self with
    hasher := self.hasher.finalizeHex.2, calculatedChecksum := self.hasher.finalizeHex.1 }

def finalizeAndCommit (self : FileWriter B) (d : Disk) (expectedBlake3 : QString) :
    Bool × FileWriter B × Disk :=
  let self := self.finished
  if expectedBlake3 ≠ [] ∧ !QString.equalsIgnoringCase expectedBlake3 self.calculatedChecksum then
    (false, { self with
      errorString := checksumMismatch expectedBlake3 self.calculatedChecksum }, d)
  else commit self d

/-! What the three operations of a session do. -/

def staged (d : Disk) (target : QString) (expectedFileSize : UInt64) : Disk :=
  clearStaging (d.mkpath (dirPart (target ++ partialSuffix))) (target ++ partialSuffix)
    expectedFileSize

def staging (B : Blake3) (target : QString) (expectedFileSize : UInt64) : FileWriter B :=
  ⟨⟨target ++ partialSuffix, true, 0⟩, target, target ++ partialSuffix, expectedFileSize, 0,
    .reset B, [], []⟩

theorem partial_ne (target : QString) : target ++ partialSuffix ≠ target := by
  intro h
  have := congrArg List.length h
  simp [partialSuffix, literal] at this

theorem node_clearStaging {d : Disk} {path : QString} {size : UInt64}
    (opened : ((clearStaging d path size).openReadWrite path).1 = true) :
    ((clearStaging d path size).openReadWrite path).2.node path =
      some (.file (d.prepared path size)) := by
  rw [Disk.node_openReadWrite opened]
  unfold clearStaging at opened ⊢
  have host := d.host_removed path
  rw [Disk.content_preallocateFile opened, Disk.content_removed, host.1, host.2, Disk.prepared]

theorem node_staged {d : Disk} {target : QString} {size : UInt64}
    (opened : ((staged d target size).openReadWrite (target ++ partialSuffix)).1 = true) :
    ((staged d target size).openReadWrite (target ++ partialSuffix)).2.node
        (target ++ partialSuffix) =
      some (.file (d.prepared (target ++ partialSuffix) size)) := by
  have host := d.host_mkpath (dirPart (target ++ partialSuffix))
  rw [staged, node_clearStaging opened, Disk.prepared, Disk.prepared, Disk.leftover, Disk.leftover,
    Disk.content_mkpath, host.1, host.2]

/-! What `open` does, whatever the writer was used for before. -/

def aimed (self : FileWriter B) (target : QString) (size : UInt64) : FileWriter B :=
  { close self with
    targetFilePath := target, partialFilePath := target ++ partialSuffix
    expectedFileSize := size, hasher := .reset B, errorString := [] }

/-- The last part of `open`: a staging file that is continued or a new one. -/
def stage (self : FileWriter B) (d : Disk) (size resumeOffset : UInt64) :
    Bool × FileWriter B × Disk :=
  if 0 < resumeOffset ∧ d.exists self.partialFilePath then openResumed self d resumeOffset
  else openFresh self d size

/-- There is no space, a duplicate is skipped, or a staging file is opened. -/
theorem open_cases (self : FileWriter B) (d : Disk)
    (baseOutputDir senderDevice relativePath : QString) (size resumeOffset : UInt64)
    (policy : DuplicatePolicy) :
    let result := self.open d baseOutputDir senderDevice relativePath size resumeOffset policy
    let room := checkSpace d baseOutputDir size
    let target := targetPath baseOutputDir senderDevice relativePath
    let choice := applyPolicy room.2 target policy
    (room.1 = false ∧ result = (false, { close self with
        errorString := insufficientSpace size (room.2.availableDiskSpace baseOutputDir) },
        room.2)) ∨
      (room.1 = true ∧ choice.1 = none ∧ result = (false, { close self with
        targetFilePath := target, expectedFileSize := size, hasher := .reset B
        errorString := literal "File already exists and policy is Skip" }, choice.2)) ∨
      (room.1 = true ∧ ∃ chosen, choice.1 = some chosen ∧
        result = stage (self.aimed chosen size)
          (choice.2.mkpath (dirPart (chosen ++ partialSuffix))) size resumeOffset) := by
  intro result room target choice
  cases space : room.1 with
  | false =>
      refine .inl ⟨rfl, ?_⟩
      simp only [result, «open», room] at space ⊢
      rw [space]
      rfl
  | true =>
      have pair : choice = (choice.1, choice.2) := rfl
      cases chosen : choice.1 with
      | none =>
          refine .inr (.inl ⟨rfl, rfl, ?_⟩)
          rw [chosen] at pair
          simp only [result, «open», room, choice, target] at space pair ⊢
          rw [space, pair]
          rfl
      | some chosen' =>
          refine .inr (.inr ⟨rfl, chosen', rfl, ?_⟩)
          rw [chosen] at pair
          simp only [result, «open», room, choice, target] at space pair ⊢
          rw [space, pair]
          rfl

section Stage

variable {self : FileWriter B} {d : Disk}

def forwarded (self : FileWriter B) (d : Disk) (resumeOffset : UInt64) : FileWriter B :=
  fastForward d (min resumeOffset.toNat (d.content self.partialFilePath).length)
    { self with file := ⟨self.partialFilePath, true, 0⟩ }
    (min resumeOffset.toNat (d.content self.partialFilePath).length)

def resumed (self : FileWriter B) (d : Disk) (resumeOffset : UInt64) : FileWriter B :=
  { self.forwarded d resumeOffset with
    file := if (d.seek self.partialFilePath resumeOffset.toNat).1 then
      { (self.forwarded d resumeOffset).file with pos := resumeOffset.toNat }
      else (self.forwarded d resumeOffset).file
    bytesWritten := resumeOffset }

theorem openResumed_ok (opened : (d.openReadWrite self.partialFilePath).1 = true)
    (resumeOffset : UInt64) :
    self.openResumed d resumeOffset =
      (true, self.resumed (d.openReadWrite self.partialFilePath).2 resumeOffset,
        ((d.openReadWrite self.partialFilePath).2.seek self.partialFilePath
          resumeOffset.toNat).2) := by
  simp only [openResumed, opened]
  rfl

theorem openResumed_failed (failed : (d.openReadWrite self.partialFilePath).1 = false)
    (resumeOffset : UInt64) :
    ∃ errorString, self.openResumed d resumeOffset =
      (false, { self with file := ⟨self.partialFilePath, false, 0⟩, errorString := errorString },
        (d.openReadWrite self.partialFilePath).2) := by
  simp only [openResumed, failed]
  exact ⟨_, rfl⟩

theorem openFresh_ok {size : UInt64}
    (opened : ((clearStaging d self.partialFilePath size).openReadWrite
      self.partialFilePath).1 = true) :
    self.openFresh d size =
      (true, { self with file := ⟨self.partialFilePath, true, 0⟩, bytesWritten := 0 },
        ((clearStaging d self.partialFilePath size).openReadWrite self.partialFilePath).2) := by
  simp only [openFresh, opened]
  rfl

theorem openFresh_failed {size : UInt64}
    (failed : ((clearStaging d self.partialFilePath size).openReadWrite
      self.partialFilePath).1 = false) :
    ∃ errorString, self.openFresh d size =
      (false, { self with file := ⟨self.partialFilePath, false, 0⟩, errorString := errorString },
        ((clearStaging d self.partialFilePath size).openReadWrite self.partialFilePath).2) := by
  simp only [openFresh, failed]
  exact ⟨_, rfl⟩

end Stage

/-- The outcomes of opening a new writer: no space, a duplicate to be skipped, a staging file
that does not open, or a new staging file. -/
theorem open_new (d : Disk) (baseOutputDir senderDevice relativePath : QString)
    (size : UInt64) (policy : DuplicatePolicy) :
    let result := (new B).open d baseOutputDir senderDevice relativePath size 0 policy
    let room := checkSpace d baseOutputDir size
    let choice := applyPolicy room.2 (targetPath baseOutputDir senderDevice relativePath) policy
    (result.1 = false ∧ result.2.1.file.isOpen = false ∧
      ((room.1 = false ∧ result.2.2 = room.2) ∨
        (room.1 = true ∧ choice.1 = none ∧ result.2.2 = choice.2) ∨
        (room.1 = true ∧ ∃ target, choice.1 = some target ∧
          ((staged choice.2 target size).openReadWrite (target ++ partialSuffix)).1 = false ∧
          result.2.2 =
            ((staged choice.2 target size).openReadWrite (target ++ partialSuffix)).2))) ∨
      (room.1 = true ∧ ∃ target, choice.1 = some target ∧
        ((staged choice.2 target size).openReadWrite (target ++ partialSuffix)).1 = true ∧
        result = (true, staging B target size,
          ((staged choice.2 target size).openReadWrite (target ++ partialSuffix)).2)) := by
  intro result room choice
  rcases (new B).open_cases d baseOutputDir senderDevice relativePath size 0 policy with
    ⟨full, eq⟩ | ⟨space, skipped, eq⟩ | ⟨space, target, chosen, eq⟩
  · rw [show result = _ from eq]
    exact .inl ⟨rfl, rfl, .inl ⟨full, rfl⟩⟩
  · rw [show result = _ from eq]
    exact .inl ⟨rfl, rfl, .inr (.inl ⟨space, skipped, rfl⟩)⟩
  · have fresh : result = openFresh ((new B).aimed target size)
        (choice.2.mkpath (dirPart (target ++ partialSuffix))) size := by
      rw [show result = _ from eq, stage, if_neg]
      rintro ⟨impossible, -⟩
      cases impossible
    cases opened : ((staged choice.2 target size).openReadWrite (target ++ partialSuffix)).1 with
    | false =>
        obtain ⟨errorString, failed⟩ := @openFresh_failed B ((new B).aimed target size) _ size opened
        rw [fresh, failed]
        exact .inl ⟨rfl, rfl, .inr (.inr ⟨space, target, chosen, opened, rfl⟩)⟩
    | true =>
        have ok := @openFresh_ok B ((new B).aimed target size) _ size opened
        rw [fresh, ok]
        exact .inr ⟨space, target, chosen, opened, rfl⟩

def positioned (self : FileWriter B) (d : Disk) (offset : UInt64) : Disk :=
  if self.file.pos ≠ offset.toNat then (d.seek self.file.fileName offset.toNat).2 else d

theorem node_positioned (self : FileWriter B) (d : Disk) (offset : UInt64) (q : QString) :
    (self.positioned d offset).node q = d.node q := by
  unfold positioned
  split
  · exact Disk.node_seek d _ _ q
  · rfl

theorem writeChunk_ok {self : FileWriter B} {d : Disk} {offset : UInt64} {data : QByteArray}
    (h : (self.writeChunk d offset data).1 = true) :
    self.file.isOpen = true ∧
      ((self.positioned d offset).write self.file.fileName offset.toNat data).1 = true ∧
      self.writeChunk d offset data =
        (true,
          { self with
            file := { self.file with pos := offset.toNat + data.length }
            hasher := self.hasher.update data
            bytesWritten := self.bytesWritten + UInt64.ofNat data.length },
          ((self.positioned d offset).write self.file.fileName offset.toNat data).2) := by
  cases opened : self.file.isOpen with
  | false => simp [writeChunk, opened] at h
  | true =>
      by_cases moved : self.file.pos ≠ offset.toNat
      · cases sought : (d.seek self.file.fileName offset.toNat).1 with
        | false => simp [writeChunk, opened, moved, sought] at h
        | true =>
            cases written : ((d.seek self.file.fileName offset.toNat).2.write self.file.fileName
                offset.toNat data).1 with
            | false => simp [writeChunk, opened, moved, sought, written] at h
            | true => simp [writeChunk, positioned, opened, moved, sought, written]
      · cases written : (d.write self.file.fileName offset.toNat data).1 with
        | false => simp [writeChunk, opened, moved, written] at h
        | true => simp [writeChunk, positioned, opened, moved, written]

/-- The checksum passes: none is expected, or the two agree. -/
def Verifies (self : FileWriter B) (expectedBlake3 : QString) : Prop :=
  expectedBlake3 = [] ∨
    QString.equalsIgnoringCase expectedBlake3 self.hasher.finalizeHex.1 = true

theorem finalizeAndCommit_mismatch {self : FileWriter B} {d : Disk} {expectedBlake3 : QString}
    (h : ¬ self.Verifies expectedBlake3) :
    self.finalizeAndCommit d expectedBlake3 =
      (false, { self.finished with
        errorString := checksumMismatch expectedBlake3 self.hasher.finalizeHex.1 }, d) := by
  have guard : expectedBlake3 ≠ [] ∧
      !QString.equalsIgnoringCase expectedBlake3 self.hasher.finalizeHex.1 := by
    simpa [Verifies] using h
  rw [finalizeAndCommit, if_pos (by exact guard)]
  rfl

theorem finalizeAndCommit_verified {self : FileWriter B} {d : Disk} {expectedBlake3 : QString}
    (h : self.Verifies expectedBlake3) :
    ∃ errorString, self.finalizeAndCommit d expectedBlake3 =
      (((self.cleared d).rename self.partialFilePath self.targetFilePath).1,
        { self.finished with errorString := errorString },
        ((self.cleared d).rename self.partialFilePath self.targetFilePath).2) := by
  have guard : ¬ (expectedBlake3 ≠ [] ∧
      !QString.equalsIgnoringCase expectedBlake3 self.hasher.finalizeHex.1) := by
    simpa [Verifies, or_iff_not_imp_left] using h
  rw [finalizeAndCommit, if_neg (by exact guard)]
  change ∃ errorString, commit self.finished d = _
  cases renamed : ((self.cleared d).rename self.partialFilePath self.targetFilePath).1 with
  | false =>
      refine ⟨literal "Failed to commit .partial file to destination path", ?_⟩
      have failed : ((self.finished.cleared d).rename self.finished.partialFilePath
          self.finished.targetFilePath).1 = false := renamed
      simp only [commit, failed]
      rfl
  | true =>
      refine ⟨self.finished.errorString, ?_⟩
      have done : ((self.finished.cleared d).rename self.finished.partialFilePath
          self.finished.targetFilePath).1 = true := renamed
      simp only [commit, done]
      rfl

/-! What the operations come to when the disk does all it is asked to do. -/

theorem succeeded_checkSpace {d : Disk} {baseOutputDir : QString} {size : UInt64}
    (h : (checkSpace d baseOutputDir size).2.AllSucceeded) :
    d.AllSucceeded ∧ (checkSpace d baseOutputDir size).1 = true := by
  unfold checkSpace at h ⊢
  by_cases some : 0 < size
  · rw [if_pos some] at h ⊢
    exact Disk.succeeded_reserve h
  · rw [if_neg some] at h ⊢
    exact ⟨h, rfl⟩

theorem checkSpace_node (d : Disk) (baseOutputDir : QString) (size : UInt64) (q : QString) :
    (checkSpace d baseOutputDir size).2.node q = d.node q := by
  unfold checkSpace
  split <;> rfl

theorem succeeded_applyPolicy {d : Disk} {target : QString} {policy : DuplicatePolicy}
    (h : (applyPolicy d target policy).2.AllSucceeded) : d.AllSucceeded := by
  unfold applyPolicy at h
  split at h
  · cases policy with
    | Replace => exact (Disk.succeeded_remove h).1
    | _ => exact h
  · exact h

theorem applyPolicy_none {d : Disk} {target : QString} {policy : DuplicatePolicy}
    (h : (applyPolicy d target policy).1 = none) :
    policy = .Skip ∧ d.exists target = true := by
  unfold applyPolicy at h
  split at h
  · rename_i taken
    cases policy with
    | Skip => exact ⟨rfl, taken⟩
    | _ => cases h
  · cases h

theorem applyPolicy_free {d : Disk} {target : QString} (absent : d.exists target = false)
    (policy : DuplicatePolicy) : applyPolicy d target policy = (some target, d) := by
  unfold applyPolicy
  rw [absent, if_neg Bool.false_ne_true]

theorem succeeded_clearStaging {d : Disk} {path : QString} {size : UInt64}
    (h : (clearStaging d path size).AllSucceeded) : d.AllSucceeded ∧ d.leftover path = [] := by
  have cleared := Disk.succeeded_preallocateFile h
  split at cleared
  · obtain ⟨before, allowed, -⟩ := Disk.succeeded_remove cleared
    refine ⟨before, ?_⟩
    rw [Disk.leftover, allowed, if_neg Bool.false_ne_true]
  · rename_i absent
    refine ⟨cleared, ?_⟩
    have none : d.node path = none :=
      Option.isNone_iff_eq_none.mp (by simpa [Disk.exists] using absent)
    rw [Disk.leftover, Disk.content, none, ite_self]

theorem succeeded_stage {writer : FileWriter B} {d : Disk} {size resumeOffset : UInt64}
    (h : (writer.stage d size resumeOffset).2.2.AllSucceeded) :
    d.AllSucceeded ∧ (writer.stage d size resumeOffset).1 = true ∧
      (resumeOffset = 0 → d.leftover writer.partialFilePath = []) := by
  unfold stage at h ⊢
  split at h
  · rename_i continues
    have positive : resumeOffset ≠ 0 := by
      rintro rfl
      exact absurd continues.1 (by decide)
    rw [if_pos continues]
    cases opened : (d.openReadWrite writer.partialFilePath).1 with
    | false =>
        obtain ⟨errorString, eq⟩ := openResumed_failed opened resumeOffset
        rw [eq] at h
        have ok := (Disk.succeeded_openReadWrite h).2
        rw [opened] at ok
        cases ok
    | true =>
        rw [openResumed_ok opened] at h ⊢
        have before := (Disk.succeeded_openReadWrite (Disk.succeeded_seek h).1).1
        exact ⟨before, rfl, fun zero => absurd zero positive⟩
  · rename_i fresh
    rw [if_neg fresh]
    cases opened : ((clearStaging d writer.partialFilePath size).openReadWrite
        writer.partialFilePath).1 with
    | false =>
        obtain ⟨errorString, eq⟩ := openFresh_failed opened
        rw [eq] at h
        have ok := (Disk.succeeded_openReadWrite h).2
        rw [opened] at ok
        cases ok
    | true =>
        rw [openFresh_ok opened] at h ⊢
        obtain ⟨before, gone⟩ := succeeded_clearStaging (Disk.succeeded_openReadWrite h).1
        exact ⟨before, rfl, fun _ => gone⟩

theorem succeeded_open {self : FileWriter B} {d : Disk}
    {baseOutputDir senderDevice relativePath : QString} {size resumeOffset : UInt64}
    {policy : DuplicatePolicy}
    (h : (self.open d baseOutputDir senderDevice relativePath size resumeOffset
      policy).2.2.AllSucceeded) :
    d.AllSucceeded ∧
      ((self.open d baseOutputDir senderDevice relativePath size resumeOffset policy).1 = true ∨
        policy = .Skip ∧
          d.exists (targetPath baseOutputDir senderDevice relativePath) = true) := by
  have same : ∀ q, (checkSpace d baseOutputDir size).2.exists q = d.exists q := by
    intro q
    rw [Disk.exists, Disk.exists, checkSpace_node]
  rcases self.open_cases d baseOutputDir senderDevice relativePath size resumeOffset policy with
    ⟨full, eq⟩ | ⟨-, skipped, eq⟩ | ⟨-, target, -, eq⟩
  · rw [eq] at h
    have room := (succeeded_checkSpace h).2
    rw [full] at room
    cases room
  · rw [eq] at h
    obtain ⟨skip, taken⟩ := applyPolicy_none skipped
    rw [same] at taken
    exact ⟨(succeeded_checkSpace (succeeded_applyPolicy h)).1, .inr ⟨skip, taken⟩⟩
  · rw [eq] at h ⊢
    obtain ⟨made, opens, -⟩ := succeeded_stage h
    have chosen := succeeded_applyPolicy (Disk.succeeded_mkpath made)
    exact ⟨(succeeded_checkSpace chosen).1, .inl opens⟩

theorem succeeded_writeChunk {self : FileWriter B} {d : Disk} {offset : UInt64}
    {data : QByteArray} (h : (self.writeChunk d offset data).2.2.AllSucceeded) :
    d.AllSucceeded ∧ (self.file.isOpen = true → (self.writeChunk d offset data).1 = true) := by
  cases opened : self.file.isOpen with
  | false =>
      simp only [writeChunk, opened, Bool.not_false, if_true] at h
      exact ⟨h, nofun⟩
  | true =>
      by_cases moved : self.file.pos ≠ offset.toNat
      · cases sought : (d.seek self.file.fileName offset.toNat).1 with
        | false =>
            simp only [writeChunk, opened, Bool.not_true, Bool.false_eq_true, if_false, if_pos moved,
              sought, Bool.not_false, if_true] at h
            have ok := (Disk.succeeded_seek h).2
            rw [sought] at ok
            cases ok
        | true =>
            have all : ((self.positioned d offset).write self.file.fileName offset.toNat
                data).2.AllSucceeded := by
              rw [positioned, if_pos moved]
              cases written : ((d.seek self.file.fileName offset.toNat).2.write
                  self.file.fileName offset.toNat data).1 <;>
                simpa [writeChunk, opened, if_pos moved, sought, written] using h
            obtain ⟨before, written⟩ := Disk.succeeded_write all
            rw [positioned, if_pos moved] at before written
            refine ⟨(Disk.succeeded_seek before).1, fun _ => ?_⟩
            simp [writeChunk, opened, if_pos moved, sought, written]
      · have all : ((self.positioned d offset).write self.file.fileName offset.toNat
            data).2.AllSucceeded := by
          rw [positioned, if_neg moved]
          cases written : (d.write self.file.fileName offset.toNat data).1 <;>
            simpa [writeChunk, opened, if_neg moved, written] using h
        obtain ⟨before, written⟩ := Disk.succeeded_write all
        rw [positioned, if_neg moved] at before written
        refine ⟨before, fun _ => ?_⟩
        simp [writeChunk, opened, if_neg moved, written]

theorem succeeded_finalizeAndCommit {self : FileWriter B} {d : Disk} {expectedBlake3 : QString}
    (h : (self.finalizeAndCommit d expectedBlake3).2.2.AllSucceeded) :
    d.AllSucceeded ∧
      (self.Verifies expectedBlake3 → (self.finalizeAndCommit d expectedBlake3).1 = true) := by
  by_cases verifies : self.Verifies expectedBlake3
  · obtain ⟨errorString, eq⟩ := finalizeAndCommit_verified (d := d) verifies
    rw [eq] at h ⊢
    obtain ⟨cleared, renamed⟩ := Disk.succeeded_rename h
    refine ⟨?_, fun _ => renamed⟩
    unfold FileWriter.cleared at cleared
    split at cleared
    · exact (Disk.succeeded_remove cleared).1
    · exact cleared
  · rw [finalizeAndCommit_mismatch verifies] at h
    exact ⟨h, fun yes => absurd yes verifies⟩

end FileWriter

end FastTransfer
