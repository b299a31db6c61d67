/- FastTransfer/Filesystem/FileReader
   source: src/filesystem/FileReader.h, src/filesystem/FileReader.cpp
   digest: The chunked reader with its incremental hash. -/

import FastTransfer.Filesystem.Disk
import FastTransfer.Integrity.Blake3Hasher
import FastTransfer.Library.Slices
import Mathlib.Tactic.MkIffOfInductiveProp

set_option autoImplicit false
set_option relaxedAutoImplicit false

namespace FastTransfer

open QString (literal)

namespace Disk

theorem read_slice {d : Disk} {path : QString} {content : QByteArray}
    (found : d.node path = some (.file content)) (reads : d.refused (.read path) = false)
    (n width k : Nat) :
    d.read path (min (k * width) n) (min (n - k * width) width) =
      Slices.slice width (content.take n) k := by
  have whole : d.read path (min (k * width) n) (min (n - k * width) width) =
      (content.drop (min (k * width) n)).take (min (n - k * width) width) := by
    rw [read, reads, if_neg Bool.false_ne_true, found]
  rw [whole, Slices.slice, List.drop_take, List.take_take]
  by_cases inside : k * width ≤ n
  · rw [Nat.min_eq_left inside, Nat.min_comm]
  · rw [show n - k * width = 0 by omega, Nat.zero_min, Nat.min_zero, List.take_zero, List.take_zero]

end Disk

structure QFile where
  fileName : QString := []
  isOpen : Bool := false
  pos : Nat := 0

structure FileReader (B : Blake3) where
  file : QFile
  chunkSize : UInt32
  fileSize : UInt64
  currentOffset : UInt64
  hasher : Blake3Hasher B
  errorString : QString

namespace FileReader

variable {B : Blake3}

def new (B : Blake3) (chunkSize : UInt32) : FileReader B :=
  ⟨{}, if 0 < chunkSize then chunkSize else 8 * 1024 * 1024, 0, 0, .reset B, []⟩

def close (self : FileReader B) : FileReader B :=
  { self with file := { self.file with isOpen := false }, fileSize := 0, currentOffset := 0 }

def isOpen (self : FileReader B) : Bool := self.file.isOpen

def isAtEnd (self : FileReader B) : Bool := !self.file.isOpen || self.fileSize ≤ self.currentOffset

def kFastBufferSize : Nat := 4 * 1024 * 1024

/-- Hash the bytes before the start offset; `none` if a read gives nothing. Every iteration
reads at least one byte, so `remaining` iterations are enough. -/
def fastForward (d : Disk) : Nat → FileReader B → Nat → Option (FileReader B)
  | 0, self, _ => some self
  | fuel + 1, self, remaining =>
      if remaining = 0 then some self
      else
        let data := d.read self.file.fileName self.file.pos (min remaining kFastBufferSize)
        if data = [] then none
        else fastForward d fuel
          { self with
            file := { self.file with pos := self.file.pos + data.length }
            hasher := self.hasher.update data }
          (remaining - data.length)

def «open» (self : FileReader B) (d : Disk) (filePath : QString) (startOffset : UInt64) :
    Bool × FileReader B :=
  let self := close self
  match d.openReadOnly filePath with
  | none =>
      (false, { self with
        file := { self.file with fileName := filePath }
        errorString := d.errorString (.openReadOnly filePath) })
  | some content =>
      let self : FileReader B :=
        { self with
          file := ⟨filePath, true, 0⟩
          fileSize := UInt64.ofNat content.length
          hasher := .reset B
          currentOffset := 0 }
      if 0 < startOffset ∧ startOffset ≤ self.fileSize then
        match fastForward d startOffset.toNat self startOffset.toNat with
        | none =>
            (false, close { self with
              errorString := literal "Failed to seek file for resume hashing" })
        | some self => (true, { self with currentOffset := startOffset })
      else (true, self)

def readNextChunk (self : FileReader B) (d : Disk) : QByteArray × FileReader B :=
  if !self.isOpen || self.isAtEnd then ([], self)
  else
    let remaining := self.fileSize - self.currentOffset
    let toRead := (min remaining self.chunkSize.toUInt64).toUInt32
    let chunk := d.read self.file.fileName self.file.pos toRead.toNat
    if chunk = [] then
      ([], { self with errorString := d.errorString (.read self.file.fileName) })
    else
      (chunk, { self with
        file := { self.file with pos := self.file.pos + chunk.length }
        hasher := self.hasher.update chunk
        currentOffset := self.currentOffset + UInt64.ofNat chunk.length })

/-- `finalizeBlake3()`: the digest, and the reader afterwards. -/
def finalizeBlake3 (self : FileReader B) : QString × FileReader B :=
  (self.hasher.finalizeHex.1, { self with hasher := self.hasher.finalizeHex.2 })

/-! The part of a file that is hashed before the first chunk. -/

def frontPieces (front : QByteArray) : List QByteArray :=
  Slices.slices kFastBufferSize front (Slices.count kFastBufferSize front)

theorem frontPieces_flatten (front : QByteArray) : (frontPieces front).flatten = front :=
  Slices.flatten_count front (by decide)

theorem frontPieces_nil : frontPieces [] = [] := by decide

/-- A loop that hashes a front of a file reads it in slices, up to its end. `run` takes the place
in the file, the hasher and how much remains. -/
theorem hash_front {d : Disk} {path : QString} {content : QByteArray} {n : Nat}
    (found : d.node path = some (.file content)) (reads : d.refused (.read path) = false)
    (within : n ≤ content.length) {β : Type} (run : Nat → Nat × Blake3Hasher B → Nat → β)
    (finish : Nat × Blake3Hasher B → β) (stop : ∀ fuel s, run fuel s 0 = finish s)
    (turn : ∀ fuel pos hasher remaining data, remaining ≠ 0 →
      d.read path pos (min remaining kFastBufferSize) = data → data ≠ [] →
      run (fuel + 1) (pos, hasher) remaining =
        run fuel (pos + data.length, hasher.update data) (remaining - data.length)) :
    run n (0, .reset B) n = finish (n, .fed B (frontPieces (content.take n))) := by
  have length : (content.take n).length = n := List.length_take_of_le within
  obtain ⟨width, buffer⟩ : ∃ width, width = kFastBufferSize := ⟨_, rfl⟩
  have positive : 0 < width := buffer ▸ by decide
  -- behind `k` slices
  let At (k : Nat) (s : Nat × Blake3Hasher B) : Prop :=
    s = (min (k * width) n, .fed B (Slices.slices width (content.take n) k))
  have slice : ∀ fuel k s, At k s → k * width < (content.take n).length → ∃ t, At (k + 1) t ∧
      run (fuel + 1) s ((content.take n).length - k * width) =
        run fuel t ((content.take n).length - (k + 1) * width) := by
    rintro fuel k s rfl inside
    have read := Disk.read_slice found reads n width k
    have size := Slices.slice_length width (content.take n) k
    have next := Nat.add_one_mul k width
    rw [length] at inside size ⊢
    rw [← buffer] at turn
    have some := List.ne_nil_of_length_pos (show
      0 < (Slices.slice width (content.take n) k).length by omega)
    refine ⟨_, rfl, ?_⟩
    rw [turn fuel _ _ _ _ (by omega) read some, size, Slices.slices_succ, Blake3Hasher.fed_append,
      show n - k * width - min width (n - k * width) = n - (k + 1) * width by omega,
      show min (k * width) n + min width (n - k * width) = min ((k + 1) * width) n by omega]
  have start : At 0 (0, .reset B) := by
    show ((0, .reset B) : Nat × Blake3Hasher B) = (min (0 * width) n, .reset B)
    rw [Nat.zero_mul, Nat.zero_min]
  obtain ⟨t, rfl, eq⟩ := Slices.loop_slices positive stop slice start (Nat.le_of_eq length)
  have last := (Slices.lt_count (l := content.take n) positive).not.mp (Nat.lt_irrefl _)
  rw [length] at eq last
  rw [eq, frontPieces, ← buffer, Nat.min_eq_right (by omega)]

private theorem fastForward_front {d : Disk} {path : QString} {content : QByteArray} {n : Nat}
    (found : d.node path = some (.file content)) (reads : d.refused (.read path) = false)
    (within : n ≤ content.length) {reader : FileReader B} (fileName : reader.file.fileName = path)
    (pos : reader.file.pos = 0) (hasher : reader.hasher = .reset B) :
    fastForward d n reader n = some { reader with
      file := { reader.file with pos := n }
      hasher := .fed B (frontPieces (content.take n)) } := by
  let at' (s : Nat × Blake3Hasher B) : FileReader B :=
    { reader with file := { reader.file with pos := s.1 }, hasher := s.2 }
  have start : reader = at' (0, .reset B) := by
    show reader = { reader with file := { reader.file with pos := 0 }, hasher := .reset B }
    rw [← pos, ← hasher]
  have front := hash_front found reads within (fun fuel s => fastForward d fuel (at' s))
    fun s => some (at' s)
  rw [start]
  refine front (fun fuel s => ?_) fun fuel pos hasher remaining data more read some => ?_
  · cases fuel with
    | zero => rfl
    | succ fuel =>
        rw [fastForward]
        exact if_pos rfl
  · show fastForward d (fuel + 1) (at' (pos, hasher)) remaining = _
    rw [fastForward, if_neg more, show (at' (pos, hasher)).file.fileName = path from fileName, read]
    exact if_neg some

/-! A source that can be read, and a reader on it. -/

/-- A source file that opens and reads, of a size within `qint64`. -/
@[mk_iff] structure Readable (d : Disk) (path : QString) : Prop where
  found : d.node path = some (.file (d.content path))
  opens : d.refused (.openReadOnly path) = false
  reads : d.refused (.read path) = false
  length : (d.content path).length < 2 ^ 63

instance (d : Disk) (path : QString) : Decidable (Readable d path) :=
  decidable_of_iff _ (readable_iff d path).symm

/-- The reader is open behind `k` chunks of the file, which it has hashed. -/
structure At (reader : FileReader B) (d : Disk) (path : QString) (k : Nat) : Prop where
  fileName : reader.file.fileName = path
  isOpen : reader.file.isOpen = true
  chunkSize : 0 < reader.chunkSize.toNat
  fileSize : reader.fileSize.toNat = (d.content path).length
  pos : reader.file.pos = min (k * reader.chunkSize.toNat) (d.content path).length
  currentOffset : reader.currentOffset.toNat =
    min (k * reader.chunkSize.toNat) (d.content path).length
  hasher : reader.hasher = .fed B (Slices.slices reader.chunkSize.toNat (d.content path) k)

private theorem toNat_ofNat {n : Nat} (h : n < 2 ^ 63) : (UInt64.ofNat n).toNat = n :=
  UInt64.toNat_ofNat_of_lt' (by rw [UInt64.size]; omega)

theorem open_at {d : Disk} {path : QString} (h : Readable d path) {chunkSize : UInt32}
    (positive : 0 < chunkSize) {startOffset : UInt64}
    (start : startOffset = 0 ∨ (d.content path).length < startOffset.toNat) :
    ((new B chunkSize).open d path startOffset).1 = true ∧
      ((new B chunkSize).open d path startOffset).2.chunkSize = chunkSize ∧
      At ((new B chunkSize).open d path startOffset).2 d path 0 := by
  have size := toNat_ofNat h.length
  have content : d.openReadOnly path = some (d.content path) := by
    rw [Disk.openReadOnly, if_neg (by rw [h.opens]; decide), h.found]
  have skip : ¬ (0 < startOffset ∧ startOffset ≤ UInt64.ofNat (d.content path).length) := by
    rw [UInt64.lt_iff_toNat_lt, UInt64.le_iff_toNat_le, size]
    rcases start with rfl | beyond
    · exact fun both => absurd both.1 (by decide)
    · omega
  have eq : (new B chunkSize).open d path startOffset =
      (true, ⟨⟨path, true, 0⟩, chunkSize, UInt64.ofNat (d.content path).length, 0, .reset B,
        []⟩) := by
    simp only [«open», content, if_neg skip, new, close, if_pos positive]
  rw [eq]
  exact ⟨rfl, rfl, rfl, rfl, positive, size, by simp, by simp, rfl⟩

theorem readNextChunk_length (reader : FileReader B) (d : Disk) :
    (reader.readNextChunk d).1.length < 2 ^ 32 := by
  have read : ∀ path pos maxSize, (d.read path pos maxSize).length ≤ maxSize := by
    intro path pos maxSize
    unfold Disk.read
    split
    · exact Nat.zero_le _
    split
    · exact List.length_take_le _ _
    · exact Nat.zero_le _
  unfold readNextChunk
  split
  · exact Nat.two_pow_pos 32
  dsimp only
  split
  · exact Nat.two_pow_pos 32
  · exact Nat.lt_of_le_of_lt (read ..) (UInt32.toNat_lt _)

private theorem toRead_toNat {fileSize currentOffset : UInt64} {chunkSize : UInt32}
    (h : currentOffset.toNat ≤ fileSize.toNat) :
    (min (fileSize - currentOffset) chunkSize.toUInt64).toUInt32.toNat =
      min chunkSize.toNat (fileSize.toNat - currentOffset.toNat) := by
  have left : (fileSize - currentOffset).toNat = fileSize.toNat - currentOffset.toNat :=
    UInt64.toNat_sub_of_le _ _ (UInt64.le_iff_toNat_le.mpr h)
  have bound := chunkSize.toNat_lt
  have right : chunkSize.toUInt64.toNat = chunkSize.toNat := UInt32.toNat_toUInt64 chunkSize
  rw [UInt64.toNat_toUInt32]
  by_cases le : fileSize - currentOffset ≤ chunkSize.toUInt64
  · have le' := UInt64.le_iff_toNat_le.mp le
    have least : min (fileSize - currentOffset) chunkSize.toUInt64 = fileSize - currentOffset :=
      if_pos le
    rw [least, left]
    omega
  · have le' := UInt64.le_iff_toNat_le.not.mp le
    have least : min (fileSize - currentOffset) chunkSize.toUInt64 = chunkSize.toUInt64 :=
      if_neg le
    rw [least, right]
    omega

structure Reading (reader : FileReader B) (d : Disk) (path : QString) (place : Nat) : Prop where
  fileName : reader.file.fileName = path
  isOpen : reader.file.isOpen = true
  chunkSize : 0 < reader.chunkSize.toNat
  fileSize : reader.fileSize.toNat = (d.content path).length
  pos : reader.file.pos = place
  currentOffset : reader.currentOffset.toNat = place

theorem Reading.isAtEnd_iff {reader : FileReader B} {d : Disk} {path : QString} {place : Nat}
    (h : Reading reader d path place) :
    reader.isAtEnd = true ↔ (d.content path).length ≤ place := by
  simp only [isAtEnd, h.isOpen, Bool.not_true, Bool.false_or, decide_eq_true_eq,
    UInt64.le_iff_toNat_le, h.fileSize, h.currentOffset]

theorem isOpen_of_not_atEnd {reader : FileReader B} (ended : reader.isAtEnd = false) :
    reader.file.isOpen = true := by
  by_contra shut
  simp [isAtEnd, shut] at ended

theorem Reading.ahead {reader : FileReader B} {d : Disk} {path : QString} {place : Nat}
    (h : Reading reader d path place) (ended : reader.isAtEnd = false) :
    place < (d.content path).length := by
  apply Nat.lt_of_not_le
  intro behind
  rw [h.isAtEnd_iff.mpr behind] at ended
  cases ended

/-- A read before the end gives what comes next and moves the reader behind it. -/
theorem Reading.next {reader : FileReader B} {d : Disk} {path : QString} {place : Nat}
    (h : Reading reader d path place) (readable : Readable d path)
    (inside : place < (d.content path).length) :
    let chunk := ((d.content path).drop place).take reader.chunkSize.toNat
    (reader.readNextChunk d).1 = chunk ∧
      (reader.readNextChunk d).2.chunkSize = reader.chunkSize ∧
      (reader.readNextChunk d).2.hasher = reader.hasher.update chunk ∧
      Reading (reader.readNextChunk d).2 d path (place + chunk.length) := by
  intro chunk
  have ahead : reader.isAtEnd = false := by
    rw [← Bool.not_eq_true, h.isAtEnd_iff]
    omega
  have data : d.read reader.file.fileName reader.file.pos
      (min (reader.fileSize - reader.currentOffset) reader.chunkSize.toUInt64).toUInt32.toNat =
        chunk := by
    rw [toRead_toNat (by rw [h.currentOffset, h.fileSize]; omega), h.fileName, h.pos, h.fileSize,
      h.currentOffset]
    simp only [Disk.read, readable.reads, Bool.false_eq_true, if_false, readable.found]
    rw [List.take_eq_take_iff, List.length_drop]
    omega
  have length : chunk.length = min reader.chunkSize.toNat ((d.content path).length - place) := by
    rw [List.length_take, List.length_drop]
  have nonempty : chunk ≠ [] := by
    have := h.chunkSize
    apply List.ne_nil_of_length_pos
    omega
  have eq : reader.readNextChunk d = (chunk, { reader with
      file := { reader.file with pos := reader.file.pos + chunk.length }
      hasher := reader.hasher.update chunk
      currentOffset := reader.currentOffset + UInt64.ofNat chunk.length }) := by
    simp only [readNextChunk, FileReader.isOpen, h.isOpen, ahead, Bool.not_true, Bool.or_self,
      Bool.false_eq_true, if_false, data, if_neg nonempty]
  have bound := readable.length
  have added := toNat_ofNat (show chunk.length < 2 ^ 63 by omega)
  rw [eq]
  refine ⟨rfl, rfl, rfl, h.fileName, h.isOpen, h.chunkSize, h.fileSize, ?_, ?_⟩
  · dsimp only
    rw [h.pos]
  · dsimp only
    rw [UInt64.toNat_add, added, h.currentOffset]
    omega

theorem At.reading {reader : FileReader B} {d : Disk} {path : QString} {k : Nat}
    (h : At reader d path k) :
    Reading reader d path (min (k * reader.chunkSize.toNat) (d.content path).length) :=
  ⟨h.fileName, h.isOpen, h.chunkSize, h.fileSize, h.pos, h.currentOffset⟩

theorem isAtEnd_iff {reader : FileReader B} {d : Disk} {path : QString} {k : Nat}
    (h : At reader d path k) :
    reader.isAtEnd = true ↔ (d.content path).length ≤ k * reader.chunkSize.toNat := by
  rw [h.reading.isAtEnd_iff]
  omega

theorem At.ahead {reader : FileReader B} {d : Disk} {path : QString} {k : Nat}
    (h : At reader d path k) (ended : reader.isAtEnd = false) :
    k * reader.chunkSize.toNat < (d.content path).length := by
  have := h.reading.ahead ended
  omega

theorem readNextChunk_at {reader : FileReader B} {d : Disk} {path : QString} {k : Nat}
    (readable : Readable d path) (h : At reader d path k)
    (inside : k * reader.chunkSize.toNat < (d.content path).length) :
    (reader.readNextChunk d).1 = Slices.slice reader.chunkSize.toNat (d.content path) k ∧
      (reader.readNextChunk d).2.chunkSize = reader.chunkSize ∧
      At (reader.readNextChunk d).2 d path (k + 1) := by
  obtain ⟨chunk, size, hasher, next⟩ := h.reading.next readable (by omega)
  rw [Nat.min_eq_left (Nat.le_of_lt inside)] at chunk hasher next
  change _ = Slices.slice reader.chunkSize.toNat (d.content path) k at chunk
  change _ = reader.hasher.update (Slices.slice reader.chunkSize.toNat (d.content path) k) at hasher
  have length := Slices.slice_length reader.chunkSize.toNat (d.content path) k
  have behind : k * reader.chunkSize.toNat +
      (Slices.slice reader.chunkSize.toNat (d.content path) k).length =
        min ((k + 1) * reader.chunkSize.toNat) (d.content path).length := by
    rw [Nat.add_one_mul]
    omega
  change Reading _ _ _ (k * reader.chunkSize.toNat +
    (Slices.slice reader.chunkSize.toNat (d.content path) k).length) at next
  rw [behind, ← size] at next
  refine ⟨chunk, size, next.fileName, next.isOpen, next.chunkSize, next.fileSize, next.pos,
    next.currentOffset, ?_⟩
  rw [hasher, h.hasher, size, Slices.slices_succ, Blake3Hasher.fed_append]

theorem open_reading {d : Disk} {path : QString} (h : Readable d path) {chunkSize : UInt32}
    (positive : 0 < chunkSize) {startOffset : UInt64}
    (start : startOffset.toNat ≤ (d.content path).length) :
    ((new B chunkSize).open d path startOffset).1 = true ∧
      Reading ((new B chunkSize).open d path startOffset).2 d path startOffset.toNat ∧
      ((new B chunkSize).open d path startOffset).2.hasher =
        .fed B (frontPieces ((d.content path).take startOffset.toNat)) := by
  by_cases zero : startOffset = 0
  · obtain ⟨opens, -, first⟩ := open_at (B := B) h positive (.inl zero)
    have reading := first.reading
    rw [Nat.zero_mul, Nat.zero_min] at reading
    rw [zero] at opens reading first ⊢
    refine ⟨opens, reading, ?_⟩
    rw [UInt64.toNat_zero, List.take_zero, frontPieces_nil]
    exact first.hasher
  · have size := toNat_ofNat h.length
    have content : d.openReadOnly path = some (d.content path) := by
      rw [Disk.openReadOnly, if_neg (by rw [h.opens]; decide), h.found]
    have seeks : 0 < startOffset ∧ startOffset ≤ UInt64.ofNat (d.content path).length := by
      rw [UInt64.lt_iff_toNat_lt, UInt64.le_iff_toNat_le, size]
      have := UInt64.toNat_inj.not.mpr zero
      exact ⟨Nat.pos_of_ne_zero this, start⟩
    let reader : FileReader B :=
      ⟨⟨path, true, 0⟩, chunkSize, UInt64.ofNat (d.content path).length, 0, .reset B, []⟩
    have hashed := @fastForward_front B d path _ _ h.found h.reads start reader rfl rfl rfl
    have eq : (new B chunkSize).open d path startOffset = (true, { reader with
        file := ⟨path, true, startOffset.toNat⟩
        hasher := .fed B (frontPieces ((d.content path).take startOffset.toNat))
        currentOffset := startOffset }) := by
      simp only [«open», content, new, close, if_pos positive]
      rw [if_pos seeks, hashed]
    rw [eq]
    exact ⟨rfl, ⟨rfl, rfl, positive, size, rfl, rfl⟩, rfl⟩

end FileReader

end FastTransfer
