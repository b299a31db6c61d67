/- FastTransfer/Core/DataStream
   source: src/core/TransferSession.cpp, src/filesystem/FileReader.cpp
   digest: The packets of a whole transfer, and a sender that has sent the first of them. -/

import FastTransfer.Core.SenderSteps

set_option autoImplicit false
set_option relaxedAutoImplicit false

namespace FastTransfer

open Protocol

/-- How files are cut into chunks, and what is sent at the end of each and of all of them. -/
structure DataStream where
  transferId : QString
  pieces : LocalFileItem → List QByteArray
  sum : LocalFileItem → QString
  complete : QByteArray

/-- A place in the stream. `rest` are the items of the files to come. -/
inductive Cursor
  | between (i : Nat) (rest : List LocalFileItem)
  | sending (i : Nat) (item : LocalFileItem) (k : Nat) (rest : List LocalFileItem)
  | done

namespace Cursor

/-- How many files are not acknowledged, the one that has just ended among them. -/
def unacked : Cursor → Nat
  | between _ rest => rest.length + 1
  | sending _ _ _ rest => rest.length + 1
  | done => 0

def ends : Cursor → Nat
  | between _ rest => rest.length
  | sending _ _ _ rest => rest.length + 1
  | done => 0

end Cursor

namespace DataStream

def startPacket (self : DataStream) (i : Nat) (item : LocalFileItem) : Packet :=
  ⟨.FileStart, 0, serializeFileStart
    ⟨self.transferId, UInt64.ofNat i, item.relativePath, item.fileSize, item.modifiedTime,
      item.blake3Checksum⟩⟩

def chunkPacket (i offset : Nat) (data : QByteArray) : Packet :=
  ⟨.FileDataChunk, 0,
    chunkBytes ⟨UInt64.ofNat i, UInt64.ofNat offset, UInt32.ofNat data.length, data⟩⟩

def chunkPackets (i : Nat) : Nat → List QByteArray → List Packet
  | _, [] => []
  | offset, data :: rest => chunkPacket i offset data :: chunkPackets i (offset + data.length) rest

def endPacket (self : DataStream) (i : Nat) (item : LocalFileItem) : Packet :=
  ⟨.FileEnd, 0, serializeFileEnd ⟨UInt64.ofNat i, self.sum item⟩⟩

def filesFrom (self : DataStream) : Nat → List LocalFileItem → List Packet
  | _, [] => [⟨.TransferComplete, 0, self.complete⟩]
  | i, item :: rest =>
      self.startPacket i item ::
        (chunkPackets i 0 (self.pieces item) ++
          self.endPacket i item :: self.filesFrom (i + 1) rest)

def remaining (self : DataStream) : Cursor → List Packet
  | .between i rest => self.filesFrom i rest
  | .sending i item k rest =>
      chunkPackets i ((self.pieces item).take k).flatten.length ((self.pieces item).drop k) ++
        self.endPacket i item :: self.filesFrom (i + 1) rest
  | .done => []

theorem remaining_chunk (self : DataStream) {i k : Nat} {item : LocalFileItem}
    {rest : List LocalFileItem} (more : k < (self.pieces item).length) :
    self.remaining (.sending i item k rest) =
      chunkPacket i ((self.pieces item).take k).flatten.length ((self.pieces item)[k]) ::
        self.remaining (.sending i item (k + 1) rest) := by
  have grown : ((self.pieces item).take (k + 1)).flatten.length =
      ((self.pieces item).take k).flatten.length + ((self.pieces item)[k]).length := by
    rw [List.take_succ_eq_append_getElem more, List.flatten_append, List.length_append,
      List.flatten_singleton]
  rw [remaining, List.drop_eq_getElem_cons more, chunkPackets, remaining, grown]
  rfl

theorem remaining_end (self : DataStream) {i k : Nat} {item : LocalFileItem}
    {rest : List LocalFileItem} (last : (self.pieces item).length ≤ k) :
    self.remaining (.sending i item k rest) =
      self.endPacket i item :: self.remaining (.between (i + 1) rest) := by
  show chunkPackets i _ ((self.pieces item).drop k) ++ _ = _
  rw [List.drop_of_length_le last]
  rfl

theorem filesFrom_cons (self : DataStream) (i : Nat) (item : LocalFileItem)
    (rest : List LocalFileItem) :
    self.filesFrom i (item :: rest) =
      self.startPacket i item :: self.remaining (.sending i item 0 rest) := rfl

private theorem count_chunkPackets (i offset : Nat) (pieces : List QByteArray) :
    (chunkPackets i offset pieces).countP (fun p => p.type = .FileEnd) = 0 := by
  induction pieces generalizing offset with
  | nil => rfl
  | cons data rest ih =>
      rw [chunkPackets, List.countP_cons_of_neg (by simp [chunkPacket]), ih]

private theorem count_filesFrom (self : DataStream) (i : Nat) (rest : List LocalFileItem) :
    (self.filesFrom i rest).countP (fun p => p.type = .FileEnd) = rest.length := by
  induction rest generalizing i with
  | nil => rfl
  | cons item rest ih =>
      rw [filesFrom, List.countP_cons_of_neg (by simp [startPacket]), List.countP_append,
        count_chunkPackets, List.countP_cons_of_pos (by simp [endPacket]), ih,
        List.length_cons, Nat.zero_add]

theorem count_remaining (self : DataStream) (cursor : Cursor) :
    (self.remaining cursor).countP (fun p => p.type = .FileEnd) = cursor.ends := by
  cases cursor with
  | between i rest => exact self.count_filesFrom i rest
  | sending i item k rest =>
      rw [remaining, List.countP_append, count_chunkPackets,
        List.countP_cons_of_pos (by simp [endPacket]), count_filesFrom, Nat.zero_add, Cursor.ends]
  | done => rfl

theorem filesFrom_congr {a b : DataStream} (i : Nat) {rest : List LocalFileItem}
    (transferId : a.transferId = b.transferId) (complete : a.complete = b.complete)
    (each : ∀ item ∈ rest, a.pieces item = b.pieces item ∧ a.sum item = b.sum item) :
    a.filesFrom i rest = b.filesFrom i rest := by
  induction rest generalizing i with
  | nil => rw [filesFrom, filesFrom, complete]
  | cons item rest ih =>
      obtain ⟨pieces, sum⟩ := each item List.mem_cons_self
      rw [filesFrom, filesFrom, ih (i + 1) fun other mem => each other (.tail item mem), pieces,
        startPacket, startPacket, endPacket, endPacket, transferId, sum]

theorem endPacket_sum {a b : DataStream} {i j : Nat} {item item' : LocalFileItem}
    (same : a.endPacket i item = b.endPacket j item') (left : (a.sum item).length < 2 ^ 30)
    (right : (b.sum item').length < 2 ^ 30) : a.sum item = b.sum item' := by
  have read := congrArg (fun p : Packet => parseFileEnd p.payload) same
  dsimp only [endPacket] at read
  rw [parseFileEnd_serialize left, parseFileEnd_serialize right] at read
  exact congrArg MsgFileEnd.blake3Checksum (Option.some.inj read)

theorem mem_chunkPackets {i offset : Nat} {pieces : List QByteArray} {p : Packet}
    (mem : p ∈ chunkPackets i offset pieces) : p.type = .FileDataChunk := by
  induction pieces generalizing offset with
  | nil => cases mem
  | cons data rest ih =>
      rcases List.mem_cons.mp mem with rfl | later
      · rfl
      · exact ih later

theorem mem_filesFrom {self : DataStream} {i : Nat} {rest : List LocalFileItem} {p : Packet}
    (mem : p ∈ self.filesFrom i rest) (type : p.type = .FileEnd) :
    ∃ j, ∃ item ∈ rest, p = self.endPacket j item := by
  induction rest generalizing i with
  | nil =>
      rw [List.mem_singleton.mp mem] at type
      cases type
  | cons item rest ih =>
      rcases List.mem_cons.mp mem with rfl | mem
      · cases type
      rcases List.mem_append.mp mem with chunk | mem
      · rw [mem_chunkPackets chunk] at type
        cases type
      rcases List.mem_cons.mp mem with rfl | later
      · exact ⟨i, item, List.mem_cons_self, rfl⟩
      · obtain ⟨j, item', mem', eq⟩ := ih later
        exact ⟨j, item', .tail item mem', eq⟩

end DataStream

namespace TransferSession

variable {B : Blake3} {J : QJson}

def content (self : TransferSession B) (item : LocalFileItem) : QByteArray :=
  self.disk.content item.sourceAbsolutePath

def slicesOf (self : TransferSession B) (item : LocalFileItem) : List QByteArray :=
  Slices.slices self.chunkSize.toNat (self.content item)
    (Slices.count self.chunkSize.toNat (self.content item))

def sizeOf (self : TransferSession B) (items : List LocalFileItem) : Nat :=
  (items.map fun item => (self.content item).length).sum

def dataStream (J : QJson) (self : TransferSession B) : DataStream where
  transferId := self.transferId
  pieces := self.slicesOf
  sum item := Blake3Hasher.digest B (self.slicesOf item)
  complete := serializeTransferComplete J
    ⟨self.transferId, UInt64.ofNat (self.sizeOf self.sendManifest.items)⟩

/-- A sender whose connection and source files are all there. -/
structure Supplied (s : TransferSession B) : Prop where
  connected : s.connected = true
  chunkSize : 0 < s.chunkSize
  short : s.sendManifest.items.length < 2 ^ 63
  sources : ∀ item ∈ s.sendManifest.items, FileReader.Readable s.disk item.sourceAbsolutePath

/-- The state of a sender that has sent everything in front of a place. -/
inductive SenderAt (s : TransferSession B) : Cursor → Prop
  | between {rest : List LocalFileItem}
      (inside : s.currentFileIndex.toNat < s.sendManifest.items.length)
      (suffix : s.sendManifest.items.drop (s.currentFileIndex.toNat + 1) = rest)
      (waiting : s.waitingFileAck = true) (found : s.fileReader.isSome = true)
      (total : s.metrics.totalTransferred =
        UInt64.ofNat (s.sizeOf (s.sendManifest.items.take (s.currentFileIndex.toNat + 1)))) :
      SenderAt s (.between (s.currentFileIndex.toNat + 1) rest)
  | sending {item : LocalFileItem} {k : Nat} {rest : List LocalFileItem} {reader : FileReader B}
      (suffix : s.sendManifest.items.drop s.currentFileIndex.toNat = item :: rest)
      (most : k ≤ (s.slicesOf item).length)
      (waiting : s.waitingFileAck = false) (found : s.fileReader = some reader)
      (position : reader.At s.disk item.sourceAbsolutePath k)
      (width : reader.chunkSize = s.chunkSize)
      (total : s.metrics.totalTransferred =
        UInt64.ofNat (s.sizeOf (s.sendManifest.items.take s.currentFileIndex.toNat) +
          min (k * s.chunkSize.toNat) (s.content item).length)) :
      SenderAt s (.sending s.currentFileIndex.toNat item k rest)
  | done (idle : s.waitingFileAck = true ∨ s.fileReader = none) : SenderAt s .done

def Proceeds (stream : DataStream) (packets : List Packet) (unacked : Nat)
    (s t : TransferSession B) : Prop :=
  ∃ sent cursor, t.outbox = s.outbox ++ sent ∧ packets = sent ++ stream.remaining cursor ∧
    SenderAt t cursor ∧ cursor.unacked = unacked

private theorem sources_congr {s t : TransferSession B} (disk : t.disk = s.disk)
    (chunkSize : t.chunkSize = s.chunkSize) :
    t.content = s.content ∧ t.slicesOf = s.slicesOf ∧ t.sizeOf = s.sizeOf := by
  have content : t.content = s.content := by
    funext item
    rw [TransferSession.content, disk]
    rfl
  refine ⟨content, ?_, ?_⟩
  · funext item
    rw [slicesOf, chunkSize, content]
    rfl
  · funext items
    rw [sizeOf, content]
    rfl

theorem dataStream_congr {s t : TransferSession B} (transferId : t.transferId = s.transferId)
    (sendManifest : t.sendManifest = s.sendManifest) (chunkSize : t.chunkSize = s.chunkSize)
    (disk : t.disk = s.disk) : t.dataStream J = s.dataStream J := by
  obtain ⟨-, slices, size⟩ := sources_congr disk chunkSize
  rw [dataStream, transferId, sendManifest, slices, size]
  rfl

theorem Supplied.congr {s t : TransferSession B} (h : Supplied s)
    (connected : t.connected = s.connected) (sendManifest : t.sendManifest = s.sendManifest)
    (chunkSize : t.chunkSize = s.chunkSize) (disk : t.disk = s.disk) : Supplied t where
  connected := connected.trans h.connected
  chunkSize := chunkSize ▸ h.chunkSize
  short := sendManifest ▸ h.short
  sources := by
    rw [sendManifest, disk]
    exact h.sources

theorem SameReceiver.dataStream {s t : TransferSession B} (same : SameReceiver s t) :
    t.dataStream J = s.dataStream J :=
  dataStream_congr same.transferId same.sendManifest same.chunkSize same.disk

theorem SameReceiver.supplied {s t : TransferSession B} (same : SameReceiver s t)
    (h : Supplied s) : Supplied t :=
  h.congr same.connected same.sendManifest same.chunkSize same.disk

theorem SenderAt.congr {s t : TransferSession B} {cursor : Cursor} (h : SenderAt s cursor)
    (sendManifest : t.sendManifest = s.sendManifest)
    (currentFileIndex : t.currentFileIndex = s.currentFileIndex)
    (waitingFileAck : t.waitingFileAck = s.waitingFileAck)
    (fileReader : t.fileReader = s.fileReader) (chunkSize : t.chunkSize = s.chunkSize)
    (totalTransferred : t.metrics.totalTransferred = s.metrics.totalTransferred)
    (disk : t.disk = s.disk) : SenderAt t cursor := by
  obtain ⟨content, slices, size⟩ := sources_congr disk chunkSize
  cases h with
  | between inside suffix waiting found total =>
      rw [← currentFileIndex]
      rw [← currentFileIndex, ← sendManifest] at inside suffix total
      rw [← size, ← totalTransferred] at total
      exact .between inside suffix (waitingFileAck.trans waiting) (fileReader ▸ found) total
  | sending suffix most waiting found position width total =>
      rw [← currentFileIndex]
      rw [← currentFileIndex, ← sendManifest] at suffix total
      rw [← slices] at most
      rw [← disk] at position
      rw [← size, ← totalTransferred, ← chunkSize, ← content] at total
      exact .sending suffix most (waitingFileAck.trans waiting) (fileReader.trans found) position
        (width.trans chunkSize.symm) total
  | done idle =>
      rw [← waitingFileAck, ← fileReader] at idle
      exact .done idle

private theorem SenderAt.of_active {s : TransferSession B} {cursor : Cursor}
    (h : SenderAt s cursor) {reader : FileReader B} (active : Active s reader) :
    ∃ item k rest, cursor = .sending s.currentFileIndex.toNat item k rest ∧
      s.sendManifest.items.drop s.currentFileIndex.toNat = item :: rest ∧
      k ≤ (s.slicesOf item).length ∧ reader.At s.disk item.sourceAbsolutePath k ∧
      reader.chunkSize = s.chunkSize ∧ s.metrics.totalTransferred =
        UInt64.ofNat (s.sizeOf (s.sendManifest.items.take s.currentFileIndex.toNat) +
          min (k * s.chunkSize.toNat) (s.content item).length) := by
  cases h with
  | between inside suffix waiting found total =>
      rw [active.notWaiting] at waiting
      cases waiting
  | @sending item k rest reader' suffix most waiting found position width total =>
      cases Option.some.inj (found.symm.trans active.found)
      exact ⟨item, k, rest, rfl, suffix, most, position, width, total⟩
  | done idle =>
      rcases idle with waiting | none
      · rw [active.notWaiting] at waiting
        cases waiting
      · rw [active.found] at none
        cases none

theorem mem_of_suffix {items rest : List LocalFileItem} {i : Nat} {item : LocalFileItem}
    (suffix : items.drop i = item :: rest) :
    item ∈ items ∧ items.drop (i + 1) = rest ∧ items.take (i + 1) = items.take i ++ [item] ∧
      i < items.length := by
  have inside : i < items.length := by
    by_contra outside
    rw [List.drop_of_length_le (by omega)] at suffix
    cases suffix
  rw [List.drop_eq_getElem_cons inside] at suffix
  obtain ⟨rfl, rfl⟩ := List.cons.inj suffix
  exact ⟨List.getElem_mem inside, rfl, List.take_succ_eq_append_getElem inside, inside⟩

private theorem sizeOf_append (s : TransferSession B) (items : List LocalFileItem)
    (item : LocalFileItem) :
    s.sizeOf (items ++ [item]) = s.sizeOf items + (s.content item).length := by
  simp [sizeOf]

private theorem read_slice {s : TransferSession B} (supplied : Supplied s) {item : LocalFileItem}
    (mem : item ∈ s.sendManifest.items) {reader : FileReader B} {k : Nat}
    (position : reader.At s.disk item.sourceAbsolutePath k) (width : reader.chunkSize = s.chunkSize)
    (ended : reader.isAtEnd = false) :
    k * s.chunkSize.toNat < (s.content item).length ∧
      (reader.readNextChunk s.disk).1 = Slices.slice s.chunkSize.toNat (s.content item) k ∧
      (reader.readNextChunk s.disk).2.chunkSize = s.chunkSize ∧
      (reader.readNextChunk s.disk).2.At s.disk item.sourceAbsolutePath (k + 1) := by
  have inside := position.ahead ended
  obtain ⟨data, same, next⟩ := FileReader.readNextChunk_at (supplied.sources item mem) position
    inside
  rw [width] at inside data same
  exact ⟨inside, data, same, next⟩

private theorem sent_length (s : TransferSession B) {item : LocalFileItem} {k : Nat}
    (most : k ≤ (s.slicesOf item).length) :
    ((s.slicesOf item).take k).flatten.length =
      min (k * s.chunkSize.toNat) (s.content item).length := by
  rw [slicesOf, Slices.slices_length] at most
  rw [slicesOf, Slices.take_slices _ _ most, Slices.slices_flatten, List.length_take]

theorem SenderAt.nextChunk {s t : TransferSession B} {cursor : Cursor} (supplied : Supplied s)
    (h : SenderAt s cursor) (next : NextChunk s t) :
    Proceeds (s.dataStream J) ((s.dataStream J).remaining cursor) cursor.unacked s t ∧
      t.status = s.status := by
  have positive : 0 < s.chunkSize.toNat := UInt32.lt_iff_toNat_lt.mp supplied.chunkSize
  cases next with
  | idle => exact ⟨⟨[], cursor, (List.append_nil _).symm, rfl, h, rfl⟩, rfl⟩
  | fileEnd reader active ended =>
      obtain ⟨item, k, rest, rfl, suffix, most, position, width, total⟩ := h.of_active active
      obtain ⟨mem, behind, upTo, inside⟩ := mem_of_suffix suffix
      have past := (FileReader.isAtEnd_iff position).mp ended
      rw [width] at past
      have last : (s.slicesOf item).length ≤ k := by
        rw [slicesOf, Slices.slices_length]
        exact Nat.le_of_not_lt ((Slices.lt_count positive).not.mpr (Nat.not_lt.mpr past))
      have all : k = (s.slicesOf item).length := Nat.le_antisymm most last
      have sum : reader.finalizeBlake3.1 = Blake3Hasher.digest B (s.slicesOf item) := by
        rw [FileReader.finalizeBlake3, position.hasher, width, all, slicesOf,
          Slices.slices_length]
        rfl
      refine ⟨⟨[_], .between (s.currentFileIndex.toNat + 1) rest,
        sendPacket_outbox supplied.connected _ _, ?_, ?_, rfl⟩, rfl⟩
      · rw [DataStream.remaining_end _ last, List.singleton_append, sum, DataStream.endPacket,
          UInt64.ofNat_toNat]
        rfl
      · refine .between inside behind rfl rfl ?_
        have full : min (k * s.chunkSize.toNat) (s.content item).length =
            (s.content item).length := Nat.min_eq_right past
        rw [full] at total
        have counted := s.sizeOf_append (s.sendManifest.items.take s.currentFileIndex.toNat) item
        rw [← upTo] at counted
        exact total.trans (congrArg UInt64.ofNat counted.symm)
  | readFailed reader active ended empty =>
      obtain ⟨item, k, rest, rfl, suffix, most, position, width, total⟩ := h.of_active active
      obtain ⟨inside, data, -, -⟩ := read_slice supplied (mem_of_suffix suffix).1 position width
        ended
      exact absurd (data.symm.trans empty) (Slices.slice_ne_nil positive inside)
  | sendFailed reader active lost =>
      rw [supplied.connected] at lost
      cases lost
  | chunk reader active ended nonempty online payload written =>
      obtain ⟨item, k, rest, rfl, suffix, most, position, width, total⟩ := h.of_active active
      obtain ⟨inside, data, width', position'⟩ := read_slice supplied (mem_of_suffix suffix).1
        position width ended
      have length := Slices.slice_length s.chunkSize.toNat (s.content item) k
      have bound := s.chunkSize.toNat_lt
      rw [data] at written ⊢
      obtain ⟨-, rfl⟩ := serializeFileDataChunk_some (by dsimp only; omega) written
      have more : k < (s.slicesOf item).length := by
        rw [slicesOf, Slices.slices_length]
        exact (Slices.lt_count positive).mpr inside
      have offset : UInt64.ofNat ((s.slicesOf item).take k).flatten.length =
          reader.currentOffset := by
        have current := position.currentOffset
        rw [width] at current
        rw [sent_length s most, ← UInt64.ofNat_toNat (x := reader.currentOffset), current]
        rfl
      have piece : (s.slicesOf item)[k] = Slices.slice s.chunkSize.toNat (s.content item) k :=
        Slices.getElem_slices _ _ more
      refine ⟨⟨[_], .sending s.currentFileIndex.toNat item (k + 1) rest,
        sendPacket_outbox (s := s.afterRead reader) online _ _, ?_, ?_, rfl⟩, rfl⟩
      · refine (DataStream.remaining_chunk (s.dataStream J) more).trans ?_
        show DataStream.chunkPacket _ ((s.slicesOf item).take k).flatten.length
          (s.slicesOf item)[k] :: _ = _
        rw [piece, DataStream.chunkPacket, offset, UInt64.ofNat_toNat]
        rfl
      · refine .sending suffix more active.notWaiting rfl position' width' ?_
        have counted : min (k * s.chunkSize.toNat) (s.content item).length +
            (Slices.slice s.chunkSize.toNat (s.content item) k).length =
              min ((k + 1) * s.chunkSize.toNat) (s.content item).length := by
          rw [length, Nat.succ_mul]
          omega
        show s.metrics.totalTransferred + UInt64.ofNat _ = UInt64.ofNat
          (s.sizeOf (s.sendManifest.items.take s.currentFileIndex.toNat) +
            min ((k + 1) * s.chunkSize.toNat) (s.content item).length)
        rw [total, ← UInt64.ofNat_add, Nat.add_assoc, counted]

theorem SenderAt.startFile {s t : TransferSession B} {fileIndex : UInt64} (supplied : Supplied s)
    (total : s.metrics.totalTransferred =
      UInt64.ofNat (s.sizeOf (s.sendManifest.items.take fileIndex.toNat)))
    (idle : s.waitingFileAck = true ∨ s.fileReader = none)
    (start : StartFile J s fileIndex 0 t) :
    Proceeds (s.dataStream J) ((s.dataStream J).remaining
        (.between fileIndex.toNat (s.sendManifest.items.drop fileIndex.toNat)))
        (s.sendManifest.items.drop fileIndex.toNat).length s t ∧
      (t.status = s.status ∧ fileIndex.toNat < s.sendManifest.items.length ∨
        t.status = .Completed ∧ s.sendManifest.items.length ≤ fileIndex.toNat) := by
  cases start with
  | finished done =>
      rw [List.take_of_length_le done] at total
      rw [List.drop_of_length_le done]
      refine ⟨⟨[_], .done, sendPacket_outbox supplied.connected _ _, ?_, .done idle, rfl⟩,
        .inr ⟨rfl, done⟩⟩
      rw [total]
      rfl
  | unopened item found closed =>
      have opened := (FileReader.open_at (B := B)
        (supplied.sources item (List.mem_of_getElem? found)) supplied.chunkSize (.inl rfl)).1
      rw [closed] at opened
      cases opened
  | started item found opened next sent =>
      obtain ⟨inside, rfl⟩ := List.getElem?_eq_some_iff.mp found
      obtain ⟨-, width, position⟩ := FileReader.open_at (B := B)
        (supplied.sources _ (List.getElem_mem inside)) supplied.chunkSize (.inl rfl)
      have same : SameReceiver s (s.started fileIndex 0 s.sendManifest.items[fileIndex.toNat]) := by
        constructor <;> rfl
      have placed : SenderAt (s.started fileIndex 0 s.sendManifest.items[fileIndex.toNat])
          (.sending fileIndex.toNat s.sendManifest.items[fileIndex.toNat] 0
            (s.sendManifest.items.drop (fileIndex.toNat + 1))) := by
        refine .sending (List.drop_eq_getElem_cons inside) (Nat.zero_le _) rfl rfl position width ?_
        rw [Nat.zero_mul, Nat.zero_min, Nat.add_zero]
        exact total
      have announced : (s.started fileIndex 0 s.sendManifest.items[fileIndex.toNat]).outbox =
          s.outbox ++
            [(s.dataStream J).startPacket fileIndex.toNat
              s.sendManifest.items[fileIndex.toNat]] := by
        rw [DataStream.startPacket, UInt64.ofNat_toNat]
        exact sendPacket_outbox supplied.connected _ _
      obtain ⟨⟨packets, cursor, outbox, left, reached, unacked⟩, status⟩ :=
        placed.nextChunk (J := J) (same.supplied supplied) sent
      rw [same.dataStream] at left
      refine ⟨⟨(s.dataStream J).startPacket fileIndex.toNat s.sendManifest.items[fileIndex.toNat] ::
        packets, cursor, ?_, ?_, reached, ?_⟩, .inl ⟨status, inside⟩⟩
      · rw [outbox, announced, List.append_assoc, List.singleton_append]
      · rw [List.drop_eq_getElem_cons inside, List.cons_append, ← left]
        rfl
      · rw [unacked, List.drop_eq_getElem_cons inside]
        rfl

end TransferSession

end FastTransfer
