/- FastTransfer/Core/Delivery
   source: src/core/TransferSession.cpp, src/filesystem/FileWriter.cpp
   digest: What the receiver has stored of the files that the sender streams to it. -/

import FastTransfer.Core.Confinement
import FastTransfer.Core.DataStream
import FastTransfer.Core.LinkSteps
import FastTransfer.Filesystem.Staging

set_option autoImplicit false
set_option relaxedAutoImplicit false

namespace FastTransfer

open Protocol PlatformFilesystem
open FileWriter (partialSuffix resolveUniqueName)

structure Delivery where
  stream : DataStream
  items : List LocalFileItem
  folder : QString
  base : Disk

namespace Delivery

variable {B : Blake3} {J : QJson}

def content (self : Delivery) (item : LocalFileItem) : QByteArray :=
  (self.stream.pieces item).flatten

def target (self : Delivery) (item : LocalFileItem) : QString :=
  filePath self.folder item.relativePath

/-- The files have the sizes that are announced, and paths that sanitising keeps. -/
structure Listed (D : Delivery) (B : Blake3) : Prop where
  folder : Folder D.folder
  size : ∀ item ∈ D.items, item.fileSize.toNat = (D.content item).length
  bound : ∀ item ∈ D.items, (D.content item).length < 2 ^ 63
  nonempty : ∀ item ∈ D.items, item.relativePath ≠ []
  fixed : ∀ item ∈ D.items, sanitizePath item.relativePath = item.relativePath
  sum : ∀ item ∈ D.items,
    D.stream.sum item = Blake3Hasher.digest B (D.stream.pieces item)

/-- One file at most, with nothing on the disk where it is to go and be staged. -/
structure Vacant (D : Delivery) : Prop where
  single : D.items.length ≤ 1
  free : ∀ item ∈ D.items, D.base.node (D.target item) = none
  clear : ∀ item ∈ D.items, D.base.node (D.target item ++ partialSuffix) = none

def announced (self : Delivery) (i : Nat) (item : LocalFileItem) : MsgFileStart :=
  ⟨self.stream.transferId, UInt64.ofNat i, item.relativePath, item.fileSize, item.modifiedTime,
    item.blake3Checksum⟩

def GoodAck (self : Delivery) (p : Packet) : Prop :=
  ∃ ack item, item ∈ self.items ∧ p = ⟨.FileAck, 0, serializeFileAck ack⟩ ∧
    ack.statusCode = 0 ∧ ack.bytesReceived = UInt64.ofNat (self.content item).length ∧
      ack.calculatedBlake3.length = 64

variable {D : Delivery} {item : LocalFileItem}

theorem Listed.relative (listed : D.Listed B) (mem : item ∈ D.items) :
    item.relativePath.head? ≠ some QString.slash := by
  rw [← listed.fixed item mem]
  exact sanitizePath_relative item.relativePath

theorem Listed.inside (listed : D.Listed B) (mem : item ∈ D.items) :
    Inside D.folder (D.target item) :=
  inside_descends listed.folder
    (descends_of_fixed (listed.fixed item mem) (listed.nonempty item mem))
    (listed.relative mem)

theorem Listed.parsed (listed : D.Listed B) (mem : item ∈ D.items) {i : Nat}
    (acceptable : (D.stream.startPacket i item).Acceptable) :
    parseFileStart (D.stream.startPacket i item).payload = some (D.announced i item) := by
  have limit : MAX_METADATA_PAYLOAD_SIZE.toNat = 67108864 := rfl
  have length : (serializeFileStart (D.announced i item)).length ≤
      MAX_METADATA_PAYLOAD_SIZE.toNat :=
    acceptable.resolve_right fun chunk => by cases chunk.1
  simp only [serializeFileStart, List.length_append, QDataStream.writeString_length] at length
  have read : parseFileStart (serializeFileStart (D.announced i item)) =
      some (D.announced i item) :=
    parseFileStart_serialize (by omega) (by omega) (by omega)
      (checkedPath_fixed (listed.fixed item mem))
  exact read

end Delivery

namespace TransferSession

variable {B : Blake3} {J : QJson}

structure Holds (s : TransferSession B) (path : QString) (content : QByteArray) : Prop where
  found : s.disk.node path = some (.file content)
  apart : ∀ writer, s.fileWriter = some writer → writer.file.isOpen = true →
    writer.file.fileName ≠ path

/-- Files stored at paths of their own. The first has the name that was unique on the disk. -/
structure Stored (s : TransferSession B) (D : Delivery) (done : List LocalFileItem)
    (paths : List QString) : Prop where
  nodup : paths.Nodup
  files : List.Forall₂ (fun item path => Inside D.folder path ∧ s.Holds path (D.content item))
    done paths
  first : ∀ item ∈ done.head?, ∀ path ∈ paths.head?, path = resolveUniqueName D.base (D.target item)

/-- What a receiver has done of the packets in front of a place. -/
inductive StoredAt (s : TransferSession B) (D : Delivery) : Cursor → Prop
  | between {i : Nat} {rest : List LocalFileItem} {paths : List QString}
      (suffix : D.items.drop i = rest) (running : s.status = .Transferring)
      (stored : Stored s D (D.items.take i) paths)
      (untouched : i = 0 → s.disk.nodes = D.base.nodes)
      (gone : ∀ path ∈ paths.getLast?, s.disk.node (path ++ partialSuffix) = none) :
      StoredAt s D (.between i rest)
  | sending {i k : Nat} {item : LocalFileItem} {rest : List LocalFileItem} {paths : List QString}
      {target : QString} {writer : FileWriter B}
      (suffix : D.items.drop i = item :: rest) (running : s.status = .Transferring)
      (stored : Stored s D (D.items.take i) paths) (most : k ≤ (D.stream.pieces item).length)
      (found : s.fileWriter = some writer)
      (filling : FileWriter.Filling target item.fileSize.toNat
        ((D.stream.pieces item).take k) writer s.disk)
      (inside : Inside D.folder target)
      (first : i = 0 → target = resolveUniqueName D.base (D.target item)) :
      StoredAt s D (.sending i item k rest)
  | done {paths : List QString} (completed : s.status = .Completed)
      (stored : Stored s D D.items paths)
      (gone : ∀ path ∈ paths.getLast?, s.disk.node (path ++ partialSuffix) = none) :
      StoredAt s D .done

/-- A receiver that has stored what was streamed in front of a place. -/
structure ReceiverAt (s : TransferSession B) (D : Delivery) (cursor : Cursor) : Prop where
  role : s.direction = .Receive
  noReader : s.fileReader = none
  connected : s.connected = true
  policy : s.duplicatePolicy = .Rename ∨ D.Vacant
  folder : s.sessionFolder = D.folder
  acks : ∀ p ∈ s.outbox, p.type = .FileAck → D.GoodAck p
  place : StoredAt s D cursor

/-- The receiver has handled one more packet of a stream, of which the given packets are left. -/
structure Stores (D : Delivery) (packets : List Packet) (ends : Nat) (s t : TransferSession B) :
    Prop where
  place : ∃ cursor, D.stream.remaining cursor = packets ∧ ReceiverAt t D cursor ∧
    (sentSince s t).length + cursor.ends = ends
  answers : ∀ p ∈ sentSince s t, D.GoodAck p
  holds : ∀ path content, s.Holds path content → t.Holds path content

theorem Holds.congr {s t : TransferSession B} {path : QString} {content : QByteArray}
    (h : s.Holds path content) (disk : t.disk = s.disk) (fileWriter : t.fileWriter = s.fileWriter) :
    t.Holds path content := by
  refine ⟨?_, ?_⟩
  · rw [disk]
    exact h.found
  · rw [fileWriter]
    exact h.apart

private theorem Stored.mono {s t : TransferSession B} {D : Delivery} {done : List LocalFileItem}
    {paths : List QString} (h : Stored s D done paths)
    (holds : ∀ path content, s.Holds path content → t.Holds path content) :
    Stored t D done paths :=
  ⟨h.nodup, h.files.imp fun _ _ both => ⟨both.1, holds _ _ both.2⟩, h.first⟩

private theorem StoredAt.congr {s t : TransferSession B} {D : Delivery} {cursor : Cursor}
    (h : StoredAt s D cursor) (disk : t.disk = s.disk) (fileWriter : t.fileWriter = s.fileWriter)
    (status : t.status = s.status) : StoredAt t D cursor := by
  have holds : ∀ path content, s.Holds path content → t.Holds path content :=
    fun path content there => there.congr disk fileWriter
  cases h with
  | between suffix running stored untouched gone =>
      rw [← disk] at untouched gone
      exact .between suffix (status.trans running) (stored.mono holds) untouched gone
  | sending suffix running stored most found filling inside first =>
      rw [← disk] at filling
      exact .sending suffix (status.trans running) (stored.mono holds) most
        (fileWriter.trans found) filling inside first
  | done completed stored gone =>
      rw [← disk] at gone
      exact .done (status.trans completed) (stored.mono holds) gone

theorem ReceiverAt.target {s : TransferSession B} {D : Delivery} {cursor : Cursor}
    {item : LocalFileItem} (listed : D.Listed B) (mem : item ∈ D.items)
    (h : ReceiverAt s D cursor) :
    FileWriter.targetPath s.baseOutputDir s.subFolder item.relativePath = D.target item := by
  rw [s.targetPath_eq, h.folder, listed.fixed item mem]
  rfl

private theorem StoredAt.vacant {s : TransferSession B} {D : Delivery} {i : Nat}
    {item : LocalFileItem} {rest : List LocalFileItem} (h : StoredAt s D (.between i (item :: rest)))
    (vacant : D.Vacant) : item ∈ D.items ∧ s.disk.nodes = D.base.nodes := by
  cases h with
  | between suffix running stored untouched gone =>
      obtain ⟨mem, -, -, below⟩ := mem_of_suffix suffix
      have single := vacant.single
      exact ⟨mem, untouched (by omega)⟩

/-- The writer that opens for an announced file fills a staging file and touches no other. -/
private theorem ReceiverAt.openWriter {s : TransferSession B} {D : Delivery} {i : Nat}
    {item : LocalFileItem} {rest : List LocalFileItem} (listed : D.Listed B)
    (mem : item ∈ D.items) (h : ReceiverAt s D (.between i (item :: rest)))
    (clear : s.disk.hasFile (resolveUniqueName s.disk (D.target item) ++ partialSuffix) = false)
    (succeeded : (s.openWriter (D.announced i item)).2.2.AllSucceeded) :
    (s.openWriter (D.announced i item)).1 = true ∧
      FileWriter.Filling (resolveUniqueName s.disk (D.target item)) item.fileSize.toNat []
        (s.openWriter (D.announced i item)).2.1 (s.openWriter (D.announced i item)).2.2 ∧
      ∀ path content, s.disk.node path = some (.file content) →
        path ≠ resolveUniqueName s.disk (D.target item) ++ partialSuffix ∧
          (s.openWriter (D.announced i item)).2.2.node path = some (.file content) := by
  have target := h.target listed mem
  have nonempty : resolveUniqueName s.disk (D.target item) ≠ [] :=
    ((listed.inside mem).resolveUniqueName s.disk).nonempty listed.folder.nonempty
  have renames : s.openWriter (D.announced i item) =
      (FileWriter.new B).open s.disk s.baseOutputDir s.subFolder item.relativePath item.fileSize 0
        .Rename := by
    rcases h.policy with policy | vacant
    · rw [TransferSession.openWriter, policy]
      rfl
    · refine FileWriter.open_free ?_ _ _
      obtain ⟨-, nodes⟩ := h.place.vacant vacant
      rw [show (D.announced i item).relativePath = item.relativePath from rfl, target, Disk.node,
        nodes]
      exact vacant.free item mem
  rw [renames] at succeeded ⊢
  rw [← target] at nonempty clear ⊢
  exact FileWriter.filling_open succeeded nonempty clear

private theorem ReceiverAt.start {s t : TransferSession B} {D : Delivery} {i : Nat}
    {item : LocalFileItem} {rest : List LocalFileItem} (listed : D.Listed B)
    (h : ReceiverAt s D (.between i (item :: rest)))
    (acceptable : (D.stream.startPacket i item).Acceptable)
    (clear : s.disk.hasFile (resolveUniqueName s.disk (D.target item) ++ partialSuffix) = false)
    (taken : ReceiverStep s (.packet (D.stream.startPacket i item)) t)
    (succeeded : t.disk.AllSucceeded) :
    Stores D (D.stream.remaining (.sending i item 0 rest)) (rest.length + 1) s t := by
  have place := h.place
  cases place with
  | @between _ _ paths suffix running stored untouched gone =>
  have mem : item ∈ D.items := List.mem_of_mem_drop (suffix ▸ List.mem_cons_self)
  have parsed := listed.parsed mem acceptable
  cases taken with
  | opened parsed' opened =>
      cases parsed.symm.trans parsed'
      obtain ⟨-, filling, kept⟩ := h.openWriter listed mem clear succeeded
      have holds : ∀ path content, s.Holds path content →
          (s.fileOpened (D.announced i item)).Holds path content := by
        intro path content there
        obtain ⟨apart, found⟩ := kept path content there.found
        refine ⟨found, ?_⟩
        rintro _ ⟨⟩ -
        rw [filling.fileName]
        exact apart.symm
      have none : sentSince s (s.fileOpened (D.announced i item)) = [] :=
        sentSince_eq (List.append_nil s.outbox).symm
      have named := (listed.inside mem).resolveUniqueName s.disk
      refine ⟨⟨.sending i item 0 rest, rfl, ⟨h.role, h.noReader, h.connected, h.policy, h.folder,
        h.acks, ?_⟩, ?_⟩, ?_, holds⟩
      · refine .sending suffix running (stored.mono holds) (Nat.zero_le _) rfl filling named ?_
        intro zero
        exact FileWriter.resolveUniqueName_congr (untouched zero) _
      · rw [none]
        exact Nat.zero_add _
      · rw [none]
        exact List.forall_mem_nil _
  | refused parsed' refused =>
      cases parsed.symm.trans parsed'
      have opened := (h.openWriter listed mem clear succeeded).1
      have both : true = false := opened.symm.trans refused
      cases both
  | ignored ignored =>
      have unread := ignored.fileStart _ _ rfl
      cases parsed.symm.trans unread
  | bystander other => exact absurd (List.mem_cons_self) (other _ rfl)

private theorem ReceiverAt.chunk {s t : TransferSession B} {D : Delivery} {i k : Nat}
    {item : LocalFileItem} {rest : List LocalFileItem} (listed : D.Listed B)
    (h : ReceiverAt s D (.sending i item k rest)) (more : k < (D.stream.pieces item).length)
    (small : 20 + (D.stream.pieces item)[k].length < 2 ^ 32)
    (taken : ReceiverStep s (.packet (DataStream.chunkPacket i
      ((D.stream.pieces item).take k).flatten.length (D.stream.pieces item)[k])) t)
    (succeeded : t.disk.AllSucceeded) :
    Stores D (D.stream.remaining (.sending i item (k + 1) rest)) (rest.length + 1) s t := by
  have place := h.place
  cases place with
  | @sending _ _ _ _ paths target writer suffix running stored most found filling inside first =>
  have mem : item ∈ D.items := List.mem_of_mem_drop (suffix ▸ List.mem_cons_self)
  let piece := (D.stream.pieces item)[k]
  let written := (D.stream.pieces item).take k
  have grown : (D.stream.pieces item).take (k + 1) = written ++ [piece] :=
    List.take_succ_eq_append_getElem more
  let chunk : MsgFileDataChunk := ⟨UInt64.ofNat i, UInt64.ofNat written.flatten.length,
    UInt32.ofNat piece.length, piece⟩
  have parsed : parseFileDataChunk (chunkBytes chunk) = some chunk :=
    parseFileDataChunk_chunkBytes (by dsimp only [chunk, piece]; omega) rfl
  have offset : chunk.offset.toNat = written.flatten.length := by
    have front : written.flatten.length ≤ (D.content item).length :=
      ((List.take_prefix k (D.stream.pieces item)).flatten).length_le
    have bound := listed.bound item mem
    exact UInt64.toNat_ofNat_of_lt' (by rw [UInt64.size]; omega)
  cases taken with
  | written parsed' found' ok =>
      cases parsed.symm.trans parsed'
      cases found.symm.trans found'
      obtain ⟨filling', others⟩ := filling.written offset ok
      have holds : ∀ path content, s.Holds path content →
          ((s.chunkWritten writer chunk).countReceived piece.length).Holds path content := by
        intro path content there
        have apart := there.apart writer found filling.isOpen
        rw [filling.fileName] at apart
        refine ⟨(others path apart.symm).trans there.found, ?_⟩
        rintro _ ⟨⟩ -
        rw [filling'.fileName]
        exact apart
      have none : sentSince s ((s.chunkWritten writer chunk).countReceived piece.length) = [] :=
        sentSince_eq (List.append_nil s.outbox).symm
      refine ⟨⟨.sending i item (k + 1) rest, rfl, ⟨h.role, h.noReader, h.connected, h.policy,
        h.folder, h.acks, ?_⟩, ?_⟩, ?_, holds⟩
      · refine .sending suffix running (stored.mono holds) more rfl ?_ inside first
        rw [grown]
        exact filling'
      · rw [none]
        exact Nat.zero_add _
      · rw [none]
        exact List.forall_mem_nil _
  | unwritten parsed' found' failed =>
      cases found.symm.trans found'
      have ok := (FileWriter.succeeded_writeChunk succeeded).2 filling.isOpen
      have both : true = false := ok.symm.trans failed
      cases both
  | ignored ignored =>
      rcases ignored.fileDataChunk _ _ rfl with unread | absent
      · cases parsed.symm.trans unread
      · cases found.symm.trans absent
  | bystander other => exact absurd (by simp [DataStream.chunkPacket, fileTypes]) (other _ rfl)

private theorem Stored.fresh {s : TransferSession B} {D : Delivery} {done : List LocalFileItem}
    {paths : List QString} (h : Stored s D done paths) {path : QString}
    (free : s.disk.node path = none) : path ∉ paths := by
  intro mem
  obtain ⟨k, inside, rfl⟩ := List.getElem_of_mem mem
  have short : k < done.length := by
    rw [h.files.length_eq]
    exact inside
  have there := ((List.forall₂_iff_get.mp h.files).2 k short inside).2.found
  rw [List.get_eq_getElem, free] at there
  cases there

private theorem Stored.snoc {s : TransferSession B} {D : Delivery} {done : List LocalFileItem}
    {paths : List QString} (h : Stored s D done paths) {item : LocalFileItem} {path : QString}
    (fresh : path ∉ paths) (inside : Inside D.folder path)
    (holds : s.Holds path (D.content item))
    (first : done = [] → path = resolveUniqueName D.base (D.target item)) :
    Stored s D (done ++ [item]) (paths ++ [path]) := by
  refine ⟨?_, List.rel_append h.files (.cons ⟨inside, holds⟩ .nil), ?_⟩
  · refine h.nodup.append (List.nodup_singleton path) fun q mem last => ?_
    rw [List.mem_singleton.mp last] at mem
    exact fresh mem
  · have length := h.files.length_eq
    cases done with
    | nil =>
        rw [List.length_nil] at length
        rw [List.length_eq_zero_iff.mp length.symm]
        rintro _ ⟨⟩ _ ⟨⟩
        exact first rfl
    | cons head done =>
        cases paths with
        | nil => cases length
        | cons front paths => exact h.first

private theorem ReceiverAt.ended {s t : TransferSession B} {D : Delivery} {i k : Nat}
    {item : LocalFileItem} {rest : List LocalFileItem} (listed : D.Listed B)
    (h : ReceiverAt s D (.sending i item k rest)) (last : (D.stream.pieces item).length ≤ k)
    (taken : ReceiverStep s (.packet (D.stream.endPacket i item)) t)
    (succeeded : t.disk.AllSucceeded) :
    Stores D (D.stream.remaining (.between (i + 1) rest)) (rest.length + 1) s t := by
  have place := h.place
  cases place with
  | @sending _ _ _ _ paths target writer suffix running stored most found filling inside first =>
  obtain ⟨mem, behind, upTo, below⟩ := mem_of_suffix suffix
  have sum := listed.sum item mem
  rw [List.take_of_length_le last] at filling
  let msg : MsgFileEnd := ⟨UInt64.ofNat i, D.stream.sum item⟩
  have parsed : parseFileEnd (serializeFileEnd msg) = some msg := by
    refine parseFileEnd_serialize ?_
    show (D.stream.sum item).length < 2 ^ 30
    rw [sum, Blake3Hasher.digest_length]
    decide
  have verifies : writer.Verifies msg.blake3Checksum := by
    right
    show QString.equalsIgnoringCase (D.stream.sum item) _ = true
    rw [sum, filling.hasher]
    exact QString.equalsIgnoringCase_self _
  have full : item.fileSize.toNat ≤ (D.stream.pieces item).flatten.length :=
    Nat.le_of_eq (listed.size item mem)
  cases taken with
  | ended parsed' found' =>
      cases parsed.symm.trans parsed'
      cases found.symm.trans found'
      have ok := (FileWriter.succeeded_finalizeAndCommit succeeded).2 verifies
      obtain ⟨there, gone, others, shut, bytes, checksum⟩ := filling.committed full ok
      have sent : sentSince s (s.fileEnded writer msg) =
          [⟨.FileAck, 0, serializeFileAck (s.endAck writer msg)⟩] :=
        sentSince_eq (sendPacket_outbox (s := s.fileFinalized writer msg) h.connected _ _)
      have good : D.GoodAck ⟨.FileAck, 0, serializeFileAck (s.endAck writer msg)⟩ := by
        refine ⟨s.endAck writer msg, item, mem, rfl, if_pos ok, bytes, ?_⟩
        show (writer.finalizeAndCommit s.disk _).2.1.calculatedChecksum.length = 64
        rw [checksum, Blake3Hasher.digest_length]
      have holds : ∀ path content, s.Holds path content →
          (s.fileEnded writer msg).Holds path content := by
        intro path content before
        have notStaging := before.apart writer found filling.isOpen
        rw [filling.fileName] at notStaging
        have notTarget : path ≠ target := by
          rintro rfl
          cases filling.free.symm.trans before.found
        refine ⟨(others path notTarget notStaging.symm).trans before.found, ?_⟩
        rintro _ ⟨⟩ opened
        cases shut.symm.trans opened
      have placed : (s.fileEnded writer msg).Holds target (D.content item) := by
        refine ⟨there, ?_⟩
        rintro _ ⟨⟩ opened
        cases shut.symm.trans opened
      have stored' : Stored (s.fileEnded writer msg) D (D.items.take i ++ [item])
          (paths ++ [target]) := by
        refine (stored.mono holds).snoc (stored.fresh filling.free) inside placed fun none => ?_
        refine first ?_
        rcases List.take_eq_nil_iff.mp none with zero | empty
        · exact zero
        · rw [empty] at mem
          cases mem
      rw [← upTo] at stored'
      refine ⟨⟨.between (i + 1) rest, rfl, ⟨h.role, h.noReader, h.connected, h.policy, h.folder,
        ?_, .between behind running stored' (fun zero => by cases zero) ?_⟩, ?_⟩, ?_, holds⟩
      · intro p mem type
        have among : p ∈ s.outbox ++ [⟨.FileAck, 0, serializeFileAck (s.endAck writer msg)⟩] :=
          sendPacket_outbox (s := s.fileFinalized writer msg) h.connected _ _ ▸ mem
        rcases List.mem_append.mp among with earlier | new
        · exact h.acks p earlier type
        · rw [List.mem_singleton.mp new]
          exact good
      · rw [List.getLast?_concat]
        rintro _ ⟨⟩
        exact gone
      · rw [sent]
        exact Nat.add_comm _ _
      · rw [sent]
        exact List.forall_mem_singleton.mpr good
  | ignored ignored =>
      rcases ignored.fileEnd _ _ rfl with unread | absent
      · cases parsed.symm.trans unread
      · cases found.symm.trans absent
  | bystander other => exact absurd (by simp [DataStream.endPacket, fileTypes]) (other _ rfl)

private theorem ReceiverAt.completed {s : TransferSession B} {D : Delivery} {i : Nat}
    (h : ReceiverAt s D (.between i [])) :
    Stores D (D.stream.remaining .done) 0 s s.complete := by
  have place := h.place
  cases place with
  | @between _ _ paths suffix running stored untouched gone =>
  have all : D.items.take i = D.items := List.take_of_length_le (List.drop_eq_nil_iff.mp suffix)
  rw [all] at stored
  have holds : ∀ path content, s.Holds path content → s.complete.Holds path content :=
    fun path content there => there.congr rfl rfl
  have none : sentSince s s.complete = [] := sentSince_eq (List.append_nil s.outbox).symm
  refine ⟨⟨.done, rfl, ⟨h.role, h.noReader, h.connected, h.policy, h.folder, h.acks,
    .done rfl (stored.mono holds) gone⟩, ?_⟩, ?_, holds⟩
  · rw [none]
    rfl
  · rw [none]
    exact List.forall_mem_nil _

/-- The next packet of the stream is stored, provided that a file that starts finds none at
the staging path of the name it is given. -/
theorem ReceiverAt.packet {s t : TransferSession B} {D : Delivery} {cursor : Cursor} {p : Packet}
    {packets : List Packet} (listed : D.Listed B) (h : ReceiverAt s D cursor)
    (next : D.stream.remaining cursor = p :: packets) (acceptable : p.Acceptable)
    (small : p.type = .FileDataChunk → p.payload.length < 2 ^ 32)
    (clear : ∀ item ∈ D.items, ∀ i, p = D.stream.startPacket i item →
      s.disk.hasFile (resolveUniqueName s.disk (D.target item) ++ partialSuffix) = false)
    (taken : Steps J s (.packet p) t) (succeeded : t.disk.AllSucceeded) :
    Stores D packets cursor.ends s t := by
  have handled := step_receiver taken
  cases cursor with
  | between i rest =>
      cases rest with
      | nil =>
          obtain ⟨rfl, rfl⟩ := List.cons.inj next
          rw [← Except.ok.inj taken]
          exact h.completed
      | cons item rest =>
          obtain ⟨rfl, rfl⟩ := List.cons.inj ((D.stream.filesFrom_cons i item rest).symm.trans next)
          have mem : item ∈ D.items := by
            have place := h.place
            cases place with
            | between suffix => exact List.mem_of_mem_drop (suffix ▸ List.mem_cons_self)
          exact h.start listed acceptable (clear item mem i rfl) handled succeeded
  | sending i item k rest =>
      by_cases more : k < (D.stream.pieces item).length
      · obtain ⟨rfl, rfl⟩ := List.cons.inj ((D.stream.remaining_chunk more).symm.trans next)
        have length := small rfl
        rw [DataStream.chunkPacket, chunkBytes_length] at length
        exact h.chunk listed more length handled succeeded
      · have last := Nat.le_of_not_lt more
        obtain ⟨rfl, rfl⟩ := List.cons.inj ((D.stream.remaining_end last).symm.trans next)
        exact h.ended listed last handled succeeded
  | done => cases next

theorem ReceiverAt.clear {s : TransferSession B} {D : Delivery} {cursor : Cursor} {i : Nat}
    {item : LocalFileItem} {packets : List Packet} (h : ReceiverAt s D cursor) (vacant : D.Vacant)
    (mem : item ∈ D.items)
    (next : D.stream.remaining cursor = D.stream.startPacket i item :: packets) :
    s.disk.hasFile (resolveUniqueName s.disk (D.target item) ++ partialSuffix) = false := by
  cases cursor with
  | between j rest =>
      cases rest with
      | nil =>
          have type := congrArg Packet.type (List.cons.inj next).1
          cases type
      | cons first rest =>
          obtain ⟨-, nodes⟩ := h.place.vacant vacant
          have same : ∀ path, s.disk.node path = D.base.node path := fun path => by
            rw [Disk.node, nodes]
            rfl
          have free : s.disk.exists (D.target item) = false := by
            rw [Disk.exists, same, vacant.free item mem]
            rfl
          have name : resolveUniqueName s.disk (D.target item) = D.target item := by
            simp only [resolveUniqueName, free, Bool.not_false, if_true]
          rw [name, Disk.hasFile, same, vacant.clear item mem]
  | sending j first k rest =>
      by_cases more : k < (D.stream.pieces first).length
      · have type := congrArg Packet.type
          (List.cons.inj ((D.stream.remaining_chunk more).symm.trans next)).1
        cases type
      · have type := congrArg Packet.type
          (List.cons.inj ((D.stream.remaining_end (Nat.le_of_not_lt more)).symm.trans next)).1
        cases type
  | done => cases next

theorem ReceiverAt.frame {s t : TransferSession B} {D : Delivery} {cursor : Cursor}
    (h : ReceiverAt s D cursor) (same : Frame s t) (status : t.status = s.status)
    (outbox : t.outbox = s.outbox) : ReceiverAt t D cursor := by
  have folder : t.sessionFolder = s.sessionFolder := by
    rw [sessionFolder, sessionFolder, subFolder, subFolder, same.baseOutputDir,
      same.sessionSubfolder, same.remoteDevice]
  refine ⟨same.direction.trans h.role, same.fileReader.trans h.noReader,
    same.connected.trans h.connected, same.duplicatePolicy ▸ h.policy, folder.trans h.folder,
    ?_, h.place.congr same.disk same.fileWriter status⟩
  rw [outbox]
  exact h.acks

end TransferSession

end FastTransfer
