/- FastTransfer/Core/Resumption
   source: src/core/TransferSession.cpp, src/filesystem/FileReader.cpp,
     src/filesystem/FileWriter.cpp
   digest: When pausing and resuming leaves the checksums of both sides in step. -/

import FastTransfer.Core.LinkSteps

set_option autoImplicit false
set_option relaxedAutoImplicit false

namespace FastTransfer.Link

open Protocol TransferSession
open QString (literal)

variable {B : Blake3} {J : QJson}

/-- The chunks sent since the last `FileStart`, or none where no file is open. -/
abbrev Stream := Option (List QByteArray)

/-- How a packet of the sender moves the stream. A file may start at any time, and ends with the
digest of the chunks sent since. -/
inductive Emits (B : Blake3) : Stream → Packet → Stream → Prop
  | start {stream : Stream} (flags : UInt16) (payload : QByteArray) :
      Emits B stream ⟨.FileStart, flags, payload⟩ (some [])
  | chunk {chunks : List QByteArray} (flags : UInt16) {payload : QByteArray}
      {chunk : MsgFileDataChunk} (parsed : parseFileDataChunk payload = some chunk) :
      Emits B (some chunks) ⟨.FileDataChunk, flags, payload⟩ (some (chunks ++ [chunk.chunkData]))
  | ended {chunks : List QByteArray} (flags : UInt16) {payload : QByteArray} {msg : MsgFileEnd}
      (parsed : parseFileEnd payload = some msg)
      (sum : msg.blake3Checksum = Blake3Hasher.digest B chunks) :
      Emits B (some chunks) ⟨.FileEnd, flags, payload⟩ none
  | aside {stream : Stream} {p : Packet}
      (type : p.type ∈ [.TransferComplete, .TransferPause, .TransferResume]) :
      Emits B stream p stream

theorem Emits.type {a b : Stream} {p : Packet} (h : Emits B a p b) : p.type ∈ senderTypes := by
  cases h with
  | aside type =>
      simp only [List.mem_cons, List.not_mem_nil, or_false] at type
      rcases type with type | type | type <;> simp [type, senderTypes]
  | _ => simp [senderTypes]

/-- The sender's reader has hashed what it sent since the last `FileStart`. -/
structure SenderTied (s : TransferSession B) (stream : Stream) : Prop where
  role : s.direction = .Send
  connected : s.connected = true
  status : s.status ≠ .Failed
  chunkSize : 0 < s.chunkSize
  sources : ∀ item ∈ s.sendManifest.items, FileReader.Readable s.disk item.sourceAbsolutePath
  reading : s.waitingFileAck = false → ∀ reader, s.fileReader = some reader →
    ∃ chunks, stream = some chunks ∧ reader.hasher = .fed B chunks ∧
      (reader.file.isOpen = true → ∃ item ∈ s.sendManifest.items, ∃ k,
        reader.At s.disk item.sourceAbsolutePath k)

def Advances (s : TransferSession B) (stream : Stream) (t : TransferSession B) : Prop :=
  ∃ sent stream', t.outbox = s.outbox ++ sent ∧ Run (Emits B) stream sent stream' ∧
    SenderTied t stream'

private theorem Advances.of_tied {s t : TransferSession B} {stream : Stream}
    (outbox : t.outbox = s.outbox) (tied : SenderTied t stream) : Advances s stream t :=
  ⟨[], stream, by rw [outbox, List.append_nil], .nil, tied⟩

private theorem Advances.cons {s t u : TransferSession B} {a b : Stream} {p : Packet}
    (outbox : t.outbox = s.outbox ++ [p]) (emits : Emits B a p b) (h : Advances t b u) :
    Advances s a u := by
  obtain ⟨sent, c, eq, run, tied⟩ := h
  exact ⟨p :: sent, c, by rw [eq, outbox, List.append_assoc]; rfl, (Run.single emits).append run,
    tied⟩

private theorem SenderTied.frame {s t : TransferSession B} {stream : Stream}
    (h : SenderTied s stream) (same : Frame s t) (status : t.status ≠ .Failed) :
    SenderTied t stream where
  role := same.direction.trans h.role
  connected := same.connected.trans h.connected
  status := status
  chunkSize := same.chunkSize ▸ h.chunkSize
  sources := by
    rw [same.sendManifest, same.disk]
    exact h.sources
  reading := by
    rw [same.waitingFileAck, same.fileReader, same.sendManifest, same.disk]
    exact h.reading

private theorem SenderTied.read {s : TransferSession B} {stream : Stream}
    (h : SenderTied s stream) {reader : FileReader B} (active : Active s reader)
    (ended : reader.isAtEnd = false) :
    (reader.readNextChunk s.disk).1 ≠ [] ∧ (reader.readNextChunk s.disk).1.length < 2 ^ 32 ∧
      ∃ chunks, stream = some chunks ∧
        (reader.readNextChunk s.disk).2.hasher =
          .fed B (chunks ++ [(reader.readNextChunk s.disk).1]) ∧
        ∃ item ∈ s.sendManifest.items, ∃ k,
          (reader.readNextChunk s.disk).2.At s.disk item.sourceAbsolutePath k := by
  obtain ⟨chunks, eq, hasher, position⟩ := h.reading active.notWaiting reader active.found
  obtain ⟨item, mem, k, at'⟩ := position (FileReader.isOpen_of_not_atEnd ended)
  have inside := at'.ahead ended
  obtain ⟨data, width, next⟩ := FileReader.readNextChunk_at (h.sources item mem) at' inside
  have size := Slices.slice_length reader.chunkSize.toNat
    (s.disk.content item.sourceAbsolutePath) k
  have bound := reader.chunkSize.toNat_lt
  rw [data]
  refine ⟨Slices.slice_ne_nil at'.chunkSize inside, by omega, chunks, eq, ?_, item, mem, k + 1,
    next⟩
  rw [next.hasher, width, Slices.slices_succ, Blake3Hasher.fed_append, ← at'.hasher, hasher,
    Blake3Hasher.fed_append]

private theorem SenderTied.nextChunk {s t : TransferSession B} {stream : Stream}
    (h : SenderTied s stream) (next : NextChunk s t) : Advances s stream t := by
  cases next with
  | idle => exact .of_tied rfl h
  | fileEnd reader active ended =>
      obtain ⟨chunks, rfl, hasher, -⟩ := h.reading active.notWaiting reader active.found
      have sum : reader.finalizeBlake3.1 = Blake3Hasher.digest B chunks := by
        rw [FileReader.finalizeBlake3, hasher]
        rfl
      have parsed : parseFileEnd (serializeFileEnd ⟨s.currentFileIndex, reader.finalizeBlake3.1⟩) =
          some ⟨s.currentFileIndex, reader.finalizeBlake3.1⟩ := by
        refine parseFileEnd_serialize ?_
        rw [sum, Blake3Hasher.digest_length]
        decide
      refine .cons (sendPacket_outbox h.connected _ _) (.ended 0 parsed sum) (.of_tied rfl ?_)
      exact ⟨h.role, h.connected, h.status, h.chunkSize, h.sources, nofun⟩
  | readFailed reader active ended empty => exact absurd empty (h.read active ended).1
  | sendFailed reader active lost =>
      rw [h.connected] at lost
      cases lost
  | chunk reader active ended nonempty online payload written =>
      obtain ⟨-, size, chunks, rfl, hasher, item, mem, k, next⟩ := h.read active ended
      obtain ⟨fits, rfl⟩ := serializeFileDataChunk_some size written
      have parsed := parseFileDataChunk_chunkBytes fits rfl
      refine .cons (sendPacket_outbox online _ _) (.chunk 0 parsed) (.of_tied rfl ?_)
      refine ⟨h.role, h.connected, h.status, h.chunkSize, h.sources, fun _ reader' found => ?_⟩
      cases found
      exact ⟨_, rfl, hasher, fun _ => ⟨item, mem, k, next⟩⟩

private theorem SenderTied.resumed {s : TransferSession B} {stream : Stream}
    (h : SenderTied s stream) : Advances s stream (s.resumed J) := by
  have told := sendPacket_outbox (s := s.setStatus .Transferring) h.connected .TransferResume
    (serializeTransferResume J
      ⟨s.transferId, s.currentFileIndex, s.metrics.currentFileTransferred⟩)
  refine .cons told (.aside (by simp)) (.of_tied rfl (h.frame ?_ nofun))
  constructor <;> rfl

private theorem Advances.trans {s t u : TransferSession B} {a : Stream} (first : Advances s a t)
    (second : ∀ b, SenderTied t b → Advances t b u) : Advances s a u := by
  obtain ⟨sent, b, eq, run, tied⟩ := first
  obtain ⟨sent', c, eq', run', tied'⟩ := second b tied
  exact ⟨sent ++ sent', c, by rw [eq', eq, List.append_assoc], run.append run', tied'⟩

private theorem SenderTied.local {s t : TransferSession B} {stream : Stream} {e : LocalEvent}
    (h : SenderTied s stream) (step : LocalStep J s e t) : Advances s stream t := by
  cases step with
  | aside same status outbox => exact .of_tied outbox (h.frame same (status ▸ h.status))
  | paused was =>
      rw [pause, if_pos was]
      have told := sendPacket_outbox (s := (s.setStatus .Paused).emit (.metricsUpdated s.metrics))
        h.connected .TransferPause
        (serializeTransferPause J ⟨s.transferId, literal "User paused transfer"⟩)
      refine .cons told (.aside (by simp)) (.of_tied rfl (h.frame ?_ (fun c => by cases c)))
      constructor <;> rfl
  | resumed was role => exact absurd h.role role
  | resumedSending was role next => exact h.resumed.trans fun b tied => tied.nextChunk next
  | next same status outbox next =>
      have moved : Advances s stream _ := .of_tied outbox (h.frame same (status ▸ h.status))
      exact moved.trans fun b tied => tied.nextChunk next

/-- A file that starts at its beginning starts the stream anew. -/
private theorem SenderTied.startFile {s t : TransferSession B} {stream : Stream}
    {fileIndex startOffset : UInt64} (h : SenderTied s stream)
    (fresh : ∀ item, s.sendManifest.items[fileIndex.toNat]? = some item → startOffset = 0 ∨
      (s.disk.content item.sourceAbsolutePath).length < startOffset.toNat)
    (start : StartFile J s fileIndex startOffset t) : Advances s stream t := by
  cases start with
  | finished done =>
      have told := sendPacket_outbox h.connected .TransferComplete
        (serializeTransferComplete J ⟨s.transferId, s.metrics.totalTransferred⟩)
      refine .cons told (.aside (by simp)) (.of_tied rfl ?_)
      exact ⟨h.role, h.connected, nofun, h.chunkSize, h.sources, h.reading⟩
  | unopened item found closed =>
      have mem := List.mem_of_getElem? found
      have opened := (FileReader.open_at (B := B) (h.sources item mem) h.chunkSize
        (fresh item found)).1
      rw [closed] at opened
      cases opened
  | started item found opened next sent =>
      have mem := List.mem_of_getElem? found
      obtain ⟨-, -, at'⟩ := FileReader.open_at (B := B) (h.sources item mem) h.chunkSize
        (fresh item found)
      have announced : Advances s stream (s.started fileIndex startOffset item) := by
        refine .cons (sendPacket_outbox h.connected _ _) (.start 0 _) (.of_tied rfl ?_)
        refine ⟨h.role, h.connected, h.status, h.chunkSize, h.sources, fun _ reader found' => ?_⟩
        cases found'
        exact ⟨[], rfl, at'.hasher, fun _ => ⟨item, mem, 0, at'⟩⟩
      exact announced.trans fun b tied => tied.nextChunk sent

/-- A packet as a receiver in step sends it: its acceptance is from the start, and its
acknowledgements are positive. -/
private def InOrder (J : QJson) (p : Packet) : Prop :=
  p.type ∈ receiverTypes ∧
    (p.type = .TransferAccept →
      ∀ msg, parseTransferAccept J p.payload = some msg → msg.resumeOffset = 0) ∧
    (p.type = .FileAck → ∃ ack, p.payload = serializeFileAck ack ∧ ack.statusCode = 0)

private theorem SenderTied.packet {s t : TransferSession B} {stream : Stream} {p : Packet}
    (h : SenderTied s stream) (move : SenderMove J s p t) (honest : InOrder J p)
    (fresh : ∀ msg, p.type = .TransferResume → parseTransferResume J p.payload = some msg →
      ∀ item, s.sendManifest.items[msg.fileIndex.toNat]? = some item → msg.resumeOffset = 0 ∨
        (s.disk.content item.sourceAbsolutePath).length < msg.resumeOffset.toNat) :
    Advances s stream t := by
  cases move with
  | ignored => exact .of_tied rfl h
  | accepted parsed start =>
      have begun : SenderTied s.begin stream :=
        ⟨h.role, h.connected, nofun, h.chunkSize, h.sources, h.reading⟩
      exact begun.startFile (fun _ _ => .inl (honest.2.1 rfl _ parsed)) start
  | @acked _ _ ack reader _ parsed ok found start =>
      have closed : SenderTied ((s.ackReceived ack).closeReader reader) stream := by
        refine ⟨h.role, h.connected, h.status, h.chunkSize, h.sources, fun active reader' eq => ?_⟩
        cases eq
        obtain ⟨chunks, eq, hasher, -⟩ := h.reading active reader found
        exact ⟨chunks, eq, hasher, nofun⟩
      exact closed.startFile (fun _ _ => .inl rfl) start
  | nacked parsed bad =>
      obtain ⟨ack, rfl, ok⟩ := honest.2.2 rfl
      exact absurd ((parseFileAck_some parsed).2.1.trans ok) bad
  | paused =>
      refine .of_tied rfl (h.frame ?_ nofun)
      constructor <;> rfl
  | resumed parsed start =>
      have running : SenderTied (s.setStatus .Transferring) stream :=
        ⟨h.role, h.connected, nofun, h.chunkSize, h.sources, h.reading⟩
      exact running.startFile (fresh _ rfl parsed) start

/-- The receiver's writer has hashed what the stream holds, and it has acknowledged nothing but
success. -/
structure ReceiverTied (r : TransferSession B) (stream : Stream) : Prop where
  role : r.direction = .Receive
  noReader : r.fileReader = none
  status : r.status ≠ .Failed
  writing : ∀ chunks, stream = some chunks → ∃ writer, r.fileWriter = some writer ∧
    writer.file.isOpen = true ∧ writer.hasher = .fed B chunks
  acks : ∀ p ∈ r.outbox, p.type = .FileAck →
    ∃ ack, p.payload = serializeFileAck ack ∧ ack.statusCode = 0

private theorem ReceiverTied.acks_of {r t : TransferSession B} {stream : Stream}
    (h : ReceiverTied r stream) (sends : Sends receiverTypes r t)
    (honest : ∀ p ∈ sentSince r t, InOrder J p) :
    ∀ p ∈ t.outbox, p.type = .FileAck →
      ∃ ack, p.payload = serializeFileAck ack ∧ ack.statusCode = 0 := by
  rw [sends.sentSince.1]
  intro p mem
  rcases List.mem_append.mp mem with earlier | new
  · exact h.acks p earlier
  · exact (honest p new).2.2

private theorem ReceiverTied.local {r t : TransferSession B} {stream : Stream} {e : LocalEvent}
    (h : ReceiverTied r stream) (step : LocalStep J r e t) :
    ReceiverTied t stream ∧ ∀ p ∈ sentSince r t, InOrder J p := by
  have sends := receiver_local_sends h.role h.noReader step
  have honest : ∀ p ∈ sentSince r t, InOrder J p := by
    intro p mem
    have type := sends.sentSince.2 p mem
    simp only [List.mem_cons, List.not_mem_nil, or_false] at type
    rcases type with type | type <;> exact ⟨by simp [type, receiverTypes], by simp [type],
      by simp [type]⟩
  obtain ⟨same, cases⟩ := receiver_local h.role h.noReader step
  refine ⟨⟨same.direction.trans h.role, same.fileReader.trans h.noReader, ?_, ?_,
    h.acks_of (sends.mono (by simp [receiverTypes])) honest⟩, honest⟩
  · rcases cases with ⟨status, -⟩ | ⟨status, -⟩ | ⟨status, -⟩
    · exact status ▸ h.status
    · rw [status]
      decide
    · rw [status]
      decide
  · rw [same.fileWriter]
    exact h.writing

/-- No `FileStart` is met by the policy that skips the file it finds. -/
def skips (r : TransferSession B) (start : MsgFileStart) : Bool :=
  r.duplicatePolicy = .Skip ∧
    r.disk.exists (FileWriter.targetPath r.baseOutputDir r.subFolder start.relativePath)

private theorem ReceiverTied.silent {r t : TransferSession B} {a b : Stream}
    (h : ReceiverTied r a) (same : SameSender r t) (status : t.status ≠ .Failed)
    (outbox : t.outbox = r.outbox)
    (writing : ∀ chunks, b = some chunks → ∃ writer, t.fileWriter = some writer ∧
      writer.file.isOpen = true ∧ writer.hasher = .fed B chunks) :
    ReceiverTied t b ∧ ∀ q ∈ sentSince r t, InOrder J q := by
  refine ⟨⟨same.direction.trans h.role, same.fileReader.trans h.noReader, status, writing, ?_⟩, ?_⟩
  · rw [outbox]
    exact h.acks
  · rw [sentSince, outbox, List.drop_length]
    exact List.forall_mem_nil _

private theorem ReceiverTied.started {r t : TransferSession B} {a : Stream} {flags : UInt16}
    {payload : QByteArray} {start : MsgFileStart} (h : ReceiverTied r a)
    (move : ReceiverMove r ⟨.FileStart, flags, payload⟩ t)
    (parsed : parseFileStart payload = some start) (wanted : skips r start = false)
    (succeeded : t.disk.AllSucceeded) :
    ReceiverTied t (some []) ∧ ∀ q ∈ sentSince r t, InOrder J q := by
  have same := move.sameSender
  cases move.file_of (by simp [fileTypes]) with
  | @opened _ _ start' parsed' opened =>
      refine h.silent same h.status rfl ?_
      rintro chunks ⟨⟩
      rcases FileWriter.open_new (B := B) r.disk r.baseOutputDir r.subFolder
        start'.relativePath start'.fileSize r.duplicatePolicy with
        ⟨shut, -⟩ | ⟨-, target, -, -, eq⟩
      · have both : true = false := opened.symm.trans shut
        cases both
      · refine ⟨_, rfl, ?_, ?_⟩
        · rw [openWriter, eq]
          rfl
        · rw [openWriter, eq]
          rfl
  | refused parsed' refused =>
      cases parsed.symm.trans parsed'
      rcases (FileWriter.succeeded_open succeeded).2 with opened | ⟨skip, taken⟩
      · have both : true = false := opened.symm.trans refused
        cases both
      · simp [skips, skip, taken] at wanted
  | ignored ignored =>
      rw [ignored.fileStart _ _ rfl] at parsed
      cases parsed
  | bystander other => exact absurd (by simp [fileTypes]) (other _ rfl)

private theorem ReceiverTied.chunk {r t : TransferSession B} {chunks : List QByteArray}
    {flags : UInt16} {payload : QByteArray} {chunk : MsgFileDataChunk}
    (h : ReceiverTied r (some chunks)) (move : ReceiverMove r ⟨.FileDataChunk, flags, payload⟩ t)
    (parsed : parseFileDataChunk payload = some chunk) (succeeded : t.disk.AllSucceeded) :
    ReceiverTied t (some (chunks ++ [chunk.chunkData])) ∧ ∀ q ∈ sentSince r t, InOrder J q := by
  have same := move.sameSender
  obtain ⟨writer, found, isOpen, hasher⟩ := h.writing chunks rfl
  cases move.file_of (by simp [fileTypes]) with
  | written parsed' found' written =>
      cases parsed.symm.trans parsed'
      cases found.symm.trans found'
      refine h.silent same h.status rfl ?_
      rintro _ ⟨⟩
      obtain ⟨-, -, eq⟩ := FileWriter.writeChunk_ok written
      refine ⟨_, rfl, ?_, ?_⟩
      · rw [eq]
        exact isOpen
      · rw [eq, Blake3Hasher.fed_append, ← hasher]
  | unwritten parsed' found' failed =>
      cases found.symm.trans found'
      have written := (FileWriter.succeeded_writeChunk succeeded).2 isOpen
      have both : true = false := written.symm.trans failed
      cases both
  | ignored ignored =>
      rcases ignored.fileDataChunk _ _ rfl with unread | absent
      · rw [unread] at parsed
        cases parsed
      · rw [absent] at found
        cases found
  | bystander other => exact absurd (by simp [fileTypes]) (other _ rfl)

/-- The checksum that comes with the end of a file is that of the writer, so the answer is
positive. -/
private theorem ReceiverTied.ended {r t : TransferSession B} {chunks : List QByteArray}
    {flags : UInt16} {payload : QByteArray} {msg : MsgFileEnd}
    (h : ReceiverTied r (some chunks)) (move : ReceiverMove r ⟨.FileEnd, flags, payload⟩ t)
    (parsed : parseFileEnd payload = some msg)
    (sum : msg.blake3Checksum = Blake3Hasher.digest B chunks) (succeeded : t.disk.AllSucceeded) :
    ReceiverTied t none ∧ ∀ q ∈ sentSince r t, InOrder J q := by
  have same := move.sameSender
  obtain ⟨writer, found, isOpen, hasher⟩ := h.writing chunks rfl
  cases move.file_of (by simp [fileTypes]) with
  | ended parsed' found' =>
      cases parsed.symm.trans parsed'
      cases found.symm.trans found'
      have verifies : writer.Verifies msg.blake3Checksum := by
        right
        rw [sum, hasher]
        exact QString.equalsIgnoringCase_self _
      have committed := (FileWriter.succeeded_finalizeAndCommit succeeded).2 verifies
      have ok : (r.endAck writer msg).statusCode = 0 := if_pos committed
      have honest : ∀ q ∈ sentSince r (r.fileEnded writer msg), InOrder J q := by
        intro q mem
        have told := sentSince_sendPacket (r.fileFinalized writer msg) .FileAck
          (serializeFileAck (r.endAck writer msg))
        have mem' := told ▸ (show q ∈ sentSince (r.fileFinalized writer msg)
          ((r.fileFinalized writer msg).sendPacket .FileAck
            (serializeFileAck (r.endAck writer msg))) from mem)
        split at mem'
        · cases List.mem_singleton.mp mem'
          exact ⟨by simp [receiverTypes], (fun c => by cases c), fun _ => ⟨_, rfl, ok⟩⟩
        · cases mem'
      exact ⟨⟨same.direction.trans h.role, same.fileReader.trans h.noReader, h.status,
        (fun chunks none => by cases none),
        h.acks_of (move.sends.mono (by simp [receiverTypes])) honest⟩, honest⟩
  | ignored ignored =>
      rcases ignored.fileEnd _ _ rfl with unread | absent
      · rw [unread] at parsed
        cases parsed
      · rw [absent] at found
        cases found
  | bystander other => exact absurd (by simp [fileTypes]) (other _ rfl)

private theorem ReceiverTied.packet {r t : TransferSession B} {a b : Stream} {p : Packet}
    (h : ReceiverTied r a) (emits : Emits B a p b) (move : ReceiverMove r p t)
    (known : p.type = .FileStart → ∃ start, parseFileStart p.payload = some start ∧
      skips r start = false) (succeeded : t.disk.AllSucceeded) :
    ReceiverTied t b ∧ ∀ q ∈ sentSince r t, InOrder J q := by
  cases emits with
  | start flags payload =>
      obtain ⟨start, parsed, wanted⟩ := known rfl
      exact h.started move parsed wanted succeeded
  | chunk flags parsed => exact h.chunk move parsed succeeded
  | ended flags parsed sum => exact h.ended move parsed sum succeeded
  | aside type =>
      have same := move.sameSender
      cases move with
      | file file moved =>
          simp only [List.mem_cons, List.not_mem_nil, or_false] at type
          rcases type with type | type | type <;> rw [type] at file <;> simp [fileTypes] at file
      | completed => exact h.silent same (fun c => by cases c) rfl h.writing
      | @control _ status type' =>
          refine h.silent same ?_ rfl h.writing
          change status ≠ .Failed
          rcases type' with ⟨-, rfl⟩ | ⟨-, rfl | rfl⟩
          · decide
          · decide
          · exact h.status

def fromStart (s : TransferSession B) (msg : MsgTransferResume) : Bool :=
  match s.sendManifest.items[msg.fileIndex.toNat]? with
  | some item =>
      msg.resumeOffset = 0 ∨
        (s.disk.content item.sourceAbsolutePath).length < msg.resumeOffset.toNat
  | none => true

/-- The packet about to be delivered is within the size limit; a `FileStart` is understood and
its file is not skipped, and a `TransferResume` is from the start. -/
def smooth (J : QJson) (l : Link B) : Duplex.Move LocalEvent → Bool
  | .toRight =>
      match l.toRight with
      | p :: _ => p.Acceptable && (p.type ≠ .FileStart ||
          match parseFileStart p.payload with
          | some start => !skips l.right.session start
          | none => false)
      | [] => true
  | .toLeft =>
      match l.toLeft with
      | p :: _ => p.Acceptable && (p.type ≠ .TransferResume ||
          match parseTransferResume J p.payload with
          | some msg => fromStart l.left.session msg
          | none => true)
      | [] => true
  | _ => true

private structure InStep (J : QJson) (l : Link B) : Prop where
  hears : l.left.deaf = false ∧ l.right.deaf = false
  streams : ∃ a b, ReceiverTied l.right.session a ∧ SenderTied l.left.session b ∧
    Run (Emits B) a l.toRight b
  toLeft : ∀ p ∈ l.toLeft, InOrder J p

section Moves

variable {l : Link B} {E : Endpoint B} {out : List Packet}

private theorem InStep.left {e : LocalEvent} (h : InStep J l)
    (acted : act J l.left e = .ok (E, out)) :
    InStep J { l with left := E, toRight := l.toRight ++ out } := by
  obtain ⟨t, -, step, rfl, rfl⟩ := act_ok acted
  obtain ⟨hears, ⟨a, b, receiver, sender, path⟩, toLeft⟩ := h
  obtain ⟨sent, c, outbox, run, tied⟩ := sender.local step
  rw [sentSince_eq outbox]
  exact ⟨hears, ⟨a, c, receiver, tied, path.append run⟩, toLeft⟩

private theorem InStep.right {e : LocalEvent} (h : InStep J l)
    (acted : act J l.right e = .ok (E, out)) :
    InStep J { l with right := E, toLeft := l.toLeft ++ out } := by
  obtain ⟨t, -, step, rfl, rfl⟩ := act_ok acted
  obtain ⟨hears, ⟨a, b, receiver, sender, path⟩, toLeft⟩ := h
  obtain ⟨tied, honest⟩ := receiver.local (J := J) step
  exact ⟨hears, ⟨a, b, tied, sender, path⟩, List.forall_mem_append.mpr ⟨toLeft, honest⟩⟩

private theorem InStep.heardRight {p : Packet} {rest : List Packet} (h : InStep J l)
    (allowed : smooth J l .toRight = true) (pending : l.toRight = p :: rest)
    (received : receive J l.right p = .ok (E, out)) (succeeded : E.session.disk.AllSucceeded) :
    InStep J { l with right := E, toRight := rest, toLeft := l.toLeft ++ out } := by
  simp only [smooth, pending, Bool.and_eq_true, Bool.or_eq_true, decide_eq_true_eq] at allowed
  obtain ⟨hears, ⟨a, b, receiver, sender, path⟩, toLeft⟩ := h
  obtain ⟨t, taken, rfl, rfl⟩ := receive_heard received hears.2 allowed.1
  rw [pending] at path
  obtain ⟨a', emits, path'⟩ := path.uncons
  have known : p.type = .FileStart → ∃ start, parseFileStart p.payload = some start ∧
      skips l.right.session start = false := by
    intro type
    rcases allowed.2 with other | parsed
    · exact absurd type other
    · cases eq : parseFileStart p.payload with
      | none =>
          rw [eq] at parsed
          cases parsed
      | some start =>
          rw [eq] at parsed
          exact ⟨start, rfl, by simpa using parsed⟩
  obtain ⟨tied, honest⟩ := receiver.packet (J := J) emits
    (receiver_move receiver.role taken emits.type) known succeeded
  exact ⟨hears, ⟨a', b, tied, sender, path'⟩, List.forall_mem_append.mpr ⟨toLeft, honest⟩⟩

private theorem InStep.heardLeft {p : Packet} {rest : List Packet} (h : InStep J l)
    (allowed : smooth J l .toLeft = true) (pending : l.toLeft = p :: rest)
    (received : receive J l.left p = .ok (E, out)) :
    InStep J { l with left := E, toLeft := rest, toRight := l.toRight ++ out } := by
  simp only [smooth, pending, Bool.and_eq_true, Bool.or_eq_true, decide_eq_true_eq] at allowed
  obtain ⟨hears, ⟨a, b, receiver, sender, path⟩, toLeft⟩ := h
  rw [pending] at toLeft
  obtain ⟨honest, later⟩ := List.forall_mem_cons.mp toLeft
  obtain ⟨t, taken, rfl, rfl⟩ := receive_heard received hears.1 allowed.1
  have fresh : ∀ msg, p.type = .TransferResume →
      parseTransferResume J p.payload = some msg →
      ∀ item, l.left.session.sendManifest.items[msg.fileIndex.toNat]? = some item →
        msg.resumeOffset = 0 ∨ (l.left.session.disk.content item.sourceAbsolutePath).length <
          msg.resumeOffset.toNat := by
    intro msg type parsed item found
    rcases allowed.2 with other | good
    · exact absurd type other
    · simpa [parsed, fromStart, found] using good
  obtain ⟨sent, c, outbox, run, tied⟩ := sender.packet
    (sender_move sender.role taken honest.1) honest fresh
  rw [sentSince_eq outbox]
  exact ⟨hears, ⟨a, c, receiver, tied, path.append run⟩, later⟩

end Moves

private theorem inStep_run {start l : Link B} {moves : List (Duplex.Move LocalEvent)}
    (run : Run (Guarded (Steps J) fun l move => smooth J l move = true) start moves l)
    (initial : InStep J start) : l.right.session.disk.AllSucceeded → InStep J l := by
  refine Duplex.invariant (fun l => l.right.session.disk.AllSucceeded → InStep J l) ?_ ?_ ?_ ?_
    run fun _ => initial
  · intro d e E out h _ acted succeeded
    exact (h succeeded).left acted
  · intro d e E out h _ acted succeeded
    exact (h (act_before acted succeeded)).right acted
  · intro d p rest E out h allowed pending received succeeded
    have before := receive_before received succeeded
    exact (h before).heardRight allowed pending received succeeded
  · intro d p rest E out h allowed pending received succeeded
    exact (h succeeded).heardLeft allowed pending received

/-- Where the sender resumes only from the start of a file, no checksum ever differs and neither
side fails, however pauses, resumptions and messages cross. -/
theorem resumption_in_step (J : QJson) {start l : Link B}
    {moves : List (Duplex.Move LocalEvent)} (initial : Start J start)
    (sources : ∀ item ∈ start.left.session.sendManifest.items,
      FileReader.Readable start.left.session.disk item.sourceAbsolutePath)
    (run : Run (Guarded (Steps J) fun l move => smooth J l move = true) start moves l)
    (succeeded : l.right.session.disk.AllSucceeded) :
    (∀ ack, ⟨.FileAck, 0, serializeFileAck ack⟩ ∈ l.right.session.outbox → ack.statusCode = 0) ∧
      l.left.session.status ≠ .Failed ∧ l.right.session.status ≠ .Failed := by
  have first : InStep J start := by
    have offered := initial.offered
    have accepted := initial.accepted
    refine ⟨initial.deaf, ⟨none, none, ?_, ?_, ?_⟩, ?_⟩
    · refine ⟨accepted.direction, accepted.fileReader, ?_, nofun, fun p mem type => ?_⟩
      · rw [accepted.status]
        exact nofun
      · rcases accepted.outbox p mem with other | other <;> rw [type] at other <;> cases other
    · refine ⟨offered.direction, offered.connected, ?_, offered.chunkSize, sources, ?_⟩
      · rw [offered.status]
        exact nofun
      · rw [offered.fileReader]
        exact nofun
    · rw [initial.toRight]
      exact .nil
    · rw [initial.toLeft]
      intro p mem
      rw [List.mem_singleton.mp mem]
      refine ⟨by simp [acceptance, receiverTypes], fun _ msg parsed => ?_, nofun⟩
      obtain ⟨read, eq, -, -, offset⟩ := parseTransferAccept_serialize J
        ⟨start.right.session.transferId, start.right.session.localDeviceName, true, 0, 0⟩
      dsimp only [acceptance] at parsed
      rw [eq] at parsed
      cases parsed
      exact offset
  obtain ⟨-, ⟨a, b, receiver, sender, -⟩, -⟩ := inStep_run run first succeeded
  refine ⟨fun ack mem => ?_, sender.status, receiver.status⟩
  obtain ⟨ack', eq, ok⟩ := receiver.acks _ mem rfl
  exact (serializeFileAck_inj eq).2.trans ok

/-- A file of one byte, sent again from its start after the receiver paused and resumed. -/
theorem resumption_in_step_oneByte :
    ∃ l : Link Blake3.vendored, l.right.session.outbox.length = 4 ∧
      (∀ ack, ⟨.FileAck, 0, serializeFileAck ack⟩ ∈ l.right.session.outbox →
          ack.statusCode = 0) ∧
        l.left.session.status ≠ .Failed ∧ l.right.session.status ≠ .Failed := by
  let start := sending [(literal "x", [7])] 1 .Rename
  let moves : List (Duplex.Move LocalEvent) :=
    [.toLeft, .right .pause, .right .resume, .toLeft, .toLeft, .left .sendNextChunk, .toRight,
      .toRight, .toRight, .toRight, .toRight, .toLeft]
  have computed : (moves.foldlM (tryGuarded (smooth CompactJson.codec)) start).map (fun l =>
      (l.right.session.outbox.length, decide l.right.session.disk.AllSucceeded)) =
        some (4, true) := by
    decide +kernel
  obtain ⟨l, reached, eq⟩ := Option.map_eq_some_iff.mp computed
  obtain ⟨length, succeeded⟩ := Prod.mk.inj eq
  refine ⟨l, length, resumption_in_step CompactJson.codec (start_accepted ..) ?_
    (run_tryGuarded reached) (of_decide_eq_true succeeded)⟩
  intro item mem
  cases List.mem_singleton.mp mem
  exact ⟨by decide, rfl, rfl, by decide⟩

/-- The receiver pauses and resumes in the middle of a file of two bytes. -/
theorem resumption_mismatch :
    (([.toLeft, .toRight, .toRight, .right .pause, .right .resume, .toLeft, .toLeft,
      .left .sendNextChunk, .toRight, .toRight, .toRight, .toLeft].foldlM tryStep
        (sending [(literal "x", [7, 8])] 1 .Rename)).map fun l =>
          (l.left.session.status, (l.left.handled.getLast?.bind fun p =>
            parseFileAck p.payload).map MsgFileAck.statusCode,
            decide l.right.session.disk.AllSucceeded)) =
      some (.Failed, some 1, true) := by
  decide +kernel

end FastTransfer.Link
