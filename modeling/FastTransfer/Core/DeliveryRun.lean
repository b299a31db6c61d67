/- FastTransfer/Core/DeliveryRun
   source: src/core/TransferSession.cpp, src/filesystem/FileWriter.cpp
   digest: A link over which a manifest is sent, in any order of events and deliveries. -/

import FastTransfer.Core.Delivery

set_option autoImplicit false
set_option relaxedAutoImplicit false

namespace FastTransfer.TransferSession

open Protocol

variable {B : Blake3} {J : QJson}

/-- The packets sent between two states, among which no chunk overruns its size field. -/
def SendsSmall (before after : TransferSession B) : Prop :=
  ∃ sent : List Packet, after.outbox = before.outbox ++ sent ∧
    ∀ p ∈ sent, p.type = .FileDataChunk → p.payload.length < 2 ^ 32

private theorem SendsSmall.other {s t : TransferSession B} {types : List MessageType}
    (h : Sends types s t) (other : .FileDataChunk ∉ types) : SendsSmall s t := by
  obtain ⟨sent, outbox, each⟩ := h
  exact ⟨sent, outbox, fun p mem type => absurd (type ▸ each p mem) other⟩

theorem NextChunk.small {s t : TransferSession B} (h : NextChunk s t) : SendsSmall s t := by
  cases h with
  | idle => exact .other (.refl [] s) List.not_mem_nil
  | fileEnd reader => exact .other (sends_sendPacket s .FileEnd _) (by decide)
  | readFailed reader => exact .other (.refl [] s) List.not_mem_nil
  | sendFailed reader => exact .other (.refl [] s) List.not_mem_nil
  | chunk reader active ended nonempty online payload written =>
      obtain ⟨fits, rfl⟩ := serializeFileDataChunk_some (reader.readNextChunk_length s.disk) written
      refine ⟨[_], sendPacket_outbox (s := s.afterRead reader) online _ _, ?_⟩
      rintro p mem -
      rw [List.mem_singleton.mp mem, chunkBytes_length]
      omega

theorem StartFile.small {s t : TransferSession B} {fileIndex startOffset : UInt64}
    (h : StartFile J s fileIndex startOffset t) : SendsSmall s t := by
  cases h with
  | finished => exact .other (sends_sendPacket s .TransferComplete _) (by decide)
  | unopened item => exact .other (.refl [] s) List.not_mem_nil
  | started item found opened next sent =>
      obtain ⟨first, outbox, each⟩ :=
        SendsSmall.other (sends_sendPacket s .FileStart _) (by decide)
      obtain ⟨later, outbox', each'⟩ := sent.small
      refine ⟨first ++ later, ?_, fun p mem => ?_⟩
      · rw [outbox', ← List.append_assoc]
        exact congrArg (· ++ later) outbox
      · rcases List.mem_append.mp mem with mem | mem
        · exact each p mem
        · exact each' p mem

/-- A sender of the stream at a place, with the packets on their way to it: its offer is still
to be accepted, or every file that ended is acknowledged in full. -/
inductive SentAt (J : QJson) (s : TransferSession B) (D : Delivery) : Cursor → List Packet → Prop
  | offered {accept : Packet} {msg : MsgTransferAccept} (none : s.fileReader = none)
      (status : s.status = .WaitingApproval) (total : s.metrics.totalTransferred = 0)
      (type : accept.type = .TransferAccept)
      (parsed : parseTransferAccept J accept.payload = some msg) (yes : msg.accepted = true)
      (first : msg.startFileIndex = 0 ∧ msg.resumeOffset = 0) :
      SentAt J s D (.between 0 D.items) [accept]
  | streaming {cursor : Cursor} {incoming : List Packet} (place : SenderAt s cursor)
      (status : s.status = .Transferring ∧ 0 < cursor.unacked ∨
        s.status = .Completed ∧ cursor.unacked = 0)
      (acks : ∀ p ∈ incoming, D.GoodAck p) : SentAt J s D cursor incoming

theorem SentAt.answered {s : TransferSession B} {D : Delivery} {cursor : Cursor}
    {incoming answers : List Packet} (h : SentAt J s D cursor incoming)
    (started : s.status ≠ .WaitingApproval) (good : ∀ p ∈ answers, D.GoodAck p) :
    SentAt J s D cursor (incoming ++ answers) := by
  cases h with
  | offered none status => exact absurd status started
  | streaming place status acks =>
      refine .streaming place status fun p mem => ?_
      rcases List.mem_append.mp mem with earlier | new
      · exact acks p earlier
      · exact good p new

/-- A sender that has sent what is in front of a place of the stream. -/
structure SendingAt (J : QJson) (s : TransferSession B) (D : Delivery) (cursor : Cursor)
    (incoming : List Packet) : Prop where
  role : s.direction = .Send
  supplied : Supplied s
  stream : s.dataStream J = D.stream
  manifest : s.sendManifest.items = D.items
  place : SentAt J s D cursor incoming

structure Streams (J : QJson) (D : Delivery) (packets : List Packet) (unacked : Nat)
    (incoming : List Packet) (s t : TransferSession B) : Prop where
  place : ∃ cursor, packets = sentSince s t ++ D.stream.remaining cursor ∧
    cursor.unacked = unacked ∧ SendingAt J t D cursor incoming
  small : ∀ p ∈ sentSince s t, p.type = .FileDataChunk → p.payload.length < 2 ^ 32
  quiet : t.status = .WaitingApproval → sentSince s t = []

private theorem Streams.congr {s u t : TransferSession B} {D : Delivery} {packets : List Packet}
    {unacked : Nat} {incoming : List Packet} (h : Streams J D packets unacked incoming u t)
    (outbox : u.outbox = s.outbox) : Streams J D packets unacked incoming s t := by
  have same : sentSince s t = sentSince u t := by rw [sentSince, sentSince, outbox]
  refine ⟨?_, ?_, ?_⟩
  · rw [same]
    exact h.place
  · rw [same]
    exact h.small
  · rw [same]
    exact h.quiet

private theorem SendingAt.frame {s t : TransferSession B} {D : Delivery} {cursor : Cursor}
    {incoming : List Packet} (h : SendingAt J s D cursor incoming) (same : Frame s t)
    (status : t.status = s.status) : SendingAt J t D cursor incoming := by
  have metrics := congrArg TransferMetrics.totalTransferred same.metrics
  refine ⟨same.direction.trans h.role,
    h.supplied.congr same.connected same.sendManifest same.chunkSize same.disk,
    (dataStream_congr same.transferId same.sendManifest same.chunkSize same.disk).trans h.stream,
    same.sendManifest ▸ h.manifest, ?_⟩
  cases h.place with
  | offered none was total type parsed yes first =>
      exact .offered (same.fileReader.trans none) (status.trans was) (metrics.trans total) type
        parsed yes first
  | streaming place was acks =>
      refine .streaming ?_ (status ▸ was) acks
      exact place.congr same.sendManifest same.currentFileIndex same.waitingFileAck
        same.fileReader same.chunkSize metrics same.disk

private theorem SendingAt.idle {s t : TransferSession B} {D : Delivery} {cursor : Cursor}
    {incoming : List Packet} (h : SendingAt J t D cursor incoming) (outbox : t.outbox = s.outbox) :
    Streams J D (D.stream.remaining cursor) cursor.unacked incoming s t := by
  have nothing : sentSince s t = [] := sentSince_eq (by rw [outbox, List.append_nil])
  refine ⟨⟨cursor, ?_, rfl, h⟩, ?_, fun _ => nothing⟩
  · rw [nothing]
    rfl
  · rw [nothing]
    exact List.forall_mem_nil _

private theorem SendingAt.next {s t : TransferSession B} {D : Delivery} {cursor : Cursor}
    {incoming : List Packet} (h : SendingAt J s D cursor incoming) (next : NextChunk s t) :
    Streams J D (D.stream.remaining cursor) cursor.unacked incoming s t := by
  have same := next.sameReceiver
  have place := h.place
  cases place with
  | offered none =>
      cases next.absent none
      exact h.idle rfl
  | streaming place was acks =>
      obtain ⟨⟨sent, cursor', outbox, left, reached, unacked⟩, status⟩ :=
        place.nextChunk (J := J) h.supplied next
      rw [h.stream] at left
      obtain ⟨sent', outbox', small⟩ := next.small
      obtain rfl : sent' = sent := List.append_cancel_left (outbox'.symm.trans outbox)
      refine ⟨⟨cursor', by rw [sentSince_eq outbox]; exact left, unacked,
        ⟨same.direction.trans h.role, same.supplied h.supplied, same.dataStream.trans h.stream,
          same.sendManifest ▸ h.manifest, .streaming reached ?_ acks⟩⟩, ?_, fun waiting => ?_⟩
      · rw [status, unacked]
        exact was
      · rw [sentSince_eq outbox]
        exact small
      · rw [status] at waiting
        rcases was with ⟨running, -⟩ | ⟨completed, -⟩
        · cases running.symm.trans waiting
        · cases completed.symm.trans waiting

private theorem SendingAt.start {s t : TransferSession B} {D : Delivery} {j : UInt64}
    {incoming : List Packet} (role : s.direction = .Send) (supplied : Supplied s)
    (stream : s.dataStream J = D.stream) (manifest : s.sendManifest.items = D.items)
    (running : s.status = .Transferring)
    (total : s.metrics.totalTransferred =
      UInt64.ofNat (s.sizeOf (s.sendManifest.items.take j.toNat)))
    (idle : s.waitingFileAck = true ∨ s.fileReader = none) (acks : ∀ p ∈ incoming, D.GoodAck p)
    (start : StartFile J s j 0 t) :
    Streams J D (D.stream.remaining (.between j.toNat (D.items.drop j.toNat)))
      (D.items.drop j.toNat).length incoming s t ∧ t.status ≠ .WaitingApproval := by
  have same := start.sameReceiver
  obtain ⟨⟨sent, cursor, outbox, left, reached, unacked⟩, status⟩ :=
    SenderAt.startFile (J := J) supplied total idle start
  rw [stream, manifest] at left
  rw [manifest] at unacked status
  obtain ⟨sent', outbox', small⟩ := start.small
  obtain rfl : sent' = sent := List.append_cancel_left (outbox'.symm.trans outbox)
  have moved : t.status ≠ .WaitingApproval := by
    rcases status with ⟨same, -⟩ | ⟨completed, -⟩
    · rw [same, running]
      decide
    · rw [completed]
      decide
  refine ⟨⟨⟨cursor, by rw [sentSince_eq outbox]; exact left, unacked,
    ⟨same.direction.trans role, same.supplied supplied, same.dataStream.trans stream,
      same.sendManifest ▸ manifest, .streaming reached ?_ acks⟩⟩, ?_,
    fun waiting => absurd waiting moved⟩, moved⟩
  · rw [unacked, List.length_drop]
    rcases status with ⟨same, more⟩ | ⟨completed, done⟩
    · exact .inl ⟨same.trans running, by omega⟩
    · exact .inr ⟨completed, by omega⟩
  · rw [sentSince_eq outbox]
    exact small

theorem SendingAt.local {s t : TransferSession B} {D : Delivery} {cursor : Cursor}
    {incoming : List Packet} {e : LocalEvent} (h : SendingAt J s D cursor incoming)
    (step : LocalStep J s e t) (plain : e.isControl = false) :
    Streams J D (D.stream.remaining cursor) cursor.unacked incoming s t := by
  cases step with
  | aside same status outbox => exact (h.frame same status).idle outbox
  | paused => cases plain
  | resumed => cases plain
  | resumedSending => cases plain
  | next same status outbox next => exact ((h.frame same status).next next).congr outbox

theorem LocalStep.was_waiting {s t : TransferSession B} {e : LocalEvent}
    (step : LocalStep J s e t) (waiting : t.status = .WaitingApproval) :
    s.status = .WaitingApproval := by
  cases step with
  | aside same status => exact status.symm.trans waiting
  | next same status outbox next =>
      rcases next.progress.2 with kept | failed
      · exact (kept.trans status).symm.trans waiting
      · cases failed.symm.trans waiting
  | paused was =>
      rw [pause, if_pos was] at waiting
      cases waiting
  | resumed => cases waiting
  | resumedSending was role next =>
      rcases next.progress.2 with kept | failed
      · cases kept.symm.trans waiting
      · cases failed.symm.trans waiting

/-- The acceptance starts the first file; an acknowledgement that is due finds the sender between
two files and starts the next. -/
theorem SendingAt.packet {s t : TransferSession B} {D : Delivery} {cursor : Cursor} {p : Packet}
    {rest : List Packet} (h : SendingAt J s D cursor (p :: rest))
    (due : cursor.ends < cursor.unacked) (taken : Steps J s (.packet p) t) :
    Streams J D (D.stream.remaining cursor) (cursor.unacked - 1) rest s t ∧
      t.status ≠ .WaitingApproval := by
  obtain ⟨role, supplied, stream, manifest, place⟩ := h
  cases place with
  | @offered _ msg none status total type parsed yes first =>
      obtain ⟨type', flags, payload⟩ := p
      cases type
      rcases onTransferAccept_cases taken with ⟨-, refused⟩ | ⟨msg', parsed', -, start⟩
      · rw [refused msg parsed] at yes
        cases yes
      cases parsed'.symm.trans parsed
      rw [first.1, first.2] at start
      have begun : Supplied s.begin :=
        ⟨supplied.connected, supplied.chunkSize, supplied.short, supplied.sources⟩
      have own : s.begin.dataStream J = D.stream := (dataStream_congr rfl rfl rfl rfl).trans stream
      have nothing : s.begin.metrics.totalTransferred =
          UInt64.ofNat (s.begin.sizeOf (s.begin.sendManifest.items.take (UInt64.toNat 0))) := total
      obtain ⟨streams, moved⟩ := SendingAt.start (s := s.begin) role begun own manifest rfl nothing
        (.inr none) (List.forall_mem_nil _) start
      exact ⟨streams.congr rfl, moved⟩
  | streaming place was acks =>
      obtain ⟨ack, item, mem, rfl, ok, bytes, length⟩ := acks p List.mem_cons_self
      have running : s.status = .Transferring := by
        rcases was with ⟨running, -⟩ | ⟨-, none⟩
        · exact running
        · omega
      have parsed : parseFileAck (serializeFileAck ack) = some ack :=
        parseFileAck_serialize (by rw [length]; decide)
      rcases onFileAck_cases taken with
        ⟨-, unread⟩ | ⟨ack', parsed', ⟨bad, -⟩ | ⟨-, reader, found, start⟩⟩
      · cases parsed.symm.trans unread
      · cases parsed.symm.trans parsed'
        exact absurd ok bad
      · cases place with
        | @between behind inside suffix waiting isSome total =>
            have short := supplied.short
            have index : (s.currentFileIndex + 1).toNat = s.currentFileIndex.toNat + 1 := by
              rw [UInt64.toNat_add]
              exact Nat.mod_eq_of_lt (show s.currentFileIndex.toNat + 1 < 2 ^ 64 by omega)
            rw [← index] at suffix total
            have own : ((s.ackReceived ack').closeReader reader).dataStream J = D.stream :=
              (dataStream_congr rfl rfl rfl rfl).trans stream
            obtain ⟨streams, moved⟩ := SendingAt.start
              (s := (s.ackReceived ack').closeReader reader) role (supplied.congr rfl rfl rfl rfl)
              own manifest running total (.inl waiting) (fun q mem => acks q (.tail _ mem)) start
            rw [← manifest, suffix, index] at streams
            exact ⟨streams.congr rfl, moved⟩
        | sending => exact absurd due (Nat.lt_irrefl _)
        | done => exact absurd due (Nat.lt_irrefl _)

end FastTransfer.TransferSession

namespace FastTransfer.Link

open TransferSession Protocol
open FileWriter (partialSuffix resolveUniqueName)
open QString (literal)

variable {B : Blake3} {J : QJson}

/-- Both ends hear each other, and what is under way to the receiver leads it to the place that
the sender has reached. -/
structure Delivering (J : QJson) (D : Delivery) (l : Link B) : Prop where
  hears : l.left.deaf = false ∧ l.right.deaf = false
  place : ∃ ahead behind, SendingAt J l.left.session D ahead l.toLeft ∧
    ReceiverAt l.right.session D behind ∧
    l.toRight ++ D.stream.remaining ahead = D.stream.remaining behind ∧
    l.toLeft.length + behind.ends = ahead.unacked
  small : ∀ p ∈ l.toRight, p.type = .FileDataChunk → p.payload.length < 2 ^ 32
  quiet : l.left.session.status = .WaitingApproval → l.toRight = []

variable {D : Delivery} {d : Link B} {E : Endpoint B} {out : List Packet}

private theorem small_append {a b : List Packet}
    (first : ∀ p ∈ a, p.type = .FileDataChunk → p.payload.length < 2 ^ 32)
    (second : ∀ p ∈ b, p.type = .FileDataChunk → p.payload.length < 2 ^ 32) :
    ∀ p ∈ a ++ b, p.type = .FileDataChunk → p.payload.length < 2 ^ 32 := by
  intro p mem
  rcases List.mem_append.mp mem with mem | mem
  · exact first p mem
  · exact second p mem

theorem Delivering.left {e : LocalEvent} (h : Delivering J D d) (plain : e.isControl = false)
    (acted : act J d.left e = .ok (E, out)) :
    Delivering J D { d with left := E, toRight := d.toRight ++ out } := by
  obtain ⟨t, -, step, rfl, rfl⟩ := act_ok acted
  obtain ⟨ahead, behind, sender, receiver, path, count⟩ := h.place
  obtain ⟨⟨ahead', left, unacked, sender'⟩, small, quiet⟩ := sender.local step plain
  refine ⟨h.hears, ⟨ahead', behind, sender', receiver, ?_, ?_⟩, small_append h.small small,
    fun waiting => ?_⟩
  · rw [List.append_assoc, ← left]
    exact path
  · rw [unacked]
    exact count
  · rw [quiet waiting, List.append_nil]
    exact h.quiet (step.was_waiting waiting)

private theorem local_plain {s t : TransferSession B} {e : LocalEvent} (step : LocalStep J s e t)
    (plain : e.isControl = false) : t.disk = s.disk ∧ t.fileWriter = s.fileWriter ∧
      (t.status = s.status ∨ t.status = .Failed) ∧
      (s.fileReader = none → Frame s t ∧ t.status = s.status ∧ t.outbox = s.outbox) := by
  cases step with
  | aside same status outbox =>
      exact ⟨same.disk, same.fileWriter, .inl status, fun _ => ⟨same, status, outbox⟩⟩
  | paused => cases plain
  | resumed => cases plain
  | resumedSending => cases plain
  | next same status outbox next =>
      have kept := next.sameReceiver
      refine ⟨kept.disk.trans same.disk, kept.fileWriter.trans same.fileWriter, ?_, fun none => ?_⟩
      · rw [← status]
        exact next.progress.2
      · cases next.absent (same.fileReader.trans none)
        exact ⟨same, status, outbox⟩

theorem Delivering.right {e : LocalEvent} (h : Delivering J D d) (plain : e.isControl = false)
    (acted : act J d.right e = .ok (E, out)) :
    Delivering J D { d with right := E, toLeft := d.toLeft ++ out } ∧ out = [] := by
  obtain ⟨t, -, step, rfl, rfl⟩ := act_ok acted
  obtain ⟨ahead, behind, sender, receiver, path, count⟩ := h.place
  obtain ⟨same, status, outbox⟩ := (local_plain step plain).2.2.2 receiver.noReader
  have nothing : sentSince d.right.session t = [] :=
    sentSince_eq (by rw [outbox, List.append_nil])
  rw [nothing, List.append_nil]
  exact ⟨⟨h.hears, ⟨ahead, behind, sender, receiver.frame same status outbox, path, count⟩,
    h.small, h.quiet⟩, rfl⟩

theorem Delivering.toRight {p : Packet} {rest : List Packet} (listed : D.Listed B)
    (h : Delivering J D d) (pending : d.toRight = p :: rest) (acceptable : p.Acceptable)
    (clear : ∀ item ∈ D.items, ∀ i, p = D.stream.startPacket i item →
      d.right.session.disk.hasFile
        (resolveUniqueName d.right.session.disk (D.target item) ++ partialSuffix) = false)
    (received : receive J d.right p = .ok (E, out))
    (succeeded : E.session.disk.AllSucceeded) :
    Delivering J D { d with right := E, toRight := rest, toLeft := d.toLeft ++ out } ∧
      (∀ p ∈ out, D.GoodAck p) ∧
      ∀ path content, d.right.session.Holds path content → E.session.Holds path content := by
  obtain ⟨ahead, behind, sender, receiver, path, count⟩ := h.place
  have small := h.small
  rw [pending] at path small
  obtain ⟨t, taken, rfl, rfl⟩ := receive_heard received h.hears.2 acceptable
  obtain ⟨⟨behind', left, receiver', ends⟩, answers, holds⟩ := receiver.packet listed path.symm
    acceptable (small p List.mem_cons_self) clear taken succeeded
  have started : d.left.session.status ≠ .WaitingApproval := by
    intro waiting
    cases pending.symm.trans (h.quiet waiting)
  refine ⟨⟨h.hears, ⟨ahead, behind', ?_, receiver', left.symm, ?_⟩,
    fun q mem => small q (.tail p mem), fun waiting => absurd waiting started⟩, answers, holds⟩
  · exact ⟨sender.role, sender.supplied, sender.stream, sender.manifest,
      sender.place.answered started answers⟩
  · dsimp only
    rw [List.length_append]
    omega

theorem Delivering.toLeft {p : Packet} {rest : List Packet} (h : Delivering J D d)
    (pending : d.toLeft = p :: rest) (acceptable : p.Acceptable)
    (received : receive J d.left p = .ok (E, out)) :
    Delivering J D { d with left := E, toLeft := rest, toRight := d.toRight ++ out } := by
  obtain ⟨ahead, behind, sender, receiver, path, count⟩ := h.place
  rw [pending] at sender count
  obtain ⟨t, taken, rfl, rfl⟩ := receive_heard received h.hears.1 acceptable
  -- the receiver is not ahead of the sender, so some acknowledgement is for the sender's file
  have later : ahead.ends ≤ behind.ends := by
    rw [← D.stream.count_remaining ahead, ← D.stream.count_remaining behind, ← path,
      List.countP_append]
    exact Nat.le_add_left _ _
  rw [List.length_cons] at count
  obtain ⟨⟨⟨ahead', left, unacked, sender'⟩, small, -⟩, moved⟩ :=
    sender.packet (by omega) taken
  refine ⟨h.hears, ⟨ahead', behind, sender', receiver, ?_, ?_⟩, small_append h.small small,
    fun waiting => absurd waiting moved⟩
  · rw [List.append_assoc, ← left]
    exact path
  · dsimp only
    omega

/-- The transfer has stopped for good before its end: one end has refused a packet. -/
structure Halted (l : Link B) : Prop where
  unfinished : l.right.session.status ≠ .Completed
  stuck : l.right.deaf = true ∨
    l.left.deaf = true ∧ l.left.session.fileReader = none ∧ l.toRight = []

private theorem unfinished {s : TransferSession B} {cursor : Cursor} (h : ReceiverAt s D cursor)
    (more : D.stream.remaining cursor ≠ []) : s.status ≠ .Completed := by
  have place := h.place
  intro completed
  cases place with
  | between suffix running => cases running.symm.trans completed
  | sending suffix running => cases running.symm.trans completed
  | done => exact more rfl

private theorem not_completed {before after : TransferStatus} (h : before ≠ .Completed)
    (moved : after = before ∨ after = .Failed) : after ≠ .Completed := by
  rcases moved with same | failed
  · rwa [same]
  · rw [failed]
    decide

theorem goodAck_acceptable {p : Packet} (h : D.GoodAck p) : p.Acceptable := by
  obtain ⟨ack, item, -, rfl, -, -, length⟩ := h
  left
  have limit : MAX_METADATA_PAYLOAD_SIZE.toNat = 67108864 := rfl
  simp only [serializeFileAck, List.length_append, QDataStream.writeString_length,
    QDataStream.writeU64_length, QDataStream.writeU32_length, length]
  omega

/-- No user calls anything, and a file that is about to start finds none at the staging path of
the name it will be given. -/
def unobstructed (l : Link B) : Duplex.Move LocalEvent → Bool
  | .left e | .right e => !e.isControl
  | .toRight =>
      match l.toRight with
      | ⟨.FileStart, _, payload⟩ :: _ =>
          match parseFileStart payload with
          | some start =>
              let r := l.right.session
              let target := FileWriter.targetPath r.baseOutputDir r.subFolder start.relativePath
              !r.disk.hasFile (resolveUniqueName r.disk target ++ partialSuffix)
          | none => true
      | _ => true
  | .toLeft => true

theorem unobstructed_clear (listed : D.Listed B) {behind : Cursor}
    (receiver : ReceiverAt d.right.session D behind) {p : Packet} {rest : List Packet}
    (pending : d.toRight = p :: rest) (acceptable : p.Acceptable)
    (allowed : unobstructed d .toRight = true) :
    ∀ item ∈ D.items, ∀ i, p = D.stream.startPacket i item →
      d.right.session.disk.hasFile
        (resolveUniqueName d.right.session.disk (D.target item) ++ partialSuffix) = false := by
  rintro item mem i rfl
  have parsed := listed.parsed mem acceptable
  have target := receiver.target listed mem
  rw [DataStream.startPacket] at parsed pending
  simp only [unobstructed, pending, parsed] at allowed
  rw [show (D.announced i item).relativePath = item.relativePath from rfl, target] at allowed
  simpa using allowed

private theorem Halted.left {e : LocalEvent} (h : Halted d) (plain : e.isControl = false)
    (acted : act J d.left e = .ok (E, out)) :
    Halted { d with left := E, toRight := d.toRight ++ out } := by
  obtain ⟨t, -, step, rfl, rfl⟩ := act_ok acted
  refine ⟨h.unfinished, ?_⟩
  rcases h.stuck with deaf | ⟨deaf, none, nothing⟩
  · exact .inl deaf
  · obtain ⟨same, -, outbox⟩ := (local_plain step plain).2.2.2 none
    refine .inr ⟨deaf, same.fileReader.trans none, ?_⟩
    rw [nothing, sentSince_eq (by rw [outbox, List.append_nil])]
    rfl

private theorem Halted.right {e : LocalEvent} (h : Halted d) (plain : e.isControl = false)
    (acted : act J d.right e = .ok (E, out)) :
    Halted { d with right := E, toLeft := d.toLeft ++ out } := by
  obtain ⟨t, -, step, rfl, -⟩ := act_ok acted
  exact ⟨not_completed h.unfinished (local_plain step plain).2.2.1, h.stuck⟩

private theorem Halted.toRight {p : Packet} {rest : List Packet} (h : Halted d)
    (pending : d.toRight = p :: rest) (received : receive J d.right p = .ok (E, out)) :
    Halted { d with right := E, toRight := rest, toLeft := d.toLeft ++ out } := by
  rcases h.stuck with deaf | ⟨-, -, nothing⟩
  · obtain ⟨rfl, -⟩ := receive_refused received (.inl deaf)
    exact ⟨not_completed h.unfinished (refuse_frame _).2.2, .inl rfl⟩
  · cases pending.symm.trans nothing

private theorem Halted.toLeft {p : Packet} {rest : List Packet} (h : Halted d)
    (received : receive J d.left p = .ok (E, out)) :
    Halted { d with left := E, toLeft := rest, toRight := d.toRight ++ out } := by
  refine ⟨h.unfinished, ?_⟩
  rcases h.stuck with deaf | ⟨deaf, none, nothing⟩
  · exact .inl deaf
  · obtain ⟨rfl, rfl⟩ := receive_refused received (.inl deaf)
    refine .inr ⟨rfl, (refuse_frame _).1.fileReader.trans none, ?_⟩
    rw [nothing]
    rfl

/-- The transfer is under way or halted, and what the receiver held at an earlier moment it still
holds, provided that its disk did all it was asked to do. -/
def Kept (J : QJson) (D : Delivery) (m l : Link B) : Prop :=
  l.right.session.disk.AllSucceeded → (Delivering J D l ∨ Halted l) ∧
    ∀ path content, m.right.session.Holds path content → l.right.session.Holds path content

def delivery (J : QJson) (l : Link B) : Delivery where
  stream := l.left.session.dataStream J
  items := l.left.session.sendManifest.items
  folder := l.right.session.sessionFolder
  base := l.right.session.disk

theorem delivery_content (J : QJson) {l : Link B} (positive : 0 < l.left.session.chunkSize)
    (item : LocalFileItem) : (delivery J l).content item = l.left.session.content item :=
  Slices.flatten_count _ (UInt32.lt_iff_toNat_lt.mp positive)

/-- A manifest of readable files of the listed sizes, under names that sanitising keeps. -/
@[mk_iff] structure Deliverable (s : TransferSession B) : Prop where
  short : s.sendManifest.items.length < 2 ^ 63
  sources : ∀ item ∈ s.sendManifest.items, FileReader.Readable s.disk item.sourceAbsolutePath
  sizes : ∀ item ∈ s.sendManifest.items, item.fileSize.toNat = (s.content item).length
  nonempty : ∀ item ∈ s.sendManifest.items, item.relativePath ≠ []
  fixed : ∀ item ∈ s.sendManifest.items,
    PlatformFilesystem.sanitizePath item.relativePath = item.relativePath

instance (s : TransferSession B) : Decidable (Deliverable s) :=
  decidable_of_iff _ (deliverable_iff s).symm

theorem Deliverable.listed {l : Link B} (sound : Deliverable l.left.session)
    (positive : 0 < l.left.session.chunkSize) : (delivery J l).Listed B := by
  refine ⟨l.right.session.sessionFolder_folder, fun item mem => ?_, fun item mem => ?_,
    sound.nonempty, sound.fixed, fun _ _ => rfl⟩
  · rw [delivery_content J positive]
    exact sound.sizes item mem
  · rw [delivery_content J positive]
    exact (sound.sources item mem).length

theorem Start.delivering {l : Link B} (initial : Start J l) (sound : Deliverable l.left.session)
    (policy : l.right.session.duplicatePolicy = .Rename ∨ (delivery J l).Vacant) :
    Delivering J (delivery J l) l := by
  have offered := initial.offered
  have accepted := initial.accepted
  obtain ⟨msg, parsed, yes, first⟩ := parseTransferAccept_serialize J
    ⟨l.right.session.transferId, l.right.session.localDeviceName, true, 0, 0⟩
  have sender : SendingAt J l.left.session (delivery J l) (.between 0 (delivery J l).items)
      l.toLeft := by
    refine ⟨offered.direction, ⟨offered.connected, offered.chunkSize, sound.short, sound.sources⟩,
      rfl, rfl, ?_⟩
    rw [initial.toLeft]
    exact .offered offered.fileReader offered.status offered.totalTransferred rfl parsed yes first
  have receiver : ReceiverAt l.right.session (delivery J l) (.between 0 (delivery J l).items) := by
    refine ⟨accepted.direction, accepted.fileReader, accepted.connected, policy, rfl,
      fun p mem type => ?_, ?_⟩
    · rcases accepted.outbox p mem with other | other
      · cases type.symm.trans other
      · cases type.symm.trans other
    · have nothing : l.right.session.Stored (delivery J l) [] [] := by
        refine ⟨List.nodup_nil, .nil, ?_⟩
        rintro _ ⟨⟩
      refine .between rfl accepted.status nothing (fun _ => rfl) ?_
      rintro _ ⟨⟩
  refine ⟨initial.deaf, ⟨_, _, sender, receiver, ?_, ?_⟩, ?_, fun _ => initial.toRight⟩
  · rw [initial.toRight]
    rfl
  · rw [initial.toLeft]
    exact Nat.add_comm 1 _
  · rw [initial.toRight]
    exact List.forall_mem_nil _

/-- The contents are files inside a folder, each at a path of its own. -/
def Delivered (d : Disk) (folder : QString) (contents : List QByteArray) : Prop :=
  ∃ place : Fin contents.length → QString, Function.Injective place ∧
    ∀ i, Inside folder (place i) ∧ d.node (place i) = some (.file contents[i])

theorem delivered_of_stored {s : TransferSession B} {paths : List QString}
    (stored : s.Stored D D.items paths) :
    Delivered s.disk D.folder (D.items.map D.content) := by
  have lengths : (D.items.map D.content).length = paths.length := by
    rw [List.length_map]
    exact stored.files.length_eq
  refine ⟨fun i => paths.get (i.cast lengths), fun i j same => ?_, fun i => ?_⟩
  · have index := congrArg Fin.val (stored.nodup.injective_get same)
    exact Fin.ext index
  · have below : i.val < D.items.length := by
      rw [stored.files.length_eq, ← lengths]
      exact i.isLt
    obtain ⟨inside, holds⟩ := (List.forall₂_iff_get.mp stored.files).2 i.val below
      (i.cast lengths).isLt
    refine ⟨inside, holds.found.trans ?_⟩
    rw [Fin.getElem_fin, List.getElem_map]
    rfl

end FastTransfer.Link
