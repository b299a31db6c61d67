/- FastTransfer/Core/Loopback
   source: src/core/TransferSession.cpp, src/network/TcpConnection.cpp,
     tests/test_loopback_transfer.cpp
   digest: Two sessions joined by two byte streams, over which one file is sent. -/

import FastTransfer.Core.DeliveryRun
import FastTransfer.Filesystem.FileEnumerator
import FastTransfer.Library.Framing
import FastTransfer.Network.RoundTrip

set_option autoImplicit false
set_option relaxedAutoImplicit false

namespace FastTransfer

open TransferSession Protocol TcpConnection
open FileWriter (partialSuffix)
open QString (literal)

structure Peer (B : Blake3) where
  session : TransferSession B
  connection : TcpConnection := {}

/-- What the event loop does to a session while its user calls nothing. -/
abbrev Tick := { e : LocalEvent // e.isControl = false }

/-- Undefined behaviour, or a read that does not end. -/
inductive Stop
  | crash (c : Crash)
  | endless

namespace Loopback

variable {B : Blake3} {J : QJson}

/-- The signals of a read are handled in order; the packets sent meanwhile. -/
def hear (J : QJson) :
    TransferSession B → List TcpSignal → Except Crash (TransferSession B × List Packet)
  | s, [] => .ok (s, [])
  | s, .packetReceived p :: later => (step J s (.packet p)).bind fun t =>
      (hear J t later).map fun rest => (rest.1, sentSince s t ++ rest.2)
  | s, .errorOccurred message :: later => hear J (s.onSocketError message).disconnectFromHost later

/-- What happens to a peer, but for what it reads; `event` is what that is to the session. -/
def act {α : Type} (J : QJson) (event : α → TransferSession.Event) (self : Peer B) (e : α) :
    Except Stop (Peer B × QByteArray) :=
  match step J self.session (event e) with
  | .error c => .error (.crash c)
  | .ok t => .ok ({ self with session := t }, (sentSince self.session t).flatMap Packet.bytes)

def read (J : QJson) (self : Peer B) (data : QByteArray) : Except Stop (Peer B × QByteArray) :=
  match self.connection.onReadyRead data with
  | none => .error .endless
  | some (connection, signals) =>
      match hear J self.session signals with
      | .error c => .error (.crash c)
      | .ok (t, sent) => .ok (⟨t, connection⟩, sent.flatMap Packet.bytes)

def reader {α : Type} (J : QJson) (event : α → TransferSession.Event) :
    Reader (Peer B) α UInt8 Stop := ⟨act J event, read J⟩

def event (e : Tick) : TransferSession.Event := e.val.event

/-- The sender is the left party. -/
def Steps (J : QJson) : Wired (Peer B) UInt8 → Wired.Move Tick → Wired (Peer B) UInt8 → Prop :=
  Wired.Steps (reader J event)

theorem hear_packet {p : Packet} {later : List TcpSignal} {s t : TransferSession B}
    {sent : List Packet} (h : hear J s (.packetReceived p :: later) = .ok (t, sent)) :
    ∃ u more, TransferSession.Steps J s (.packet p) u ∧ hear J u later = .ok (t, more) ∧
      sent = sentSince s u ++ more := by
  rw [hear] at h
  obtain ⟨u, taken, h⟩ := Except.ok_of_bind h
  obtain ⟨⟨t', more⟩, rest, eq⟩ := Except.ok_of_map h
  obtain ⟨rfl, rfl⟩ := Prod.mk.inj eq
  exact ⟨u, more, taken, rest, rfl⟩

theorem act_ok {α : Type} {event : α → TransferSession.Event} {x y : Peer B} {e : α}
    {bytes : QByteArray} (h : act J event x e = .ok (y, bytes)) :
    ∃ t, TransferSession.Steps J x.session (event e) t ∧ y = { x with session := t } ∧
      bytes = (sentSince x.session t).flatMap Packet.bytes := by
  unfold act at h
  cases taken : step J x.session (event e) with
  | error c =>
      rw [taken] at h
      cases h
  | ok t =>
      rw [taken] at h
      obtain ⟨rfl, rfl⟩ := Prod.mk.inj (Except.ok.inj h)
      exact ⟨t, taken, rfl, rfl⟩

theorem read_ok {x y : Peer B} {data bytes : QByteArray} (h : read J x data = .ok (y, bytes)) :
    ∃ signals sent, x.connection.onReadyRead data = some (y.connection, signals) ∧
      hear J x.session signals = .ok (y.session, sent) ∧ bytes = sent.flatMap Packet.bytes := by
  unfold read at h
  cases run : x.connection.onReadyRead data with
  | none =>
      rw [run] at h
      cases h
  | some result =>
      rw [run] at h
      dsimp only at h
      cases heard : hear J x.session result.2 with
      | error c =>
          rw [heard] at h
          cases h
      | ok pair =>
          rw [heard] at h
          obtain ⟨rfl, rfl⟩ := Prod.mk.inj (Except.ok.inj h)
          exact ⟨result.2, pair.2, rfl, heard, rfl⟩

def machine {α : Type} (J : QJson) (event : α → TransferSession.Event) :
    Machine (Endpoint B) α Packet Crash where
  act self e := (step J self.session (event e)).map fun t =>
    ({ self with session := t }, sentSince self.session t)
  receive := Link.receive J

/-- A peer stands for an endpoint with the same session, which has refused nothing. -/
structure Shows (x : Peer B) (E : Endpoint B) (buffer : QByteArray) : Prop where
  session : x.session = E.session
  hears : E.deaf = false
  tied : Tied x.connection
  stuck : wireCode.Stuck buffer
  buffered : x.connection.readBuffer = buffer

private theorem hear_received {α : Type} {event : α → TransferSession.Event}
    {packets sent : List Packet} {E : Endpoint B} {t : TransferSession B} (valid : ∀ p ∈ packets, p.Acceptable) (hears : E.deaf = false)
    (heard : hear J E.session (packets.map .packetReceived) = .ok (t, sent)) :
    ∃ E', (machine J event).receiveAll E packets = .ok (E', sent) ∧ E'.session = t ∧
      E'.deaf = false := by
  induction packets generalizing E sent with
  | nil =>
      obtain ⟨rfl, rfl⟩ := Prod.mk.inj (Except.ok.inj heard)
      exact ⟨E, rfl, rfl, hears⟩
  | cons p packets ih =>
      obtain ⟨u, more, taken, rest, rfl⟩ := hear_packet heard
      let F : Endpoint B := { E with session := u, handled := E.handled ++ [p] }
      have received : (machine J event).receive E p = .ok (F, sentSince E.session u) := by
        have accepts : ¬ (E.deaf = true ∨ ¬ p.Acceptable) := by
          rw [hears]
          exact not_or.mpr ⟨Bool.false_ne_true, not_not.mpr (valid p List.mem_cons_self)⟩
        show Link.receive J E p = _
        rw [Link.receive, if_neg accepts, show step J E.session (.packet p) = .ok u from taken]
        rfl
      obtain ⟨E', all, session, hears'⟩ :=
        ih (fun q mem => valid q (.tail p mem)) (show F.deaf = false from hears) rest
      refine ⟨E', ?_, session, hears'⟩
      rw [Machine.receiveAll, received]
      show ((machine J event).receiveAll F packets).map _ = _
      rw [all]
      rfl

theorem framing {α : Type} (J : QJson) (event : α → TransferSession.Event) :
    Framing wireCode (machine (B := B) J event) (reader J event) Shows where
  act := by
    rintro x y E buffer sent e ⟨session, hears, tied, stuck, buffered⟩ acted
    obtain ⟨t, taken, rfl, rfl⟩ := act_ok acted
    refine ⟨{ E with session := t }, sentSince x.session t, ?_, rfl, rfl, hears, tied, stuck,
      buffered⟩
    show (step J E.session (event e)).map _ = _
    rw [← session, show step J x.session (event e) = .ok t from taken]
    rfl
  read := by
    rintro x y E buffer data later sent packets ⟨session, hears, tied, stuck, rfl⟩ valid whole heard
    obtain ⟨next, run, tied', left⟩ := onReadyRead_sent tied stuck valid whole
    obtain ⟨signals, out, run', all, rfl⟩ := read_ok heard
    obtain ⟨same, rfl⟩ := Prod.mk.inj (Option.some.inj (run.symm.trans run'))
    rw [session] at all
    obtain ⟨E', received, session', hears'⟩ := hear_received (wireCode.decode_valid _) hears all
    exact ⟨E', out, received, rfl, session'.symm, hears', same ▸ tied',
      wireCode.decode_rest_stuck _, same ▸ left⟩

/-! What the two sessions make of one file. -/

structure Fits (D : Delivery) : Prop where
  starts : ∀ item ∈ D.items, ∀ i, (D.stream.startPacket i item).Acceptable
  complete : Packet.Acceptable ⟨.TransferComplete, 0, D.stream.complete⟩

private theorem endPacket_acceptable {D : Delivery} (listed : D.Listed B) {item : LocalFileItem}
    (mem : item ∈ D.items) (i : Nat) : (D.stream.endPacket i item).Acceptable := by
  left
  have limit : MAX_METADATA_PAYLOAD_SIZE.toNat = 67108864 := rfl
  have sum : (D.stream.sum item).length = 64 := by
    rw [listed.sum item mem, Blake3Hasher.digest_length]
  simp only [DataStream.endPacket, serializeFileEnd, List.length_append,
    QDataStream.writeString_length, QDataStream.writeU64_length, sum]
  omega

private theorem Fits.filesFrom {D : Delivery} (fits : Fits D) (listed : D.Listed B) {i : Nat}
    {rest : List LocalFileItem} (sub : rest ⊆ D.items) :
    ∀ p ∈ D.stream.filesFrom i rest, p.type = .FileDataChunk ∨ p.Acceptable := by
  induction rest generalizing i with
  | nil =>
      intro p mem
      rw [List.mem_singleton.mp mem]
      exact .inr fits.complete
  | cons item rest ih =>
      have inside := sub List.mem_cons_self
      intro p mem
      rcases List.mem_cons.mp mem with rfl | mem
      · exact .inr (fits.starts item inside i)
      rcases List.mem_append.mp mem with chunk | mem
      · exact .inl (DataStream.mem_chunkPackets chunk)
      rcases List.mem_cons.mp mem with rfl | later
      · exact .inr (endPacket_acceptable listed inside i)
      · exact ih (fun other mem => sub (.tail item mem)) p later

theorem toRight_acceptable {D : Delivery} (fits : Fits D) (listed : D.Listed B)
    {l : Link B} (h : Link.Delivering J D l) : ∀ p ∈ l.toRight, p.Acceptable := by
  obtain ⟨ahead, behind, -, receiver, path, -⟩ := h.place
  intro p mem
  have remains : p ∈ D.stream.remaining behind := path ▸ List.mem_append_left _ mem
  have either : p.type = .FileDataChunk ∨ p.Acceptable := by
    have place := receiver.place
    cases place with
    | between suffix =>
        exact fits.filesFrom listed (suffix ▸ List.drop_subset _ _) p remains
    | sending suffix =>
        obtain ⟨inside, behind, -, -⟩ := mem_of_suffix suffix
        rcases List.mem_append.mp remains with chunk | remains
        · exact .inl (DataStream.mem_chunkPackets chunk)
        rcases List.mem_cons.mp remains with rfl | later
        · exact .inr (endPacket_acceptable listed inside _)
        · exact fits.filesFrom listed (behind ▸ List.drop_subset _ _) p later
    | done => cases remains
  rcases either with chunk | acceptable
  · refine .inr ⟨chunk, ?_⟩
    have small := h.small p mem chunk
    omega
  · exact acceptable

structure Going (J : QJson) (D : Delivery) (l : Link B) : Prop where
  delivering : Link.Delivering J D l
  toLeft : ∀ p ∈ l.toLeft, p.Acceptable
  outbox : ∀ p ∈ l.left.session.outbox, p.type ≠ .FileAck

private theorem no_ack {types : List MessageType} {s t : TransferSession B}
    (sends : Sends types s t)
    (other : .FileAck ∉ types) (before : ∀ p ∈ s.outbox, p.type ≠ .FileAck) :
    ∀ p ∈ t.outbox, p.type ≠ .FileAck := by
  obtain ⟨sent, outbox, each⟩ := sends
  intro p mem type
  rw [outbox] at mem
  rcases List.mem_append.mp mem with earlier | new
  · exact before p earlier type
  · exact other (type ▸ each p new)

theorem sent_type {s : TransferSession B} {D : Delivery} {cursor : Cursor}
    {incoming : List Packet} (h : SentAt J s D cursor incoming) :
    ∀ p ∈ incoming, p.type ∈ receiverTypes := by
  intro p mem
  cases h with
  | offered none status total type =>
      rw [List.mem_singleton.mp mem, type]
      exact List.mem_cons_self
  | streaming place status acks =>
      obtain ⟨ack, item, -, rfl, -⟩ := acks p mem
      exact .tail _ List.mem_cons_self

private theorem sent_status {s : TransferSession B} {D : Delivery} {cursor : Cursor}
    {incoming : List Packet} (h : SentAt J s D cursor incoming) :
    s.status ≠ .Failed ∧ (s.status = .Completed → cursor.unacked = 0) := by
  cases h with
  | offered none status =>
      rw [status]
      exact ⟨fun c => (by cases c), fun c => (by cases c)⟩
  | streaming place status =>
      rcases status with ⟨running, -⟩ | ⟨completed, none⟩
      · rw [running]
        exact ⟨fun c => (by cases c), fun c => (by cases c)⟩
      · rw [completed]
        exact ⟨fun c => (by cases c), fun _ => none⟩

theorem going_run {D : Delivery} (listed : D.Listed B) (vacant : D.Vacant) (fits : Fits D)
    {start l : Link B} {moves : List (Duplex.Move Tick)}
    (run : Run (Duplex.Steps (machine J event)) start moves l) (initial : Going J D start) :
    l.right.session.disk.AllSucceeded → Going J D l := by
  have guarded : Run (Guarded (Duplex.Steps (machine J event)) fun _ _ => True) start moves l :=
    run.mono fun _ _ _ step => ⟨trivial, step⟩
  refine Duplex.invariant (fun l => l.right.session.disk.AllSucceeded → Going J D l) ?_ ?_ ?_ ?_
    guarded fun _ => initial
  · intro d e E out h _ acted succeeded
    obtain ⟨delivering, toLeft, outbox⟩ := h succeeded
    obtain ⟨t, -, step, eq, -⟩ := Link.act_ok acted
    refine ⟨delivering.left e.property acted, toLeft, ?_⟩
    rw [eq]
    exact no_ack step.sends (by decide) outbox
  · intro d e E out h _ acted succeeded
    obtain ⟨delivering, toLeft, outbox⟩ := h (Link.act_before acted succeeded)
    obtain ⟨next, nothing⟩ := delivering.right e.property acted
    refine ⟨next, ?_, outbox⟩
    rw [nothing, List.append_nil]
    exact toLeft
  · intro d p rest E out h _ pending received succeeded
    obtain ⟨delivering, toLeft, outbox⟩ := h (Link.receive_before received succeeded)
    have acceptable : p.Acceptable :=
      toRight_acceptable fits listed delivering p (pending ▸ List.mem_cons_self)
    obtain ⟨ahead, behind, -, receiver, path, -⟩ := delivering.place
    rw [pending] at path
    obtain ⟨next, good, -⟩ := delivering.toRight listed pending acceptable
      (fun item mem i eq => receiver.clear vacant mem (eq ▸ path.symm)) received succeeded
    refine ⟨next, fun q mem => ?_, outbox⟩
    rcases List.mem_append.mp mem with earlier | new
    · exact toLeft q earlier
    · exact Link.goodAck_acceptable (good q new)
  · intro d p rest E out h _ pending received succeeded
    obtain ⟨delivering, toLeft, outbox⟩ := h succeeded
    rw [pending] at toLeft
    have acceptable := toLeft p List.mem_cons_self
    refine ⟨delivering.toLeft pending acceptable received, fun q mem => toLeft q (.tail p mem), ?_⟩
    obtain ⟨t, taken, rfl, -⟩ := Link.receive_heard received delivering.hears.1 acceptable
    obtain ⟨ahead, behind, sender, -⟩ := delivering.place
    have type := sent_type sender.place p (pending ▸ List.mem_cons_self)
    exact no_ack (sender_move sender.role taken type).sends (by decide) outbox

/-- Neither session has failed, what is acknowledged is the whole content, and once a session is
complete the content is at the path and its staging file is gone. -/
structure Transferred (sender receiver : TransferSession B) (path : QString)
    (content : QByteArray) : Prop where
  running : sender.status ≠ .Failed ∧ receiver.status ≠ .Failed
  acks : ∀ p ∈ sender.outbox ++ receiver.outbox, p.type = .FileAck →
    ∃ ack, parseFileAck p.payload = some ack ∧ ack.statusCode = 0 ∧
      ack.bytesReceived.toNat = content.length
  delivered : sender.status = .Completed ∨ receiver.status = .Completed →
    receiver.disk.node path = some (.file content) ∧
      receiver.disk.node (path ++ partialSuffix) = none

private theorem all_stored {s : TransferSession B} {D : Delivery} {cursor : Cursor}
    (h : StoredAt s D cursor) (none : cursor.ends = 0) :
    ∃ paths, Stored s D D.items paths ∧
      ∀ path ∈ paths.getLast?, s.disk.node (path ++ partialSuffix) = Option.none := by
  cases h with
  | @between i rest paths suffix running stored untouched gone =>
      have empty : rest = [] := List.length_eq_zero_iff.mp none
      rw [empty] at suffix
      rw [List.take_of_length_le (List.drop_eq_nil_iff.mp suffix)] at stored
      exact ⟨paths, stored, gone⟩
  | sending => cases none
  | done completed stored gone => exact ⟨_, stored, gone⟩

private theorem stored_single {s : TransferSession B} {D : Delivery} {item : LocalFileItem}
    {paths : List QString} (vacant : D.Vacant) (one : D.items = [item])
    (stored : Stored s D D.items paths)
    (gone : ∀ path ∈ paths.getLast?, s.disk.node (path ++ partialSuffix) = none) :
    s.disk.node (D.target item) = some (.file (D.content item)) ∧
      s.disk.node (D.target item ++ partialSuffix) = none := by
  have name : FileWriter.resolveUniqueName D.base (D.target item) = D.target item := by
    have free : D.base.exists (D.target item) = false := by
      rw [Disk.exists, vacant.free item (one ▸ List.mem_cons_self)]
      rfl
    simp only [FileWriter.resolveUniqueName, free, Bool.not_false, if_true]
  have files := stored.files
  have first := stored.first
  rw [one] at files first
  cases files with
  | cons held rest =>
      cases rest
      have place := first item rfl _ rfl
      rw [name] at place
      subst place
      exact ⟨held.2.found, gone _ rfl⟩

private theorem Going.transferred {D : Delivery} {item : LocalFileItem} {l : Link B}
    (h : Going J D l) (listed : D.Listed B) (vacant : D.Vacant) (one : D.items = [item]) :
    Transferred l.left.session l.right.session (D.target item) (D.content item) := by
  obtain ⟨ahead, behind, sender, receiver, -, count⟩ := h.delivering.place
  have place := receiver.place
  have inside : item ∈ D.items := one ▸ List.mem_cons_self
  have ended : behind.ends = 0 → l.right.session.disk.node (D.target item) =
      some (.file (D.content item)) ∧
        l.right.session.disk.node (D.target item ++ partialSuffix) = none := by
    intro none
    obtain ⟨paths, stored, gone⟩ := all_stored place none
    exact stored_single vacant one stored gone
  refine ⟨⟨fun failed => ?_, fun failed => ?_⟩, fun p mem type => ?_, fun completed => ended ?_⟩
  · exact (sent_status sender.place).1 failed
  · cases place with
    | between suffix running => cases failed.symm.trans running
    | sending suffix running => cases failed.symm.trans running
    | done completed => cases failed.symm.trans completed
  · rcases List.mem_append.mp mem with mem | mem
    · exact absurd type (h.outbox p mem)
    · obtain ⟨ack, item', mem', rfl, ok, bytes, length⟩ := receiver.acks p mem type
      rw [one] at mem'
      cases List.mem_singleton.mp mem'
      have bound := listed.bound item inside
      refine ⟨ack, parseFileAck_serialize (by rw [length]; decide), ok, ?_⟩
      rw [bytes]
      exact UInt64.toNat_ofNat_of_lt' (by rw [UInt64.size]; omega)
  · rcases completed with completed | completed
    · have none := (sent_status sender.place).2 completed
      omega
    · cases place with
      | between suffix running => cases completed.symm.trans running
      | sending suffix running => cases completed.symm.trans running
      | done => rfl

/-- Of one transfer, the completion is not longer than the acceptance, which has the same
identifier and more members. -/
def Terse (J : QJson) : Prop :=
  ∀ (transferId receiverDevice : QString) (total : UInt64),
    (serializeTransferComplete J ⟨transferId, total⟩).length ≤
      (serializeTransferAccept J ⟨transferId, receiverDevice, true, 0, 0⟩).length

/-- The receiver has accepted the sender's offer, which was within the size limit, and its
acceptance, which is too, is on its way. -/
structure Accepting (J : QJson) (w : Wired (Peer B) UInt8) : Prop where
  offered : Link.Offered w.left.session
  accepted : Link.Accepted w.right.session
  transferId : w.right.session.transferId = w.left.session.transferId
  offer : Packet.Acceptable ⟨.TransferOffer, 0, serializeTransferOffer
    (w.left.session.sendManifest.offer w.left.session.transferId w.left.session.localDeviceName)⟩
  acceptance : (Link.acceptance J w.right.session).Acceptable
  idle : ∀ x ∈ [w.left, w.right], x.connection.readBuffer = [] ∧ x.connection.headerParsed = false
  toRight : w.toRight = []
  toLeft : w.toLeft = (Link.acceptance J w.right.session).bytes

def linkOf (J : QJson) (w : Wired (Peer B) UInt8) : Link B where
  left := { session := w.left.session }
  right := { session := w.right.session }
  toRight := []
  toLeft := [Link.acceptance J w.right.session]

theorem Accepting.carries {w : Wired (Peer B) UInt8} (h : Accepting J w) :
    Carries wireCode Shows w (linkOf J w) := by
  have shows : ∀ x ∈ [w.left, w.right], Shows x { session := x.session } [] := by
    intro x mem
    obtain ⟨empty, waiting⟩ := h.idle x mem
    refine ⟨rfl, rfl, ?_, wireCode.stuck_nil, empty⟩
    constructor <;> intro parsed <;> cases waiting.symm.trans parsed
  refine ⟨⟨[], shows _ (.tail _ List.mem_cons_self), ?_⟩, [], shows _ List.mem_cons_self, ?_⟩
  · rw [h.toRight]
    rfl
  · rw [h.toLeft]
    exact (List.flatMap_singleton _ _).symm

theorem Accepting.fits {w : Wired (Peer B) UInt8} (h : Accepting J w) (terse : Terse J) :
    Fits (Link.delivery J (linkOf J w)) := by
  refine ⟨fun item mem i => .inl ?_, .inl ?_⟩
  · have offer := h.offer.resolve_right fun chunk => by cases chunk.1
    refine Nat.le_trans ?_ offer
    have part : 32 + 2 * item.relativePath.length + 2 * item.blake3Checksum.length ≤
        (w.left.session.sendManifest.toProtocolItems.flatMap writeItem).length := by
      rw [← writeItem_length ⟨item.fileIndex, item.relativePath, item.fileSize, item.modifiedTime,
        item.blake3Checksum⟩]
      exact item_length (List.mem_map_of_mem mem)
    have total := serializeTransferOffer_length
      (w.left.session.sendManifest.offer w.left.session.transferId w.left.session.localDeviceName)
    dsimp only [FileManifest.offer] at total
    have start : (serializeFileStart ⟨w.left.session.transferId, UInt64.ofNat i,
        item.relativePath, item.fileSize, item.modifiedTime, item.blake3Checksum⟩).length =
          36 + 2 * w.left.session.transferId.length + 2 * item.relativePath.length +
            2 * item.blake3Checksum.length := by
      simp only [serializeFileStart, List.length_append, QDataStream.writeString_length,
        QDataStream.writeU64_length]
      omega
    show (serializeFileStart _).length ≤ (serializeTransferOffer _).length
    dsimp only [FileManifest.offer]
    rw [total]
    exact start.le.trans (by omega)
  · have acceptance := h.acceptance.resolve_right fun chunk => by cases chunk.1
    refine Nat.le_trans ?_ acceptance
    have shorter := terse w.right.session.transferId w.right.session.localDeviceName
    rw [h.transferId] at shorter
    rw [Link.acceptance, h.transferId]
    exact shorter _

theorem Accepting.start {w : Wired (Peer B) UInt8} (h : Accepting J w) :
    Link.Start J (linkOf J w) :=
  ⟨h.offered, h.accepted, ⟨rfl, rfl⟩, ⟨rfl, rfl⟩, rfl, rfl⟩

/-- Where the session folder does not exist, nothing is in the way of the file. -/
theorem Accepting.vacant {w : Wired (Peer B) UInt8} {item : LocalFileItem}
    (listed : (Link.delivery J (linkOf J w)).Listed B)
    (one : w.left.session.sendManifest.items = [item])
    (absent : ∀ path, path = w.right.session.sessionFolder ∨
      Inside w.right.session.sessionFolder path → w.right.session.disk.node path = none) :
    (Link.delivery J (linkOf J w)).Vacant := by
  refine ⟨?_, fun other mem => ?_, fun other mem => ?_⟩
  · show w.left.session.sendManifest.items.length ≤ 1
    rw [one]
    exact Nat.le_refl 1
  · exact absent _ (.inr (listed.inside mem))
  · exact absent _ (.inr (listed.inside mem).staging)

theorem hear_before {signals : List TcpSignal} {s t : TransferSession B}
    {sent : List Packet} (heard : hear J s signals = .ok (t, sent))
    (succeeded : t.disk.AllSucceeded) : s.disk.AllSucceeded := by
  induction signals generalizing s sent with
  | nil =>
      obtain ⟨rfl, -⟩ := Prod.mk.inj (Except.ok.inj heard)
      exact succeeded
  | cons signal later ih =>
      cases signal with
      | packetReceived p =>
          obtain ⟨u, more, taken, rest, -⟩ := hear_packet heard
          exact succeeded_before taken (ih rest)
      | errorOccurred message =>
          rw [hear] at heard
          have same : (s.onSocketError message).disconnectFromHost.disk = s.disk := by
            unfold onSocketError
            split <;> rfl
          exact same ▸ ih heard

theorem steps_before {α : Type} {event : α → TransferSession.Event}
    {w w' : Wired (Peer B) UInt8} {move : Wired.Move α}
    (taken : Wired.Steps (reader J event) w move w')
    (succeeded : w'.right.session.disk.AllSucceeded) :
    w.right.session.disk.AllSucceeded := by
  cases move with
  | left e =>
      obtain ⟨next, -, rfl⟩ := Except.ok_of_map taken
      exact succeeded
  | right e =>
      obtain ⟨⟨x, sent⟩, acted, rfl⟩ := Except.ok_of_map taken
      obtain ⟨t, stepped, rfl, -⟩ := act_ok acted
      exact succeeded_before stepped succeeded
  | toRight count =>
      obtain ⟨⟨x, sent⟩, heard, rfl⟩ := Except.ok_of_map taken
      obtain ⟨signals, out, -, all, -⟩ := read_ok heard
      exact hear_before all succeeded
  | toLeft count =>
      obtain ⟨next, -, rfl⟩ := Except.ok_of_map taken
      exact succeeded

/-- One file is transferred as it is, however its bytes are read and the sessions' events and
reads are ordered. -/
theorem single_file_transferred (J : QJson) (terse : Terse J) {start w : Wired (Peer B) UInt8}
    {moves : List (Wired.Move Tick)} {item : LocalFileItem} (initial : Accepting J start)
    (sound : Link.Deliverable start.left.session)
    (one : start.left.session.sendManifest.items = [item])
    (absent : ∀ path, path = start.right.session.sessionFolder ∨
      Inside start.right.session.sessionFolder path → start.right.session.disk.node path = none)
    (run : Run (Steps J) start moves w) (succeeded : w.right.session.disk.AllSucceeded) :
    Transferred w.left.session w.right.session
      (filePath start.right.session.sessionFolder item.relativePath)
      (start.left.session.content item) := by
  let D := Link.delivery J (linkOf J start)
  have listed : D.Listed B :=
    Link.Deliverable.listed (l := linkOf J start) sound initial.offered.chunkSize
  have vacant : D.Vacant := Accepting.vacant listed one absent
  have fits : Fits D := initial.fits terse
  have going : Going J D (linkOf J start) := by
    refine ⟨initial.start.delivering sound (.inr vacant), ?_, fun p mem type => ?_⟩
    · exact List.forall_mem_singleton.mpr initial.acceptance
    · rcases initial.offered.outbox p mem with other | other
      · cases type.symm.trans other
      · cases type.symm.trans other
  obtain ⟨deliveries, l, reached, carries⟩ := (framing J event).refines
    (fun w => w.right.session.disk.AllSucceeded) (fun l => l.right.session.disk.AllSucceeded)
    (fun u move u' taken => steps_before taken)
    (fun u d carries => by
      obtain ⟨⟨buffer, shows, -⟩, -⟩ := carries
      rw [shows.session]
      exact id)
    (fun deliveries d reached succeeded =>
      have holds := going_run listed vacant fits reached going succeeded
      ⟨toRight_acceptable fits listed holds.delivering, holds.toLeft⟩)
    run initial.carries succeeded
  obtain ⟨⟨_, right, -⟩, _, left, -⟩ := carries
  rw [right.session] at succeeded
  have transferred := (going_run listed vacant fits reached going succeeded).transferred listed
    vacant one
  rw [Link.delivery_content J initial.offered.chunkSize item] at transferred
  rw [left.session, right.session]
  exact transferred

private theorem printString_length (s : QString) :
    (CompactJson.printString s).length = 2 + (s.flatMap CompactJson.escape).length := by
  simp only [CompactJson.printString, List.length_cons, List.length_append, List.length_nil]
  omega

private theorem printInt_length (n : Int64) : (CompactJson.printInt n).length ≤ 20 := by
  have low := n.le_toInt
  have high := n.toInt_lt
  have digits : (CompactJson.printNat n.toInt.natAbs).length ≤ 19 := by
    rw [CompactJson.printNat, List.length_map,
      Nat.length_toDigits_le_iff (by decide) (by decide)]
    omega
  unfold CompactJson.printInt
  split
  · rw [List.length_cons]
    omega
  · omega

theorem terse_codec : Terse CompactJson.codec := by
  intro transferId receiverDevice total
  have number := printInt_length total.toInt64
  have keys : ((literal "transfer_id").flatMap CompactJson.escape).length = 11 ∧
      ((literal "transferred_bytes").flatMap CompactJson.escape).length = 17 ∧
      ((literal "receiver_device").flatMap CompactJson.escape).length = 15 ∧
      ((literal "resume_offset").flatMap CompactJson.escape).length = 13 ∧
      ((literal "start_file_index").flatMap CompactJson.escape).length = 16 := by
    decide
  obtain ⟨id, bytes, device, offset, index⟩ := keys
  show (CompactJson.toJson _).length ≤ (CompactJson.toJson _).length
  simp only [CompactJson.toJson, CompactJson.printMembers, CompactJson.printValue, jsonU64,
    List.length_cons, List.length_append, List.length_nil, printString_length, id, bytes, device,
    offset, index]
  omega

/-! A loopback that runs. -/

def wired (l : Link Blake3.vendored) : Wired (Peer Blake3.vendored) UInt8 where
  left := { session := l.left.session }
  right := { session := l.right.session }
  toRight := []
  toLeft := l.toLeft.flatMap Packet.bytes

def tryMove (w : Wired (Peer Blake3.vendored) UInt8) (move : Wired.Move Tick) :
    Option (Wired (Peer Blake3.vendored) UInt8) :=
  (Wired.step (reader CompactJson.codec event) w move).toOption

private theorem tryMove_sound (w : Wired (Peer Blake3.vendored) UInt8) (move : Wired.Move Tick)
    (w' : Wired (Peer Blake3.vendored) UInt8) (h : tryMove w move = some w') :
    Steps CompactJson.codec w move w' :=
  Except.ok_of_toOption h

/-- A file of one byte is sent; some of the reads cut a header or a payload in two. -/
theorem single_file_transferred_oneByte :
    let start := wired (Link.sending [(literal "x", [7])] 1 .Ask)
    ∃ w : Wired (Peer Blake3.vendored) UInt8, w.left.session.status = .Completed ∧
      w.right.session.status = .Completed ∧
      Transferred w.left.session w.right.session
        (filePath start.right.session.sessionFolder (literal "x")) [7] := by
  intro start
  let moves : List (Wired.Move Tick) :=
    [.toLeft 5, .toLeft 1000, .left ⟨.sendNextChunk, rfl⟩, .toRight 30, .toRight 80,
      .toRight 1000, .toLeft 1000, .toRight 1000]
  have computed : (moves.foldlM tryMove start).map (fun w =>
      (w.left.session.status, w.right.session.status,
        decide w.right.session.disk.AllSucceeded)) = some (.Completed, .Completed, true) := by
    decide +kernel
  obtain ⟨w, reached, eq⟩ := Option.map_eq_some_iff.mp computed
  simp only [Prod.mk.injEq] at eq
  obtain ⟨left, right, succeeded⟩ := eq
  have initial : Accepting CompactJson.codec start := by
    have began : Link.Start CompactJson.codec (Link.sending [(literal "x", [7])] 1 .Ask) :=
      Link.start_accepted ..
    have fits : Packet.Acceptable ⟨.TransferOffer, 0, serializeTransferOffer
        (start.left.session.sendManifest.offer start.left.session.transferId
          start.left.session.localDeviceName)⟩ ∧
        (Link.acceptance CompactJson.codec start.right.session).Acceptable := by
      decide +kernel
    refine ⟨began.offered, began.accepted, rfl, fits.1, fits.2, ?_, rfl, ?_⟩
    · intro x mem
      rcases List.mem_cons.mp mem with rfl | mem
      · exact ⟨rfl, rfl⟩
      · rw [List.mem_singleton.mp mem]
        exact ⟨rfl, rfl⟩
    · show (Link.sending [(literal "x", [7])] 1 .Ask).toLeft.flatMap Packet.bytes = _
      rw [began.toLeft]
      exact List.flatMap_singleton _ _
  have sound : Link.Deliverable start.left.session := by decide +kernel
  exact ⟨w, left, right, single_file_transferred CompactJson.codec terse_codec initial sound rfl
    (fun _ _ => rfl) (.of_foldlM tryMove_sound reached) (of_decide_eq_true succeeded)⟩

end Loopback

end FastTransfer
