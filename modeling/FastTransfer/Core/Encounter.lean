/- FastTransfer/Core/Encounter
   source: src/core/TransferSession.cpp, src/network/TcpConnection.cpp
   digest: Two sessions from the connection on: the handshake, the offer, and the answer to it. -/

import FastTransfer.Core.LinkSteps
import FastTransfer.Filesystem.FileEnumerator

set_option autoImplicit false
set_option relaxedAutoImplicit false

namespace FastTransfer

open Protocol
open QString (literal)

def TransferSession.Event.isPacket : TransferSession.Event → Bool
  | .packet _ => true
  | _ => false

/-- What happens to a session but for its packets. -/
abbrev Occurrence := { e : TransferSession.Event // e.isPacket = false }

namespace Encounter

open TransferSession

variable {B : Blake3} {J : QJson}

def act (J : QJson) (self : Endpoint B) (e : Occurrence) :
    Except Crash (Endpoint B × List Packet) :=
  (step J self.session e.val).map fun t =>
    ({ self with session := t }, sentSince self.session t)

def machine (J : QJson) : Machine (Endpoint B) Occurrence Packet Crash := ⟨act J, Link.receive J⟩

/-- The left party is the one that connects. -/
def Steps (J : QJson) : Link B → Duplex.Move Occurrence → Link B → Prop :=
  Duplex.Steps (machine J)

theorem act_ok {E E' : Endpoint B} {e : Occurrence} {out : List Packet}
    (h : act J E e = .ok (E', out)) :
    ∃ t, TransferSession.Steps J E.session e.val t ∧ E' = { E with session := t } ∧
      out = sentSince E.session t := by
  unfold act at h
  obtain ⟨t, taken, eq⟩ := Except.ok_of_map h
  obtain ⟨rfl, rfl⟩ := Prod.mk.inj eq
  exact ⟨t, taken, rfl, rfl⟩

/-- What the two parties bring: their disks, the identifiers of their sessions, and what the left
one is to send. -/
structure Approach where
  sender : Disk
  receiver : Disk
  transferId : QString
  receiverId : QString
  deviceName : QString
  manifest : FileManifest
  chunkSize : UInt32

namespace Approach

def offer (self : Approach) : MsgTransferOffer :=
  self.manifest.offer self.transferId self.deviceName

def caller (self : Approach) (B : Blake3) : TransferSession B :=
  (new B .Send self.transferId self.sender).startSend self.manifest self.deviceName self.chunkSize

def start (self : Approach) (B : Blake3) : Link B where
  left := { session := self.caller B }
  right := { session := fromConnection B self.receiverId self.receiver }
  toRight := []
  toLeft := []

end Approach

/-! Encounters that run. -/

def oneFile : Approach where
  sender := Link.holding [(literal "x", [7])]
  receiver := Disk.blank
  transferId := literal "t"
  receiverId := literal "u"
  deviceName := literal "pc"
  manifest := Link.listing [(literal "x", [7])]
  chunkSize := 1

def greeted : List (Duplex.Move Occurrence) :=
  [.left ⟨.socketConnected, rfl⟩, .toRight, .right ⟨.drain 0, rfl⟩, .toLeft, .toRight]

def tryGuarded (check : Link Blake3.vendored → Duplex.Move Occurrence → Bool)
    (l : Link Blake3.vendored) (move : Duplex.Move Occurrence) : Option (Link Blake3.vendored) :=
  if check l move = true then (Duplex.step (machine CompactJson.codec) l move).toOption else none

theorem run_tryGuarded {check : Link Blake3.vendored → Duplex.Move Occurrence → Bool}
    {start l : Link Blake3.vendored} {moves : List (Duplex.Move Occurrence)}
    (h : moves.foldlM (tryGuarded check) start = some l) :
    Run (Guarded (Steps CompactJson.codec) fun l move => check l move = true) start moves l :=
  .of_foldlM_guarded h

/-! Nothing is accepted yet. -/

def greetings : List MessageType :=
  [.HandshakeReq, .HandshakeResp, .TransferOffer, .TransferReject, .TransferCancel]

/-- A session that has neither sent nor stored anything of a file. -/
structure Reserved (s : TransferSession B) : Prop where
  status : s.status ≠ .Transferring ∧ s.status ≠ .Paused ∧ s.status ≠ .Completed
  fileReader : s.fileReader = none
  fileWriter : s.fileWriter = none
  outbox : ∀ p ∈ s.outbox, p.type ∈ greetings

structure Reserves (s t : TransferSession B) : Prop where
  reserved : Reserved t
  disk : t.disk = s.disk
  sent : ∀ p ∈ sentSince s t, p.type ∈ greetings

private theorem Reserves.of_sends {s t : TransferSession B} {type : MessageType}
    (h : Reserved s) (sends : Sends [type] s t) (greeting : type ∈ greetings)
    (status : t.status ≠ .Transferring ∧ t.status ≠ .Paused ∧ t.status ≠ .Completed)
    (fileReader : t.fileReader = none) (fileWriter : t.fileWriter = none)
    (disk : t.disk = s.disk) : Reserves s t := by
  obtain ⟨outbox, each⟩ := sends.sentSince
  have sent : ∀ p ∈ sentSince s t, p.type ∈ greetings := by
    intro p mem
    rw [List.mem_singleton.mp (each p mem)]
    exact greeting
  refine ⟨⟨status, fileReader, fileWriter, fun p mem => ?_⟩, disk, sent⟩
  rw [outbox] at mem
  rcases List.mem_append.mp mem with earlier | new
  · exact h.outbox p earlier
  · exact sent p new

private theorem Reserves.silent {s t : TransferSession B} (h : Reserved s)
    (outbox : t.outbox = s.outbox)
    (status : t.status ≠ .Transferring ∧ t.status ≠ .Paused ∧ t.status ≠ .Completed)
    (fileReader : t.fileReader = none) (fileWriter : t.fileWriter = none)
    (disk : t.disk = s.disk) : Reserves s t :=
  .of_sends h ⟨[], by rw [outbox, List.append_nil], List.forall_mem_nil _⟩ List.mem_cons_self
    status fileReader fileWriter disk

private theorem Reserves.refl {s : TransferSession B} (h : Reserved s) : Reserves s s :=
  .silent h rfl h.status h.fileReader h.fileWriter rfl

theorem early {t : TransferSession B} (status : TransferStatus) (became : t.status = status)
    (among : status ∈ [.Idle, .Connecting, .Handshaking, .Offering, .WaitingApproval, .Failed,
      .Cancelled]) : t.status ≠ .Transferring ∧ t.status ≠ .Paused ∧ t.status ≠ .Completed := by
  rw [became]
  revert among
  cases status <;> decide

theorem Reserved.packet {s t : TransferSession B} {p : Packet} (h : Reserved s)
    (greeting : p.type ∈ greetings) (taken : TransferSession.Steps J s (.packet p) t) :
    Reserves s t := by
  obtain ⟨type, flags, payload⟩ := p
  simp only [greetings, List.mem_cons, List.not_mem_nil, or_false] at greeting
  have reader := h.fileReader
  have writer := h.fileWriter
  rcases greeting with rfl | rfl | rfl | rfl | rfl
  · rw [← Except.ok.inj taken]
    show Reserves s (onHandshakeReq J s payload)
    unfold onHandshakeReq
    cases parseHandshakeReq J payload with
    | none => exact .refl h
    | some req =>
        exact .of_sends h (sends_sendPacket { s with remoteDevice := req.deviceName }
          .HandshakeResp _) (by decide) (early .Offering rfl (by decide)) reader writer rfl
  · rw [← Except.ok.inj taken]
    show Reserves s (onHandshakeResp J s payload)
    unfold onHandshakeResp
    cases parseHandshakeResp J payload with
    | none => exact .silent h rfl (early .Failed rfl (by decide)) reader writer rfl
    | some resp =>
        dsimp only
        split
        · exact .of_sends h (sends_sendPacket
            ({ s with remoteDevice := resp.deviceName }.setStatus .Offering) .TransferOffer _)
            (by decide) (early .WaitingApproval rfl (by decide)) reader writer rfl
        · exact .silent h rfl (early .Failed rfl (by decide)) reader writer rfl
  · rw [← Except.ok.inj taken]
    show Reserves s (onTransferOffer s payload)
    unfold onTransferOffer
    cases parseTransferOffer payload with
    | none => exact .refl h
    | some offer => exact .silent h rfl (early .WaitingApproval rfl (by decide)) reader writer rfl
  · rw [← Except.ok.inj taken]
    exact .silent h rfl (early .Cancelled rfl (by decide)) reader writer rfl
  · rw [← Except.ok.inj taken]
    refine .silent h rfl (early .Cancelled rfl (by decide)) ?_ ?_ rfl
    · show s.fileReader.map FileReader.close = none
      rw [reader]
      rfl
    · show s.fileWriter.map FileWriter.abort = none
      rw [writer]
      rfl

def unaccepted (s : TransferSession B) : Event → Bool
  | .acceptTransfer _ _ _ => s.receivedOffer.isNone
  | _ => true

theorem Reserved.occurrence {s t : TransferSession B} {e : Event} (h : Reserved s)
    (other : e.isPacket = false) (unanswered : unaccepted s e = true)
    (taken : TransferSession.Steps J s e t) : Reserves s t := by
  have reader := h.fileReader
  have writer := h.fileWriter
  cases e with
  | packet p => cases other
  | acceptTransfer baseOutputDir policy timestamp =>
      rw [← Except.ok.inj taken, acceptTransfer]
      have absent : s.receivedOffer.isNone = true := unanswered
      dsimp only
      rw [if_pos absent]
      exact .silent h rfl h.status reader writer rfl
  | rejectTransfer reason =>
      rw [← Except.ok.inj taken]
      exact .of_sends h (sends_sendPacket s .TransferReject _) (by decide)
        (early .Cancelled rfl (by decide)) reader writer rfl
  | pause =>
      rw [← Except.ok.inj taken, pause, if_neg h.status.1]
      exact .refl h
  | resume =>
      rcases resume_cases taken with ⟨-, rfl⟩ | ⟨was, -⟩
      · exact .refl h
      · exact absurd was h.status.2.1
  | cancel =>
      rw [← Except.ok.inj taken]
      refine .of_sends h (sends_sendPacket ((s.setStatus .Cancelled).emit _) .TransferCancel _)
        (by decide) (early .Cancelled rfl (by decide)) ?_ ?_ rfl
      · show s.fileReader.map FileReader.close = none
        rw [reader]
        rfl
      · show s.fileWriter.map FileWriter.abort = none
        rw [writer]
        rfl
  | startSend manifest localDeviceName chunkSize =>
      rw [← Except.ok.inj taken]
      exact .silent h rfl (early .Connecting rfl (by decide)) reader writer rfl
  | socketConnected =>
      rw [← Except.ok.inj taken]
      split
      · exact .of_sends h (sends_sendPacket ({ s with connected := true }.setStatus .Handshaking)
          .HandshakeReq _) (by decide) (early .Handshaking rfl (by decide)) reader writer rfl
      · exact .refl h
  | socketDisconnected =>
      rw [← Except.ok.inj taken, onSocketDisconnected, if_neg (by exact h.status.1)]
      exact .silent h rfl h.status reader writer rfl
  | socketError errorMsg =>
      rw [← Except.ok.inj taken, onSocketError]
      split
      · exact .silent h rfl (early .Failed rfl (by decide)) reader writer rfl
      · exact .refl h
  | bytesWritten pending =>
      have next := onBytesTransferred_cases taken
      rw [next.absent (by exact reader)]
      exact .silent h rfl h.status reader writer rfl
  | drain pending =>
      rw [← Except.ok.inj taken]
      exact .silent h rfl h.status reader writer rfl
  | sendNextChunk =>
      have next := sendNextChunk_cases taken
      rw [next.absent (by exact reader)]
      exact .silent h rfl h.status reader writer rfl
  | metricsTick =>
      rw [← Except.ok.inj taken, calculateMetrics, if_neg fun both => h.status.1 both.2]
      exact .refl h

/-- No offer is accepted yet. -/
def unanswered (l : Link B) : Duplex.Move Occurrence → Bool
  | .left e => unaccepted l.left.session e.val
  | .right e => unaccepted l.right.session e.val
  | .toRight | .toLeft => true

structure Untouched (start l : Link B) : Prop where
  left : Reserved l.left.session ∧ l.left.session.disk = start.left.session.disk
  right : Reserved l.right.session ∧ l.right.session.disk = start.right.session.disk
  toRight : ∀ p ∈ l.toRight, p.type ∈ greetings
  toLeft : ∀ p ∈ l.toLeft, p.type ∈ greetings

private theorem greetings_append {a b : List Packet} (first : ∀ p ∈ a, p.type ∈ greetings)
    (second : ∀ p ∈ b, p.type ∈ greetings) : ∀ p ∈ a ++ b, p.type ∈ greetings := by
  intro p mem
  rcases List.mem_append.mp mem with mem | mem
  · exact first p mem
  · exact second p mem

private theorem reserved_refuse {s : TransferSession B} (h : Reserved s) : Reserved s.refuse := by
  obtain ⟨same, outbox, status⟩ := refuse_frame s
  refine ⟨?_, same.fileReader.trans h.fileReader, same.fileWriter.trans h.fileWriter,
    outbox ▸ h.outbox⟩
  rcases status with kept | failed
  · rw [kept]
    exact h.status
  · rw [failed]
    decide

/-- A session that receives a greeting stays reserved and leaves its disk alone. -/
private theorem reserved_receive {E E' : Endpoint B} {p : Packet} {out : List Packet}
    (h : Reserved E.session) (greeting : p.type ∈ greetings)
    (received : Link.receive J E p = .ok (E', out)) :
    Reserved E'.session ∧ E'.session.disk = E.session.disk ∧ ∀ q ∈ out, q.type ∈ greetings := by
  rcases Link.receive_ok received with ⟨-, rfl, rfl⟩ | ⟨-, -, t, taken, rfl, rfl⟩
  · exact ⟨reserved_refuse h, (refuse_frame E.session).1.disk, List.forall_mem_nil _⟩
  · obtain ⟨reserved, disk, sent⟩ := h.packet greeting taken
    exact ⟨reserved, disk, sent⟩

/-- Until a user accepts an offer, the two sessions exchange greetings only: no file is opened to
be sent, and neither disk is touched, whatever the users and the network do. -/
theorem nothing_before_consent (J : QJson) {start l : Link B}
    {moves : List (Duplex.Move Occurrence)} (left : Initial start.left.session)
    (right : Initial start.right.session) (toRight : start.toRight = [])
    (toLeft : start.toLeft = [])
    (run : Run (Guarded (Steps J) fun l move => unanswered l move = true) start moves l) :
    Untouched start l := by
  have initial : ∀ s : TransferSession B, Initial s → Reserved s := by
    intro s made
    cases made with
    | new direction transferId disk =>
        exact ⟨early .Idle rfl (by decide), rfl, rfl, List.forall_mem_nil _⟩
    | fromConnection transferId disk =>
        exact ⟨early .Handshaking rfl (by decide), rfl, rfl, List.forall_mem_nil _⟩
  refine Duplex.invariant (Untouched start) ?_ ?_ ?_ ?_ run
    ⟨⟨initial _ left, rfl⟩, ⟨initial _ right, rfl⟩, ?_, ?_⟩
  · intro d e E out h allowed acted
    obtain ⟨t, taken, rfl, rfl⟩ := act_ok acted
    obtain ⟨reserved, disk, sent⟩ := h.left.1.occurrence e.property allowed taken
    exact ⟨⟨reserved, disk.trans h.left.2⟩, h.right, greetings_append h.toRight sent, h.toLeft⟩
  · intro d e E out h allowed acted
    obtain ⟨t, taken, rfl, rfl⟩ := act_ok acted
    obtain ⟨reserved, disk, sent⟩ := h.right.1.occurrence e.property allowed taken
    exact ⟨h.left, ⟨reserved, disk.trans h.right.2⟩, h.toRight, greetings_append h.toLeft sent⟩
  · intro d p rest E out h _ pending received
    have ahead := h.toRight
    rw [pending] at ahead
    obtain ⟨reserved, disk, sent⟩ :=
      reserved_receive h.right.1 (ahead p List.mem_cons_self) received
    exact ⟨h.left, ⟨reserved, disk.trans h.right.2⟩, fun q mem => ahead q (.tail p mem),
      greetings_append h.toLeft sent⟩
  · intro d p rest E out h _ pending received
    have ahead := h.toLeft
    rw [pending] at ahead
    obtain ⟨reserved, disk, sent⟩ :=
      reserved_receive h.left.1 (ahead p List.mem_cons_self) received
    exact ⟨⟨reserved, disk.trans h.left.2⟩, h.right, greetings_append h.toRight sent,
      fun q mem => ahead q (.tail p mem)⟩
  · rw [toRight]
    exact List.forall_mem_nil _
  · rw [toLeft]
    exact List.forall_mem_nil _

/-- An offer is made and shown, and nothing is touched. -/
theorem nothing_before_consent_shown :
    let start : Link Blake3.vendored :=
      ⟨{ session := new _ .Send oneFile.transferId oneFile.sender },
        { session := fromConnection _ oneFile.receiverId oneFile.receiver }, [], []⟩
    ∃ l, l.right.session.receivedOffer = some oneFile.offer ∧ Untouched start l := by
  intro start
  let sends : Occurrence :=
    ⟨.startSend oneFile.manifest oneFile.deviceName oneFile.chunkSize, rfl⟩
  have computed : ((.left sends :: greeted).foldlM (tryGuarded unanswered) start).map
      (fun l => l.right.session.receivedOffer) = some (some oneFile.offer) := by
    decide +kernel
  obtain ⟨l, reached, offer⟩ := Option.map_eq_some_iff.mp computed
  exact ⟨l, offer, nothing_before_consent CompactJson.codec (.new .Send _ _)
    (.fromConnection _ _) rfl rfl (run_tryGuarded reached)⟩

end Encounter

end FastTransfer
