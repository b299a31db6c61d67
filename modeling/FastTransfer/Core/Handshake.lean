/- FastTransfer/Core/Handshake
   source: src/core/TransferSession.cpp, src/network/Protocol.cpp
   digest: From the connection to the acceptance: what both ends know when a transfer begins. -/

import FastTransfer.Core.Encounter
import FastTransfer.Network.RoundTrip

set_option autoImplicit false
set_option relaxedAutoImplicit false

namespace FastTransfer.Encounter

open TransferSession Protocol
open QString (literal)

variable {B : Blake3} {J : QJson}

def Approach.greeting (self : Approach) : MsgHandshakeReq :=
  ⟨PROTOCOL_VERSION, self.deviceName, osType⟩

/-- The answer to a greeting. A session of an incoming connection has no device name. -/
def answer : MsgHandshakeResp := ⟨PROTOCOL_VERSION, [], true, []⟩

variable {A : Approach}

structure Caller (A : Approach) (s : TransferSession B) : Prop where
  direction : s.direction = .Send
  ownsConnection : s.ownsConnection = true
  receivedOffer : s.receivedOffer = none
  fileReader : s.fileReader = none
  fileWriter : s.fileWriter = none
  currentFileIndex : s.currentFileIndex = 0
  waitingFileAck : s.waitingFileAck = false
  chunkSize : 0 < s.chunkSize
  totalTransferred : s.metrics.totalTransferred = 0
  transferId : s.transferId = A.transferId
  localDeviceName : s.localDeviceName = A.deviceName
  sendManifest : s.sendManifest = A.manifest
  disk : s.disk = A.sender
  outbox : ∀ p ∈ s.outbox, p.type = .HandshakeReq ∨ p.type = .TransferOffer

structure Callee (A : Approach) (s : TransferSession B) : Prop where
  direction : s.direction = .Receive
  ownsConnection : s.ownsConnection = false
  fileReader : s.fileReader = none
  fileWriter : s.fileWriter = none
  currentFileIndex : s.currentFileIndex = 0
  localDeviceName : s.localDeviceName = []
  disk : s.disk = A.receiver
  status : s.status ≠ .Transferring ∧ s.status ≠ .Paused
  outbox : ∀ p ∈ s.outbox, p.type = .HandshakeResp ∨ p.type = .TransferAccept

/-- Only members that say nothing of the encounter have changed. -/
def Waited (s t : TransferSession B) : Prop :=
  ∃ pending calls baseOutputDir policy subfolder,
    t = { s with
      bytesToWrite := pending, queuedCalls := calls, baseOutputDir := baseOutputDir
      duplicatePolicy := policy, sessionSubfolder := subfolder }

/-- The network brings the connection up once, neither user breaks off, and no offer is
accepted yet. -/
def calm (s : TransferSession B) : Event → Bool
  | .cancel | .rejectTransfer _ | .startSend _ _ _ | .socketDisconnected | .socketError _ => false
  | .socketConnected => s.status = .Connecting || !s.ownsConnection
  | .acceptTransfer _ _ _ => s.receivedOffer.isNone
  | _ => true

theorem waited_calm {s t : TransferSession B} {e : Event}
    (status : s.status ≠ .Transferring ∧ s.status ≠ .Paused) (fileReader : s.fileReader = none)
    (other : e.isPacket = false) (allowed : calm s e = true)
    (accepted : e = .socketConnected → s.ownsConnection = false)
    (taken : TransferSession.Steps J s e t) : Waited s t := by
  have same : Waited s s := ⟨_, _, _, _, _, rfl⟩
  cases e with
  | packet p => cases other
  | acceptTransfer baseOutputDir policy timestamp =>
      have absent : s.receivedOffer.isNone = true := allowed
      rw [← Except.ok.inj taken, acceptTransfer]
      dsimp only
      rw [if_pos absent]
      exact ⟨_, _, _, _, _, rfl⟩
  | pause =>
      rw [← Except.ok.inj taken, pause, if_neg status.1]
      exact same
  | resume =>
      rcases resume_cases taken with ⟨-, rfl⟩ | ⟨was, -⟩
      · exact same
      · exact absurd was status.2
  | socketConnected =>
      rw [← Except.ok.inj taken, if_neg (by rw [accepted rfl]; decide)]
      exact same
  | bytesWritten pending =>
      have next := onBytesTransferred_cases taken
      rw [next.absent (by exact fileReader)]
      exact ⟨_, _, _, _, _, rfl⟩
  | drain pending =>
      rw [← Except.ok.inj taken]
      exact ⟨_, _, _, _, _, rfl⟩
  | sendNextChunk =>
      have next := sendNextChunk_cases taken
      rw [next.absent (by exact fileReader)]
      exact ⟨_, _, _, _, _, rfl⟩
  | metricsTick =>
      rw [← Except.ok.inj taken, calculateMetrics, if_neg fun both => status.1 both.2]
      exact same
  | rejectTransfer | cancel | startSend | socketDisconnected | socketError => cases allowed

theorem Waited.sent {s t : TransferSession B} (h : Waited s t) : sentSince s t = [] := by
  obtain ⟨_, _, _, _, _, rfl⟩ := h
  exact sentSince_eq (List.append_nil s.outbox).symm

theorem Caller.waited {s t : TransferSession B} (h : Caller A s) (waited : Waited s t) :
    Caller A t := by
  obtain ⟨_, _, _, _, _, rfl⟩ := waited
  exact ⟨h.direction, h.ownsConnection, h.receivedOffer, h.fileReader, h.fileWriter,
    h.currentFileIndex, h.waitingFileAck, h.chunkSize, h.totalTransferred, h.transferId,
    h.localDeviceName, h.sendManifest, h.disk, h.outbox⟩

theorem Callee.waited {s t : TransferSession B} (h : Callee A s) (waited : Waited s t) :
    Callee A t := by
  obtain ⟨_, _, _, _, _, rfl⟩ := waited
  exact ⟨h.direction, h.ownsConnection, h.fileReader, h.fileWriter, h.currentFileIndex,
    h.localDeviceName, h.disk, h.status, h.outbox⟩

inductive Phase (J : QJson) (A : Approach) (left right : TransferSession B)
    (ahead back : List Packet) : Prop
  | connecting (status : left.status = .Connecting) (connected : right.connected = true)
      (none : right.receivedOffer = none) (flight : ahead = [] ∧ back = [])
  | requested (status : left.status = .Handshaking)
      (connected : left.connected = true ∧ right.connected = true)
      (none : right.receivedOffer = none)
      (flight : ahead = [⟨.HandshakeReq, 0, serializeHandshakeReq J A.greeting⟩] ∧ back = [])
  | answered (status : left.status = .Handshaking)
      (connected : left.connected = true ∧ right.connected = true)
      (none : right.receivedOffer = none)
      (flight : ahead = [] ∧ back = [⟨.HandshakeResp, 0, serializeHandshakeResp J answer⟩])
  | offered (status : left.status = .WaitingApproval)
      (connected : left.connected = true ∧ right.connected = true)
      (none : right.receivedOffer = none)
      (flight : ahead = [⟨.TransferOffer, 0, serializeTransferOffer A.offer⟩] ∧ back = [])
  | waiting {offer : MsgTransferOffer} (status : left.status = .WaitingApproval)
      (connected : left.connected = true ∧ right.connected = true)
      (received : right.receivedOffer = some offer) (shown : right.status = .WaitingApproval)
      (read : parseTransferOffer (serializeTransferOffer A.offer) = some offer)
      (named : right.transferId = offer.transferId ∧ right.remoteDevice = offer.senderDevice)
      (flight : ahead = [] ∧ back = [])

/-- One end has refused a packet, or the offer was not understood. -/
structure Stuck (A : Approach) (l : Link B) : Prop where
  status : l.left.session.status = .Handshaking ∨ l.left.session.status = .WaitingApproval
  none : l.right.session.receivedOffer = none
  flight : l.toRight = [] ∧ l.toLeft = []
  reason : l.left.deaf = true ∨ l.right.deaf = true ∨
    parseTransferOffer (serializeTransferOffer A.offer) = Option.none

/-- The sessions of a link on their way to the acceptance. -/
structure Approaching (J : QJson) (A : Approach) (l : Link B) : Prop where
  caller : Caller A l.left.session
  callee : Callee A l.right.session
  state : (l.left.deaf = false ∧ l.right.deaf = false) ∧
    Phase J A l.left.session l.right.session l.toRight l.toLeft ∨ Stuck A l

theorem Phase.waited {left left' right right' : TransferSession B} {ahead back : List Packet}
    (h : Phase J A left right ahead back) (first : Waited left left')
    (second : Waited right right') : Phase J A left' right' ahead back := by
  obtain ⟨_, _, _, _, _, rfl⟩ := first
  obtain ⟨_, _, _, _, _, rfl⟩ := second
  cases h with
  | connecting status connected none flight => exact .connecting status connected none flight
  | requested status connected none flight => exact .requested status connected none flight
  | answered status connected none flight => exact .answered status connected none flight
  | offered status connected none flight => exact .offered status connected none flight
  | waiting status connected received shown read named flight =>
      exact .waiting status connected received shown read named flight

theorem Phase.status {left right : TransferSession B} {ahead back : List Packet}
    (h : Phase J A left right ahead back) :
    left.status ≠ .Transferring ∧ left.status ≠ .Paused := by
  have early : left.status ∈ [.Connecting, .Handshaking, .WaitingApproval] := by
    cases h with
    | connecting status => rw [status]; decide
    | requested status => rw [status]; decide
    | answered status => rw [status]; decide
    | offered status => rw [status]; decide
    | waiting status => rw [status]; decide
  revert early
  cases left.status <;> decide

theorem Stuck.early {l : Link B} (h : Stuck A l) :
    l.left.session.status ≠ .Transferring ∧ l.left.session.status ≠ .Paused ∧
      l.left.session.status ≠ .Connecting := by
  rcases h.status with status | status
  · rw [status]
    decide
  · rw [status]
    decide

theorem Waited.refl (s : TransferSession B) : Waited s s := ⟨_, _, _, _, _, rfl⟩

theorem Caller.connected {s : TransferSession B} (h : Caller A s) :
    Caller A (onSocketConnected J s) ∧ (onSocketConnected J s).status = .Handshaking ∧
      (onSocketConnected J s).connected = true ∧ sentSince s (onSocketConnected J s) =
        [⟨.HandshakeReq, 0, serializeHandshakeReq J A.greeting⟩] := by
  have outbox : (onSocketConnected J s).outbox = s.outbox ++
      [⟨.HandshakeReq, 0, serializeHandshakeReq J A.greeting⟩] := by
    rw [Approach.greeting, ← h.localDeviceName]
    exact sendPacket_outbox (s := setStatus { s with connected := true } .Handshaking) rfl
      .HandshakeReq _
  refine ⟨⟨h.direction, h.ownsConnection, h.receivedOffer, h.fileReader, h.fileWriter,
    h.currentFileIndex, h.waitingFileAck, h.chunkSize, h.totalTransferred, h.transferId,
    h.localDeviceName, h.sendManifest, h.disk, fun p mem => ?_⟩, rfl, rfl, sentSince_eq outbox⟩
  rw [outbox] at mem
  rcases List.mem_append.mp mem with earlier | new
  · exact h.outbox p earlier
  · rw [List.mem_singleton.mp new]
    exact .inl rfl

theorem parseHandshakeReq_serialize (J : QJson) (msg : MsgHandshakeReq) :
    ∃ read, parseHandshakeReq J (serializeHandshakeReq J msg) = some read := by
  obtain ⟨obj, read, -⟩ := J.fromJson_toJson
    [(literal "device", .string msg.deviceName), (literal "os", .string msg.osType),
      (literal "version", .integer msg.version.toUInt64.toInt64)]
  exact ⟨_, by rw [parseHandshakeReq, serializeHandshakeReq, read]; rfl⟩

private theorem Callee.greeted {s t : TransferSession B} {req : MsgHandshakeReq}
    (h : Callee A s) (connected : s.connected = true)
    (taken : TransferSession.Steps J s
      (.packet ⟨.HandshakeReq, 0, serializeHandshakeReq J req⟩) t) :
    Callee A t ∧ t.receivedOffer = s.receivedOffer ∧ t.connected = true ∧
      sentSince s t = [⟨.HandshakeResp, 0, serializeHandshakeResp J answer⟩] := by
  obtain ⟨read, parsed⟩ := parseHandshakeReq_serialize J req
  rw [← Except.ok.inj taken]
  show Callee A (onHandshakeReq J s _) ∧ (onHandshakeReq J s _).receivedOffer = _ ∧
    (onHandshakeReq J s _).connected = true ∧ sentSince s (onHandshakeReq J s _) = _
  unfold onHandshakeReq
  rw [parsed]
  dsimp only
  have reply : (⟨PROTOCOL_VERSION, s.localDeviceName, true, []⟩ : MsgHandshakeResp) = answer := by
    rw [h.localDeviceName]
    rfl
  rw [reply]
  have outbox := sendPacket_outbox (s := { s with remoteDevice := read.deviceName }) connected
    .HandshakeResp (serializeHandshakeResp J answer)
  have status := early (t := ({ s with remoteDevice := read.deviceName }.sendPacket
    .HandshakeResp (serializeHandshakeResp J answer)).setStatus .Offering) .Offering rfl
    (by decide)
  refine ⟨⟨h.direction, h.ownsConnection, h.fileReader, h.fileWriter, h.currentFileIndex,
    h.localDeviceName, h.disk, ⟨status.1, status.2.1⟩, fun p mem => ?_⟩, rfl, connected,
    sentSince_eq outbox⟩
  have among : p ∈ s.outbox ++ [⟨.HandshakeResp, 0, serializeHandshakeResp J answer⟩] :=
    outbox ▸ mem
  rcases List.mem_append.mp among with earlier | new
  · exact h.outbox p earlier
  · rw [List.mem_singleton.mp new]
    exact .inl rfl

theorem Caller.answered {s t : TransferSession B} {msg : MsgHandshakeResp}
    (h : Caller A s) (connected : s.connected = true) (yes : msg.accepted = true)
    (taken : TransferSession.Steps J s
      (.packet ⟨.HandshakeResp, 0, serializeHandshakeResp J msg⟩) t) :
    Caller A t ∧ t.status = .WaitingApproval ∧ t.connected = true ∧
      sentSince s t = [⟨.TransferOffer, 0, serializeTransferOffer A.offer⟩] := by
  obtain ⟨resp, parsed, accepted⟩ := parseHandshakeResp_serialize J msg
  have offer : s.sendManifest.offer s.transferId s.localDeviceName = A.offer := by
    rw [h.sendManifest, h.transferId, h.localDeviceName]
    rfl
  have outbox := FileEnumerator.offer_sent J s parsed (accepted.trans yes) connected
  rw [offer] at outbox
  rw [← Except.ok.inj taken]
  show Caller A (onHandshakeResp J s _) ∧ (onHandshakeResp J s _).status = _ ∧
    (onHandshakeResp J s _).connected = true ∧ sentSince s (onHandshakeResp J s _) = _
  refine ⟨?_, ?_, ?_, sentSince_eq outbox⟩
  · have among : ∀ p ∈ (onHandshakeResp J s (serializeHandshakeResp J msg)).outbox,
        p.type = .HandshakeReq ∨ p.type = .TransferOffer := by
      intro p mem
      rw [outbox] at mem
      rcases List.mem_append.mp mem with earlier | new
      · exact h.outbox p earlier
      · rw [List.mem_singleton.mp new]
        exact .inr rfl
    unfold onHandshakeResp at among ⊢
    rw [parsed] at among ⊢
    dsimp only at among ⊢
    rw [if_pos (accepted.trans yes)] at among ⊢
    exact ⟨h.direction, h.ownsConnection, h.receivedOffer, h.fileReader, h.fileWriter,
      h.currentFileIndex, h.waitingFileAck, h.chunkSize, h.totalTransferred, h.transferId,
      h.localDeviceName, h.sendManifest, h.disk, among⟩
  · unfold onHandshakeResp
    rw [parsed]
    dsimp only
    rw [if_pos (accepted.trans yes)]
    rfl
  · unfold onHandshakeResp
    rw [parsed]
    dsimp only
    rw [if_pos (accepted.trans yes)]
    exact connected

/-- The callee understands the offer and shows it to its user, or does nothing. -/
private theorem Callee.offered {s t : TransferSession B} (h : Callee A s)
    (taken : TransferSession.Steps J s
      (.packet ⟨.TransferOffer, 0, serializeTransferOffer A.offer⟩) t) :
    t = s ∧ parseTransferOffer (serializeTransferOffer A.offer) = none ∨
      Callee A t ∧ t.connected = s.connected ∧ sentSince s t = [] ∧
        ∃ offer, parseTransferOffer (serializeTransferOffer A.offer) = some offer ∧
          t.receivedOffer = some offer ∧ t.status = .WaitingApproval ∧
          t.transferId = offer.transferId ∧ t.remoteDevice = offer.senderDevice := by
  rw [← Except.ok.inj taken]
  show onTransferOffer s _ = s ∧ _ ∨ _
  unfold onTransferOffer
  cases parseTransferOffer (serializeTransferOffer A.offer) with
  | none => exact .inl ⟨rfl, rfl⟩
  | some offer =>
      refine .inr ⟨⟨h.direction, h.ownsConnection, h.fileReader, h.fileWriter, h.currentFileIndex,
        h.localDeviceName, h.disk, ⟨?_, ?_⟩, h.outbox⟩, rfl, sentSince_eq (List.append_nil _).symm,
        offer, rfl, rfl, rfl, rfl, rfl⟩
      · intro other
        cases other
      · intro other
        cases other

/-- Neither user and not the network breaks the encounter off. -/
def undisturbed (l : Link B) : Duplex.Move Occurrence → Bool
  | .left e => calm l.left.session e.val
  | .right e => calm l.right.session e.val
  | .toRight | .toLeft => true

theorem approaching_start (J : QJson) (A : Approach) : Approaching J A (A.start B) := by
  have positive : 0 < if 0 < A.chunkSize then A.chunkSize else DEFAULT_CHUNK_SIZE := by
    split
    · assumption
    · decide
  refine ⟨⟨rfl, rfl, rfl, rfl, rfl, rfl, rfl, positive, rfl, rfl, rfl, rfl, rfl,
    List.forall_mem_nil _⟩, ⟨rfl, rfl, rfl, rfl, rfl, rfl, rfl, ⟨?_, ?_⟩, List.forall_mem_nil _⟩,
    .inl ⟨⟨rfl, rfl⟩, .connecting rfl rfl rfl ⟨rfl, rfl⟩⟩⟩
  · intro other
    cases other
  · intro other
    cases other

section Keeps

variable {d : Link B} {E : Endpoint B} {out : List Packet}

private theorem Approaching.waited {left right : TransferSession B} (h : Approaching J A d)
    (first : Waited d.left.session left) (second : Waited d.right.session right) :
    Approaching J A { d with
      left := { d.left with session := left }, right := { d.right with session := right } } := by
  refine ⟨h.caller.waited first, h.callee.waited second, ?_⟩
  rcases h.state with ⟨hears, phase⟩ | stuck
  · exact .inl ⟨hears, phase.waited first second⟩
  · obtain ⟨_, _, _, _, _, rfl⟩ := first
    obtain ⟨_, _, _, _, _, rfl⟩ := second
    exact .inr ⟨stuck.status, stuck.none, stuck.flight, stuck.reason⟩

theorem Approaching.left {e : Occurrence} (h : Approaching J A d)
    (allowed : calm d.left.session e.val = true) (acted : act J d.left e = .ok (E, out)) :
    Approaching J A { d with left := E, toRight := d.toRight ++ out } := by
  obtain ⟨t, taken, rfl, rfl⟩ := act_ok acted
  have caller := h.caller
  by_cases own : e.val = .socketConnected
  · have begins : d.left.session.status = .Connecting := by
      rw [own, calm, caller.ownsConnection] at allowed
      simpa using allowed
    rw [own] at taken
    have same : t = onSocketConnected J d.left.session := by
      rw [← Except.ok.inj taken, if_pos caller.ownsConnection]
    obtain ⟨caller', status, connected, sent⟩ := caller.connected (J := J)
    rw [← same] at caller' status connected sent
    obtain ⟨hears, phase⟩ := h.state.resolve_right fun stuck => stuck.early.2.2 begins
    cases phase with
    | connecting _ online none flight =>
        have one : d.toRight ++ sentSince d.left.session t =
            [⟨.HandshakeReq, 0, serializeHandshakeReq J A.greeting⟩] := by
          rw [flight.1, sent]
          rfl
        exact ⟨caller', h.callee, .inl ⟨hears,
          .requested status ⟨connected, online⟩ none ⟨one, flight.2⟩⟩⟩
    | requested other => cases begins.symm.trans other
    | answered other => cases begins.symm.trans other
    | offered other => cases begins.symm.trans other
    | waiting other => cases begins.symm.trans other
  · have status : d.left.session.status ≠ .Transferring ∧ d.left.session.status ≠ .Paused := by
      rcases h.state with ⟨-, phase⟩ | stuck
      · exact phase.status
      · exact ⟨stuck.early.1, stuck.early.2.1⟩
    have waited := waited_calm status caller.fileReader e.property allowed
      (fun own' => absurd own' own) taken
    rw [waited.sent, List.append_nil]
    exact h.waited waited (.refl _)

theorem Approaching.right {e : Occurrence} (h : Approaching J A d)
    (allowed : calm d.right.session e.val = true) (acted : act J d.right e = .ok (E, out)) :
    Approaching J A { d with right := E, toLeft := d.toLeft ++ out } := by
  obtain ⟨t, taken, rfl, rfl⟩ := act_ok acted
  have waited := waited_calm h.callee.status h.callee.fileReader e.property allowed
    (fun _ => h.callee.ownsConnection) taken
  rw [waited.sent, List.append_nil]
  exact h.waited (.refl _) waited

theorem refuse_receivedOffer (s : TransferSession B) :
    s.refuse.receivedOffer = s.receivedOffer := by
  unfold refuse onSocketError
  split <;> rfl

theorem refuse_localDeviceName (s : TransferSession B) :
    s.refuse.localDeviceName = s.localDeviceName := by
  unfold refuse onSocketError
  split <;> rfl

private theorem Callee.refuse {s : TransferSession B} (h : Callee A s) : Callee A s.refuse := by
  obtain ⟨same, outbox, status⟩ := refuse_frame s
  refine ⟨same.direction.trans h.direction, same.ownsConnection.trans h.ownsConnection,
    same.fileReader.trans h.fileReader, same.fileWriter.trans h.fileWriter,
    same.currentFileIndex.trans h.currentFileIndex,
    (refuse_localDeviceName s).trans h.localDeviceName, same.disk.trans h.disk, ?_,
    outbox ▸ h.outbox⟩
  rcases status with kept | failed
  · rw [kept]
    exact h.status
  · rw [failed]
    decide

private theorem Caller.refuse {s : TransferSession B} (h : Caller A s)
    (status : s.status = .Handshaking) : Caller A s.refuse ∧ s.refuse.status = .Handshaking := by
  have same : s.refuse = s.disconnectFromHost := by
    unfold TransferSession.refuse onSocketError
    rw [if_neg (by rw [status]; decide)]
  rw [same]
  exact ⟨⟨h.direction, h.ownsConnection, h.receivedOffer, h.fileReader, h.fileWriter,
    h.currentFileIndex, h.waitingFileAck, h.chunkSize, h.totalTransferred, h.transferId,
    h.localDeviceName, h.sendManifest, h.disk, h.outbox⟩, status⟩

private theorem sentSince_self (s : TransferSession B) : sentSince s s = [] :=
  sentSince_eq (List.append_nil s.outbox).symm

theorem Approaching.toRight {p : Packet} {rest : List Packet} (h : Approaching J A d)
    (pending : d.toRight = p :: rest) (received : Link.receive J d.right p = .ok (E, out)) :
    Approaching J A { d with right := E, toRight := rest, toLeft := d.toLeft ++ out } := by
  obtain ⟨caller, callee, state⟩ := h
  obtain ⟨hears, phase⟩ := state.resolve_right fun stuck => by
    cases pending.symm.trans stuck.flight.1
  have refused : d.right.session.receivedOffer = none →
      d.right.session.refuse.receivedOffer = none := (refuse_receivedOffer _).trans
  cases phase with
  | requested status connected none flight =>
      obtain ⟨one, back⟩ := flight
      obtain ⟨rfl, rfl⟩ := List.cons.inj (pending.symm.trans one)
      rcases Link.receive_ok received with ⟨-, rfl, rfl⟩ | ⟨-, -, t, taken, rfl, rfl⟩
      · exact ⟨caller, callee.refuse, .inr ⟨.inl status, refused none,
          ⟨rfl, (List.append_nil d.toLeft).trans back⟩, .inr (.inl rfl)⟩⟩
      · obtain ⟨callee', same, online, sent⟩ := callee.greeted connected.2 taken
        have answered : d.toLeft ++ sentSince d.right.session t =
            [⟨.HandshakeResp, 0, serializeHandshakeResp J answer⟩] := by
          rw [sent, back]
          rfl
        exact ⟨caller, callee', .inl ⟨hears,
          .answered status ⟨connected.1, online⟩ (same.trans none) ⟨rfl, answered⟩⟩⟩
  | offered status connected none flight =>
      obtain ⟨one, back⟩ := flight
      obtain ⟨rfl, rfl⟩ := List.cons.inj (pending.symm.trans one)
      rcases Link.receive_ok received with ⟨-, rfl, rfl⟩ | ⟨-, -, t, taken, rfl, rfl⟩
      · exact ⟨caller, callee.refuse, .inr ⟨.inr status, refused none,
          ⟨rfl, (List.append_nil d.toLeft).trans back⟩, .inr (.inl rfl)⟩⟩
      · rcases callee.offered taken with
          ⟨rfl, unread⟩ | ⟨callee', online, sent, offer, read, received, shown, named⟩
        · have quiet : d.toLeft ++ sentSince d.right.session d.right.session = [] := by
            rw [sentSince_self, back]
            rfl
          exact ⟨caller, callee, .inr ⟨.inr status, none, ⟨rfl, quiet⟩, .inr (.inr unread)⟩⟩
        · have quiet : d.toLeft ++ sentSince d.right.session t = [] := by
            rw [sent, back]
            rfl
          exact ⟨caller, callee', .inl ⟨hears, .waiting status
            ⟨connected.1, online.trans connected.2⟩ received shown read named ⟨rfl, quiet⟩⟩⟩
  | connecting _ _ _ flight => cases pending.symm.trans flight.1
  | answered _ _ _ flight => cases pending.symm.trans flight.1
  | waiting _ _ _ _ _ _ flight => cases pending.symm.trans flight.1

theorem Approaching.toLeft {p : Packet} {rest : List Packet} (h : Approaching J A d)
    (pending : d.toLeft = p :: rest) (received : Link.receive J d.left p = .ok (E, out)) :
    Approaching J A { d with left := E, toLeft := rest, toRight := d.toRight ++ out } := by
  obtain ⟨caller, callee, state⟩ := h
  obtain ⟨hears, phase⟩ := state.resolve_right fun stuck => by
    cases pending.symm.trans stuck.flight.2
  cases phase with
  | answered status connected none flight =>
      obtain ⟨ahead, one⟩ := flight
      obtain ⟨rfl, rfl⟩ := List.cons.inj (pending.symm.trans one)
      rcases Link.receive_ok received with ⟨-, rfl, rfl⟩ | ⟨-, -, t, taken, rfl, rfl⟩
      · obtain ⟨caller', status'⟩ := caller.refuse status
        exact ⟨caller', callee, .inr ⟨.inl status', none,
          ⟨(List.append_nil d.toRight).trans ahead, rfl⟩, .inl rfl⟩⟩
      · obtain ⟨caller', waits, online, sent⟩ := caller.answered connected.1 rfl taken
        have offer : d.toRight ++ sentSince d.left.session t =
            [⟨.TransferOffer, 0, serializeTransferOffer A.offer⟩] := by
          rw [sent, ahead]
          rfl
        exact ⟨caller', callee, .inl ⟨hears,
          .offered waits ⟨online, connected.2⟩ none ⟨offer, rfl⟩⟩⟩
  | connecting _ _ _ flight => cases pending.symm.trans flight.2
  | requested _ _ _ flight => cases pending.symm.trans flight.2
  | offered _ _ _ flight => cases pending.symm.trans flight.2
  | waiting _ _ _ _ _ _ flight => cases pending.symm.trans flight.2

end Keeps

theorem approaching_run {l : Link B} {moves : List (Duplex.Move Occurrence)}
    (run : Run (Guarded (Steps J) fun l move => undisturbed l move = true) (A.start B) moves l) :
    Approaching J A l :=
  Duplex.invariant (Approaching J A) (fun _ _ _ _ h allowed acted => h.left allowed acted)
    (fun _ _ _ _ h allowed acted => h.right allowed acted)
    (fun _ _ _ _ _ h _ pending received => h.toRight pending received)
    (fun _ _ _ _ _ h _ pending received => h.toLeft pending received) run
    (approaching_start J A)

def forget (l : Link B) : Link B :=
  { l with left := { l.left with handled := [] }, right := { l.right with handled := [] } }

/-- Both ends know of one transfer: the one that the left party is to send. -/
structure Agreed (J : QJson) (A : Approach) (l : Link B) : Prop where
  start : Link.Start J (forget l)
  offer : l.right.session.receivedOffer = some A.offer
  transferId : l.right.session.transferId = l.left.session.transferId
  remoteDevice : l.right.session.remoteDevice = l.left.session.localDeviceName
  sendManifest : l.left.session.sendManifest = A.manifest
  disks : l.left.session.disk = A.sender ∧ l.right.session.disk = A.receiver

theorem acceptTransfer_keeps (J : QJson) (s : TransferSession B) (baseOutputDir : QString)
    (policy : DuplicatePolicy) (timestamp : QString) :
    let t := acceptTransfer J s baseOutputDir policy timestamp
    t.receivedOffer = s.receivedOffer ∧ t.transferId = s.transferId ∧
      t.remoteDevice = s.remoteDevice ∧ t.disk = s.disk := by
  dsimp only [acceptTransfer]
  split <;> exact ⟨rfl, rfl, rfl, rfl⟩

/-- The acceptance of an offer that is shown to the user begins the transfer. -/
theorem Approaching.accepted {l l' : Link B} {e : Occurrence} {baseOutputDir timestamp : QString}
    {policy : DuplicatePolicy} (h : Approaching J A l) (admissible : A.offer.Admissible)
    (shown : l.right.session.receivedOffer.isSome = true)
    (accepts : e.val = .acceptTransfer baseOutputDir policy timestamp)
    (taken : Steps J l (.right e) l') : Agreed J A l' := by
  obtain ⟨caller, callee, state⟩ := h
  obtain ⟨⟨E, out⟩, acted, rfl⟩ := Except.ok_of_map taken
  obtain ⟨t, stepped, rfl, rfl⟩ := act_ok acted
  rw [accepts] at stepped
  have same : t = acceptTransfer J l.right.session baseOutputDir policy timestamp :=
    (Except.ok.inj stepped).symm
  have absent : l.right.session.receivedOffer ≠ none := by
    intro none
    rw [none] at shown
    cases shown
  obtain ⟨hears, phase⟩ := state.resolve_right fun stuck => absent stuck.none
  cases phase with
  | waiting status connected received _ read named flight =>
      cases (parseTransferOffer_serialize admissible).symm.trans read
      obtain ⟨accepted, sent⟩ := Link.accepted_acceptTransfer J callee.direction
        callee.ownsConnection connected.2 callee.fileReader callee.fileWriter
        callee.currentFileIndex shown callee.outbox baseOutputDir policy timestamp
      obtain ⟨receivedOffer, transferId, remoteDevice, disk⟩ :=
        acceptTransfer_keeps J l.right.session baseOutputDir policy timestamp
      rw [← same] at accepted sent receivedOffer transferId remoteDevice disk
      have answer : l.toLeft ++ sentSince l.right.session t = [Link.acceptance J t] := by
        rw [flight.2, sent]
        rfl
      refine ⟨⟨⟨caller.direction, status, connected.1, caller.fileReader, caller.fileWriter,
        caller.currentFileIndex, caller.waitingFileAck, caller.chunkSize, caller.totalTransferred,
        caller.outbox⟩, accepted, ⟨rfl, rfl⟩, hears, flight.1, answer⟩,
        receivedOffer.trans received, ?_, ?_, caller.sendManifest, caller.disk,
        disk.trans callee.disk⟩
      · exact (transferId.trans named.1).trans caller.transferId.symm
      · exact (remoteDevice.trans named.2).trans caller.localDeviceName.symm
  | connecting _ _ none => exact absurd none absent
  | requested _ _ none => exact absurd none absent
  | answered _ _ none => exact absurd none absent
  | offered _ _ none => exact absurd none absent

/-- An undisturbed encounter shows the sender's own offer to the receiver's user once nothing is
under way, and the acceptance of what is shown puts the two sessions at the start of that
transfer. -/
theorem encounter_agrees (J : QJson) {A : Approach} (admissible : A.offer.Admissible)
    {l : Link B} {moves : List (Duplex.Move Occurrence)}
    (run : Run (Guarded (Steps J) fun l move => undisturbed l move = true) (A.start B) moves l) :
    (l.left.session.status ≠ .Connecting → l.toRight = [] → l.toLeft = [] →
        l.left.deaf = false → l.right.deaf = false →
        l.right.session.receivedOffer = some A.offer) ∧
      ∀ e baseOutputDir policy timestamp l', l.right.session.receivedOffer.isSome = true →
        e.val = .acceptTransfer baseOutputDir policy timestamp → Steps J l (.right e) l' →
        Agreed J A l' := by
  have reached := approaching_run run
  have read := parseTransferOffer_serialize admissible
  refine ⟨fun connected ahead back hearsLeft hearsRight => ?_,
    fun e baseOutputDir policy timestamp l' shown accepts taken =>
      reached.accepted admissible shown accepts taken⟩
  rcases reached.state with ⟨-, phase⟩ | stuck
  · cases phase with
    | connecting status => exact absurd status connected
    | requested _ _ _ flight => cases ahead.symm.trans flight.1
    | answered _ _ _ flight => cases back.symm.trans flight.2
    | offered _ _ _ flight => cases ahead.symm.trans flight.1
    | waiting _ _ received _ read' => exact received.trans (read'.symm.trans read)
  · rcases stuck.reason with deaf | deaf | unread
    · cases hearsLeft.symm.trans deaf
    · cases hearsRight.symm.trans deaf
    · cases read.symm.trans unread

/-- One file is offered and accepted. -/
theorem encounter_agrees_oneFile :
    ∃ l l' : Link Blake3.vendored, l.right.session.receivedOffer = some oneFile.offer ∧
      Agreed CompactJson.codec oneFile l' := by
  have admissible : oneFile.offer.Admissible := ⟨by decide, by decide +kernel, by decide +kernel⟩
  let e : Occurrence := ⟨.acceptTransfer (literal "downloads") .Rename (literal "now"), rfl⟩
  have computed : ((greeted.foldlM (tryGuarded undisturbed) (oneFile.start Blake3.vendored)).bind
      fun l => ((Duplex.step (machine CompactJson.codec) l (.right e)).toOption).map fun _ =>
        (l.right.session.receivedOffer.isSome, l.left.session.status, l.toRight, l.toLeft,
          l.left.deaf, l.right.deaf)) =
        some (true, .WaitingApproval, [], [], false, false) := by
    decide +kernel
  obtain ⟨l, reached, computed⟩ := Option.bind_eq_some_iff.mp computed
  obtain ⟨l', accepted, members⟩ := Option.map_eq_some_iff.mp computed
  simp only [Prod.mk.injEq] at members
  obtain ⟨shown, status, ahead, back, hearsLeft, hearsRight⟩ := members
  obtain ⟨offer, agreed⟩ :=
    encounter_agrees CompactJson.codec admissible (run_tryGuarded reached)
  exact ⟨l, l', offer (by rw [status]; decide) ahead back hearsLeft hearsRight,
    agreed e _ _ _ l' shown rfl (Except.ok_of_toOption accepted)⟩

end FastTransfer.Encounter
