/- FastTransfer/Core/Link
   source: src/core/TransferSession.cpp, src/network/TcpConnection.cpp
   digest: A sending and a receiving session joined by two packet channels. -/

import FastTransfer.Core.ReceiverSteps
import FastTransfer.Library.Duplex
import FastTransfer.Network.TcpConnection
import FastTransfer.Qt.CompactJson

set_option autoImplicit false
set_option relaxedAutoImplicit false

namespace FastTransfer

open Protocol

/-- What a user or the event loop does to a session while a transfer runs. -/
inductive LocalEvent
  | pause | resume | sendNextChunk | metricsTick
  | bytesWritten (pending : Nat)
  | drain (pending : Nat)
  deriving DecidableEq

namespace LocalEvent

def event : LocalEvent → TransferSession.Event
  | pause => .pause
  | resume => .resume
  | sendNextChunk => .sendNextChunk
  | metricsTick => .metricsTick
  | bytesWritten pending => .bytesWritten pending
  | drain pending => .drain pending

def isControl : LocalEvent → Bool
  | pause | resume => true
  | _ => false

end LocalEvent

instance (p : Packet) : Decidable p.Acceptable := by
  unfold Packet.Acceptable
  infer_instance

namespace TransferSession

variable {B : Blake3} {J : QJson}

def sentSince (before after : TransferSession B) : List Packet :=
  after.outbox.drop before.outbox.length

theorem sentSince_eq {s t : TransferSession B} {sent : List Packet}
    (h : t.outbox = s.outbox ++ sent) : sentSince s t = sent := by
  rw [sentSince, h, List.drop_left]

theorem sentSince_sendPacket (s : TransferSession B) (type : MessageType) (payload : QByteArray) :
    sentSince s (s.sendPacket type payload) =
      if s.connected = true then [⟨type, 0, payload⟩] else [] := by
  cases online : s.connected with
  | true => simp [sentSince, sendPacket, online]
  | false => simp [sentSince, sendPacket, online]

theorem Sends.sentSince {types : List MessageType} {s t : TransferSession B}
    (h : Sends types s t) :
    t.outbox = s.outbox ++ sentSince s t ∧ ∀ p ∈ sentSince s t, p.type ∈ types := by
  obtain ⟨sent, eq, each⟩ := h
  have same : TransferSession.sentSince s t = sent := by
    rw [TransferSession.sentSince, eq, List.drop_left]
  rw [same]
  exact ⟨eq, each⟩

/-- The signal of a refused packet and the disconnection that comes with it. -/
def refuse (self : TransferSession B) : TransferSession B :=
  (self.onSocketError TcpConnection.oversizedMessage).disconnectFromHost

end TransferSession

/-- A session at one end of a link, with the packets it has handled. The connection of a deaf one
has refused a packet and extracts no more. -/
structure Endpoint (B : Blake3) where
  session : TransferSession B
  handled : List Packet := []
  deaf : Bool := false

abbrev Link (B : Blake3) := Duplex (Endpoint B) Packet

namespace Link

open TransferSession

variable {B : Blake3} {J : QJson}

def act (J : QJson) (self : Endpoint B) (e : LocalEvent) :
    Except Crash (Endpoint B × List Packet) :=
  (step J self.session e.event).map fun t =>
    ({ self with session := t }, sentSince self.session t)

def receive (J : QJson) (self : Endpoint B) (p : Packet) :
    Except Crash (Endpoint B × List Packet) :=
  if self.deaf ∨ ¬ p.Acceptable then
    .ok ({ self with session := self.session.refuse, deaf := true }, [])
  else
    (step J self.session (.packet p)).map fun t =>
      ({ self with session := t, handled := self.handled ++ [p] }, sentSince self.session t)

def machine (J : QJson) : Machine (Endpoint B) LocalEvent Packet Crash := ⟨act J, receive J⟩

/-- The sender is the left party. -/
def Steps (J : QJson) : Link B → Duplex.Move LocalEvent → Link B → Prop := Duplex.Steps (machine J)

structure Offered (s : TransferSession B) : Prop where
  direction : s.direction = .Send
  status : s.status = .WaitingApproval
  connected : s.connected = true
  fileReader : s.fileReader = none
  fileWriter : s.fileWriter = none
  currentFileIndex : s.currentFileIndex = 0
  waitingFileAck : s.waitingFileAck = false
  chunkSize : 0 < s.chunkSize
  totalTransferred : s.metrics.totalTransferred = 0
  outbox : ∀ p ∈ s.outbox, p.type = .HandshakeReq ∨ p.type = .TransferOffer

structure Accepted (s : TransferSession B) : Prop where
  direction : s.direction = .Receive
  status : s.status = .Transferring
  ownsConnection : s.ownsConnection = false
  connected : s.connected = true
  fileReader : s.fileReader = none
  fileWriter : s.fileWriter = none
  currentFileIndex : s.currentFileIndex = 0
  outbox : ∀ p ∈ s.outbox, p.type = .HandshakeResp ∨ p.type = .TransferAccept

def acceptance (J : QJson) (s : TransferSession B) : Packet :=
  ⟨.TransferAccept, 0, serializeTransferAccept J ⟨s.transferId, s.localDeviceName, true, 0, 0⟩⟩

/-- The link with the acceptance on its way to the sender. -/
structure Start (J : QJson) (l : Link B) : Prop where
  offered : Offered l.left.session
  accepted : Accepted l.right.session
  handled : l.left.handled = [] ∧ l.right.handled = []
  deaf : l.left.deaf = false ∧ l.right.deaf = false
  toRight : l.toRight = []
  toLeft : l.toLeft = [acceptance J l.right.session]

/-- A Send session that has connected, shaken hands and offered. -/
def offering (J : QJson) (disk : Disk) (manifest : FileManifest) (chunkSize : UInt32) :
    TransferSession B :=
  onHandshakeResp J (onSocketConnected J ((new B .Send [] disk).startSend manifest [] chunkSize))
    (serializeHandshakeResp J {})

theorem offered_offering (J : QJson) (disk : Disk) (manifest : FileManifest)
    (chunkSize : UInt32) : Offered (B := B) (offering J disk manifest chunkSize) := by
  obtain ⟨resp, parsed, yes⟩ := parseHandshakeResp_serialize J {}
  have positive : 0 < if 0 < chunkSize then chunkSize else DEFAULT_CHUNK_SIZE := by
    split
    · assumption
    · decide
  unfold offering onHandshakeResp
  rw [parsed]
  dsimp only
  rw [if_pos yes]
  refine ⟨rfl, rfl, rfl, rfl, rfl, rfl, rfl, positive, rfl, ?_⟩
  intro p mem
  rcases List.mem_append.mp mem with first | last
  · rw [List.mem_singleton.mp first]
    exact .inl rfl
  · rw [List.mem_singleton.mp last]
    exact .inr rfl

/-- An accepted connection that has received an offer. -/
def offered (disk : Disk) (offer : MsgTransferOffer) : TransferSession B :=
  onTransferOffer (fromConnection B [] disk) (serializeTransferOffer offer)

theorem accepted_acceptTransfer (J : QJson) {s : TransferSession B} (role : s.direction = .Receive)
    (ownsConnection : s.ownsConnection = false) (connected : s.connected = true)
    (fileReader : s.fileReader = none) (fileWriter : s.fileWriter = none)
    (currentFileIndex : s.currentFileIndex = 0) (offer : s.receivedOffer.isSome = true)
    (outbox : ∀ p ∈ s.outbox, p.type = .HandshakeResp ∨ p.type = .TransferAccept)
    (baseOutputDir : QString) (policy : DuplicatePolicy) (timestamp : QString) :
    Accepted (acceptTransfer J s baseOutputDir policy timestamp) ∧
      sentSince s (acceptTransfer J s baseOutputDir policy timestamp) =
        [acceptance J (acceptTransfer J s baseOutputDir policy timestamp)] := by
  have present : ¬ s.receivedOffer.isNone = true := by
    rw [Option.isNone_iff_eq_none]
    intro absent
    rw [absent] at offer
    cases offer
  unfold acceptTransfer
  dsimp only
  rw [if_neg present]
  have told := sentSince_sendPacket s .TransferAccept
    (serializeTransferAccept J ⟨s.transferId, s.localDeviceName, true, 0, 0⟩)
  rw [if_pos connected] at told
  refine ⟨⟨role, rfl, ownsConnection, connected, fileReader, fileWriter, currentFileIndex, ?_⟩,
    told⟩
  obtain ⟨sent, eq, each⟩ := sends_sendPacket s .TransferAccept
    (serializeTransferAccept J ⟨s.transferId, s.localDeviceName, true, 0, 0⟩)
  intro p mem
  rcases List.mem_append.mp (eq ▸ mem) with earlier | new
  · exact outbox p earlier
  · exact .inr (List.mem_singleton.mp (each p new))

/-- A sender and a receiver as the handlers leave them when the user accepts. -/
def accepted (J : QJson) (source destination : Disk) (manifest : FileManifest)
    (chunkSize : UInt32) (policy : DuplicatePolicy) : Link B :=
  let receiver := acceptTransfer J (offered destination {}) [] policy []
  { left := { session := offering J source manifest chunkSize }
    right := { session := receiver }
    toRight := []
    toLeft := sentSince (offered (B := B) destination {}) receiver }

theorem start_accepted (J : QJson) (source destination : Disk) (manifest : FileManifest)
    (chunkSize : UInt32) (policy : DuplicatePolicy) :
    Start J (accepted (B := B) J source destination manifest chunkSize policy) := by
  obtain ⟨receiver, sent⟩ := accepted_acceptTransfer J (s := offered (B := B) destination {})
    rfl rfl rfl rfl rfl rfl rfl nofun [] policy []
  exact ⟨offered_offering J source manifest chunkSize, receiver, ⟨rfl, rfl⟩, ⟨rfl, rfl⟩, rfl, sent⟩

/-! Links that run. -/

def holding (files : List (QString × QByteArray)) : Disk :=
  files.foldl (fun d file => d.put file.1 (.file file.2)) Disk.blank

def listing (files : List (QString × QByteArray)) : FileManifest :=
  { totalFiles := UInt64.ofNat files.length
    totalBytes := UInt64.ofNat (files.map fun file => file.2.length).sum
    items := files.mapIdx fun i file =>
      { fileIndex := UInt64.ofNat i, sourceAbsolutePath := file.1, relativePath := file.1
        fileSize := UInt64.ofNat file.2.length } }

def sending (files : List (QString × QByteArray)) (chunkSize : UInt32)
    (policy : DuplicatePolicy) : Link Blake3.vendored :=
  accepted CompactJson.codec (holding files) Disk.blank (listing files) chunkSize policy

def tryStep (l : Link Blake3.vendored) (move : Duplex.Move LocalEvent) :
    Option (Link Blake3.vendored) :=
  (Duplex.step (machine CompactJson.codec) l move).toOption

theorem tryStep_sound {l l' : Link Blake3.vendored} {move : Duplex.Move LocalEvent}
    (h : tryStep l move = some l') : Steps CompactJson.codec l move l' :=
  Except.ok_of_toOption h

def tryGuarded (check : Link Blake3.vendored → Duplex.Move LocalEvent → Bool)
    (l : Link Blake3.vendored) (move : Duplex.Move LocalEvent) : Option (Link Blake3.vendored) :=
  if check l move = true then tryStep l move else none

theorem run_tryGuarded {check : Link Blake3.vendored → Duplex.Move LocalEvent → Bool}
    {start l : Link Blake3.vendored} {moves : List (Duplex.Move LocalEvent)}
    (h : moves.foldlM (tryGuarded check) start = some l) :
    Run (Guarded (Steps CompactJson.codec) fun l move => check l move = true) start moves l :=
  .of_foldlM_guarded h

end Link

end FastTransfer
