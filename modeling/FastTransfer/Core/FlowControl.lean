/- FastTransfer/Core/FlowControl
   source: src/core/TransferSession.cpp
   digest: A sending session with something left to send always has a wake-up due. -/

import FastTransfer.Core.Link

set_option autoImplicit false
set_option relaxedAutoImplicit false

namespace FastTransfer.TransferSession

open Protocol
open QString (literal)

variable {B : Blake3} {J : QJson}

/-- A connected session that is to send the file in its reader. -/
structure Sending (s : TransferSession B) : Prop where
  transferring : s.status = .Transferring
  connected : s.connected = true
  reader : s.fileReader ≠ none
  notWaiting : s.waitingFileAck = false

/-- A queued call, or pending bytes whose notification is due. -/
def Scheduled (s : TransferSession B) : Prop := 0 < s.queuedCalls ∨ 0 < s.bytesToWrite

/-- A Send session that has a wake-up due where it needs one. -/
structure Awake (s : TransferSession B) : Prop where
  direction : s.direction = .Send
  due : Sending s → Scheduled s

theorem Awake.of_status {s : TransferSession B} (role : s.direction = .Send)
    (other : s.status ≠ .Transferring) : Awake s :=
  ⟨role, fun sending => absurd sending.transferring other⟩

private theorem Awake.of_same {s t : TransferSession B} (awake : Awake s)
    (direction : t.direction = s.direction) (status : t.status = s.status)
    (connected : t.connected = s.connected)
    (reader : t.fileReader = s.fileReader) (waiting : t.waitingFileAck = s.waitingFileAck)
    (queued : t.queuedCalls = s.queuedCalls) (pending : s.bytesToWrite ≤ t.bytesToWrite) :
    Awake t := by
  refine ⟨direction.trans awake.direction, ?_⟩
  rintro ⟨transferring, online, found, notWaiting⟩
  have before : Scheduled s := by
    apply awake.due
    constructor
    · exact status ▸ transferring
    · exact connected ▸ online
    · exact reader ▸ found
    · exact waiting ▸ notWaiting
  rcases before with call | bytes
  · exact .inl (queued ▸ call)
  · exact .inr (Nat.lt_of_lt_of_le bytes pending)

private theorem sendPacket_pending {s : TransferSession B} (online : s.connected = true)
    (type : MessageType) (payload : QByteArray) : 0 < (s.sendPacket type payload).bytesToWrite := by
  have header : 0 < kHeaderSize := by decide
  simp only [sendPacket, if_pos online]
  omega

private theorem sendPacket_grows (s : TransferSession B) (type : MessageType)
    (payload : QByteArray) : s.bytesToWrite ≤ (s.sendPacket type payload).bytesToWrite := by
  simp only [sendPacket]
  split
  · exact Nat.le_add_right _ _
  · exact Nat.le_refl _

/-- Whatever `sendNextChunk` finds, it leaves a wake-up due where one is needed. -/
theorem sendNextChunk_awake {s t : TransferSession B} (h : s.sendNextChunk = .ok t)
    (role : s.direction = .Send) : Awake t := by
  cases found : s.fileReader with
  | none =>
      rw [sendNextChunk, found] at h
      cases h
      exact ⟨role, fun sending => absurd found sending.reader⟩
  | some reader =>
      simp only [sendNextChunk, found] at h
      split at h
      · rename_i guard
        cases h
        refine ⟨role, fun sending => ?_⟩
        rcases guard with other | waiting
        · exact absurd sending.transferring other
        · exact absurd (sending.notWaiting.symm.trans waiting) Bool.false_ne_true
      split at h
      · -- the buffer is full, so a notification is due
        rename_i full
        cases h
        have room : 16 * 1024 * 1024 ≤ s.maxPending := Nat.le_max_right _ _
        exact ⟨role, fun _ => .inr (by omega)⟩
      split at h
      · cases h
        exact ⟨role, fun sending => absurd sending.notWaiting.symm Bool.false_ne_true⟩
      split at h
      · cases h
        exact .of_status role (fun c => by cases c)
      · unfold sendChunk at h
        split at h
        · cases h
        split at h
        · cases h
          exact .of_status role (fun c => by cases c)
        · rename_i payload _ online
          cases h
          refine ⟨role, fun sending => ?_⟩
          refine .inr (sendPacket_pending (s := s.afterRead reader) ?_ .FileDataChunk payload)
          exact sending.connected

theorem startSendingFile_awake {s t : TransferSession B} {fileIndex startOffset : UInt64}
    (h : startSendingFile J s fileIndex startOffset = .ok t) (role : s.direction = .Send) :
    Awake t := by
  by_cases done : s.sendManifest.items.length ≤ fileIndex.toNat
  · rw [startSendingFile, if_pos done] at h
    cases h
    exact .of_status role (fun c => by cases c)
  · obtain ⟨item, found⟩ : ∃ item, s.sendManifest.items[fileIndex.toNat]? = some item :=
      ⟨_, List.getElem?_eq_getElem (Nat.lt_of_not_le done)⟩
    rw [startSendingFile_item J s startOffset found] at h
    split at h
    · exact sendNextChunk_awake h role
    · cases h
      exact .of_status role (fun c => by cases c)

private theorem onPacketReceived_awake {s t : TransferSession B} {p : Packet}
    (awake : Awake s) (h : onPacketReceived J s p = .ok t) : Awake t := by
  obtain ⟨type, flags, payload⟩ := p
  have role := awake.direction
  cases type with
  | HandshakeReq =>
      cases h
      show Awake (onHandshakeReq J s payload)
      unfold onHandshakeReq
      split
      · exact awake
      · exact .of_status role nofun
  | HandshakeResp =>
      cases h
      show Awake (onHandshakeResp J s payload)
      unfold onHandshakeResp
      split
      · exact .of_status role nofun
      split
      · exact .of_status role nofun
      · exact .of_status role nofun
  | TransferOffer =>
      cases h
      show Awake (onTransferOffer s payload)
      unfold onTransferOffer
      split
      · exact awake
      · exact .of_status role nofun
  | TransferAccept =>
      replace h : onTransferAccept J s payload = .ok t := h
      unfold onTransferAccept at h
      split at h
      · cases h
        exact awake
      split at h
      · exact startSendingFile_awake h role
      · cases h
        exact awake
  | TransferReject =>
      cases h
      exact .of_status role nofun
  | FileStart =>
      cases h
      show Awake (onFileStart s payload)
      unfold onFileStart
      split
      · exact awake
      split
      · exact awake.of_same rfl rfl rfl rfl rfl rfl (Nat.le_refl _)
      · exact .of_status role nofun
  | FileDataChunk =>
      cases h
      show Awake (onFileDataChunk s payload)
      unfold onFileDataChunk
      split
      · dsimp only
        split
        · exact awake.of_same rfl rfl rfl rfl rfl rfl (Nat.le_refl _)
        · exact .of_status role nofun
      · exact awake
  | FileEnd =>
      cases h
      show Awake (onFileEnd s payload)
      unfold onFileEnd
      split
      · exact awake.of_same rfl rfl rfl rfl rfl rfl
          (sendPacket_grows (s.fileFinalized _ _) .FileAck _)
      · exact awake
  | FileAck =>
      replace h : onFileAck J s payload = .ok t := h
      unfold onFileAck at h
      split at h
      · cases h
        exact awake
      split at h
      · split at h
        · cases h
        · exact startSendingFile_awake h role
      · cases h
        exact .of_status role nofun
  | TransferPause =>
      cases h
      exact .of_status role nofun
  | TransferResume =>
      replace h : onTransferResume J s payload = .ok t := h
      unfold onTransferResume at h
      split at h
      · cases h
        exact awake
      · dsimp only at h
        rw [if_pos (by exact role)] at h
        exact startSendingFile_awake h role
  | TransferCancel =>
      cases h
      exact .of_status role nofun
  | TransferComplete =>
      cases h
      exact .of_status role nofun
  | Invalid | ErrorAlert | unnamed raw =>
      cases h
      exact awake

/-- Only a drain without its notification could lose the wake-up. -/
def Notified : Event → Prop
  | .drain _ => False
  | _ => True

theorem step_awake {s t : TransferSession B} {e : Event} (awake : Awake s)
    (notified : Notified e) (h : Steps J s e t) : Awake t := by
  have role := awake.direction
  cases e with
  | packet p => exact onPacketReceived_awake awake h
  | acceptTransfer baseOutputDir policy timestamp =>
      cases h
      unfold acceptTransfer
      dsimp only
      split
      · exact awake.of_same rfl rfl rfl rfl rfl rfl (Nat.le_refl _)
      · refine ⟨role, fun sending => ?_⟩
        refine .inr (sendPacket_pending (s := { s with
          baseOutputDir := baseOutputDir
          duplicatePolicy := policy
          sessionSubfolder := s.chooseSubfolder baseOutputDir timestamp }) ?_ .TransferAccept _)
        exact sending.connected
  | rejectTransfer reason =>
      cases h
      exact .of_status role nofun
  | pause =>
      cases h
      unfold pause
      split
      · exact .of_status role nofun
      · exact awake
  | resume =>
      replace h : resume J s = .ok t := h
      unfold resume at h
      by_cases paused : s.status = .Paused
      · rw [if_pos paused, if_pos role] at h
        exact sendNextChunk_awake h role
      · rw [if_neg paused] at h
        cases h
        exact awake
  | cancel =>
      cases h
      exact .of_status role nofun
  | startSend manifest localDeviceName chunkSize =>
      cases h
      exact .of_status role nofun
  | socketConnected =>
      cases h
      split
      · exact .of_status role nofun
      · exact awake
  | socketDisconnected =>
      cases h
      unfold onSocketDisconnected
      dsimp only
      split
      · exact .of_status role nofun
      · exact ⟨role, fun sending => nomatch sending.connected⟩
  | socketError errorMsg =>
      cases h
      unfold onSocketError
      split
      · exact .of_status role nofun
      · exact awake
  | bytesWritten pending =>
      replace h : onBytesTransferred { s with bytesToWrite := pending } = .ok t := h
      unfold onBytesTransferred at h
      split at h
      · exact sendNextChunk_awake h role
      · rename_i guard
        cases h
        -- the guard fails at the buffer's size only
        refine ⟨role, fun sending => ?_⟩
        have full : ¬ pending < s.maxPending := by
          intro room
          refine guard ⟨role, sending.transferring, ?_, room⟩
          rw [sending.notWaiting]
          rfl
        have room : 16 * 1024 * 1024 ≤ s.maxPending := Nat.le_max_right _ _
        exact .inr (show 0 < pending by omega)
  | drain pending => exact notified.elim
  | sendNextChunk =>
      have next : sendNextChunk { s with queuedCalls := s.queuedCalls - 1 } = .ok t := h
      exact sendNextChunk_awake next role
  | metricsTick =>
      cases h
      unfold calculateMetrics
      split
      · exact awake.of_same rfl rfl rfl rfl rfl rfl (Nat.le_refl _)
      · exact awake

theorem execute_awake {start s : TransferSession B} {events : List Event} (awake : Awake start)
    (notified : ∀ e ∈ events, Notified e) (run : execute J start events = .ok s) : Awake s := by
  induction events using List.reverseRecOn generalizing s with
  | nil =>
      cases run
      exact awake
  | append_singleton events e ih =>
      obtain ⟨u, mid, last⟩ := execute_snoc_ok run
      have before : Awake u := ih (fun e mem => notified e (List.mem_append_left _ mem)) mid
      exact step_awake before (notified e (List.mem_append_right _ List.mem_cons_self)) last

/-- In every reachable state of a Send session some call of `sendNextChunk` is queued or some
notification is due, whenever the session is connected and transferring, has a file in its reader
and waits for no acknowledgement. -/
theorem wakeup_due (J : QJson) (transferId : QString) (disk : Disk) {events : List Event}
    {s : TransferSession B} (notified : ∀ e ∈ events, Notified e)
    (run : execute J (new B .Send transferId disk) events = .ok s)
    (transferring : s.status = .Transferring) (connected : s.connected = true)
    {reader : FileReader B} (found : s.fileReader = some reader)
    (notWaiting : s.waitingFileAck = false) : 0 < s.queuedCalls ∨ 0 < s.bytesToWrite := by
  have start : Awake (new B .Send transferId disk) := .of_status rfl nofun
  apply (execute_awake start notified run).due
  refine ⟨transferring, connected, ?_, notWaiting⟩
  rw [found]
  exact nofun

def twoBytes : List Event :=
  [.startSend (Link.listing [(literal "x", [7, 8])]) [] 1, .socketConnected,
    .packet ⟨.HandshakeResp, 0, serializeHandshakeResp CompactJson.codec {}⟩,
    .packet ⟨.TransferAccept, 0, serializeTransferAccept CompactJson.codec ⟨[], [], true, 0, 0⟩⟩]

/-- Behind the first byte the second waits for a call or a notification. -/
theorem wakeup_due_twoBytes :
    ∃ s, execute CompactJson.codec
        (new Blake3.vendored .Send [] (Link.holding [(literal "x", [7, 8])])) twoBytes = .ok s ∧
      s.status = .Transferring ∧ (0 < s.queuedCalls ∨ 0 < s.bytesToWrite) := by
  have computed : (execute CompactJson.codec
      (new Blake3.vendored .Send [] (Link.holding [(literal "x", [7, 8])]))
      twoBytes).toOption.map (fun s =>
        (s.status, s.connected, s.fileReader.isSome, s.waitingFileAck)) =
        some (.Transferring, true, true, false) := by
    decide +kernel
  obtain ⟨s, reached, members⟩ := Option.map_eq_some_iff.mp computed
  obtain ⟨transferring, connected, present, notWaiting⟩ := by simpa using members
  obtain ⟨reader, found⟩ := Option.isSome_iff_exists.mp present
  have run : execute CompactJson.codec
      (new Blake3.vendored .Send [] (Link.holding [(literal "x", [7, 8])])) twoBytes = .ok s :=
    Except.ok_of_toOption reached
  refine ⟨s, run, transferring, ?_⟩
  exact wakeup_due CompactJson.codec [] _ (by simp [twoBytes, Notified]) run transferring
    connected found notWaiting

end FastTransfer.TransferSession
