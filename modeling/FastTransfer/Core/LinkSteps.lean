/- FastTransfer/Core/LinkSteps
   source: src/core/TransferSession.cpp
   digest: All that either end of a running link can do. -/

import FastTransfer.Core.Link

set_option autoImplicit false
set_option relaxedAutoImplicit false

namespace FastTransfer.TransferSession

open Protocol

variable {B : Blake3} {J : QJson}

/-- Everything but the status, the signals and the socket's buffer and record is the same. -/
structure Frame (before after : TransferSession B) : Prop where
  direction : after.direction = before.direction
  ownsConnection : after.ownsConnection = before.ownsConnection
  transferId : after.transferId = before.transferId
  remoteDevice : after.remoteDevice = before.remoteDevice
  sendManifest : after.sendManifest = before.sendManifest
  fileReader : after.fileReader = before.fileReader
  chunkSize : after.chunkSize = before.chunkSize
  currentFileIndex : after.currentFileIndex = before.currentFileIndex
  waitingFileAck : after.waitingFileAck = before.waitingFileAck
  fileWriter : after.fileWriter = before.fileWriter
  baseOutputDir : after.baseOutputDir = before.baseOutputDir
  sessionSubfolder : after.sessionSubfolder = before.sessionSubfolder
  duplicatePolicy : after.duplicatePolicy = before.duplicatePolicy
  metrics : after.metrics = before.metrics
  connected : after.connected = before.connected
  disk : after.disk = before.disk

theorem Frame.refl (s : TransferSession B) : Frame s s := by
  constructor <;> rfl

theorem refuse_frame (s : TransferSession B) :
    Frame { s with connected := false } s.refuse ∧ s.refuse.outbox = s.outbox ∧
      (s.refuse.status = s.status ∨ s.refuse.status = .Failed) := by
  unfold refuse onSocketError
  split
  · refine ⟨?_, rfl, .inr rfl⟩
    constructor <;> rfl
  · refine ⟨?_, rfl, .inl rfl⟩
    constructor <;> rfl

/-- What a local event does: nothing that matters, a pause, a resumption, or a chunk. -/
inductive LocalStep (J : QJson) (s : TransferSession B) : LocalEvent → TransferSession B → Prop
  | aside {e : LocalEvent} {t : TransferSession B} (same : Frame s t)
      (status : t.status = s.status) (outbox : t.outbox = s.outbox) : LocalStep J s e t
  | paused (was : s.status = .Transferring) : LocalStep J s .pause (s.pause J)
  | resumed (was : s.status = .Paused) (role : s.direction ≠ .Send) :
      LocalStep J s .resume (s.resumed J)
  | resumedSending {t : TransferSession B} (was : s.status = .Paused)
      (role : s.direction = .Send) (next : NextChunk (s.resumed J) t) : LocalStep J s .resume t
  | next {e : LocalEvent} {u t : TransferSession B} (same : Frame s u)
      (status : u.status = s.status) (outbox : u.outbox = s.outbox) (next : NextChunk u t) :
      LocalStep J s e t

theorem local_step {s t : TransferSession B} {e : LocalEvent} (h : Steps J s e.event t) :
    LocalStep J s e t := by
  cases e with
  | pause =>
      cases h
      by_cases was : s.status = .Transferring
      · exact .paused was
      · rw [pause, if_neg was]
        exact .aside (.refl s) rfl rfl
  | resume =>
      rcases resume_cases h with ⟨-, rfl⟩ | ⟨was, ⟨role, rfl⟩ | ⟨role, next⟩⟩
      · exact .aside (.refl t) rfl rfl
      · exact .resumed was role
      · exact .resumedSending was role next
  | sendNextChunk =>
      have next : NextChunk { s with queuedCalls := s.queuedCalls - 1 } t := sendNextChunk_cases h
      have same : Frame s { s with queuedCalls := s.queuedCalls - 1 } := by
        constructor <;> rfl
      exact .next same rfl rfl next
  | metricsTick =>
      cases h
      unfold calculateMetrics
      split
      · refine .aside ?_ rfl rfl
        constructor <;> rfl
      · exact .aside (.refl s) rfl rfl
  | bytesWritten pending =>
      have next : NextChunk { s with bytesToWrite := pending } t := onBytesTransferred_cases h
      have same : Frame s { s with bytesToWrite := pending } := by
        constructor <;> rfl
      exact .next same rfl rfl next
  | drain pending =>
      cases h
      refine .aside ?_ rfl rfl
      constructor <;> rfl

def receiverTypes : List MessageType := [.TransferAccept, .FileAck, .TransferPause, .TransferResume]

def senderTypes : List MessageType :=
  [.FileStart, .FileDataChunk, .FileEnd, .TransferComplete, .TransferPause, .TransferResume]

/-- What a sending session makes of a packet of the receiver. -/
inductive SenderMove (J : QJson) (s : TransferSession B) : Packet → TransferSession B → Prop
  | ignored {p : Packet} : SenderMove J s p s
  | accepted {flags : UInt16} {payload : QByteArray} {msg : MsgTransferAccept}
      {t : TransferSession B} (parsed : parseTransferAccept J payload = some msg)
      (start : StartFile J s.begin msg.startFileIndex msg.resumeOffset t) :
      SenderMove J s ⟨.TransferAccept, flags, payload⟩ t
  | acked {flags : UInt16} {payload : QByteArray} {ack : MsgFileAck} {reader : FileReader B}
      {t : TransferSession B} (parsed : parseFileAck payload = some ack)
      (ok : ack.statusCode = 0) (found : s.fileReader = some reader)
      (start : StartFile J ((s.ackReceived ack).closeReader reader) (s.currentFileIndex + 1) 0 t) :
      SenderMove J s ⟨.FileAck, flags, payload⟩ t
  | nacked {flags : UInt16} {payload : QByteArray} {ack : MsgFileAck}
      (parsed : parseFileAck payload = some ack) (bad : ack.statusCode ≠ 0) :
      SenderMove J s ⟨.FileAck, flags, payload⟩
        ((s.ackReceived ack).fail (verificationError ack.fileIndex))
  | paused {flags : UInt16} {payload : QByteArray} :
      SenderMove J s ⟨.TransferPause, flags, payload⟩ (s.setStatus .Paused)
  | resumed {flags : UInt16} {payload : QByteArray} {msg : MsgTransferResume}
      {t : TransferSession B} (parsed : parseTransferResume J payload = some msg)
      (start : StartFile J (s.setStatus .Transferring) msg.fileIndex msg.resumeOffset t) :
      SenderMove J s ⟨.TransferResume, flags, payload⟩ t

theorem sender_move {s t : TransferSession B} {p : Packet} (role : s.direction = .Send)
    (h : Steps J s (.packet p) t) (type : p.type ∈ receiverTypes) : SenderMove J s p t := by
  obtain ⟨type', flags, payload⟩ := p
  simp only [receiverTypes, List.mem_cons, List.not_mem_nil, or_false] at type
  rcases type with rfl | rfl | rfl | rfl
  · rcases onTransferAccept_cases h with ⟨rfl, -⟩ | ⟨msg, parsed, -, start⟩
    · exact .ignored
    · exact .accepted parsed start
  · rcases onFileAck_cases h with ⟨rfl, -⟩ | ⟨ack, parsed, ⟨bad, rfl⟩ | ⟨ok, reader, found, start⟩⟩
    · exact .ignored
    · exact .nacked parsed bad
    · exact .acked parsed ok found start
  · rw [← Except.ok.inj h]
    exact .paused
  · rcases onTransferResume_cases h with ⟨rfl, -⟩ | ⟨msg, parsed, ⟨other, -⟩ | ⟨-, start⟩⟩
    · exact .ignored
    · exact absurd role other
    · exact .resumed parsed start

/-- What a receiving session makes of a packet of the sender. -/
inductive ReceiverMove (s : TransferSession B) : Packet → TransferSession B → Prop
  | file {p : Packet} {t : TransferSession B} (file : p.type ∈ fileTypes)
      (moved : ReceiverStep s (.packet p) t) : ReceiverMove s p t
  | completed {flags : UInt16} {payload : QByteArray} :
      ReceiverMove s ⟨.TransferComplete, flags, payload⟩ s.complete
  | control {p : Packet} {status : TransferStatus}
      (type : p.type = .TransferPause ∧ status = .Paused ∨
        p.type = .TransferResume ∧ (status = .Transferring ∨ status = s.status)) :
      ReceiverMove s p (s.setStatus status)

theorem setStatus_self (s : TransferSession B) : s.setStatus s.status = s := by
  rw [setStatus, if_neg (not_not.mpr rfl)]

theorem receiver_move {s t : TransferSession B} {p : Packet} (role : s.direction = .Receive)
    (h : Steps J s (.packet p) t) (type : p.type ∈ senderTypes) : ReceiverMove s p t := by
  by_cases file : p.type ∈ fileTypes
  · exact .file file (step_receiver h)
  · obtain ⟨type', flags, payload⟩ := p
    simp only [senderTypes, List.mem_cons, List.not_mem_nil, or_false] at type
    rcases type with rfl | rfl | rfl | rfl | rfl | rfl
    · exact absurd (by simp [fileTypes]) file
    · exact absurd (by simp [fileTypes]) file
    · exact absurd (by simp [fileTypes]) file
    · rw [← Except.ok.inj h]
      exact .completed
    · rw [← Except.ok.inj h]
      exact .control (.inl ⟨rfl, rfl⟩)
    · rcases onTransferResume_cases h with ⟨rfl, -⟩ | ⟨msg, -, ⟨-, rfl⟩ | ⟨send, -⟩⟩
      · have same := ReceiverMove.control (s := t) (p := ⟨.TransferResume, flags, payload⟩)
          (.inr ⟨rfl, .inr rfl⟩)
        rwa [setStatus_self] at same
      · exact .control (.inr ⟨rfl, .inl rfl⟩)
      · rw [role] at send
        cases send

theorem NextChunk.progress {s t : TransferSession B} (h : NextChunk s t) :
    t.currentFileIndex = s.currentFileIndex ∧ (t.status = s.status ∨ t.status = .Failed) := by
  cases h with
  | idle => exact ⟨rfl, .inl rfl⟩
  | fileEnd reader active ended => exact ⟨rfl, .inl rfl⟩
  | readFailed reader active ended empty => exact ⟨rfl, .inr rfl⟩
  | sendFailed reader active lost => exact ⟨rfl, .inr rfl⟩
  | chunk reader active ended nonempty online payload written => exact ⟨rfl, .inl rfl⟩

theorem StartFile.progress {s t : TransferSession B} {fileIndex startOffset : UInt64}
    (h : StartFile J s fileIndex startOffset t) :
    (s.sendManifest.items.length ≤ fileIndex.toNat ∧ t.currentFileIndex = s.currentFileIndex ∧
        t.status = .Completed) ∨
      (t.currentFileIndex = fileIndex ∧ (t.status = s.status ∨ t.status = .Failed) ∧
        Sends [.FileStart, .FileDataChunk, .FileEnd] s t) := by
  cases h with
  | finished done => exact .inl ⟨done, rfl, rfl⟩
  | unopened item found closed => exact .inr ⟨rfl, .inr rfl, .refl _ s⟩
  | started item found opened next sent =>
      have announced : Sends [.FileStart] s (s.started fileIndex startOffset item) :=
        sends_sendPacket s .FileStart _
      obtain ⟨index, status⟩ := sent.progress
      exact .inr ⟨index, status,
        (announced.mono (by simp)).trans (sent.sends.mono (by simp))⟩

/-- What failed on the disk stays in its journal. -/
theorem succeeded_before {s t : TransferSession B} {e : Event} (h : Steps J s e t)
    (succeeded : t.disk.AllSucceeded) : s.disk.AllSucceeded := by
  cases step_receiver h with
  | opened parsed opened => exact (FileWriter.succeeded_open succeeded).1
  | refused parsed refused => exact (FileWriter.succeeded_open succeeded).1
  | written parsed found written => exact (FileWriter.succeeded_writeChunk succeeded).1
  | unwritten parsed found failed => exact (FileWriter.succeeded_writeChunk succeeded).1
  | ended parsed found => exact (FileWriter.succeeded_finalizeAndCommit succeeded).1
  | ignored ignored => exact succeeded
  | bystander other moved => exact moved.disk ▸ succeeded

theorem NextChunk.absent {s t : TransferSession B} (none : s.fileReader = none)
    (h : NextChunk s t) : t = s := by
  cases h with
  | idle => rfl
  | fileEnd reader active => exact nomatch none.symm.trans active.found
  | readFailed reader active => exact nomatch none.symm.trans active.found
  | sendFailed reader active => exact nomatch none.symm.trans active.found
  | chunk reader active => exact nomatch none.symm.trans active.found

theorem LocalStep.sends {s t : TransferSession B} {e : LocalEvent} (h : LocalStep J s e t) :
    Sends [.FileDataChunk, .FileEnd, .TransferPause, .TransferResume] s t := by
  have resumed : Sends [.FileDataChunk, .FileEnd, .TransferPause, .TransferResume] s
      (s.resumed J) :=
    (sends_sendPacket (s.setStatus .Transferring) .TransferResume _).mono (by simp)
  cases h with
  | aside same status outbox => exact ⟨[], by rw [outbox, List.append_nil], nofun⟩
  | paused was =>
      rw [pause, if_pos was]
      exact (sends_sendPacket ((s.setStatus .Paused).emit _) .TransferPause _).mono (by simp)
  | resumed was role => exact resumed
  | resumedSending was role next => exact resumed.trans (next.sends.mono (by simp))
  | next same status outbox next =>
      obtain ⟨sent, eq, each⟩ := next.sends.mono
        (by simp : _ ⊆ [.FileDataChunk, .FileEnd, .TransferPause, .TransferResume])
      exact ⟨sent, by rw [eq, outbox], each⟩

theorem LocalStep.types {s t : TransferSession B} {e : LocalEvent} (h : LocalStep J s e t) :
    ∀ p ∈ sentSince s t, p.type ∈ senderTypes :=
  (h.sends.mono (by simp [senderTypes])).sentSince.2

theorem LocalStep.keeps {s t : TransferSession B} {e : LocalEvent} (h : LocalStep J s e t) :
    t.direction = s.direction ∧ t.connected = s.connected := by
  cases h with
  | aside same status outbox => exact ⟨same.direction, same.connected⟩
  | paused was =>
      rw [pause, if_pos was]
      exact ⟨rfl, rfl⟩
  | resumed was role => exact ⟨rfl, rfl⟩
  | resumedSending was role next =>
      exact ⟨next.sameReceiver.direction, next.sameReceiver.connected⟩
  | next same status outbox next =>
      exact ⟨next.sameReceiver.direction.trans same.direction,
        next.sameReceiver.connected.trans same.connected⟩

theorem SenderMove.sends {s t : TransferSession B} {p : Packet} (h : SenderMove J s p t) :
    Sends senderTypes s t := by
  have started : ∀ (u : TransferSession B) {fileIndex startOffset : UInt64},
      u.outbox = s.outbox → StartFile J u fileIndex startOffset t → Sends senderTypes s t := by
    intro u fileIndex startOffset outbox start
    obtain ⟨sent, eq, each⟩ := start.sends.mono (by simp [senderTypes] : _ ⊆ senderTypes)
    exact ⟨sent, by rw [eq, outbox], each⟩
  cases h with
  | ignored => exact .refl _ s
  | accepted parsed start => exact started s.begin rfl start
  | @acked _ _ ack reader _ parsed ok found start =>
      exact started ((s.ackReceived ack).closeReader reader) rfl start
  | nacked parsed bad => exact ⟨[], (List.append_nil _).symm, nofun⟩
  | paused => exact ⟨[], (List.append_nil _).symm, nofun⟩
  | resumed parsed start => exact started (s.setStatus .Transferring) rfl start

theorem SenderMove.sameReceiver {s t : TransferSession B} {p : Packet} (h : SenderMove J s p t) :
    SameReceiver s t := by
  cases h with
  | ignored => constructor <;> rfl
  | accepted parsed start =>
      have begun : SameReceiver s s.begin := by constructor <;> rfl
      exact begun.trans start.sameReceiver
  | @acked _ _ ack reader _ parsed ok found start =>
      have closed : SameReceiver s ((s.ackReceived ack).closeReader reader) := by
        constructor <;> rfl
      exact closed.trans start.sameReceiver
  | nacked parsed bad => constructor <;> rfl
  | paused => constructor <;> rfl
  | resumed parsed start =>
      have moved : SameReceiver s (s.setStatus .Transferring) := by constructor <;> rfl
      exact moved.trans start.sameReceiver

theorem receiver_local {s t : TransferSession B} {e : LocalEvent} (role : s.direction = .Receive)
    (none : s.fileReader = none) (h : LocalStep J s e t) :
    Frame s t ∧ (t.status = s.status ∧ t.outbox = s.outbox ∨
      t.status = .Paused ∧ t = s.pause J ∧ s.status = .Transferring ∨
      t.status = .Transferring ∧ t = s.resumed J) := by
  cases h with
  | aside same status outbox => exact ⟨same, .inl ⟨status, outbox⟩⟩
  | paused was =>
      rw [pause, if_pos was]
      refine ⟨?_, .inr (.inl ⟨rfl, rfl, was⟩)⟩
      constructor <;> rfl
  | resumed was other =>
      refine ⟨?_, .inr (.inr ⟨rfl, rfl⟩)⟩
      constructor <;> rfl
  | resumedSending was send =>
      rw [role] at send
      cases send
  | next same status outbox next =>
      cases next.absent (same.fileReader.trans none)
      exact ⟨same, .inl ⟨status, outbox⟩⟩

theorem receiver_local_sends {s t : TransferSession B} {e : LocalEvent}
    (role : s.direction = .Receive) (none : s.fileReader = none) (h : LocalStep J s e t) :
    Sends [.TransferPause, .TransferResume] s t := by
  rcases (receiver_local role none h).2 with ⟨-, outbox⟩ | ⟨-, rfl, was⟩ | ⟨-, rfl⟩
  · exact ⟨[], by rw [outbox, List.append_nil], nofun⟩
  · rw [pause, if_pos was]
    exact (sends_sendPacket ((s.setStatus .Paused).emit _) .TransferPause _).mono (by simp)
  · exact (sends_sendPacket (s.setStatus .Transferring) .TransferResume _).mono (by simp)

structure SameSender (before after : TransferSession B) : Prop where
  direction : after.direction = before.direction
  ownsConnection : after.ownsConnection = before.ownsConnection
  transferId : after.transferId = before.transferId
  remoteDevice : after.remoteDevice = before.remoteDevice
  sendManifest : after.sendManifest = before.sendManifest
  fileReader : after.fileReader = before.fileReader
  chunkSize : after.chunkSize = before.chunkSize
  currentFileIndex : after.currentFileIndex = before.currentFileIndex
  waitingFileAck : after.waitingFileAck = before.waitingFileAck
  baseOutputDir : after.baseOutputDir = before.baseOutputDir
  sessionSubfolder : after.sessionSubfolder = before.sessionSubfolder
  duplicatePolicy : after.duplicatePolicy = before.duplicatePolicy

theorem ReceiverMove.sameSender {s t : TransferSession B} {p : Packet} (h : ReceiverMove s p t) :
    SameSender s t := by
  cases h with
  | file file moved =>
      cases moved with
      | bystander other => exact absurd file (other p rfl)
      | _ => constructor <;> rfl
  | completed => constructor <;> rfl
  | control type => constructor <;> rfl

theorem ReceiverMove.file_of {s t : TransferSession B} {p : Packet} (h : ReceiverMove s p t)
    (file : p.type ∈ fileTypes) : ReceiverStep s (.packet p) t := by
  cases h with
  | file _ moved => exact moved
  | completed => simp [fileTypes] at file
  | control type =>
      rcases type with ⟨type, -⟩ | ⟨type, -⟩ <;> rw [type] at file <;> simp [fileTypes] at file

theorem ReceiverMove.sends {s t : TransferSession B} {p : Packet} (h : ReceiverMove s p t) :
    Sends [.FileAck] s t := by
  have nothing : ∀ u : TransferSession B, u.outbox = s.outbox → Sends [.FileAck] s u := by
    intro u outbox
    exact ⟨[], by rw [outbox, List.append_nil], nofun⟩
  cases h with
  | file file moved =>
      cases moved with
      | opened parsed opened => exact nothing _ rfl
      | @refused _ _ start parsed refused =>
          exact sends_sendPacket (s.fileOpened start) .FileAck _
      | written parsed found written => exact nothing _ rfl
      | unwritten parsed found failed => exact nothing _ rfl
      | @ended _ _ msg writer parsed found =>
          exact sends_sendPacket (s.fileFinalized writer msg) .FileAck _
      | ignored ignored => exact .refl _ s
      | bystander other => exact absurd file (other p rfl)
  | completed => exact nothing _ rfl
  | control type => exact nothing _ rfl

end FastTransfer.TransferSession

namespace FastTransfer.Link

open TransferSession

variable {B : Blake3} {J : QJson}

theorem act_ok {E E' : Endpoint B} {e : LocalEvent} {out : List Packet}
    (h : act J E e = .ok (E', out)) :
    ∃ t, TransferSession.Steps J E.session e.event t ∧ LocalStep J E.session e t ∧
      E' = { E with session := t } ∧ out = sentSince E.session t := by
  unfold act at h
  obtain ⟨t, taken, eq⟩ := Except.ok_of_map h
  obtain ⟨rfl, rfl⟩ := Prod.mk.inj eq
  exact ⟨t, taken, local_step taken, rfl, rfl⟩

theorem receive_ok {E E' : Endpoint B} {p : Packet} {out : List Packet}
    (h : receive J E p = .ok (E', out)) :
    ((E.deaf = true ∨ ¬ p.Acceptable) ∧
        E' = { E with session := E.session.refuse, deaf := true } ∧ out = []) ∨
      (E.deaf = false ∧ p.Acceptable ∧ ∃ t, TransferSession.Steps J E.session (.packet p) t ∧
        E' = { E with session := t, handled := E.handled ++ [p] } ∧
        out = sentSince E.session t) := by
  unfold receive at h
  by_cases refused : E.deaf = true ∨ ¬ p.Acceptable
  · rw [if_pos refused] at h
    cases h
    exact .inl ⟨refused, rfl, rfl⟩
  · rw [if_neg refused] at h
    obtain ⟨hears, acceptable⟩ := not_or.mp refused
    obtain ⟨t, taken, eq⟩ := Except.ok_of_map h
    obtain ⟨rfl, rfl⟩ := Prod.mk.inj eq
    exact .inr ⟨by simpa using hears, not_not.mp acceptable, t, taken, rfl, rfl⟩

theorem receive_heard {E E' : Endpoint B} {p : Packet} {out : List Packet}
    (h : receive J E p = .ok (E', out)) (hears : E.deaf = false) (acceptable : p.Acceptable) :
    ∃ t, TransferSession.Steps J E.session (.packet p) t ∧
      E' = { E with session := t, handled := E.handled ++ [p] } ∧
      out = sentSince E.session t := by
  rcases receive_ok h with ⟨deaf | oversized, -, -⟩ | ⟨-, -, handled⟩
  · rw [hears] at deaf
    cases deaf
  · exact absurd acceptable oversized
  · exact handled

theorem receive_refused {E E' : Endpoint B} {p : Packet} {out : List Packet}
    (h : receive J E p = .ok (E', out)) (refused : E.deaf = true ∨ ¬ p.Acceptable) :
    E' = { E with session := E.session.refuse, deaf := true } ∧ out = [] := by
  rcases receive_ok h with ⟨-, answer⟩ | ⟨hears, acceptable, -⟩
  · exact answer
  · rcases refused with deaf | oversized
    · rw [hears] at deaf
      cases deaf
    · exact absurd acceptable oversized

theorem act_before {E E' : Endpoint B} {e : LocalEvent} {out : List Packet}
    (h : act J E e = .ok (E', out)) (succeeded : E'.session.disk.AllSucceeded) :
    E.session.disk.AllSucceeded := by
  obtain ⟨t, taken, -, rfl, -⟩ := act_ok h
  exact succeeded_before taken succeeded

theorem receive_before {E E' : Endpoint B} {p : Packet} {out : List Packet}
    (h : receive J E p = .ok (E', out)) (succeeded : E'.session.disk.AllSucceeded) :
    E.session.disk.AllSucceeded := by
  rcases receive_ok h with ⟨-, rfl, -⟩ | ⟨-, -, t, taken, rfl, -⟩
  · exact (refuse_frame E.session).1.disk ▸ succeeded
  · exact succeeded_before taken succeeded

end FastTransfer.Link
