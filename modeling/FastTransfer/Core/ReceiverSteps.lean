/- FastTransfer/Core/ReceiverSteps
   source: src/core/TransferSession.cpp
   digest: What the three file packets do to a session, and what no other event does. -/

import FastTransfer.Core.SenderSteps

set_option autoImplicit false
set_option relaxedAutoImplicit false

namespace FastTransfer.TransferSession

open Protocol
open QString (literal)

variable {B : Blake3} {J : QJson}

def fileTypes : List MessageType := [.FileStart, .FileDataChunk, .FileEnd]

def otherTypes : List MessageType :=
  [.HandshakeReq, .HandshakeResp, .TransferOffer, .TransferAccept, .TransferReject, .FileStart,
    .FileDataChunk, .FileEnd, .TransferPause, .TransferResume, .TransferCancel, .TransferComplete]

/-- A step that leaves the disk alone, at most closes the writer, acknowledges nothing and
reconnects only a session that owns its connection. -/
structure Bystander (before after : TransferSession B) : Prop where
  ownsConnection : after.ownsConnection = before.ownsConnection
  disk : after.disk = before.disk
  fileWriter : after.fileWriter = before.fileWriter ∨
    after.fileWriter = before.fileWriter.map FileWriter.abort
  connected : before.ownsConnection = false → after.connected = true → before.connected = true
  sends : Sends otherTypes before after

namespace Bystander

theorem refl (s : TransferSession B) : Bystander s s :=
  ⟨rfl, rfl, .inl rfl, fun _ h => h, .refl _ s⟩

private theorem of_sender {s t : TransferSession B} {types : List MessageType}
    (same : SameReceiver s t) (sends : Sends types s t) (sub : types ⊆ otherTypes) :
    Bystander s t :=
  ⟨same.ownsConnection, same.disk, .inl same.fileWriter, fun _ h => same.connected ▸ h,
    sends.mono sub⟩

private theorem nextChunk {s t : TransferSession B} (h : NextChunk s t) : Bystander s t :=
  of_sender h.sameReceiver h.sends (by simp [otherTypes])

private theorem startFile {s t : TransferSession B} {fileIndex startOffset : UInt64}
    (h : StartFile J s fileIndex startOffset t) : Bystander s t :=
  of_sender h.sameReceiver h.sends (by simp [otherTypes])

private theorem packet (s : TransferSession B) {type : MessageType} (payload : QByteArray)
    (other : type ∈ otherTypes) : Bystander s (s.sendPacket type payload) :=
  ⟨rfl, rfl, .inl rfl, fun _ h => h, (sends_sendPacket s type payload).mono (by simpa using other)⟩

end Bystander

private theorem onHandshakeReq_bystander (s : TransferSession B) (payload : QByteArray) :
    Bystander s (onHandshakeReq J s payload) := by
  unfold onHandshakeReq
  cases parseHandshakeReq J payload with
  | none => exact .refl s
  | some req =>
      have sent := Bystander.packet { s with remoteDevice := req.deviceName }
        (serializeHandshakeResp J ⟨PROTOCOL_VERSION, s.localDeviceName, true, []⟩)
        (by decide : .HandshakeResp ∈ otherTypes)
      exact ⟨rfl, rfl, .inl rfl, fun _ h => h, sent.sends⟩

private theorem onHandshakeResp_bystander (s : TransferSession B) (payload : QByteArray) :
    Bystander s (onHandshakeResp J s payload) := by
  unfold onHandshakeResp
  cases parseHandshakeResp J payload with
  | none => exact ⟨rfl, rfl, .inl rfl, fun _ h => h, .refl _ s⟩
  | some resp =>
      by_cases accepted : resp.accepted = true
      · simp only [if_pos accepted]
        have sent := sends_sendPacket
          ({ s with remoteDevice := resp.deviceName }.setStatus .Offering) .TransferOffer
          (serializeTransferOffer
            ⟨s.transferId, s.localDeviceName, s.sendManifest.totalFiles,
              s.sendManifest.totalBytes, s.sendManifest.toProtocolItems⟩)
        exact ⟨rfl, rfl, .inl rfl, fun _ h => h, sent.mono (by simp [otherTypes])⟩
      · simp only [if_neg accepted]
        exact ⟨rfl, rfl, .inl rfl, fun _ h => h, .refl _ s⟩

private theorem onPacketReceived_bystander {s t : TransferSession B} {p : Packet}
    (h : onPacketReceived J s p = .ok t) (other : p.type ∉ fileTypes) : Bystander s t := by
  obtain ⟨type, flags, payload⟩ := p
  cases type with
  | HandshakeReq =>
      cases h
      exact onHandshakeReq_bystander s payload
  | HandshakeResp =>
      cases h
      exact onHandshakeResp_bystander s payload
  | TransferOffer =>
      cases h
      unfold onTransferOffer
      cases parseTransferOffer payload with
      | none => exact .refl s
      | some offer => exact ⟨rfl, rfl, .inl rfl, fun _ h => h, .refl _ s⟩
  | TransferAccept =>
      rcases onTransferAccept_cases h with ⟨rfl, -⟩ | ⟨accept, -, -, start⟩
      · exact .refl t
      · have began := Bystander.startFile start
        exact ⟨began.ownsConnection, began.disk, began.fileWriter, began.connected, began.sends⟩
  | TransferReject =>
      cases h
      exact ⟨rfl, rfl, .inl rfl, fun _ h => h, .refl _ s⟩
  | FileStart => exact absurd (by decide : .FileStart ∈ fileTypes) other
  | FileDataChunk => exact absurd (by decide : .FileDataChunk ∈ fileTypes) other
  | FileEnd => exact absurd (by decide : .FileEnd ∈ fileTypes) other
  | FileAck =>
      rcases onFileAck_cases h with ⟨rfl, -⟩ | ⟨ack, -, ⟨-, rfl⟩ | ⟨-, reader, -, start⟩⟩
      · exact .refl t
      · exact ⟨rfl, rfl, .inl rfl, fun _ h => h, .refl _ s⟩
      · have began := Bystander.startFile start
        exact ⟨began.ownsConnection, began.disk, began.fileWriter, began.connected, began.sends⟩
  | TransferPause =>
      cases h
      exact ⟨rfl, rfl, .inl rfl, fun _ h => h, .refl _ s⟩
  | TransferResume =>
      rcases onTransferResume_cases h with ⟨rfl, -⟩ | ⟨msg, -, ⟨-, rfl⟩ | ⟨-, start⟩⟩
      · exact .refl t
      · exact ⟨rfl, rfl, .inl rfl, fun _ h => h, .refl _ s⟩
      · have began := Bystander.startFile start
        exact ⟨began.ownsConnection, began.disk, began.fileWriter, began.connected, began.sends⟩
  | TransferCancel =>
      cases h
      exact ⟨rfl, rfl, .inr rfl, fun _ h => h, .refl _ s⟩
  | TransferComplete =>
      cases h
      exact ⟨rfl, rfl, .inl rfl, fun _ h => h, .refl _ s⟩
  | Invalid =>
      cases h
      exact .refl s
  | ErrorAlert =>
      cases h
      exact .refl s
  | unnamed raw =>
      cases h
      exact .refl s

private theorem step_bystander {s t : TransferSession B} {e : Event} (h : Steps J s e t)
    (other : ∀ p, e = .packet p → p.type ∉ fileTypes) : Bystander s t := by
  cases e with
  | packet p => exact onPacketReceived_bystander h (other p rfl)
  | acceptTransfer baseOutputDir policy timestamp =>
      cases h
      unfold acceptTransfer
      dsimp only
      split
      · exact ⟨rfl, rfl, .inl rfl, fun _ h => h, .refl _ s⟩
      · have sent := sends_sendPacket s .TransferAccept
          (serializeTransferAccept J ⟨s.transferId, s.localDeviceName, true, 0, 0⟩)
        exact ⟨rfl, rfl, .inl rfl, fun _ h => h, sent.mono (by simp [otherTypes])⟩
  | rejectTransfer reason =>
      cases h
      have sent := sends_sendPacket s .TransferReject
        (serializeTransferReject J ⟨s.transferId, reason⟩)
      exact ⟨rfl, rfl, .inl rfl, (fun _ h => nomatch h), sent.mono (by simp [otherTypes])⟩
  | pause =>
      cases h
      unfold pause
      split
      · have sent := sends_sendPacket s .TransferPause
          (serializeTransferPause J ⟨s.transferId, literal "User paused transfer"⟩)
        exact ⟨rfl, rfl, .inl rfl, fun _ h => h, sent.mono (by simp [otherTypes])⟩
      · exact .refl s
  | resume =>
      have told := sends_sendPacket (s.setStatus .Transferring) .TransferResume
        (serializeTransferResume J
          ⟨s.transferId, s.currentFileIndex, s.metrics.currentFileTransferred⟩)
      have sent : Bystander s (s.resumed J) :=
        ⟨rfl, rfl, .inl rfl, fun _ h => h, told.mono (by simp [otherTypes])⟩
      rcases resume_cases h with ⟨-, rfl⟩ | ⟨-, ⟨-, rfl⟩ | ⟨-, next⟩⟩
      · exact .refl t
      · exact sent
      · have moved := Bystander.nextChunk next
        exact ⟨moved.ownsConnection, moved.disk, moved.fileWriter, moved.connected,
          sent.sends.trans moved.sends⟩
  | cancel =>
      cases h
      have sent := sends_sendPacket s .TransferCancel
        (serializeTransferCancel J ⟨s.transferId, literal "User cancelled transfer"⟩)
      exact ⟨rfl, rfl, .inr rfl, (fun _ h => nomatch h), sent.mono (by simp [otherTypes])⟩
  | startSend manifest localDeviceName chunkSize =>
      cases h
      exact ⟨rfl, rfl, .inl rfl, fun _ h => h, .refl _ s⟩
  | socketConnected =>
      cases h
      by_cases owns : s.ownsConnection = true
      · rw [if_pos owns]
        have sent := sends_sendPacket { s with connected := true } .HandshakeReq
          (serializeHandshakeReq J ⟨PROTOCOL_VERSION, s.localDeviceName, osType⟩)
        refine ⟨rfl, rfl, .inl rfl, fun not => ?_, sent.mono (by simp [otherTypes])⟩
        rw [owns] at not
        cases not
      · rw [if_neg owns]
        exact .refl s
  | socketDisconnected =>
      cases h
      unfold onSocketDisconnected
      dsimp only
      split <;> exact ⟨rfl, rfl, .inl rfl, (fun _ h => nomatch h), .refl _ s⟩
  | socketError errorMsg =>
      cases h
      unfold onSocketError
      split
      · exact ⟨rfl, rfl, .inl rfl, fun _ h => h, .refl _ s⟩
      · exact .refl s
  | bytesWritten pending =>
      have moved := Bystander.nextChunk (onBytesTransferred_cases h)
      exact ⟨moved.ownsConnection, moved.disk, moved.fileWriter, moved.connected, moved.sends⟩
  | drain pending =>
      cases h
      exact ⟨rfl, rfl, .inl rfl, fun _ h => h, .refl _ s⟩
  | sendNextChunk =>
      have moved := Bystander.nextChunk (sendNextChunk_cases h)
      exact ⟨moved.ownsConnection, moved.disk, moved.fileWriter, moved.connected, moved.sends⟩
  | metricsTick =>
      cases h
      unfold calculateMetrics
      split
      · exact ⟨rfl, rfl, .inl rfl, fun _ h => h, .refl _ s⟩
      · exact .refl s

structure Ignored (s : TransferSession B) (e : Event) : Prop where
  fileStart : ∀ flags payload, e = .packet ⟨.FileStart, flags, payload⟩ →
    parseFileStart payload = none
  fileDataChunk : ∀ flags payload, e = .packet ⟨.FileDataChunk, flags, payload⟩ →
    parseFileDataChunk payload = none ∨ s.fileWriter = none
  fileEnd : ∀ flags payload, e = .packet ⟨.FileEnd, flags, payload⟩ →
    parseFileEnd payload = none ∨ s.fileWriter = none

/-- Whatever an event does to the receiving half of a session. -/
inductive ReceiverStep (s : TransferSession B) : Event → TransferSession B → Prop
  | opened {flags : UInt16} {payload : QByteArray} {start : MsgFileStart}
      (parsed : parseFileStart payload = some start) (opened : (s.openWriter start).1 = true) :
      ReceiverStep s (.packet ⟨.FileStart, flags, payload⟩) (s.fileOpened start)
  | refused {flags : UInt16} {payload : QByteArray} {start : MsgFileStart}
      (parsed : parseFileStart payload = some start) (refused : (s.openWriter start).1 = false) :
      ReceiverStep s (.packet ⟨.FileStart, flags, payload⟩) (s.fileRefused start)
  | written {flags : UInt16} {payload : QByteArray} {chunk : MsgFileDataChunk}
      {writer : FileWriter B} (parsed : parseFileDataChunk payload = some chunk)
      (found : s.fileWriter = some writer)
      (written : (writer.writeChunk s.disk chunk.offset chunk.chunkData).1 = true) :
      ReceiverStep s (.packet ⟨.FileDataChunk, flags, payload⟩)
        ((s.chunkWritten writer chunk).countReceived chunk.chunkData.length)
  | unwritten {flags : UInt16} {payload : QByteArray} {chunk : MsgFileDataChunk}
      {writer : FileWriter B} (parsed : parseFileDataChunk payload = some chunk)
      (found : s.fileWriter = some writer)
      (failed : (writer.writeChunk s.disk chunk.offset chunk.chunkData).1 = false) :
      ReceiverStep s (.packet ⟨.FileDataChunk, flags, payload⟩)
        ((s.chunkWritten writer chunk).fail (writeError
          (writer.writeChunk s.disk chunk.offset chunk.chunkData).2.1)).disconnectFromHost
  | ended {flags : UInt16} {payload : QByteArray} {msg : MsgFileEnd} {writer : FileWriter B}
      (parsed : parseFileEnd payload = some msg) (found : s.fileWriter = some writer) :
      ReceiverStep s (.packet ⟨.FileEnd, flags, payload⟩) (s.fileEnded writer msg)
  | ignored {e : Event} (ignored : Ignored s e) : ReceiverStep s e s
  | bystander {e : Event} {t : TransferSession B}
      (other : ∀ p, e = .packet p → p.type ∉ fileTypes) (moved : Bystander s t) :
      ReceiverStep s e t

theorem Ignored.of_type {s : TransferSession B} {e : Event}
    (other : ∀ p, e = .packet p → p.type ∉ fileTypes) : Ignored s e := by
  constructor <;> rintro flags payload rfl <;> exact absurd (by simp [fileTypes]) (other _ rfl)

private theorem fileStart_step (s : TransferSession B) (flags : UInt16) (payload : QByteArray) :
    ReceiverStep s (.packet ⟨.FileStart, flags, payload⟩) (onFileStart s payload) := by
  unfold onFileStart
  cases parsed : parseFileStart payload with
  | none =>
      refine .ignored ⟨?_, nofun, nofun⟩
      rintro flags' payload' ⟨⟩
      exact parsed
  | some start =>
      cases opened : (s.openWriter start).1 with
      | true =>
          simp only [opened, if_true]
          exact .opened parsed opened
      | false =>
          simp only [opened, Bool.false_eq_true, if_false]
          exact .refused parsed opened

private theorem fileDataChunk_step (s : TransferSession B) (flags : UInt16)
    (payload : QByteArray) :
    ReceiverStep s (.packet ⟨.FileDataChunk, flags, payload⟩) (onFileDataChunk s payload) := by
  unfold onFileDataChunk
  cases parsed : parseFileDataChunk payload with
  | none =>
      refine .ignored ⟨nofun, ?_, nofun⟩
      rintro flags' payload' ⟨⟩
      exact .inl parsed
  | some chunk =>
      cases found : s.fileWriter with
      | none =>
          refine .ignored ⟨nofun, ?_, nofun⟩
          rintro flags' payload' ⟨⟩
          exact .inr found
      | some writer =>
          cases written : (writer.writeChunk s.disk chunk.offset chunk.chunkData).1 with
          | true =>
              simp only [written, if_true]
              exact .written parsed found written
          | false =>
              simp only [written, Bool.false_eq_true, if_false]
              exact .unwritten parsed found written

private theorem fileEnd_step (s : TransferSession B) (flags : UInt16) (payload : QByteArray) :
    ReceiverStep s (.packet ⟨.FileEnd, flags, payload⟩) (onFileEnd s payload) := by
  unfold onFileEnd
  cases parsed : parseFileEnd payload with
  | none =>
      refine .ignored ⟨nofun, nofun, ?_⟩
      rintro flags' payload' ⟨⟩
      exact .inl parsed
  | some msg =>
      cases found : s.fileWriter with
      | none =>
          refine .ignored ⟨nofun, nofun, ?_⟩
          rintro flags' payload' ⟨⟩
          exact .inr found
      | some writer => exact .ended parsed found

theorem step_receiver {s t : TransferSession B} {e : Event} (h : Steps J s e t) :
    ReceiverStep s e t := by
  by_cases file : ∃ p, e = .packet p ∧ p.type ∈ fileTypes
  · obtain ⟨⟨type, flags, payload⟩, rfl, mem⟩ := file
    simp only [fileTypes, List.mem_cons, List.not_mem_nil, or_false] at mem
    rcases mem with rfl | rfl | rfl
    · rw [← Except.ok.inj h]
      exact fileStart_step s flags payload
    · rw [← Except.ok.inj h]
      exact fileDataChunk_step s flags payload
    · rw [← Except.ok.inj h]
      exact fileEnd_step s flags payload
  · have other : ∀ p, e = .packet p → p.type ∉ fileTypes := fun p eq mem => file ⟨p, eq, mem⟩
    exact .bystander other (step_bystander h other)

end FastTransfer.TransferSession
