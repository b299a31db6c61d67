/- FastTransfer/Core/Reporting
   source: src/core/TransferSession.cpp
   digest: The signals that one event makes a session emit. -/

import FastTransfer.Core.Terminal

set_option autoImplicit false
set_option relaxedAutoImplicit false

namespace FastTransfer

open Protocol

def Signal.follow (status : TransferStatus) : Signal → TransferStatus
  | statusChanged newStatus => newStatus
  | _ => status

def Signal.isOngoing : Signal → Bool
  | transferCompleted | incomingOfferReceived _ _ _ _ => false
  | _ => true

namespace TransferSession

variable {B : Blake3} {J : QJson}

/-- The signals emitted between two states tell how the status moved. -/
structure Reports (s t : TransferSession B) (news : List Signal) : Prop where
  signals : t.signals = s.signals ++ news
  status : t.status = news.foldl Signal.follow s.status
  transferId : t.transferId = s.transferId
  ongoing : ∀ signal ∈ news, signal.isOngoing = true

def Continues (s t : TransferSession B) : Prop := ∃ news, Reports s t news

namespace Continues

theorem of_same {s t : TransferSession B} (signals : t.signals = s.signals)
    (status : t.status = s.status) (transferId : t.transferId = s.transferId) : Continues s t :=
  ⟨[], by rw [signals, List.append_nil], status, transferId, nofun⟩

theorem refl (s : TransferSession B) : Continues s s := of_same rfl rfl rfl

theorem trans {s t u : TransferSession B} (first : Continues s t) (second : Continues t u) :
    Continues s u := by
  obtain ⟨news, first⟩ := first
  obtain ⟨more, second⟩ := second
  refine ⟨news ++ more, ?_, ?_, second.transferId.trans first.transferId, ?_⟩
  · rw [second.signals, first.signals, List.append_assoc]
  · rw [second.status, first.status, List.foldl_append]
  · intro signal mem
    rcases List.mem_append.mp mem with mem | mem
    · exact first.ongoing signal mem
    · exact second.ongoing signal mem

theorem setStatus (s : TransferSession B) (status : TransferStatus) :
    Continues s (s.setStatus status) := by
  by_cases same : s.status = status
  · refine of_same ?_ same.symm rfl
    simp only [TransferSession.setStatus, same, ne_eq, not_true_eq_false, if_false]
  · refine ⟨[.statusChanged status], ?_, rfl, rfl, ?_⟩
    · simp only [TransferSession.setStatus, ne_eq, same, not_false_eq_true, if_true]
    · intro signal mem
      rw [List.mem_singleton.mp mem]
      rfl

theorem emit (s : TransferSession B) {signal : Signal} (ongoing : signal.isOngoing = true)
    (plain : ∀ status, signal.follow status = status) : Continues s (s.emit signal) := by
  refine ⟨[signal], rfl, (plain s.status).symm, rfl, fun other mem => ?_⟩
  rw [List.mem_singleton.mp mem]
  exact ongoing

theorem fail (s : TransferSession B) (message : QString) : Continues s (s.fail message) :=
  (setStatus s .Failed).trans (emit _ rfl fun _ => rfl)

theorem nextChunk {s t : TransferSession B} (h : NextChunk s t) : Continues s t := by
  cases h with
  | idle => exact refl s
  | fileEnd reader active ended => exact of_same rfl rfl rfl
  | readFailed reader active ended empty =>
      have read : Continues s (s.afterRead reader) := of_same rfl rfl rfl
      exact read.trans (fail _ _)
  | sendFailed reader active lost =>
      have read : Continues s (s.afterRead reader) := of_same rfl rfl rfl
      exact read.trans (fail _ _)
  | chunk reader active ended nonempty online payload written => exact of_same rfl rfl rfl

end Continues

def Ends (s t : TransferSession B) : Prop :=
  ∃ front, t.signals = s.signals ++ front ++ [.transferCompleted] ∧
    (∀ signal ∈ front, signal.isOngoing = true) ∧ t.status = .Completed ∧
    t.transferId = s.transferId

theorem Continues.ends {s t u : TransferSession B} (first : Continues s t) (last : Ends t u) :
    Ends s u := by
  obtain ⟨news, first⟩ := first
  obtain ⟨front, signals, ongoing, status, transferId⟩ := last
  refine ⟨news ++ front, ?_, ?_, status, transferId.trans first.transferId⟩
  · rw [signals, first.signals, List.append_assoc s.signals]
  · intro signal mem
    rcases List.mem_append.mp mem with mem | mem
    · exact first.ongoing signal mem
    · exact ongoing signal mem

theorem ends_complete (s : TransferSession B) : Ends s s.complete := by
  obtain ⟨news, moved⟩ := Continues.setStatus s .Completed
  refine ⟨news ++ [.metricsUpdated s.complete.metrics], ?_, ?_, rfl, rfl⟩
  · show (s.setStatus .Completed).signals ++ _ = _
    rw [moved.signals]
    simp only [List.append_assoc, List.cons_append, List.nil_append]
    rfl
  · intro signal mem
    rcases List.mem_append.mp mem with mem | mem
    · exact moved.ongoing signal mem
    · rw [List.mem_singleton.mp mem]
      rfl

theorem Continues.begin (s : TransferSession B) : Continues s s.begin :=
  (Continues.setStatus s .Transferring).trans (.of_same rfl rfl rfl)

theorem Continues.acked (s : TransferSession B) (ack : MsgFileAck) (reader : FileReader B) :
    Continues s ((s.ackReceived ack).closeReader reader) :=
  (Continues.emit s rfl fun _ => rfl).trans (.of_same rfl rfl rfl)

theorem StartFile.ends {s t : TransferSession B} {fileIndex startOffset : UInt64}
    (h : StartFile J s fileIndex startOffset t)
    (done : s.sendManifest.items.length ≤ fileIndex.toNat) : Ends s t := by
  cases h with
  | finished _ =>
      have told : Continues s (s.sendPacket .TransferComplete
          (serializeTransferComplete J ⟨s.transferId, s.metrics.totalTransferred⟩)) :=
        .of_same rfl rfl rfl
      exact told.ends (ends_complete _)
  | unopened item found closed =>
      exact absurd (List.getElem?_eq_some_iff.mp found).1 (Nat.not_lt.mpr done)
  | started item found opened next sent =>
      exact absurd (List.getElem?_eq_some_iff.mp found).1 (Nat.not_lt.mpr done)

theorem StartFile.reports {s t : TransferSession B} {fileIndex startOffset : UInt64}
    (h : StartFile J s fileIndex startOffset t) :
    Continues s t ∨ s.sendManifest.items.length ≤ fileIndex.toNat ∧ Ends s t := by
  have entered : ∀ item : LocalFileItem, Continues s (s.enterFile fileIndex item startOffset) := by
    intro item
    exact ⟨[_], rfl, rfl, rfl, by simp [Signal.isOngoing]⟩
  have started := h
  cases h with
  | finished done => exact .inr ⟨done, started.ends done⟩
  | unopened item found closed =>
      let reader := ((FileReader.new B s.chunkSize).open s.disk item.sourceAbsolutePath
        startOffset).2
      have read : Continues (s.enterFile fileIndex item startOffset)
          { s.enterFile fileIndex item startOffset with fileReader := some reader } :=
        .of_same rfl rfl rfl
      exact .inl ((entered item).trans (read.trans (.fail _ (openError reader))))
  | started item found opened next sent =>
      have announced : Continues (s.enterFile fileIndex item startOffset)
          (s.started fileIndex startOffset item) := .of_same rfl rfl rfl
      exact .inl ((entered item).trans (announced.trans (.nextChunk sent)))

def FinishesPacket (J : QJson) (self : TransferSession B) (p : Packet) : Prop :=
  match p.type with
  | .TransferComplete => True
  | .TransferAccept => ∃ accept, parseTransferAccept J p.payload = some accept ∧
      accept.accepted = true ∧ self.sendManifest.items.length ≤ accept.startFileIndex.toNat
  | .FileAck => ∃ ack, parseFileAck p.payload = some ack ∧ ack.statusCode = 0 ∧
      self.sendManifest.items.length ≤ (self.currentFileIndex + 1).toNat
  | .TransferResume => ∃ msg, parseTransferResume J p.payload = some msg ∧
      self.direction = .Send ∧ self.sendManifest.items.length ≤ msg.fileIndex.toNat
  | _ => False

/-- The events that complete the transfer. -/
def Finishes (J : QJson) (self : TransferSession B) : Event → Prop
  | .packet p => FinishesPacket J self p
  | _ => False

/-- The event is an offer that parses. -/
def Offers (e : Event) (offer : MsgTransferOffer) : Prop :=
  ∃ flags payload, e = .packet ⟨.TransferOffer, flags, payload⟩ ∧
    parseTransferOffer payload = some offer

def Takes (offer : MsgTransferOffer) (s t : TransferSession B) : Prop :=
  t.transferId = offer.transferId ∧ ∃ front,
    t.signals = s.signals ++ front ++ [.incomingOfferReceived offer.transferId offer.senderDevice
      offer.totalFiles offer.totalBytes] ∧
    ∀ signal ∈ front, signal.isOngoing = true

private theorem onHandshakeReq_reports (s : TransferSession B) (payload : QByteArray) :
    Continues s (onHandshakeReq J s payload) := by
  unfold onHandshakeReq
  split
  · exact .refl s
  · rename_i req _
    have answered : Continues s
        ({ s with remoteDevice := req.deviceName }.sendPacket .HandshakeResp
          (serializeHandshakeResp J ⟨PROTOCOL_VERSION, s.localDeviceName, true, []⟩)) :=
      .of_same rfl rfl rfl
    exact answered.trans (.setStatus _ .Offering)

private theorem onHandshakeResp_reports (s : TransferSession B) (payload : QByteArray) :
    Continues s (onHandshakeResp J s payload) := by
  unfold onHandshakeResp
  split
  · exact .fail s _
  split
  · rename_i resp _ yes
    let heard := { s with remoteDevice := resp.deviceName }
    have named : Continues s heard := .of_same rfl rfl rfl
    have offered : Continues (heard.setStatus .Offering)
        ((heard.setStatus .Offering).sendPacket .TransferOffer
          (serializeTransferOffer
            ⟨s.transferId, s.localDeviceName, s.sendManifest.totalFiles,
              s.sendManifest.totalBytes, s.sendManifest.toProtocolItems⟩)) :=
      .of_same rfl rfl rfl
    exact (named.trans (.setStatus heard .Offering)).trans
      (offered.trans (.setStatus _ .WaitingApproval))
  · exact .fail s _

private theorem onTransferOffer_takes (s : TransferSession B) {payload : QByteArray}
    {offer : MsgTransferOffer} (parsed : parseTransferOffer payload = some offer) :
    Takes offer s (onTransferOffer s payload) := by
  obtain ⟨news, moved⟩ := Continues.setStatus
    { s with
      receivedOffer := some offer
      transferId := offer.transferId
      remoteDevice := offer.senderDevice
      metrics :=
        { s.metrics with totalFiles := offer.totalFiles, totalBytes := offer.totalBytes } }
    .WaitingApproval
  simp only [onTransferOffer, parsed]
  refine ⟨rfl, news, ?_, moved.ongoing⟩
  exact congrArg (· ++ [_]) moved.signals

private theorem onFileStart_reports (s : TransferSession B) (payload : QByteArray) :
    Continues s (onFileStart s payload) := by
  unfold onFileStart
  split
  · exact .refl s
  rename_i start _
  have expected : Continues s (s.expectFile start) := ⟨[_], rfl, rfl, rfl, by
    simp [Signal.isOngoing]⟩
  split
  · exact expected.trans (.of_same rfl rfl rfl)
  · have answered : Continues (s.expectFile start)
        ((s.fileOpened start).sendPacket .FileAck
          (serializeFileAck { fileIndex := start.fileIndex, statusCode := 2 })) :=
      .of_same rfl rfl rfl
    have failed := answered.trans (.fail _ (prepareError (s.openWriter start).2.1))
    exact expected.trans (failed.trans (.of_same rfl rfl rfl))

private theorem onFileDataChunk_reports (s : TransferSession B) (payload : QByteArray) :
    Continues s (onFileDataChunk s payload) := by
  unfold onFileDataChunk
  split
  · dsimp only
    split
    · exact .of_same rfl rfl rfl
    · rename_i chunk writer _ _ _
      have written : Continues s (s.chunkWritten writer chunk) := .of_same rfl rfl rfl
      exact (written.trans (.fail _ _)).trans (.of_same rfl rfl rfl)
  · exact .refl s

private theorem onFileEnd_reports (s : TransferSession B) (payload : QByteArray) :
    Continues s (onFileEnd s payload) := by
  unfold onFileEnd
  split
  · exact ⟨[_], rfl, rfl, rfl, by simp [Signal.isOngoing]⟩
  · exact .refl s

private theorem onPacketReceived_reports {s t : TransferSession B} {p : Packet}
    (h : onPacketReceived J s p = .ok t) :
    Continues s t ∨ FinishesPacket J s p ∧ Ends s t ∨
      ∃ offer, Offers (.packet p) offer ∧ Takes offer s t := by
  obtain ⟨type, flags, payload⟩ := p
  cases type with
  | HandshakeReq =>
      cases h
      exact .inl (onHandshakeReq_reports s payload)
  | HandshakeResp =>
      cases h
      exact .inl (onHandshakeResp_reports s payload)
  | TransferOffer =>
      cases h
      cases parsed : parseTransferOffer payload with
      | none =>
          simp only [onTransferOffer, parsed]
          exact .inl (.refl s)
      | some offer =>
          exact .inr (.inr ⟨offer, ⟨flags, payload, rfl, parsed⟩, onTransferOffer_takes s parsed⟩)
  | TransferAccept =>
      rcases onTransferAccept_cases h with ⟨rfl, -⟩ | ⟨accept, parsed, yes, start⟩
      · exact .inl (.refl t)
      · rcases start.reports with continues | ⟨done, ends⟩
        · exact .inl ((Continues.begin s).trans continues)
        · exact .inr (.inl ⟨⟨accept, parsed, yes, done⟩, (Continues.begin s).ends ends⟩)
  | TransferReject =>
      cases h
      exact .inl ((Continues.setStatus s .Cancelled).trans (.emit _ rfl fun _ => rfl))
  | FileStart =>
      cases h
      exact .inl (onFileStart_reports s payload)
  | FileDataChunk =>
      cases h
      exact .inl (onFileDataChunk_reports s payload)
  | FileEnd =>
      cases h
      exact .inl (onFileEnd_reports s payload)
  | FileAck =>
      rcases onFileAck_cases h with ⟨rfl, -⟩ | ⟨ack, parsed, ⟨-, rfl⟩ | ⟨ok, reader, -, start⟩⟩
      · exact .inl (.refl t)
      · have told : Continues s (s.ackReceived ack) := .emit s rfl fun _ => rfl
        exact .inl (told.trans (.fail _ _))
      · have closed := Continues.acked s ack reader
        rcases start.reports with continues | ⟨done, ends⟩
        · exact .inl (closed.trans continues)
        · exact .inr (.inl ⟨⟨ack, parsed, ok, done⟩, closed.ends ends⟩)
  | TransferPause =>
      cases h
      exact .inl (.setStatus s .Paused)
  | TransferResume =>
      rcases onTransferResume_cases h with ⟨rfl, -⟩ | ⟨msg, parsed, ⟨-, rfl⟩ | ⟨send, start⟩⟩
      · exact .inl (.refl t)
      · exact .inl (.setStatus s .Transferring)
      · rcases start.reports with continues | ⟨done, ends⟩
        · exact .inl ((Continues.setStatus s .Transferring).trans continues)
        · exact .inr (.inl ⟨⟨msg, parsed, send, done⟩,
            (Continues.setStatus s .Transferring).ends ends⟩)
  | TransferCancel =>
      cases h
      exact .inl ((Continues.setStatus s .Cancelled).trans (.of_same rfl rfl rfl))
  | TransferComplete =>
      cases h
      exact .inr (.inl ⟨trivial, ends_complete s⟩)
  | Invalid | ErrorAlert | unnamed raw =>
      cases h
      exact .inl (.refl s)

/-- Whatever an event makes a session emit: news of a transfer that goes on, news that end with its
completion, or an offer. -/
theorem step_reports {s t : TransferSession B} {e : Event} (h : Steps J s e t) :
    Continues s t ∨ Finishes J s e ∧ Ends s t ∨ ∃ offer, Offers e offer ∧ Takes offer s t := by
  cases e with
  | packet p => exact onPacketReceived_reports h
  | acceptTransfer baseOutputDir policy timestamp =>
      cases h
      refine .inl ?_
      unfold acceptTransfer
      dsimp only
      split
      · exact .of_same rfl rfl rfl
      · have answered : Continues s
            ({ s with
                baseOutputDir := baseOutputDir
                duplicatePolicy := policy
                sessionSubfolder := s.chooseSubfolder baseOutputDir timestamp }.sendPacket
              .TransferAccept
              (serializeTransferAccept J ⟨s.transferId, s.localDeviceName, true, 0, 0⟩)) :=
          .of_same rfl rfl rfl
        exact (answered.trans (.setStatus _ .Transferring)).trans (.of_same rfl rfl rfl)
  | rejectTransfer reason =>
      cases h
      have answered : Continues s
          (s.sendPacket .TransferReject (serializeTransferReject J ⟨s.transferId, reason⟩)) :=
        .of_same rfl rfl rfl
      exact .inl ((answered.trans (.setStatus _ .Cancelled)).trans (.of_same rfl rfl rfl))
  | pause =>
      cases h
      refine .inl ?_
      unfold pause
      split
      · have paused := (Continues.setStatus s .Paused).trans
          (.emit _ rfl fun _ => rfl : Continues _ ((s.setStatus .Paused).emit
            (.metricsUpdated s.metrics)))
        exact paused.trans (.of_same rfl rfl rfl)
      · exact .refl s
  | resume =>
      have resumed : Continues s (s.resumed J) :=
        (Continues.setStatus s .Transferring).trans (.of_same rfl rfl rfl)
      rcases resume_cases h with ⟨-, rfl⟩ | ⟨-, ⟨-, rfl⟩ | ⟨-, next⟩⟩
      · exact .inl (.refl t)
      · exact .inl resumed
      · exact .inl (resumed.trans (.nextChunk next))
  | cancel =>
      cases h
      have cancelled := (Continues.setStatus s .Cancelled).trans
        (.emit _ rfl fun _ => rfl : Continues _ ((s.setStatus .Cancelled).emit
          (.metricsUpdated s.metrics)))
      exact .inl (cancelled.trans (.of_same rfl rfl rfl))
  | startSend manifest localDeviceName chunkSize =>
      cases h
      have entered : Continues s
          { s with
            sendManifest := manifest
            localDeviceName := localDeviceName
            chunkSize := if 0 < chunkSize then chunkSize else DEFAULT_CHUNK_SIZE
            currentFileIndex := 0
            metrics := { totalFiles := manifest.totalFiles, totalBytes := manifest.totalBytes } } :=
        .of_same rfl rfl rfl
      exact .inl (entered.trans (.setStatus _ .Connecting))
  | socketConnected =>
      cases h
      refine .inl ?_
      split
      · have online : Continues s { s with connected := true } := .of_same rfl rfl rfl
        exact (online.trans (.setStatus _ .Handshaking)).trans (.of_same rfl rfl rfl)
      · exact .refl s
  | socketDisconnected =>
      cases h
      refine .inl ?_
      unfold onSocketDisconnected
      have offline : Continues s s.disconnectFromHost := .of_same rfl rfl rfl
      dsimp only
      split
      · exact offline.trans (.fail _ connectionLost)
      · exact offline
  | socketError errorMsg =>
      cases h
      refine .inl ?_
      unfold onSocketError
      split
      · exact .fail s errorMsg
      · exact .refl s
  | bytesWritten pending =>
      have drained : Continues s { s with bytesToWrite := pending } := .of_same rfl rfl rfl
      exact .inl (drained.trans (.nextChunk (onBytesTransferred_cases h)))
  | drain pending =>
      cases h
      exact .inl (.of_same rfl rfl rfl)
  | sendNextChunk =>
      have called : Continues s { s with queuedCalls := s.queuedCalls - 1 } :=
        .of_same rfl rfl rfl
      exact .inl (called.trans (.nextChunk (sendNextChunk_cases h)))
  | metricsTick =>
      cases h
      refine .inl ?_
      unfold calculateMetrics
      split
      · exact .emit s rfl fun _ => rfl
      · exact .refl s

/-- An event that completes the transfer does so last. -/
theorem Finishes.ends {s t : TransferSession B} {e : Event} (finishes : Finishes J s e)
    (h : Steps J s e t) : Ends s t := by
  cases e with
  | packet p =>
      obtain ⟨type, flags, payload⟩ := p
      cases type with
      | TransferComplete =>
          cases h
          exact ends_complete s
      | TransferAccept =>
          obtain ⟨accept, parsed, yes, done⟩ := finishes
          rcases onTransferAccept_cases h with ⟨-, refused⟩ | ⟨accept', parsed', -, start⟩
          · rw [refused accept parsed] at yes
            cases yes
          · cases parsed.symm.trans parsed'
            exact (Continues.begin s).ends (start.ends done)
      | FileAck =>
          obtain ⟨ack, parsed, ok, done⟩ := finishes
          rcases onFileAck_cases h with
            ⟨-, none⟩ | ⟨ack', parsed', ⟨bad, -⟩ | ⟨-, reader, -, start⟩⟩
          · exact nomatch none.symm.trans parsed
          · cases parsed.symm.trans parsed'
            exact absurd ok bad
          · exact (Continues.acked s ack' reader).ends (start.ends done)
      | TransferResume =>
          obtain ⟨msg, parsed, send, done⟩ := finishes
          rcases onTransferResume_cases h with ⟨-, none⟩ | ⟨msg', parsed', ⟨other, -⟩ | ⟨-, start⟩⟩
          · exact nomatch none.symm.trans parsed
          · exact absurd send other
          · cases parsed.symm.trans parsed'
            exact (Continues.setStatus s .Transferring).ends (start.ends done)
      | _ => exact finishes.elim
  | _ => exact finishes.elim

theorem Offers.transferId {s t : TransferSession B} {e : Event} {offer : MsgTransferOffer}
    (offers : Offers e offer) (h : Steps J s e t) : t.transferId = offer.transferId := by
  obtain ⟨flags, payload, rfl, parsed⟩ := offers
  rw [← Except.ok.inj h]
  simp only [onTransferOffer, parsed]
  rfl

end TransferSession

end FastTransfer
