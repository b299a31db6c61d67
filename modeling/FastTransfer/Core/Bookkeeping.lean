/- FastTransfer/Core/Bookkeeping
   source: src/core/TransferManager.cpp, src/core/TransferSession.cpp, src/database/Database.cpp
   digest: The history tells the present status of the active session, and forgets no transfer. -/

import FastTransfer.Core.History

set_option autoImplicit false
set_option relaxedAutoImplicit false

namespace FastTransfer

open Protocol
open QString (literal)
open TransferManager (statusText)

/-- What the row of the active session says once the signal is heard. -/
def Signal.write (text : QString) : Signal → QString
  | statusChanged status => statusText status
  | transferCompleted => literal "Completed"
  | transferFailed _ => literal "Failed"
  | _ => text

/-- What the history may say of a session: its status, or how it came to be cancelled. -/
def Says (status : TransferStatus) (text : QString) : Prop :=
  text = statusText status ∨
    status = .Cancelled ∧ (text = literal "Failed" ∨ text = literal "Rejected")

namespace TransferSession

variable {B : Blake3} {J : QJson}

/-- What the history may say of the one, the signals turn into what it may say of the other. -/
def Told (s t : TransferSession B) : Prop :=
  ∃ news, t.signals = s.signals ++ news ∧
    ∀ text, Says s.status text → Says t.status (news.foldl Signal.write text)

namespace Told

theorem same {s t : TransferSession B} (signals : t.signals = s.signals)
    (status : t.status = s.status) : Told s t :=
  ⟨[], by rw [signals, List.append_nil], fun text said => status ▸ said⟩

theorem refl (s : TransferSession B) : Told s s := same rfl rfl

theorem trans {s t u : TransferSession B} (first : Told s t) (second : Told t u) : Told s u := by
  obtain ⟨news, signals, first⟩ := first
  obtain ⟨more, signals', second⟩ := second
  refine ⟨news ++ more, ?_, fun text said => ?_⟩
  · rw [signals', signals, List.append_assoc]
  · rw [List.foldl_append]
    exact second _ (first text said)

theorem setStatus (s : TransferSession B) (status : TransferStatus) :
    Told s (s.setStatus status) := by
  by_cases already : s.status = status
  · refine same ?_ already.symm
    simp only [TransferSession.setStatus, already, ne_eq, not_true_eq_false, if_false]
  · refine ⟨[.statusChanged status], ?_, fun text _ => .inl rfl⟩
    simp only [TransferSession.setStatus, ne_eq, already, not_false_eq_true, if_true]

theorem emit (s : TransferSession B) {signal : Signal}
    (fits : ∀ text, Says s.status text → Says s.status (signal.write text)) :
    Told s (s.emit signal) := ⟨[signal], rfl, fits⟩

theorem fail (s : TransferSession B) (message : QString) : Told s (s.fail message) :=
  (setStatus s .Failed).trans (emit _ fun _ _ => .inl rfl)

theorem complete (s : TransferSession B) : Told s s.complete := by
  obtain ⟨news, signals, -⟩ := setStatus s .Completed
  refine ⟨news ++ [.metricsUpdated s.complete.metrics, .transferCompleted], ?_, fun text _ => ?_⟩
  · show (s.setStatus .Completed).signals ++ _ = _
    rw [signals, List.append_assoc]
    rfl
  · rw [List.foldl_append]
    exact .inl rfl

theorem begin (s : TransferSession B) : Told s s.begin :=
  (setStatus s .Transferring).trans (same rfl rfl)

theorem nextChunk {s t : TransferSession B} (h : NextChunk s t) : Told s t := by
  cases h with
  | idle => exact refl s
  | fileEnd reader active ended => exact same rfl rfl
  | readFailed reader active ended empty =>
      have read : Told s (s.afterRead reader) := same rfl rfl
      exact read.trans (fail _ _)
  | sendFailed reader active lost =>
      have read : Told s (s.afterRead reader) := same rfl rfl
      exact read.trans (fail _ _)
  | chunk reader active ended nonempty online payload written => exact same rfl rfl

theorem startFile {s t : TransferSession B} {fileIndex startOffset : UInt64}
    (h : StartFile J s fileIndex startOffset t) : Told s t := by
  have entered : ∀ item : LocalFileItem, Told s (s.enterFile fileIndex item startOffset) :=
    fun item => ⟨[_], rfl, fun text said => said⟩
  cases h with
  | finished done =>
      have told : Told s (s.sendPacket .TransferComplete
          (serializeTransferComplete J ⟨s.transferId, s.metrics.totalTransferred⟩)) :=
        same rfl rfl
      exact told.trans (complete _)
  | unopened item found closed =>
      let reader := ((FileReader.new B s.chunkSize).open s.disk item.sourceAbsolutePath
        startOffset).2
      have read : Told (s.enterFile fileIndex item startOffset)
          { s.enterFile fileIndex item startOffset with fileReader := some reader } :=
        same rfl rfl
      exact (entered item).trans (read.trans (fail _ (openError reader)))
  | started item found opened next sent =>
      have announced : Told (s.enterFile fileIndex item startOffset)
          (s.started fileIndex startOffset item) := same rfl rfl
      exact (entered item).trans (announced.trans (nextChunk sent))

end Told

private theorem onFileStart_told (s : TransferSession B) (payload : QByteArray) :
    Told s (onFileStart s payload) := by
  unfold onFileStart
  split
  · exact .refl s
  rename_i start _
  have expected : Told s (s.expectFile start) := ⟨[_], rfl, fun text said => said⟩
  split
  · exact expected.trans (.same rfl rfl)
  · have answered : Told (s.expectFile start)
        ((s.fileOpened start).sendPacket .FileAck
          (serializeFileAck { fileIndex := start.fileIndex, statusCode := 2 })) :=
      .same rfl rfl
    have failed := answered.trans (.fail _ (prepareError (s.openWriter start).2.1))
    exact expected.trans (failed.trans (.same rfl rfl))

private theorem onPacketReceived_told {s t : TransferSession B} {p : Packet}
    (h : onPacketReceived J s p = .ok t) : Told s t := by
  obtain ⟨type, flags, payload⟩ := p
  cases type with
  | HandshakeReq =>
      cases h
      show Told s (onHandshakeReq J s payload)
      unfold onHandshakeReq
      split
      · exact .refl s
      · rename_i req _
        have answered : Told s
            ({ s with remoteDevice := req.deviceName }.sendPacket .HandshakeResp
              (serializeHandshakeResp J ⟨PROTOCOL_VERSION, s.localDeviceName, true, []⟩)) :=
          .same rfl rfl
        exact answered.trans (.setStatus _ .Offering)
  | HandshakeResp =>
      cases h
      show Told s (onHandshakeResp J s payload)
      unfold onHandshakeResp
      split
      · exact .fail s _
      split
      · rename_i resp _ yes
        let heard := { s with remoteDevice := resp.deviceName }
        have named : Told s heard := .same rfl rfl
        have offered : Told (heard.setStatus .Offering)
            ((heard.setStatus .Offering).sendPacket .TransferOffer
              (serializeTransferOffer
                ⟨s.transferId, s.localDeviceName, s.sendManifest.totalFiles,
                  s.sendManifest.totalBytes, s.sendManifest.toProtocolItems⟩)) :=
          .same rfl rfl
        exact (named.trans (.setStatus heard .Offering)).trans
          (offered.trans (.setStatus _ .WaitingApproval))
      · exact .fail s _
  | TransferOffer =>
      cases h
      show Told s (onTransferOffer s payload)
      unfold onTransferOffer
      split
      · exact .refl s
      · rename_i offer _
        let claimed : TransferSession B :=
          { s with
            receivedOffer := some offer
            transferId := offer.transferId
            remoteDevice := offer.senderDevice
            metrics :=
              { s.metrics with totalFiles := offer.totalFiles, totalBytes := offer.totalBytes } }
        have taken : Told s claimed := .same rfl rfl
        exact (taken.trans (.setStatus claimed .WaitingApproval)).trans
          (.emit _ fun text said => said)
  | TransferAccept =>
      rcases onTransferAccept_cases h with ⟨rfl, -⟩ | ⟨accept, -, -, start⟩
      · exact .refl t
      · exact (Told.begin s).trans (.startFile start)
  | TransferReject =>
      cases h
      exact (Told.setStatus s .Cancelled).trans
        (.emit _ fun text said => .inr ⟨rfl, .inl rfl⟩)
  | FileStart =>
      cases h
      exact onFileStart_told s payload
  | FileDataChunk =>
      cases h
      show Told s (onFileDataChunk s payload)
      unfold onFileDataChunk
      split
      · dsimp only
        split
        · exact .same rfl rfl
        · rename_i chunk writer _ _ _
          have written : Told s (s.chunkWritten writer chunk) := .same rfl rfl
          exact (written.trans (.fail _ _)).trans (.same rfl rfl)
      · exact .refl s
  | FileEnd =>
      cases h
      show Told s (onFileEnd s payload)
      unfold onFileEnd
      split
      · exact ⟨[_], rfl, fun text said => said⟩
      · exact .refl s
  | FileAck =>
      rcases onFileAck_cases h with ⟨rfl, -⟩ | ⟨ack, -, ⟨-, rfl⟩ | ⟨-, reader, -, start⟩⟩
      · exact .refl t
      · have told : Told s (s.ackReceived ack) := .emit s fun text said => said
        exact told.trans (.fail _ _)
      · have told : Told s ((s.ackReceived ack).closeReader reader) :=
          ⟨[_], rfl, fun text said => said⟩
        exact told.trans (.startFile start)
  | TransferPause =>
      cases h
      exact .setStatus s .Paused
  | TransferResume =>
      rcases onTransferResume_cases h with ⟨rfl, -⟩ | ⟨msg, -, ⟨-, rfl⟩ | ⟨-, start⟩⟩
      · exact .refl t
      · exact .setStatus s .Transferring
      · exact (Told.setStatus s .Transferring).trans (.startFile start)
  | TransferCancel =>
      cases h
      exact (Told.setStatus s .Cancelled).trans (.same rfl rfl)
  | TransferComplete =>
      cases h
      exact .complete s
  | Invalid | ErrorAlert | unnamed raw =>
      cases h
      exact .refl s

theorem step_told {s t : TransferSession B} {e : Event} (h : Steps J s e t) : Told s t := by
  cases e with
  | packet p => exact onPacketReceived_told h
  | acceptTransfer baseOutputDir policy timestamp =>
      cases h
      unfold acceptTransfer
      dsimp only
      split
      · exact .same rfl rfl
      · have answered : Told s
            ({ s with
                baseOutputDir := baseOutputDir
                duplicatePolicy := policy
                sessionSubfolder := s.chooseSubfolder baseOutputDir timestamp }.sendPacket
              .TransferAccept
              (serializeTransferAccept J ⟨s.transferId, s.localDeviceName, true, 0, 0⟩)) :=
          .same rfl rfl
        exact answered.trans (.begin _)
  | rejectTransfer reason =>
      cases h
      have answered : Told s
          (s.sendPacket .TransferReject (serializeTransferReject J ⟨s.transferId, reason⟩)) :=
        .same rfl rfl
      exact (answered.trans (.setStatus _ .Cancelled)).trans (.same rfl rfl)
  | pause =>
      cases h
      unfold pause
      split
      · have paused := (Told.setStatus s .Paused).trans
          (.emit _ fun text said => said : Told _ ((s.setStatus .Paused).emit
            (.metricsUpdated s.metrics)))
        exact paused.trans (.same rfl rfl)
      · exact .refl s
  | resume =>
      have resumed : Told s (s.resumed J) := (Told.setStatus s .Transferring).trans (.same rfl rfl)
      rcases resume_cases h with ⟨-, rfl⟩ | ⟨-, ⟨-, rfl⟩ | ⟨-, next⟩⟩
      · exact .refl t
      · exact resumed
      · exact resumed.trans (.nextChunk next)
  | cancel =>
      cases h
      have cancelled := (Told.setStatus s .Cancelled).trans
        (.emit _ fun text said => said : Told _ ((s.setStatus .Cancelled).emit
          (.metricsUpdated s.metrics)))
      exact cancelled.trans (.same rfl rfl)
  | startSend manifest localDeviceName chunkSize =>
      cases h
      have entered : Told s
          { s with
            sendManifest := manifest
            localDeviceName := localDeviceName
            chunkSize := if 0 < chunkSize then chunkSize else DEFAULT_CHUNK_SIZE
            currentFileIndex := 0
            metrics := { totalFiles := manifest.totalFiles, totalBytes := manifest.totalBytes } } :=
        .same rfl rfl
      exact entered.trans (.setStatus _ .Connecting)
  | socketConnected =>
      cases h
      split
      · have online : Told s { s with connected := true } := .same rfl rfl
        exact (online.trans (.setStatus _ .Handshaking)).trans (.same rfl rfl)
      · exact .refl s
  | socketDisconnected =>
      cases h
      have offline : Told s s.disconnectFromHost := .same rfl rfl
      unfold onSocketDisconnected
      dsimp only
      split
      · exact offline.trans (.fail _ connectionLost)
      · exact offline
  | socketError errorMsg =>
      cases h
      unfold onSocketError
      split
      · exact .fail s errorMsg
      · exact .refl s
  | bytesWritten pending =>
      have drained : Told s { s with bytesToWrite := pending } := .same rfl rfl
      exact drained.trans (.nextChunk (onBytesTransferred_cases h))
  | drain pending =>
      cases h
      exact .same rfl rfl
  | sendNextChunk =>
      have called : Told s { s with queuedCalls := s.queuedCalls - 1 } := .same rfl rfl
      exact called.trans (.nextChunk (sendNextChunk_cases h))
  | metricsTick =>
      cases h
      unfold calculateMetrics
      split
      · exact .emit s fun text said => said
      · exact .refl s

end TransferSession

/-- Two states of the row of one transfer. -/
def TransferRecord.SameTransfer (before after : TransferRecord) : Prop :=
  { before with
    status := after.status
    transferredBytes := after.transferredBytes
    errorMessage := after.errorMessage } = after

theorem TransferRecord.SameTransfer.trans {a b c : TransferRecord} (first : a.SameTransfer b)
    (second : b.SameTransfer c) : a.SameTransfer c := by
  unfold SameTransfer at first second ⊢
  rw [← second, ← first]

/-- No row is lost, nor what it says of its transfer. -/
def Database.Keeps (d d' : Database) : Prop :=
  ∀ id row, d.transfers.lookup id = some row →
    ∃ row', d'.transfers.lookup id = some row' ∧ row.SameTransfer row'

namespace Database.Keeps

variable {d d' d'' : Database}

theorem refl (d : Database) : d.Keeps d := fun _ row found => ⟨row, found, rfl⟩

theorem trans (first : d.Keeps d') (second : d'.Keeps d'') : d.Keeps d'' := by
  intro id row found
  obtain ⟨row', found', same⟩ := first id row found
  obtain ⟨row'', found'', same'⟩ := second id row' found'
  exact ⟨row'', found'', same.trans same'⟩

theorem started (d : Database) (record : TransferRecord) :
    d.Keeps (d.recordTransferStarted record).2 := by
  intro id row found
  refine ⟨row, ?_, rfl⟩
  rw [Database.lookup_started, if_neg, found]
  rintro ⟨-, absent⟩
  cases found.symm.trans absent

theorem update (d : Database) (transferId : QString) {set : TransferRecord → TransferRecord}
    (same : ∀ row : TransferRecord, row.SameTransfer (set row)) :
    d.Keeps (d.update transferId set) := by
  intro id row found
  rw [Database.lookup_update]
  split
  · exact ⟨set row, by rw [found]; rfl, same row⟩
  · exact ⟨row, found, rfl⟩

theorem progress (d : Database) (transferId : QString) (transferredBytes : UInt64)
    (status : QString) : d.Keeps (d.updateTransferProgress transferId transferredBytes status) :=
  update d transferId fun _ => rfl

theorem completed (d : Database) (transferId status errorMessage : QString) :
    d.Keeps (d.recordTransferCompleted transferId status errorMessage) :=
  update d transferId fun _ => rfl

end Database.Keeps

namespace TransferManager

open TransferSession (Told Offers step_reports step_told)

variable {B : Blake3} {J : QJson}

def Tells (d : Database) (s : TransferSession B) : Prop :=
  ∀ text, d.status? s.transferId = some text → Says s.status text

def Current (m : TransferManager B) : Prop :=
  ∀ s, m.activeSession = some s → s.transferId ≠ [] ∧ Tells m.database s

/-- No identifier is taken for a transfer that already has a row, and none is empty: a null string
is bound as `NULL`, by which no row is found again. -/
def Unclaimed (m : TransferManager B) : Event → Prop
  | .initiateSend _ _ _ transferId => transferId ≠ []
  | .newIncomingConnection _ transferId =>
      transferId ≠ [] ∧ transferId ∉ m.database.transfers
  | .session e _ _ => ∀ s offer, m.activeSession = some s → Offers e offer →
      offer.transferId ≠ [] ∧
        (offer.transferId = s.transferId ∨ offer.transferId ∉ m.database.transfers)
  | _ => True

structure Writes (t : TransferSession B) (m m' : TransferManager B)
    (write : Option QString → Option QString) : Prop where
  activeSession : m'.activeSession = some t
  keeps : m.database.Keeps m'.database
  own : m'.database.status? t.transferId = write (m.database.status? t.transferId)

private theorem hear_writes {t : TransferSession B} {m : TransferManager B}
    (active : m.activeSession = some t) (transferred : UInt64) {signal : Signal}
    (plain : Signal.isOffer signal = false) :
    Writes t m (hear transferred m signal) (Option.map (signal.write ·)) := by
  have nothing : Writes t m m (Option.map id) := ⟨active, .refl _, by rw [Option.map_id, id]⟩
  cases signal with
  | statusChanged status =>
      simp only [hear, onSessionStatusChanged, active]
      refine ⟨rfl, .progress _ _ _ _, ?_⟩
      rw [Database.status?_progress, if_pos rfl]
      rfl
  | transferCompleted =>
      simp only [hear, onSessionCompleted, active]
      refine ⟨rfl, .completed _ _ _ _, ?_⟩
      rw [Database.status?_completed, if_pos rfl]
      rfl
  | transferFailed errorMsg =>
      simp only [hear, onSessionFailed, active]
      refine ⟨rfl, .completed _ _ _ _, ?_⟩
      rw [Database.status?_completed, if_pos rfl]
      rfl
  | incomingOfferReceived => cases plain
  | metricsUpdated metrics => exact nothing
  | fileStarted fileIndex relativePath fileSize => exact nothing
  | fileCompleted fileIndex relativePath verified => exact nothing

private theorem foldl_writes {t : TransferSession B} {m : TransferManager B}
    (active : m.activeSession = some t) (transferred : UInt64) {news : List Signal}
    (plain : ∀ signal ∈ news, Signal.isOffer signal = false) :
    Writes t m (news.foldl (hear transferred) m)
      (Option.map fun text => news.foldl Signal.write text) := by
  induction news generalizing m with
  | nil =>
      refine ⟨active, .refl _, ?_⟩
      rw [List.foldl_nil]
      cases m.database.status? t.transferId with
      | none => rfl
      | some text => rfl
  | cons signal news ih =>
      have first := hear_writes active transferred (plain signal List.mem_cons_self)
      have later := ih first.activeSession fun g mem => plain g (List.mem_cons_of_mem _ mem)
      refine ⟨later.activeSession, first.keeps.trans later.keeps, ?_⟩
      rw [List.foldl_cons, later.own, first.own, Option.map_map]
      rfl

private theorem offer_writes {t : TransferSession B} {m : TransferManager B}
    (active : m.activeSession = some t) (transferred : UInt64) (transferId senderDevice : QString)
    (totalFiles totalBytes : UInt64) :
    Writes t m
      (hear transferred m (.incomingOfferReceived transferId senderDevice totalFiles totalBytes))
      fun text => if t.ownsConnection then text else text.or (some (literal "Active")) := by
  simp only [hear, onIncomingOffer, active]
  split
  · exact ⟨active, .refl _, rfl⟩
  · refine ⟨rfl, .started _ _, ?_⟩
    rw [Database.status?, Database.lookup_started]
    cases found : m.database.transfers.lookup t.transferId with
    | none =>
        rw [if_pos ⟨rfl, rfl⟩, Database.status?, found]
        rfl
    | some row =>
        rw [if_neg (by rintro ⟨-, ⟨⟩⟩), Database.status?, found]
        rfl

theorem step_plain {s t : TransferSession B} {e : TransferSession.Event}
    (h : TransferSession.Steps J s e t) (none : ∀ offer, ¬ Offers e offer) :
    t.transferId = s.transferId ∧ ∀ signal ∈ emitted s t, Signal.isOffer signal = false := by
  have plain : ∀ signal : Signal, signal.isOngoing = true → Signal.isOffer signal = false := by
    intro signal ongoing
    cases signal with
    | incomingOfferReceived => cases ongoing
    | _ => rfl
  rcases step_reports h with ⟨news, reports⟩ | ⟨-, front, signals, ongoing, -, same⟩ |
    ⟨offer, offers, -⟩
  · rw [emitted_eq reports.signals]
    exact ⟨reports.transferId, fun signal mem => plain signal (reports.ongoing signal mem)⟩
  · rw [List.append_assoc] at signals
    rw [emitted_eq signals]
    refine ⟨same, fun signal mem => ?_⟩
    rcases List.mem_append.mp mem with mem | mem
    · exact plain signal (ongoing signal mem)
    · rw [List.mem_singleton.mp mem]
      rfl
  · exact absurd offers (none offer)

theorem notify_told {m : TransferManager B} {s t : TransferSession B} (told : Told s t)
    (same : t.transferId = s.transferId)
    (plain : ∀ signal ∈ emitted s t, Signal.isOffer signal = false) :
    m.database.Keeps (m.notify s t).database ∧ (m.notify s t).activeSession = some t ∧
      (Tells m.database s → Tells (m.notify s t).database t) := by
  obtain ⟨news, signals, told⟩ := told
  have writes := foldl_writes (m := { m with activeSession := some t }) rfl
    s.metrics.totalTransferred plain
  refine ⟨writes.keeps, writes.activeSession, fun tells text found => ?_⟩
  obtain ⟨before, row, rfl⟩ := Option.map_eq_some_iff.mp (writes.own.symm.trans found)
  rw [emitted_eq signals]
  exact told before (tells before (same ▸ row))

theorem notify_plain {m : TransferManager B} {s t : TransferSession B}
    {e : TransferSession.Event} (h : TransferSession.Steps J s e t)
    (none : ∀ offer, ¬ Offers e offer) :
    m.database.Keeps (m.notify s t).database ∧ (m.notify s t).activeSession = some t ∧
      (Tells m.database s → Tells (m.notify s t).database t) := by
  obtain ⟨same, plain⟩ := step_plain h none
  exact notify_told (step_told h) same plain

private theorem offer_emitted {s t : TransferSession B} {e : TransferSession.Event}
    {offer : MsgTransferOffer} (h : TransferSession.Steps J s e t) (offers : Offers e offer) :
    t.status = .WaitingApproval ∧ t.ownsConnection = s.ownsConnection ∧
      t.signals = s.signals ++
        ((if s.status = .WaitingApproval then [] else [.statusChanged .WaitingApproval]) ++
          [.incomingOfferReceived offer.transferId offer.senderDevice offer.totalFiles
            offer.totalBytes]) := by
  obtain ⟨flags, payload, rfl, parsed⟩ := offers
  have taken : t = TransferSession.onTransferOffer s payload := (Except.ok.inj h).symm
  rw [taken, TransferSession.onTransferOffer, parsed]
  refine ⟨rfl, rfl, ?_⟩
  by_cases already : s.status = .WaitingApproval
  · simp [TransferSession.emit, TransferSession.setStatus, already]
  · simp [TransferSession.emit, TransferSession.setStatus, already]

/-- What is heard of an offer that is taken. The row of a session that was not waiting before is
written twice. -/
theorem notify_offer {m : TransferManager B} {s t : TransferSession B}
    {e : TransferSession.Event} {offer : MsgTransferOffer} (h : TransferSession.Steps J s e t)
    (offers : Offers e offer) :
    m.database.Keeps (m.notify s t).database ∧ (m.notify s t).activeSession = some t ∧
      (Tells m.database s → offer.transferId = s.transferId ∨
        offer.transferId ∉ m.database.transfers → Tells (m.notify s t).database t) ∧
      (s.status ≠ .WaitingApproval → s.ownsConnection = false →
        (m.notify s t).database.status? t.transferId = some (literal "Active")) := by
  obtain ⟨status, owns, signals⟩ := offer_emitted h offers
  obtain ⟨news, signals', told⟩ := step_told h
  have same := List.append_cancel_left (signals'.symm.trans signals)
  have claimed : t.transferId = offer.transferId := offers.transferId h
  generalize front : (if s.status = .WaitingApproval then [] else
    [Signal.statusChanged .WaitingApproval]) = before at signals same
  have plain : ∀ signal ∈ before, Signal.isOffer signal = false := by
    intro signal mem
    rw [← front] at mem
    split at mem
    · cases mem
    · rw [List.mem_singleton.mp mem]
      rfl
  have first := foldl_writes (m := { m with activeSession := some t }) rfl
    s.metrics.totalTransferred plain
  have last := offer_writes first.activeSession s.metrics.totalTransferred offer.transferId
    offer.senderDevice offer.totalFiles offer.totalBytes
  have heard : m.notify s t = hear s.metrics.totalTransferred
      (before.foldl (hear s.metrics.totalTransferred) { m with activeSession := some t })
      (.incomingOfferReceived offer.transferId offer.senderDevice offer.totalFiles
        offer.totalBytes) := by
    rw [notify, emitted_eq signals, List.foldl_append]
    rfl
  rw [heard]
  have row : (if t.ownsConnection = true then
      (m.database.status? t.transferId).map fun text => before.foldl Signal.write text
    else ((m.database.status? t.transferId).map fun text => before.foldl Signal.write text).or
      (some (literal "Active"))) = Database.status? _ t.transferId :=
    (last.own.trans (by rw [first.own])).symm
  refine ⟨first.keeps.trans last.keeps, last.activeSession, fun tells fresh text found => ?_,
    fun unshown incoming => ?_⟩
  · rw [← row] at found
    cases there : m.database.status? t.transferId with
    | some earlier =>
        have own : offer.transferId = s.transferId := by
          refine fresh.resolve_right fun absent => ?_
          rw [Database.status?, claimed, AList.lookup_eq_none.mpr absent] at there
          cases there
        have said := told earlier (tells earlier (own ▸ claimed ▸ there))
        rw [same, List.foldl_append] at said
        rw [there, Option.map_some, Option.some_or, ite_self] at found
        cases found
        exact said
    | none =>
        rw [there, Option.map_none, Option.none_or] at found
        split at found
        · cases found
        · cases found
          rw [status]
          exact .inl rfl
  · rw [← row, owns, incoming, ← front, if_neg unshown]
    cases m.database.status? t.transferId with
    | none => rfl
    | some earlier => rfl

private theorem call_plain {e : TransferSession.Event} (call : ∀ p, e ≠ .packet p) :
    ∀ offer, ¬ Offers e offer := by
  rintro offer ⟨flags, payload, eq, -⟩
  exact call _ eq

structure Books (m m' : TransferManager B) : Prop where
  keeps : m.database.Keeps m'.database
  current : Current m → Current m'

theorem Books.trans {m m' m'' : TransferManager B} (first : Books m m') (second : Books m' m'') :
    Books m m'' :=
  ⟨first.keeps.trans second.keeps, fun current => second.current (first.current current)⟩

theorem Books.same {m m' : TransferManager B} (activeSession : m'.activeSession = m.activeSession)
    (database : m'.database = m.database) : Books m m' := by
  refine ⟨database ▸ .refl _, fun current s active => ?_⟩
  rw [activeSession] at active
  rw [database]
  exact current s active

private theorem books_call {m : TransferManager B} {s t : TransferSession B}
    {e : TransferSession.Event} (active : m.activeSession = some s)
    (h : TransferSession.Steps J s e t) (none : ∀ offer, ¬ Offers e offer) :
    Books m (m.notify s t) := by
  obtain ⟨keeps, active', kept⟩ := notify_plain (m := m) h none
  refine ⟨keeps, fun current s' found => ?_⟩
  cases active'.symm.trans found
  obtain ⟨named, tells⟩ := current s active
  exact ⟨(step_plain h none).1 ▸ named, kept tells⟩

private theorem dropSession_keeps (J : QJson) (m : TransferManager B) :
    m.database.Keeps (m.dropSession J).database := by
  cases active : m.activeSession with
  | none =>
      simp only [dropSession, active]
      exact .refl _
  | some s =>
      simp only [dropSession, active]
      have taken : TransferSession.Steps J s .cancel (s.cancel J) := rfl
      exact (books_call active taken
        (call_plain fun _ => TransferSession.Event.noConfusion)).keeps

theorem initiateSend_active (J : QJson) (m : TransferManager B) {fs : FileSystem}
    {paths : List QString} (files : (FileEnumerator.enumeratePaths fs paths).items ≠ [])
    (targetIp transferId : QString) :
    let m' := m.dropSession J
    let next := m.initiateSend J fs paths targetIp transferId
    next.activeSession = some ((TransferSession.new B .Send transferId m'.host).startSend
      (FileEnumerator.enumeratePaths fs paths) m'.deviceName m'.chunkSize) ∧
      m.database.Keeps next.database ∧
        next.database.status? transferId = some (literal "Active") := by
  intro m' next
  have dropped : m.database.Keeps m'.database := dropSession_keeps J m
  let manifest := FileEnumerator.enumeratePaths fs paths
  let s := TransferSession.new B .Send transferId m'.host
  let record : TransferRecord :=
    { id := transferId, direction := literal "SEND", remoteDevice := targetIp
      remoteIp := targetIp, status := literal "Active"
      totalFiles := manifest.totalFiles.toInt64, totalBytes := manifest.totalBytes.toInt64
      transferredBytes := 0, errorMessage := [] }
  let begun : TransferManager B :=
    { m' with
      activeSession := some s, created := m'.created + 1, remoteIp := targetIp
      database := (m'.database.recordTransferStarted record).2 }
  have same : next = begun.notify s (s.startSend manifest m'.deviceName m'.chunkSize) := by
    show m.initiateSend J fs paths targetIp transferId = _
    unfold initiateSend
    exact if_neg files
  have taken : TransferSession.Steps J s (.startSend manifest m'.deviceName m'.chunkSize)
      (s.startSend manifest m'.deviceName m'.chunkSize) := rfl
  have none := call_plain (e := .startSend manifest m'.deviceName m'.chunkSize)
    fun _ => TransferSession.Event.noConfusion
  have writes := foldl_writes (t := s.startSend manifest m'.deviceName m'.chunkSize)
    (m := { begun with
      activeSession := some (s.startSend manifest m'.deviceName m'.chunkSize) })
    rfl s.metrics.totalTransferred (step_plain taken none).2
  rw [same]
  refine ⟨writes.activeSession, dropped.trans ((Database.Keeps.started _ record).trans
    writes.keeps), ?_⟩
  obtain ⟨text, row⟩ :=
    Option.isSome_iff_exists.mp (m'.database.status?_started_self record)
  refine writes.own.trans ?_
  show Option.map _ ((m'.database.recordTransferStarted record).2.status? record.id) = _
  rw [row]
  rfl

private theorem initiateSend_books (m : TransferManager B) (fs : FileSystem)
    (paths : List QString) (targetIp : QString) {transferId : QString} (named : transferId ≠ []) :
    Books m (m.initiateSend J fs paths targetIp transferId) := by
  by_cases files : (FileEnumerator.enumeratePaths fs paths).items = []
  · have same : m.initiateSend J fs paths targetIp transferId = m := by
      unfold initiateSend
      exact if_pos files
    rw [same]
    exact .same rfl rfl
  · obtain ⟨active, keeps, row⟩ := initiateSend_active J m files targetIp transferId
    refine ⟨keeps, fun _ s found => ?_⟩
    cases active.symm.trans found
    refine ⟨named, fun text told => ?_⟩
    cases row.symm.trans told
    exact .inl rfl

private theorem acceptIncomingTransfer_books (m : TransferManager B) (session : Nat)
    (timestamp : QString) : Books m (m.acceptIncomingTransfer J session timestamp) := by
  unfold acceptIncomingTransfer
  split
  · exact .same rfl rfl
  rename_i s active
  split
  · have taken : TransferSession.Steps J s
        (.acceptTransfer m.downloadDir m.duplicatePolicy timestamp)
        (s.acceptTransfer J m.downloadDir m.duplicatePolicy timestamp) := rfl
    exact books_call active taken (call_plain fun _ => TransferSession.Event.noConfusion)
  · exact .same rfl rfl

private theorem rejectIncomingTransfer_books (m : TransferManager B) (session : Nat)
    (reason : QString) : Books m (m.rejectIncomingTransfer J session reason) := by
  unfold rejectIncomingTransfer
  split
  · exact .same rfl rfl
  rename_i s active
  split
  · have taken : TransferSession.Steps J s (.rejectTransfer reason)
        (s.rejectTransfer J reason) := rfl
    have none := call_plain (e := .rejectTransfer reason)
      fun _ => TransferSession.Event.noConfusion
    obtain ⟨keeps, active', -⟩ := notify_plain (m := m) taken none
    refine ⟨keeps.trans (.completed _ _ _ _), fun current s' found => ?_⟩
    cases active'.symm.trans found
    refine ⟨(step_plain taken none).1 ▸ (current s active).1, fun text row => ?_⟩
    replace row : Database.status? (Database.recordTransferCompleted _ s.transferId
      (literal "Rejected") reason) s.transferId = some text := row
    rw [Database.status?_completed, if_pos rfl] at row
    obtain ⟨before, -, rfl⟩ := Option.map_eq_some_iff.mp row
    exact .inr ⟨rfl, .inr rfl⟩
  · exact .same rfl rfl

private theorem moved_books {m : TransferManager B} {s t : TransferSession B}
    {e : TransferSession.Event} (active : m.activeSession = some s)
    (unclaimed : ∀ offer, Offers e offer → offer.transferId ≠ [] ∧
      (offer.transferId = s.transferId ∨ offer.transferId ∉ m.database.transfers))
    (h : TransferSession.Steps J s e t) (timestamp : QString) :
    Books m (m.moved J s t timestamp) := by
  have notified : Books m (m.notify s t) := by
    by_cases offers : ∃ offer, Offers e offer
    · obtain ⟨offer, offers⟩ := offers
      obtain ⟨keeps, active', kept, -⟩ := notify_offer (m := m) h offers
      refine ⟨keeps, fun current s' found => ?_⟩
      cases active'.symm.trans found
      obtain ⟨named, fresh⟩ := unclaimed offer offers
      exact ⟨offers.transferId h ▸ named, kept (current s active).2 fresh⟩
    · exact books_call active h fun offer takes => offers ⟨offer, takes⟩
  unfold moved
  dsimp only
  split
  · exact notified.trans (acceptIncomingTransfer_books _ _ _)
  · exact notified

/-- What one step of the manager does to the history. -/
theorem step_books {m m' : TransferManager B} {e : Event} (unclaimed : Unclaimed m e)
    (h : Steps J m e m') :
    (Current m → Current m') ∧ (e ≠ .clearHistory → m.database.Keeps m'.database) := by
  suffices books : e ≠ .clearHistory → Books m m' by
    refine ⟨fun current => ?_, fun other => (books other).keeps⟩
    by_cases clears : e = .clearHistory
    · subst clears
      cases h
      intro s active
      refine ⟨(current s active).1, fun text row => ?_⟩
      cases row
    · exact (books clears).current current
  intro other
  cases e with
  | initiateSend fs paths targetIp transferId =>
      cases h
      exact initiateSend_books m fs paths targetIp unclaimed
  | newIncomingConnection remoteIp transferId =>
      cases h
      unfold onNewIncomingConnection
      dsimp only
      split
      · exact .same rfl rfl
      · obtain ⟨named, fresh⟩ := unclaimed
        refine ⟨.refl _, fun _ s found => ?_⟩
        cases found
        refine ⟨named, fun text row => ?_⟩
        have absent : m.database.status? transferId = none := by
          rw [Database.status?, AList.lookup_eq_none.mpr fresh]
          rfl
        cases absent.symm.trans row
  | acceptIncomingTransfer session timestamp =>
      cases h
      exact acceptIncomingTransfer_books m session timestamp
  | rejectIncomingTransfer session reason =>
      cases h
      exact rejectIncomingTransfer_books m session reason
  | session e spontaneous timestamp =>
      cases active : m.activeSession with
      | none =>
          simp only [Steps, step, active] at h
          cases h
          exact .same rfl rfl
      | some s =>
          simp only [Steps, step, active] at h
          obtain ⟨t, taken, rfl⟩ := Except.ok_of_map h
          exact moved_books active (unclaimed s · active) taken timestamp
  | setDeviceName name =>
      cases h
      split <;> exact .same rfl rfl
  | setDefaultDownloadDir dir =>
      cases h
      split <;> exact .same rfl rfl
  | setDuplicatePolicy policy =>
      cases h
      exact .same rfl rfl
  | setChunkSize bytes =>
      cases h
      split <;> exact .same rfl rfl
  | setAutoAccept enabled =>
      cases h
      exact .same rfl rfl
  | clearHistory => exact absurd rfl other
  | shutdown =>
      cases h
      refine ⟨dropSession_keeps J { m with listening := false }, fun _ s found => ?_⟩
      unfold shutdown dropSession at found
      split at found
      · rename_i none
        cases none.symm.trans found
      · cases found

/-- In every run of the manager in which no identifier is taken twice, the history tells the
present status of the active session; and no transfer is forgotten unless the history is cleared. -/
theorem history_current (J : QJson) {start m : TransferManager B} {events : List Event}
    (current : Current start) (run : Run (Guarded (Steps J) Unclaimed) start events m) :
    Current m ∧ ((∀ e ∈ events, e ≠ .clearHistory) → start.database.Keeps m.database) := by
  induction run with
  | nil => exact ⟨current, fun _ => .refl _⟩
  | snoc _ next ih =>
      obtain ⟨before, kept⟩ := ih
      obtain ⟨after, keeps⟩ := step_books next.1 next.2
      refine ⟨after before, fun none => ?_⟩
      exact (kept fun e mem => none e (List.mem_append_left _ mem)).trans
        (keeps (none _ (List.mem_append_right _ List.mem_cons_self)))

/-- A connection takes the place of a sending session, and its offer is rejected. -/
theorem history_current_rejected :
    ∃ m : TransferManager Blake3.vendored,
      m.database.status? (literal "u") = some (literal "Active") ∧
        m.database.status? (literal "t") = some (literal "Rejected") ∧ Current m ∧
          started.database.Keeps m.database := by
  let sends : Event :=
    .initiateSend FileEnumerator.emptyFiles [literal "/home/a.txt"] [] (literal "u")
  let connects : Event := .newIncomingConnection [] (literal "s")
  let rejects : Event := .rejectIncomingTransfer 2 []
  let first := (started.initiateSend CompactJson.codec FileEnumerator.emptyFiles
    [literal "/home/a.txt"] [] (literal "u")).onNewIncomingConnection [] (literal "s")
  have computed : (step CompactJson.codec first (.session offering trivial [])).toOption.map
      (fun m =>
        let last := m.rejectIncomingTransfer CompactJson.codec 2 []
        (last.database.status? (literal "u"), last.database.status? (literal "t"))) =
      some (some (literal "Active"), some (literal "Rejected")) := by
    decide +kernel
  obtain ⟨m, offered, rows⟩ := Option.map_eq_some_iff.mp computed
  obtain ⟨sent, received⟩ := Prod.mk.inj rows
  have named : literal "u" ≠ [] := by decide
  have free : literal "s" ∉ (started.initiateSend CompactJson.codec FileEnumerator.emptyFiles
      [literal "/home/a.txt"] [] (literal "u")).database.transfers := by
    decide +kernel
  have fresh : literal "t" ∉ first.database.transfers := by decide +kernel
  have run : Run (Guarded (Steps CompactJson.codec) Unclaimed) started
      ([] ++ [sends] ++ [connects] ++ [.session offering trivial []] ++ [rejects])
      (m.rejectIncomingTransfer CompactJson.codec 2 []) := by
    refine .snoc (.snoc (.snoc (.snoc .nil ⟨named, rfl⟩) ⟨⟨by decide, free⟩, rfl⟩)
      ⟨?_, Except.ok_of_toOption offered⟩) ⟨trivial, rfl⟩
    rintro s offer - ⟨flags, payload, eq, parsed⟩
    cases eq
    have admissible : ({ transferId := literal "t" } : MsgTransferOffer).Admissible :=
      ⟨by decide, by decide, List.forall_mem_nil _⟩
    cases (parseTransferOffer_serialize admissible).symm.trans parsed
    exact ⟨by decide, .inr fresh⟩
  have none : ∀ e ∈ [] ++ [sends] ++ [connects] ++ [.session offering trivial []] ++ [rejects],
      e ≠ .clearHistory := by
    simp [sends, connects, rejects]
  obtain ⟨current, keeps⟩ := history_current CompactJson.codec (by rintro s ⟨⟩) run
  exact ⟨_, sent, received, current, keeps none⟩

end TransferManager

end FastTransfer
