/- FastTransfer/Core/Terminal
   source: src/core/TransferSession.cpp
   digest: Which events leave a finished session alone, and which move it again. -/

import FastTransfer.Core.SenderSteps
import FastTransfer.Qt.CompactJson

set_option autoImplicit false
set_option relaxedAutoImplicit false

namespace FastTransfer

def TransferStatus.Terminal (status : TransferStatus) : Prop :=
  status = .Completed ∨ status = .Failed ∨ status = .Cancelled

/-- The signals that report the end of a transfer. -/
def Signal.isFinal : Signal → Bool
  | transferCompleted | transferFailed _ => true
  | _ => false

namespace TransferSession

open Protocol QString

variable {B : Blake3} {J : QJson}

def finals (self : TransferSession B) : List Signal := self.signals.filter Signal.isFinal

/-- The status is unchanged and no end is reported again. -/
def Absorbed (s t : TransferSession B) : Prop := t.status = s.status ∧ finals t = finals s

def canPrepare (self : TransferSession B) (start : MsgFileStart) : Bool :=
  (self.openWriter start).1

def canContinue (self : TransferSession B) : Prop :=
  ∃ item, self.sendManifest.items[(self.currentFileIndex + 1).toNat]? = some item ∧
    ((FileReader.new B self.chunkSize).open self.disk item.sourceAbsolutePath 0).1 = true

def QuietPacket (J : QJson) (self : TransferSession B) (p : Packet) : Prop :=
  match p.type with
  | .HandshakeReq => parseHandshakeReq J p.payload = none
  | .TransferOffer => parseTransferOffer p.payload = none
  | .TransferAccept =>
      ∀ accept, parseTransferAccept J p.payload = some accept → accept.accepted = false
  | .FileStart => ∀ start, parseFileStart p.payload = some start → self.canPrepare start = true
  | .FileDataChunk =>
      ∀ chunk writer, parseFileDataChunk p.payload = some chunk →
        self.fileWriter = some writer →
        (writer.writeChunk self.disk chunk.offset chunk.chunkData).1 = true
  | .FileAck =>
      ∀ ack, parseFileAck p.payload = some ack → ack.statusCode = 0 ∧ self.canContinue
  | .TransferResume => parseTransferResume J p.payload = none
  | .TransferCancel => self.status = .Cancelled
  | .HandshakeResp | .TransferReject | .TransferPause | .TransferComplete => False
  | .FileEnd | .Invalid | .ErrorAlert | .unnamed _ => True

/-- The events that a finished session absorbs. -/
def Quiet (J : QJson) (self : TransferSession B) : Event → Prop
  | .packet p => QuietPacket J self p
  | .acceptTransfer _ _ _ => self.receivedOffer = none
  | .rejectTransfer _ | .cancel => self.status = .Cancelled
  | .socketConnected => self.ownsConnection = false
  | .startSend _ _ _ => False
  | _ => True

@[simp] private theorem finals_setStatus (s : TransferSession B) (status : TransferStatus) :
    finals (s.setStatus status) = finals s := by
  simp only [finals, setStatus]
  split
  · rw [List.filter_append]
    exact List.append_nil _
  · rfl

@[simp] private theorem finals_fail (s : TransferSession B) (message : QString) :
    finals (s.fail message) = finals s ++ [.transferFailed message] := by
  rw [← finals_setStatus s .Failed]
  exact List.filter_append ..

@[simp] private theorem finals_complete (s : TransferSession B) :
    finals s.complete = finals s ++ [.transferCompleted] := by
  rw [← finals_setStatus s .Completed]
  exact List.filter_append ..

private theorem finals_emit {signal : Signal} (h : signal.isFinal = false)
    (s : TransferSession B) : finals (s.emit signal) = finals s := by
  simp only [finals, emit, List.filter_append, List.filter_singleton, h]
  exact List.append_nil _

private theorem reported {s t : TransferSession B} {signal : Signal}
    (h : finals t = finals s ++ [signal]) : ¬ Absorbed s t := by
  rintro ⟨-, same⟩
  rw [h] at same
  simp at same

private theorem revived {s t : TransferSession B} (terminal : s.status.Terminal)
    (h : ¬ t.status.Terminal) : ¬ Absorbed s t := by
  rintro ⟨same, -⟩
  exact h (same ▸ terminal)

private theorem Absorbed.refl (s : TransferSession B) : Absorbed s s := ⟨rfl, rfl⟩

private theorem not_active {s : TransferSession B} (terminal : s.status.Terminal)
    {reader : FileReader B} : ¬ Active s reader := by
  intro active
  rcases terminal with h | h | h <;> rw [active.transferring] at h <;> cases h

private theorem nextChunk_idle {s t : TransferSession B} (terminal : s.status.Terminal)
    (h : NextChunk s t) : t = s := by
  cases h with
  | idle => rfl
  | fileEnd reader active => exact absurd active (not_active terminal)
  | readFailed reader active => exact absurd active (not_active terminal)
  | sendFailed reader active => exact absurd active (not_active terminal)
  | chunk reader active => exact absurd active (not_active terminal)

private theorem transferring_not_terminal : ¬ TransferStatus.Transferring.Terminal := by
  rintro (h | h | h) <;> cases h

private theorem nextChunk_transferring {s t : TransferSession B}
    (transferring : s.status = .Transferring) (h : NextChunk s t) :
    t.status = .Transferring ∨ ∃ message, finals t = finals s ++ [.transferFailed message] := by
  cases h with
  | idle => exact .inl transferring
  | fileEnd reader active => exact .inl transferring
  | readFailed reader active => exact .inr ⟨_, finals_fail _ _⟩
  | sendFailed reader active => exact .inr ⟨_, finals_fail _ _⟩
  | chunk reader active => exact .inl transferring

private theorem finals_started (s : TransferSession B) (fileIndex startOffset : UInt64)
    (item : LocalFileItem) : finals (s.started fileIndex startOffset item) = finals s :=
  (List.filter_append ..).trans (List.append_nil _)

private theorem finals_unopened (s : TransferSession B) (fileIndex startOffset : UInt64)
    (item : LocalFileItem) :
    ∃ message, finals (s.unopened fileIndex startOffset item) =
      finals s ++ [.transferFailed message] := by
  have neutral : finals (s.enterFile fileIndex item startOffset) = finals s :=
    (List.filter_append ..).trans (List.append_nil _)
  exact ⟨_, (finals_fail _ _).trans (congrArg (· ++ [Signal.transferFailed _]) neutral)⟩

/-- A session put back to transferring never ends up absorbed. -/
private theorem restarted {s u t : TransferSession B} {fileIndex startOffset : UInt64}
    (terminal : s.status.Terminal) (transferring : u.status = .Transferring)
    (same : finals u = finals s) (h : StartFile J u fileIndex startOffset t) :
    ¬ Absorbed s t := by
  cases h with
  | finished done =>
      have report : finals (finishSending J u) = finals u ++ [.transferCompleted] :=
        finals_complete _
      rw [same] at report
      exact reported report
  | unopened item found closed =>
      obtain ⟨message, report⟩ := finals_unopened u fileIndex startOffset item
      rw [same] at report
      exact reported report
  | started item found opened next sent =>
      have running : (u.started fileIndex startOffset item).status = .Transferring := transferring
      rcases nextChunk_transferring running sent with still | ⟨message, report⟩
      · exact revived terminal (still ▸ transferring_not_terminal)
      · rw [finals_started, same] at report
        exact reported report

private theorem continued_iff {s t : TransferSession B} {fileIndex : UInt64}
    (terminal : s.status.Terminal) (h : StartFile J s fileIndex 0 t) :
    Absorbed s t ↔ ∃ item, s.sendManifest.items[fileIndex.toNat]? = some item ∧
      ((FileReader.new B s.chunkSize).open s.disk item.sourceAbsolutePath 0).1 = true := by
  cases h with
  | finished done =>
      refine iff_of_false (reported (finals_complete _)) ?_
      rintro ⟨item, inside, -⟩
      exact absurd (List.getElem?_eq_some_iff.mp inside).1 (Nat.not_lt.mpr done)
  | unopened item inside closed =>
      obtain ⟨message, report⟩ := finals_unopened s fileIndex 0 item
      refine iff_of_false (reported report) ?_
      rintro ⟨item', inside', opened⟩
      have same : item' = item := Option.some.inj (inside'.symm.trans inside)
      rw [same, closed] at opened
      cases opened
  | started item inside opened next sent =>
      have still : (s.started fileIndex 0 item).status.Terminal := terminal
      rw [nextChunk_idle still sent]
      exact iff_of_true ⟨rfl, finals_started s fileIndex 0 item⟩ ⟨item, inside, opened⟩

private theorem absorbed_congr (s u t : TransferSession B)
    (status : u.status = s.status) (same : finals u = finals s) :
    Absorbed s t ↔ Absorbed u t := by
  simp only [Absorbed, status, same]

private theorem onFileAck_absorbed_iff {s t : TransferSession B} {payload : QByteArray}
    (terminal : s.status.Terminal) (h : onFileAck J s payload = .ok t) :
    Absorbed s t ↔
      ∀ ack, parseFileAck payload = some ack → ack.statusCode = 0 ∧ s.canContinue := by
  rcases onFileAck_cases h with ⟨rfl, unread⟩ | ⟨ack, parsed, ⟨bad, rfl⟩ | ⟨ok, reader, -, start⟩⟩
  · refine iff_of_true (.refl t) fun ack eq => ?_
    rw [unread] at eq
    cases eq
  · have report := finals_fail (s.ackReceived ack) (verificationError ack.fileIndex)
    rw [show finals (s.ackReceived ack) = finals s from finals_emit rfl s] at report
    exact iff_of_false (reported report) fun all => bad (all ack parsed).1
  · have neutral : finals ((s.ackReceived ack).closeReader reader) = finals s := finals_emit rfl s
    have still : ((s.ackReceived ack).closeReader reader).status.Terminal := terminal
    have same := absorbed_congr s ((s.ackReceived ack).closeReader reader) t rfl neutral
    refine same.trans ((continued_iff still start).trans ?_)
    constructor
    · intro possible ack' eq
      rw [parsed] at eq
      cases eq
      exact ⟨ok, possible⟩
    · intro all
      exact (all ack parsed).2

private theorem onFileStart_absorbed_iff (s : TransferSession B) (payload : QByteArray) :
    Absorbed s (onFileStart s payload) ↔
      ∀ start, parseFileStart payload = some start → s.canPrepare start = true := by
  unfold onFileStart
  cases parsed : parseFileStart payload with
  | none => exact iff_of_true (.refl s) fun start eq => nomatch eq
  | some start =>
      have neutral : finals (s.fileOpened start) = finals s := finals_emit rfl s
      by_cases opened : (s.openWriter start).1 = true
      · simp only [if_pos opened]
        refine iff_of_true ⟨rfl, neutral⟩ ?_
        rintro start' ⟨⟩
        exact opened
      · simp only [if_neg opened]
        have report : finals (s.fileRefused start) =
            finals (s.fileOpened start) ++ [.transferFailed (prepareError (s.openWriter start).2.1)] :=
          finals_fail ((s.fileOpened start).sendPacket .FileAck _) _
        rw [neutral] at report
        exact iff_of_false (reported report) fun all => opened (all start rfl)

private theorem onFileDataChunk_absorbed_iff (s : TransferSession B) (payload : QByteArray) :
    Absorbed s (onFileDataChunk s payload) ↔
      ∀ chunk writer, parseFileDataChunk payload = some chunk → s.fileWriter = some writer →
        (writer.writeChunk s.disk chunk.offset chunk.chunkData).1 = true := by
  unfold onFileDataChunk
  cases parsed : parseFileDataChunk payload with
  | none => exact iff_of_true (.refl s) fun chunk writer eq => nomatch eq
  | some chunk =>
      cases found : s.fileWriter with
      | none => exact iff_of_true (.refl s) fun chunk writer _ eq => nomatch eq
      | some writer =>
          by_cases written : (writer.writeChunk s.disk chunk.offset chunk.chunkData).1 = true
          · simp only [if_pos written]
            refine iff_of_true ⟨rfl, rfl⟩ ?_
            rintro chunk' writer' ⟨⟩ ⟨⟩
            exact written
          · simp only [if_neg written]
            refine iff_of_false ?_ fun all => written (all chunk writer rfl rfl)
            exact reported (finals_fail (s.chunkWritten writer chunk) _)

private theorem onFileEnd_absorbed (s : TransferSession B) (payload : QByteArray) :
    Absorbed s (onFileEnd s payload) := by
  unfold onFileEnd
  split
  · rename_i «end» writer _ _
    have neutral : finals (s.fileEnded writer «end») = finals s := finals_emit rfl s
    exact ⟨rfl, neutral⟩
  · exact .refl s

private theorem status_set_iff {s t : TransferSession B} {status : TransferStatus}
    (set : t.status = status) (same : finals t = finals s) :
    Absorbed s t ↔ s.status = status := by
  rw [Absorbed, set, same]
  exact ⟨fun h => h.1.symm, fun h => ⟨h.symm, rfl⟩⟩

private theorem onHandshakeReq_absorbed_iff {s : TransferSession B}
    (terminal : s.status.Terminal) (payload : QByteArray) :
    Absorbed s (onHandshakeReq J s payload) ↔ parseHandshakeReq J payload = none := by
  unfold onHandshakeReq
  cases parseHandshakeReq J payload with
  | none => exact iff_of_true (.refl s) rfl
  | some req =>
      refine iff_of_false (revived terminal ?_) fun eq => nomatch eq
      rintro (h | h | h) <;> cases h

private theorem onHandshakeResp_not_absorbed {s : TransferSession B}
    (terminal : s.status.Terminal) (payload : QByteArray) :
    ¬ Absorbed s (onHandshakeResp J s payload) := by
  unfold onHandshakeResp
  cases parseHandshakeResp J payload with
  | none => exact reported (finals_fail s _)
  | some resp =>
      by_cases accepted : resp.accepted = true
      · simp only [if_pos accepted]
        apply revived terminal
        rintro (h | h | h) <;> cases h
      · simp only [if_neg accepted]
        exact reported (finals_fail s _)

private theorem onTransferOffer_absorbed_iff {s : TransferSession B}
    (terminal : s.status.Terminal) (payload : QByteArray) :
    Absorbed s (onTransferOffer s payload) ↔ parseTransferOffer payload = none := by
  unfold onTransferOffer
  cases parseTransferOffer payload with
  | none => exact iff_of_true (.refl s) rfl
  | some offer =>
      refine iff_of_false (revived terminal ?_) fun eq => nomatch eq
      rintro (h | h | h) <;> cases h

private theorem onTransferAccept_absorbed_iff {s t : TransferSession B} {payload : QByteArray}
    (terminal : s.status.Terminal) (h : onTransferAccept J s payload = .ok t) :
    Absorbed s t ↔
      ∀ accept, parseTransferAccept J payload = some accept → accept.accepted = false := by
  rcases onTransferAccept_cases h with ⟨rfl, rejected⟩ | ⟨accept, parsed, yes, start⟩
  · exact iff_of_true (.refl t) rejected
  · have neutral : finals s.begin = finals s := finals_setStatus s .Transferring
    refine iff_of_false (restarted terminal rfl neutral start) fun all => ?_
    rw [all accept parsed] at yes
    cases yes

private theorem onTransferReject_not_absorbed (s : TransferSession B) (payload : QByteArray) :
    ¬ Absorbed s (onTransferReject J s payload) := by
  have report : ∀ message, finals ((s.setStatus .Cancelled).emit (.transferFailed message)) =
      finals s ++ [.transferFailed message] := by
    intro message
    rw [← finals_setStatus s .Cancelled]
    exact List.filter_append ..
  exact reported (report _)

private theorem onTransferResume_absorbed_iff {s t : TransferSession B} {payload : QByteArray}
    (terminal : s.status.Terminal) (h : onTransferResume J s payload = .ok t) :
    Absorbed s t ↔ parseTransferResume J payload = none := by
  rcases onTransferResume_cases h with ⟨rfl, unread⟩ | ⟨msg, parsed, ⟨-, rfl⟩ | ⟨-, start⟩⟩
  · exact iff_of_true (.refl t) unread
  · refine iff_of_false (revived terminal transferring_not_terminal) fun unread => ?_
    rw [parsed] at unread
    cases unread
  · refine iff_of_false (restarted terminal rfl (finals_setStatus s _) start) fun unread => ?_
    rw [parsed] at unread
    cases unread

private theorem onPacketReceived_absorbed_iff {s t : TransferSession B} {p : Packet}
    (terminal : s.status.Terminal) (h : onPacketReceived J s p = .ok t) :
    Absorbed s t ↔ QuietPacket J s p := by
  obtain ⟨type, flags, payload⟩ := p
  cases type with
  | HandshakeReq =>
      cases h
      exact onHandshakeReq_absorbed_iff terminal payload
  | HandshakeResp =>
      cases h
      exact iff_of_false (onHandshakeResp_not_absorbed terminal payload) id
  | TransferOffer =>
      cases h
      exact onTransferOffer_absorbed_iff terminal payload
  | TransferAccept => exact onTransferAccept_absorbed_iff terminal h
  | TransferReject =>
      cases h
      exact iff_of_false (onTransferReject_not_absorbed s payload) id
  | FileStart =>
      cases h
      exact onFileStart_absorbed_iff s payload
  | FileDataChunk =>
      cases h
      exact onFileDataChunk_absorbed_iff s payload
  | FileEnd =>
      cases h
      exact iff_of_true (onFileEnd_absorbed s payload) trivial
  | FileAck => exact onFileAck_absorbed_iff terminal h
  | TransferPause =>
      cases h
      refine iff_of_false (revived terminal ?_) id
      rintro (h | h | h) <;> cases h
  | TransferResume => exact onTransferResume_absorbed_iff terminal h
  | TransferCancel =>
      cases h
      exact status_set_iff rfl (finals_setStatus s .Cancelled)
  | TransferComplete =>
      cases h
      exact iff_of_false (reported (finals_complete s)) id
  | Invalid =>
      cases h
      exact iff_of_true (.refl s) trivial
  | ErrorAlert =>
      cases h
      exact iff_of_true (.refl s) trivial
  | unnamed raw =>
      cases h
      exact iff_of_true (.refl s) trivial

theorem step_absorbed_iff {s t : TransferSession B} {e : Event}
    (terminal : s.status.Terminal) (h : Steps J s e t) : Absorbed s t ↔ Quiet J s e := by
  have notTransferring : s.status ≠ .Transferring := by
    intro eq
    exact transferring_not_terminal (eq ▸ terminal)
  cases e with
  | packet p => exact onPacketReceived_absorbed_iff terminal h
  | acceptTransfer baseOutputDir policy timestamp =>
      cases h
      unfold acceptTransfer Quiet
      cases offer : s.receivedOffer with
      | none => exact iff_of_true (.refl s) rfl
      | some o =>
          exact iff_of_false (revived terminal transferring_not_terminal) fun eq => nomatch eq
  | rejectTransfer reason =>
      cases h
      exact status_set_iff rfl (finals_setStatus (s.sendPacket _ _) .Cancelled)
  | pause =>
      cases h
      rw [pause, if_neg notTransferring]
      exact iff_of_true (.refl s) trivial
  | resume =>
      rcases resume_cases h with ⟨-, rfl⟩ | ⟨paused, -⟩
      · exact iff_of_true (.refl t) trivial
      · rw [paused] at terminal
        rcases terminal with h | h | h <;> cases h
  | cancel =>
      cases h
      refine status_set_iff rfl ?_
      exact (finals_emit rfl (s.setStatus .Cancelled)).trans (finals_setStatus s .Cancelled)
  | startSend manifest localDeviceName chunkSize =>
      cases h
      refine iff_of_false (revived terminal ?_) id
      rintro (h | h | h) <;> cases h
  | socketConnected =>
      cases h
      by_cases owns : s.ownsConnection = true
      · rw [if_pos owns]
        refine iff_of_false (revived terminal ?_) fun not => ?_
        · rintro (h | h | h) <;> cases h
        · rw [Quiet, owns] at not
          cases not
      · rw [if_neg owns]
        exact iff_of_true (.refl s) (by simpa [Quiet] using owns)
  | socketDisconnected =>
      cases h
      have idle : ¬ s.disconnectFromHost.status = .Transferring := notTransferring
      simp only [onSocketDisconnected, if_neg idle]
      exact iff_of_true ⟨rfl, rfl⟩ trivial
  | socketError errorMsg =>
      cases h
      have idle : ¬ (s.status = .Transferring ∨ s.status = .Connecting) := by
        rintro (h | h)
        · exact notTransferring h
        · rw [h] at terminal
          rcases terminal with h | h | h <;> cases h
      rw [onSocketError, if_neg idle]
      exact iff_of_true (.refl s) trivial
  | bytesWritten pending =>
      have still : ({ s with bytesToWrite := pending } : TransferSession B).status.Terminal :=
        terminal
      rw [nextChunk_idle still (onBytesTransferred_cases h)]
      exact iff_of_true ⟨rfl, rfl⟩ trivial
  | drain pending =>
      cases h
      exact iff_of_true ⟨rfl, rfl⟩ trivial
  | sendNextChunk =>
      have still : ({ s with queuedCalls := s.queuedCalls - 1 } :
          TransferSession B).status.Terminal := terminal
      rw [nextChunk_idle still (sendNextChunk_cases h)]
      exact iff_of_true ⟨rfl, rfl⟩ trivial
  | metricsTick =>
      cases h
      have idle : ¬ (s.sessionTimer ∧ s.status = .Transferring) := fun h => notTransferring h.2
      rw [calculateMetrics, if_neg idle]
      exact iff_of_true (.refl s) trivial

/-- In a terminal status exactly the quiet events change nothing; so through any number of
quiet events the status stays and no end is reported again. -/
theorem absorbed_iff_quiet (J : QJson) {s : TransferSession B} (terminal : s.status.Terminal) :
    (∀ e t, Steps J s e t → (Absorbed s t ↔ Quiet J s e)) ∧
      ∀ events t, Run (Guarded (Steps J) (Quiet J)) s events t → Absorbed s t := by
  refine ⟨fun e t h => step_absorbed_iff terminal h, fun events t run => ?_⟩
  refine run.invariant (Absorbed s) (fun u e v same step => ?_) (.refl s)
  have still : u.status.Terminal := same.1 ▸ terminal
  obtain ⟨status, finals⟩ := (step_absorbed_iff still step.2).mpr step.1
  exact ⟨status.trans same.1, finals.trans same.2⟩

instance (self : TransferSession B) : Decidable self.canContinue :=
  inferInstanceAs (Decidable (∃ item ∈ self.sendManifest.items[(self.currentFileIndex + 1).toNat]?,
    ((FileReader.new B self.chunkSize).open self.disk item.sourceAbsolutePath 0).1 = true))

instance (J : QJson) (self : TransferSession B) (p : Packet) : Decidable (QuietPacket J self p) :=
  match p with
  | ⟨.HandshakeReq, _, payload⟩ => inferInstanceAs (Decidable (parseHandshakeReq J payload = none))
  | ⟨.TransferOffer, _, payload⟩ => inferInstanceAs (Decidable (parseTransferOffer payload = none))
  | ⟨.TransferAccept, _, payload⟩ => inferInstanceAs (Decidable
      (∀ accept ∈ parseTransferAccept J payload, accept.accepted = false))
  | ⟨.FileStart, _, payload⟩ => inferInstanceAs (Decidable
      (∀ start ∈ parseFileStart payload, self.canPrepare start = true))
  | ⟨.FileDataChunk, _, payload⟩ => decidable_of_iff
      (∀ chunk ∈ parseFileDataChunk payload, ∀ writer ∈ self.fileWriter,
        (writer.writeChunk self.disk chunk.offset chunk.chunkData).1 = true)
      ⟨fun all chunk writer parsed found => all chunk parsed writer found,
        fun all chunk parsed writer found => all chunk writer parsed found⟩
  | ⟨.FileAck, _, payload⟩ => inferInstanceAs (Decidable
      (∀ ack ∈ parseFileAck payload, ack.statusCode = 0 ∧ self.canContinue))
  | ⟨.TransferResume, _, payload⟩ =>
      inferInstanceAs (Decidable (parseTransferResume J payload = none))
  | ⟨.TransferCancel, _, _⟩ => inferInstanceAs (Decidable (self.status = .Cancelled))
  | ⟨.HandshakeResp, _, _⟩ | ⟨.TransferReject, _, _⟩ | ⟨.TransferPause, _, _⟩
  | ⟨.TransferComplete, _, _⟩ => inferInstanceAs (Decidable False)
  | ⟨.FileEnd, _, _⟩ | ⟨.Invalid, _, _⟩ | ⟨.ErrorAlert, _, _⟩ | ⟨.unnamed _, _, _⟩ =>
      inferInstanceAs (Decidable True)

instance (J : QJson) (self : TransferSession B) (e : Event) : Decidable (Quiet J self e) :=
  match e with
  | .packet p => inferInstanceAs (Decidable (QuietPacket J self p))
  | .acceptTransfer _ _ _ => inferInstanceAs (Decidable (self.receivedOffer = none))
  | .rejectTransfer _ | .cancel => inferInstanceAs (Decidable (self.status = .Cancelled))
  | .socketConnected => inferInstanceAs (Decidable (self.ownsConnection = false))
  | .startSend _ _ _ => inferInstanceAs (Decidable False)
  | .pause | .resume | .socketDisconnected | .socketError _ | .bytesWritten _ | .drain _
  | .sendNextChunk | .metricsTick => inferInstanceAs (Decidable True)

private def tryQuiet (s : TransferSession Blake3.vendored) (e : Event) :
    Option (TransferSession Blake3.vendored) :=
  if Quiet CompactJson.codec s e then (step CompactJson.codec s e).toOption else none

private theorem tryQuiet_sound (s : TransferSession Blake3.vendored) (e : Event)
    (t : TransferSession Blake3.vendored) (h : tryQuiet s e = some t) :
    Guarded (Steps CompactJson.codec) (Quiet CompactJson.codec) s e t := by
  unfold tryQuiet at h
  split at h
  · rename_i quiet
    exact ⟨quiet, Except.ok_of_toOption h⟩
  · cases h

/-- Of a transfer that is completed, the start, the content and the end of the file arrive again,
and one of its packets that the session does not absorb. -/
theorem absorbed_iff_quiet_late :
    let file : List Packet :=
      [⟨.FileStart, 0, serializeFileStart { relativePath := literal "a", fileSize := 1 }⟩,
        ⟨.FileDataChunk, 0, (serializeFileDataChunk { chunkSize := 1, chunkData := [7] }).getD []⟩,
        ⟨.FileEnd, 0, serializeFileEnd {}⟩]
    let offer : Packet := ⟨.TransferOffer, 0, serializeTransferOffer { transferId := literal "t" }⟩
    let complete : Packet := ⟨.TransferComplete, 0, []⟩
    let events : List Event :=
      [.packet offer, .acceptTransfer [] .Rename (literal "2024-01-31_12-00-00")] ++
        (file ++ [complete]).map .packet
    let late := file.map Event.packet
    ∃ s t, execute CompactJson.codec (fromConnection Blake3.vendored [] Disk.blank) events = .ok s ∧
      s.status = .Completed ∧
      (∀ u, Steps CompactJson.codec s (.packet complete) u → ¬ Absorbed s u) ∧
      Run (Steps CompactJson.codec) s late t ∧ Absorbed s t := by
  intro file offer complete events late
  have computed : (execute CompactJson.codec (fromConnection Blake3.vendored [] Disk.blank)
      events).toOption.bind (fun s => (late.foldlM tryQuiet s).map fun _ => s.status) =
        some .Completed := by
    decide +kernel
  obtain ⟨s, ended, rest⟩ := Option.bind_eq_some_iff.mp computed
  obtain ⟨t, reached, status⟩ := Option.map_eq_some_iff.mp rest
  have run := Run.of_foldlM tryQuiet_sound reached
  obtain ⟨each, whole⟩ := absorbed_iff_quiet CompactJson.codec (.inl status)
  exact ⟨s, t, Except.ok_of_toOption ended, status, fun u step => (each _ u step).not.mpr id,
    run.mono fun _ _ _ taken => taken.2, whole late t run⟩

/-- A packet that ends the transfer revives a cancelled session and reports an end. -/
theorem cancelled_completes :
    let s := cancel CompactJson.codec (fromConnection Blake3.vendored [] Disk.blank)
    s.status = .Cancelled ∧ finals s = [] ∧
      ∃ t, Steps CompactJson.codec s (.packet ⟨.TransferComplete, 0, []⟩) t ∧
        t.status = .Completed ∧ finals t = [.transferCompleted] :=
  ⟨rfl, by decide, _, rfl, rfl, by decide⟩

end TransferSession

end FastTransfer
