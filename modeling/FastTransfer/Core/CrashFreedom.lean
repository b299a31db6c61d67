/- FastTransfer/Core/CrashFreedom
   source: src/core/TransferSession.cpp
   digest: A positive acknowledgement without a reader is the one packet that crashes a session. -/

import FastTransfer.Core.SenderSteps
import FastTransfer.Qt.CompactJson

set_option autoImplicit false
set_option relaxedAutoImplicit false

namespace FastTransfer.TransferSession

open Protocol

variable {B : Blake3}

/-- The packet is an acknowledgement of success and the session has no reader. -/
def AckWithoutReader (self : TransferSession B) (p : Packet) : Prop :=
  p.type = .FileAck ∧ self.fileReader = none ∧
    ∃ ack, parseFileAck p.payload = some ack ∧ ack.statusCode = 0

private theorem onFileAck_absent {J : QJson} {self : TransferSession B} {payload : QByteArray}
    {ack : MsgFileAck} (parsed : parseFileAck payload = some ack) (ok : ack.statusCode = 0)
    (absent : self.fileReader = none) : onFileAck J self payload = .error .absentReader := by
  simp only [onFileAck, parsed, ok, if_true, absent]

private theorem onFileAck_error {J : QJson} {self : TransferSession B} {payload : QByteArray}
    {c : Crash} (h : onFileAck J self payload = .error c) (differ : c ≠ .chunkOverrun) :
    self.fileReader = none ∧ ∃ ack, parseFileAck payload = some ack ∧ ack.statusCode = 0 := by
  simp only [onFileAck] at h
  cases parsed : parseFileAck payload with
  | none =>
      rw [parsed] at h
      cases h
  | some ack =>
      rw [parsed] at h
      dsimp only at h
      by_cases ok : ack.statusCode = 0
      · rw [if_pos ok] at h
        cases reader : self.fileReader with
        | none => exact ⟨rfl, ack, rfl, ok⟩
        | some r =>
            rw [reader] at h
            exact absurd (startSendingFile_error h) differ
      · rw [if_neg ok] at h
        cases h

private theorem onTransferAccept_error {J : QJson} {self : TransferSession B}
    {payload : QByteArray} {c : Crash} (h : onTransferAccept J self payload = .error c) :
    c = .chunkOverrun := by
  simp only [onTransferAccept] at h
  split at h
  · cases h
  · split at h
    · exact startSendingFile_error h
    · cases h

private theorem onTransferResume_error {J : QJson} {self : TransferSession B}
    {payload : QByteArray} {c : Crash} (h : onTransferResume J self payload = .error c) :
    c = .chunkOverrun := by
  simp only [onTransferResume] at h
  split at h
  · cases h
  · split at h
    · exact startSendingFile_error h
    · cases h

private theorem onPacketReceived_error {J : QJson} {self : TransferSession B} {p : Packet}
    {c : Crash} (h : onPacketReceived J self p = .error c) (differ : c ≠ .chunkOverrun) :
    AckWithoutReader self p := by
  unfold onPacketReceived at h
  split at h
  case h_4 => exact absurd (onTransferAccept_error h) differ
  case h_9 type =>
    obtain ⟨absent, ack, parsed, ok⟩ := onFileAck_error h differ
    exact ⟨type, absent, ack, parsed, ok⟩
  case h_11 => exact absurd (onTransferResume_error h) differ
  all_goals cases h

private theorem step_error {J : QJson} {self : TransferSession B} {e : Event} {c : Crash}
    (h : step J self e = .error c) (differ : c ≠ .chunkOverrun) :
    ∃ p, e = .packet p ∧ AckWithoutReader self p := by
  cases e with
  | packet p => exact ⟨p, rfl, onPacketReceived_error h differ⟩
  | sendNextChunk => exact absurd (sendNextChunk_error h) differ
  | resume =>
      simp only [step, resume] at h
      split at h
      · split at h
        · exact absurd (sendNextChunk_error h) differ
        · cases h
      · cases h
  | bytesWritten pending =>
      simp only [step, onBytesTransferred] at h
      split at h
      · exact absurd (sendNextChunk_error h) differ
      · cases h
  | _ => cases h

/-- In no state does a packet make the session follow an absent reader or writer or index the
manifest out of range, unless it is a positive acknowledgement and there is no reader; so a run
that delivers no such acknowledgement is free of these crashes. -/
theorem crash_iff_ackWithoutReader (J : QJson) (self : TransferSession B) :
    (∀ p, (∃ c, onPacketReceived J self p = .error c ∧ c ≠ .chunkOverrun) ↔
      AckWithoutReader self p) ∧
    ∀ events, (∀ before p after t, events = before ++ .packet p :: after →
        execute J self before = .ok t → ¬ AckWithoutReader t p) →
      ∀ c, execute J self events = .error c → c = .chunkOverrun := by
  constructor
  · intro p
    constructor
    · rintro ⟨c, h, differ⟩
      exact onPacketReceived_error h differ
    · rintro ⟨type, absent, ack, parsed, ok⟩
      refine ⟨.absentReader, ?_, by decide⟩
      rw [onPacketReceived, type]
      exact onFileAck_absent parsed ok absent
  · intro events
    induction events using List.reverseRecOn with
    | nil =>
        intro _ c h
        cases h
    | append_singleton events e ih =>
        intro meets c h
        rw [execute_snoc] at h
        cases first : execute J self events with
        | error c' =>
            rw [first] at h
            cases h
            refine ih (fun before p after t split => ?_) _ first
            exact meets before p (after ++ [e]) t (by rw [split]; simp)
        | ok t =>
            have last : step J t e = .error c := by
              rw [first] at h
              exact h
            by_contra differ
            obtain ⟨p, rfl, bad⟩ := step_error last differ
            exact meets events p [] t rfl first bad

/-- A negative acknowledgement crashes nothing. -/
theorem crash_iff_ackWithoutReader_negative :
    ∀ c, execute CompactJson.codec (fromConnection Blake3.vendored [] Disk.blank)
      [.packet ⟨.FileAck, 0, serializeFileAck { statusCode := 1 }⟩] = .error c →
      c = .chunkOverrun := by
  refine (crash_iff_ackWithoutReader CompactJson.codec _).2 _ ?_
  rintro before p after t split - ⟨-, -, ack, parsed, ok⟩
  obtain ⟨rfl, rfl⟩ : before = [] ∧ p = ⟨.FileAck, 0, serializeFileAck { statusCode := 1 }⟩ := by
    cases before with
    | nil => exact ⟨rfl, (Event.packet.inj (List.cons.inj split).1).symm⟩
    | cons e before => simp at split
  have back : parseFileAck (serializeFileAck { statusCode := 1 }) = some { statusCode := 1 } :=
    parseFileAck_serialize (by decide)
  rw [back] at parsed
  cases parsed
  exact absurd ok (by decide)

/-- A connection's first packet may be an acknowledgement. -/
theorem first_ack_crashes :
    onPacketReceived CompactJson.codec (fromConnection Blake3.vendored [] Disk.blank)
      ⟨.FileAck, 0, serializeFileAck {}⟩ = .error .absentReader := by
  have parsed : parseFileAck (serializeFileAck {}) = some {} :=
    parseFileAck_serialize (by decide)
  simp only [onPacketReceived]
  exact onFileAck_absent parsed rfl rfl

end FastTransfer.TransferSession
