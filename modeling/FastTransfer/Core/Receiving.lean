/- FastTransfer/Core/Receiving
   source: src/core/TransferSession.cpp
   digest: The receiving session of a link, which never leaves its first file, and its packets. -/

import FastTransfer.Core.LinkSteps

set_option autoImplicit false
set_option relaxedAutoImplicit false

namespace FastTransfer.Link

open Protocol TransferSession
open QString (literal)

variable {B : Blake3} {J : QJson}

/-- A packet as a receiving session of the link sends it: it never names another file than the
first to start from. -/
def FromReceiver (J : QJson) (p : Packet) : Prop :=
  p.type ∈ receiverTypes ∧
    (p.type = .TransferAccept →
      ∀ msg, parseTransferAccept J p.payload = some msg → msg.startFileIndex = 0) ∧
    (p.type = .TransferResume →
      ∀ msg, parseTransferResume J p.payload = some msg → msg.fileIndex = 0)

/-- The receiving session never sends, so it never leaves the first file. -/
structure Receiving (s : TransferSession B) : Prop where
  role : s.direction = .Receive
  noReader : s.fileReader = none
  currentFileIndex : s.currentFileIndex = 0

theorem Receiving.frame {s t : TransferSession B} (h : Receiving s) (same : Frame s t) :
    Receiving t where
  role := same.direction.trans h.role
  noReader := same.fileReader.trans h.noReader
  currentFileIndex := same.currentFileIndex.trans h.currentFileIndex

theorem Receiving.local {s t : TransferSession B} {e : LocalEvent} (h : Receiving s)
    (step : LocalStep J s e t) : Receiving t ∧ ∀ p ∈ sentSince s t, FromReceiver J p := by
  obtain ⟨same, cases⟩ := receiver_local h.role h.noReader step
  refine ⟨h.frame same, fun p mem => ?_⟩
  rcases cases with ⟨-, outbox⟩ | ⟨-, rfl, was⟩ | ⟨-, rfl⟩
  · rw [sentSince, outbox, List.drop_length] at mem
    cases mem
  · rw [pause, if_pos was] at mem
    have told := sends_sendPacket ((s.setStatus .Paused).emit (.metricsUpdated s.metrics))
      .TransferPause (serializeTransferPause J ⟨s.transferId, literal "User paused transfer"⟩)
    have type := List.mem_singleton.mp (told.sentSince.2 p mem)
    exact ⟨by simp [type, receiverTypes], by simp [type], by simp [type]⟩
  · have sent : p = ⟨.TransferResume, 0, serializeTransferResume J
        ⟨s.transferId, s.currentFileIndex, s.metrics.currentFileTransferred⟩⟩ := by
      have told := sentSince_sendPacket (s.setStatus .Transferring) .TransferResume
        (serializeTransferResume J
          ⟨s.transferId, s.currentFileIndex, s.metrics.currentFileTransferred⟩)
      have mem' := told ▸ (show p ∈ sentSince (s.setStatus .Transferring) (s.resumed J) from mem)
      split at mem'
      · exact List.mem_singleton.mp mem'
      · cases mem'
    subst sent
    refine ⟨by simp [receiverTypes], (fun c => by cases c), fun _ msg parsed => ?_⟩
    obtain ⟨read, eq, index, -⟩ := parseTransferResume_serialize J
      ⟨s.transferId, s.currentFileIndex, s.metrics.currentFileTransferred⟩
    dsimp only at parsed
    rw [eq] at parsed
    cases parsed
    exact index.trans h.currentFileIndex

theorem Receiving.packet {s t : TransferSession B} {p : Packet} (h : Receiving s)
    (move : ReceiverMove s p t) : Receiving t ∧ ∀ q ∈ sentSince s t, FromReceiver J q := by
  have same := move.sameSender
  refine ⟨⟨same.direction.trans h.role, same.fileReader.trans h.noReader,
    same.currentFileIndex.trans h.currentFileIndex⟩, fun q mem => ?_⟩
  have type := List.mem_singleton.mp (move.sends.sentSince.2 q mem)
  exact ⟨by simp [type, receiverTypes], by simp [type], by simp [type]⟩

theorem Receiving.refuse {s : TransferSession B} (h : Receiving s) : Receiving s.refuse := by
  have offline : Receiving { s with connected := false } := ⟨h.role, h.noReader, h.currentFileIndex⟩
  exact offline.frame (refuse_frame s).1

theorem receiving_accepted {s : TransferSession B} (h : Accepted s) : Receiving s :=
  ⟨h.direction, h.fileReader, h.currentFileIndex⟩

/-- The acceptance names the start of the first file. -/
theorem fromReceiver_acceptance (J : QJson) (s : TransferSession B) :
    FromReceiver J (acceptance J s) := by
  refine ⟨by simp [acceptance, receiverTypes], fun _ msg parsed => ?_, (fun c => by cases c)⟩
  obtain ⟨read, eq, -, index, -⟩ := parseTransferAccept_serialize J
    ⟨s.transferId, s.localDeviceName, true, 0, 0⟩
  dsimp only [acceptance] at parsed
  rw [eq] at parsed
  cases parsed
  exact index

end FastTransfer.Link
