/- FastTransfer/Core/Acknowledgement
   source: src/core/TransferSession.cpp, src/filesystem/FileWriter.cpp
   digest: What a positive acknowledgement says about the file it was sent for. -/

import FastTransfer.Core.ReceiverSteps
import FastTransfer.Qt.CompactJson

set_option autoImplicit false
set_option relaxedAutoImplicit false

namespace FastTransfer.TransferSession

open Protocol FileWriter
open QString (literal)

variable {B : Blake3} {J : QJson}

/-- What an observer of the peer's packets knows: the last `FileStart` handled, the chunks
written since, and the length of the staging file it was given. -/
structure Watch where
  start : Option MsgFileStart := none
  written : List MsgFileDataChunk := []
  prepared : Nat := 0
  deriving DecidableEq

def extend (length : Nat) (chunk : MsgFileDataChunk) : Nat :=
  if chunk.chunkData = [] then length else max length (chunk.offset.toNat + chunk.chunkData.length)

def Watch.reached (w : Watch) : Nat := w.written.foldl extend w.prepared

def SendsPacket (before after : TransferSession B) (p : Packet) : Prop :=
  ∃ sent, after.outbox = before.outbox ++ sent ∧ p ∈ sent

/-- What a positive acknowledgement is to mean. -/
def Truthful (t : TransferSession B) (w : Watch) (ack : MsgFileAck) : Prop :=
  ∃ start writer content, w.start = some start ∧ start.fileIndex = ack.fileIndex ∧
    (∀ chunk ∈ w.written, chunk.fileIndex = ack.fileIndex) ∧ t.fileWriter = some writer ∧
    t.disk.node writer.targetFilePath = some (.file content) ∧
    content.length = start.fileSize.toNat

structure Staged (writer : FileWriter B) (d : Disk) (w : Watch) : Prop where
  started : ∃ start, w.start = some start
  partialFile : writer.partialFilePath = writer.targetFilePath ++ partialSuffix
  opened : writer.file.isOpen = true → writer.file.fileName = writer.partialFilePath ∧
    ∃ content, d.node writer.partialFilePath = some (.file content)
  reached : ∀ content, d.node writer.partialFilePath = some (.file content) →
    content.length = w.reached

private theorem Staged.shut {writer : FileWriter B} {d : Disk} {w : Watch}
    (h : Staged writer d w) : Staged writer.abort d w where
  started := h.started
  partialFile := h.partialFile
  opened := fun shut => nomatch shut
  reached := h.reached

private theorem finalized {writer : FileWriter B} {d : Disk} {w : Watch}
    (h : Staged writer d w) (expectedBlake3 : QString) :
    Staged (writer.finalizeAndCommit d expectedBlake3).2.1
        (writer.finalizeAndCommit d expectedBlake3).2.2 w ∧
      ((writer.finalizeAndCommit d expectedBlake3).1 = true →
        ∃ content, (writer.finalizeAndCommit d expectedBlake3).2.2.node
            (writer.finalizeAndCommit d expectedBlake3).2.1.targetFilePath =
              some (.file content) ∧
          content.length = w.reached) := by
  by_cases verifies : writer.Verifies expectedBlake3
  · obtain ⟨errorString, eq⟩ := finalizeAndCommit_verified (d := d) verifies
    rw [eq]
    have apart : writer.partialFilePath ≠ writer.targetFilePath := by
      rw [h.partialFile]
      exact partial_ne writer.targetFilePath
    have kept : (writer.cleared d).node writer.partialFilePath =
        d.node writer.partialFilePath := by
      unfold cleared
      split
      · exact d.node_remove_ne apart
      · rfl
    cases renamed : ((writer.cleared d).rename writer.partialFilePath
        writer.targetFilePath).1 with
    | true =>
        obtain ⟨content, source, -, target, gone⟩ := Disk.node_rename renamed
        refine ⟨⟨h.started, h.partialFile, (fun shut => nomatch shut), fun content' at' => ?_⟩,
          fun _ => ⟨content, target, h.reached content (kept ▸ source)⟩⟩
        have absent : some (Node.file content') = none := at'.symm.trans gone
        cases absent
    | false =>
        refine ⟨⟨h.started, h.partialFile, (fun shut => nomatch shut), fun content' at' => ?_⟩,
          fun yes => nomatch yes⟩
        have still := Disk.node_rename_failed renamed writer.partialFilePath
        exact h.reached content' (kept.symm.trans (still.symm.trans at'))
  · rw [finalizeAndCommit_mismatch verifies]
    exact ⟨⟨h.started, h.partialFile, (fun shut => nomatch shut), h.reached⟩, fun yes => nomatch yes⟩

private theorem SendsPacket.mem {s t : TransferSession B} {p : Packet} (h : SendsPacket s t p)
    {sent : List Packet} (eq : t.outbox = s.outbox ++ sent) : p ∈ sent := by
  obtain ⟨sent', eq', mem⟩ := h
  rwa [List.append_cancel_left (eq.symm.trans eq')]

private theorem SendsPacket.eq {s t u : TransferSession B} {p : Packet} {type : MessageType}
    {payload : QByteArray} (h : SendsPacket s t p) (before : u.outbox = s.outbox)
    (after : t.outbox = (u.sendPacket type payload).outbox) :
    u.connected = true ∧ p = ⟨type, 0, payload⟩ := by
  cases online : u.connected with
  | false =>
      have nothing : t.outbox = s.outbox ++ [] := by
        rw [after, List.append_nil, ← before, sendPacket]
        simp [online]
      exact absurd (h.mem nothing) List.not_mem_nil
  | true =>
      have one : t.outbox = s.outbox ++ [⟨type, 0, payload⟩] := by
        rw [after, ← before, sendPacket]
        simp [online]
      exact ⟨rfl, List.mem_singleton.mp (h.mem one)⟩

end FastTransfer.TransferSession
