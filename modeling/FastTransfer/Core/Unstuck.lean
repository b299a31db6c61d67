/- FastTransfer/Core/Unstuck
   source: src/core/TransferSession.cpp, src/network/TcpConnection.cpp
   digest: Nothing that happens in an attended transfer crashes a session or keeps it for ever. -/

import FastTransfer.Core.Segmentation

set_option autoImplicit false
set_option relaxedAutoImplicit false

namespace FastTransfer

namespace FileReader

variable {B : Blake3}

end FileReader

namespace TransferSession

open Protocol

variable {B : Blake3} {J : QJson}

section Sender

variable {s : TransferSession B} {D : Delivery} {cursor : Cursor} {incoming : List Packet}

end Sender

/-! The chunk size stays as it is. -/

section ChunkSize

variable {s t : TransferSession B}

theorem NextChunk.chunkSize (h : NextChunk s t) : t.chunkSize = s.chunkSize := by
  cases h <;> rfl

theorem StartFile.chunkSize {fileIndex startOffset : UInt64}
    (h : StartFile J s fileIndex startOffset t) : t.chunkSize = s.chunkSize := by
  cases h with
  | finished => rfl
  | unopened => rfl
  | started item found opened _ sent => exact sent.chunkSize

theorem LocalStep.chunkSize {e : LocalEvent} (h : LocalStep J s e t)
    (plain : e.isControl = false) : t.chunkSize = s.chunkSize := by
  cases h with
  | aside same => exact same.chunkSize
  | paused => cases plain
  | resumed => cases plain
  | resumedSending => cases plain
  | next same _ _ next => exact next.chunkSize.trans same.chunkSize

theorem SenderMove.chunkSize {p : Packet} (h : SenderMove J s p t) :
    t.chunkSize = s.chunkSize := by
  cases h with
  | ignored => rfl
  | accepted _ start => exact start.chunkSize
  | acked _ _ _ start => exact start.chunkSize
  | nacked => rfl
  | paused => rfl
  | resumed _ start => exact start.chunkSize

theorem onHandshakeResp_chunkSize (s : TransferSession B) (payload : QByteArray) :
    (s.onHandshakeResp J payload).chunkSize = s.chunkSize := by
  unfold onHandshakeResp
  split
  · rfl
  · split <;> rfl

end ChunkSize

/-! The receiver. -/

def heardTypes : List MessageType :=
  [.HandshakeReq, .TransferOffer, .FileStart, .FileDataChunk, .FileEnd, .TransferComplete]

end TransferSession

theorem DataStream.heard (self : DataStream) (cursor : Cursor) :
    ∀ p ∈ self.remaining cursor, p.type ∈ TransferSession.heardTypes := by
  have files : ∀ i rest, ∀ p ∈ self.filesFrom i rest, p.type ∈ TransferSession.heardTypes := by
    intro i rest
    induction rest generalizing i with
    | nil =>
        intro p mem
        rw [List.mem_singleton.mp mem]
        simp [TransferSession.heardTypes]
    | cons item rest ih =>
        intro p mem
        rcases List.mem_cons.mp mem with rfl | mem
        · simp [startPacket, TransferSession.heardTypes]
        rcases List.mem_append.mp mem with chunk | mem
        · rw [mem_chunkPackets chunk]
          decide
        rcases List.mem_cons.mp mem with rfl | later
        · simp [endPacket, TransferSession.heardTypes]
        · exact ih _ p later
  intro p mem
  cases cursor with
  | between i rest => exact files i rest p mem
  | sending i item k rest =>
      rcases List.mem_append.mp mem with chunk | mem
      · rw [mem_chunkPackets chunk]
        decide
      rcases List.mem_cons.mp mem with rfl | later
      · simp [endPacket, TransferSession.heardTypes]
      · exact files _ rest p later
  | done => cases mem

end FastTransfer

namespace FastTransfer.Encounter

open TransferSession Protocol

variable {B : Blake3} {J : QJson} {A : Approach} {l l' : Link B}

theorem Stage.chunkSize {move : Duplex.Move Occurrence} (h : Stage J A l) (sound : A.Sound J B)
    (allowed : attended l move = true) (taken : Steps J l move l') :
    l'.left.session.chunkSize = l.left.session.chunkSize := by
  cases Duplex.Steps.moved taken with
  | @left e E out acted =>
      obtain ⟨t, stepped, rfl, -⟩ := act_ok acted
      rcases attended_left allowed with ⟨up, -⟩ | ⟨local', -⟩
      · rw [up] at stepped
        rw [← Except.ok.inj stepped]
        split <;> rfl
      · rw [local'] at stepped
        exact (local_step stepped).chunkSize (own_plain e)
  | toLeft pending received =>
      rcases h.answered sound pending received with ⟨payload, same⟩ | moved
      · exact (congrArg TransferSession.chunkSize same).trans (onHandshakeResp_chunkSize _ payload)
      · exact moved.chunkSize
  | right => rfl
  | toRight => rfl
  | noneRight => rfl
  | noneLeft => rfl

end FastTransfer.Encounter

namespace FastTransfer.Segmented

open TransferSession Protocol TcpConnection Encounter
open Loopback (Shows Terse)

variable {B : Blake3} {J : QJson} {A : Approach}

abbrev Kept (J : QJson) :
    Wired (Peer B) UInt8 → Wired.Move Occurrence → Wired (Peer B) UInt8 → Prop :=
  Guarded (Attended J) fun _ move => Timely move

end FastTransfer.Segmented
