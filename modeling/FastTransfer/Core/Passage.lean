/- FastTransfer/Core/Passage
   source: src/core/TransferSession.cpp
   digest: A delivery under way with the places that its two ends have reached in the stream. -/

import FastTransfer.Core.DeliveryRun

set_option autoImplicit false
set_option relaxedAutoImplicit false

namespace FastTransfer.TransferSession

variable {B : Blake3} {J : QJson}

theorem LocalStep.idle {s t : TransferSession B} {e : LocalEvent} (step : LocalStep J s e t)
    (plain : e.isControl = false) (none : s.fileReader = none) :
    Frame s t ∧ t.status = s.status ∧ t.outbox = s.outbox := by
  cases step with
  | aside same status outbox => exact ⟨same, status, outbox⟩
  | paused => cases plain
  | resumed => cases plain
  | resumedSending => cases plain
  | next same status outbox next =>
      cases next.absent (same.fileReader.trans none)
      exact ⟨same, status, outbox⟩

end FastTransfer.TransferSession

namespace FastTransfer.Link

open TransferSession Protocol

variable {B : Blake3} {J : QJson} {D : Delivery}

/-- A delivery whose sender has sent what is in front of `ahead`, and whose receiver has handled
what is in front of `behind`. -/
structure Passage (J : QJson) (D : Delivery) (l : Link B) (ahead behind : Cursor) : Prop where
  hears : l.left.deaf = false ∧ l.right.deaf = false
  sender : SendingAt J l.left.session D ahead l.toLeft
  receiver : ReceiverAt l.right.session D behind
  path : l.toRight ++ D.stream.remaining ahead = D.stream.remaining behind
  count : l.toLeft.length + behind.ends = ahead.unacked
  small : ∀ p ∈ l.toRight, p.type = .FileDataChunk → p.payload.length < 2 ^ 32
  quiet : l.left.session.status = .WaitingApproval → l.toRight = []

variable {d : Link B} {E : Endpoint B} {out : List Packet} {ahead behind : Cursor}

theorem Delivering.passage (h : Delivering J D d) : ∃ ahead behind, Passage J D d ahead behind := by
  obtain ⟨ahead, behind, sender, receiver, path, count⟩ := h.place
  exact ⟨ahead, behind, h.hears, sender, receiver, path, count, h.small, h.quiet⟩

namespace Passage

theorem delivering (h : Passage J D d ahead behind) : Delivering J D d :=
  ⟨h.hears, ⟨ahead, behind, h.sender, h.receiver, h.path, h.count⟩, h.small, h.quiet⟩

theorem ends_waiting (h : Passage J D d ahead behind)
    (waiting : d.left.session.status = .WaitingApproval) : behind.ends = D.items.length := by
  have place := h.sender.place
  have path := h.path
  rw [h.quiet waiting, List.nil_append] at path
  rw [← D.stream.count_remaining, ← path, D.stream.count_remaining]
  generalize d.toLeft = incoming at place
  cases place with
  | offered => rfl
  | streaming place status =>
      rcases status with ⟨running, -⟩ | ⟨completed, -⟩
      · cases running.symm.trans waiting
      · cases completed.symm.trans waiting

private theorem append_small {a b : List Packet}
    (first : ∀ p ∈ a, p.type = .FileDataChunk → p.payload.length < 2 ^ 32)
    (second : ∀ p ∈ b, p.type = .FileDataChunk → p.payload.length < 2 ^ 32) :
    ∀ p ∈ a ++ b, p.type = .FileDataChunk → p.payload.length < 2 ^ 32 := by
  intro p mem
  rcases List.mem_append.mp mem with mem | mem
  · exact first p mem
  · exact second p mem

theorem left {e : LocalEvent} (h : Passage J D d ahead behind) (plain : e.isControl = false)
    (acted : act J d.left e = .ok (E, out)) :
    ∃ ahead', Passage J D { d with left := E, toRight := d.toRight ++ out } ahead' behind ∧
      D.stream.remaining ahead = out ++ D.stream.remaining ahead' ∧
        ahead'.unacked = ahead.unacked := by
  obtain ⟨t, -, step, rfl, rfl⟩ := act_ok acted
  obtain ⟨⟨ahead', left, unacked, sender⟩, small, quiet⟩ := h.sender.local step plain
  refine ⟨ahead', ⟨h.hears, sender, h.receiver, ?_, ?_, append_small h.small small,
    fun waiting => ?_⟩, left, unacked⟩
  · rw [List.append_assoc, ← left]
    exact h.path
  · rw [unacked]
    exact h.count
  · rw [quiet waiting, List.append_nil]
    exact h.quiet (step.was_waiting waiting)

theorem right {e : LocalEvent} (h : Passage J D d ahead behind) (plain : e.isControl = false)
    (acted : act J d.right e = .ok (E, out)) :
    Passage J D { d with right := E, toLeft := d.toLeft ++ out } ahead behind ∧ out = [] ∧
      Frame d.right.session E.session ∧ E.session.outbox = d.right.session.outbox := by
  obtain ⟨t, -, step, rfl, rfl⟩ := act_ok acted
  obtain ⟨same, status, outbox⟩ := step.idle plain h.receiver.noReader
  have nothing : sentSince d.right.session t = [] :=
    sentSince_eq (by rw [outbox, List.append_nil])
  rw [nothing, List.append_nil]
  exact ⟨⟨h.hears, h.sender, h.receiver.frame same status outbox, h.path, h.count, h.small,
    h.quiet⟩, rfl, same, outbox⟩

theorem toRight {p : Packet} {rest : List Packet} (listed : D.Listed B)
    (h : Passage J D d ahead behind) (pending : d.toRight = p :: rest) (acceptable : p.Acceptable)
    (allowed : unobstructed d .toRight = true) (received : receive J d.right p = .ok (E, out))
    (succeeded : E.session.disk.AllSucceeded) :
    ∃ behind', Passage J D { d with right := E, toRight := rest, toLeft := d.toLeft ++ out } ahead
        behind' ∧ D.stream.remaining behind = p :: D.stream.remaining behind' ∧
      out.length + behind'.ends = behind.ends ∧ ∀ q ∈ out, D.GoodAck q := by
  have clear := unobstructed_clear listed h.receiver pending acceptable allowed
  obtain ⟨t, taken, rfl, rfl⟩ := receive_heard received h.hears.2 acceptable
  have path := h.path
  have small := h.small
  rw [pending] at path small
  obtain ⟨⟨behind', left, receiver, ends⟩, answers, -⟩ := h.receiver.packet listed path.symm
    acceptable (small p List.mem_cons_self) clear taken succeeded
  have started : d.left.session.status ≠ .WaitingApproval := by
    intro waiting
    cases pending.symm.trans (h.quiet waiting)
  refine ⟨behind', ⟨h.hears, ?_, receiver, left.symm, ?_, fun q mem => small q (.tail p mem),
    fun waiting => absurd waiting started⟩, ?_, ends, answers⟩
  · exact ⟨h.sender.role, h.sender.supplied, h.sender.stream, h.sender.manifest,
      h.sender.place.answered started answers⟩
  · have count := h.count
    dsimp only
    rw [List.length_append]
    omega
  · rw [left]
    exact path.symm

theorem toLeft {p : Packet} {rest : List Packet} (h : Passage J D d ahead behind)
    (pending : d.toLeft = p :: rest) (acceptable : p.Acceptable)
    (received : receive J d.left p = .ok (E, out)) :
    ∃ ahead', Passage J D { d with left := E, toLeft := rest, toRight := d.toRight ++ out } ahead'
        behind ∧ D.stream.remaining ahead = out ++ D.stream.remaining ahead' ∧
      ahead'.unacked + 1 = ahead.unacked := by
  obtain ⟨t, taken, rfl, rfl⟩ := receive_heard received h.hears.1 acceptable
  have path := h.path
  have count := h.count
  have sender := h.sender
  rw [pending] at sender count
  rw [List.length_cons] at count
  -- the receiver is not ahead of the sender, so some acknowledgement is for the sender's file
  have later : ahead.ends ≤ behind.ends := by
    rw [← D.stream.count_remaining ahead, ← D.stream.count_remaining behind, ← path,
      List.countP_append]
    exact Nat.le_add_left _ _
  obtain ⟨⟨⟨ahead', left, unacked, sender'⟩, small, -⟩, moved⟩ := sender.packet (by omega) taken
  refine ⟨ahead', ⟨h.hears, sender', h.receiver, ?_, ?_, append_small h.small small,
    fun waiting => absurd waiting moved⟩, left, by omega⟩
  · rw [List.append_assoc, ← left]
    exact path
  · dsimp only
    omega

end Passage

end FastTransfer.Link
