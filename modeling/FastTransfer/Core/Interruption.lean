/- FastTransfer/Core/Interruption
   source: src/core/TransferSession.cpp, src/filesystem/FileWriter.cpp
   digest: What is on the receiver's disk when a transfer is cancelled or its connection breaks. -/

import FastTransfer.Core.Accounting
import FastTransfer.Core.Encounter

set_option autoImplicit false
set_option relaxedAutoImplicit false

namespace FastTransfer

open Protocol TransferSession
open QString (literal)

variable {B : Blake3} {J : QJson} {D : Delivery}

namespace Encounter

/-- The session has neither closed its connection nor lost it, and no error has come. -/
def listening (s : TransferSession B) : Bool := s.connected && s.status ≠ .Failed

theorem listening_iff {s : TransferSession B} :
    listening s = true ↔ s.connected = true ∧ s.status ≠ .Failed := by
  rw [listening, Bool.and_eq_true, decide_eq_true_eq]

theorem deafened {s : TransferSession B} (h : s.connected = false ∨ s.status = .Failed) :
    listening s = false := by
  rw [Bool.eq_false_iff, Ne, listening_iff]
  rintro ⟨connected, running⟩
  rcases h with lost | failed
  · cases connected.symm.trans lost
  · exact running failed

inductive Break : Event → Prop
  | own (e : LocalEvent) (plain : e.isControl = false) : Break e.event
  | cancel : Break .cancel
  | socketDisconnected : Break .socketDisconnected
  | socketError (errorMsg : QString) : Break (.socketError errorMsg)

theorem cancel_sends (J : QJson) (s : TransferSession B) :
    Sends [.TransferCancel] s (s.cancel J) :=
  sends_sendPacket ((s.setStatus .Cancelled).emit (.metricsUpdated s.metrics)) .TransferCancel _

theorem socketError_moved (s : TransferSession B) (errorMsg : QString) :
    s.onSocketError errorMsg = s ∨ (s.onSocketError errorMsg).status = .Failed ∧
      (s.onSocketError errorMsg).outbox = s.outbox ∧
      (s.onSocketError errorMsg).disk = s.disk ∧
      (s.onSocketError errorMsg).fileReader = s.fileReader := by
  unfold onSocketError
  split
  · exact .inr ⟨rfl, rfl, rfl, rfl⟩
  · exact .inl rfl

theorem socketDisconnected_moved (s : TransferSession B) :
    s.onSocketDisconnected.connected = false ∧ s.onSocketDisconnected.outbox = s.outbox ∧
      s.onSocketDisconnected.disk = s.disk ∧
      s.onSocketDisconnected.fileReader = s.fileReader ∧
      (s.onSocketDisconnected.status = s.status ∨ s.onSocketDisconnected.status = .Failed) := by
  unfold onSocketDisconnected
  dsimp only
  split
  · exact ⟨rfl, rfl, rfl, rfl, .inr rfl⟩
  · exact ⟨rfl, rfl, rfl, rfl, .inl rfl⟩

private theorem sentSince_same {s t : TransferSession B} (outbox : t.outbox = s.outbox) :
    sentSince s t = [] :=
  sentSince_eq (by rw [outbox, List.append_nil])

private theorem no_calls {s t : TransferSession B} (outbox : t.outbox = s.outbox) :
    ∀ p ∈ sentSince s t, p.type = .TransferCancel := by
  rw [sentSince_same outbox]
  exact List.forall_mem_nil _

private theorem only_calls {s : TransferSession B} :
    ∀ p ∈ sentSince s (s.cancel J), p.type = .TransferCancel :=
  fun p mem => List.mem_singleton.mp ((cancel_sends J s).sentSince.2 p mem)

theorem Break.off {s t : TransferSession B} {e : Event} (broken : Break e)
    (taken : TransferSession.Steps J s e t) :
    (∃ own : LocalEvent, e = own.event ∧ own.isControl = false) ∨ t = s ∨
      listening t = false ∧ ∀ p ∈ sentSince s t, p.type = .TransferCancel := by
  cases broken with
  | own e plain => exact .inl ⟨e, rfl, plain⟩
  | cancel =>
      cases Except.ok.inj taken
      exact .inr (.inr ⟨deafened (.inl rfl), only_calls⟩)
  | socketDisconnected =>
      cases Except.ok.inj taken
      obtain ⟨lost, outbox, -⟩ := socketDisconnected_moved s
      exact .inr (.inr ⟨deafened (.inl lost), no_calls outbox⟩)
  | socketError errorMsg =>
      cases Except.ok.inj taken
      rcases socketError_moved s errorMsg with same | ⟨failed, outbox, -⟩
      · exact .inr (.inl same)
      · exact .inr (.inr ⟨deafened (.inr failed), no_calls outbox⟩)

/-- A session out of the connection sends nothing of a file any more. -/
theorem mute_step {s t : TransferSession B} {e : Event} (mute : listening s = false)
    (broken : Break e) (taken : TransferSession.Steps J s e t) :
    listening t = false ∧ ∀ p ∈ sentSince s t, p.type = .TransferCancel := by
  rcases broken.off taken with ⟨own, rfl, plain⟩ | rfl | off
  · cases local_step taken with
    | aside same status outbox =>
        exact ⟨by rw [listening, same.connected, status]; exact mute, no_calls outbox⟩
    | paused => cases plain
    | resumed => cases plain
    | resumedSending => cases plain
    | @next _ u _ same status outbox next =>
        have mute' : listening u = false := by
          rw [listening, same.connected, status]
          exact mute
        have lost : ∀ reader, Active u reader → u.connected = false := by
          intro reader active
          rw [Bool.eq_false_iff]
          intro connected
          have heard := listening_iff.mpr ⟨connected, by rw [active.transferring]; decide⟩
          cases mute'.symm.trans heard
        cases next with
        | idle => exact ⟨mute', no_calls outbox⟩
        | fileEnd reader active =>
            have off := lost reader active
            exact ⟨deafened (.inl off), no_calls (Eq.trans (if_neg (by rw [off]; decide)) outbox)⟩
        | readFailed reader => exact ⟨deafened (.inr rfl), no_calls outbox⟩
        | sendFailed reader => exact ⟨deafened (.inr rfl), no_calls outbox⟩
        | chunk reader active ended nonempty online =>
            cases online.symm.trans (lost reader active)
  · exact ⟨mute, no_calls rfl⟩
  · exact off

structure Rests (s t : TransferSession B) : Prop where
  disk : t.disk = s.disk
  fileReader : t.fileReader = none
  acks : t.ackCount = s.ackCount
  completed : t.status = .Completed → s.status = .Completed

theorem ackCount_same {s t : TransferSession B} (outbox : t.outbox = s.outbox) :
    t.ackCount = s.ackCount := by
  rw [ackCount, outbox]
  rfl

theorem rests_step {s t : TransferSession B} {e : Event} (none : s.fileReader = none)
    (broken : Break e) (taken : TransferSession.Steps J s e t) : Rests s t := by
  cases broken with
  | own e plain =>
      obtain ⟨same, status, outbox⟩ := (local_step taken).idle plain none
      exact ⟨same.disk, same.fileReader.trans none, ackCount_same outbox,
        fun completed => status.symm.trans completed⟩
  | cancel =>
      cases Except.ok.inj taken
      obtain ⟨outbox, types⟩ := (cancel_sends J s).sentSince
      refine ⟨rfl, ?_, ?_, fun completed => ?_⟩
      · show s.fileReader.map FileReader.close = Option.none
        rw [none]
        rfl
      · have none : (sentSince s (s.cancel J)).countP (fun p => p.type = .FileAck) = 0 := by
          refine List.countP_eq_zero.mpr fun p mem => ?_
          rw [List.mem_singleton.mp (types p mem)]
          decide
        rw [ackCount, outbox, List.countP_append, none]
        rfl
      · cases completed
  | socketDisconnected =>
      cases Except.ok.inj taken
      obtain ⟨-, outbox, disk, reader, status⟩ := socketDisconnected_moved s
      refine ⟨disk, reader.trans none, ackCount_same outbox, fun completed => ?_⟩
      rcases status with same | failed
      · exact same.symm.trans completed
      · cases failed.symm.trans completed
  | socketError errorMsg =>
      cases Except.ok.inj taken
      rcases socketError_moved s errorMsg with same | ⟨failed, outbox, disk, reader⟩
      · rw [same]
        exact ⟨rfl, none, rfl, id⟩
      · refine ⟨disk, reader.trans none, ackCount_same outbox, fun completed => ?_⟩
        cases failed.symm.trans completed

/-- The sender is out of the connection, and the receiver is at a place of the stream: what is
under way is what comes next, and the sender's cancellation. -/
structure Severed (D : Delivery) (l : Link B) (behind : Cursor) : Prop where
  hears : l.right.deaf = false
  mute : listening l.left.session = false
  receiver : ReceiverAt l.right.session D behind
  tally : Tally l.right.session D behind
  flight : ∃ front rest calls, l.toRight = front ++ calls ∧
    front ++ rest = D.stream.remaining behind ∧ ∀ p ∈ calls, p.type = .TransferCancel
  small : ∀ p ∈ l.toRight, p.type = .FileDataChunk → p.payload.length < 2 ^ 32

structure Ended (D : Delivery) (l : Link B) : Prop where
  quiet : listening l.right.session = false ∨
    listening l.left.session = false ∧ ∀ p ∈ l.toRight, p.type = .TransferCancel
  noReader : l.right.session.fileReader = none
  outcome : Outcome l.right.session D

/-- The course of a transfer that may break at any time. -/
inductive Course (J : QJson) (D : Delivery) (l : Link B) : Prop
  | running {ahead behind : Cursor} (passage : Link.Passage J D l ahead behind)
      (tally : Tally l.right.session D behind)
  | severed {behind : Cursor} (severed : Severed D l behind)
  | ended (ended : Ended D l)

theorem Rests.outcome {s t : TransferSession B} (h : Rests s t) (outcome : Outcome s D) :
    Outcome t D := by
  refine ⟨?_, fun completed => ?_, ?_⟩
  · rw [h.acks]
    exact outcome.most
  · rw [h.acks]
    exact outcome.completed (h.completed completed)
  · rw [h.disk, h.acks]
    exact outcome.leaves

theorem rests_refuse {s : TransferSession B} (none : s.fileReader = none) : Rests s s.refuse := by
  obtain ⟨same, outbox, status⟩ := refuse_frame s
  refine ⟨same.disk, same.fileReader.trans none, ackCount_same outbox, fun completed => ?_⟩
  rcases status with kept | failed
  · exact kept.symm.trans completed
  · cases failed.symm.trans completed

theorem mute_refuse (s : TransferSession B) : listening s.refuse = false :=
  deafened (.inl (refuse_frame s).1.connected)

section Steps

variable {d : Link B} {E : Endpoint B} {out : List Packet}

private theorem small_calls {a b : List Packet}
    (small : ∀ p ∈ a, p.type = .FileDataChunk → p.payload.length < 2 ^ 32)
    (calls : ∀ p ∈ b, p.type = .TransferCancel) :
    ∀ p ∈ a ++ b, p.type = .FileDataChunk → p.payload.length < 2 ^ 32 := by
  intro p mem chunk
  rcases List.mem_append.mp mem with mem | mem
  · exact small p mem chunk
  · cases (calls p mem).symm.trans chunk

private theorem Course.sever {t : TransferSession B} {ahead behind : Cursor}
    (passage : Link.Passage J D d ahead behind) (tally : Tally d.right.session D behind)
    (session : E.session = t) (mute : listening t = false)
    (calls : ∀ p ∈ out, p.type = .TransferCancel) (left : List Packet) :
    Course J D { d with left := E, toLeft := left, toRight := d.toRight ++ out } :=
  .severed ⟨passage.hears.2, session ▸ mute, passage.receiver, tally,
    ⟨d.toRight, _, out, rfl, passage.path, calls⟩, small_calls passage.small calls⟩

private theorem Course.left {e : Occurrence} (h : Course J D d) (broken : Break e.val)
    (acted : act J d.left e = .ok (E, out)) :
    Course J D { d with left := E, toRight := d.toRight ++ out } := by
  obtain ⟨t, taken, rfl, rfl⟩ := act_ok acted
  cases h with
  | running passage tally =>
      rcases broken.off taken with ⟨own, eq, plain⟩ | same | ⟨mute, calls⟩
      · have local_acted : Link.act J d.left own =
            .ok ({ d.left with session := t }, sentSince d.left.session t) := by
          rw [Link.act, ← eq]
          exact acted
        obtain ⟨ahead', passage', -⟩ := passage.left plain local_acted
        exact .running passage' tally
      · subst same
        rw [sentSince_same rfl, List.append_nil]
        exact .running passage tally
      · exact Course.sever passage tally rfl mute calls d.toLeft
  | severed severed =>
      obtain ⟨mute, calls⟩ := mute_step severed.mute broken taken
      obtain ⟨front, rest, earlier, flight, path, each⟩ := severed.flight
      refine .severed ⟨severed.hears, mute, severed.receiver, severed.tally,
        ⟨front, rest, earlier ++ sentSince d.left.session t, ?_, path, fun p mem => ?_⟩,
        small_calls severed.small calls⟩
      · rw [flight, List.append_assoc]
      · rcases List.mem_append.mp mem with mem | mem
        · exact each p mem
        · exact calls p mem
  | ended ended =>
      refine .ended ⟨?_, ended.noReader, ended.outcome⟩
      rcases ended.quiet with quiet | ⟨mute, each⟩
      · exact .inl quiet
      · obtain ⟨mute', calls⟩ := mute_step mute broken taken
        refine .inr ⟨mute', fun p mem => ?_⟩
        rcases List.mem_append.mp mem with mem | mem
        · exact each p mem
        · exact calls p mem

private theorem Course.right {e : Occurrence} (h : Course J D d) (broken : Break e.val)
    (acted : act J d.right e = .ok (E, out)) :
    Course J D { d with right := E, toLeft := d.toLeft ++ out } := by
  obtain ⟨t, taken, rfl, rfl⟩ := act_ok acted
  cases h with
  | running passage tally =>
      rcases broken.off taken with ⟨own, eq, plain⟩ | same | ⟨mute, -⟩
      · have local_acted : Link.act J d.right own =
            .ok ({ d.right with session := t }, sentSince d.right.session t) := by
          rw [Link.act, ← eq]
          exact acted
        obtain ⟨passage', -, frame, outbox⟩ := passage.right plain local_acted
        exact .running passage' (tally.frame frame.disk frame.fileWriter (ackCount_same outbox))
      · subst same
        rw [sentSince_same rfl, List.append_nil]
        exact .running passage tally
      · have rests := rests_step passage.receiver.noReader broken taken
        exact .ended ⟨.inl mute, rests.fileReader, rests.outcome (tally.outcome passage.receiver)⟩
  | severed severed =>
      rcases broken.off taken with ⟨own, eq, plain⟩ | same | ⟨mute, -⟩
      · rw [eq] at taken
        obtain ⟨frame, status, outbox⟩ :=
          (local_step taken).idle plain severed.receiver.noReader
        exact .severed ⟨severed.hears, severed.mute, severed.receiver.frame frame status outbox,
          severed.tally.frame frame.disk frame.fileWriter (ackCount_same outbox),
          severed.flight, severed.small⟩
      · subst same
        exact .severed ⟨severed.hears, severed.mute, severed.receiver, severed.tally,
          severed.flight, severed.small⟩
      · have rests := rests_step severed.receiver.noReader broken taken
        exact .ended ⟨.inl mute, rests.fileReader,
          rests.outcome (severed.tally.outcome severed.receiver)⟩
  | ended ended =>
      have rests := rests_step ended.noReader broken taken
      refine .ended ⟨?_, rests.fileReader, rests.outcome ended.outcome⟩
      exact ended.quiet.imp_left fun quiet => (mute_step quiet broken taken).1

private theorem rests_call {p : Packet} (none : d.right.session.fileReader = none)
    (call : p.type = .TransferCancel) (received : Link.receive J d.right p = .ok (E, out)) :
    Rests d.right.session E.session := by
  rcases Link.receive_ok received with ⟨-, rfl, -⟩ | ⟨-, -, t, taken, rfl, -⟩
  · exact rests_refuse none
  · obtain ⟨type, flags, payload⟩ := p
    cases call
    cases Except.ok.inj taken
    refine ⟨rfl, ?_, rfl, fun completed => ?_⟩
    · show d.right.session.fileReader.map FileReader.close = Option.none
      rw [none]
      rfl
    · cases completed

private theorem Course.toRight {p : Packet} {rest : List Packet} (listed : D.Listed B)
    (h : Course J D d) (pending : d.toRight = p :: rest)
    (heard : listening d.right.session = true) (allowed : Link.unobstructed d .toRight = true)
    (received : Link.receive J d.right p = .ok (E, out))
    (succeeded : E.session.disk.AllSucceeded) :
    Course J D { d with right := E, toRight := rest, toLeft := d.toLeft ++ out } := by
  cases h with
  | running passage tally =>
      by_cases acceptable : p.Acceptable
      · obtain ⟨behind', passage', next, -⟩ :=
          passage.toRight listed pending acceptable allowed received succeeded
        obtain ⟨t, taken, rfl, -⟩ := Link.receive_heard received passage.hears.2 acceptable
        have clear :=
          Link.unobstructed_clear listed passage.receiver pending acceptable allowed
        exact .running passage' (tally.packet listed passage.receiver next acceptable
          (passage.small p (pending ▸ List.mem_cons_self)) clear taken passage'.receiver succeeded)
      · obtain ⟨rfl, -⟩ := Link.receive_refused received (.inr acceptable)
        have rests := rests_refuse passage.receiver.noReader
        exact .ended ⟨.inl (mute_refuse _), rests.fileReader,
          rests.outcome (tally.outcome passage.receiver)⟩
  | @severed behind severed =>
      obtain ⟨front, later, calls, flight, path, each⟩ := severed.flight
      rw [pending] at flight
      cases front with
      | nil =>
          have call : ∀ q ∈ p :: rest, q.type = .TransferCancel := by
            rw [flight]
            exact each
          have rests := rests_call severed.receiver.noReader (call p List.mem_cons_self) received
          exact .ended ⟨.inr ⟨severed.mute, fun q mem => call q (.tail p mem)⟩, rests.fileReader,
            rests.outcome (severed.tally.outcome severed.receiver)⟩
      | cons first front =>
          obtain ⟨rfl, rfl⟩ := List.cons.inj flight
          by_cases acceptable : p.Acceptable
          · obtain ⟨t, taken, rfl, -⟩ := Link.receive_heard received severed.hears acceptable
            have clear :=
              Link.unobstructed_clear listed severed.receiver pending acceptable allowed
            have small := severed.small p (pending ▸ List.mem_cons_self)
            obtain ⟨⟨behind', left, receiver, -⟩, -, -⟩ := severed.receiver.packet listed
              path.symm acceptable small clear taken succeeded
            have next : D.stream.remaining behind = p :: D.stream.remaining behind' := by
              rw [left]
              exact path.symm
            exact .severed ⟨severed.hears, severed.mute, receiver,
              severed.tally.packet listed severed.receiver next acceptable small clear taken
                receiver succeeded,
              ⟨front, later, calls, rfl, left.symm, each⟩,
              fun q mem => severed.small q (pending ▸ .tail p mem)⟩
          · obtain ⟨rfl, -⟩ := Link.receive_refused received (.inr acceptable)
            have rests := rests_refuse severed.receiver.noReader
            exact .ended ⟨.inl (mute_refuse _), rests.fileReader,
              rests.outcome (severed.tally.outcome severed.receiver)⟩
  | ended ended =>
      rcases ended.quiet with quiet | ⟨mute, each⟩
      · cases heard.symm.trans quiet
      · rw [pending] at each
        have rests := rests_call ended.noReader (each p List.mem_cons_self) received
        exact .ended ⟨.inr ⟨mute, fun q mem => each q (.tail p mem)⟩, rests.fileReader,
          rests.outcome ended.outcome⟩

private theorem Course.toLeft {p : Packet} {rest : List Packet} (h : Course J D d)
    (pending : d.toLeft = p :: rest) (heard : listening d.left.session = true)
    (received : Link.receive J d.left p = .ok (E, out)) :
    Course J D { d with left := E, toLeft := rest, toRight := d.toRight ++ out } := by
  cases h with
  | running passage tally =>
      by_cases acceptable : p.Acceptable
      · obtain ⟨ahead', passage', -⟩ := passage.toLeft pending acceptable received
        exact .running passage' tally
      · obtain ⟨rfl, rfl⟩ := Link.receive_refused received (.inr acceptable)
        exact Course.sever passage tally rfl (mute_refuse _) (List.forall_mem_nil _) rest
  | severed severed => cases heard.symm.trans severed.mute
  | ended ended =>
      refine .ended ⟨ended.quiet.imp_right fun quiet => ?_, ended.noReader, ended.outcome⟩
      cases heard.symm.trans quiet.1

end Steps

end Encounter

end FastTransfer
