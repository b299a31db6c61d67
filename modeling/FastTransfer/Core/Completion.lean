/- FastTransfer/Core/Completion
   source: src/core/TransferSession.cpp
   digest: When a sender that completes has had every file acknowledged. -/

import FastTransfer.Core.Receiving

set_option autoImplicit false
set_option relaxedAutoImplicit false

namespace FastTransfer.Link

open Protocol TransferSession
open QString (literal)

variable {B : Blake3} {J : QJson}

/-- A positive acknowledgement of file `j` is among the packets. -/
def Acknowledged (handled : List Packet) (j : Nat) : Prop :=
  ∃ p ∈ handled, p.type = .FileAck ∧ ∃ ack, parseFileAck p.payload = some ack ∧
    ack.fileIndex.toNat = j ∧ ack.statusCode = 0

/-- A positive acknowledgement that is about to be handled is of the sender's current file. -/
def current (l : Link B) : Duplex.Move LocalEvent → Bool
  | .toLeft =>
      match l.toLeft with
      | ⟨.FileAck, _, payload⟩ :: _ =>
          match parseFileAck payload with
          | some ack => ack.statusCode ≠ 0 ∨ ack.fileIndex = l.left.session.currentFileIndex
          | none => true
      | _ => true
  | _ => true

/-- Every file before the current one is acknowledged, and all are once the sender is done. -/
structure Tally (acked : Nat → Prop) (s : TransferSession B) : Prop where
  role : s.direction = .Send
  counted : ∀ j < s.currentFileIndex.toNat, acked j
  finished : (s.status = .Completed ∨ ∃ p ∈ s.outbox, p.type = .TransferComplete) →
    ∀ j < s.sendManifest.items.length, acked j

private def ongoing : List MessageType :=
  [.FileStart, .FileDataChunk, .FileEnd, .TransferPause, .TransferResume]

private theorem Tally.keep {acked : Nat → Prop} {s t : TransferSession B} (h : Tally acked s)
    (role : t.direction = s.direction) (manifest : t.sendManifest = s.sendManifest)
    (index : t.currentFileIndex = s.currentFileIndex)
    (status : t.status = .Completed → s.status = .Completed) (sends : Sends ongoing s t) :
    Tally acked t := by
  obtain ⟨sent, outbox, each⟩ := sends
  refine ⟨role.trans h.role, fun j lt => h.counted j (index ▸ lt), fun done j lt => ?_⟩
  rw [manifest] at lt
  refine h.finished ?_ j lt
  rcases done with completed | ⟨p, mem, type⟩
  · exact .inl (status completed)
  · rw [outbox] at mem
    rcases List.mem_append.mp mem with earlier | new
    · exact .inr ⟨p, earlier, type⟩
    · have other := each p new
      rw [type] at other
      simp [ongoing] at other

private theorem Tally.nextChunk {acked : Nat → Prop} {s t : TransferSession B}
    (h : Tally acked s) (next : NextChunk s t) : Tally acked t := by
  obtain ⟨index, status⟩ := next.progress
  have same := next.sameReceiver
  refine h.keep same.direction same.sendManifest index (fun completed => ?_)
    (next.sends.mono (by simp [ongoing]))
  rcases status with still | failed
  · exact still ▸ completed
  · rw [failed] at completed
    cases completed

private theorem Tally.startFile {acked : Nat → Prop} {s t : TransferSession B}
    {fileIndex startOffset : UInt64} (h : Tally acked s)
    (before : ∀ j < fileIndex.toNat, acked j) (start : StartFile J s fileIndex startOffset t) :
    Tally acked t := by
  have same := start.sameReceiver
  rcases start.progress with ⟨beyond, index, -⟩ | ⟨index, status, sends⟩
  · refine ⟨same.direction.trans h.role, fun j lt => h.counted j (index ▸ lt), fun _ j lt => ?_⟩
    rw [same.sendManifest] at lt
    exact before j (by omega)
  · have moved : Tally acked { s with currentFileIndex := fileIndex } :=
      ⟨h.role, before, h.finished⟩
    have sends' : Sends ongoing { s with currentFileIndex := fileIndex } t :=
      sends.mono (by simp [ongoing])
    refine moved.keep same.direction same.sendManifest index (fun completed => ?_) sends'
    rcases status with still | failed
    · exact still ▸ completed
    · rw [failed] at completed
      cases completed

private theorem Tally.mono {acked more : Nat → Prop} {s : TransferSession B} (h : Tally acked s)
    (sub : ∀ j, acked j → more j) : Tally more s :=
  ⟨h.role, fun j lt => sub j (h.counted j lt), fun done j lt => sub j (h.finished done j lt)⟩

private theorem Tally.local {acked : Nat → Prop} {s t : TransferSession B} {e : LocalEvent}
    (h : Tally acked s) (step : LocalStep J s e t) : Tally acked t := by
  have aside : ∀ u : TransferSession B, Frame s u → u.status = s.status → u.outbox = s.outbox →
      Tally acked u := by
    intro u same status outbox
    refine h.keep same.direction same.sendManifest same.currentFileIndex (fun c => status ▸ c) ?_
    exact ⟨[], by rw [outbox, List.append_nil], List.forall_mem_nil _⟩
  have resumed : Tally acked (s.resumed J) := by
    refine h.keep rfl rfl rfl (fun c => by cases c) ?_
    exact (sends_sendPacket (s.setStatus .Transferring) .TransferResume _).mono (by simp [ongoing])
  cases step with
  | aside same status outbox => exact aside t same status outbox
  | paused was =>
      rw [pause, if_pos was]
      refine h.keep rfl rfl rfl (fun c => by cases c) ?_
      exact (sends_sendPacket ((s.setStatus .Paused).emit _) .TransferPause _).mono
        (by simp [ongoing])
  | resumed was role => exact resumed
  | resumedSending was role next => exact resumed.nextChunk next
  | next same status outbox next => exact (aside _ same status outbox).nextChunk next

/-- What the sender makes of a packet, given that a positive acknowledgement is of its current
file. -/
private theorem Tally.packet {acked : Nat → Prop} {s t : TransferSession B} {p : Packet}
    (h : Tally acked s) (move : SenderMove J s p t) (honest : FromReceiver J p)
    (current : ∀ ack, p.type = .FileAck → parseFileAck p.payload = some ack →
      ack.statusCode = 0 → acked s.currentFileIndex.toNat) : Tally acked t := by
  have first : ∀ {fileIndex : UInt64}, fileIndex = 0 → ∀ j < fileIndex.toNat, acked j := by
    rintro _ rfl j lt
    exact absurd lt (Nat.not_lt_zero j)
  cases move with
  | ignored => exact h
  | accepted parsed start =>
      have begun : Tally acked s.begin := h.keep rfl rfl rfl nofun (.refl _ s)
      exact begun.startFile (first (honest.2.1 rfl _ parsed)) start
  | @acked _ _ ack reader _ parsed ok found start =>
      have closed : Tally acked ((s.ackReceived ack).closeReader reader) :=
        h.keep rfl rfl rfl id (.refl _ s)
      refine closed.startFile (fun j lt => ?_) start
      have before : j < s.currentFileIndex.toNat + 1 := by
        have := UInt64.toNat_add s.currentFileIndex 1
        have one : (1 : UInt64).toNat = 1 := rfl
        omega
      rcases Nat.lt_succ_iff_lt_or_eq.mp before with lt | rfl
      · exact h.counted j lt
      · exact current ack rfl parsed ok
  | nacked parsed bad => exact h.keep rfl rfl rfl nofun (.refl _ s)
  | paused => exact h.keep rfl rfl rfl nofun (.refl _ s)
  | resumed parsed start =>
      have running : Tally acked (s.setStatus .Transferring) := h.keep rfl rfl rfl nofun (.refl _ s)
      exact running.startFile (first (honest.2.2 rfl _ parsed)) start

private theorem Tally.refuse {acked : Nat → Prop} {s : TransferSession B} (h : Tally acked s) :
    Tally acked s.refuse := by
  obtain ⟨same, outbox, status⟩ := refuse_frame s
  refine h.keep same.direction same.sendManifest same.currentFileIndex (fun completed => ?_) ?_
  · rcases status with still | failed
    · exact still ▸ completed
    · rw [failed] at completed
      cases completed
  · exact ⟨[], by rw [outbox, List.append_nil], List.forall_mem_nil _⟩

private structure Tallied (J : QJson) (l : Link B) : Prop where
  sender : Tally (Acknowledged l.left.handled) l.left.session
  receiver : Receiving l.right.session
  toRight : ∀ p ∈ l.toRight, p.type ∈ senderTypes
  toLeft : ∀ p ∈ l.toLeft, FromReceiver J p

private theorem tallied_run {start l : Link B} {moves : List (Duplex.Move LocalEvent)}
    (run : Run (Guarded (Steps J) fun l move => current l move = true) start moves l)
    (initial : Tallied J start) : Tallied J l := by
  refine Duplex.invariant (Tallied J) ?_ ?_ ?_ ?_ run initial
  · rintro d e E out h - acted
    obtain ⟨t, -, step, rfl, rfl⟩ := act_ok acted
    exact ⟨h.sender.local step, h.receiver, List.forall_mem_append.mpr ⟨h.toRight, step.types⟩,
      h.toLeft⟩
  · rintro d e E out h - acted
    obtain ⟨t, -, step, rfl, rfl⟩ := act_ok acted
    obtain ⟨receiver, sent⟩ := h.receiver.local step
    exact ⟨h.sender, receiver, h.toRight, List.forall_mem_append.mpr ⟨h.toLeft, sent⟩⟩
  · rintro d p rest E out h - pending received
    have types : ∀ q ∈ p :: rest, q.type ∈ senderTypes := pending ▸ h.toRight
    have later : ∀ q ∈ rest, q.type ∈ senderTypes := fun q mem => types q (.tail p mem)
    rcases receive_ok received with ⟨-, rfl, rfl⟩ | ⟨-, -, t, step, rfl, rfl⟩
    · rw [List.append_nil]
      exact ⟨h.sender, h.receiver.refuse, later, h.toLeft⟩
    · have move := receiver_move h.receiver.role step (types p (.head rest))
      obtain ⟨receiver, sent⟩ := h.receiver.packet (J := J) move
      exact ⟨h.sender, receiver, later, List.forall_mem_append.mpr ⟨h.toLeft, sent⟩⟩
  · rintro d p rest E out h allowed pending received
    have honest : ∀ q ∈ p :: rest, FromReceiver J q := pending ▸ h.toLeft
    have later : ∀ q ∈ rest, FromReceiver J q := fun q mem => honest q (.tail p mem)
    rcases receive_ok received with ⟨-, rfl, rfl⟩ | ⟨-, -, t, step, rfl, rfl⟩
    · rw [List.append_nil]
      exact ⟨h.sender.refuse, h.receiver, h.toRight, later⟩
    · have move := sender_move h.sender.role step (honest p (.head rest)).1
      have more : Tally (Acknowledged (d.left.handled ++ [p])) d.left.session := by
        refine h.sender.mono fun j acked => ?_
        obtain ⟨q, mem, rest⟩ := acked
        exact ⟨q, List.mem_append_left _ mem, rest⟩
      refine ⟨more.packet move (honest p (.head rest)) fun ack type parsed ok => ?_, h.receiver,
        List.forall_mem_append.mpr ⟨h.toRight, move.sends.sentSince.2⟩, later⟩
      obtain ⟨type', flags, payload⟩ := p
      cases type
      have index : ack.fileIndex = d.left.session.currentFileIndex := by
        dsimp only at parsed
        simpa [current, pending, parsed, ok] using allowed
      exact ⟨_, List.mem_append_right _ (List.mem_singleton_self _), rfl, ack, parsed,
        congrArg UInt64.toNat index, ok⟩

private theorem tallied_start {l : Link B} (h : Start J l) : Tallied J l where
  sender := by
    refine ⟨h.offered.direction, fun j lt => ?_, fun done => ?_⟩
    · rw [h.offered.currentFileIndex] at lt
      exact absurd lt (Nat.not_lt_zero j)
    · rcases done with completed | ⟨p, mem, type⟩
      · rw [h.offered.status] at completed
        cases completed
      · rcases h.offered.outbox p mem with other | other <;> rw [type] at other <;> cases other
  receiver := receiving_accepted h.accepted
  toRight := by
    rw [h.toRight]
    exact List.forall_mem_nil _
  toLeft := by
    rw [h.toLeft]
    exact List.forall_mem_singleton.mpr (fromReceiver_acceptance J _)

/-- If the sender handles positive acknowledgements of its current file only, then it completes
only when each file of the manifest has been acknowledged. -/
theorem completed_acknowledged (J : QJson) {start l : Link B}
    {moves : List (Duplex.Move LocalEvent)} (initial : Start J start)
    (run : Run (Guarded (Steps J) fun l move => current l move = true) start moves l)
    (completed : l.left.session.status = .Completed ∨
      ∃ p ∈ l.left.session.outbox, p.type = .TransferComplete) :
    ∀ i < l.left.session.sendManifest.items.length, Acknowledged l.left.handled i :=
  (tallied_run run (tallied_start initial)).sender.finished completed

def acknowledgedIndices (l : Link B) : List (Option Nat) :=
  (l.left.handled.filter fun p => p.type = .FileAck).map fun p =>
    (parseFileAck p.payload).map fun ack => ack.fileIndex.toNat

/-- The receiver pauses and resumes while the first of two files is on its way, which is then sent
anew. -/
theorem completed_acknowledged_paused :
    let start := sending [(literal "x", [7]), (literal "y", [8, 9])] 1 .Rename
    let moves : List (Duplex.Move LocalEvent) :=
      [.toLeft, .toRight, .right .pause, .toLeft, .right .resume, .toLeft, .toRight,
        .left .sendNextChunk, .left .sendNextChunk, .toRight, .toRight, .toRight, .toLeft,
        .left .sendNextChunk, .left .sendNextChunk, .toRight, .toRight, .toRight, .toRight,
        .toLeft, .toRight]
    ∃ l : Link Blake3.vendored, moves.foldlM (tryGuarded current) start = some l ∧
      l.left.session.status = .Completed ∧ l.left.session.sendManifest.items.length = 2 ∧
      ∀ i < l.left.session.sendManifest.items.length, Acknowledged l.left.handled i := by
  intro start moves
  have computed : (moves.foldlM (tryGuarded current) start).map (fun l =>
      (l.left.session.status, l.left.session.sendManifest.items.length)) =
        some (.Completed, 2) := by
    decide +kernel
  obtain ⟨l, reached, eq⟩ := Option.map_eq_some_iff.mp computed
  obtain ⟨status, length⟩ := Prod.mk.inj eq
  exact ⟨l, reached, status, length, completed_acknowledged CompactJson.codec (start_accepted ..)
    (run_tryGuarded reached) (.inl status)⟩

/-- The receiver pauses and resumes before the first file arrives; then the sender completes
when the first of two files has been acknowledged twice. -/
theorem completed_unacknowledged :
    (([.toLeft, .right .pause, .right .resume, .toRight, .toRight, .toLeft, .toLeft, .toLeft,
      .toRight, .toRight, .toLeft].foldlM tryStep
        (sending [(literal "x", []), (literal "y", [])] 1 .Rename)).map
        fun l => (l.left.session.status, acknowledgedIndices l)) =
      some (.Completed, [some 0, some 0]) := by
  decide +kernel

end FastTransfer.Link
