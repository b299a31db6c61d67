/- FastTransfer/Core/PauseAgreement
   source: src/core/TransferSession.cpp
   digest: When both ends agree on whether the transfer is paused. -/

import FastTransfer.Core.LinkSteps

set_option autoImplicit false
set_option relaxedAutoImplicit false

namespace FastTransfer.Link

open Protocol TransferSession
open QString (literal)

variable {B : Blake3} {J : QJson}

/-- The status that a control message puts the session in. -/
def follow (status : TransferStatus) (p : Packet) : TransferStatus :=
  match p.type with
  | .TransferPause => .Paused
  | .TransferResume | .TransferAccept => .Transferring
  | _ => status

/-- The status once the control messages in flight have arrived. -/
def predicted (status : TransferStatus) (inFlight : List Packet) : TransferStatus :=
  inFlight.foldl follow status

def Running (status : TransferStatus) : Prop := status = .Transferring ∨ status = .Paused

instance (status : TransferStatus) : Decidable (Running status) := by
  unfold Running
  infer_instance

private theorem not_running_failed : ¬ Running .Failed := by decide

private theorem not_running_completed : ¬ Running .Completed := by decide

/-- A call from one status into another has no effect, or it is made over a working connection and
against no message: the last control message on its way to the caller, if any, says the same. -/
def heeds (s : TransferSession B) (was becomes : TransferStatus) (incoming : List Packet) : Bool :=
  decide (s.status ≠ was) || (s.connected && decide (predicted becomes incoming = becomes))

/-- The calls of both users heed the messages on their way to them, and no packet is refused. -/
def unopposed (l : Link B) : Duplex.Move LocalEvent → Bool
  | .left .pause => heeds l.left.session .Transferring .Paused l.toLeft
  | .left .resume => heeds l.left.session .Paused .Transferring l.toLeft
  | .right .pause => heeds l.right.session .Transferring .Paused l.toRight
  | .right .resume => heeds l.right.session .Paused .Transferring l.toRight
  | .toRight => l.toRight.head?.all fun p => decide p.Acceptable
  | .toLeft => l.toLeft.head?.all fun p => decide p.Acceptable
  | _ => true

def Agree (a b : TransferStatus) : Prop := a = b ∨ ¬ Running a ∨ ¬ Running b

theorem Agree.symm {a b : TransferStatus} (h : Agree a b) : Agree b a := by
  rcases h with same | left | right
  · exact .inl same.symm
  · exact .inr (.inr left)
  · exact .inr (.inl right)

theorem Agree.left {a a' b : TransferStatus} (h : Agree a b) (moved : a' = a ∨ ¬ Running a') :
    Agree a' b := by
  rcases moved with rfl | ended
  · exact h
  · exact .inr (.inl ended)

private theorem predicted_other {packets : List Packet} {types : List MessageType}
    (each : ∀ p ∈ packets, p.type ∈ types)
    (other : ∀ type ∈ types, type ≠ .TransferPause ∧ type ≠ .TransferResume ∧
      type ≠ .TransferAccept) (status : TransferStatus) :
    predicted status packets = status := by
  induction packets with
  | nil => rfl
  | cons p packets ih =>
      obtain ⟨pause, resume, accept⟩ := other p.type (each p List.mem_cons_self)
      have still : follow status p = status := by
        unfold follow
        split
        · rename_i type
          exact absurd type pause
        · rename_i type
          exact absurd type resume
        · rename_i type
          exact absurd type accept
        · rfl
      rw [predicted, List.foldl_cons, still]
      exact ih fun q mem => each q (List.mem_cons_of_mem _ mem)

private theorem predicted_ended {status status' : TransferStatus} (ended : ¬ Running status')
    (packets : List Packet) :
    predicted status' packets = predicted status packets ∨
      ¬ Running (predicted status' packets) := by
  induction packets generalizing status status' with
  | nil => exact .inr ended
  | cons p packets ih =>
      have first : follow status' p = follow status p ∨
          follow status' p = status' ∧ follow status p = status := by
        unfold follow
        split
        · exact .inl rfl
        · exact .inl rfl
        · exact .inl rfl
        · exact .inr ⟨rfl, rfl⟩
      simp only [predicted, List.foldl_cons]
      rcases first with same | ⟨left, right⟩
      · rw [same]
        exact .inl rfl
      · rw [left, right]
        exact ih ended

private theorem predicted_moved {status status' : TransferStatus}
    (moved : status' = status ∨ ¬ Running status') (packets : List Packet) :
    predicted status' packets = predicted status packets ∨
      ¬ Running (predicted status' packets) := by
  rcases moved with rfl | ended
  · exact .inl rfl
  · exact predicted_ended ended packets

theorem predicted_append (status : TransferStatus) (packets more : List Packet) :
    predicted status (packets ++ more) = predicted (predicted status packets) more :=
  List.foldl_append

structure Sound (J : QJson) (p : Packet) : Prop where
  resume : p.type = .TransferResume → ∃ msg, parseTransferResume J p.payload = some msg
  accept : p.type = .TransferAccept →
    ∃ msg, parseTransferAccept J p.payload = some msg ∧ msg.accepted = true

theorem Sound.of_type {p : Packet} (resume : p.type ≠ .TransferResume)
    (accept : p.type ≠ .TransferAccept) : Sound J p :=
  ⟨fun type => absurd type resume, fun type => absurd type accept⟩

private theorem sentSince_trans {s t u : TransferSession B} {types more : List MessageType}
    (first : Sends types s t) (second : Sends more t u) :
    sentSince s u = sentSince s t ++ sentSince t u := by
  apply sentSince_eq
  rw [second.sentSince.1, first.sentSince.1, List.append_assoc]

def dataTypes : List MessageType :=
  [.FileStart, .FileDataChunk, .FileEnd, .TransferComplete, .FileAck]

private theorem plain_sends {s t : TransferSession B} {types : List MessageType}
    (sends : Sends types s t) (sub : types ⊆ dataTypes) :
    (∀ status, predicted status (sentSince s t) = status) ∧
      ∀ p ∈ sentSince s t, Sound J p := by
  have each : ∀ p ∈ sentSince s t, p.type ∈ dataTypes := fun p mem => sub (sends.sentSince.2 p mem)
  refine ⟨predicted_other each (by simp [dataTypes]), fun p mem => .of_type ?_ ?_⟩
  · intro type
    have mem := each p mem
    rw [type] at mem
    simp [dataTypes] at mem
  · intro type
    have mem := each p mem
    rw [type] at mem
    simp [dataTypes] at mem

/-- What a local event does to a session's status and tells the other end: the session stays or
ends and says nothing of it, or it enters a status and says so. -/
inductive Turns (s : TransferSession B) : LocalEvent → TransferSession B → Prop
  | quiet {e : LocalEvent} {t : TransferSession B}
      (status : t.status = s.status ∨ ¬ Running t.status)
      (plain : ∀ status, predicted status (sentSince s t) = status) : Turns s e t
  | paused {t : TransferSession B} (was : s.status = .Transferring)
      (status : t.status = .Paused)
      (told : s.connected = true → ∀ status, predicted status (sentSince s t) = .Paused) :
      Turns s .pause t
  | resumed {t : TransferSession B} (was : s.status = .Paused)
      (status : t.status = .Transferring ∨ ¬ Running t.status)
      (told : s.connected = true → ∀ status, predicted status (sentSince s t) = .Transferring) :
      Turns s .resume t

private theorem pause_sends {s : TransferSession B} (was : s.status = .Transferring) :
    sentSince s (s.pause J) = if s.connected = true then [⟨.TransferPause, 0,
      serializeTransferPause J ⟨s.transferId, literal "User paused transfer"⟩⟩] else [] := by
  rw [pause, if_pos was]
  exact sentSince_sendPacket s .TransferPause _

private theorem resumed_sends (s : TransferSession B) :
    sentSince s (s.resumed J) = if s.connected = true then [⟨.TransferResume, 0,
      serializeTransferResume J
        ⟨s.transferId, s.currentFileIndex, s.metrics.currentFileTransferred⟩⟩] else [] :=
  sentSince_sendPacket (s.setStatus .Transferring) .TransferResume _

private theorem resumed_sound (s : TransferSession B) :
    ∀ p ∈ sentSince s (s.resumed J), Sound J p := by
  intro p mem
  rw [resumed_sends] at mem
  split at mem
  · rw [List.mem_singleton.mp mem]
    refine ⟨fun _ => ?_, nofun⟩
    obtain ⟨msg, parsed, -⟩ := parseTransferResume_serialize J
      ⟨s.transferId, s.currentFileIndex, s.metrics.currentFileTransferred⟩
    exact ⟨msg, parsed⟩
  · cases mem

private theorem nextChunk_status {s t : TransferSession B} (h : NextChunk s t) :
    t.status = s.status ∨ ¬ Running t.status := by
  rcases h.progress.2 with same | failed
  · exact .inl same
  · rw [failed]
    exact .inr not_running_failed

private theorem local_turns {s t : TransferSession B} {e : LocalEvent} (h : LocalStep J s e t) :
    Turns s e t ∧ ∀ p ∈ sentSince s t, Sound J p := by
  cases h with
  | aside same status outbox =>
      have none : sentSince s t = [] := sentSince_eq (by rw [outbox, List.append_nil])
      rw [none]
      exact ⟨.quiet (.inl status) (by rw [none]; exact fun _ => rfl), List.forall_mem_nil _⟩
  | paused was =>
      refine ⟨.paused was ?_ fun online status => ?_, fun p mem => ?_⟩
      · rw [pause, if_pos was]
        rfl
      · rw [pause_sends was, if_pos online]
        rfl
      · rw [pause_sends was] at mem
        split at mem
        · rw [List.mem_singleton.mp mem]
          exact .of_type (fun c => by cases c) (fun c => by cases c)
        · cases mem
  | resumed was role =>
      refine ⟨.resumed was (.inl rfl) fun online status => ?_, resumed_sound s⟩
      rw [resumed_sends, if_pos online]
      rfl
  | resumedSending was role next =>
      have told : Sends [.TransferResume] s (s.resumed J) :=
        sends_sendPacket (s.setStatus .Transferring) .TransferResume _
      have sent := sentSince_trans told next.sends
      obtain ⟨plain, sound⟩ := plain_sends (J := J) next.sends (by simp [dataTypes])
      refine ⟨.resumed was (nextChunk_status next) fun online status => ?_, fun p mem => ?_⟩
      · rw [sent, predicted_append, plain, resumed_sends, if_pos online]
        rfl
      · rw [sent] at mem
        rcases List.mem_append.mp mem with mem | mem
        · exact resumed_sound s p mem
        · exact sound p mem
  | @next _ u _ same status outbox next =>
      have sends : Sends [.FileDataChunk, .FileEnd] s t := by
        obtain ⟨sent, eq, each⟩ := next.sends
        exact ⟨sent, by rw [eq, outbox], each⟩
      obtain ⟨plain, sound⟩ := plain_sends (J := J) sends (by simp [dataTypes])
      exact ⟨.quiet (status ▸ nextChunk_status next) plain, sound⟩

private theorem agree_turns {s t : TransferSession B} {e : LocalEvent} {status : TransferStatus}
    {incoming outgoing : List Packet} (turns : Turns s e t)
    (pause : e = .pause → heeds s .Transferring .Paused incoming = true)
    (resume : e = .resume → heeds s .Paused .Transferring incoming = true)
    (agree : Agree (predicted s.status incoming) (predicted status outgoing)) :
    Agree (predicted t.status incoming) (predicted status (outgoing ++ sentSince s t)) := by
  rw [predicted_append]
  cases turns with
  | quiet moved plain =>
      rw [plain]
      exact agree.left (predicted_moved moved incoming)
  | paused was moved told =>
      obtain ⟨online, same⟩ : s.connected = true ∧ predicted .Paused incoming = .Paused := by
        simpa [heeds, was] using pause rfl
      rw [told online, moved, same]
      exact .inl rfl
  | resumed was moved told =>
      obtain ⟨online, same⟩ :
          s.connected = true ∧ predicted .Transferring incoming = .Transferring := by
        simpa [heeds, was] using resume rfl
      rw [told online]
      have before : Agree (predicted .Transferring incoming) .Transferring := .inl same
      exact before.left (predicted_moved moved incoming)

private theorem startFile_moves {s u t : TransferSession B} {fileIndex startOffset : UInt64}
    (start : StartFile J u fileIndex startOffset t) (outbox : u.outbox = s.outbox) :
    (t.status = u.status ∨ ¬ Running t.status) ∧
      Sends [.FileStart, .FileDataChunk, .FileEnd, .TransferComplete] s t := by
  refine ⟨?_, ?_⟩
  · rcases start.progress with ⟨-, -, completed⟩ | ⟨-, same | failed, -⟩
    · rw [completed]
      exact .inr not_running_completed
    · exact .inl same
    · rw [failed]
      exact .inr not_running_failed
  · obtain ⟨sent, eq, each⟩ := start.sends
    exact ⟨sent, by rw [eq, outbox], each⟩

private theorem sender_follows {s t : TransferSession B} {p : Packet} (role : s.direction = .Send)
    (sound : Sound J p) (type : p.type ∈ receiverTypes)
    (h : TransferSession.Steps J s (.packet p) t) :
    (t.status = follow s.status p ∨ ¬ Running t.status) ∧ Sends dataTypes s t := by
  obtain ⟨type', flags, payload⟩ := p
  have sub : [.FileStart, .FileDataChunk, .FileEnd, .TransferComplete] ⊆ dataTypes := by
    simp [dataTypes]
  simp only [receiverTypes, List.mem_cons, List.not_mem_nil, or_false] at type
  rcases type with rfl | rfl | rfl | rfl
  · obtain ⟨msg, parsed, yes⟩ := sound.accept rfl
    rcases onTransferAccept_cases h with ⟨-, refused⟩ | ⟨msg', -, -, start⟩
    · rw [refused msg parsed] at yes
      cases yes
    · obtain ⟨status, sends⟩ := startFile_moves (s := s) start rfl
      exact ⟨status, sends.mono sub⟩
  · rcases onFileAck_cases h with ⟨rfl, -⟩ | ⟨ack, -, ⟨-, rfl⟩ | ⟨-, reader, -, start⟩⟩
    · exact ⟨.inl rfl, .refl _ t⟩
    · exact ⟨.inr not_running_failed, [], (List.append_nil _).symm, List.forall_mem_nil _⟩
    · obtain ⟨status, sends⟩ := startFile_moves (s := s) start rfl
      exact ⟨status, sends.mono sub⟩
  · rw [← Except.ok.inj h]
    exact ⟨.inl rfl, [], (List.append_nil _).symm, List.forall_mem_nil _⟩
  · obtain ⟨msg, parsed⟩ := sound.resume rfl
    rcases onTransferResume_cases h with ⟨-, none⟩ | ⟨msg', -, ⟨other, -⟩ | ⟨-, start⟩⟩
    · cases none.symm.trans parsed
    · exact absurd role other
    · obtain ⟨status, sends⟩ := startFile_moves (s := s) start rfl
      exact ⟨status, sends.mono sub⟩

private theorem file_status {s t : TransferSession B} {p : Packet} (file : p.type ∈ fileTypes)
    (h : ReceiverStep s (.packet p) t) : t.status = s.status ∨ ¬ Running t.status := by
  cases h with
  | opened parsed opened => exact .inl rfl
  | refused parsed refused => exact .inr nofun
  | written parsed found written => exact .inl rfl
  | unwritten parsed found failed => exact .inr nofun
  | ended parsed found => exact .inl rfl
  | ignored ignored => exact .inl rfl
  | bystander other moved => exact absurd file (other p rfl)

private theorem receiver_follows {s t : TransferSession B} {p : Packet}
    (role : s.direction = .Receive) (sound : Sound J p) (type : p.type ∈ senderTypes)
    (h : TransferSession.Steps J s (.packet p) t) :
    t.status = follow s.status p ∨ ¬ Running t.status := by
  obtain ⟨type', flags, payload⟩ := p
  simp only [senderTypes, List.mem_cons, List.not_mem_nil, or_false] at type
  rcases type with rfl | rfl | rfl | rfl | rfl | rfl
  · exact file_status (by simp [fileTypes]) (step_receiver h)
  · exact file_status (by simp [fileTypes]) (step_receiver h)
  · exact file_status (by simp [fileTypes]) (step_receiver h)
  · rw [← Except.ok.inj h]
    exact .inr not_running_completed
  · rw [← Except.ok.inj h]
    exact .inl rfl
  · obtain ⟨msg, parsed⟩ := sound.resume rfl
    rcases onTransferResume_cases h with ⟨-, none⟩ | ⟨msg', -, ⟨-, rfl⟩ | ⟨send, -⟩⟩
    · cases none.symm.trans parsed
    · exact .inl rfl
    · rw [role] at send
      cases send

/-- The control messages in flight will leave both ends in the same status, unless one has ended. -/
structure Agreeing (J : QJson) (l : Link B) : Prop where
  sender : l.left.session.direction = .Send
  receiver : l.right.session.direction = .Receive
  noReader : l.right.session.fileReader = none
  hears : l.left.deaf = false ∧ l.right.deaf = false
  toRight : ∀ p ∈ l.toRight, p.type ∈ senderTypes ∧ Sound J p
  toLeft : ∀ p ∈ l.toLeft, p.type ∈ receiverTypes ∧ Sound J p
  agree : Agree (predicted l.left.session.status l.toLeft)
    (predicted l.right.session.status l.toRight)

private theorem agreeing_start {l : Link B} (h : Start J l) : Agreeing J l := by
  refine ⟨h.offered.direction, h.accepted.direction, h.accepted.fileReader, h.deaf, ?_, ?_, ?_⟩
  · rw [h.toRight]
    exact nofun
  · rw [h.toLeft]
    intro p mem
    rw [List.mem_singleton.mp mem]
    refine ⟨by simp [acceptance, receiverTypes], nofun, fun _ => ?_⟩
    obtain ⟨msg, parsed, yes, -⟩ := parseTransferAccept_serialize J
      ⟨l.right.session.transferId, l.right.session.localDeviceName, true, 0, 0⟩
    exact ⟨msg, parsed, yes⟩
  · rw [h.toLeft, h.toRight, h.accepted.status]
    exact .inl rfl

section Moves

variable {l : Link B} {E : Endpoint B} {out : List Packet}

private theorem Agreeing.left {e : LocalEvent} (h : Agreeing J l)
    (allowed : unopposed l (.left e) = true) (acted : act J l.left e = .ok (E, out)) :
    Agreeing J { l with left := E, toRight := l.toRight ++ out } := by
  obtain ⟨t, -, step, rfl, rfl⟩ := act_ok acted
  obtain ⟨turns, sound⟩ := local_turns step
  refine ⟨step.keeps.1.trans h.sender, h.receiver, h.noReader, h.hears, ?_, h.toLeft, ?_⟩
  · refine List.forall_mem_append.mpr ⟨h.toRight, fun p mem => ?_⟩
    exact ⟨step.types p mem, sound p mem⟩
  · refine agree_turns turns ?_ ?_ h.agree
    · rintro rfl
      exact allowed
    · rintro rfl
      exact allowed

private theorem Agreeing.right {e : LocalEvent} (h : Agreeing J l)
    (allowed : unopposed l (.right e) = true) (acted : act J l.right e = .ok (E, out)) :
    Agreeing J { l with right := E, toLeft := l.toLeft ++ out } := by
  obtain ⟨t, -, step, rfl, rfl⟩ := act_ok acted
  obtain ⟨turns, sound⟩ := local_turns step
  obtain ⟨frame, -⟩ := receiver_local h.receiver h.noReader step
  refine ⟨h.sender, frame.direction.trans h.receiver, frame.fileReader.trans h.noReader,
    h.hears, h.toRight, ?_, ?_⟩
  · have sends : Sends receiverTypes l.right.session t :=
      (receiver_local_sends h.receiver h.noReader step).mono (by simp [receiverTypes])
    refine List.forall_mem_append.mpr ⟨h.toLeft, fun p mem => ?_⟩
    exact ⟨sends.sentSince.2 p mem, sound p mem⟩
  · refine (agree_turns turns ?_ ?_ h.agree.symm).symm
    · rintro rfl
      exact allowed
    · rintro rfl
      exact allowed

private theorem Agreeing.heardRight {p : Packet} {rest : List Packet} (h : Agreeing J l)
    (allowed : unopposed l .toRight = true) (pending : l.toRight = p :: rest)
    (received : receive J l.right p = .ok (E, out)) :
    Agreeing J { l with right := E, toRight := rest, toLeft := l.toLeft ++ out } := by
  have each : ∀ q ∈ p :: rest, q.type ∈ senderTypes ∧ Sound J q := pending ▸ h.toRight
  obtain ⟨⟨type, sound⟩, later⟩ := List.forall_mem_cons.mp each
  have acceptable : p.Acceptable := by simpa [unopposed, pending] using allowed
  have agree := h.agree
  rw [pending] at agree
  obtain ⟨t, step, rfl, rfl⟩ := receive_heard received h.hears.2 acceptable
  have move := receiver_move h.receiver step type
  have moved := receiver_follows h.receiver sound type step
  obtain ⟨plain, honest⟩ := plain_sends (J := J) move.sends (by simp [dataTypes])
  have same := move.sameSender
  refine ⟨h.sender, same.direction.trans h.receiver, same.fileReader.trans h.noReader,
    h.hears, later, ?_, ?_⟩
  · refine List.forall_mem_append.mpr ⟨h.toLeft, fun q mem => ⟨?_, honest q mem⟩⟩
    have type := List.mem_singleton.mp (move.sends.sentSince.2 q mem)
    simp [type, receiverTypes]
  · rw [predicted_append, plain]
    exact (agree.symm.left (predicted_moved moved rest)).symm

private theorem Agreeing.heardLeft {p : Packet} {rest : List Packet} (h : Agreeing J l)
    (allowed : unopposed l .toLeft = true) (pending : l.toLeft = p :: rest)
    (received : receive J l.left p = .ok (E, out)) :
    Agreeing J { l with left := E, toLeft := rest, toRight := l.toRight ++ out } := by
  have each : ∀ q ∈ p :: rest, q.type ∈ receiverTypes ∧ Sound J q := pending ▸ h.toLeft
  obtain ⟨⟨type, sound⟩, later⟩ := List.forall_mem_cons.mp each
  have acceptable : p.Acceptable := by simpa [unopposed, pending] using allowed
  have agree := h.agree
  rw [pending] at agree
  obtain ⟨t, step, rfl, rfl⟩ := receive_heard received h.hears.1 acceptable
  have move := sender_move h.sender step type
  obtain ⟨moved, sends⟩ := sender_follows h.sender sound type step
  obtain ⟨plain, honest⟩ := plain_sends (J := J) sends (fun _ mem => mem)
  refine ⟨move.sameReceiver.direction.trans h.sender, h.receiver, h.noReader, h.hears, ?_,
    later, ?_⟩
  · refine List.forall_mem_append.mpr ⟨h.toRight, fun q mem => ?_⟩
    exact ⟨move.sends.sentSince.2 q mem, honest q mem⟩
  · rw [predicted_append, plain]
    exact agree.left (predicted_moved moved rest)

end Moves

private theorem agreeing_run {start l : Link B} {moves : List (Duplex.Move LocalEvent)}
    (run : Run (Guarded (Steps J) fun l move => unopposed l move = true) start moves l)
    (initial : Agreeing J start) : Agreeing J l := by
  refine Duplex.invariant (Agreeing J) ?_ ?_ ?_ ?_ run initial
  · intro d e E out h allowed acted
    exact h.left allowed acted
  · intro d e E out h allowed acted
    exact h.right allowed acted
  · intro d p rest E out h allowed pending received
    exact h.heardRight allowed pending received
  · intro d p rest E out h allowed pending received
    exact h.heardLeft allowed pending received

/-- While the calls of the users are unopposed, both ends are paused or both are not whenever no
message is on its way and neither has ended. -/
theorem statuses_agree (J : QJson) {start l : Link B} {moves : List (Duplex.Move LocalEvent)}
    (begun : Start J start)
    (run : Run (Guarded (Steps J) fun l move => unopposed l move = true) start moves l)
    (quiet : l.toRight = [] ∧ l.toLeft = []) (left : Running l.left.session.status)
    (right : Running l.right.session.status) :
    l.left.session.status = l.right.session.status := by
  have agree := (agreeing_run run (agreeing_start begun)).agree
  rw [quiet.1, quiet.2] at agree
  rcases agree with same | ended | ended
  · exact same
  · exact absurd left ended
  · exact absurd right ended

/-- The sender pauses, and both ends are paused. -/
theorem statuses_agree_paused :
    ∃ l : Link Blake3.vendored, l.left.session.status = .Paused ∧
      l.right.session.status = .Paused ∧ l.left.session.status = l.right.session.status := by
  let start := sending [(literal "x", [7, 8])] 1 .Rename
  let moves : List (Duplex.Move LocalEvent) :=
    [.toLeft, .left .pause, .toRight, .toRight, .toRight]
  have computed : (moves.foldlM (tryGuarded unopposed) start).map (fun l =>
      (l.left.session.status, l.right.session.status, l.toRight.length, l.toLeft.length)) =
        some (.Paused, .Paused, 0, 0) := by
    decide +kernel
  obtain ⟨l, reached, members⟩ := Option.map_eq_some_iff.mp computed
  simp only [Prod.mk.injEq, List.length_eq_zero_iff] at members
  obtain ⟨left, right, quiet⟩ := members
  exact ⟨l, left, right, statuses_agree CompactJson.codec (start_accepted ..)
    (run_tryGuarded reached) quiet (.inr left) (.inr right)⟩

/-- The receiver pauses, and before the sender hears of it the sender pauses and resumes: in the
end the sender is paused and the receiver is not. -/
theorem statuses_disagree :
    ∃ start l : Link Blake3.vendored, Start CompactJson.codec start ∧
      (∃ moves, Run (Steps CompactJson.codec) start moves l) ∧
      (l.toRight = [] ∧ l.toLeft = []) ∧ l.left.session.status = .Paused ∧
      l.right.session.status = .Transferring := by
  let start := sending [(literal "x", [7, 8])] 1 .Rename
  let moves : List (Duplex.Move LocalEvent) :=
    [.toLeft, .right .pause, .left .pause, .left .resume, .toRight, .toRight, .toRight, .toRight,
      .toRight, .toLeft]
  have computed : (moves.foldlM tryStep start).map (fun l =>
      (l.toRight.length, l.toLeft.length, l.left.session.status, l.right.session.status)) =
        some (0, 0, .Paused, .Transferring) := by
    decide +kernel
  obtain ⟨l, reached, members⟩ := Option.map_eq_some_iff.mp computed
  simp only [Prod.mk.injEq, List.length_eq_zero_iff] at members
  obtain ⟨toRight, toLeft, left, right⟩ := members
  have run : Run (Steps CompactJson.codec) start moves l :=
    .of_foldlM (fun _ _ _ => tryStep_sound) reached
  exact ⟨start, l, start_accepted .., ⟨moves, run⟩, ⟨toRight, toLeft⟩, left, right⟩

end FastTransfer.Link
