/- FastTransfer/Core/Segmentation
   source: src/core/TransferSession.cpp, src/network/TcpConnection.cpp
   digest: A whole transfer over two byte streams, which are read in segments of any size. -/

import FastTransfer.Core.Journey
import FastTransfer.Library.Segments

set_option autoImplicit false
set_option relaxedAutoImplicit false

namespace FastTransfer.TransferSession

open Protocol

variable {B : Blake3} {J : QJson}

structure Loads (s t : TransferSession B) : Prop where
  calls : s.queuedCalls ≤ t.queuedCalls
  bytes : s.bytesToWrite ≤ t.bytesToWrite

namespace Loads

variable {s t u : TransferSession B}

theorem refl (s : TransferSession B) : Loads s s := ⟨Nat.le_refl _, Nat.le_refl _⟩

theorem trans (first : Loads s t) (second : Loads t u) : Loads s u :=
  ⟨first.calls.trans second.calls, first.bytes.trans second.bytes⟩

private theorem written {size : ℕ} (calls : s.queuedCalls ≤ t.queuedCalls)
    (bytes : t.bytesToWrite = if s.connected then s.bytesToWrite + size else s.bytesToWrite) :
    Loads s t := by
  refine ⟨calls, ?_⟩
  rw [bytes]
  split
  · exact Nat.le_add_right _ _
  · exact Nat.le_refl _

theorem nextChunk (h : NextChunk s t) : Loads s t := by
  cases h with
  | idle => exact refl s
  | fileEnd reader => exact written (Nat.le_refl _) rfl
  | readFailed => exact ⟨Nat.le_refl _, Nat.le_refl _⟩
  | sendFailed => exact ⟨Nat.le_refl _, Nat.le_refl _⟩
  | chunk reader active ended nonempty online payload =>
      refine written ?_ rfl
      dsimp only [chunkSent]
      split
      · exact Nat.le_succ _
      · exact Nat.le_refl _

theorem startFile {fileIndex startOffset : UInt64} (h : StartFile J s fileIndex startOffset t) :
    Loads s t := by
  cases h with
  | finished => exact written (Nat.le_refl _) rfl
  | unopened => exact ⟨Nat.le_refl _, Nat.le_refl _⟩
  | started item found opened _ sent =>
      have start : Loads s (s.started fileIndex startOffset item) := written (Nat.le_refl _) rfl
      exact start.trans (nextChunk sent)

theorem senderMove {p : Packet} (h : SenderMove J s p t) : Loads s t := by
  cases h with
  | ignored => exact refl s
  | accepted parsed start => exact ⟨(startFile start).calls, (startFile start).bytes⟩
  | acked parsed ok found start => exact ⟨(startFile start).calls, (startFile start).bytes⟩
  | nacked => exact ⟨Nat.le_refl _, Nat.le_refl _⟩
  | paused => exact ⟨Nat.le_refl _, Nat.le_refl _⟩
  | resumed parsed start => exact ⟨(startFile start).calls, (startFile start).bytes⟩

theorem onHandshakeResp (s : TransferSession B) (payload : QByteArray) :
    Loads s (s.onHandshakeResp J payload) := by
  unfold TransferSession.onHandshakeResp
  split
  · exact ⟨Nat.le_refl _, Nat.le_refl _⟩
  · split
    · exact written (Nat.le_refl _) rfl
    · exact ⟨Nat.le_refl _, Nat.le_refl _⟩

end Loads

end FastTransfer.TransferSession

namespace FastTransfer.Link

open TransferSession Protocol

variable {B : Blake3} {J : QJson} {D : Delivery} {l : Link B} {ahead behind : Cursor}

/-- Where both sessions are complete nothing is left to be sent or handled. -/
theorem Places.settled (h : Places J D l ahead behind) (finished : Finished l) :
    rank D ahead behind = 0 := by
  have count := h.count
  have path := h.path
  have sent : ahead.unacked = 0 := by
    have place := h.sender.place
    generalize l.toLeft = incoming at place
    cases place with
    | offered _ waiting => cases finished.1.symm.trans waiting
    | streaming _ status =>
        rcases status with ⟨running, -⟩ | ⟨-, none⟩
        · cases finished.1.symm.trans running
        · exact none
  have received : D.stream.remaining behind = [] := by
    have place := h.receiver.place
    cases place with
    | between _ running => cases finished.2.symm.trans running
    | sending _ running => cases finished.2.symm.trans running
    | done => rfl
  rw [received] at path
  rw [rank, received, (List.append_eq_nil_iff.mp path).2, sent]
  rfl

theorem Places.finished_of_settled (h : Places J D l ahead behind)
    (settled : rank D ahead behind = 0) : Finished l := by
  have nothing : D.stream.remaining ahead = [] ∧ D.stream.remaining behind = [] ∧
      ahead.unacked = 0 := by
    rw [← List.length_eq_zero_iff, ← List.length_eq_zero_iff]
    unfold rank at settled
    omega
  have files : ∀ i rest, D.stream.filesFrom i rest ≠ [] := by
    intro i rest none
    cases rest <;> cases none
  constructor
  · have place := h.sender.place
    generalize l.toLeft = incoming at place
    cases place with
    | offered => exact absurd nothing.1 (files _ _)
    | streaming _ status =>
        rcases status with ⟨-, more⟩ | ⟨completed, -⟩
        · omega
        · exact completed
  · have place := h.receiver.place
    cases place with
    | between => exact absurd nothing.2.1 (files _ _)
    | sending =>
        have none := congrArg List.length nothing.2.1
        simp [DataStream.remaining] at none
    | done completed => exact completed

end FastTransfer.Link

namespace FastTransfer.Encounter

open TransferSession Protocol TcpConnection

variable {B : Blake3} {J : QJson} {A : Approach}

theorem Shipping.stays {D : Delivery} {l l' : Link B} {move : Duplex.Move Occurrence}
    (h : Shipping J A D l) (allowed : attended l move = true) (taken : Steps J l move l')
    (succeeded : l'.right.session.disk.AllSucceeded) (finished : Link.Finished l) :
    Link.Finished l' := by
  obtain ⟨-, alone, taken'⟩ := h.step allowed taken succeeded
  obtain ⟨⟨ahead, behind, under⟩, listed, -, fits, -⟩ := h
  have settled := under.places.settled (by exact finished)
  rcases Link.ranked_step listed fits ⟨ahead, behind, under.places, settled⟩ alone taken'
    succeeded with ⟨r, less, -⟩ | ⟨⟨ahead', behind', places, none⟩, -⟩
  · cases less
  · exact places.finished_of_settled none

theorem Stage.acceptable {l : Link B} (h : Stage J A l) (sound : A.Sound J B) :
    (l.left.deaf = false ∧ l.right.deaf = false) ∧ (∀ p ∈ l.toRight, p.Acceptable) ∧
      ∀ p ∈ l.toLeft, p.Acceptable := by
  rcases h with arriving | ⟨D, ⟨ahead, behind, under⟩, listed, -, fits, -⟩
  · exact ⟨arriving.hears, arriving.acceptable sound.admissible sound.concise⟩
  · have small : ∀ p ∈ l.asRename.toRight, p.Acceptable :=
      Loopback.toRight_acceptable fits listed under.places.toPassage.delivering
    exact ⟨under.places.hears, small, under.places.answers⟩

theorem Stage.connecting {l : Link B} (h : Stage J A l) (sound : A.Sound J B)
    (status : l.left.session.status = .Connecting) : l.toLeft = [] := by
  rcases h with arriving | ⟨D, ⟨ahead, behind, under⟩, -⟩
  · cases arriving.phase sound.admissible with
    | connecting _ _ _ flight => exact flight.2
    | requested _ _ _ flight => exact flight.2
    | answered other => cases status.symm.trans other
    | offered _ _ _ flight => exact flight.2
    | waiting _ _ _ _ _ _ flight => exact flight.2
  · have place := under.places.sender.place
    generalize l.asRename.toLeft = incoming at place
    cases place with
    | offered _ waiting => cases status.symm.trans waiting
    | streaming _ either =>
        rcases either with ⟨running, -⟩ | ⟨completed, -⟩
        · cases status.symm.trans running
        · cases status.symm.trans completed

theorem Stage.shown {l : Link B} (h : Stage J A l) (sound : A.Sound J B)
    (shown : l.right.session.receivedOffer.isSome = true)
    (status : l.right.session.status = .WaitingApproval) : l.toRight = [] := by
  rcases h with arriving | ⟨D, ⟨ahead, behind, under⟩, -⟩
  · cases arriving.phase sound.admissible with
    | connecting _ _ none => rw [none] at shown; cases shown
    | requested _ _ none => rw [none] at shown; cases shown
    | answered _ _ none => rw [none] at shown; cases shown
    | offered _ _ none => rw [none] at shown; cases shown
    | waiting _ _ _ _ _ _ flight => exact flight.1
  · have place := under.places.receiver.place
    cases place with
    | between _ running => cases status.symm.trans running
    | sending _ running => cases status.symm.trans running
    | done completed => cases status.symm.trans completed

theorem Stage.answered {l : Link B} {E : Endpoint B} {p : Packet} {rest out : List Packet}
    (h : Stage J A l) (sound : A.Sound J B) (pending : l.toLeft = p :: rest)
    (received : Link.receive J l.left p = .ok (E, out)) :
    (∃ payload, E.session = l.left.session.onHandshakeResp J payload) ∨
      SenderMove J l.left.session p E.session := by
  obtain ⟨hears, -, small⟩ := h.acceptable sound
  have mem : p ∈ l.toLeft := pending ▸ List.mem_cons_self
  obtain ⟨t, taken, rfl, -⟩ := Link.receive_heard received hears.1 (small p mem)
  rcases h with arriving | ⟨D, ⟨ahead, behind, under⟩, -⟩
  · cases arriving.phase sound.admissible with
    | answered _ _ _ flight =>
        rw [(List.cons.inj (pending.symm.trans flight.2)).1] at taken
        exact .inl ⟨_, (Except.ok.inj taken).symm⟩
    | connecting _ _ _ flight => cases pending.symm.trans flight.2
    | requested _ _ _ flight => cases pending.symm.trans flight.2
    | offered _ _ _ flight => cases pending.symm.trans flight.2
    | waiting _ _ _ _ _ _ flight => cases pending.symm.trans flight.2
  · have type := Loopback.sent_type under.places.sender.place p mem
    exact .inr (sender_move under.places.sender.role taken type)

theorem Stage.loads {l : Link B} {E : Endpoint B} {p : Packet} {rest out : List Packet}
    (h : Stage J A l) (sound : A.Sound J B) (pending : l.toLeft = p :: rest)
    (received : Link.receive J l.left p = .ok (E, out)) : Loads l.left.session E.session := by
  rcases h.answered sound pending received with ⟨payload, same⟩ | moved
  · rw [same]
    exact .onHandshakeResp _ payload
  · exact .senderMove moved

theorem steps_before {l l' : Link B} {move : Duplex.Move Occurrence} (taken : Steps J l move l')
    (succeeded : l'.right.session.disk.AllSucceeded) : l.right.session.disk.AllSucceeded := by
  cases Duplex.Steps.moved taken with
  | left => exact succeeded
  | right acted =>
      obtain ⟨t, stepped, rfl, -⟩ := act_ok acted
      exact succeeded_before stepped succeeded
  | toRight pending received => exact Link.receive_before received succeeded
  | toLeft => exact succeeded
  | noneRight => exact succeeded
  | noneLeft => exact succeeded

end FastTransfer.Encounter

namespace FastTransfer.Segmented

open TransferSession Protocol TcpConnection Encounter
open Loopback (Shows Terse)

variable {B : Blake3} {J : QJson} {A : Approach}

def reader (J : QJson) : Reader (Peer B) Occurrence UInt8 Stop := Loopback.reader J Subtype.val

def start (A : Approach) (B : Blake3) : Wired (Peer B) UInt8 where
  left := { session := A.caller B }
  right := { session := fromConnection B A.receiverId A.receiver }
  toRight := []
  toLeft := []

def sessions (w : Wired (Peer B) UInt8) : Link B where
  left := { session := w.left.session }
  right := { session := w.right.session }
  toRight := []
  toLeft := []

/-- The connection comes up, the offer that is shown is accepted, users do nothing else, and
either peer reads as much as it likes. -/
def attended (w : Wired (Peer B) UInt8) : Wired.Move Occurrence → Bool
  | .left e => Encounter.attended (sessions w) (.left e)
  | .right e => Encounter.attended (sessions w) (.right e)
  | .toRight _ | .toLeft _ => true

abbrev Attended (J : QJson) :
    Wired (Peer B) UInt8 → Wired.Move Occurrence → Wired (Peer B) UInt8 → Prop :=
  Guarded (Wired.Steps (reader J)) fun w move => attended w move = true

def Accepts : Wired.Move Occurrence → Prop
  | .right e => Encounter.Accepts (.right e)
  | _ => False

def Timely : Wired.Move Occurrence → Prop
  | .right e => Encounter.Timely (.right e)
  | _ => True

/-- As long as bytes are under way some of them are read; for the rest as between endpoints that
exchange packets. -/
structure Fair (x : Execution (Attended (B := B) J)) : Prop where
  connects : ∀ n, (x.state n).left.session.status = .Connecting →
    ∃ m ≥ n, ∃ e : Occurrence, x.event m = .left e ∧ e.val = .socketConnected
  accepts : ∀ n, (x.state n).right.session.receivedOffer.isSome = true →
    (x.state n).right.session.status = .WaitingApproval → ∃ m ≥ n, Accepts (x.event m)
  toRight : ∀ n, (x.state n).toRight ≠ [] → ∃ m ≥ n, (x.event m).ReadsRight
  toLeft : ∀ n, (x.state n).toLeft ≠ [] → ∃ m ≥ n, (x.event m).ReadsLeft
  queued : ∀ n, 0 < (x.state n).left.session.queuedCalls →
    ∃ m ≥ n, ∃ e : Occurrence, x.event m = .left e ∧ e.val = .sendNextChunk
  written : ∀ n, 0 < (x.state n).left.session.bytesToWrite → ∃ m ≥ n, ∃ e : Occurrence,
    ∃ pending < (x.state m).left.session.maxPending,
      x.event m = .left e ∧ e.val = .bytesWritten pending

/-! Peers that read bytes stand for endpoints that receive packets. -/

theorem framing (J : QJson) : Framing wireCode (machine (B := B) J) (reader J) Shows :=
  Loopback.framing J Subtype.val

theorem buffers :
    Buffers wireCode (Shows (B := B)) fun x => x.connection.readBuffer :=
  ⟨fun shows => shows.buffered, fun shows => shows.stuck⟩

theorem drain_isPacket (pending : ℕ) : (Event.drain pending).isPacket = false := rfl

def drain (pending : ℕ) : Occurrence := ⟨.drain pending, drain_isPacket pending⟩

def idle (E : Endpoint B) : Occurrence := drain E.session.bytesToWrite

structure Known (J : QJson) (A : Approach) (l : Link B) (move : Duplex.Move Occurrence)
    (l' : Link B) : Prop where
  step : Encounter.Attended J l move l'
  timely : Encounter.Timely move
  stage : Stage J A l
  succeeded : l'.right.session.disk.AllSucceeded

/-- What is due of the endpoints, and the event that settles it. -/
inductive Due : (Link B → Prop) → (Duplex.Move Occurrence → Link B → Prop) → Prop
  | connects : Due (fun l => l.left.session.status = .Connecting)
      fun move _ => ∃ e : Occurrence, move = .left e ∧ e.val = .socketConnected
  | accepts : Due (fun l => l.right.session.receivedOffer.isSome = true ∧
      l.right.session.status = .WaitingApproval) fun move _ => Encounter.Accepts move
  | toRight : Due (fun l => l.toRight ≠ []) fun move _ => move = .toRight
  | toLeft : Due (fun l => l.toLeft ≠ []) fun move _ => move = .toLeft
  | queued : Due (fun l => 0 < l.left.session.queuedCalls)
      fun move _ => ∃ e : Occurrence, move = .left e ∧ e.val = .sendNextChunk
  | written : Due (fun l => 0 < l.left.session.bytesToWrite)
      fun move l => ∃ e : Occurrence, ∃ pending < l.left.session.maxPending,
        move = .left e ∧ e.val = .bytesWritten pending

theorem Known.due (sound : A.Sound J B) {l l' : Link B} {move : Duplex.Move Occurrence}
    (h : Known J A l move l') (delivery : move = .toRight ∨ move = .toLeft)
    {due : Link B → Prop} {helpful : Duplex.Move Occurrence → Link B → Prop}
    (among : Due due helpful) (now : due l) : helpful move l ∨ due l' := by
  cases Duplex.Steps.moved h.step.2 with
  | left => rcases delivery with other | other <;> cases other
  | right => rcases delivery with other | other <;> cases other
  | toRight pending received =>
      cases among with
      | connects => exact .inr now
      | accepts => cases pending.symm.trans (h.stage.shown sound now.1 now.2)
      | toRight => exact .inl rfl
      | toLeft => exact .inr (List.append_ne_nil_of_left_ne_nil now _)
      | queued => exact .inr now
      | written => exact .inr now
  | toLeft pending received =>
      have loads := h.stage.loads sound pending received
      cases among with
      | connects => cases pending.symm.trans (h.stage.connecting sound now)
      | accepts => exact .inr now
      | toRight => exact .inr (List.append_ne_nil_of_left_ne_nil now _)
      | toLeft => exact .inl rfl
      | queued => exact .inr (Nat.lt_of_lt_of_le now loads.calls)
      | written => exact .inr (Nat.lt_of_lt_of_le now loads.bytes)
  | noneRight => exact .inr now
  | noneLeft => exact .inr now

theorem attended_sessions {w : Wired (Peer B) UInt8} {l : Link B}
    (left : w.left.session = l.left.session) (right : w.right.session = l.right.session) :
    (∀ e, attended w (.left e) = Encounter.attended l (.left e)) ∧
      ∀ e, attended w (.right e) = Encounter.attended l (.right e) := by
  constructor
  · intro e
    simp only [attended, Encounter.attended, sessions, left]
  · intro e
    simp only [attended, Encounter.attended, sessions, right]

theorem carries_sessions {w : Wired (Peer B) UInt8} {l : Link B}
    (h : Carries wireCode Shows w l) :
    w.left.session = l.left.session ∧ w.right.session = l.right.session := by
  obtain ⟨⟨_, right, -⟩, _, left, -⟩ := h
  exact ⟨left.session, right.session⟩

section Refined

variable (terse : Terse J) (sound : A.Sound J B)

include terse sound

private theorem known {l l' : Link B} {move : Duplex.Move Occurrence} (h : Stage J A l)
    (allowed : Encounter.attended l move = true) (timely : Encounter.Timely move)
    (taken : Encounter.Steps J l move l') (succeeded : l'.right.session.disk.AllSucceeded) :
    Known J A l move l' ∧ Stage J A l' :=
  ⟨⟨⟨allowed, taken⟩, timely, h, succeeded⟩, h.step terse sound allowed timely taken succeeded⟩

theorem refined {w w' : Wired (Peer B) UInt8} {l l' : Link B}
    {move : Wired.Move Occurrence} {moves : List (Duplex.Move Occurrence)} (h : Stage J A l)
    (carries : Carries wireCode Shows w l) (allowed : attended w move = true)
    (timely : Timely move) (succeeded : w'.right.session.disk.AllSucceeded)
    (run : Run (Encounter.Steps J) l moves l')
    (matched : Matches wireCode Shows (fun x => x.connection.readBuffer) idle w l move w' moves
      l') :
    ∃ trail, trail.map Prod.fst = moves ∧ Trail (Known J A) l trail l' ∧ Stage J A l' := by
  obtain ⟨left, right⟩ := carries_sessions carries
  rw [(carries_sessions matched.carries).2] at succeeded
  have deliveries : (∀ m ∈ moves, m = .right (idle l.right) ∨ m = .toRight ∨ m = .toLeft) →
      ∃ trail, trail.map Prod.fst = moves ∧ Trail (Known J A) l trail l' ∧ Stage J A l' := by
    intro free
    refine Trail.of_run (fun _ _ _ taken => steps_before taken)
      (fun s m t mem stage taken well => ?_) run h succeeded
    rcases free m mem with rfl | rfl | rfl
    · exact known terse sound stage rfl (fun _ _ _ other => by cases other) taken well
    · exact known terse sound stage rfl trivial taken well
    · exact known terse sound stage rfl trivial taken well
  cases matched.leg with
  | left e =>
      obtain ⟨u, taken, rest⟩ := run.uncons
      obtain rfl := rest.of_nil
      rw [(attended_sessions left right).1] at allowed
      obtain ⟨step, stage⟩ := known terse sound h allowed trivial taken succeeded
      exact ⟨_, rfl, .single step, stage⟩
  | right e =>
      obtain ⟨u, taken, rest⟩ := run.uncons
      obtain rfl := rest.of_nil
      rw [(attended_sessions left right).2] at allowed
      obtain ⟨step, stage⟩ := known terse sound h allowed timely taken succeeded
      exact ⟨_, rfl, .single step, stage⟩
  | toRight count k =>
      refine deliveries fun m mem => ?_
      rcases List.mem_cons.mp mem with rfl | mem
      · exact .inl rfl
      · exact .inr (.inl (List.eq_of_mem_replicate mem))
  | toLeft count k =>
      refine deliveries fun m mem => ?_
      rcases List.mem_cons.mp mem with rfl | mem
      · exact .inl rfl
      · exact .inr (.inr (List.eq_of_mem_replicate mem))

end Refined

private def Orderly (J : QJson) (w : Wired (Peer B) UInt8) (move : Wired.Move Occurrence)
    (w' : Wired (Peer B) UInt8) : Prop :=
  Attended J w move w' ∧ Timely move ∧ w'.right.session.disk.AllSucceeded

section Executions

variable {x : Execution (Attended (B := B) J)} (terse : Terse J) (sound : A.Sound J B)
  (clock : ∀ n, Timely (x.event n))
  (succeeded : ∀ n, (x.state n).right.session.disk.AllSucceeded)

private def orderly (x : Execution (Attended (B := B) J)) (clock : ∀ n, Timely (x.event n))
    (succeeded : ∀ n, (x.state n).right.session.disk.AllSucceeded) :
    Execution (Orderly (B := B) J) :=
  ⟨x.state, x.event, fun n => ⟨x.next n, clock n, succeeded (n + 1)⟩⟩

/-- The itinerary that an execution of the peers stands for. -/
private abbrev StandsFor (x : Execution (Orderly (B := B) J))
    (i : Itinerary (Known (B := B) J A)) : Prop :=
  Follows wireCode Shows (fun x => x.connection.readBuffer) idle x i

variable {clock succeeded} {i : Itinerary (Known (B := B) J A)} {due : Link B → Prop}
  {helpful : Duplex.Move Occurrence → Link B → Prop}

include sound

private theorem helps_later (fair : Fair x) (stages : ∀ n, Stage J A (i.place n))
    (stands : StandsFor (orderly x clock succeeded) i) (among : Due due helpful) (n : ℕ)
    (now : due (i.place n)) :
    ∃ m ≥ n, Helps helpful (i.place m) (i.first m :: i.rest m) := by
  have left : ∀ n, (x.state n).left.session = (i.place n).left.session :=
    fun n => (carries_sessions (stands.carries n)).1
  have right : ∀ n, (x.state n).right.session = (i.place n).right.session :=
    fun n => (carries_sessions (stands.carries n)).2
  have first : ∀ m e, x.event m = .left e → (i.first m).1 = .left e := by
    intro m e event
    have leg := (stands.moves m).leg
    rw [show (orderly x clock succeeded).event m = .left e from event] at leg
    exact (List.cons.inj leg.of_left).1
  cases among with
  | connects =>
      obtain ⟨m, later, e, event, up⟩ := fair.connects n (by rw [left]; exact now)
      exact ⟨m, later, .inl ⟨e, first m e event, up⟩⟩
  | accepts =>
      obtain ⟨m, later, accepts⟩ :=
        fair.accepts n (by rw [right]; exact now.1) (by rw [right]; exact now.2)
      refine ⟨m, later, .inl ?_⟩
      have leg := (stands.moves m).leg
      replace leg : Leg idle _ (x.event m) _ := leg
      generalize x.event m = event at accepts leg
      cases event with
      | right e =>
          rw [show (i.first m).1 = .right e from (List.cons.inj leg.of_right).1]
          exact accepts
      | left e => exact accepts.elim
      | toRight count => exact accepts.elim
      | toLeft count => exact accepts.elim
  | toRight =>
      obtain ⟨m, later, mem⟩ := stands.toRight buffers
        (fun n => ((stages n).acceptable sound).2.1) fair.toRight now
      exact ⟨m, later, helps_of_mem (fun _ => rfl) mem⟩
  | toLeft =>
      obtain ⟨m, later, mem⟩ := stands.toLeft buffers
        (fun n => ((stages n).acceptable sound).2.2) fair.toLeft now
      exact ⟨m, later, helps_of_mem (fun _ => rfl) mem⟩
  | queued =>
      obtain ⟨m, later, e, event, call⟩ := fair.queued n (by rw [left]; exact now)
      exact ⟨m, later, .inl ⟨e, first m e event, call⟩⟩
  | written =>
      obtain ⟨m, later, e, pending, room, event, told⟩ := fair.written n (by rw [left]; exact now)
      rw [left] at room
      exact ⟨m, later, .inl ⟨e, pending, room, first m e event, told⟩⟩

private theorem comes (fair : Fair x) (stages : ∀ n, Stage J A (i.place n))
    (stands : StandsFor (orderly x clock succeeded) i) (among : Due due helpful) (t : ℕ)
    (now : due (i.execution.state t)) :
    ∃ t' ≥ t, helpful (i.execution.event t') (i.execution.state t') :=
  Itinerary.comes due helpful (helps_later sound fair stages stands among)
    (fun n => (i.trail n).uncons.2.mono fun _ move _ mem known =>
      known.due sound ((stands.moves n).leg.behind move mem) among) t now

end Executions

private def read : Duplex.Move LocalEvent → Wired.Move Occurrence
  | .left e => .left ⟨e.event, event_isPacket e⟩
  | .right e => .right ⟨e.event, event_isPacket e⟩
  | .toRight => .toRight 100
  | .toLeft => .toLeft 100

private theorem acceptance_isPacket :
    (Event.acceptTransfer (QString.literal "downloads") .Skip noon).isPacket = false := rfl

private def reading (n : ℕ) : Wired.Move Occurrence :=
  let first : List (Wired.Move Occurrence) :=
    [.left ⟨.socketConnected, socketConnected_isPacket⟩, .toRight 100, .toLeft 100, .toRight 100,
      .right ⟨.acceptTransfer (QString.literal "downloads") .Skip noon, acceptance_isPacket⟩]
  first[n]?.getD (read (Link.robin (n - first.length)))

end FastTransfer.Segmented
