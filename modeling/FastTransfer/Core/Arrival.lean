/- FastTransfer/Core/Arrival
   source: src/core/TransferSession.cpp
   digest: An encounter that nobody disturbs arrives at the acceptance of the offer. -/

import FastTransfer.Core.FlowControl
import FastTransfer.Core.Footprint
import FastTransfer.Core.Handshake
import FastTransfer.Core.Passage
import FastTransfer.Library.Execution

set_option autoImplicit false
set_option relaxedAutoImplicit false

namespace FastTransfer.Encounter

open TransferSession Protocol

variable {B : Blake3} {J : QJson} {A : Approach}

/-- The network brings the connection up, the receiving user accepts the offer that is shown, and
no user does anything else. -/
def attended (l : Link B) : Duplex.Move Occurrence → Bool
  | .left e =>
      match e.val with
      | .socketConnected => l.left.session.status = .Connecting
      | .bytesWritten _ | .sendNextChunk | .metricsTick => true
      | _ => false
  | .right e =>
      match e.val with
      | .acceptTransfer _ _ _ =>
          l.right.session.receivedOffer.isSome && l.right.session.status = .WaitingApproval
      | .bytesWritten _ | .sendNextChunk | .metricsTick | .drain _ => true
      | _ => false
  | .toRight | .toLeft => true

def Accepts : Duplex.Move Occurrence → Prop
  | .right e => ∃ baseOutputDir policy timestamp,
      e.val = .acceptTransfer baseOutputDir policy timestamp
  | _ => False

abbrev Attended (J : QJson) : Link B → Duplex.Move Occurrence → Link B → Prop :=
  Guarded (Steps J) fun l move => attended l move = true

def own (e : Occurrence) : LocalEvent :=
  match e.val with
  | .bytesWritten pending => .bytesWritten pending
  | .drain pending => .drain pending
  | .sendNextChunk => .sendNextChunk
  | _ => .metricsTick

theorem own_plain (e : Occurrence) : (own e).isControl = false := by
  unfold own
  split <;> rfl

theorem attended_left {l : Link B} {e : Occurrence} (allowed : attended l (.left e) = true) :
    e.val = .socketConnected ∧ l.left.session.status = .Connecting ∨
      e.val = (own e).event ∧ Notified (own e).event := by
  obtain ⟨e, other⟩ := e
  cases e with
  | socketConnected => exact .inl ⟨rfl, of_decide_eq_true allowed⟩
  | bytesWritten pending => exact .inr ⟨rfl, trivial⟩
  | sendNextChunk => exact .inr ⟨rfl, trivial⟩
  | metricsTick => exact .inr ⟨rfl, trivial⟩
  | _ => cases allowed

theorem attended_right {l : Link B} {e : Occurrence} (allowed : attended l (.right e) = true) :
    Accepts (.right e) ∧ l.right.session.receivedOffer.isSome = true ∧
        l.right.session.status = .WaitingApproval ∨ e.val = (own e).event := by
  obtain ⟨e, other⟩ := e
  cases e with
  | acceptTransfer baseOutputDir policy timestamp =>
      obtain ⟨shown, status⟩ := (Bool.and_eq_true _ _).mp allowed
      exact .inl ⟨⟨_, _, _, rfl⟩, shown, of_decide_eq_true status⟩
  | bytesWritten pending => exact .inr rfl
  | sendNextChunk => exact .inr rfl
  | metricsTick => exact .inr rfl
  | drain pending => exact .inr rfl
  | _ => cases allowed

theorem calm_own (s : TransferSession B) (e : LocalEvent) : calm s e.event = true := by
  cases e <;> rfl

/-- The messages of the encounter are within the size limit. -/
structure Approach.Concise (J : QJson) (A : Approach) : Prop where
  greeting : Packet.Acceptable ⟨.HandshakeReq, 0, serializeHandshakeReq J A.greeting⟩
  answer : Packet.Acceptable ⟨.HandshakeResp, 0, serializeHandshakeResp J answer⟩
  acceptance : Packet.Acceptable
    ⟨.TransferAccept, 0, serializeTransferAccept J ⟨A.transferId, [], true, 0, 0⟩⟩

/-- The sessions of a link on their way to the acceptance, of which neither is deaf. -/
structure Arriving (J : QJson) (A : Approach) (l : Link B) : Prop where
  approaching : Approaching J A l
  hears : l.left.deaf = false ∧ l.right.deaf = false
  unnamed : l.right.session.sessionSubfolder = []
  unshown : l.right.session.receivedOffer = none → l.right.session.status ≠ .WaitingApproval

/-- How many packets are still to be delivered before the offer is shown, and one more while the
connection is not up. -/
def distance (l : Link B) : Nat :=
  match l.left.session.status with
  | .Connecting => 4
  | .Handshaking => 2 + l.toRight.length
  | _ => l.toRight.length

/-- The move brings the connection up or delivers a packet. -/
def Onward (l : Link B) : Duplex.Move Occurrence → Prop
  | .left e => e.val = .socketConnected
  | .right _ => False
  | .toRight => l.toRight ≠ []
  | .toLeft => l.toLeft ≠ []

theorem arriving_start (J : QJson) (A : Approach) : Arriving J A (A.start B) :=
  ⟨approaching_start J A, ⟨rfl, rfl⟩, rfl, fun _ => TransferStatus.noConfusion⟩

namespace Arriving

variable {d : Link B} {E : Endpoint B} {out : List Packet}

theorem phase (h : Arriving J A d) (admissible : A.offer.Admissible) :
    Phase J A d.left.session d.right.session d.toRight d.toLeft := by
  rcases h.approaching.state with ⟨-, phase⟩ | stuck
  · exact phase
  · rcases stuck.reason with deaf | deaf | unread
    · cases h.hears.1.symm.trans deaf
    · cases h.hears.2.symm.trans deaf
    · cases (parseTransferOffer_serialize admissible).symm.trans unread

theorem unaccepted (h : Arriving J A d) (admissible : A.offer.Admissible)
    (before : 0 < distance d) : d.right.session.receivedOffer = none := by
  have phase := h.phase admissible
  unfold distance at before
  cases phase with
  | connecting _ _ none => exact none
  | requested _ _ none => exact none
  | answered _ _ none => exact none
  | offered _ _ none => exact none
  | waiting status _ _ _ _ _ flight =>
      rw [status, flight.1] at before
      cases before

theorem acceptable (h : Arriving J A d) (admissible : A.offer.Admissible)
    (concise : A.Concise J) : (∀ p ∈ d.toRight, p.Acceptable) ∧ ∀ p ∈ d.toLeft, p.Acceptable := by
  have phase := h.phase admissible
  have offer : Packet.Acceptable ⟨.TransferOffer, 0, serializeTransferOffer A.offer⟩ :=
    .inl admissible.size
  cases phase with
  | connecting _ _ _ flight =>
      rw [flight.1, flight.2]
      exact ⟨List.forall_mem_nil _, List.forall_mem_nil _⟩
  | requested _ _ _ flight =>
      rw [flight.1, flight.2]
      exact ⟨List.forall_mem_singleton.mpr concise.greeting, List.forall_mem_nil _⟩
  | answered _ _ _ flight =>
      rw [flight.1, flight.2]
      exact ⟨List.forall_mem_nil _, List.forall_mem_singleton.mpr concise.answer⟩
  | offered _ _ _ flight =>
      rw [flight.1, flight.2]
      exact ⟨List.forall_mem_singleton.mpr offer, List.forall_mem_nil _⟩
  | waiting _ _ _ _ _ _ flight =>
      rw [flight.1, flight.2]
      exact ⟨List.forall_mem_nil _, List.forall_mem_nil _⟩

theorem left {e : Occurrence} (h : Arriving J A d) (admissible : A.offer.Admissible)
    (allowed : attended d (.left e) = true) (acted : act J d.left e = .ok (E, out)) :
    Arriving J A { d with left := E, toRight := d.toRight ++ out } ∧
      (distance { d with left := E, toRight := d.toRight ++ out } < distance d ∨
        distance { d with left := E, toRight := d.toRight ++ out } = distance d ∧
          e.val ≠ .socketConnected) := by
  have phase := h.phase admissible
  have caller := h.approaching.caller
  have approaching := h.approaching
  rcases attended_left allowed with ⟨up, status⟩ | ⟨local', -⟩
  · have arrived := approaching.left (by rw [up, calm, status]; rfl) acted
    obtain ⟨t, taken, rfl, rfl⟩ := act_ok acted
    rw [up] at taken
    have same : t = onSocketConnected J d.left.session := by
      rw [← Except.ok.inj taken, if_pos caller.ownsConnection]
    obtain ⟨-, status', -, sent⟩ := caller.connected (J := J)
    rw [← same] at status' sent
    refine ⟨⟨arrived, h.hears, h.unnamed, h.unshown⟩, .inl ?_⟩
    cases phase with
    | connecting _ _ _ flight => simp [distance, status, status', flight.1, sent]
    | requested other => cases status.symm.trans other
    | answered other => cases status.symm.trans other
    | offered other => cases status.symm.trans other
    | waiting other => cases status.symm.trans other
  · have allowed : calm d.left.session e.val = true := by
      rw [local']
      exact calm_own _ _
    have other : e.val ≠ .socketConnected := by
      rw [local']
      cases own e <;> exact Event.noConfusion
    have arrived := approaching.left allowed acted
    obtain ⟨t, taken, rfl, rfl⟩ := act_ok acted
    have waited := waited_calm phase.status caller.fileReader e.property allowed
      (fun up => absurd up other) taken
    refine ⟨⟨arrived, h.hears, h.unnamed, h.unshown⟩, .inr ⟨?_, other⟩⟩
    rw [waited.sent, List.append_nil]
    obtain ⟨_, _, _, _, _, rfl⟩ := waited
    rfl

theorem right {e : Occurrence} (h : Arriving J A d) (local' : e.val = (own e).event)
    (acted : act J d.right e = .ok (E, out)) :
    Arriving J A { d with right := E, toLeft := d.toLeft ++ out } ∧
      distance { d with right := E, toLeft := d.toLeft ++ out } = distance d := by
  have allowed : calm d.right.session e.val = true := by
    rw [local']
    exact calm_own _ _
  have arrived := h.approaching.right allowed acted
  obtain ⟨t, taken, rfl, rfl⟩ := act_ok acted
  have other : e.val ≠ .socketConnected := by
    rw [local']
    cases own e <;> exact Event.noConfusion
  have callee := h.approaching.callee
  have waited := waited_calm callee.status callee.fileReader e.property allowed
    (fun up => absurd up other) taken
  refine ⟨⟨arrived, h.hears, ?_, ?_⟩, rfl⟩
  · exact ((local_step (e := own e) (local' ▸ taken)).idle (own_plain e)
      callee.fileReader).1.sessionSubfolder.trans h.unnamed
  · obtain ⟨_, _, _, _, _, rfl⟩ := waited
    exact h.unshown

private theorem shows_handled {s t : TransferSession B} {p : Packet}
    (before : s.receivedOffer = none → s.status ≠ .WaitingApproval)
    (greeting : p.type = .HandshakeReq ∨ p.type = .TransferOffer)
    (taken : TransferSession.Steps J s (.packet p) t) :
    t.receivedOffer = none → t.status ≠ .WaitingApproval := by
  obtain ⟨type, flags, payload⟩ := p
  rcases greeting with rfl | rfl
  · rw [← Except.ok.inj taken]
    show (onHandshakeReq J s payload).receivedOffer = none →
      (onHandshakeReq J s payload).status ≠ .WaitingApproval
    unfold onHandshakeReq
    split
    · exact before
    · exact fun _ => TransferStatus.noConfusion
  · rw [← Except.ok.inj taken]
    show (onTransferOffer s payload).receivedOffer = none →
      (onTransferOffer s payload).status ≠ .WaitingApproval
    unfold onTransferOffer
    split
    · exact before
    · rintro ⟨⟩

theorem toRight {p : Packet} {rest : List Packet} (h : Arriving J A d)
    (admissible : A.offer.Admissible) (concise : A.Concise J) (pending : d.toRight = p :: rest)
    (received : Link.receive J d.right p = .ok (E, out)) :
    Arriving J A { d with right := E, toRight := rest, toLeft := d.toLeft ++ out } ∧
      distance { d with right := E, toRight := rest, toLeft := d.toLeft ++ out } < distance d := by
  have arrived := h.approaching.toRight pending received
  have small := (h.acceptable admissible concise).1 p (pending ▸ List.mem_cons_self)
  obtain ⟨t, taken, rfl, rfl⟩ := Link.receive_heard received h.hears.2 small
  have comes : (p.type = .HandshakeReq ∨ p.type = .TransferOffer) ∧
      distance { d with
        right := { d.right with session := t, handled := d.right.handled ++ [p] }
        toRight := rest, toLeft := d.toLeft ++ sentSince d.right.session t } < distance d := by
    cases h.phase admissible with
    | requested status _ _ flight =>
        rw [(List.cons.inj (pending.symm.trans flight.1)).1]
        exact ⟨.inl rfl, by simp [distance, status, pending]⟩
    | offered status _ _ flight =>
        rw [(List.cons.inj (pending.symm.trans flight.1)).1]
        exact ⟨.inr rfl, by simp [distance, status, pending]⟩
    | connecting _ _ _ flight => cases pending.symm.trans flight.1
    | answered _ _ _ flight => cases pending.symm.trans flight.1
    | waiting _ _ _ _ _ _ flight => cases pending.symm.trans flight.1
  exact ⟨⟨arrived, h.hears, (packet_output taken).sessionSubfolder.trans h.unnamed,
    shows_handled h.unshown comes.1 taken⟩, comes.2⟩

theorem toLeft {p : Packet} {rest : List Packet} (h : Arriving J A d)
    (admissible : A.offer.Admissible) (concise : A.Concise J) (pending : d.toLeft = p :: rest)
    (received : Link.receive J d.left p = .ok (E, out)) :
    Arriving J A { d with left := E, toLeft := rest, toRight := d.toRight ++ out } ∧
      distance { d with left := E, toLeft := rest, toRight := d.toRight ++ out } < distance d := by
  have arrived := h.approaching.toLeft pending received
  have small := (h.acceptable admissible concise).2 p (pending ▸ List.mem_cons_self)
  obtain ⟨t, taken, rfl, rfl⟩ := Link.receive_heard received h.hears.1 small
  refine ⟨⟨arrived, h.hears, h.unnamed, h.unshown⟩, ?_⟩
  cases h.phase admissible with
  | answered status connected none flight =>
      obtain ⟨ahead, one⟩ := flight
      obtain ⟨rfl, rfl⟩ := List.cons.inj (pending.symm.trans one)
      obtain ⟨-, waits, -, sent⟩ := h.approaching.caller.answered connected.1 rfl taken
      simp [distance, status, waits, sent, ahead]
  | connecting _ _ _ flight => cases pending.symm.trans flight.2
  | requested _ _ _ flight => cases pending.symm.trans flight.2
  | offered _ _ _ flight => cases pending.symm.trans flight.2
  | waiting _ _ _ _ _ _ flight => cases pending.symm.trans flight.2

theorem step {l l' : Link B} {move : Duplex.Move Occurrence} (h : Arriving J A l)
    (admissible : A.offer.Admissible) (concise : A.Concise J) (allowed : attended l move = true)
    (other : ¬ Accepts move) (taken : Steps J l move l') :
    Arriving J A l' ∧ (distance l' < distance l ∨ distance l' = distance l ∧ ¬ Onward l move) := by
  cases Duplex.Steps.moved taken with
  | left acted => exact h.left admissible allowed acted
  | @right e E out acted =>
      have local' := (attended_right allowed).resolve_left fun accepts => other accepts.1
      obtain ⟨arrived, same⟩ := h.right local' acted
      exact ⟨arrived, .inr ⟨same, id⟩⟩
  | toRight pending received =>
      obtain ⟨arrived, nearer⟩ := h.toRight admissible concise pending received
      exact ⟨arrived, .inl nearer⟩
  | toLeft pending received =>
      obtain ⟨arrived, nearer⟩ := h.toLeft admissible concise pending received
      exact ⟨arrived, .inl nearer⟩
  | noneRight none => exact ⟨h, .inr ⟨rfl, fun more => more none⟩⟩
  | noneLeft none => exact ⟨h, .inr ⟨rfl, fun more => more none⟩⟩

end Arriving

/-- What is under way arrives, the connection comes up, the offer that is shown is accepted,
queued calls are run, and what is in the sender's buffer is written to the network until there is
room again. -/
structure Fair (x : Execution (Attended (B := B) J)) : Prop where
  connects : ∀ n, (x.state n).left.session.status = .Connecting →
    ∃ m ≥ n, ∃ e : Occurrence, x.event m = .left e ∧ e.val = .socketConnected
  accepts : ∀ n, (x.state n).right.session.receivedOffer.isSome = true →
    (x.state n).right.session.status = .WaitingApproval → ∃ m ≥ n, Accepts (x.event m)
  toRight : ∀ n, (x.state n).toRight ≠ [] → ∃ m ≥ n, x.event m = .toRight
  toLeft : ∀ n, (x.state n).toLeft ≠ [] → ∃ m ≥ n, x.event m = .toLeft
  queued : ∀ n, 0 < (x.state n).left.session.queuedCalls →
    ∃ m ≥ n, ∃ e : Occurrence, x.event m = .left e ∧ e.val = .sendNextChunk
  written : ∀ n, 0 < (x.state n).left.session.bytesToWrite → ∃ m ≥ n, ∃ e : Occurrence,
    ∃ pending < (x.state m).left.session.maxPending,
      x.event m = .left e ∧ e.val = .bytesWritten pending

section Executions

variable {x : Execution (Attended (B := B) J)}

def expected (r : Nat) (move : Duplex.Move Occurrence) : Prop :=
  r = 4 ∧ (∃ e : Occurrence, move = .left e ∧ e.val = .socketConnected) ∨
    r ≠ 4 ∧ r ≠ 2 ∧ move = .toRight ∨ r = 2 ∧ move = .toLeft

theorem Arriving.comes {n : ℕ} (h : Arriving J A (x.state n)) (admissible : A.offer.Admissible)
    (fair : Fair x) (before : 0 < distance (x.state n)) :
    ∃ m ≥ n, expected (distance (x.state n)) (x.event m) := by
  cases h.phase admissible with
  | connecting status =>
      obtain ⟨m, later, up⟩ := fair.connects n status
      refine ⟨m, later, .inl ⟨?_, up⟩⟩
      rw [distance, status]
  | requested status _ _ flight =>
      obtain ⟨m, later, event⟩ := fair.toRight n (by rw [flight.1]; exact List.cons_ne_nil _ _)
      refine ⟨m, later, .inr (.inl ?_)⟩
      simp [distance, status, flight.1, event]
  | answered status _ _ flight =>
      obtain ⟨m, later, event⟩ := fair.toLeft n (by rw [flight.2]; exact List.cons_ne_nil _ _)
      refine ⟨m, later, .inr (.inr ⟨?_, event⟩)⟩
      simp [distance, status, flight.1]
  | offered status _ _ flight =>
      obtain ⟨m, later, event⟩ := fair.toRight n (by rw [flight.1]; exact List.cons_ne_nil _ _)
      refine ⟨m, later, .inr (.inl ?_)⟩
      simp [distance, status, flight.1, event]
  | waiting status _ _ _ _ _ flight =>
      rw [distance, status, flight.1] at before
      cases before

theorem Arriving.onward {l : Link B} {move : Duplex.Move Occurrence} (h : Arriving J A l)
    (admissible : A.offer.Admissible) (before : 0 < distance l)
    (next : expected (distance l) move) : Onward l move := by
  rcases next with ⟨-, e, rfl, up⟩ | ⟨away, apart, rfl⟩ | ⟨two, rfl⟩
  · exact up
  · cases h.phase admissible with
    | connecting status => simp [distance, status] at away
    | requested _ _ _ flight => simp [Onward, flight.1]
    | answered status _ _ flight => simp [distance, status, flight.1] at apart
    | offered _ _ _ flight => simp [Onward, flight.1]
    | waiting status _ _ _ _ _ flight => simp [distance, status, flight.1] at before
  · cases h.phase admissible with
    | connecting status => simp [distance, status] at two
    | requested status _ _ flight => simp [distance, status, flight.1] at two
    | answered _ _ _ flight => simp [Onward, flight.2]
    | offered status _ _ flight => simp [distance, status, flight.1] at two
    | waiting status _ _ _ _ _ flight => simp [distance, status, flight.1] at before

variable (admissible : A.offer.Admissible) (concise : A.Concise J)

include admissible

private theorem not_accepts {k : ℕ} (h : Arriving J A (x.state k))
    (before : 0 < distance (x.state k)) : ¬ Accepts (x.event k) := by
  intro accepts
  have allowed := (x.next k).1
  have none := h.unaccepted admissible before
  generalize x.event k = move at accepts allowed
  cases move with
  | right e =>
      obtain ⟨_, _, _, eq⟩ := accepts
      rw [attended, eq, none] at allowed
      cases allowed
  | left e => exact accepts
  | toRight => exact accepts
  | toLeft => exact accepts

include concise

private theorem moves {k : ℕ} (h : Arriving J A (x.state k)) (other : ¬ Accepts (x.event k)) :
    Arriving J A (x.state (k + 1)) ∧ (distance (x.state (k + 1)) < distance (x.state k) ∨
      distance (x.state (k + 1)) = distance (x.state k) ∧ ¬ Onward (x.state k) (x.event k)) :=
  h.step admissible concise (x.next k).1 other (x.next k).2

private theorem nearer (fair : Fair x) {n r : ℕ}
    (h : Arriving J A (x.state n) ∧ distance (x.state n) = r) :
    (Arriving J A (x.state n) ∧ distance (x.state n) = 0) ∨
      ∃ m ≥ n, ∃ r' < r, Arriving J A (x.state m) ∧ distance (x.state m) = r' := by
  obtain ⟨h, rfl⟩ := h
  rcases Nat.eq_zero_or_pos (distance (x.state n)) with zero | before
  · exact .inl ⟨h, zero⟩
  let kept k := Arriving J A (x.state k) ∧ distance (x.state k) = distance (x.state n)
  let falls k := ∃ r' < distance (x.state n),
    Arriving J A (x.state (k + 1)) ∧ distance (x.state (k + 1)) = r'
  have stays : ∀ k, kept k → falls k ∨ kept (k + 1) := by
    rintro k ⟨h', same⟩
    have early := not_accepts admissible h' (same ▸ before)
    obtain ⟨arrived, less | ⟨still, -⟩⟩ := moves admissible concise h' early
    · exact .inl ⟨_, same ▸ less, arrived, rfl⟩
    · exact .inr ⟨arrived, still.trans same⟩
  have helps : ∀ k, kept k → expected (distance (x.state n)) (x.event k) → falls k := by
    rintro k ⟨h', same⟩ next
    have early := not_accepts admissible h' (same ▸ before)
    obtain ⟨arrived, less | ⟨-, idle⟩⟩ := moves admissible concise h' early
    · exact ⟨_, same ▸ less, arrived, rfl⟩
    · exact absurd (h'.onward admissible (same ▸ before) (same ▸ next)) idle
  obtain ⟨k, later, r', less, arrived⟩ := x.ends kept falls
    (fun move _ => expected (distance (x.state n)) move) stays helps
    (h.comes admissible fair before) ⟨h, rfl⟩
  exact .inr ⟨k + 1, Nat.le_succ_of_le later, r', less, arrived⟩

theorem arrives (fair : Fair x) (start : Arriving J A (x.state 0)) :
    ∃ n, Arriving J A (x.state n) ∧ Accepts (x.event n) := by
  obtain ⟨n, -, arrived, shown⟩ := x.reaches
    (fun l => Arriving J A l ∧ distance l = 0) (fun l r => Arriving J A l ∧ distance l = r)
    (fun n r => nearer admissible concise fair) ⟨start, rfl⟩
  have comes : ∃ m ≥ n, Accepts (x.event m) := by
    have phase := arrived.phase admissible
    unfold distance at shown
    cases phase with
    | connecting status => simp [status] at shown
    | requested status => simp [status] at shown
    | answered status => simp [status] at shown
    | offered status _ _ flight => simp [status, flight.1] at shown
    | waiting _ _ received waits =>
        exact fair.accepts n (by rw [received]; rfl) waits
  let kept k := Arriving J A (x.state k) ∧ distance (x.state k) = 0
  have stays : ∀ k, kept k → (Arriving J A (x.state k) ∧ Accepts (x.event k)) ∨ kept (k + 1) := by
    rintro k ⟨h, zero⟩
    by_cases accepts : Accepts (x.event k)
    · exact .inl ⟨h, accepts⟩
    · obtain ⟨arrived, less⟩ := moves admissible concise h accepts
      exact .inr ⟨arrived, by omega⟩
  obtain ⟨k, -, answered⟩ := x.ends kept _ (fun move _ => Accepts move) stays
    (fun k h accepts => ⟨h.1, accepts⟩) comes ⟨arrived, shown⟩
  exact ⟨k, answered⟩

end Executions

end FastTransfer.Encounter
