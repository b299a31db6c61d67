/- FastTransfer/Core/Liveness
   source: src/core/TransferSession.cpp
   digest: A transfer that is left alone on a fair network is completed at both ends. -/

import FastTransfer.Core.FlowControl
import FastTransfer.Core.Loopback
import FastTransfer.Core.Passage
import FastTransfer.Library.Execution

set_option autoImplicit false
set_option relaxedAutoImplicit false

namespace FastTransfer.TransferSession

open Protocol

variable {B : Blake3} {J : QJson}

theorem sentSince_of_send {s t : TransferSession B} (online : s.connected = true)
    {type : MessageType} {payload : QByteArray}
    (outbox : t.outbox = (s.sendPacket type payload).outbox) : sentSince s t ≠ [] := by
  rw [sentSince_eq (outbox.trans (sendPacket_outbox online type payload))]
  exact List.cons_ne_nil _ _

theorem NextChunk.moves {s t : TransferSession B} {cursor : Cursor} (h : NextChunk s t)
    (supplied : Supplied s) (place : SenderAt s cursor) : t = s ∨ sentSince s t ≠ [] := by
  have kept := (place.nextChunk (J := CompactJson.codec) supplied h).2
  cases h with
  | idle => exact .inl rfl
  | fileEnd reader active ended => exact .inr (sentSince_of_send supplied.connected rfl)
  | readFailed reader active => cases kept.trans active.transferring
  | sendFailed reader active => cases kept.trans active.transferring
  | chunk reader active => exact .inr (sentSince_of_send supplied.connected rfl)

theorem Sending.sends {s t : TransferSession B} {cursor : Cursor} (h : Sending s)
    (supplied : Supplied s) (place : SenderAt s cursor) (room : s.bytesToWrite < s.maxPending)
    (next : s.sendNextChunk = .ok t) : sentSince s t ≠ [] := by
  have kept := (place.nextChunk (J := CompactJson.codec) supplied (sendNextChunk_cases next)).2
  obtain ⟨reader, found⟩ := Option.ne_none_iff_exists'.mp h.reader
  simp only [sendNextChunk, found] at next
  split at next
  · rename_i guard
    rcases guard with other | waiting
    · exact absurd h.transferring other
    · cases h.notWaiting.symm.trans waiting
  rw [if_neg (Nat.not_le.mpr room)] at next
  split at next
  · cases next
    exact sentSince_of_send supplied.connected rfl
  split at next
  · cases next
    cases kept.trans h.transferring
  unfold sendChunk at next
  split at next
  · cases next
  split at next
  · cases next
    cases kept.trans h.transferring
  · cases next
    exact sentSince_of_send supplied.connected rfl

def Roomy (s : TransferSession B) : LocalEvent → Prop
  | .bytesWritten pending => pending < s.maxPending
  | .sendNextChunk => s.bytesToWrite < s.maxPending
  | _ => False

/-- A sender that has something to send keeps it until it sends it, and sends it where it finds
room. -/
theorem SendingAt.acts {s t : TransferSession B} {D : Delivery} {cursor : Cursor}
    {incoming : List Packet} {e : LocalEvent} (h : SendingAt J s D cursor incoming)
    (sending : Sending s) (plain : e.isControl = false) (taken : Steps J s e.event t) :
    (sentSince s t ≠ [] ∨ Sending t) ∧ (Roomy s e → sentSince s t ≠ []) := by
  have place := h.place
  cases place with
  | offered none => exact absurd none sending.reader
  | streaming place =>
  have same : ∀ u : TransferSession B, Frame s u → u.status = s.status → u.outbox = s.outbox →
      Sending u ∧ Supplied u ∧ SenderAt u cursor ∧ sentSince u t = sentSince s t := by
    intro u same status outbox
    refine ⟨⟨status.trans sending.transferring, same.connected.trans sending.connected, ?_,
      same.waitingFileAck.trans sending.notWaiting⟩,
      h.supplied.congr same.connected same.sendManifest same.chunkSize same.disk,
      place.congr same.sendManifest same.currentFileIndex same.waitingFileAck same.fileReader
        same.chunkSize (congrArg TransferMetrics.totalTransferred same.metrics) same.disk, ?_⟩
    · rw [same.fileReader]
      exact sending.reader
    · rw [sentSince, sentSince, outbox]
  constructor
  · cases local_step taken with
    | aside frame status outbox => exact .inr (same t frame status outbox).1
    | paused => cases plain
    | resumed => cases plain
    | resumedSending => cases plain
    | @next _ u _ frame status outbox next =>
        obtain ⟨sending', supplied, place', sent⟩ := same u frame status outbox
        rcases next.moves supplied place' with rfl | moved
        · exact .inr sending'
        · exact .inl (sent ▸ moved)
  · intro roomy
    cases e with
    | bytesWritten pending =>
        obtain ⟨sending', supplied, place', sent⟩ := same { s with bytesToWrite := pending }
          (by constructor <;> rfl) rfl rfl
        replace taken : onBytesTransferred { s with bytesToWrite := pending } = .ok t := taken
        rw [onBytesTransferred, if_pos ⟨h.role, sending.transferring, by
          rw [sending.notWaiting]; rfl, roomy⟩] at taken
        exact sent ▸ sending'.sends supplied place' roomy taken
    | sendNextChunk =>
        obtain ⟨sending', supplied, place', sent⟩ :=
          same { s with queuedCalls := s.queuedCalls - 1 } (by constructor <;> rfl) rfl rfl
        exact sent ▸ sending'.sends supplied place' roomy taken
    | pause => exact roomy.elim
    | resume => exact roomy.elim
    | metricsTick => exact roomy.elim
    | drain pending => exact roomy.elim

end FastTransfer.TransferSession

namespace FastTransfer.Link

open TransferSession Protocol
open Loopback (Fits)
open QString (literal)

variable {B : Blake3} {J : QJson} {D : Delivery}

/-- A delivery under way in which nothing is too long and a wake-up is due where the sender needs
one. -/
structure Places (J : QJson) (D : Delivery) (l : Link B) (ahead behind : Cursor) : Prop
    extends Passage J D l ahead behind where
  answers : ∀ p ∈ l.toLeft, p.Acceptable
  awake : Awake l.left.session

/-- How many packets and acknowledgements are still to be sent and handled. -/
def rank (D : Delivery) (ahead behind : Cursor) : Nat :=
  (D.stream.remaining ahead).length + (D.stream.remaining behind).length + ahead.unacked

def Ranked (J : QJson) (D : Delivery) (l : Link B) (r : Nat) : Prop :=
  ∃ ahead behind, Places J D l ahead behind ∧ rank D ahead behind = r

variable {d : Link B} {E : Endpoint B} {out : List Packet} {ahead behind : Cursor}

theorem Places.left {e : LocalEvent} (h : Places J D d ahead behind)
    (plain : e.isControl = false) (notified : Notified e.event)
    (acted : act J d.left e = .ok (E, out)) :
    ∃ ahead', Places J D { d with left := E, toRight := d.toRight ++ out } ahead' behind ∧
      rank D ahead' behind + out.length = rank D ahead behind := by
  obtain ⟨ahead', passage, left, unacked⟩ := h.toPassage.left plain acted
  obtain ⟨t, taken, -, rfl, -⟩ := act_ok acted
  refine ⟨ahead', ⟨passage, h.answers, step_awake h.awake notified taken⟩, ?_⟩
  rw [rank, rank, left, unacked, List.length_append]
  omega

theorem Places.right {e : LocalEvent} (h : Places J D d ahead behind)
    (plain : e.isControl = false) (acted : act J d.right e = .ok (E, out)) :
    Places J D { d with right := E, toLeft := d.toLeft ++ out } ahead behind ∧ out = [] := by
  obtain ⟨passage, rfl, -⟩ := h.toPassage.right plain acted
  refine ⟨⟨passage, ?_, h.awake⟩, rfl⟩
  rw [List.append_nil]
  exact h.answers

theorem Places.toRight {p : Packet} {rest : List Packet} (listed : D.Listed B)
    (fits : Fits D) (h : Places J D d ahead behind) (pending : d.toRight = p :: rest)
    (allowed : unobstructed d .toRight = true) (received : receive J d.right p = .ok (E, out))
    (succeeded : E.session.disk.AllSucceeded) :
    ∃ behind', Places J D { d with right := E, toRight := rest, toLeft := d.toLeft ++ out } ahead
        behind' ∧ D.stream.remaining behind = p :: D.stream.remaining behind' ∧
      rank D ahead behind' < rank D ahead behind := by
  have acceptable : p.Acceptable :=
    Loopback.toRight_acceptable fits listed h.delivering p (pending ▸ List.mem_cons_self)
  obtain ⟨behind', passage, left, -, answers⟩ :=
    h.toPassage.toRight listed pending acceptable allowed received succeeded
  refine ⟨behind', ⟨passage, fun q mem => ?_, h.awake⟩, left, ?_⟩
  · rcases List.mem_append.mp mem with earlier | new
    · exact h.answers q earlier
    · exact goodAck_acceptable (answers q new)
  · rw [rank, rank, left, List.length_cons]
    omega

theorem Places.toLeft {p : Packet} {rest : List Packet} (h : Places J D d ahead behind)
    (pending : d.toLeft = p :: rest) (received : receive J d.left p = .ok (E, out)) :
    ∃ ahead', Places J D { d with left := E, toLeft := rest, toRight := d.toRight ++ out } ahead'
        behind ∧ rank D ahead' behind < rank D ahead behind := by
  have acceptable := h.answers p (pending ▸ List.mem_cons_self)
  obtain ⟨ahead', passage, left, unacked⟩ := h.toPassage.toLeft pending acceptable received
  obtain ⟨t, taken, rfl, -⟩ := receive_heard received h.hears.1 acceptable
  refine ⟨ahead', ⟨passage, fun q mem => h.answers q (pending ▸ .tail p mem),
    step_awake h.awake (by exact trivial) taken⟩, ?_⟩
  rw [rank, rank, left, List.length_append]
  omega

/-- No user calls anything, no bytes leave the sender's buffer without a notification, and a file
that is about to start finds none at the staging path of the name it will be given. -/
def leftAlone (l : Link B) (move : Duplex.Move LocalEvent) : Bool :=
  unobstructed l move && match move with
    | .left (.drain _) => false
    | _ => true

/-- What the next step may not take away: packets under way, and a file that is being sent. -/
structure Unmoved (l l' : Link B) : Prop where
  toRight : l.toRight ≠ [] → l'.toRight ≠ []
  toLeft : l.toLeft ≠ [] → l'.toLeft ≠ []
  sending : Sending l.left.session → Sending l'.left.session

/-- The move delivers a packet, or gives a sender that has something to send room for it. -/
def Helpful (l : Link B) : Duplex.Move LocalEvent → Prop
  | .toRight => l.toRight ≠ []
  | .toLeft => l.toLeft ≠ []
  | .left e => Sending l.left.session ∧ Roomy l.left.session e
  | .right _ => False

theorem ranked_step {l l' : Link B} {move : Duplex.Move LocalEvent} {r : Nat}
    (listed : D.Listed B) (fits : Fits D) (h : Ranked J D l r) (allowed : leftAlone l move = true)
    (taken : Steps J l move l') (succeeded : l'.right.session.disk.AllSucceeded) :
    (∃ r' < r, Ranked J D l' r') ∨ Ranked J D l' r ∧ Unmoved l l' ∧ ¬ Helpful l move := by
  obtain ⟨ahead, behind, places, rfl⟩ := h
  obtain ⟨clear, notified⟩ := (Bool.and_eq_true _ _).mp allowed
  cases Duplex.Steps.moved taken with
  | @left e E out acted =>
      have plain : e.isControl = false := by simpa [unobstructed] using clear
      have told : Notified e.event := by
        cases e with
        | drain pending => cases notified
        | _ => trivial
      obtain ⟨ahead', places', falls⟩ := places.left plain told acted
      obtain ⟨t, stepped, -, rfl, rfl⟩ := act_ok acted
      by_cases sent : sentSince l.left.session t = []
      · rw [sent, List.length_nil] at falls
        refine .inr ⟨⟨ahead', behind, places', falls⟩, ⟨?_, id, fun sending => ?_⟩, ?_⟩
        · exact fun more => List.append_ne_nil_of_left_ne_nil more _
        · exact ((places.sender.acts sending plain stepped).1).resolve_left fun moved => moved sent
        · rintro ⟨sending, roomy⟩
          exact (places.sender.acts sending plain stepped).2 roomy sent
      · have some := List.length_pos_iff.mpr sent
        exact .inl ⟨_, by omega, ahead', behind, places', rfl⟩
  | @right e E out acted =>
      have plain : e.isControl = false := by simpa [unobstructed] using clear
      obtain ⟨places', rfl⟩ := places.right plain acted
      refine .inr ⟨⟨ahead, behind, places', rfl⟩, ⟨id, fun more => ?_, id⟩, id⟩
      exact List.append_ne_nil_of_left_ne_nil more _
  | toRight pending received =>
      obtain ⟨behind', places', -, falls⟩ :=
        places.toRight listed fits pending clear received succeeded
      exact .inl ⟨_, falls, ahead, behind', places', rfl⟩
  | toLeft pending received =>
      obtain ⟨ahead', places', falls⟩ := places.toLeft pending received
      exact .inl ⟨_, falls, ahead', behind, places', rfl⟩
  | noneRight none =>
      exact .inr ⟨⟨ahead, behind, places, rfl⟩, ⟨id, id, id⟩, fun more => more none⟩
  | noneLeft none =>
      exact .inr ⟨⟨ahead, behind, places, rfl⟩, ⟨id, id, id⟩, fun more => more none⟩

def Finished (l : Link B) : Prop :=
  l.left.session.status = .Completed ∧ l.right.session.status = .Completed

/-- There is no deadlock: with nothing under way and nothing to send, the transfer is over. -/
theorem Places.finished {l : Link B} (h : Places J D l ahead behind) (toRight : l.toRight = [])
    (toLeft : l.toLeft = []) (idle : ¬ Sending l.left.session) : Finished l := by
  have path := h.path
  have count := h.count
  have sender := h.sender.place
  rw [toRight, List.nil_append] at path
  rw [toLeft, List.length_nil, Nat.zero_add] at count
  have ends : ahead.ends = behind.ends := by
    rw [← D.stream.count_remaining ahead, ← D.stream.count_remaining behind, path]
  rw [toLeft] at sender
  cases sender with
  | streaming place status acks =>
  cases place with
  | between inside suffix waiting found total =>
      dsimp only [Cursor.unacked, Cursor.ends] at count ends
      omega
  | sending suffix most waiting found =>
      rcases status with ⟨running, -⟩ | ⟨-, none⟩
      · refine absurd ⟨running, h.sender.supplied.connected, ?_, waiting⟩ idle
        rw [found]
        exact Option.some_ne_none _
      · cases none
  | done =>
      rcases status with ⟨-, more⟩ | ⟨completed, -⟩
      · cases more
      · have place := h.receiver.place
        cases place with
        | @between i rest paths suffix running stored untouched gone =>
            cases rest with
            | nil => cases path
            | cons item rest => cases path
        | sending suffix running stored most found filling inside first =>
            have none := congrArg List.length path
            simp [DataStream.remaining] at none
        | done done => exact ⟨completed, done⟩

abbrev Alone (J : QJson) : Link B → Duplex.Move LocalEvent → Link B → Prop :=
  Guarded (Steps J) fun l move => leftAlone l move = true

/-- What is under way arrives, queued calls are run, and what is in the sender's buffer is written
to the network until there is room again. -/
structure Fair (x : Execution (Alone (B := B) J)) : Prop where
  toRight : ∀ n, (x.state n).toRight ≠ [] → ∃ m ≥ n, x.event m = .toRight
  toLeft : ∀ n, (x.state n).toLeft ≠ [] → ∃ m ≥ n, x.event m = .toLeft
  queued : ∀ n, 0 < (x.state n).left.session.queuedCalls →
    ∃ m ≥ n, x.event m = .left .sendNextChunk
  written : ∀ n, 0 < (x.state n).left.session.bytesToWrite →
    ∃ m ≥ n, ∃ pending < (x.state m).left.session.maxPending,
      x.event m = .left (.bytesWritten pending)

section Executions

variable {x : Execution (Alone (B := B) J)} (listed : D.Listed B) (fits : Fits D)
  (succeeded : ∀ n, (x.state n).right.session.disk.AllSucceeded)

include listed fits succeeded

private theorem falls_of_comes {r n : Nat} {hope : Link B → Prop}
    (helpful : Duplex.Move LocalEvent → Link B → Prop)
    (stays : ∀ l l', Unmoved l l' → hope l → hope l')
    (helps : ∀ l move, hope l → helpful move l → Helpful l move) (ranked : Ranked J D (x.state n) r)
    (start : hope (x.state n)) (comes : ∃ m ≥ n, helpful (x.event m) (x.state m)) :
    ∃ m ≥ n, ∃ r' < r, Ranked J D (x.state m) r' := by
  have step : ∀ k, Ranked J D (x.state k) r → (∃ r' < r, Ranked J D (x.state (k + 1)) r') ∨
      Ranked J D (x.state (k + 1)) r ∧ Unmoved (x.state k) (x.state (k + 1)) ∧
        ¬ Helpful (x.state k) (x.event k) := fun k ranked =>
    ranked_step listed fits ranked (x.next k).1 (x.next k).2 (succeeded (k + 1))
  obtain ⟨k, later, r', less, falls⟩ := x.ends
    (fun k => Ranked J D (x.state k) r ∧ hope (x.state k))
    (fun k => ∃ r' < r, Ranked J D (x.state (k + 1)) r') helpful
    (fun k kept => (step k kept.1).imp_right fun same => ⟨same.1, stays _ _ same.2.1 kept.2⟩)
    (fun k kept event => (step k kept.1).resolve_right fun same =>
      same.2.2 (helps _ _ kept.2 event))
    comes ⟨ranked, start⟩
  exact ⟨k + 1, Nat.le_succ_of_le later, r', less, falls⟩

private theorem falls_of_sending {r n : Nat} (fair : Fair x) (ranked : Ranked J D (x.state n) r)
    (sending : Sending (x.state n).left.session)
    (pending : 0 < (x.state n).left.session.bytesToWrite) :
    ∃ m ≥ n, ∃ r' < r, Ranked J D (x.state m) r' := by
  refine falls_of_comes listed fits succeeded (fun move l =>
    ∃ pending < l.left.session.maxPending, move = .left (.bytesWritten pending))
    (fun _ _ same => same.sending) ?_ ranked sending (fair.written n pending)
  rintro l _ sending ⟨pending, room, rfl⟩
  exact ⟨sending, room⟩

private theorem rank_falls {r n : Nat} (fair : Fair x) (ranked : Ranked J D (x.state n) r) :
    Finished (x.state n) ∨ ∃ m ≥ n, ∃ r' < r, Ranked J D (x.state m) r' := by
  by_cases toRight : (x.state n).toRight = []
  swap
  · refine .inr (falls_of_comes listed fits succeeded (fun move _ => move = .toRight)
      (fun _ _ same => same.toRight) ?_ ranked toRight (fair.toRight n toRight))
    rintro l _ more rfl
    exact more
  by_cases toLeft : (x.state n).toLeft = []
  swap
  · refine .inr (falls_of_comes listed fits succeeded (fun move _ => move = .toLeft)
      (fun _ _ same => same.toLeft) ?_ ranked toLeft (fair.toLeft n toLeft))
    rintro l _ more rfl
    exact more
  obtain ⟨ahead, behind, places, -⟩ := id ranked
  by_cases sending : Sending (x.state n).left.session
  swap
  · exact .inl (places.finished toRight toLeft sending)
  refine .inr ?_
  rcases places.awake.due sending with call | pending
  swap
  · exact falls_of_sending listed fits succeeded fair ranked sending pending
  -- the call comes; where it finds no room, a notification is due
  obtain ⟨m, later, event⟩ := fair.queued n call
  have stays : ∀ k, Ranked J D (x.state k) r ∧ Sending (x.state k).left.session →
      (∃ r' < r, Ranked J D (x.state (k + 1)) r') ∨
        Ranked J D (x.state (k + 1)) r ∧ Sending (x.state (k + 1)).left.session := by
    rintro k ⟨ranked, sending⟩
    exact (ranked_step listed fits ranked (x.next k).1 (x.next k).2 (succeeded (k + 1))).imp id
      fun same => ⟨same.1, same.2.1.sending sending⟩
  rcases Execution.persists _ _ stays later ⟨ranked, sending⟩ with
    ⟨k, after, r', less, ranked'⟩ | ⟨ranked', sending'⟩
  · exact ⟨k + 1, Nat.le_succ_of_le after, r', less, ranked'⟩
  by_cases room : (x.state m).left.session.bytesToWrite < (x.state m).left.session.maxPending
  · have step := ranked_step listed fits ranked' (x.next m).1 (x.next m).2 (succeeded (m + 1))
    obtain ⟨r', less, falls⟩ := step.resolve_right fun same =>
      same.2.2 (by rw [event]; exact ⟨sending', room⟩)
    exact ⟨m + 1, Nat.le_succ_of_le later, r', less, falls⟩
  · have full : 16 * 1024 * 1024 ≤ (x.state m).left.session.maxPending := Nat.le_max_right _ _
    obtain ⟨k, after, falls⟩ := falls_of_sending listed fits succeeded fair ranked' sending'
      (by omega)
    exact ⟨k, Nat.le_trans later after, falls⟩

theorem completes (fair : Fair x) {ahead behind : Cursor}
    (places : Places J D (x.state 0) ahead behind) :
    ∃ n, Finished (x.state n) ∧ ∃ r, Ranked J D (x.state n) r := by
  obtain ⟨n, -, ended⟩ := x.reaches (fun l => Finished l ∧ ∃ r, Ranked J D l r) (Ranked J D)
    (fun n r ranked => (rank_falls listed fits succeeded fair ranked).imp_left
      fun ended => ⟨ended, r, ranked⟩) ⟨ahead, behind, places, rfl⟩
  exact ⟨n, ended⟩

end Executions

/-- A transfer whose users leave it alone is completed at both ends, with every file delivered,
in whatever order a fair network and event loop take their steps. -/
theorem transfer_completes (J : QJson) {x : Execution (Alone (B := B) J)}
    (initial : Start J (x.state 0)) (sound : Deliverable (x.state 0).left.session)
    (policy : (x.state 0).right.session.duplicatePolicy = .Rename)
    (fits : Fits (delivery J (x.state 0)))
    (accepted : (acceptance J (x.state 0).right.session).Acceptable)
    (succeeded : ∀ n, (x.state n).right.session.disk.AllSucceeded) (fair : Fair x) :
    ∃ n, Finished (x.state n) ∧
      Delivered (x.state n).right.session.disk (x.state 0).right.session.sessionFolder
        ((x.state 0).left.session.sendManifest.items.map (x.state 0).left.session.content) := by
  have listed : (delivery J (x.state 0)).Listed B := sound.listed initial.offered.chunkSize
  have start := initial.delivering sound (.inl policy)
  obtain ⟨ahead, behind, passage⟩ := start.passage
  have places : Places J (delivery J (x.state 0)) (x.state 0) ahead behind := by
    refine ⟨passage, ?_, ?_⟩
    · rw [initial.toLeft]
      exact List.forall_mem_singleton.mpr accepted
    · refine .of_status initial.offered.direction ?_
      rw [initial.offered.status]
      decide
  obtain ⟨n, finished, r, ahead', behind', places', -⟩ :=
    completes listed fits succeeded fair places
  refine ⟨n, finished, ?_⟩
  have place := places'.receiver.place
  cases place with
  | between suffix running => cases running.symm.trans finished.2
  | sending suffix running => cases running.symm.trans finished.2
  | done completed stored =>
      have contents : (delivery J (x.state 0)).content = (x.state 0).left.session.content :=
        funext (delivery_content J initial.offered.chunkSize)
      have delivered := delivered_of_stored stored
      rw [contents] at delivered
      exact delivered

/-! A fair execution that is computed. -/

/-- The four moves of a transfer that is left alone, in turn; the buffer is always written out. -/
def robin (n : ℕ) : Duplex.Move LocalEvent :=
  match n % 4 with
  | 0 => .toLeft
  | 1 => .toRight
  | 2 => .left (.bytesWritten 0)
  | _ => .left .sendNextChunk

structure Resting (l : Link B) : Prop where
  status : l.left.session.status = .Completed
  bytesToWrite : l.left.session.bytesToWrite = 0
  queuedCalls : l.left.session.queuedCalls = 0
  toRight : l.toRight = []
  toLeft : l.toLeft = []

theorem Resting.act {l : Link B} (h : Resting l) {e : LocalEvent}
    (turn : e = .bytesWritten 0 ∨ e = .sendNextChunk) : act J l.left e = .ok (l.left, []) := by
  have other : l.left.session.status ≠ .Transferring := by
    rw [h.status]
    decide
  have same : step J l.left.session e.event = .ok l.left.session := by
    rcases turn with rfl | rfl
    · have buffer : { l.left.session with bytesToWrite := 0 } = l.left.session := by
        rw [← h.bytesToWrite]
      show onBytesTransferred { l.left.session with bytesToWrite := 0 } = _
      rw [buffer, onBytesTransferred, if_neg fun guard => other guard.2.1]
    · have calls : { l.left.session with queuedCalls := l.left.session.queuedCalls - 1 } =
          l.left.session := by
        have none := h.queuedCalls
        rw [none, Nat.zero_sub, ← none]
      show sendNextChunk { l.left.session with queuedCalls := l.left.session.queuedCalls - 1 } = _
      rw [calls, sendNextChunk]
      split
      · rfl
      · rw [if_pos (.inl other)]
  have nothing : sentSince l.left.session l.left.session = [] :=
    sentSince_eq (List.append_nil _).symm
  rw [Link.act, same, Except.map, nothing]

private theorem Resting.still {l : Link Blake3.vendored} (h : Resting l) (n : ℕ) :
    tryGuarded leftAlone l (robin n) = some l := by
  have own : ∀ e : LocalEvent, e = .bytesWritten 0 ∨ e = .sendNextChunk →
      tryGuarded leftAlone l (.left e) = some l := by
    intro e turn
    have allowed : leftAlone l (.left e) = true := by
      rcases turn with rfl | rfl
      · rfl
      · rfl
    have acted : (machine CompactJson.codec).act l.left e = .ok (l.left, []) := h.act turn
    rw [tryGuarded, if_pos allowed, tryStep, Duplex.step, acted, Except.map, List.append_nil]
    rfl
  unfold robin
  split
  · simp only [tryGuarded, leftAlone, unobstructed, tryStep, Duplex.step, h.toLeft]
    rfl
  · simp only [tryGuarded, leftAlone, unobstructed, tryStep, Duplex.step, h.toRight]
    rfl
  · exact own _ (.inl rfl)
  · exact own _ (.inr rfl)

private theorem tryGuarded_sound {check : Link Blake3.vendored → Duplex.Move LocalEvent → Bool}
    {l l' : Link Blake3.vendored} {move : Duplex.Move LocalEvent}
    (taken : tryGuarded check l move = some l') :
    check l move = true ∧ Steps CompactJson.codec l move l' := by
  by_cases allowed : check l move = true
  · rw [tryGuarded, if_pos allowed] at taken
    exact ⟨allowed, tryStep_sound taken⟩
  · rw [tryGuarded, if_neg allowed] at taken
    cases taken

theorem robin_comes (n turn : ℕ) : ∃ m ≥ n, robin m = robin (turn % 4) := by
  refine ⟨4 * n + turn % 4, by omega, ?_⟩
  simp only [robin, Nat.mul_add_mod_self_left]

private theorem early_succeeded (x : Execution (Alone (B := B) J)) {n m : ℕ} (later : n ≤ m)
    (succeeded : (x.state m).right.session.disk.AllSucceeded) :
    (x.state n).right.session.disk.AllSucceeded := by
  obtain ⟨k, rfl⟩ := Nat.exists_eq_add_of_le later
  induction k with
  | zero => exact succeeded
  | succ k ih =>
      refine ih (Nat.le_add_right n k) ?_
      obtain ⟨-, taken⟩ := x.next (n + k)
      rw [← Nat.add_assoc] at succeeded
      generalize x.event (n + k) = move, x.state (n + k + 1) = l' at taken succeeded
      cases Duplex.Steps.moved taken with
      | left acted => exact succeeded
      | right acted => exact act_before acted succeeded
      | toRight pending received => exact receive_before received succeeded
      | toLeft pending received => exact succeeded
      | noneRight none => exact succeeded
      | noneLeft none => exact succeeded

/-- A file of one byte is sent while the four moves take turns. -/
theorem transfer_completes_oneByte :
    let start := sending [(literal "x", [7])] 1 .Rename
    ∃ (x : Execution (Alone CompactJson.codec)) (n : ℕ), x.state 0 = start ∧
      Finished (x.state n) ∧ Delivered (x.state n).right.session.disk
        start.right.session.sessionFolder [[7]] := by
  intro start
  have computed : ((List.range 15).foldlM (fun l n => tryGuarded leftAlone l (robin n)) start).map
      (fun l => (l.left.session.status, l.left.session.bytesToWrite, l.left.session.queuedCalls,
        l.toRight.length, l.toLeft.length, decide l.right.session.disk.AllSucceeded)) =
      some (.Completed, 0, 0, 0, 0, true) := by
    decide +kernel
  obtain ⟨rest, reached, eq⟩ := Option.map_eq_some_iff.mp computed
  simp only [Prod.mk.injEq, List.length_eq_zero_iff] at eq
  obtain ⟨status, buffer, calls, toRight, toLeft, succeeded⟩ := eq
  have resting : Resting rest := ⟨status, buffer, calls, toRight, toLeft⟩
  have next := Execution.follow_next reached fun k _ => resting.still k
  let x : Execution (Alone CompactJson.codec) :=
    { state := Execution.follow (tryGuarded leftAlone) robin start
      event := robin
      next := fun n => tryGuarded_sound (next n).1 }
  have late : ∀ n, 15 ≤ n → x.state n = rest := fun n => (next n).2
  have fair : Fair x := by
    refine ⟨fun n _ => robin_comes n 1, fun n _ => robin_comes n 0, fun n _ => robin_comes n 3,
      fun n _ => ?_⟩
    obtain ⟨m, later, event⟩ := robin_comes n 2
    exact ⟨m, later, 0, Nat.lt_of_lt_of_le (by decide) (Nat.le_max_right _ _), event⟩
  have sound : Deliverable start.left.session := by decide +kernel
  have fits : Fits (delivery CompactJson.codec start) := by
    refine ⟨fun item mem i => .inl ?_, by decide +kernel⟩
    cases List.mem_singleton.mp mem
    show (serializeFileStart _).length ≤ _
    simp only [serializeFileStart, List.length_append, QDataStream.writeString_length,
      QDataStream.writeU64_length]
    decide
  have accepted : (acceptance CompactJson.codec start.right.session).Acceptable := by
    decide +kernel
  obtain ⟨n, finished, delivered⟩ := transfer_completes CompactJson.codec (x := x)
    (start_accepted ..) sound rfl fits accepted (fun n => early_succeeded x (Nat.le_max_left n 15)
      (by rw [late _ (Nat.le_max_right n 15)]; exact of_decide_eq_true succeeded)) fair
  exact ⟨x, n, rfl, finished, delivered⟩

end FastTransfer.Link
