/- FastTransfer/Core/Exchange
   source: src/core/TransferManager.cpp, src/core/TransferSession.cpp, src/database/Database.cpp
   digest: Two managers, from the file that is chosen to the two entries in their histories. -/

import FastTransfer.Core.Journey
import FastTransfer.Core.Station

set_option autoImplicit false
set_option relaxedAutoImplicit false

namespace FastTransfer.Encounter

open TransferSession Protocol

variable {B : Blake3} {J : QJson} {A : Approach}

theorem Stage.offered {l : Link B} (h : Stage J A l) (sound : A.Sound J B) {p : Packet}
    {rest : List Packet} (pending : l.toRight = p :: rest) {offer : MsgTransferOffer}
    (offers : Offers (.packet p) offer) : offer = A.offer := by
  obtain ⟨flags, payload, eq, parsed⟩ := offers
  have type : p.type = .TransferOffer := by
    cases eq
    rfl
  rcases h with arriving | ⟨D, ⟨ahead, behind, under⟩, -⟩
  · cases arriving.phase sound.admissible with
    | offered _ _ _ flight =>
        obtain ⟨rfl, -⟩ := List.cons.inj (pending.symm.trans flight.1)
        cases eq
        cases (parseTransferOffer_serialize sound.admissible).symm.trans parsed
        rfl
    | requested _ _ _ flight =>
        rw [(List.cons.inj (pending.symm.trans flight.1)).1] at type
        cases type
    | connecting _ _ _ flight => cases pending.symm.trans flight.1
    | answered _ _ _ flight => cases pending.symm.trans flight.1
    | waiting _ _ _ _ _ _ flight => cases pending.symm.trans flight.1
  · have path := under.places.toPassage.path
    rw [show l.asRename.toRight = _ from pending, List.cons_append] at path
    have among := D.stream.next_type path.symm
    rw [type] at among
    exact absurd among (by decide)

/-- A session that shows an offer all at once has just taken the one that the approach brings. -/
theorem Arriving.shown {l l' : Link B} {move : Duplex.Move Occurrence} (h : Arriving J A l)
    (sound : A.Sound J B) (allowed : attended l move = true) (other : ¬ Accepts move)
    (taken : Steps J l move l') (before : l.right.session.receivedOffer = none)
    (after : l'.right.session.receivedOffer ≠ none) :
    ∃ e, TransferSession.Steps J l.right.session e l'.right.session ∧ Offers e A.offer := by
  cases Duplex.Steps.moved taken with
  | left acted => exact absurd before after
  | toLeft pending received => exact absurd before after
  | noneRight => exact absurd before after
  | noneLeft => exact absurd before after
  | @right e E out acted =>
      have local' := (attended_right allowed).resolve_left fun accepts => other accepts.1
      have callee := h.approaching.callee
      obtain ⟨t, stepped, rfl, -⟩ := act_ok acted
      have calm' : calm l.right.session e.val = true := by
        rw [local']
        exact calm_own _ _
      obtain ⟨_, _, _, _, _, rfl⟩ := waited_calm callee.status callee.fileReader e.property calm'
        (fun up => absurd up (by rw [local']; cases own e <;> exact Event.noConfusion)) stepped
      exact absurd before after
  | @toRight p rest E out pending received =>
      have small := (h.acceptable sound.admissible sound.concise).1 p
        (pending ▸ List.mem_cons_self)
      obtain ⟨t, stepped, rfl, -⟩ := Link.receive_heard received h.hears.2 small
      cases h.phase sound.admissible with
      | offered _ _ _ flight =>
          obtain ⟨rfl, -⟩ := List.cons.inj (pending.symm.trans flight.1)
          exact ⟨_, stepped, _, _, rfl, parseTransferOffer_serialize sound.admissible⟩
      | requested _ _ _ flight =>
          obtain ⟨rfl, -⟩ := List.cons.inj (pending.symm.trans flight.1)
          have same : t = onHandshakeReq J l.right.session _ := (Except.ok.inj stepped).symm
          have kept : t.receivedOffer = l.right.session.receivedOffer := by
            rw [same]
            unfold onHandshakeReq
            split <;> rfl
          exact absurd (kept.trans before) after
      | connecting _ _ _ flight => cases pending.symm.trans flight.1
      | answered _ _ _ flight => cases pending.symm.trans flight.1
      | waiting _ _ _ _ _ _ flight => cases pending.symm.trans flight.1

/-- How a session fares at one end of a link, the packets on the way to it being given. -/
def Fares (J : QJson) (incoming : List Packet) (s t : TransferSession B) : Prop :=
  t = s ∨ t = s.refuse ∨ ∃ e, TransferSession.Steps J s e t ∧
    ∀ p, e = .packet p → ∃ rest, incoming = p :: rest

theorem step_fares {l l' : Link B} {move : Duplex.Move Occurrence} (taken : Steps J l move l') :
    Fares J l.toLeft l.left.session l'.left.session ∧
      Fares J l.toRight l.right.session l'.right.session := by
  have acts : ∀ {E E' : Endpoint B} {e : Occurrence} {out incoming : List Packet},
      act J E e = .ok (E', out) → Fares J incoming E.session E'.session := by
    intro E E' e out incoming acted
    obtain ⟨t, stepped, rfl, -⟩ := act_ok acted
    refine .inr (.inr ⟨e.val, stepped, fun p eq => ?_⟩)
    have other := e.property
    rw [eq] at other
    cases other
  have receives : ∀ {E E' : Endpoint B} {p : Packet} {rest out incoming : List Packet},
      incoming = p :: rest → Link.receive J E p = .ok (E', out) →
      Fares J incoming E.session E'.session := by
    intro E E' p rest out incoming pending received
    rcases Link.receive_ok received with ⟨-, rfl, -⟩ | ⟨-, -, t, stepped, rfl, -⟩
    · exact .inr (.inl rfl)
    · refine .inr (.inr ⟨_, stepped, fun q eq => ⟨rest, ?_⟩⟩)
      cases eq
      exact pending
  cases Duplex.Steps.moved taken with
  | left acted => exact ⟨acts acted, .inl rfl⟩
  | right acted => exact ⟨.inl rfl, acts acted⟩
  | toRight pending received => exact ⟨.inl rfl, receives pending received⟩
  | toLeft pending received => exact ⟨receives pending received, .inl rfl⟩
  | noneRight => exact ⟨.inl rfl, .inl rfl⟩
  | noneLeft => exact ⟨.inl rfl, .inl rfl⟩

end FastTransfer.Encounter

namespace FastTransfer

open Protocol
open TransferSession (Offers)

/-- Two managers joined by the connection of their sessions. The left one is sending. -/
abbrev Exchange (B : Blake3) := Duplex (Station B) Packet

namespace Exchange

open Encounter (Approach Stage)

variable {B : Blake3} {J : QJson} {A : Approach}

def machine (J : QJson) : Machine (Station B) Incident Packet Crash :=
  ⟨Station.act J, Station.receive J⟩

def Steps (J : QJson) : Exchange B → Duplex.Move Incident → Exchange B → Prop :=
  Duplex.Steps (machine J)

def link (c : Exchange B) : Link B where
  left := c.left.endpoint
  right := c.right.endpoint
  toRight := c.toRight
  toLeft := c.toLeft

/-- The network brings the connection up, and the receiving user accepts the offer that is shown.
Settings may change and time passes; neither user does anything else. -/
def attended (c : Exchange B) : Duplex.Move Incident → Bool
  | .left i =>
      c.left.kind i && (c.left.occurrence i).all fun e => Encounter.attended (link c) (.left e)
  | .right i =>
      c.right.kind i && (c.right.occurrence i).all fun e => Encounter.attended (link c) (.right e)
  | .toRight | .toLeft => true

abbrev Attended (J : QJson) : Exchange B → Duplex.Move Incident → Exchange B → Prop :=
  Guarded (Steps J) fun c move => attended c move = true

def Timely : Duplex.Move Incident → Prop
  | .left (.clock now) | .right (.clock now) => Timestamp now
  | _ => True

/-! Every step is at most two steps of the sessions: an offer that is accepted without being asked
is one that is shown and accepted. -/

def idle (c : Exchange B) : Duplex.Move Occurrence :=
  .right ⟨.drain c.right.session.bytesToWrite, rfl⟩

/-- What a move is to the sessions at first. -/
def finer (c : Exchange B) : Duplex.Move Incident → Duplex.Move Occurrence
  | .left i => ((c.left.occurrence i).map .left).getD (idle c)
  | .right i => ((c.right.occurrence i).map .right).getD (idle c)
  | .toRight => .toRight
  | .toLeft => .toLeft

structure Ready (c : Exchange B) : Prop where
  left : c.left.Busy
  right : c.right.Busy
  time : Timestamp c.right.now

structure Fine (J : QJson) (c : Exchange B) (move : Duplex.Move Occurrence) (c' : Exchange B) :
    Prop where
  attended : Encounter.Attended J (link c) move (link c')
  timely : Encounter.Timely move
  left : c.left.Notes c'.left
  right : c.right.Notes c'.right
  ready : Ready c'

def Settles (mid : Exchange B) (second : Duplex.Move Occurrence) (c' : Exchange B) : Prop :=
  second = idle mid ∧ c' = mid ∨
    Encounter.Accepts second ∧ c'.left = mid.left ∧ c'.toRight = mid.toRight ∧
      c'.right.session.disk = mid.right.session.disk ∧ ∃ out, c'.toLeft = mid.toLeft ++ out

variable {c c' : Exchange B}

theorem Fine.idle (ready : Ready c') (same : link c' = link c)
    (left : c'.left.manager.database = c.left.manager.database)
    (right : c'.right.manager.database = c.right.manager.database) : Fine J c (idle c) c' := by
  have nothing : TransferSession.sentSince c.right.session c.right.session = [] :=
    TransferSession.sentSince_eq (List.append_nil _).symm
  have acted : (Encounter.machine J).act (link c).right
      ⟨.drain c.right.session.bytesToWrite, rfl⟩ = .ok ((link c).right, []) :=
    congrArg (fun sent => Except.ok ((link c).right, sent)) nothing
  have stays := Duplex.Moved.steps (.right acted)
  rw [List.append_nil] at stays
  refine ⟨⟨rfl, ?_⟩, ?_, .idle (congrArg (·.left.session) same) left,
    .idle (congrArg (·.right.session) same) right, ready⟩
  · rw [same]
    exact stays
  · rintro _ _ _ ⟨⟩

theorem Fine.refl (ready : Ready c) : Fine J c (Exchange.idle c) c := .idle ready rfl rfl rfl

theorem occurrence_timely {S : Station B} {i : Incident} {e : Occurrence} (time : Timestamp S.now)
    (found : S.occurrence i = some e) : Encounter.Timely (.right e) := by
  rintro baseOutputDir policy timestamp accepts
  cases i with
  | clock now => cases found
  | call call =>
      cases call with
      | session e' spontaneous =>
          cases found
          rw [accepts] at spontaneous
          exact spontaneous.elim
      | acceptIncomingTransfer shown =>
          cases found
          cases accepts
          exact time
      | _ => cases found

theorem now_timely {S S' : Station B} {i : Incident} {out : List Packet} (time : Timestamp S.now)
    (timely : ∀ now, i = .clock now → Timestamp now) (acted : Station.act J S i = .ok (S', out)) :
    Timestamp S'.now := by
  cases i with
  | clock now =>
      cases acted
      exact timely now rfl
  | call call =>
      obtain ⟨m, -, eq⟩ := Except.ok_of_map acted
      rw [← (Prod.mk.inj eq).1]
      exact time

theorem finer_steps {move : Duplex.Move Incident} (ready : Ready c)
    (unoffered : ∀ p rest, c.toLeft = p :: rest → ∀ offer, ¬ Offers (.packet p) offer)
    (allowed : attended c move = true) (timely : Timely move) (taken : Steps J c move c') :
    ∃ mid second, Fine J c (finer c move) mid ∧ Fine J mid second c' ∧ Settles mid second c' := by
  -- nothing is left to be done
  have once : ∀ {d : Exchange B} {fine : Duplex.Move Occurrence}, Fine J c fine d →
      ∃ mid second, Fine J c fine mid ∧ Fine J mid second d ∧ Settles mid second d :=
    fun first => ⟨_, _, first, .refl first.ready, .inl ⟨rfl, rfl⟩⟩
  cases Duplex.Steps.moved taken with
  | @left i S out acted =>
      obtain ⟨kind, attends⟩ := (Bool.and_eq_true _ _).mp allowed
      obtain ⟨busy, notes, follows⟩ := Station.act_follows ready.left kind acted
      have ready' : Ready { c with left := S, toRight := c.toRight ++ out } :=
        ⟨busy, ready.right, ready.time⟩
      cases found : c.left.occurrence i with
      | some e =>
          rw [found] at follows attends
          rw [finer, found]
          exact once ⟨⟨attends, Duplex.Moved.steps (d := link c) (.left follows)⟩, trivial, notes,
            .idle rfl rfl, ready'⟩
      | none =>
          rw [found] at follows
          obtain ⟨same, rfl⟩ := follows
          rw [finer, found]
          have session : S.session = c.left.session := congrArg Endpoint.session same
          have database : S.manager.database = c.left.manager.database := by
            rw [notes, session, Station.notify_idle]
          refine once (.idle ready' ?_ database rfl)
          rw [link, same, List.append_nil]
          rfl
  | @right i S out acted =>
      obtain ⟨kind, attends⟩ := (Bool.and_eq_true _ _).mp allowed
      obtain ⟨busy, notes, follows⟩ := Station.act_follows ready.right kind acted
      have ready' : Ready { c with right := S, toLeft := c.toLeft ++ out } := by
        refine ⟨ready.left, busy, now_timely ready.time ?_ acted⟩
        rintro now rfl
        exact timely
      cases found : c.right.occurrence i with
      | some e =>
          rw [found] at follows attends
          rw [finer, found]
          exact once ⟨⟨attends, Duplex.Moved.steps (d := link c) (.right follows)⟩,
            occurrence_timely ready.time found, .idle rfl rfl, notes, ready'⟩
      | none =>
          rw [found] at follows
          obtain ⟨same, rfl⟩ := follows
          rw [finer, found]
          have session : S.session = c.right.session := congrArg Endpoint.session same
          have database : S.manager.database = c.right.manager.database := by
            rw [notes, session, Station.notify_idle]
          refine once (.idle ready' ?_ rfl database)
          rw [link, same, List.append_nil]
          rfl
  | @toRight p rest S out pending received =>
      obtain ⟨mid, sent, busy, notes, now, handled, last⟩ :=
        Station.receive_follows ready.right received
      let d : Exchange B := { c with right := mid, toRight := rest, toLeft := c.toLeft ++ sent }
      have first : Fine J c .toRight d :=
        ⟨⟨rfl, Duplex.Moved.steps (d := link c) (.toRight pending handled)⟩, trivial,
          .idle rfl rfl, notes, ⟨ready.left, busy, now ▸ ready.time⟩⟩
      rcases last with ⟨rfl, rfl⟩ | ⟨offer, -, rfl, shown, status, acted⟩
      · exact once first
      · let accepts : Incident := .call (.acceptIncomingTransfer mid.manager.created)
        have own : mid.kind accepts = true := decide_eq_true rfl
        obtain ⟨busy', notes', follows⟩ := Station.act_follows busy own acted
        let accepted : Occurrence := ⟨.acceptTransfer mid.manager.downloadDir
          mid.manager.duplicatePolicy mid.now, rfl⟩
        replace follows : Encounter.act J mid.endpoint accepted = .ok (S.endpoint, out) := follows
        have same : ({ c with right := S, toRight := rest, toLeft := c.toLeft ++ out } :
            Exchange B) = { d with right := S, toLeft := d.toLeft ++ out } := by
          rw [show d.toLeft = c.toLeft ++ [] from rfl, List.append_nil]
        rw [same]
        obtain ⟨t, stepped, kept, -⟩ := Encounter.act_ok follows
        have session : S.session = t := congrArg Endpoint.session kept
        have disk : S.session.disk = mid.session.disk := by
          rw [session, ← Except.ok.inj stepped]
          exact (Encounter.acceptTransfer_keeps J _ _ _ _).2.2.2
        have moved := Duplex.Moved.steps (M := Encounter.machine J) (d := link d)
          (.right (e := accepted) follows)
        refine ⟨d, .right accepted, first, ⟨⟨?_, moved⟩, ?_, .idle rfl rfl, notes',
          ⟨ready.left, busy', ?_⟩⟩, .inr ⟨⟨_, _, _, rfl⟩, rfl, rfl, disk, out, rfl⟩⟩
        · show (mid.session.receivedOffer.isSome &&
            decide (mid.session.status = .WaitingApproval)) = true
          rw [shown, status]
          rfl
        · rintro _ _ _ ⟨⟩
          exact now ▸ ready.time
        · exact now_timely (now ▸ ready.time) (by rintro now ⟨⟩) acted
  | @toLeft p rest S out pending received =>
      obtain ⟨mid, sent, busy, notes, now, handled, last⟩ :=
        Station.receive_follows ready.left received
      obtain ⟨rfl, rfl⟩ := last.resolve_right fun ⟨offer, offers, _⟩ =>
        unoffered p rest pending offer offers
      exact once ⟨⟨rfl, Duplex.Moved.steps (d := link c) (.toLeft pending handled)⟩, trivial,
        notes, .idle rfl rfl, ⟨busy, ready.right, ready.time⟩⟩
  | noneRight none =>
      exact once ⟨⟨rfl, Duplex.Moved.steps (d := link c) (.noneRight none)⟩, trivial,
        .idle rfl rfl, .idle rfl rfl, ready⟩
  | noneLeft none =>
      exact once ⟨⟨rfl, Duplex.Moved.steps (d := link c) (.noneLeft none)⟩, trivial,
        .idle rfl rfl, .idle rfl rfl, ready⟩

/-- The history tells the status of the session that has an identifier. -/
def Logged (id : QString) (S : Station B) : Prop :=
  S.session.transferId = id ∧
    ∃ text, S.manager.database.status? id = some text ∧ Says S.session.status text

theorem Logged.completed {id : QString} {S : Station B} (h : Logged id S)
    (status : S.session.status = .Completed) :
    S.manager.database.status? id = some (QString.literal "Completed") := by
  obtain ⟨-, text, row, said⟩ := h
  rcases said with rfl | ⟨cancelled, -⟩
  · rw [row, status]
    rfl
  · cases status.symm.trans cancelled

private theorem Logged.of_kept {id : QString} {S S' : Station B} (h : Logged id S)
    (same : S'.session.transferId = id) (keeps : S.manager.database.Keeps S'.manager.database)
    (tells : TransferManager.Tells S'.manager.database S'.session) : Logged id S' := by
  obtain ⟨-, text, row, -⟩ := h
  obtain ⟨record, found, -⟩ := Option.map_eq_some_iff.mp row
  obtain ⟨record', found', -⟩ := keeps id record found
  have row' : S'.manager.database.status? id = some record'.status := by
    rw [Database.status?, found']
    rfl
  exact ⟨same, _, row', tells _ (same.symm ▸ row')⟩

theorem Logged.tells {id : QString} {S : Station B} (h : Logged id S) :
    TransferManager.Tells S.manager.database S.session := by
  obtain ⟨rfl, text, row, said⟩ := h
  intro text' row'
  cases row.symm.trans row'
  exact said

/-- A history that tells the status of a session goes on doing so, unless an offer with another
identifier comes in. -/
theorem Logged.fares {id : QString} {S S' : Station B} {incoming : List Packet} (h : Logged id S)
    (notes : S.Notes S') (fares : Encounter.Fares J incoming S.session S'.session)
    (own : ∀ p rest offer, incoming = p :: rest → Offers (.packet p) offer →
      offer.transferId = id) : Logged id S' := by
  rcases fares with same | refused | ⟨e, taken, arrived⟩
  · rw [Station.Notes, same, Station.notify_idle] at notes
    rw [Logged, same, notes]
    exact h
  · obtain ⟨same, told, plain⟩ := Station.refuse_told S.session
    obtain ⟨keeps, -, tells⟩ :=
      TransferManager.notify_told (m := S.manager) told same plain
    rw [← refused] at keeps tells same
    rw [← show S'.manager.database = _ from notes] at keeps tells
    exact h.of_kept (same.trans h.1) keeps (tells h.tells)
  · by_cases offers : ∃ offer, Offers e offer
    · obtain ⟨offer, offers⟩ := offers
      obtain ⟨keeps, -, tells, -⟩ := TransferManager.notify_offer (m := S.manager) taken offers
      rw [← show S'.manager.database = _ from notes] at keeps tells
      have claimed : offer.transferId = id := by
        obtain ⟨flags, payload, rfl, parsed⟩ := offers
        obtain ⟨rest, pending⟩ := arrived _ rfl
        exact own _ rest offer pending ⟨flags, payload, rfl, parsed⟩
      exact h.of_kept ((offers.transferId taken).trans claimed) keeps
        (tells h.tells (.inl (claimed.trans h.1.symm)))
    · have none : ∀ offer, ¬ Offers e offer := fun offer takes => offers ⟨offer, takes⟩
      obtain ⟨keeps, -, tells⟩ := TransferManager.notify_plain (m := S.manager) taken none
      rw [← show S'.manager.database = _ from notes] at keeps tells
      exact h.of_kept ((TransferManager.step_plain taken none).1.trans h.1) keeps (tells h.tells)

/-- How far an attended exchange has come. The receiver has a row as soon as it has the offer. -/
structure Meets (J : QJson) (A : Approach) (c : Exchange B) : Prop where
  ready : Ready c
  stage : Stage J A (link c)
  left : Logged A.transferId c.left
  right : Encounter.Arriving J A (link c) ∧ c.right.session.receivedOffer = none ∨
    Logged A.transferId c.right

theorem Meets.unoffered (h : Meets J A c) (sound : A.Sound J B) (p : Packet)
    (rest : List Packet) (pending : c.toLeft = p :: rest) (offer : MsgTransferOffer) :
    ¬ Offers (.packet p) offer := by
  rintro ⟨flags, payload, eq, -⟩
  cases eq
  exact h.stage.toLeft sound _ (show _ ∈ c.toLeft from pending ▸ List.mem_cons_self) rfl

theorem Meets.fine {move : Duplex.Move Occurrence} (h : Meets J A c) (terse : Loopback.Terse J)
    (sound : A.Sound J B) (fine : Fine J c move c')
    (succeeded : c'.right.session.disk.AllSucceeded) : Meets J A c' := by
  obtain ⟨allowed, taken⟩ := fine.attended
  obtain ⟨left, right⟩ := Encounter.step_fares taken
  refine ⟨fine.ready, h.stage.step terse sound allowed fine.timely taken succeeded, ?_, ?_⟩
  · refine h.left.fares fine.left left fun p rest offer pending offers => ?_
    exact absurd offers (h.unoffered sound p rest pending offer)
  rcases h.right with ⟨arriving, before⟩ | logged
  · have other : ¬ Encounter.Accepts move := by
      intro accepts
      cases move with
      | right e =>
          obtain ⟨_, _, _, eq⟩ := accepts
          have shown : (link c).right.session.receivedOffer = none := before
          rw [Encounter.attended, eq, shown] at allowed
          cases allowed
      | left e => exact accepts
      | toRight => exact accepts
      | toLeft => exact accepts
    obtain ⟨arriving', -⟩ := arriving.step sound.admissible sound.concise allowed other taken
    by_cases after : c'.right.session.receivedOffer = none
    · exact .inl ⟨arriving', after⟩
    -- the offer has just been taken, and recorded
    obtain ⟨e, stepped, offers⟩ := arriving.shown sound allowed other taken before after
    replace stepped : TransferSession.Steps J c.right.session e c'.right.session := stepped
    obtain ⟨-, -, -, recorded⟩ := TransferManager.notify_offer (m := c.right.manager) stepped offers
    have claimed : c'.right.session.transferId = A.transferId := offers.transferId stepped
    have row := recorded (arriving.unshown before) arriving.approaching.callee.ownsConnection
    rw [← show c'.right.manager.database = _ from fine.right, claimed] at row
    have waits : c'.right.session.status = .WaitingApproval := by
      obtain ⟨flags, payload, rfl, parsed⟩ := offers
      exact (Station.offer_taken stepped ⟨flags, payload, rfl, parsed⟩).2.1
    exact .inr ⟨claimed, _, row, .inl (by rw [waits]; rfl)⟩
  · refine .inr (logged.fares fine.right right fun p rest offer pending offers => ?_)
    rw [h.stage.offered sound pending offers]
    rfl

theorem Settles.disk {mid : Exchange B} {second : Duplex.Move Occurrence}
    (h : Settles mid second c') : c'.right.session.disk = mid.right.session.disk := by
  rcases h with ⟨-, rfl⟩ | ⟨-, -, -, disk, -⟩
  · rfl
  · exact disk

theorem Settles.left {mid : Exchange B} {second : Duplex.Move Occurrence}
    (h : Settles mid second c') : c'.left = mid.left := by
  rcases h with ⟨-, rfl⟩ | ⟨-, left, -⟩
  · rfl
  · exact left

theorem Settles.toRight {mid : Exchange B} {second : Duplex.Move Occurrence}
    (h : Settles mid second c') : c'.toRight = mid.toRight := by
  rcases h with ⟨-, rfl⟩ | ⟨-, -, toRight, -⟩
  · rfl
  · exact toRight

/-- What is under way arrives, the connection comes up, the receiving user accepts the offer that is
shown, queued calls are run, and what is in the sender's buffer is written to the network until
there is room again. -/
structure Fair (x : Execution (Attended (B := B) J)) : Prop where
  connects : ∀ n, (x.state n).left.session.status = .Connecting →
    ∃ m ≥ n, x.event m = .left (.call (.session ⟨.socketConnected, rfl⟩ trivial))
  accepts : ∀ n, (x.state n).right.session.receivedOffer.isSome = true →
    (x.state n).right.session.status = .WaitingApproval →
    ∃ m ≥ n, ∃ session, x.event m = .right (.call (.acceptIncomingTransfer session))
  toRight : ∀ n, (x.state n).toRight ≠ [] → ∃ m ≥ n, x.event m = .toRight
  toLeft : ∀ n, (x.state n).toLeft ≠ [] → ∃ m ≥ n, x.event m = .toLeft
  queued : ∀ n, 0 < (x.state n).left.session.queuedCalls →
    ∃ m ≥ n, x.event m = .left (.call (.session ⟨.sendNextChunk, rfl⟩ trivial))
  written : ∀ n, 0 < (x.state n).left.session.bytesToWrite →
    ∃ m ≥ n, ∃ pending < (x.state m).left.session.maxPending,
      x.event m = .left (.call (.session ⟨.bytesWritten pending, rfl⟩ trivial))

section Executions

variable {x : Execution (Attended (B := B) J)}

structure Refined (x : Execution (Attended (B := B) J)) where
  mid : ℕ → Exchange B
  second : ℕ → Duplex.Move Occurrence
  fine : ∀ n, Fine J (x.state n) (finer (x.state n) (x.event n)) (mid n) ∧
    Fine J (mid n) (second n) (x.state (n + 1))
  settles : ∀ n, Settles (mid n) (second n) (x.state (n + 1))

def Refined.encounter (r : Refined x) : Execution (Encounter.Attended (B := B) J) :=
  x.twofold link (fun n => link (r.mid n)) (fun n => finer (x.state n) (x.event n)) r.second
    fun n => ⟨(r.fine n).1.attended, (r.fine n).2.attended⟩

theorem Refined.comes (r : Refined x) (due : Link B → Prop)
    (helpful : Duplex.Move Occurrence → Link B → Prop)
    (fair : ∀ n, due (link (x.state n)) →
      ∃ m ≥ n, helpful (finer (x.state m) (x.event m)) (link (x.state m)))
    (between : ∀ n, due (link (r.mid n)) →
      helpful (r.second n) (link (r.mid n)) ∨ due (link (x.state (n + 1)))) (k : ℕ)
    (now : due (r.encounter.state k)) :
    ∃ m ≥ k, helpful (r.encounter.event m) (r.encounter.state m) :=
  x.comes_twofold fair between k now

theorem Refined.fair (r : Refined x) (fair : Fair x) : Encounter.Fair r.encounter := by
  have left : ∀ n, (link (x.state (n + 1))).left = (link (r.mid n)).left :=
    fun n => congrArg Station.endpoint (r.settles n).left
  constructor
  · refine r.comes (fun l => l.left.session.status = .Connecting)
      (fun move _ => ∃ e : Occurrence, move = .left e ∧ e.val = .socketConnected)
      (fun n due => ?_) (fun n due => .inr (left n ▸ due))
    obtain ⟨m, later, event⟩ := fair.connects n due
    exact ⟨m, later, _, by rw [event]; rfl, rfl⟩
  · intro k shown waits
    refine r.comes (fun l => l.right.session.receivedOffer.isSome = true ∧
        l.right.session.status = .WaitingApproval)
      (fun move _ => Encounter.Accepts move) (fun n due => ?_) (fun n due => ?_) k ⟨shown, waits⟩
    · obtain ⟨m, later, session, event⟩ := fair.accepts n due.1 due.2
      exact ⟨m, later, by rw [event]; exact ⟨_, _, _, rfl⟩⟩
    · rcases r.settles n with ⟨-, same⟩ | ⟨accepts, -⟩
      · exact .inr (same ▸ due)
      · exact .inl accepts
  · refine r.comes (fun l => l.toRight ≠ []) (fun move _ => move = .toRight) (fun n due => ?_)
      (fun n due => .inr ?_)
    · obtain ⟨m, later, event⟩ := fair.toRight n due
      exact ⟨m, later, by rw [event]; rfl⟩
    · show (x.state (n + 1)).toRight ≠ []
      rw [(r.settles n).toRight]
      exact due
  · refine r.comes (fun l => l.toLeft ≠ []) (fun move _ => move = .toLeft) (fun n due => ?_)
      (fun n due => .inr ?_)
    · obtain ⟨m, later, event⟩ := fair.toLeft n due
      exact ⟨m, later, by rw [event]; rfl⟩
    · rcases r.settles n with ⟨-, same⟩ | ⟨-, -, -, -, out, more⟩
      · exact same ▸ due
      · show (x.state (n + 1)).toLeft ≠ []
        rw [more]
        exact List.append_ne_nil_of_left_ne_nil due out
  · refine r.comes (fun l => 0 < l.left.session.queuedCalls)
      (fun move _ => ∃ e : Occurrence, move = .left e ∧ e.val = .sendNextChunk)
      (fun n due => ?_) (fun n due => .inr (left n ▸ due))
    obtain ⟨m, later, event⟩ := fair.queued n due
    exact ⟨m, later, _, by rw [event]; rfl, rfl⟩
  · refine r.comes (fun l => 0 < l.left.session.bytesToWrite)
      (fun move l => ∃ e : Occurrence, ∃ pending < l.left.session.maxPending,
        move = .left e ∧ e.val = .bytesWritten pending)
      (fun n due => ?_) (fun n due => .inr (left n ▸ due))
    obtain ⟨m, later, pending, room, event⟩ := fair.written n due
    exact ⟨m, later, _, pending, room, by rw [event]; rfl, rfl⟩

variable (terse : Loopback.Terse J) (sound : A.Sound J B)
  (succeeded : ∀ n, (x.state n).right.session.disk.AllSucceeded) (clock : ∀ n, Timely (x.event n))

include terse sound succeeded clock

private theorem Meets.steps {n : ℕ} (h : Meets J A (x.state n)) : ∃ mid second,
    (Fine J (x.state n) (finer (x.state n) (x.event n)) mid ∧
      Fine J mid second (x.state (n + 1))) ∧
      Settles mid second (x.state (n + 1)) ∧ mid.right.session.disk.AllSucceeded ∧
        Meets J A (x.state (n + 1)) := by
  obtain ⟨allowed, taken⟩ := x.next n
  obtain ⟨mid, second, first, last, settles⟩ :=
    finer_steps h.ready (h.unoffered sound) allowed (clock n) taken
  have whole : mid.right.session.disk.AllSucceeded := settles.disk ▸ succeeded (n + 1)
  exact ⟨mid, second, ⟨first, last⟩, settles, whole,
    (h.fine terse sound first whole).fine terse sound last (succeeded (n + 1))⟩

end Executions

end Exchange

namespace TransferManager

variable {B : Blake3}

end TransferManager

/-- A sender that has files to send to a receiver that is there. `now` is the time of both. -/
structure Rendezvous (B : Blake3) where
  sender : TransferManager B
  receiver : TransferManager B
  fs : FileSystem
  fileOrFolderPaths : List QString
  targetIp : QString
  transferId : QString
  remoteIp : QString
  receiverId : QString
  now : QString

namespace Rendezvous

open Encounter (Approach)

variable {B : Blake3} {J : QJson}

def start (J : QJson) (self : Rendezvous B) : Exchange B where
  left :=
    { manager := self.sender.initiateSend J self.fs self.fileOrFolderPaths self.targetIp
        self.transferId
      now := self.now }
  right :=
    { manager := self.receiver.onNewIncomingConnection self.remoteIp self.receiverId
      now := self.now }
  toRight := []
  toLeft := []

def approach (self : Rendezvous B) : Approach where
  sender := self.sender.host
  receiver := self.receiver.host
  transferId := self.transferId
  receiverId := self.receiverId
  deviceName := self.sender.deviceName
  manifest := FileEnumerator.enumeratePaths self.fs self.fileOrFolderPaths
  chunkSize := self.sender.chunkSize

/-- There are files, the transfer has an identifier, the receiver listens and is not receiving yet,
and what the two bring is sound. -/
structure Sound (J : QJson) (R : Rendezvous B) : Prop where
  files : R.approach.manifest.items ≠ []
  identified : R.transferId ≠ []
  listening : R.receiver.listening = true
  free : ∀ s, R.receiver.activeSession = some s → s.status ≠ .Transferring
  time : Timestamp R.now
  approach : R.approach.Sound J B

end Rendezvous

namespace Exchange

open Protocol
open Encounter (event_isPacket socketConnected_isPacket)

variable {B : Blake3}

end Exchange

end FastTransfer
