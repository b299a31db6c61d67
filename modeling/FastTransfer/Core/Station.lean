/- FastTransfer/Core/Station
   source: src/core/TransferManager.cpp, src/core/TransferSession.cpp, src/network/TcpConnection.cpp
   digest: A manager at one end of a connection, step by step as its session goes. -/

import FastTransfer.Core.Bookkeeping
import FastTransfer.Core.Encounter

set_option autoImplicit false
set_option relaxedAutoImplicit false

namespace FastTransfer

open Protocol

/-- The connection of the active session has refused a packet. -/
def TransferManager.refuse {B : Blake3} (self : TransferManager B) : TransferManager B :=
  match self.activeSession with
  | none => self
  | some session => self.notify session session.refuse

/-- What happens to a manager while its session stays in its place, but for the packets: the calls
of the interface, and what the network and the event loop do. -/
inductive Call
  | session (e : Occurrence) (spontaneous : TransferManager.Spontaneous e.val)
  | acceptIncomingTransfer (session : Nat)
  | rejectIncomingTransfer (session : Nat) (reason : QString)
  | setDeviceName (name : QString)
  | setDefaultDownloadDir (dir : QString)
  | setDuplicatePolicy (policy : DuplicatePolicy)
  | setChunkSize (bytes : UInt32)
  | setAutoAccept (enabled : Bool)
  | clearHistory

def Call.event (now : QString) : Call → TransferManager.Event
  | session e spontaneous => .session e.val spontaneous now
  | acceptIncomingTransfer shown => .acceptIncomingTransfer shown now
  | rejectIncomingTransfer shown reason => .rejectIncomingTransfer shown reason
  | setDeviceName name => .setDeviceName name
  | setDefaultDownloadDir dir => .setDefaultDownloadDir dir
  | setDuplicatePolicy policy => .setDuplicatePolicy policy
  | setChunkSize bytes => .setChunkSize bytes
  | setAutoAccept enabled => .setAutoAccept enabled
  | clearHistory => .clearHistory

inductive Incident
  | call (c : Call)
  | clock (now : QString)

/-- A manager, the packets that its session has handled, and whether its connection has refused
one. `now` is the current time as it is printed. -/
structure Station (B : Blake3) where
  manager : TransferManager B
  handled : List Packet := []
  deaf : Bool := false
  now : QString

namespace Station

open TransferSession (sentSince Offers)
open TransferManager (emitted)

variable {B : Blake3} {J : QJson}

/-- The active session. Where there is none, nothing is sent or received. -/
def session (self : Station B) : TransferSession B :=
  self.manager.activeSession.getD (.new B .Receive [] self.manager.disk)

def endpoint (self : Station B) : Endpoint B where
  session := self.session
  handled := self.handled
  deaf := self.deaf

def act (J : QJson) (self : Station B) : Incident → Except Crash (Station B × List Packet)
  | .call c => (TransferManager.step J self.manager (c.event self.now)).map fun m =>
      let next := { self with manager := m }
      (next, sentSince self.session next.session)
  | .clock now => .ok ({ self with now := now }, [])

def receive (J : QJson) (self : Station B) (p : Packet) :
    Except Crash (Station B × List Packet) :=
  if self.deaf ∨ ¬ p.Acceptable then
    .ok ({ self with manager := self.manager.refuse, deaf := true }, [])
  else
    (TransferManager.step J self.manager (.session (.packet p) trivial self.now)).map fun m =>
      let next := { self with manager := m, handled := self.handled ++ [p] }
      (next, sentSince self.session next.session)

/-! What the manager does, its session does as well. -/

def Busy (self : Station B) : Prop := self.manager.activeSession = some self.session

/-- What becomes of the history is what the session's signals make of it. -/
def Notes (S S' : Station B) : Prop :=
  S'.manager.database = (S.manager.notify S.session S'.session).database

variable {S S' : Station B} {out : List Packet}

theorem busy_of_active {s : TransferSession B} (active : S.manager.activeSession = some s) :
    S.session = s ∧ S.Busy := by
  have own : S.session = s := by rw [session, active, Option.getD_some]
  exact ⟨own, active.trans (congrArg some own.symm)⟩

theorem notify_idle (m : TransferManager B) (s : TransferSession B) :
    (m.notify s s).database = m.database := by
  simp [TransferManager.notify, emitted]

theorem Notes.idle (session : S'.session = S.session)
    (database : S'.manager.database = S.manager.database) : Notes S S' := by
  rw [Notes, session, notify_idle, database]

theorem notes_notify (next : Station B) {t : TransferSession B}
    (manager : next.manager = S.manager.notify S.session t) :
    next.session = t ∧ next.Busy ∧ Notes S next := by
  have active := TransferManager.notify_activeSession S.manager S.session t
  rw [← manager] at active
  obtain ⟨own, busy⟩ := busy_of_active active
  exact ⟨own, busy, by rw [Notes, manager, own]⟩

def occurrence (S : Station B) : Incident → Option Occurrence
  | .call (.session e _) => some e
  | .call (.acceptIncomingTransfer _) =>
      some ⟨.acceptTransfer S.manager.downloadDir S.manager.duplicatePolicy S.now, rfl⟩
  | _ => none

/-- The incident neither rejects the transfer nor forgets it, and accepts no other session than the
active one. -/
def kind (S : Station B) : Incident → Bool
  | .call (.acceptIncomingTransfer session) => session = S.manager.created
  | .call (.rejectIncomingTransfer _ _) | .call .clearHistory => false
  | _ => true

theorem refuse_told (s : TransferSession B) :
    s.refuse.transferId = s.transferId ∧ TransferSession.Told s s.refuse ∧
      ∀ signal ∈ emitted s s.refuse, TransferManager.Signal.isOffer signal = false := by
  let t := s.onSocketError TcpConnection.oversizedMessage
  have taken : TransferSession.Steps CompactJson.codec s
      (.socketError TcpConnection.oversizedMessage) t := rfl
  have off : TransferSession.Told t s.refuse := .same rfl rfl
  obtain ⟨same, plain⟩ := TransferManager.step_plain taken (by rintro offer ⟨_, _, ⟨⟩, _⟩)
  exact ⟨same, (TransferSession.step_told taken).trans off, plain⟩

theorem moved_plain {m : TransferManager B} {s t : TransferSession B}
    (plain : ∀ signal ∈ emitted s t, TransferManager.Signal.isOffer signal = false)
    (timestamp : QString) : m.moved J s t timestamp = m.notify s t := by
  unfold TransferManager.moved
  dsimp only
  rw [if_neg]
  rintro ⟨-, -, some⟩
  obtain ⟨signal, mem, offer⟩ := List.any_eq_true.mp some
  rw [plain signal mem] at offer
  cases offer

theorem act_follows {i : Incident} (busy : S.Busy) (allowed : S.kind i = true)
    (acted : act J S i = .ok (S', out)) : S'.Busy ∧ Notes S S' ∧
      match S.occurrence i with
      | some e => Encounter.act J S.endpoint e = .ok (S'.endpoint, out)
      | none => S'.endpoint = S.endpoint ∧ out = [] := by
  -- the manager passes something on to its session
  have passed : ∀ {e : Occurrence} {t : TransferSession B},
      TransferSession.Steps J S.session e.val t →
      S' = { S with manager := S.manager.notify S.session t } →
      out = sentSince S.session S'.session →
      S'.Busy ∧ Notes S S' ∧ Encounter.act J S.endpoint e = .ok (S'.endpoint, out) := by
    intro e t taken same sent
    obtain ⟨own, busy', notes⟩ := notes_notify S' (t := t) (by rw [same])
    refine ⟨busy', notes, ?_⟩
    replace taken : TransferSession.step J S.endpoint.session e.val = .ok t := taken
    rw [Encounter.act, taken, sent, own]
    show Except.ok _ = Except.ok (({ session := S'.session, handled := S'.handled
                                     deaf := S'.deaf } : Endpoint B), _)
    rw [own, same]
    rfl
  -- the manager does something that is nothing to its session
  have apart : ∀ {m : TransferManager B}, S' = { S with manager := m } →
      m.activeSession = S.manager.activeSession → m.database = S.manager.database →
      out = sentSince S.session S'.session →
      S'.Busy ∧ Notes S S' ∧ S'.endpoint = S.endpoint ∧ out = [] := by
    rintro m rfl active database sent
    obtain ⟨own, busy'⟩ := busy_of_active (S := { S with manager := m }) (active.trans busy)
    refine ⟨busy', .idle own database, ?_, ?_⟩
    · rw [endpoint, own]
      rfl
    · rw [sent, own, TransferSession.sentSince_eq (List.append_nil _).symm]
  cases i with
  | clock now =>
      cases acted
      exact ⟨busy, .idle rfl rfl, rfl, rfl⟩
  | call c =>
      obtain ⟨m, stepped, eq⟩ := Except.ok_of_map acted
      obtain ⟨same, sent⟩ := Prod.mk.inj eq
      replace sent := sent.symm
      rw [same] at sent
      replace same := same.symm
      cases c with
      | session e spontaneous =>
          simp only [Call.event, TransferManager.step, show S.manager.activeSession = _ from busy]
            at stepped
          obtain ⟨t, taken, rfl⟩ := Except.ok_of_map stepped
          have none : ∀ offer, ¬ Offers e.val offer := by
            rintro offer ⟨flags, payload, eq, -⟩
            have other := e.property
            rw [eq] at other
            cases other
          rw [moved_plain (TransferManager.step_plain taken none).2] at same
          exact passed taken same sent
      | acceptIncomingTransfer shown =>
          have own : shown = S.manager.created := of_decide_eq_true allowed
          cases stepped
          simp only [TransferManager.acceptIncomingTransfer,
            show S.manager.activeSession = _ from busy, if_pos own] at same
          exact passed (e := ⟨.acceptTransfer _ _ _, rfl⟩) rfl same sent
      | rejectIncomingTransfer shown reason => cases allowed
      | clearHistory => cases allowed
      | setDuplicatePolicy policy =>
          cases stepped
          exact apart same rfl rfl sent
      | setAutoAccept enabled =>
          cases stepped
          exact apart same rfl rfl sent
      | setDeviceName name | setDefaultDownloadDir dir | setChunkSize bytes =>
          cases stepped
          split at same
          · exact apart same rfl rfl sent
          · exact apart same rfl rfl sent

theorem offer_taken {s t : TransferSession B} {p : Packet} {offer : MsgTransferOffer}
    (taken : TransferSession.Steps J s (.packet p) t) (offers : Offers (.packet p) offer) :
    t.receivedOffer = some offer ∧ t.status = .WaitingApproval ∧ t.outbox = s.outbox := by
  obtain ⟨flags, payload, eq, parsed⟩ := offers
  cases eq
  have same : t = TransferSession.onTransferOffer s payload := (Except.ok.inj taken).symm
  rw [same, TransferSession.onTransferOffer, parsed]
  exact ⟨rfl, rfl, rfl⟩

/-- A packet is handled as the session handles it. An offer may be accepted at once, as if the user
had done so. -/
theorem receive_follows {p : Packet} (busy : S.Busy) (received : receive J S p = .ok (S', out)) :
    ∃ mid sent, mid.Busy ∧ Notes S mid ∧ mid.now = S.now ∧
      Link.receive J S.endpoint p = .ok (mid.endpoint, sent) ∧
      (S' = mid ∧ out = sent ∨
        ∃ offer, Offers (.packet p) offer ∧ sent = [] ∧
          mid.session.receivedOffer = some offer ∧ mid.session.status = .WaitingApproval ∧
          act J mid (.call (.acceptIncomingTransfer mid.manager.created)) = .ok (S', out)) := by
  unfold receive at received
  split at received
  · rename_i refused
    obtain ⟨same, sent⟩ := Prod.mk.inj (Except.ok.inj received)
    have manager : S'.manager = S.manager.notify S.session S.session.refuse := by
      rw [← same, TransferManager.refuse, show S.manager.activeSession = _ from busy]
    obtain ⟨own, busy', notes⟩ := notes_notify S' manager
    refine ⟨S', [], busy', notes, by rw [← same], ?_, .inl ⟨rfl, sent.symm⟩⟩
    replace refused : S.endpoint.deaf = true ∨ ¬ p.Acceptable := refused
    rw [Link.receive, if_pos refused, endpoint, endpoint, own, ← same]
  · rename_i heard
    obtain ⟨m, stepped, eq⟩ := Except.ok_of_map received
    obtain ⟨same, sent⟩ := Prod.mk.inj eq
    simp only [TransferManager.step, show S.manager.activeSession = _ from busy] at stepped
    obtain ⟨t, taken, rfl⟩ := Except.ok_of_map stepped
    let mid : Station B :=
      { S with manager := S.manager.notify S.session t, handled := S.handled ++ [p] }
    obtain ⟨own, busy', notes⟩ := notes_notify mid (t := t) rfl
    have handled : Link.receive J S.endpoint p = .ok (mid.endpoint, sentSince S.session t) := by
      replace taken : TransferSession.step J S.endpoint.session (.packet p) = .ok t := taken
      replace heard : ¬ (S.endpoint.deaf = true ∨ ¬ p.Acceptable) := heard
      rw [Link.receive, if_neg heard, taken, endpoint, endpoint, own]
      rfl
    refine ⟨mid, sentSince S.session t, busy', notes, rfl, handled, ?_⟩
    by_cases asked : (S.manager.notify S.session t).autoAccept ∧ !t.ownsConnection ∧
      (emitted S.session t).any TransferManager.Signal.isOffer
    · obtain ⟨offer, offers⟩ : ∃ offer, Offers (.packet p) offer := by
        by_contra none
        have plain := (TransferManager.step_plain taken fun offer takes => none ⟨offer, takes⟩).2
        obtain ⟨signal, mem, offer⟩ := List.any_eq_true.mp asked.2.2
        rw [plain signal mem] at offer
        cases offer
      obtain ⟨shown, status, outbox⟩ := offer_taken taken offers
      have nothing : sentSince S.session t = [] :=
        TransferSession.sentSince_eq (by rw [outbox, List.append_nil])
      refine .inr ⟨offer, offers, nothing, own ▸ shown, own ▸ status, ?_⟩
      have accepted : S.manager.moved J S.session t S.now =
          mid.manager.acceptIncomingTransfer J mid.manager.created mid.now := by
        unfold TransferManager.moved
        dsimp only
        rw [if_pos asked]
      have length : ∀ u : TransferSession B, sentSince S.session u = sentSince mid.session u := by
        intro u
        rw [sentSince, sentSince, own, outbox]
      rw [act, Call.event, TransferManager.step, ← same, ← sent, length, ← accepted]
      rfl
    · have plain : S.manager.moved J S.session t S.now = mid.manager := by
        unfold TransferManager.moved
        dsimp only
        rw [if_neg asked]
      refine .inl ⟨by rw [← same, plain], ?_⟩
      rw [← sent, plain]
      exact congrArg (sentSince S.session) own

end Station

end FastTransfer
