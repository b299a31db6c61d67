/- FastTransfer/Core/IncomingConnection
   source: src/core/TransferManager.cpp
   digest: Which live sessions an incoming connection leaves in their place. -/

import FastTransfer.Core.History

set_option autoImplicit false
set_option relaxedAutoImplicit false

namespace FastTransfer

open QString (literal)

def TransferStatus.Live (status : TransferStatus) : Prop := status ≠ .Idle ∧ ¬ status.Terminal

namespace TransferManager

variable {B : Blake3}

structure Spared (m m' : TransferManager B) : Prop where
  session : m'.activeSession = m.activeSession
  refused : m'.created = m.created

/-- The incoming connection leaves a live session in its place. -/
def Spares (m : TransferManager B) (remoteIp transferId : QString) : Prop :=
  ∀ s, m.activeSession = some s → s.status.Live →
    Spared m (m.onNewIncomingConnection remoteIp transferId)

/-- Nobody can connect, or a session that is live is transferring. -/
def Guards (m : TransferManager B) : Prop :=
  m.listening = true → ∀ s, m.activeSession = some s → s.status.Live → s.status = .Transferring

/-- One connection spares a live session exactly if it is transferring. -/
theorem spares_iff_guards (m : TransferManager B) (remoteIp transferId : QString) :
    Spares m remoteIp transferId ↔ Guards m := by
  unfold Spares Guards onNewIncomingConnection
  cases open' : m.listening with
  | false =>
      refine iff_of_true ?_ ?_
      · intro s _ _
        exact ⟨rfl, rfl⟩
      · intro impossible
        cases impossible
  | true =>
      constructor
      · intro spares _ s active live
        by_contra idle
        have replaced := (spares s active live).refused
        simp only [active, Option.any_some, idle, decide_false, Bool.not_true, Bool.or_self,
          Bool.false_eq_true, if_false] at replaced
        omega
      · intro guards s active live
        have busy := guards rfl s active live
        simp only [active, Option.any_some, busy, decide_true, Bool.or_true, if_true]
        exact ⟨rfl, rfl⟩

/-- Every incoming connection of a run leaves a live session in its place, exactly if it comes
only while a session that is live is transferring. -/
theorem connections_spare_iff (J : QJson) (start : TransferManager B) (events : List Event) :
    (∀ (before after : List Event) (remoteIp transferId : QString) (m : TransferManager B),
      events = before ++ .newIncomingConnection remoteIp transferId :: after →
      Run (Steps J) start before m → Spares m remoteIp transferId) ↔
    ∀ (before after : List Event) (remoteIp transferId : QString) (m : TransferManager B),
      events = before ++ .newIncomingConnection remoteIp transferId :: after →
      Run (Steps J) start before m → Guards m := by
  constructor
  · intro spare before after remoteIp transferId m split run
    exact (spares_iff_guards m remoteIp transferId).mp
      (spare before after remoteIp transferId m split run)
  · intro guard before after remoteIp transferId m split run
    exact (spares_iff_guards m remoteIp transferId).mpr
      (guard before after remoteIp transferId m split run)

/-! What the condition gives over a run. -/

/-- A connection comes in as it should, and the user does not replace the session. -/
def Careful (m : TransferManager B) : Event → Prop
  | .newIncomingConnection _ _ => Guards m
  | .initiateSend _ _ _ _ | .shutdown => False
  | _ => True

private theorem notify_slot (m : TransferManager B) (s t : TransferSession B) :
    (m.notify s t).activeSession = some t ∧ (m.notify s t).created = m.created := by
  have count := congrArg created (notify_recorded m s t)
  exact ⟨notify_activeSession m s t, count⟩

private theorem accept_slot {J : QJson} {m : TransferManager B} {s : TransferSession B}
    (active : m.activeSession = some s) (session : Nat) (timestamp : QString) :
    (m.acceptIncomingTransfer J session timestamp).created = m.created ∧
      ∃ t, (m.acceptIncomingTransfer J session timestamp).activeSession = some t := by
  simp only [acceptIncomingTransfer, active]
  split
  · obtain ⟨slot, count⟩ := m.notify_slot s
      (s.acceptTransfer J m.downloadDir m.duplicatePolicy timestamp)
    exact ⟨count, _, slot⟩
  · exact ⟨rfl, s, active⟩

private theorem reject_slot {J : QJson} {m : TransferManager B} {s : TransferSession B}
    (active : m.activeSession = some s) (session : Nat) (reason : QString) :
    (m.rejectIncomingTransfer J session reason).created = m.created ∧
      ∃ t, (m.rejectIncomingTransfer J session reason).activeSession = some t := by
  simp only [rejectIncomingTransfer, active]
  split
  · obtain ⟨slot, count⟩ := m.notify_slot s (s.rejectTransfer J reason)
    exact ⟨count, _, slot⟩
  · exact ⟨rfl, s, active⟩

private theorem step_stays {J : QJson} {m m' : TransferManager B} {e : Event}
    (careful : Careful m e) {s : TransferSession B} (active : m.activeSession = some s)
    (live : s.status.Live) (h : Steps J m e m') :
    m'.created = m.created ∧ ∃ t, m'.activeSession = some t := by
  cases e with
  | initiateSend fs paths targetIp transferId => exact careful.elim
  | shutdown => exact careful.elim
  | newIncomingConnection remoteIp transferId =>
      cases h
      obtain ⟨session, refused⟩ :=
        (spares_iff_guards m remoteIp transferId).mpr careful s active live
      exact ⟨refused, s, session.trans active⟩
  | acceptIncomingTransfer session timestamp =>
      cases h
      exact accept_slot active session timestamp
  | rejectIncomingTransfer session reason =>
      cases h
      exact reject_slot active session reason
  | session e spontaneous timestamp =>
      simp only [Steps, step, active] at h
      obtain ⟨t, -, rfl⟩ := Except.ok_of_map h
      obtain ⟨slot, count⟩ := m.notify_slot s t
      unfold moved
      dsimp only
      split
      · obtain ⟨count', kept⟩ := accept_slot (J := J) slot (m.notify s t).created timestamp
        exact ⟨count'.trans count, kept⟩
      · exact ⟨count, t, slot⟩
  | setDeviceName name =>
      cases h
      split <;> exact ⟨rfl, s, active⟩
  | setDefaultDownloadDir dir =>
      cases h
      split <;> exact ⟨rfl, s, active⟩
  | setChunkSize bytes =>
      cases h
      split <;> exact ⟨rfl, s, active⟩
  | _ =>
      cases h
      exact ⟨rfl, s, active⟩

/-- As long as it is live, a session keeps its place in a run of careful steps. -/
theorem live_session_stays (J : QJson) {start m : TransferManager B} {events : List Event}
    (run : Run (Guarded (Steps J) Careful) start events m)
    (begun : ∃ s, start.activeSession = some s)
    (live : ∀ (before after : List Event) (u : TransferManager B) (s : TransferSession B),
      events = before ++ after → Run (Guarded (Steps J) Careful) start before u →
      u.activeSession = some s → s.status.Live) :
    m.created = start.created ∧ ∃ s, m.activeSession = some s := by
  induction run with
  | nil => exact ⟨rfl, begun⟩
  | @snoc events e t u earlier last ih =>
      have so_far : ∀ (before after : List Event) (u : TransferManager B) (s : TransferSession B),
          events = before ++ after → Run (Guarded (Steps J) Careful) start before u →
          u.activeSession = some s → s.status.Live := by
        intro before after u s split
        apply live before (after ++ [e]) u s
        rw [split, List.append_assoc]
      obtain ⟨count, s, active⟩ := ih so_far
      have alive := live events [e] t s rfl earlier active
      obtain ⟨count', kept⟩ := step_stays last.1 active alive last.2
      exact ⟨count'.trans count, kept⟩

/-- A transfer that was paused, and then another host connects: its session is replaced. -/
theorem connections_replace_paused :
    let events : List Event :=
      [.newIncomingConnection [] (literal "s"), .session offering trivial [],
        .acceptIncomingTransfer 1 [], .session .pause trivial []]
    ∃ m s, events.foldlM (step CompactJson.codec) started = .ok m ∧ m.activeSession = some s ∧
      s.transferId = literal "t" ∧ s.status = .Paused ∧ s.status.Live ∧
      ((m.onNewIncomingConnection [] (literal "u")).activeSession.map (·.transferId)) =
        some (literal "u") ∧
      ¬ Spares m [] (literal "u") := by
  intro events
  have computed : (events.foldlM (step CompactJson.codec) started).toOption.bind (fun m =>
      m.activeSession.map fun s => (s.transferId, s.status, m.listening,
        (m.onNewIncomingConnection [] (literal "u")).activeSession.map (·.transferId))) =
      some (literal "t", .Paused, true, some (literal "u")) := by
    decide +kernel
  obtain ⟨m, reached, computed⟩ := Option.bind_eq_some_iff.mp computed
  obtain ⟨s, active, members⟩ := Option.map_eq_some_iff.mp computed
  simp only [Prod.mk.injEq] at members
  obtain ⟨named, paused, listening, replaced⟩ := members
  have live : s.status.Live := by
    rw [paused]
    unfold TransferStatus.Live TransferStatus.Terminal
    decide
  refine ⟨m, s, Except.ok_of_toOption reached, active, named, paused, live, replaced, ?_⟩
  rw [spares_iff_guards]
  intro guards
  have transferring := guards listening s active live
  rw [paused] at transferring
  cases transferring

end TransferManager

end FastTransfer
