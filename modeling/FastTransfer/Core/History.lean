/- FastTransfer/Core/History
   source: src/core/TransferManager.cpp, src/core/TransferSession.cpp, src/database/Database.cpp
   digest: When the history keeps saying that a completed transfer was completed. -/

import FastTransfer.Core.Reporting
import FastTransfer.Core.TransferManager

set_option autoImplicit false
set_option relaxedAutoImplicit false

namespace FastTransfer.TransferManager

open QString (literal)
open TransferSession (Continues Ends Offers Takes Finishes Quiet)

variable {B : Blake3} {J : QJson}

/-- Of the manager only the history differs. -/
def Recorded (m m' : TransferManager B) : Prop :=
  m' = { m with database := m'.database, completed := m'.completed }

theorem hear_recorded (transferred : UInt64) (m : TransferManager B) (signal : Signal) :
    Recorded m (hear transferred m signal) := by
  cases signal with
  | statusChanged status =>
      simp only [hear, onSessionStatusChanged]
      split <;> rfl
  | transferCompleted =>
      simp only [hear, onSessionCompleted]
      split <;> rfl
  | transferFailed errorMsg =>
      simp only [hear, onSessionFailed]
      split <;> rfl
  | incomingOfferReceived transferId senderDevice totalFiles totalBytes =>
      simp only [hear, onIncomingOffer]
      split
      · rfl
      · split <;> rfl
  | metricsUpdated metrics => rfl
  | fileStarted fileIndex relativePath fileSize => rfl
  | fileCompleted fileIndex relativePath verified => rfl

theorem foldl_recorded (transferred : UInt64) (m : TransferManager B) (news : List Signal) :
    Recorded m (news.foldl (hear transferred) m) := by
  induction news generalizing m with
  | nil => rfl
  | cons signal news ih =>
      have first := hear_recorded transferred m signal
      have later := ih (hear transferred m signal)
      rw [List.foldl_cons]
      unfold Recorded at first later ⊢
      rw [later, first]

theorem notify_recorded (m : TransferManager B) (s t : TransferSession B) :
    Recorded { m with activeSession := some t } (m.notify s t) :=
  foldl_recorded _ _ _

theorem notify_activeSession (m : TransferManager B) (s t : TransferSession B) :
    (m.notify s t).activeSession = some t :=
  congrArg activeSession (m.notify_recorded s t)

structure Hears (t : TransferSession B) (m m' : TransferManager B) : Prop where
  others : ∀ id, id ≠ t.transferId → (m.database.status? id).isSome →
    m'.database.status? id = m.database.status? id
  own : (m.database.status? t.transferId).isSome → (m'.database.status? t.transferId).isSome

private theorem Hears.trans {t : TransferSession B} {m m' m'' : TransferManager B}
    (first : Hears t m m') (second : Hears t m' m'') : Hears t m m'' := by
  refine ⟨fun id other found => ?_, fun found => second.own (first.own found)⟩
  have same := first.others id other found
  rw [second.others id other (same ▸ found), same]

private theorem hear_update {t : TransferSession B} {m m' : TransferManager B} {status : QString}
    (row : ∀ id, m'.database.status? id = if id = t.transferId then
      (m.database.status? id).map fun _ => status else m.database.status? id) : Hears t m m' := by
  refine ⟨fun id other _ => ?_, fun found => ?_⟩
  · rw [row, if_neg other]
  · rw [row, if_pos rfl, Option.isSome_map]
    exact found

private theorem hear_hears {t : TransferSession B} {m : TransferManager B}
    (active : m.activeSession = some t) (transferred : UInt64) (signal : Signal) :
    Hears t m (hear transferred m signal) := by
  have nothing : Hears t m m := ⟨fun _ _ _ => rfl, id⟩
  cases signal with
  | statusChanged status =>
      simp only [hear, onSessionStatusChanged, active]
      exact hear_update fun id => Database.status?_progress ..
  | transferCompleted =>
      simp only [hear, onSessionCompleted, active]
      exact hear_update fun id => Database.status?_completed ..
  | transferFailed errorMsg =>
      simp only [hear, onSessionFailed, active]
      exact hear_update fun id => Database.status?_completed ..
  | incomingOfferReceived transferId senderDevice totalFiles totalBytes =>
      simp only [hear, onIncomingOffer, active]
      split
      · exact nothing
      · exact ⟨fun id _ found => Database.status?_started _ _ found,
          fun found => (Database.status?_started _ _ found).symm ▸ found⟩
  | metricsUpdated metrics => exact nothing
  | fileStarted fileIndex relativePath fileSize => exact nothing
  | fileCompleted fileIndex relativePath verified => exact nothing

private theorem hear_active {t : TransferSession B} {m : TransferManager B}
    (active : m.activeSession = some t) (transferred : UInt64) (signal : Signal) :
    (hear transferred m signal).activeSession = some t :=
  (congrArg activeSession (hear_recorded transferred m signal)).trans active

private theorem foldl_hears {t : TransferSession B} {m : TransferManager B}
    (active : m.activeSession = some t) (transferred : UInt64) (news : List Signal) :
    Hears t m (news.foldl (hear transferred) m) := by
  induction news generalizing m with
  | nil => exact ⟨fun _ _ _ => rfl, id⟩
  | cons signal news ih =>
      exact (hear_hears active transferred signal).trans (ih (hear_active active transferred signal))

private theorem hear_completed {m : TransferManager B} (transferred : UInt64) {signal : Signal}
    (other : signal ≠ .transferCompleted) :
    (hear transferred m signal).completed = m.completed := by
  cases signal with
  | transferCompleted => exact absurd rfl other
  | statusChanged status =>
      unfold hear onSessionStatusChanged
      dsimp only
      split <;> rfl
  | transferFailed errorMsg =>
      unfold hear onSessionFailed
      dsimp only
      split <;> rfl
  | incomingOfferReceived transferId senderDevice totalFiles totalBytes =>
      unfold hear onIncomingOffer
      dsimp only
      split
      · rfl
      · split <;> rfl
  | metricsUpdated metrics => rfl
  | fileStarted fileIndex relativePath fileSize => rfl
  | fileCompleted fileIndex relativePath verified => rfl

private theorem foldl_completed {m : TransferManager B} (transferred : UInt64)
    {news : List Signal} (others : ∀ signal ∈ news, signal ≠ .transferCompleted) :
    (news.foldl (hear transferred) m).completed = m.completed := by
  induction news generalizing m with
  | nil => rfl
  | cons signal news ih =>
      rw [List.foldl_cons, ih fun g mem => others g (List.mem_cons_of_mem _ mem)]
      exact hear_completed transferred (others signal List.mem_cons_self)

private theorem foldl_status {t : TransferSession B} {m : TransferManager B}
    (active : m.activeSession = some t) (transferred : UInt64) {news : List Signal}
    {status : TransferStatus} (ongoing : ∀ signal ∈ news, signal.isOngoing = true)
    (fine : ∀ signal ∈ news, signal.isFinal = false)
    (row : m.database.status? t.transferId = some (statusText status)) :
    (news.foldl (hear transferred) m).database.status? t.transferId =
      some (statusText (news.foldl Signal.follow status)) := by
  induction news generalizing m status with
  | nil => exact row
  | cons signal news ih =>
      refine ih (hear_active active transferred signal)
        (fun g mem => ongoing g (List.mem_cons_of_mem _ mem))
        (fun g mem => fine g (List.mem_cons_of_mem _ mem)) ?_
      have going := ongoing signal List.mem_cons_self
      have sound := fine signal List.mem_cons_self
      cases signal with
      | statusChanged newStatus =>
          simp only [hear, onSessionStatusChanged, active]
          rw [Database.status?_progress, if_pos rfl, row]
          rfl
      | transferCompleted => cases going
      | transferFailed errorMsg => cases sound
      | incomingOfferReceived transferId senderDevice totalFiles totalBytes => cases going
      | metricsUpdated metrics => exact row
      | fileStarted fileIndex relativePath fileSize => exact row
      | fileCompleted fileIndex relativePath verified => exact row

/-- The history says of every completed transfer that it was completed. -/
def Truthful (m : TransferManager B) : Prop :=
  ∀ id ∈ m.completed, m.database.status? id = some (literal "Completed")

/-- The history is truthful, and the active session has ended if its transfer is completed. -/
structure Kept (m : TransferManager B) : Prop where
  truthful : Truthful m
  ended : ∀ s, m.activeSession = some s → s.transferId ∈ m.completed → s.status = .Completed

theorem emitted_eq {s t : TransferSession B} {news : List Signal}
    (signals : t.signals = s.signals ++ news) : emitted s t = news := by
  rw [emitted, signals, List.drop_left]

private theorem truthful_other {t : TransferSession B} {m m' : TransferManager B}
    (truthful : Truthful m) (hears : Hears t m m') (completed : m'.completed = m.completed)
    (fresh : t.transferId ∉ m.completed) : Truthful m' := by
  intro id mem
  rw [completed] at mem
  have other : id ≠ t.transferId := by
    rintro rfl
    exact fresh mem
  have row := truthful id mem
  rw [hears.others id other (row ▸ rfl), row]

private theorem notify_fresh {m : TransferManager B} {s t : TransferSession B}
    {news : List Signal} (truthful : Truthful m) (signals : t.signals = s.signals ++ news)
    (others : ∀ signal ∈ news, signal ≠ .transferCompleted)
    (fresh : t.transferId ∉ m.completed) :
    Kept (m.notify s t) ∧ (m.notify s t).completed = m.completed := by
  have active : { m with activeSession := some t }.activeSession = some t := rfl
  have hears := foldl_hears active s.metrics.totalTransferred news
  have completed : (m.notify s t).completed = m.completed := by
    rw [notify, emitted_eq signals, foldl_completed _ others]
  have heard : Hears t m (m.notify s t) := by
    rw [notify, emitted_eq signals]
    exact ⟨hears.others, hears.own⟩
  refine ⟨⟨truthful_other truthful heard completed fresh, ?_⟩, completed⟩
  intro session found mem
  cases (notify_activeSession m s t).symm.trans found
  exact absurd (completed ▸ mem) fresh

private theorem notify_ends {m : TransferManager B} {s t : TransferSession B}
    (truthful : Truthful m) (ends : Ends s t)
    (found : (m.database.status? t.transferId).isSome) : Kept (m.notify s t) := by
  obtain ⟨front, signals, ongoing, status, -⟩ := ends
  rw [List.append_assoc] at signals
  have active : { m with activeSession := some t }.activeSession = some t := rfl
  have hears := foldl_hears active s.metrics.totalTransferred front
  have others : ∀ signal ∈ front, signal ≠ .transferCompleted := by
    rintro signal mem rfl
    cases ongoing _ mem
  have completed := foldl_completed (m := { m with activeSession := some t })
    s.metrics.totalTransferred others
  have last : m.notify s t = onSessionCompleted
      (front.foldl (hear s.metrics.totalTransferred) { m with activeSession := some t }) := by
    rw [notify, emitted_eq signals, List.foldl_append]
    rfl
  have still := congrArg activeSession
    (foldl_recorded s.metrics.totalTransferred { m with activeSession := some t } front)
  generalize front.foldl (hear s.metrics.totalTransferred) { m with activeSession := some t } =
    before at hears completed last still
  replace still : before.activeSession = some t := still
  have after : m.notify s t = { before with
      database := before.database.recordTransferCompleted t.transferId (literal "Completed") []
      completed := t.transferId :: before.completed } := by
    rw [last, onSessionCompleted, still]
  rw [after]
  constructor
  · intro id mem
    show Database.status? _ id = _
    rw [Database.status?_completed]
    rcases Decidable.em (id = t.transferId) with rfl | other
    · rw [if_pos rfl]
      obtain ⟨row, eq⟩ := Option.isSome_iff_exists.mp (hears.own found)
      rw [eq]
      rfl
    · rw [if_neg other]
      rcases List.mem_cons.mp mem with same | mem
      · exact absurd same other
      · rw [completed] at mem
        have row := truthful id mem
        exact (hears.others id other (row ▸ rfl)).trans row
  · intro session found' _
    have same : before.activeSession = some session := found'
    cases still.symm.trans same
    exact status

private theorem notify_absorbed {m : TransferManager B} {s t : TransferSession B}
    (kept : Kept m) (active : m.activeSession = some s) (continues : Continues s t)
    (mem : t.transferId ∈ m.completed) (absorbed : TransferSession.Absorbed s t) :
    Kept (m.notify s t) := by
  obtain ⟨news, reports⟩ := continues
  have before : s.status = .Completed := kept.ended s active (reports.transferId ▸ mem)
  have fine : ∀ signal ∈ news, signal.isFinal = false := by
    have none : news.filter Signal.isFinal = [] := by
      have same := absorbed.2
      rw [TransferSession.finals, reports.signals, List.filter_append] at same
      exact List.append_right_eq_self.mp same
    intro signal inside
    simpa using List.filter_eq_nil_iff.mp none signal inside
  have others : ∀ signal ∈ news, signal ≠ .transferCompleted := by
    rintro signal inside rfl
    cases reports.ongoing _ inside
  have active' : { m with activeSession := some t }.activeSession = some t := rfl
  have hears := foldl_hears active' s.metrics.totalTransferred news
  have completed : (m.notify s t).completed = m.completed := by
    rw [notify, emitted_eq reports.signals, foldl_completed _ others]
  have row : (m.notify s t).database.status? t.transferId = some (literal "Completed") := by
    have said : m.database.status? t.transferId = some (statusText .Completed) :=
      kept.truthful _ mem
    have told := foldl_status active' s.metrics.totalTransferred reports.ongoing fine said
    have still := reports.status
    rw [absorbed.1, before] at still
    rw [← still] at told
    rw [notify, emitted_eq reports.signals]
    exact told
  have others : ∀ id, id ≠ t.transferId → (m.database.status? id).isSome →
      (m.notify s t).database.status? id = m.database.status? id := by
    rw [notify, emitted_eq reports.signals]
    exact hears.others
  constructor
  · intro id inside
    rw [completed] at inside
    rcases Decidable.em (id = t.transferId) with rfl | other
    · exact row
    · have was := kept.truthful id inside
      rw [others id other (was ▸ rfl), was]
  · intro session found _
    cases (notify_activeSession m s t).symm.trans found
    exact absorbed.1.trans before

/-- The transfer of the active session is among the completed ones. -/
def Finished (m : TransferManager B) : Prop :=
  ∃ s, m.activeSession = some s ∧ s.transferId ∈ m.completed

/-- An event of the active session that leaves the outcome of completed transfers alone. A transfer
completes with a row of its own, whose key is not empty (and so not null); a completed session stays
as it is, completes again or takes a new offer; and no offer claims a completed transfer. -/
structure SessionRespects (J : QJson) (m : TransferManager B) (s : TransferSession B)
    (e : TransferSession.Event) : Prop where
  recorded : Finishes J s e →
    s.transferId ≠ [] ∧ (m.database.status? s.transferId).isSome
  settled : s.transferId ∈ m.completed →
    Quiet J s e ∨ Finishes J s e ∨ ∃ offer, Offers e offer
  unclaimed : ∀ offer, Offers e offer → offer.transferId ∉ m.completed

/-- The event leaves the outcome of completed transfers alone: it cancels, rejects or accepts no
session whose transfer is completed, and no new session gets the identifier of one. -/
def Respects (J : QJson) (m : TransferManager B) : Event → Prop
  | .initiateSend fs paths _ transferId =>
      (FileEnumerator.enumeratePaths fs paths).items ≠ [] →
        ¬ m.Finished ∧ transferId ∉ m.completed
  | .newIncomingConnection _ transferId => transferId ∉ m.completed
  | .acceptIncomingTransfer session _ => session = m.created → m.Finished →
      ∀ s, m.activeSession = some s → s.receivedOffer = none
  | .rejectIncomingTransfer session _ => session = m.created → ¬ m.Finished
  | .session e _ _ => ∀ s, m.activeSession = some s → SessionRespects J m s e
  | .shutdown => ¬ m.Finished
  | _ => True

private theorem continues_fresh {m : TransferManager B} {s t : TransferSession B}
    (truthful : Truthful m) (continues : Continues s t) (fresh : t.transferId ∉ m.completed) :
    Kept (m.notify s t) ∧ (m.notify s t).completed = m.completed := by
  obtain ⟨news, reports⟩ := continues
  refine notify_fresh truthful reports.signals ?_ fresh
  rintro signal mem rfl
  cases reports.ongoing _ mem

private theorem call_continues {s t : TransferSession B} {e : TransferSession.Event}
    (call : ∀ p, e ≠ .packet p) (h : TransferSession.Steps J s e t) : Continues s t := by
  rcases TransferSession.step_reports h with continues | ⟨finishes, -⟩ | ⟨offer, offers, -⟩
  · exact continues
  · cases e with
    | packet p => exact absurd rfl (call p)
    | _ => exact finishes.elim
  · obtain ⟨flags, payload, eq, -⟩ := offers
    exact absurd eq (call _)

private theorem dropSession_kept {m : TransferManager B} (kept : Kept m) (open' : ¬ m.Finished) :
    Kept (m.dropSession J) ∧ (m.dropSession J).completed = m.completed := by
  cases active : m.activeSession with
  | none =>
      have same : m.dropSession J = m := by
        simp only [dropSession, active]
      rw [same]
      exact ⟨kept, rfl⟩
  | some s =>
      have continues : Continues s (s.cancel J) :=
        call_continues (J := J) (e := .cancel) (fun _ => nofun) rfl
      have fresh : (s.cancel J).transferId ∉ m.completed := fun mem => open' ⟨s, active, mem⟩
      obtain ⟨kept', completed⟩ := continues_fresh kept.truthful continues fresh
      have dropped : m.dropSession J =
          { m.notify s (s.cancel J) with activeSession := none, disk := s.disk } := by
        simp only [dropSession, active]
      rw [dropped]
      refine ⟨⟨kept'.truthful, fun session found => ?_⟩, completed⟩
      have absent : none = some session := found
      cases absent

private theorem initiateSend_kept {m : TransferManager B} {fs : FileSystem}
    {paths : List QString} {targetIp transferId : QString} (kept : Kept m)
    (respects : Respects J m (.initiateSend fs paths targetIp transferId)) :
    Kept (m.initiateSend J fs paths targetIp transferId) := by
  unfold initiateSend
  dsimp only
  split
  · exact kept
  · rename_i files
    have allowed : ¬ m.Finished ∧ transferId ∉ m.completed := respects files
    obtain ⟨open', fresh⟩ := allowed
    obtain ⟨dropped, completed⟩ := dropSession_kept (J := J) kept open'
    generalize m.dropSession J = m' at dropped completed
    have new : transferId ∉ m'.completed := completed ▸ fresh
    let session := TransferSession.new B .Send transferId m'.host
    have begun : TransferSession.Steps J session
        (.startSend (FileEnumerator.enumeratePaths fs paths) m'.deviceName m'.chunkSize)
        (session.startSend (FileEnumerator.enumeratePaths fs paths) m'.deviceName
          m'.chunkSize) := rfl
    have continues := call_continues (fun p => TransferSession.Event.noConfusion) begun
    refine (continues_fresh ?_ continues ?_).1
    · intro id mem
      have row := dropped.truthful id mem
      exact (Database.status?_started m'.database _ (row ▸ rfl)).trans row
    · exact new

private theorem acceptIncomingTransfer_kept {m : TransferManager B} {session : Nat}
    {timestamp : QString} (kept : Kept m)
    (respects : Respects J m (.acceptIncomingTransfer session timestamp)) :
    Kept (m.acceptIncomingTransfer J session timestamp) := by
  unfold acceptIncomingTransfer
  split
  · exact kept
  rename_i s active
  split
  · rename_i own
    have taken : TransferSession.Steps J s
        (.acceptTransfer m.downloadDir m.duplicatePolicy timestamp)
        (s.acceptTransfer J m.downloadDir m.duplicatePolicy timestamp) := rfl
    have continues := call_continues (fun p => TransferSession.Event.noConfusion) taken
    have same : (s.acceptTransfer J m.downloadDir m.duplicatePolicy timestamp).transferId =
        s.transferId := by
      obtain ⟨news, reports⟩ := continues
      exact reports.transferId
    by_cases mem : s.transferId ∈ m.completed
    · have ended := kept.ended s active mem
      have quiet : Quiet J s (.acceptTransfer m.downloadDir m.duplicatePolicy timestamp) :=
        respects own ⟨s, active, mem⟩ s active
      refine notify_absorbed kept active continues (same ▸ mem) ?_
      exact (TransferSession.step_absorbed_iff (.inl ended) taken).mpr quiet
    · exact (continues_fresh kept.truthful continues (same ▸ mem)).1
  · exact kept

private theorem rejectIncomingTransfer_kept {m : TransferManager B} {session : Nat}
    {reason : QString} (kept : Kept m)
    (respects : Respects J m (.rejectIncomingTransfer session reason)) :
    Kept (m.rejectIncomingTransfer J session reason) := by
  unfold rejectIncomingTransfer
  split
  · exact kept
  rename_i s active
  split
  · rename_i own
    have fresh : s.transferId ∉ m.completed := fun mem => respects own ⟨s, active, mem⟩
    have continues : Continues s (s.rejectTransfer J reason) :=
      call_continues (J := J) (e := .rejectTransfer reason) (fun _ => nofun) rfl
    obtain ⟨kept', completed⟩ := continues_fresh kept.truthful continues fresh
    refine ⟨fun id mem => ?_, kept'.ended⟩
    have other : id ≠ s.transferId := by
      rintro rfl
      exact fresh (completed ▸ mem)
    show Database.status? _ id = _
    rw [Database.status?_completed, if_neg other]
    exact kept'.truthful id mem
  · exact kept

private theorem moved_kept {m : TransferManager B} {s t : TransferSession B}
    {e : TransferSession.Event} {timestamp : QString} (kept : Kept m)
    (active : m.activeSession = some s) (respects : SessionRespects J m s e)
    (taken : TransferSession.Steps J s e t) : Kept (m.moved J s t timestamp) := by
  -- only an offer that was taken is accepted
  have quietly : Kept (m.notify s t) →
      (∀ signal ∈ emitted s t, Signal.isOffer signal = false) → Kept (m.moved J s t timestamp) := by
    intro kept' none
    unfold moved
    dsimp only
    rw [if_neg]
    · exact kept'
    rintro ⟨-, -, some⟩
    obtain ⟨signal, mem, offer⟩ := List.any_eq_true.mp some
    rw [none signal mem] at offer
    cases offer
  have plain : ∀ signal : Signal, signal.isOngoing = true → Signal.isOffer signal = false := by
    intro signal ongoing
    cases signal with
    | incomingOfferReceived => cases ongoing
    | _ => rfl
  rcases TransferSession.step_reports taken with continues | ⟨finishes, ends⟩ |
    ⟨offer, offers, claimed, front, signals, ongoing⟩
  · obtain ⟨news, reports⟩ := continues
    refine quietly ?_ fun signal mem => ?_
    · by_cases mem : t.transferId ∈ m.completed
      · have own : s.transferId ∈ m.completed := reports.transferId ▸ mem
        rcases respects.settled own with quiet | finishes | ⟨offer, offers⟩
        · have absorbed := (TransferSession.step_absorbed_iff
            (.inl (kept.ended s active own)) taken).mpr quiet
          exact notify_absorbed kept active ⟨news, reports⟩ mem absorbed
        · exact notify_ends kept.truthful (finishes.ends taken) (kept.truthful _ mem ▸ rfl)
        · have unclaimed := respects.unclaimed offer offers
          rw [offers.transferId taken] at mem
          exact absurd mem unclaimed
      · exact (continues_fresh kept.truthful ⟨news, reports⟩ mem).1
    · rw [emitted_eq reports.signals] at mem
      exact plain signal (reports.ongoing signal mem)
  · obtain ⟨front, signals, ongoing, status, same⟩ := ends
    refine quietly ?_ fun signal mem => ?_
    · refine notify_ends kept.truthful ⟨front, signals, ongoing, status, same⟩ ?_
      rw [same]
      exact (respects.recorded finishes).2
    · rw [List.append_assoc] at signals
      rw [emitted_eq signals] at mem
      rcases List.mem_append.mp mem with mem | mem
      · exact plain signal (ongoing signal mem)
      · rw [List.mem_singleton.mp mem]
        rfl
  · have fresh : t.transferId ∉ m.completed := claimed ▸ respects.unclaimed offer offers
    rw [List.append_assoc] at signals
    obtain ⟨kept', completed⟩ := notify_fresh kept.truthful signals (by
      rintro signal mem rfl
      rcases List.mem_append.mp mem with mem | mem
      · cases ongoing _ mem
      · cases List.mem_singleton.mp mem) fresh
    unfold moved
    dsimp only
    split
    · refine acceptIncomingTransfer_kept kept' ?_
      rintro - ⟨session, found, mem⟩
      cases (notify_activeSession m s t).symm.trans found
      rw [completed] at mem
      exact absurd mem fresh
    · exact kept'

/-- An event that respects the outcome of completed transfers keeps the history truthful. -/
theorem step_kept {m m' : TransferManager B} {e : Event} (kept : Kept m)
    (respects : Respects J m e) (h : Steps J m e m') : Kept m' := by
  cases e with
  | initiateSend fs paths targetIp transferId =>
      cases h
      exact initiateSend_kept kept respects
  | newIncomingConnection remoteIp transferId =>
      cases h
      unfold onNewIncomingConnection
      dsimp only
      split
      · exact kept
      · refine ⟨kept.truthful, ?_⟩
        rintro s ⟨⟩ mem
        exact absurd mem respects
  | acceptIncomingTransfer session timestamp =>
      cases h
      exact acceptIncomingTransfer_kept kept respects
  | rejectIncomingTransfer session reason =>
      cases h
      exact rejectIncomingTransfer_kept kept respects
  | session e spontaneous timestamp =>
      cases active : m.activeSession with
      | none =>
          simp only [Steps, step, active] at h
          cases h
          exact kept
      | some s =>
          simp only [Steps, step, active] at h
          obtain ⟨t, taken, rfl⟩ := Except.ok_of_map h
          exact moved_kept kept active (respects s active) taken
  | setDeviceName name =>
      cases h
      split <;> exact ⟨kept.truthful, kept.ended⟩
  | setDefaultDownloadDir dir =>
      cases h
      split <;> exact ⟨kept.truthful, kept.ended⟩
  | setDuplicatePolicy policy =>
      cases h
      exact ⟨kept.truthful, kept.ended⟩
  | setChunkSize bytes =>
      cases h
      split <;> exact ⟨kept.truthful, kept.ended⟩
  | setAutoAccept enabled =>
      cases h
      exact ⟨kept.truthful, kept.ended⟩
  | clearHistory =>
      cases h
      constructor
      · intro id mem
        cases mem
      · intro s _ mem
        cases mem
  | shutdown =>
      cases h
      have same : Kept { m with listening := false } := ⟨kept.truthful, kept.ended⟩
      have open' : ¬ Finished { m with listening := false } := respects
      obtain ⟨kept', -⟩ := dropSession_kept (J := J) same open'
      exact kept'

/-- While every event respects the outcome of completed transfers, the history says of each of them
that it was completed. -/
theorem history_truthful (J : QJson) {start m : TransferManager B} {events : List Event}
    (idle : start.activeSession = none) (none : start.completed = [])
    (run : Run (Guarded (Steps J) (Respects J)) start events m) : Truthful m := by
  have initial : Kept start := by
    constructor
    · intro id mem
      rw [none] at mem
      cases mem
    · intro s found
      rw [idle] at found
      cases found
  have kept := run.invariant Kept (fun _ _ _ kept next => step_kept kept next.1 next.2) initial
  exact kept.truthful

/-! A transfer of one file to a manager that was just started. -/

def started : TransferManager Blake3.vendored := { disk := Disk.blank }

def offering : TransferSession.Event :=
  .packet ⟨.TransferOffer, 0, Protocol.serializeTransferOffer { transferId := literal "t" }⟩

def completing : TransferSession.Event := .packet ⟨.TransferComplete, 0, []⟩

def connected : TransferManager Blake3.vendored :=
  started.onNewIncomingConnection [] (literal "s")

def offered : Except Crash (TransferManager Blake3.vendored) :=
  step CompactJson.codec connected (.session offering trivial [])

/-- The offered transfer is completed, and the history says so. -/
theorem history_truthful_offered :
    ∃ m m', offered.toOption = some m ∧
      Steps CompactJson.codec m (.session completing trivial []) m' ∧
      m'.completed = [literal "t"] ∧ Truthful m' := by
  have computed : offered.toOption.bind (fun m =>
      (step CompactJson.codec m (.session completing trivial [])).toOption.bind fun m' =>
        m.activeSession.map fun s => (m.completed, m'.completed, s.transferId,
          (m.database.status? s.transferId).isSome)) =
      some ([], [literal "t"], literal "t", true) := by
    decide +kernel
  obtain ⟨m, reached, computed⟩ := Option.bind_eq_some_iff.mp computed
  obtain ⟨m', reached', computed⟩ := Option.bind_eq_some_iff.mp computed
  obtain ⟨s, active, members⟩ := Option.map_eq_some_iff.mp computed
  simp only [Prod.mk.injEq] at members
  obtain ⟨none, completed, named, row⟩ := members
  have second : Steps CompactJson.codec m (.session completing trivial []) m' :=
    Except.ok_of_toOption reached'
  refine ⟨m, m', reached, second, completed, ?_⟩
  have run : Run (Guarded (Steps CompactJson.codec) (Respects CompactJson.codec)) started
      ([] ++ [.newIncomingConnection [] (literal "s")] ++ [.session offering trivial []] ++
        [.session completing trivial []]) m' := by
    refine .snoc (.snoc (.snoc .nil ⟨?_, rfl⟩) ⟨?_, Except.ok_of_toOption reached⟩)
      ⟨?_, second⟩
    · exact List.not_mem_nil
    · intro s found
      exact ⟨False.elim, fun mem => absurd mem List.not_mem_nil, fun _ _ => List.not_mem_nil⟩
    · intro s' found
      cases active.symm.trans found
      refine ⟨fun _ => ⟨?_, row⟩, fun mem => ?_, ?_⟩
      · rw [named]
        decide
      · rw [none] at mem
        cases mem
      · rintro offer ⟨flags, payload, impossible, -⟩
        cases impossible
  exact history_truthful CompactJson.codec rfl rfl run

/-- At the application's exit the completed transfer becomes a cancelled one. -/
theorem history_rewritten :
    let events : List Event :=
      [.newIncomingConnection [] (literal "s"), .session offering trivial [],
        .acceptIncomingTransfer 1 [], .session completing trivial []]
    ∃ m, events.foldlM (step CompactJson.codec) started = .ok m ∧
      m.completed = [literal "t"] ∧
      m.database.status? (literal "t") = some (literal "Completed") ∧
      (m.shutdown CompactJson.codec).completed = [literal "t"] ∧
      (m.shutdown CompactJson.codec).database.status? (literal "t") =
        some (literal "Cancelled") := by
  intro events
  have computed : (events.foldlM (step CompactJson.codec) started).toOption.map (fun m =>
      (m.completed, m.database.status? (literal "t"), (m.shutdown CompactJson.codec).completed,
        (m.shutdown CompactJson.codec).database.status? (literal "t"))) =
      some ([literal "t"], some (literal "Completed"), [literal "t"],
        some (literal "Cancelled")) := by
    decide +kernel
  obtain ⟨m, reached, members⟩ := Option.map_eq_some_iff.mp computed
  simp only [Prod.mk.injEq] at members
  exact ⟨m, Except.ok_of_toOption reached, members⟩

end FastTransfer.TransferManager
