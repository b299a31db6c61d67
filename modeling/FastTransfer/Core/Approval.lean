/- FastTransfer/Core/Approval
   source: src/core/TransferSession.cpp
   digest: Which packets touch the disk before the user has accepted an offer. -/

import FastTransfer.Core.ReceiverSteps
import FastTransfer.Qt.CompactJson

set_option autoImplicit false
set_option relaxedAutoImplicit false

namespace FastTransfer.TransferSession

open Protocol QString

variable {B : Blake3} {J : QJson}

/-- The events include a call of `acceptTransfer` on a Receive session that had an offer. -/
def Approved (J : QJson) (start : TransferSession B) (events : List Event) : Prop :=
  ∃ before after baseOutputDir policy timestamp t,
    events = before ++ .acceptTransfer baseOutputDir policy timestamp :: after ∧
      execute J start before = .ok t ∧ t.direction = .Receive ∧ t.receivedOffer.isSome

/-- No disk operation was done and no writer exists. -/
def Untouched (start t : TransferSession B) : Prop := t.disk = start.disk ∧ t.fileWriter = none

def Event.StartsFile (e : Event) : Prop :=
  ∃ p, e = .packet p ∧ p.type = .FileStart ∧ (parseFileStart p.payload).isSome

private def KeepsFiles (s t : TransferSession B) : Prop :=
  t.disk = s.disk ∧ (s.fileWriter = none → t.fileWriter = none)

/-- Of the events only a `FileStart` that parses does anything to a session without a writer. -/
private theorem step_keeps {s t : TransferSession B} {e : Event} (h : Steps J s e t)
    (absent : s.fileWriter = none) (other : ¬ e.StartsFile) : KeepsFiles s t := by
  cases step_receiver h with
  | opened parsed => exact absurd ⟨_, rfl, rfl, by rw [parsed]; rfl⟩ other
  | refused parsed => exact absurd ⟨_, rfl, rfl, by rw [parsed]; rfl⟩ other
  | written _ found =>
      rw [absent] at found
      cases found
  | unwritten _ found =>
      rw [absent] at found
      cases found
  | ended _ found =>
      rw [absent] at found
      cases found
  | ignored _ => exact ⟨rfl, id⟩
  | bystander _ moved =>
      refine ⟨moved.disk, fun none => ?_⟩
      rcases moved.fileWriter with same | closed
      · exact same.trans none
      · rw [closed, none]
        rfl

private theorem approved_snoc {start : TransferSession B} {events : List Event} {e : Event}
    (h : Approved J start events) : Approved J start (events ++ [e]) := by
  obtain ⟨before, after, baseOutputDir, policy, timestamp, t, split, run, role, offer⟩ := h
  refine ⟨before, after ++ [e], baseOutputDir, policy, timestamp, t, ?_, run, role, offer⟩
  rw [split, List.append_assoc, List.cons_append]

private theorem execute_prefix {start t : TransferSession B} {before after : List Event}
    (h : execute J start (before ++ after) = .ok t) : ∃ u, execute J start before = .ok u := by
  induction after using List.reverseRecOn generalizing t with
  | nil => exact ⟨t, by rwa [List.append_nil] at h⟩
  | append_singleton after e ih =>
      rw [← List.append_assoc] at h
      obtain ⟨u, mid, -⟩ := execute_snoc_ok h
      exact ih mid

private theorem untouched_of_approved {start : TransferSession B} (fresh : start.fileWriter = none)
    (events : List Event) :
    (∀ before e after, events = before ++ e :: after → e.StartsFile → Approved J start before) →
      ∀ t, execute J start events = .ok t → ¬ Approved J start events → Untouched start t := by
  induction events using List.reverseRecOn with
  | nil =>
      intro _ t h _
      cases h
      exact ⟨rfl, fresh⟩
  | append_singleton events e ih =>
      intro meets t h notApproved
      obtain ⟨u, mid, last⟩ := execute_snoc_ok h
      have earlier : ¬ Approved J start events := fun approved =>
        notApproved (approved_snoc approved)
      have other : ¬ e.StartsFile := fun starts =>
        earlier (meets events e [] rfl starts)
      obtain ⟨disk, absent⟩ := ih
        (fun before e' after split starts => meets before e' (after ++ [e])
          (by rw [split, List.append_assoc, List.cons_append]) starts) u mid earlier
      obtain ⟨disk', absent'⟩ := step_keeps last absent other
      exact ⟨disk'.trans disk, absent' absent⟩

private theorem onFileStart_opens {s : TransferSession B} {payload : QByteArray}
    (parsed : (parseFileStart payload).isSome) : (onFileStart s payload).fileWriter ≠ none := by
  obtain ⟨start, eq⟩ := Option.isSome_iff_exists.mp parsed
  rw [onFileStart, eq]
  dsimp only
  split
  · exact Option.some_ne_none _
  · exact Option.some_ne_none _

/-- In a run of a session that starts without a writer, the disk stays as it was and no writer
is opened before the approval if and only if no `FileStart` that parses comes before it. -/
theorem untouched_iff_approved (J : QJson) {start t : TransferSession B} {events : List Event}
    (initial : Initial start) (run : execute J start events = .ok t) :
    (∀ before after u, events = before ++ after → execute J start before = .ok u →
        ¬ Approved J start before → Untouched start u) ↔
      ∀ before e after, events = before ++ e :: after → e.StartsFile →
        Approved J start before := by
  have fresh : start.fileWriter = none := by cases initial <;> rfl
  constructor
  · intro untouched before e after split starts
    by_contra notApproved
    obtain ⟨p, rfl, type, parsed⟩ := starts
    have split' : events = (before ++ [.packet p]) ++ after := by
      rw [split, List.append_assoc]
      rfl
    obtain ⟨u, reached⟩ := execute_prefix (split' ▸ run)
    have notYet : ¬ Approved J start (before ++ [.packet p]) := by
      rintro ⟨before', after', dir, policy, timestamp, v, eq, run', role, offer⟩
      rcases List.eq_nil_or_concat after' with rfl | ⟨init, last, rfl⟩
      · have := (List.append_inj' eq rfl).2
        cases this
      · rw [List.concat_eq_append, ← List.cons_append, ← List.append_assoc] at eq
        obtain ⟨same, _⟩ := List.append_inj' eq rfl
        exact notApproved ⟨before', init, dir, policy, timestamp, v, same, run', role, offer⟩
    have none := (untouched _ after u split' reached notYet).2
    obtain ⟨v, mid, opened⟩ := execute_snoc_ok reached
    change onPacketReceived J v p = .ok u at opened
    simp only [onPacketReceived, type] at opened
    cases opened
    exact onFileStart_opens parsed none
  · intro meets before after u split reached notApproved
    refine untouched_of_approved fresh before (fun first e rest split' => ?_) u reached notApproved
    exact meets first e (rest ++ after) (by
      rw [split, split', List.append_assoc, List.cons_append])

/-- An offer that is accepted, and then the start of a file, which reaches the disk. -/
theorem untouched_iff_approved_accepted :
    let start := fromConnection Blake3.vendored [] Disk.blank
    let events : List Event :=
      [.packet ⟨.TransferOffer, 0, serializeTransferOffer { transferId := literal "t" }⟩,
        .acceptTransfer [] .Rename (literal "2024-01-31_12-00-00"),
        .packet ⟨.FileStart, 0, serializeFileStart { relativePath := literal "a" }⟩]
    ∃ t, execute CompactJson.codec start events = .ok t ∧ t.disk.effects ≠ [] ∧
      ∀ before after u, events = before ++ after →
        execute CompactJson.codec start before = .ok u →
        ¬ Approved CompactJson.codec start before → Untouched start u := by
  intro start events
  have computed : (execute CompactJson.codec start events).toOption.map
      (fun t => decide (t.disk.effects ≠ [])) = some true := by
    decide +kernel
  have offered : (execute CompactJson.codec start (events.take 1)).toOption.map
      (fun t => (t.direction, t.receivedOffer.isSome)) = some (.Receive, true) := by
    decide +kernel
  obtain ⟨t, reached, written⟩ := Option.map_eq_some_iff.mp computed
  obtain ⟨s, asked, members⟩ := Option.map_eq_some_iff.mp offered
  obtain ⟨role, offer⟩ := Prod.mk.inj members
  have run := Except.ok_of_toOption reached
  refine ⟨t, run, of_decide_eq_true written, ?_⟩
  refine (untouched_iff_approved CompactJson.codec (.fromConnection [] Disk.blank) run).mpr ?_
  rintro before e after split ⟨p, rfl, type, -⟩
  -- of the three events only the last is a `FileStart`
  rcases before with _ | ⟨first, _ | ⟨second, _ | ⟨third, before⟩⟩⟩
  · have same := Event.packet.inj (List.cons.inj split).1
    rw [← same] at type
    cases type
  · cases (List.cons.inj (List.cons.inj split).2).1
  · obtain ⟨rfl, rest⟩ := List.cons.inj split
    obtain ⟨rfl, -⟩ := List.cons.inj rest
    exact ⟨_, [], _, _, _, s, rfl, Except.ok_of_toOption asked, role, offer⟩
  · have length := congrArg List.length split
    simp [events] at length

/-- Before an approval a packet can leave a file on the disk of a Send session. -/
theorem send_session_writes :
    ((execute CompactJson.codec (new Blake3.vendored .Send [] Disk.blank)
      [.packet ⟨.FileStart, 0, serializeFileStart { relativePath := literal "a" }⟩]).toOption.map
        fun t => t.disk.effects) =
      some [.mkpath (literal "Unknown-Device"),
        .openReadWrite (literal "Unknown-Device/a.partial")] := by
  decide +kernel

end FastTransfer.TransferSession
