/- FastTransfer/Core/Survival
   source: src/core/TransferSession.cpp, src/filesystem/FileWriter.cpp,
     src/integrity/Blake3Hasher.cpp
   digest: What later packets do to a file that was committed and acknowledged. -/

import FastTransfer.Core.Link

set_option autoImplicit false
set_option relaxedAutoImplicit false

namespace FastTransfer

open Protocol
open QString (literal)

variable {B : Blake3} {J : QJson}

theorem Blake3Hasher.finalizeHex_again (hasher : Blake3Hasher B) :
    hasher.finalizeHex.2.finalizeHex.1 = hasher.finalizeHex.1 := by
  have cached : hasher.finalizeRaw.finalized = true := by
    unfold finalizeRaw
    split
    · assumption
    · rfl
  have again : hasher.finalizeRaw.finalizeRaw = hasher.finalizeRaw := by
    rw [finalizeRaw, if_pos cached]
  simp only [finalizeHex, again]

namespace FileWriter

/-- A closed writer whose staging file is gone from the disk. -/
structure Spent (target staging digest : QString) (writer : FileWriter B) (d : Disk) : Prop where
  closed : writer.file.isOpen = false
  targetFilePath : writer.targetFilePath = target
  partialFilePath : writer.partialFilePath = staging
  digest : writer.hasher.finalizeHex.1 = digest
  gone : d.node staging = none

variable {target staging digest : QString} {writer : FileWriter B} {d : Disk}

theorem Spent.abort (spent : Spent target staging digest writer d) :
    Spent target staging digest writer.abort d :=
  ⟨rfl, spent.targetFilePath, spent.partialFilePath, spent.digest, spent.gone⟩

theorem Spent.writeChunk (spent : Spent target staging digest writer d) (offset : UInt64)
    (data : QByteArray) :
    (writer.writeChunk d offset data).2.2 = d ∧
      Spent target staging digest (writer.writeChunk d offset data).2.1 d := by
  have refused : writer.writeChunk d offset data = (false, { writer with
      errorString := literal "File is not open for writing" }, d) := by
    simp [FileWriter.writeChunk, spent.closed]
  rw [refused]
  exact ⟨rfl, spent.closed, spent.targetFilePath, spent.partialFilePath, spent.digest, spent.gone⟩

theorem spent_commit {expectedBlake3 : QString}
    (committed : (writer.finalizeAndCommit d expectedBlake3).1 = true) :
    (∃ content, (writer.finalizeAndCommit d expectedBlake3).2.2.node writer.targetFilePath =
        some (.file content)) ∧
      Spent writer.targetFilePath writer.partialFilePath writer.hasher.finalizeHex.1
        (writer.finalizeAndCommit d expectedBlake3).2.1
        (writer.finalizeAndCommit d expectedBlake3).2.2 := by
  have verified : writer.Verifies expectedBlake3 := by
    by_contra mismatch
    rw [finalizeAndCommit_mismatch mismatch] at committed
    cases committed
  obtain ⟨errorString, eq⟩ := finalizeAndCommit_verified (d := d) verified
  rw [eq] at committed ⊢
  obtain ⟨content, -, -, there, gone⟩ := Disk.node_rename committed
  exact ⟨⟨content, there⟩, rfl, rfl, rfl, writer.hasher.finalizeHex_again, gone⟩

private theorem refused_rename (d : Disk) (source target : QString) :
    (d.rename source target).2.refused = d.refused := by
  unfold Disk.rename
  split
  · dsimp only
    split <;> rfl
  · rfl

private theorem rename_nothing {source target : QString} (nothing : d.node source = none)
    (q : QString) : (d.rename source target).2.node q = d.node q := by
  refine Disk.node_rename_failed ?_ q
  by_contra renamed
  obtain ⟨content, found, -⟩ := Disk.node_rename (by simpa using renamed)
  rw [nothing] at found
  cases found

private theorem removed_node {d : Disk} {target : QString} (file : d.node target ≠ some .dir) :
    let cleared := if d.exists target then d.remove target else d
    d.refused (.remove target) = true ∧ cleared.node target = d.node target ∨
      d.refused (.remove target) = false ∧ cleared.node target = none := by
  intro cleared
  cases found : d.node target with
  | none =>
      have absent : d.exists target = false := by rw [Disk.exists, found]; rfl
      have same : cleared = d := if_neg (by rw [absent]; exact Bool.false_ne_true)
      rw [same, found]
      cases d.refused (.remove target) with
      | true => exact .inl ⟨rfl, rfl⟩
      | false => exact .inr ⟨rfl, rfl⟩
  | some n =>
      cases n with
      | dir => exact absurd found file
      | file content =>
          have there : d.exists target = true := by rw [Disk.exists, found]; rfl
          cases refused : d.refused (.remove target) with
          | true =>
              refine .inl ⟨rfl, ?_⟩
              simp [cleared, there, Disk.remove, found, refused]
          | false =>
              refine .inr ⟨rfl, ?_⟩
              simp [cleared, there, Disk.remove, found, refused]

/-- Finalising a spent writer again removes the committed file if the checksum passes. -/
theorem Spent.finalizeAndCommit (spent : Spent target staging digest writer d)
    (file : d.node target ≠ some .dir) (expectedBlake3 : QString) :
    let result := writer.finalizeAndCommit d expectedBlake3
    Spent target staging digest result.2.1 result.2.2 ∧ result.2.2.refused = d.refused ∧
      ((writer.Verifies expectedBlake3 → d.refused (.remove target) = true) ∧
          result.2.2.node target = d.node target ∨
        writer.Verifies expectedBlake3 ∧ d.refused (.remove target) = false ∧
          result.2.2.node target = none) := by
  intro result
  by_cases verified : writer.Verifies expectedBlake3
  · obtain ⟨errorString, eq⟩ := finalizeAndCommit_verified (d := d) verified
    have cleared : writer.cleared d = if d.exists target then d.remove target else d := by
      rw [FileWriter.cleared, spent.targetFilePath]
    have nothing : (writer.cleared d).node staging = none := by
      rw [cleared]
      split
      · rename_i there
        by_cases same : staging = target
        · rw [Disk.exists, ← same, spent.gone] at there
          cases there
        · rw [Disk.node_remove_ne d same, spent.gone]
      · exact spent.gone
    have host : (writer.cleared d).refused = d.refused := by
      rw [cleared]
      exact (d.host_removed target).1
    have after : result.2.2 = ((writer.cleared d).rename staging target).2 := by
      simp only [result, eq, spent.targetFilePath, spent.partialFilePath]
    have node (q : QString) : ((writer.cleared d).rename staging target).2.node q =
        (writer.cleared d).node q := rename_nothing nothing q
    refine ⟨⟨?_, ?_, ?_, ?_, ?_⟩, ?_, ?_⟩
    · simp only [result, eq]
      rfl
    · simp only [result, eq]
      exact spent.targetFilePath
    · simp only [result, eq]
      exact spent.partialFilePath
    · simp only [result, eq]
      exact writer.hasher.finalizeHex_again.trans spent.digest
    · rw [after, node, nothing]
    · rw [after, refused_rename, host]
    · rw [after, node, cleared]
      rcases removed_node file with ⟨refused, same⟩ | ⟨allowed, gone⟩
      · exact .inl ⟨fun _ => refused, same⟩
      · exact .inr ⟨verified, allowed, gone⟩
  · have eq := finalizeAndCommit_mismatch (d := d) verified
    have same : result = _ := eq
    rw [same]
    refine ⟨⟨rfl, spent.targetFilePath, spent.partialFilePath, ?_, spent.gone⟩, rfl, .inl ?_⟩
    · exact writer.hasher.finalizeHex_again.trans spent.digest
    · exact ⟨fun yes => absurd yes verified, rfl⟩

end FileWriter

namespace TransferSession

/-- An event that starts no other file. -/
def Further (e : Event) : Prop := ∀ p, e = .packet p → p.type ≠ .FileStart

/-- The end of a file that passes for the one with the digest. -/
def Recommits (digest : QString) (e : Event) : Prop :=
  ∃ flags payload msg, e = .packet ⟨.FileEnd, flags, payload⟩ ∧ parseFileEnd payload = some msg ∧
    (msg.blake3Checksum = [] ∨ QString.equalsIgnoringCase msg.blake3Checksum digest = true)

def Settled (target staging digest : QString) (s : TransferSession B) : Prop :=
  ∃ writer, s.fileWriter = some writer ∧ writer.Spent target staging digest s.disk

variable {target staging digest : QString}

private theorem not_recommits {e : Event} (other : ∀ p, e = .packet p → p.type ≠ .FileEnd) :
    ¬ Recommits digest e := by
  rintro ⟨flags, payload, msg, rfl, -⟩
  exact other _ rfl rfl

/-- A further event keeps the session settled, and removes the committed file exactly if it
commits the file again and the removal is not refused. -/
theorem settled_step {s t : TransferSession B} {e : Event}
    (settled : Settled target staging digest s)
    (file : s.disk.node target ≠ some .dir) (further : Further e) (h : Steps J s e t) :
    Settled target staging digest t ∧ t.disk.refused = s.disk.refused ∧
      ((Recommits digest e → s.disk.refused (.remove target) = true) ∧
          t.disk.node target = s.disk.node target ∨
        Recommits digest e ∧ s.disk.refused (.remove target) = false ∧
          t.disk.node target = none) := by
  obtain ⟨writer, found, spent⟩ := settled
  cases step_receiver h with
  | opened parsed opened => exact absurd rfl (further _ rfl)
  | refused parsed refused => exact absurd rfl (further _ rfl)
  | @written flags payload chunk writer' parsed found' written =>
      cases found.symm.trans found'
      have isOpen := (FileWriter.writeChunk_ok written).1
      rw [spent.closed] at isOpen
      cases isOpen
  | @unwritten flags payload chunk writer' parsed found' failed =>
      cases found.symm.trans found'
      obtain ⟨disk, spent⟩ := spent.writeChunk chunk.offset chunk.chunkData
      have same : (s.chunkWritten writer chunk).disk = s.disk := disk
      refine ⟨⟨_, rfl, ?_⟩, ?_, .inl ⟨?_, ?_⟩⟩
      · show FileWriter.Spent target staging digest _ (s.chunkWritten writer chunk).disk
        rw [same]
        exact spent
      · show (s.chunkWritten writer chunk).disk.refused = _
        rw [same]
      · refine fun again => absurd again (not_recommits ?_)
        rintro p ⟨⟩
        exact nofun
      · show (s.chunkWritten writer chunk).disk.node target = _
        rw [same]
  | @ended flags payload msg writer' parsed found' =>
      cases found.symm.trans found'
      obtain ⟨spent', refused, outcome⟩ := spent.finalizeAndCommit file msg.blake3Checksum
      have again : Recommits digest (.packet ⟨.FileEnd, flags, payload⟩) ↔
          writer.Verifies msg.blake3Checksum := by
        rw [FileWriter.Verifies, spent.digest]
        constructor
        · rintro ⟨flags', payload', msg', same, parsed', passes⟩
          cases same
          cases parsed.symm.trans parsed'
          exact passes
        · intro passes
          exact ⟨flags, payload, msg, rfl, parsed, passes⟩
      rw [again]
      exact ⟨⟨_, rfl, spent'⟩, refused, outcome⟩
  | ignored ignored =>
      refine ⟨⟨writer, found, spent⟩, rfl, .inl ⟨?_, rfl⟩⟩
      rintro ⟨flags, payload, msg, rfl, parsed, -⟩
      rcases ignored.fileEnd flags payload rfl with unparsed | absent
      · rw [unparsed] at parsed
        cases parsed
      · rw [absent] at found
        cases found
  | bystander other moved =>
      refine ⟨?_, by rw [moved.disk], .inl ⟨?_, by rw [moved.disk]⟩⟩
      · rw [Settled, moved.disk]
        rcases moved.fileWriter with same | aborted
        · exact ⟨writer, same.trans found, spent⟩
        · exact ⟨writer.abort, by rw [aborted, found]; rfl, spent.abort⟩
      · refine fun again => absurd again (not_recommits fun p eq type => other p eq ?_)
        rw [type]
        decide

/-- A settled session after further events: the file is there unless it was committed again. -/
private theorem settled_execute {s u : TransferSession B} {content : QByteArray}
    {events : List Event} (settled : Settled target staging digest s)
    (there : s.disk.node target = some (.file content)) (further : ∀ e ∈ events, Further e)
    (run : execute J s events = .ok u) :
    Settled target staging digest u ∧ u.disk.refused = s.disk.refused ∧
      ((s.disk.refused (.remove target) = true ∨ ∀ e ∈ events, ¬ Recommits digest e) ∧
          u.disk.node target = some (.file content) ∨
        ¬ (s.disk.refused (.remove target) = true ∨ ∀ e ∈ events, ¬ Recommits digest e) ∧
          u.disk.node target = none) := by
  induction events using List.reverseRecOn generalizing u with
  | nil =>
      cases run
      exact ⟨settled, rfl, .inl ⟨.inr nofun, there⟩⟩
  | append_singleton events e ih =>
      obtain ⟨v, mid, run⟩ := execute_snoc_ok run
      obtain ⟨settled', refused, before⟩ :=
        ih (fun e mem => further e (List.mem_append_left _ mem)) mid
      have file : v.disk.node target ≠ some .dir := by
        rcases before with ⟨-, node⟩ | ⟨-, node⟩ <;> rw [node] <;> exact nofun
      obtain ⟨settled'', refused', now⟩ := settled_step settled' file
        (further e (List.mem_append_right _ List.mem_cons_self)) run
      refine ⟨settled'', refused'.trans refused, ?_⟩
      rw [refused] at now
      simp only [List.forall_mem_append, List.forall_mem_singleton]
      rcases before with ⟨kept, node⟩ | ⟨removed, node⟩
      · rcases now with ⟨harmless, same⟩ | ⟨again, allowed, gone⟩
        · refine .inl ⟨?_, same.trans node⟩
          rcases kept with denied | none
          · exact .inl denied
          · by_cases again : Recommits digest e
            · exact .inl (harmless again)
            · exact .inr ⟨none, again⟩
        · refine .inr ⟨?_, gone⟩
          rintro (denied | ⟨-, never⟩)
          · rw [allowed] at denied
            cases denied
          · exact never again
      · refine .inr ⟨?_, ?_⟩
        · rintro (denied | ⟨none, -⟩)
          · exact removed (.inl denied)
          · exact removed (.inr none)
        · rcases now with ⟨-, same⟩ | ⟨-, -, gone⟩
          · exact same.trans node
          · exact gone

/-- A file that was acknowledged as good is at its target, and through any events before the next
`FileStart` it stays there as it is, exactly if no `FileEnd` among them commits it again or its
removal is refused. -/
theorem survives_iff_not_recommitted (J : QJson) {s t : TransferSession B} {flags : UInt16}
    {payload : QByteArray} {msg : MsgFileEnd} {writer : FileWriter B}
    (parsed : parseFileEnd payload = some msg) (found : s.fileWriter = some writer)
    (positive : (s.endAck writer msg).statusCode = 0)
    (acknowledged : Steps J s (.packet ⟨.FileEnd, flags, payload⟩) t) :
    ∃ content, t.disk.node writer.targetFilePath = some (.file content) ∧
      ∀ events u, (∀ e ∈ events, Further e) → execute J t events = .ok u →
        (u.disk.node writer.targetFilePath = some (.file content) ↔
          t.disk.refused (.remove writer.targetFilePath) = true ∨
            ∀ e ∈ events, ¬ Recommits (s.endAck writer msg).calculatedBlake3 e) := by
  have committed : (writer.finalizeAndCommit s.disk msg.blake3Checksum).1 = true := by
    by_contra failed
    simp [endAck, failed] at positive
  obtain ⟨⟨content, there⟩, spent⟩ := FileWriter.spent_commit committed
  have reported : (s.endAck writer msg).calculatedBlake3 = writer.hasher.finalizeHex.1 := by
    show (writer.finalizeAndCommit s.disk msg.blake3Checksum).2.1.calculatedChecksum = _
    unfold FileWriter.finalizeAndCommit
    dsimp only
    split
    · rfl
    · unfold FileWriter.commit
      dsimp only
      split <;> rfl
  have ended : t = s.fileEnded writer msg := by
    rw [← Except.ok.inj acknowledged]
    simp only [onFileEnd, parsed, found]
  rw [reported, ended]
  refine ⟨content, there, fun events u further run => ?_⟩
  obtain ⟨-, -, outcome⟩ := settled_execute ⟨_, rfl, spent⟩ there further run
  rcases outcome with ⟨kept, node⟩ | ⟨removed, node⟩
  · exact iff_of_true node kept
  · refine iff_of_false (fun file => ?_) removed
    rw [node] at file
    cases file

def arrived : Except Crash (TransferSession Blake3.vendored) :=
  execute CompactJson.codec (fromConnection Blake3.vendored [] Disk.blank)
    [.packet ⟨.TransferOffer, 0, serializeTransferOffer {}⟩, .acceptTransfer [] .Rename [],
      .packet ⟨.FileStart, 0, serializeFileStart { relativePath := literal "a", fileSize := 1 }⟩,
      .packet ⟨.FileDataChunk, 0, (serializeFileDataChunk { chunkData := [7] }).getD []⟩]

/-- The file outlives the end of the transfer and a cancellation. -/
theorem survives_iff_not_recommitted_cancelled :
    ∃ s writer content, arrived.toOption = some s ∧ s.fileWriter = some writer ∧
      (cancel CompactJson.codec
        (onFileEnd s (serializeFileEnd {})).complete).disk.node writer.targetFilePath =
        some (.file content) := by
  have computed : arrived.toOption.bind (fun s => s.fileWriter.map fun writer =>
      (s.endAck writer {}).statusCode) = some 0 := by
    decide +kernel
  obtain ⟨s, reached, computed⟩ := Option.bind_eq_some_iff.mp computed
  obtain ⟨writer, found, positive⟩ := Option.map_eq_some_iff.mp computed
  have handled : Steps CompactJson.codec s (.packet ⟨.FileEnd, 0, serializeFileEnd {}⟩)
      (onFileEnd s (serializeFileEnd {})) := rfl
  obtain ⟨content, there, survives⟩ := survives_iff_not_recommitted CompactJson.codec
    (parseFileEnd_serialize (by decide)) found positive handled
  refine ⟨s, writer, content, reached, found, ?_⟩
  refine (survives [.packet ⟨.TransferComplete, 0, []⟩, .cancel] _ ?_ rfl).mpr (.inr ?_)
  · intro e mem p eq
    rw [eq] at mem
    simp only [List.mem_cons, Event.packet.injEq, reduceCtorEq, List.not_mem_nil, or_false] at mem
    rw [mem]
    decide
  · rintro e mem ⟨flags, payload, msg, rfl, -⟩
    simp at mem

/-- A second `FileEnd` removes the file that the first one committed. -/
theorem acknowledged_file_removed :
    ∃ s writer, arrived.toOption = some s ∧ s.direction = .Receive ∧
      s.fileWriter = some writer ∧
      let once := onFileEnd s (serializeFileEnd {})
      let twice := onFileEnd once (serializeFileEnd {})
      once.outbox.getLast? = some ⟨.FileAck, 0, serializeFileAck
        ⟨0, 0, 1, Blake3Hasher.hashBytes Blake3.vendored [7]⟩⟩ ∧
      once.disk.node writer.targetFilePath = some (.file [7]) ∧
      twice.disk.node writer.targetFilePath = none := by
  have computed : arrived.toOption.bind (fun s => s.fileWriter.map fun writer =>
      let once := onFileEnd s (serializeFileEnd {})
      let twice := onFileEnd once (serializeFileEnd {})
      (s.direction, once.outbox.getLast?, once.disk.node writer.targetFilePath,
        twice.disk.node writer.targetFilePath)) =
      some (.Receive, some ⟨.FileAck, 0, serializeFileAck
        ⟨0, 0, 1, Blake3Hasher.hashBytes Blake3.vendored [7]⟩⟩, some (.file [7]), none) := by
    decide +kernel
  obtain ⟨s, reached, computed⟩ := Option.bind_eq_some_iff.mp computed
  obtain ⟨writer, found, members⟩ := Option.map_eq_some_iff.mp computed
  simp only [Prod.mk.injEq] at members
  obtain ⟨role, sent, there, gone⟩ := members
  exact ⟨s, writer, reached, role, found, sent, there, gone⟩

end TransferSession

end FastTransfer
