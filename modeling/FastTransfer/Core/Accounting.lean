/- FastTransfer/Core/Accounting
   source: src/core/TransferSession.cpp, src/filesystem/FileWriter.cpp
   digest: Every file on a receiver's disk is accounted for at every place of the stream. -/

import FastTransfer.Core.Passage
import FastTransfer.Filesystem.Lifecycle

set_option autoImplicit false
set_option relaxedAutoImplicit false

namespace FastTransfer

open Protocol

namespace FileWriter

variable {B : Blake3}

theorem applyPolicy_file {d : Disk} {target q : QString} {policy : DuplicatePolicy} {n : Node}
    (there : (applyPolicy d target policy).2.node q = some n) : d.node q = some n := by
  unfold applyPolicy at there
  split at there
  · cases policy with
    | Replace =>
        by_cases same : q = target
        · subst same
          rw [Disk.node_remove] at there
          split at there
          · cases there
          · exact there
        · rwa [Disk.node_remove_ne _ same] at there
    | _ => exact there
  · exact there

theorem open_files {d : Disk} {baseOutputDir senderDevice relativePath : QString} {size : UInt64}
    {policy : DuplicatePolicy} {q : QString} {content : QByteArray}
    (there : ((new B).open d baseOutputDir senderDevice relativePath size 0 policy).2.2.node q =
      some (.file content)) :
    d.node q = some (.file content) ∨
      q = ((new B).open d baseOutputDir senderDevice relativePath size 0
        policy).2.1.partialFilePath := by
  rcases (new B).open_cases d baseOutputDir senderDevice relativePath size 0 policy with
    ⟨-, eq⟩ | ⟨-, -, eq⟩ | ⟨-, chosen, -, eq⟩
  · rw [eq, checkSpace_node] at there
    exact .inl there
  · rw [eq] at there
    rw [← checkSpace_node d baseOutputDir size]
    exact .inl (applyPolicy_file there)
  · rw [eq] at there ⊢
    obtain ⟨aims, others, -⟩ := ((new B).aimed chosen size).stage_frame
      ((applyPolicy (checkSpace d baseOutputDir size).2
        (targetPath baseOutputDir senderDevice relativePath) policy).2.mkpath
        (dirPart (chosen ++ partialSuffix))) size 0
    by_cases staging : q = chosen ++ partialSuffix
    · exact .inr (staging.trans aims.partialFilePath.symm)
    · rw [others q staging] at there
      rcases Disk.node_mkpath _ (dirPart (chosen ++ partialSuffix)) q with same | ⟨-, -, made⟩
      · rw [same] at there
        rw [← checkSpace_node d baseOutputDir size]
        exact .inl (applyPolicy_file there)
      · cases there.symm.trans made

end FileWriter

/-- A file is begun and has not ended. -/
def Cursor.filling : Cursor → Bool
  | .sending _ _ _ _ => true
  | _ => false

theorem DataStream.filling_iff (self : DataStream) (cursor : Cursor) :
    cursor.filling = true ↔
      ∃ p ∈ (self.remaining cursor).head?, p.type = .FileDataChunk ∨ p.type = .FileEnd := by
  cases cursor with
  | between i rest =>
      cases rest <;> simp [Cursor.filling, remaining, filesFrom, startPacket]
  | sending i item k rest =>
      by_cases more : k < (self.pieces item).length
      · simp [Cursor.filling, self.remaining_chunk more, chunkPacket]
      · simp [Cursor.filling, self.remaining_end (Nat.le_of_not_lt more), endPacket]
  | done => simp [Cursor.filling, remaining]

theorem DataStream.next_type (self : DataStream) {cursor : Cursor} {p : Packet}
    {packets : List Packet} (next : self.remaining cursor = p :: packets) :
    p.type ∈ TransferSession.senderTypes := by
  cases cursor with
  | between i rest =>
      cases rest with
      | nil =>
          rw [← (List.cons.inj next).1]
          simp [TransferSession.senderTypes]
      | cons item rest =>
          rw [← (List.cons.inj ((self.filesFrom_cons i item rest).symm.trans next)).1]
          exact List.mem_cons_self
  | sending i item k rest =>
      by_cases more : k < (self.pieces item).length
      · rw [← (List.cons.inj ((self.remaining_chunk more).symm.trans next)).1]
        simp [chunkPacket, TransferSession.senderTypes]
      · rw [← (List.cons.inj ((self.remaining_end (Nat.le_of_not_lt more)).symm.trans next)).1]
        simp [endPacket, TransferSession.senderTypes]
  | done => cases next

namespace TransferSession

variable {B : Blake3} {J : QJson} {D : Delivery} {s t : TransferSession B} {cursor : Cursor}

def ackCount (s : TransferSession B) : Nat := s.outbox.countP fun p => p.type = .FileAck

/-- What a file on the disk may be at a place of the stream. -/
def Accounted (s : TransferSession B) (D : Delivery) (cursor : Cursor) (path : QString)
    (content : QByteArray) : Prop :=
  D.base.node path = some (.file content) ∨
    (∃ item ∈ D.items.take s.ackCount, Inside D.folder path ∧ content = D.content item) ∨
    cursor.filling = true ∧ ∃ writer, s.fileWriter = some writer ∧ path = writer.partialFilePath

/-- The account of a receiver's disk: what was there at the start is there, as many files are
acknowledged as have ended, and what else is there is whole or being filled. -/
structure Tally (s : TransferSession B) (D : Delivery) (cursor : Cursor) : Prop where
  kept : ∀ path content, D.base.node path = some (.file content) → s.Holds path content
  acked : s.ackCount + cursor.ends = D.items.length
  files : ∀ path content, s.disk.node path = some (.file content) →
    Accounted s D cursor path content

private theorem ackCount_sent (sends : Sends [.FileAck] s t) :
    t.ackCount = s.ackCount + (sentSince s t).length := by
  obtain ⟨outbox, each⟩ := sends.sentSince
  rw [ackCount, outbox, List.countP_append, List.countP_eq_length.mpr fun p mem =>
    decide_eq_true (List.mem_singleton.mp (each p mem))]
  rfl

private theorem take_mono {item : LocalFileItem} {n m : Nat} (h : item ∈ D.items.take n)
    (le : n ≤ m) : item ∈ D.items.take m :=
  (List.take_prefix_take_left le).subset h

theorem ReceiverAt.unfailed (h : ReceiverAt s D cursor) : s.status ≠ .Failed := by
  have place := h.place
  intro failed
  cases place with
  | between suffix running => cases failed.symm.trans running
  | sending suffix running => cases failed.symm.trans running
  | done completed => cases failed.symm.trans completed

private theorem Accounted.of_before {after : Cursor} {path : QString} {content : QByteArray}
    (h : Accounted s D cursor path content) (more : s.ackCount ≤ t.ackCount)
    (staged : cursor.filling = true → ∀ writer, s.fileWriter = some writer →
      path = writer.partialFilePath → Accounted t D after path content) :
    Accounted t D after path content := by
  rcases h with base | ⟨item, mem, inside, whole⟩ | ⟨filling, writer, found, staging⟩
  · exact .inl base
  · exact .inr (.inl ⟨item, take_mono mem more, inside, whole⟩)
  · exact staged filling writer found staging

section Packet

variable {p : Packet} {after : Cursor} {path : QString} {content : QByteArray}

private theorem Tally.start {i : Nat} {item : LocalFileItem} {rest : List LocalFileItem}
    (tally : Tally s D (.between i (item :: rest))) (filling : after.filling = true)
    (taken : ReceiverStep s (.packet (D.stream.startPacket i item)) t)
    (arrived : ReceiverAt t D after) (more : s.ackCount ≤ t.ackCount)
    (there : t.disk.node path = some (.file content)) : Accounted t D after path content := by
  cases taken with
  | @opened _ _ start parsed opened =>
      rcases FileWriter.open_files there with before | staging
      · refine (tally.files path content before).of_before more fun filled => ?_
        cases filled
      · exact .inr (.inr ⟨filling, _, rfl, staging⟩)
  | refused parsed refused => exact absurd rfl arrived.unfailed
  | ignored ignored =>
      refine (tally.files path content there).of_before more fun filled => ?_
      cases filled
  | bystander other => exact absurd List.mem_cons_self (other _ rfl)

private theorem Tally.chunk {i k : Nat} {item : LocalFileItem} {rest : List LocalFileItem}
    {offset : Nat} {data : QByteArray} (h : ReceiverAt s D (.sending i item k rest))
    (tally : Tally s D (.sending i item k rest)) (filling : after.filling = true)
    (taken : ReceiverStep s (.packet (DataStream.chunkPacket i offset data)) t)
    (arrived : ReceiverAt t D after) (more : s.ackCount ≤ t.ackCount)
    (there : t.disk.node path = some (.file content)) : Accounted t D after path content := by
  have place := h.place
  cases place with
  | @sending _ _ _ _ paths target writer suffix running stored most found filled inside first =>
  cases taken with
  | @written _ _ chunk _ parsed found' ok =>
      cases found.symm.trans found'
      obtain ⟨-, -, -, staging, -, others⟩ :=
        writer.writeChunk_frame s.disk chunk.offset chunk.chunkData
      by_cases staged : path = writer.partialFilePath
      · exact .inr (.inr ⟨filling, _, rfl, staged.trans staging.symm⟩)
      · have same := others path fun _ => by
          rw [filled.fileName, ← filled.partialFilePath]
          exact staged
        refine (tally.files path content (same.symm.trans there)).of_before more
          fun _ other found' aims => ?_
        cases found.symm.trans found'
        exact absurd aims staged
  | unwritten parsed found' failed => exact absurd rfl arrived.unfailed
  | ignored ignored =>
      exact (tally.files path content there).of_before more fun _ other found' aims =>
        .inr (.inr ⟨filling, other, found', aims⟩)
  | bystander other => exact absurd (by simp [DataStream.chunkPacket, fileTypes]) (other _ rfl)

theorem ended_disk {i k : Nat} {item : LocalFileItem} {target : QString} {writer : FileWriter B}
    (listed : D.Listed B) (mem : item ∈ D.items) (last : (D.stream.pieces item).length ≤ k)
    (found : s.fileWriter = some writer)
    (filled : FileWriter.Filling target item.fileSize.toNat ((D.stream.pieces item).take k) writer
      s.disk)
    (taken : ReceiverStep s (.packet (D.stream.endPacket i item)) t)
    (succeeded : t.disk.AllSucceeded) :
    t.disk.node target = some (.file (D.content item)) ∧
      t.disk.node (target ++ FileWriter.partialSuffix) = none ∧
      ∀ q, q ≠ target → q ≠ target ++ FileWriter.partialSuffix →
        t.disk.node q = s.disk.node q := by
  have sum := listed.sum item mem
  have read : parseFileEnd (serializeFileEnd ⟨UInt64.ofNat i, D.stream.sum item⟩) =
      some ⟨UInt64.ofNat i, D.stream.sum item⟩ := by
    refine parseFileEnd_serialize ?_
    rw [sum, Blake3Hasher.digest_length]
    decide
  rw [List.take_of_length_le last] at filled
  cases taken with
  | @ended _ _ msg _ parsed found' =>
      cases found.symm.trans found'
      cases read.symm.trans parsed
      have verifies : writer.Verifies (D.stream.sum item) := by
        right
        rw [sum, filled.hasher]
        exact QString.equalsIgnoringCase_self _
      have ok := (FileWriter.succeeded_finalizeAndCommit succeeded).2 verifies
      obtain ⟨there, gone, others, -⟩ :=
        filled.committed (Nat.le_of_eq (listed.size item mem)) ok
      exact ⟨there, gone, others⟩
  | ignored ignored =>
      rcases ignored.fileEnd _ _ rfl with unread | absent
      · cases read.symm.trans unread
      · cases found.symm.trans absent
  | bystander other => exact absurd (by simp [DataStream.endPacket, fileTypes]) (other _ rfl)

private theorem Tally.ended {i k : Nat} {item : LocalFileItem} {rest : List LocalFileItem}
    (listed : D.Listed B) (h : ReceiverAt s D (.sending i item k rest))
    (tally : Tally s D (.sending i item k rest)) (last : (D.stream.pieces item).length ≤ k)
    (taken : ReceiverStep s (.packet (D.stream.endPacket i item)) t)
    (acked : t.ackCount = i + 1) (succeeded : t.disk.AllSucceeded)
    (there : t.disk.node path = some (.file content)) : Accounted t D after path content := by
  have place := h.place
  cases place with
  | @sending _ _ _ _ paths target writer suffix running stored most found filled inside first =>
  obtain ⟨mem, behind, upTo, below⟩ := mem_of_suffix suffix
  have total := congrArg List.length behind
  have before := tally.acked
  rw [List.length_drop] at total
  have count : s.ackCount = i := by
    dsimp only [Cursor.ends] at before
    omega
  obtain ⟨target', gone, others⟩ := ended_disk listed mem last found filled taken succeeded
  by_cases final : path = target
  · subst final
    cases there.symm.trans target'
    refine .inr (.inl ⟨item, ?_, inside, rfl⟩)
    rw [acked, upTo]
    exact List.mem_append_right _ (List.mem_singleton_self item)
  by_cases staged : path = target ++ FileWriter.partialSuffix
  · subst staged
    cases there.symm.trans gone
  · have same := others path final staged
    refine (tally.files path content (same.symm.trans there)).of_before (by omega)
      fun _ other found' aims => ?_
    cases found.symm.trans found'
    exact absurd (aims.trans filled.partialFilePath) staged

/-- The account is kept by every packet of the stream. -/
theorem Tally.packet (listed : D.Listed B) (h : ReceiverAt s D cursor) (tally : Tally s D cursor)
    (next : D.stream.remaining cursor = p :: D.stream.remaining after) (acceptable : p.Acceptable)
    (small : p.type = .FileDataChunk → p.payload.length < 2 ^ 32)
    (clear : ∀ item ∈ D.items, ∀ i, p = D.stream.startPacket i item →
      s.disk.hasFile (FileWriter.resolveUniqueName s.disk (D.target item) ++
        FileWriter.partialSuffix) = false)
    (taken : Steps J s (.packet p) t) (arrived : ReceiverAt t D after)
    (succeeded : t.disk.AllSucceeded) : Tally t D after := by
  obtain ⟨⟨behind, left, -, ends⟩, -, holds⟩ :=
    h.packet listed next acceptable small clear taken succeeded
  have same : behind.ends = after.ends := by
    rw [← D.stream.count_remaining, left, D.stream.count_remaining]
  have sent := ackCount_sent (receiver_move h.role taken (D.stream.next_type next)).sends
  have before := tally.acked
  have acked : t.ackCount + after.ends = D.items.length := by omega
  refine ⟨fun path content there => holds path content (tally.kept path content there), acked,
    fun path content there => ?_⟩
  have handled := step_receiver taken
  have filling := D.stream.filling_iff after
  cases cursor with
  | between i rest =>
      cases rest with
      | nil =>
          obtain ⟨rfl, -⟩ := List.cons.inj next
          cases Except.ok.inj taken
          refine (tally.files path content there).of_before (by omega) fun filled => ?_
          cases filled
      | cons item rest =>
          obtain ⟨rfl, later⟩ :=
            List.cons.inj ((D.stream.filesFrom_cons i item rest).symm.trans next)
          rw [← later, ← D.stream.filling_iff] at filling
          exact tally.start (filling.mpr rfl) handled arrived (by omega) there
  | sending i item k rest =>
      by_cases more : k < (D.stream.pieces item).length
      · obtain ⟨rfl, later⟩ := List.cons.inj ((D.stream.remaining_chunk more).symm.trans next)
        rw [← later, ← D.stream.filling_iff] at filling
        exact tally.chunk h (filling.mpr rfl) handled arrived (by omega) there
      · have last := Nat.le_of_not_lt more
        obtain ⟨rfl, later⟩ := List.cons.inj ((D.stream.remaining_end last).symm.trans next)
        have fewer : after.ends = rest.length := by
          rw [← D.stream.count_remaining, ← later, D.stream.count_remaining]
          rfl
        have total : D.items.length = i + 1 + rest.length := by
          have place := h.place
          cases place with
          | sending suffix =>
              obtain ⟨-, behind, -, below⟩ := mem_of_suffix suffix
              have length := congrArg List.length behind
              rw [List.length_drop] at length
              omega
        exact tally.ended listed h last handled (by omega) succeeded there
  | done => cases next

end Packet

theorem Tally.frame (tally : Tally s D cursor) (disk : t.disk = s.disk)
    (fileWriter : t.fileWriter = s.fileWriter) (acks : t.ackCount = s.ackCount) :
    Tally t D cursor := by
  refine ⟨fun path content there => (tally.kept path content there).congr disk fileWriter,
    acks ▸ tally.acked, fun path content there => ?_⟩
  rw [disk] at there
  rw [Accounted, acks, fileWriter]
  exact tally.files path content there

end TransferSession

/-- What a transfer leaves on a disk: the files that were there, the first of the given contents
at paths of their own in a folder, and at most one staging file, with the beginning of the next. -/
structure Leaves (before after : Disk) (folder : QString) (contents : List QByteArray)
    (count : Nat) : Prop where
  delivered : Link.Delivered after folder (contents.take count)
  kept : ∀ path content, before.node path = some (.file content) →
    after.node path = some (.file content)
  files : ∃ target, ∀ path content, after.node path = some (.file content) →
    before.node path = some (.file content) ∨
      Inside folder path ∧ (content ∈ contents.take count ∨
        path = target ++ FileWriter.partialSuffix ∧ ∃ next ∈ contents[count]?, ∃ written padding,
          content = next.take written ++ List.replicate padding 0)

namespace TransferSession

variable {B : Blake3} {J : QJson} {D : Delivery} {s : TransferSession B} {cursor : Cursor}

private theorem ReceiverAt.staging (h : ReceiverAt s D cursor)
    (acked : s.ackCount + cursor.ends = D.items.length) :
    ∃ target, ∀ path content, s.disk.node path = some (.file content) → cursor.filling = true →
      (∃ writer, s.fileWriter = some writer ∧ path = writer.partialFilePath) →
      Inside D.folder path ∧ path = target ++ FileWriter.partialSuffix ∧
        ∃ next ∈ (D.items.map D.content)[s.ackCount]?, ∃ written padding,
          content = next.take written ++ List.replicate padding 0 := by
  have place := h.place
  cases place with
  | between =>
      refine ⟨[], ?_⟩
      rintro path content there ⟨⟩
  | @sending i k item rest _ target writer suffix running _ most found filled inside =>
      refine ⟨target, ?_⟩
      rintro path content there - ⟨writer', found', rfl⟩
      cases found.symm.trans found'
      rw [filled.partialFilePath] at there ⊢
      obtain ⟨reach, -, holds⟩ := filled.content
      cases holds.symm.trans there
      obtain ⟨-, behind, -, below⟩ := mem_of_suffix suffix
      have length := congrArg List.length behind
      rw [List.length_drop] at length
      have count : s.ackCount = i := by
        dsimp only [Cursor.ends] at acked
        omega
      have next : D.items[i]? = some item := by
        rw [← List.head?_drop, suffix]
        rfl
      have front : ((D.stream.pieces item).take k).flatten =
          (D.content item).take ((D.stream.pieces item).take k).flatten.length :=
        List.prefix_iff_eq_take.mp (List.take_prefix k (D.stream.pieces item)).flatten
      refine ⟨inside.staging, rfl, D.content item, ?_, _, _,
        congrArg (· ++ List.replicate _ 0) front⟩
      rw [count, List.getElem?_map, next]
      rfl
  | done =>
      refine ⟨[], ?_⟩
      rintro path content there ⟨⟩

theorem Tally.leaves (h : ReceiverAt s D cursor) (tally : Tally s D cursor) :
    Leaves D.base s.disk D.folder (D.items.map D.content) s.ackCount := by
  have acked := tally.acked
  have stored : ∃ paths, Stored s D (D.items.take s.ackCount) paths := by
    have place := h.place
    cases place with
    | @between i rest paths suffix running stored =>
        have length := congrArg List.length suffix
        rw [List.length_drop] at length
        refine ⟨paths, ?_⟩
        dsimp only [Cursor.ends] at acked
        rcases Nat.lt_or_ge i D.items.length with below | past
        · rwa [show s.ackCount = i by omega]
        · rw [List.take_of_length_le past] at stored
          rwa [List.take_of_length_le (by omega)]
    | @sending i _ item rest paths _ _ suffix running stored =>
        obtain ⟨-, behind, -, below⟩ := mem_of_suffix suffix
        have length := congrArg List.length behind
        rw [List.length_drop] at length
        refine ⟨paths, ?_⟩
        dsimp only [Cursor.ends] at acked
        rwa [show s.ackCount = i by omega]
    | @done paths completed stored =>
        refine ⟨paths, ?_⟩
        rwa [List.take_of_length_le (by dsimp only [Cursor.ends] at acked; omega)]
  obtain ⟨paths, stored⟩ := stored
  refine ⟨?_, fun path content there => (tally.kept path content there).found, ?_⟩
  · have part : Stored s { D with items := D.items.take s.ackCount } (D.items.take s.ackCount)
        paths := ⟨stored.nodup, stored.files, stored.first⟩
    rw [← List.map_take]
    exact Link.delivered_of_stored part
  · obtain ⟨target, staged⟩ := h.staging tally.acked
    refine ⟨target, fun path content there => ?_⟩
    rcases tally.files path content there with base | ⟨item, mem, inside, whole⟩ | filling
    · exact .inl base
    · refine .inr ⟨inside, .inl ?_⟩
      rw [← List.map_take, whole]
      exact List.mem_map_of_mem mem
    · obtain ⟨inside, staging⟩ := staged path content there filling.1 filling.2
      exact .inr ⟨inside, .inr staging⟩

/-- What a receiver has come to. -/
structure Outcome (s : TransferSession B) (D : Delivery) : Prop where
  most : s.ackCount ≤ D.items.length
  completed : s.status = .Completed → s.ackCount = D.items.length
  leaves : Leaves D.base s.disk D.folder (D.items.map D.content) s.ackCount

theorem Tally.outcome (h : ReceiverAt s D cursor) (tally : Tally s D cursor) : Outcome s D := by
  have acked := tally.acked
  refine ⟨by omega, fun completed => ?_, tally.leaves h⟩
  have place := h.place
  cases place with
  | between suffix running => cases running.symm.trans completed
  | sending suffix running => cases running.symm.trans completed
  | done => exact acked

end TransferSession

end FastTransfer
