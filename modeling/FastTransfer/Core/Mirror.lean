/- FastTransfer/Core/Mirror
   source: src/core/TransferSession.cpp, src/filesystem/FileWriter.cpp
   digest: A folder that was empty holds the streamed files under their own names, and no others. -/

import FastTransfer.Core.Accounting
import FastTransfer.Core.Footprint

set_option autoImplicit false
set_option relaxedAutoImplicit false

namespace FastTransfer

open Protocol
open FileWriter (partialSuffix resolveUniqueName)

/-- Files for an empty folder, none of which is in the way of a later one: a later target or
staging file is not an earlier target, nor a folder above it. -/
structure Delivery.Orderly (D : Delivery) : Prop where
  empty : ∀ path, Inside D.folder path → D.base.node path = none
  apart : D.items.Pairwise fun earlier later =>
    D.target later ∉ ancestors (D.target earlier) ∧
      D.target later ++ partialSuffix ∉ ancestors (D.target earlier)

theorem Delivery.Orderly.clear {D : Delivery} (orderly : D.Orderly) {i : Nat}
    {item : LocalFileItem} {rest : List LocalFileItem} (suffix : D.items.drop i = item :: rest) :
    ∀ earlier ∈ D.items.take i, D.target item ∉ ancestors (D.target earlier) ∧
      D.target item ++ partialSuffix ∉ ancestors (D.target earlier) := by
  intro earlier among
  have split := orderly.apart
  rw [← List.take_append_drop i D.items, suffix] at split
  exact (List.pairwise_append.mp split).2.2 earlier among item List.mem_cons_self

theorem mem_ancestors_self {path : QString} (nonempty : path ≠ []) : path ∈ ancestors path :=
  mem_ancestors.mpr ⟨List.prefix_refl path, nonempty, .inl rfl⟩

theorem ancestors_length {q path : QString} (mem : q ∈ ancestors path) : q.length ≤ path.length :=
  (mem_ancestors.mp mem).1.length_le

theorem dirPart_shorter {path : QString} (nonempty : path ≠ []) :
    (dirPart path).length < path.length := by
  have positive := List.length_pos_of_ne_nil nonempty
  have front := (List.dropWhile_sublist (fun c => decide (c ≠ QString.slash))
    (l := path.reverse)).length_le
  rw [List.length_reverse] at front
  rw [dirPart, List.length_reverse, List.length_drop]
  omega

namespace FileWriter

variable {B : Blake3}

/-- A new writer for a path where nothing is: whatever the policy, it stages the file under the
path's own name, and makes the missing folders above it. -/
theorem open_own {d : Disk} {baseOutputDir senderDevice relativePath : QString} {size : UInt64}
    {policy : DuplicatePolicy}
    (free : d.node (targetPath baseOutputDir senderDevice relativePath) = none)
    (opened : ((new B).open d baseOutputDir senderDevice relativePath size 0 policy).1 = true) :
    let target := targetPath baseOutputDir senderDevice relativePath
    let result := (new B).open d baseOutputDir senderDevice relativePath size 0 policy
    result.2.1.targetFilePath = target ∧
      ∀ q, q ≠ target ++ partialSuffix → result.2.2.node q = d.node q ∨
        q ∈ ancestors (dirPart target) ∧ d.node q = none ∧ result.2.2.node q = some .dir := by
  intro target result
  have absent : (checkSpace d baseOutputDir size).2.exists target = false := by
    rw [Disk.exists, checkSpace_node, free]
    rfl
  rcases (new B).open_cases d baseOutputDir senderDevice relativePath size 0 policy with
    ⟨-, eq⟩ | ⟨-, none, -⟩ | ⟨-, chosen, choice, eq⟩
  · rw [eq] at opened
    cases opened
  · rw [applyPolicy_free absent] at none
    cases none
  · rw [applyPolicy_free absent] at choice eq
    cases choice
    obtain ⟨aims, others, -, -⟩ := ((new B).aimed target size).stage_frame
      ((checkSpace d baseOutputDir size).2.mkpath (dirPart (target ++ partialSuffix))) size 0
    rw [show result = _ from eq]
    refine ⟨aims.targetFilePath, fun q other => ?_⟩
    rw [others q other, ← checkSpace_node d baseOutputDir size q]
    have parent : dirPart (target ++ partialSuffix) = dirPart target :=
      dirPart_append_flat (by decide)
    rw [parent]
    exact Disk.node_mkpath _ (dirPart target) q

end FileWriter

namespace TransferSession

variable {B : Blake3} {J : QJson} {D : Delivery} {s t : TransferSession B} {cursor : Cursor}

def endedCount (D : Delivery) (cursor : Cursor) : Nat := D.items.length - cursor.ends

/-- What there may be in the folder at a place of the stream. -/
inductive Own (D : Delivery) (cursor : Cursor) (path : QString) : Node → Prop
  | file {item : LocalFileItem} {content : QByteArray}
      (mem : item ∈ D.items.take (endedCount D cursor)) (place : path = D.target item) :
      Own D cursor path (.file content)
  | dir {item : LocalFileItem} (mem : item ∈ D.items.take (endedCount D cursor + 1))
      (above : path ∈ ancestors (dirPart (D.target item))) : Own D cursor path .dir
  | staging {item : LocalFileItem} {n : Node} (filling : cursor.filling = true)
      (current : D.items[endedCount D cursor]? = some item)
      (place : path = D.target item ++ partialSuffix) : Own D cursor path n

/-- The files that have ended are under their own names, and nothing is in the folder but them,
the folders on their way, and the staging file of the file that is begun. -/
structure Mirrors (s : TransferSession B) (D : Delivery) (cursor : Cursor) : Prop where
  holds : ∀ item ∈ D.items.take (endedCount D cursor),
    s.disk.node (D.target item) = some (.file (D.content item))
  own : ∀ path n, Inside D.folder path → s.disk.node path = some n → Own D cursor path n
  writer : cursor.filling = true → ∀ writer, s.fileWriter = some writer →
    ∀ item ∈ D.items[endedCount D cursor]?, writer.targetFilePath = D.target item

private theorem beside_earlier {i : Nat} {item earlier : LocalFileItem}
    {rest : List LocalFileItem} (listed : D.Listed B) (orderly : D.Orderly)
    (suffix : D.items.drop i = item :: rest) (among : earlier ∈ D.items.take i) :
    D.target earlier ≠ D.target item ∧ D.target earlier ≠ D.target item ++ partialSuffix := by
  obtain ⟨target, staging⟩ := orderly.clear suffix earlier among
  have named := mem_ancestors_self
    ((listed.inside (List.mem_of_mem_take among)).nonempty listed.folder.nonempty)
  exact ⟨fun same => target (same ▸ named), fun same => staging (same ▸ named)⟩

theorem Mirrors.vacant {i : Nat} {item : LocalFileItem} {rest : List LocalFileItem}
    (listed : D.Listed B) (orderly : D.Orderly) (h : Mirrors s D (.between i (item :: rest)))
    (suffix : D.items.drop i = item :: rest) :
    s.disk.node (D.target item) = none ∧ s.disk.node (D.target item ++ partialSuffix) = none := by
  obtain ⟨mem, behind, upTo, below⟩ := mem_of_suffix suffix
  have length := congrArg List.length suffix
  rw [List.length_drop] at length
  have count : endedCount D (.between i (item :: rest)) = i := by
    rw [endedCount, Cursor.ends]
    omega
  have inside := listed.inside mem
  have nonempty := inside.nonempty listed.folder.nonempty
  have apart := orderly.clear suffix
  have free : ∀ path, Inside D.folder path → (D.target item).length ≤ path.length →
      (∀ earlier ∈ D.items.take i, path ∉ ancestors (D.target earlier)) →
      s.disk.node path = none := by
    intro path within longer clear
    by_contra there
    obtain ⟨n, found⟩ := Option.ne_none_iff_exists'.mp there
    cases h.own path n within found with
    | @file earlier _ among place =>
        rw [count] at among
        refine clear earlier among (place ▸ mem_ancestors_self ?_)
        exact within.nonempty listed.folder.nonempty
    | @dir earlier among above =>
        rw [count, upTo] at among
        rcases List.mem_append.mp among with among | among
        · exact clear earlier among (ancestors_dirPart above)
        · rw [List.mem_singleton.mp among] at above
          have shorter := dirPart_shorter nonempty
          have most := ancestors_length above
          omega
    | staging filling => cases filling
  refine ⟨free _ inside (Nat.le_refl _) fun earlier among => (apart earlier among).1,
    free _ inside.staging ?_ fun earlier among => (apart earlier among).2⟩
  rw [List.length_append]
  exact Nat.le_add_right _ _

section Packet

variable {p : Packet} {after : Cursor} {i k : Nat} {item : LocalFileItem}
  {rest : List LocalFileItem}

private theorem ended_of_suffix (suffix : D.items.drop i = item :: rest) :
    D.items.length = i + 1 + rest.length := by
  obtain ⟨-, -, -, below⟩ := mem_of_suffix suffix
  have length := congrArg List.length suffix
  rw [List.length_drop, List.length_cons] at length
  omega

private theorem Mirrors.start (listed : D.Listed B) (orderly : D.Orderly)
    (h : ReceiverAt s D (.between i (item :: rest)))
    (mirrors : Mirrors s D (.between i (item :: rest)))
    (acceptable : (D.stream.startPacket i item).Acceptable) (filling : after.filling = true)
    (same : after.ends = rest.length + 1)
    (taken : ReceiverStep s (.packet (D.stream.startPacket i item)) t)
    (arrived : t.status ≠ .Failed) : Mirrors t D after := by
  have suffix : D.items.drop i = item :: rest := by
    have place := h.place
    cases place with
    | between suffix => exact suffix
  obtain ⟨mem, behind, upTo, below⟩ := mem_of_suffix suffix
  have total := ended_of_suffix suffix
  have before : endedCount D (.between i (item :: rest)) = i := by
    rw [endedCount, Cursor.ends, List.length_cons]
    omega
  have now : endedCount D after = i := by
    rw [endedCount, same]
    omega
  have current : D.items[i]? = some item := by
    rw [← List.head?_drop, suffix]
    rfl
  have parsed := listed.parsed mem acceptable
  have target := h.target listed mem
  obtain ⟨free, clear⟩ := mirrors.vacant listed orderly suffix
  have holds := mirrors.holds
  have own := mirrors.own
  rw [before] at holds
  cases taken with
  | @opened _ _ start parsed' opened =>
      cases parsed.symm.trans parsed'
      have aim : FileWriter.targetPath s.baseOutputDir s.subFolder
          (D.announced i item).relativePath = D.target item := target
      obtain ⟨aimed, others⟩ := FileWriter.open_own (by rw [aim]; exact free) opened
      rw [aim] at aimed others
      refine ⟨fun earlier among => ?_, fun path n inside there => ?_, fun _ writer found => ?_⟩
      · rw [now] at among
        have whole := holds earlier among
        have apart : D.target earlier ≠ D.target item ++ partialSuffix := by
          rintro clash
          rw [clash, clear] at whole
          cases whole
        rcases others _ apart with kept | ⟨-, absent, -⟩
        · exact kept.trans whole
        · cases absent.symm.trans whole
      · by_cases staging : path = D.target item ++ partialSuffix
        · exact .staging filling (now ▸ current) staging
        rcases others path staging with kept | ⟨above, -, made⟩
        · cases own path n inside (kept.symm.trans there) with
          | file among place =>
              rw [before, ← now] at among
              exact .file among place
          | dir among above =>
              rw [before, ← now] at among
              exact .dir among above
          | staging filled => cases filled
        · cases there.symm.trans made
          refine .dir ?_ above
          rw [now, upTo]
          exact List.mem_append_right _ (List.mem_singleton_self item)
      · cases found
        rw [now, current]
        rintro _ ⟨⟩
        exact aimed
  | refused parsed' refused => exact absurd rfl arrived
  | ignored ignored => cases parsed.symm.trans (ignored.fileStart _ _ rfl)
  | bystander other => exact absurd List.mem_cons_self (other _ rfl)

private theorem Own.congr {before : Cursor} {path : QString} {n : Node} (h : Own D before path n)
    (same : after.ends = before.ends) (filling : before.filling = true → after.filling = true) :
    Own D after path n := by
  have count : endedCount D before = endedCount D after := by
    rw [endedCount, endedCount, same]
  cases h with
  | file among place => exact .file (count ▸ among) place
  | dir among above => exact .dir (count ▸ among) above
  | staging filled current place => exact .staging (filling filled) (count ▸ current) place

private theorem Mirrors.chunk {offset : Nat} {data : QByteArray} (listed : D.Listed B)
    (orderly : D.Orderly) (h : ReceiverAt s D (.sending i item k rest))
    (mirrors : Mirrors s D (.sending i item k rest))
    (filling : after.filling = true) (same : after.ends = rest.length + 1)
    (taken : ReceiverStep s (.packet (DataStream.chunkPacket i offset data)) t)
    (arrived : t.status ≠ .Failed) : Mirrors t D after := by
  have place := h.place
  cases place with
  | @sending _ _ _ _ paths target writer suffix running stored most found filled inside first =>
  have total := ended_of_suffix suffix
  have now : endedCount D after = endedCount D (.sending i item k rest) := by
    rw [endedCount, endedCount, same, Cursor.ends]
  have count : endedCount D (.sending i item k rest) = i := by
    rw [endedCount, Cursor.ends]
    omega
  have current : D.items[i]? = some item := by
    rw [← List.head?_drop, suffix]
    rfl
  have aims : target = D.target item := by
    rw [← filled.targetFilePath]
    exact mirrors.writer rfl writer found item (count ▸ current)
  cases taken with
  | @written _ _ chunk _ parsed found' ok =>
      cases found.symm.trans found'
      obtain ⟨-, -, kept, -, -, others⟩ :=
        writer.writeChunk_frame s.disk chunk.offset chunk.chunkData
      have beside : ∀ path, path ≠ D.target item ++ partialSuffix →
          ((s.chunkWritten writer chunk).countReceived chunk.chunkData.length).disk.node path =
            s.disk.node path := by
        intro path apart
        refine others path fun _ => ?_
        rw [filled.fileName, aims]
        exact apart
      refine ⟨fun earlier among => ?_, fun path n within there => ?_, fun _ writer' found => ?_⟩
      · rw [now] at among
        exact (beside _ (beside_earlier listed orderly suffix (count ▸ among)).2).trans
          (mirrors.holds earlier among)
      · by_cases staging : path = D.target item ++ partialSuffix
        · exact .staging filling (now ▸ count ▸ current) staging
        rw [beside path staging] at there
        exact (mirrors.own path n within there).congr same fun _ => filling
      · cases found
        rw [now]
        intro item' among
        exact kept.trans (mirrors.writer rfl writer found' item' among)
  | unwritten parsed found' failed => exact absurd rfl arrived
  | ignored ignored =>
      refine ⟨fun earlier among => mirrors.holds earlier (now ▸ among), fun path n within there =>
        (mirrors.own path n within there).congr same fun _ => filling, fun _ writer found => ?_⟩
      rw [now]
      exact mirrors.writer rfl writer found
  | bystander other => exact absurd (by simp [DataStream.chunkPacket, fileTypes]) (other _ rfl)

private theorem Mirrors.ended (listed : D.Listed B) (orderly : D.Orderly)
    (h : ReceiverAt s D (.sending i item k rest)) (mirrors : Mirrors s D (.sending i item k rest))
    (last : (D.stream.pieces item).length ≤ k) (same : after.ends = rest.length)
    (filling : after.filling = false)
    (taken : ReceiverStep s (.packet (D.stream.endPacket i item)) t)
    (succeeded : t.disk.AllSucceeded) : Mirrors t D after := by
  have place := h.place
  cases place with
  | @sending _ _ _ _ paths target writer suffix running stored most found filled inside first =>
  obtain ⟨mem, behind, upTo, below⟩ := mem_of_suffix suffix
  have total := ended_of_suffix suffix
  have now : endedCount D after = i + 1 := by
    rw [endedCount, same]
    omega
  have before : endedCount D (.sending i item k rest) = i := by
    rw [endedCount, Cursor.ends]
    omega
  have current : D.items[i]? = some item := by
    rw [← List.head?_drop, suffix]
    rfl
  have aims : target = D.target item := by
    rw [← filled.targetFilePath]
    exact mirrors.writer rfl writer found item (before ▸ current)
  subst aims
  obtain ⟨there, gone, others⟩ := ended_disk listed mem last found filled taken succeeded
  refine ⟨fun earlier among => ?_, fun path n within found => ?_, fun filled => ?_⟩
  · rw [now, upTo] at among
    rcases List.mem_append.mp among with among | among
    · obtain ⟨target, staging⟩ := beside_earlier listed orderly suffix among
      exact (others _ target staging).trans (mirrors.holds earlier (before ▸ among))
    · rw [List.mem_singleton.mp among]
      exact there
  · by_cases final : path = D.target item
    · subst final
      cases found.symm.trans there
      refine .file ?_ rfl
      rw [now, upTo]
      exact List.mem_append_right _ (List.mem_singleton_self item)
    by_cases staged : path = D.target item ++ partialSuffix
    · subst staged
      cases found.symm.trans gone
    cases mirrors.own path n within ((others path final staged).symm.trans found) with
    | file among place =>
        refine .file ?_ place
        rw [now, upTo]
        exact List.mem_append_left _ (before ▸ among)
    | dir among above =>
        refine .dir ?_ above
        rw [now]
        exact (List.take_prefix_take_left (by omega)).subset (before ▸ among)
    | staging _ current' place =>
        rw [before, current] at current'
        cases current'
        exact absurd place staged
  · cases filling.symm.trans filled

theorem Mirrors.packet (listed : D.Listed B) (orderly : D.Orderly) (h : ReceiverAt s D cursor)
    (mirrors : Mirrors s D cursor)
    (next : D.stream.remaining cursor = p :: D.stream.remaining after) (acceptable : p.Acceptable)
    (taken : Steps J s (.packet p) t) (arrived : t.status ≠ .Failed)
    (succeeded : t.disk.AllSucceeded) : Mirrors t D after := by
  have handled := step_receiver taken
  have filling := D.stream.filling_iff after
  have ends := D.stream.count_remaining after
  cases cursor with
  | between i rest =>
      cases rest with
      | nil =>
          obtain ⟨rfl, later⟩ := List.cons.inj next
          rw [← later] at filling ends
          have idle : after.filling = false := by
            rw [Bool.eq_false_iff, Ne, filling]
            rintro ⟨p, ⟨⟩, -⟩
          have same : after.ends = (Cursor.between i []).ends := ends.symm
          cases Except.ok.inj taken
          have count : endedCount D after = endedCount D (.between i []) := by
            rw [endedCount, endedCount, same]
          refine ⟨fun item among => mirrors.holds item (count ▸ among), ?_, fun filled => ?_⟩
          · intro path n inside there
            refine (mirrors.own path n inside there).congr same fun filled => ?_
            cases filled
          · cases idle.symm.trans filled
      | cons item rest =>
          obtain ⟨rfl, later⟩ :=
            List.cons.inj ((D.stream.filesFrom_cons i item rest).symm.trans next)
          have same : after.ends = rest.length + 1 := by
            rw [← ends, ← later]
            exact D.stream.count_remaining (.sending i item 0 rest)
          rw [← later, ← D.stream.filling_iff] at filling
          exact mirrors.start listed orderly h acceptable (filling.mpr rfl) same handled arrived
  | sending i item k rest =>
      by_cases more : k < (D.stream.pieces item).length
      · obtain ⟨rfl, later⟩ := List.cons.inj ((D.stream.remaining_chunk more).symm.trans next)
        have same : after.ends = rest.length + 1 := by
          rw [← ends, ← later]
          exact D.stream.count_remaining (.sending i item (k + 1) rest)
        rw [← later, ← D.stream.filling_iff] at filling
        exact mirrors.chunk listed orderly h (filling.mpr rfl) same handled arrived
      · have last := Nat.le_of_not_lt more
        obtain ⟨rfl, later⟩ := List.cons.inj ((D.stream.remaining_end last).symm.trans next)
        have same : after.ends = rest.length := by
          rw [← ends, ← later]
          exact D.stream.count_remaining (.between (i + 1) rest)
        rw [← later, ← D.stream.filling_iff] at filling
        have idle : after.filling = false := by
          rw [Bool.eq_false_iff, Ne, filling]
          rintro ⟨⟩
        exact mirrors.ended listed orderly h last same idle handled succeeded
  | done => cases next

end Packet

theorem Mirrors.frame (h : Mirrors s D cursor) (disk : t.disk = s.disk)
    (fileWriter : t.fileWriter = s.fileWriter) : Mirrors t D cursor := by
  refine ⟨?_, ?_, ?_⟩
  · rw [disk]
    exact h.holds
  · rw [disk]
    exact h.own
  · rw [fileWriter]
    exact h.writer

theorem mirrors_empty (orderly : D.Orderly) (disk : s.disk = D.base) (none : s.fileWriter = none)
    (ends : cursor.ends = D.items.length) : Mirrors s D cursor := by
  have count : endedCount D cursor = 0 := by
    rw [endedCount, ends, Nat.sub_self]
  refine ⟨?_, fun path n inside there => ?_, fun _ writer found => ?_⟩
  · rw [count, List.take_zero]
    exact List.forall_mem_nil _
  · rw [disk, orderly.empty path inside] at there
    cases there
  · cases none.symm.trans found

end TransferSession

end FastTransfer
