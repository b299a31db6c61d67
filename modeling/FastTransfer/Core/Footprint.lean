/- FastTransfer/Core/Footprint
   source: src/core/TransferSession.cpp, src/filesystem/FileWriter.cpp
   digest: What any peer can make an accepted session change on its disk. -/

import FastTransfer.Core.ReceiverSteps
import FastTransfer.Core.SessionFolder
import FastTransfer.Filesystem.Lifecycle

set_option autoImplicit false
set_option relaxedAutoImplicit false

namespace FastTransfer

open QString (literal slash)

variable {B : Blake3} {J : QJson}

/-! The folders on the way to a path. -/

namespace FileWriter

/-- The final and the staging paths of files that are to go to certain paths. -/
def Around (requested : QString → Prop) (q : QString) : Prop :=
  ∃ base path, requested base ∧ (path = base ∨ ∃ k, path = candidate base k) ∧
    (q = path ∨ q = path ++ partialSuffix)

/-- Nothing has changed at the path, unless it is a missing folder on the way to the folder that
was made. -/
def Spared (folder : QString) (d d' : Disk) (q : QString) : Prop :=
  d'.node q = d.node q ∨ q ∈ ancestors folder ∧ d.node q = none ∧ d'.node q = some .dir

theorem Spared.trans {folder q : QString} {d d' d'' : Disk} (first : Spared folder d d' q)
    (second : Spared folder d' d'' q) : Spared folder d d'' q := by
  rcases second with same | ⟨mem, free, made⟩
  · rcases first with kept | ⟨mem, free, made⟩
    · exact .inl (same.trans kept)
    · exact .inr ⟨mem, free, same.trans made⟩
  · rcases first with kept | ⟨-, -, there⟩
    · exact .inr ⟨mem, kept.symm.trans free, made⟩
    · cases free.symm.trans there

structure Placed (requested : QString → Prop) (writer : FileWriter B) : Prop where
  aims : Aims writer writer.targetFilePath writer.partialFilePath
  target : writer.targetFilePath = [] ∨ Around requested writer.targetFilePath
  staging : writer.partialFilePath = [] ∨ Around requested writer.partialFilePath

section Requested

variable {requested : QString → Prop}

theorem Placed.perform {writer : FileWriter B} (h : Placed requested writer) (d : Disk)
    (call : Call) :
    let result := writer.perform d call
    Placed requested result.2.1 ∧
      ∀ q, q ≠ [] → ¬ Around requested q → result.2.2.node q = d.node q := by
  obtain ⟨aims, apart⟩ := called_apart (s := (writer, d)) h.aims (rfl : Called _ call _)
  refine ⟨⟨?_, ?_, ?_⟩, fun q named far => apart.node q ?_ ?_⟩
  · exact ⟨fun opened => (aims.fileName opened).trans aims.partialFilePath.symm, rfl, rfl⟩
  · rw [aims.targetFilePath]
    exact h.target
  · rw [aims.partialFilePath]
    exact h.staging
  · rintro rfl
    exact h.target.elim named far
  · rintro rfl
    exact h.staging.elim named far

theorem applyPolicy_node (d : Disk) (target : QString) (policy : DuplicatePolicy) {q : QString}
    (other : q ≠ target) : (applyPolicy d target policy).2.node q = d.node q := by
  unfold applyPolicy
  split
  · cases policy with
    | Replace => exact Disk.node_remove_ne _ other
    | _ => rfl
  · rfl

theorem open_placed {folder : QString} {d : Disk}
    {baseOutputDir senderDevice relativePath : QString}
    (way : ∀ base, requested base → ∀ q ∈ ancestors (dirPart base),
      q ∈ ancestors folder ∨ Inside folder q)
    (aimed : requested (targetPath baseOutputDir senderDevice relativePath))
    (size : UInt64) (policy : DuplicatePolicy) :
    let result := (new B).open d baseOutputDir senderDevice relativePath size 0 policy
    Placed requested result.2.1 ∧ ∀ q, ¬ Inside folder q → ¬ Around requested q →
      Spared folder d result.2.2 q := by
  intro result
  have direct : Around requested (targetPath baseOutputDir senderDevice relativePath) :=
    ⟨_, _, aimed, .inl rfl, .inl rfl⟩
  have spares : ∀ q, ¬ Around requested q →
      (applyPolicy (checkSpace d baseOutputDir size).2
        (targetPath baseOutputDir senderDevice relativePath) policy).2.node q = d.node q := by
    intro q far
    rw [applyPolicy_node, checkSpace_node]
    rintro rfl
    exact far direct
  rcases (new B).open_cases d baseOutputDir senderDevice relativePath size 0 policy with
    ⟨-, eq⟩ | ⟨-, -, eq⟩ | ⟨-, chosen, choice, eq⟩
  · rw [show result = _ from eq]
    refine ⟨⟨⟨?_, rfl, rfl⟩, .inl rfl, .inl rfl⟩, fun q _ _ => .inl (checkSpace_node ..)⟩
    intro opened
    cases opened
  · rw [show result = _ from eq]
    refine ⟨⟨⟨?_, rfl, rfl⟩, .inr direct, .inl rfl⟩, fun q _ far => .inl (spares q far)⟩
    intro opened
    cases opened
  · rw [show result = _ from eq]
    obtain ⟨base, among, derived⟩ : ∃ base, requested base ∧
        (chosen = base ∨ ∃ k, chosen = candidate base k) := by
      refine ⟨_, aimed, ?_⟩
      rcases applyPolicy_target (checkSpace d baseOutputDir size).2
          (targetPath baseOutputDir senderDevice relativePath) policy with none | same | unique
      · cases none.symm.trans choice
      · exact .inl (Option.some.inj (choice.symm.trans same))
      · rw [Option.some.inj (choice.symm.trans unique)]
        rcases resolveUniqueName_cases (checkSpace d baseOutputDir size).2
            (targetPath baseOutputDir senderDevice relativePath) with ⟨same, -⟩ | numbered
        · exact .inl same
        · exact .inr numbered
    have final : Around requested chosen := ⟨base, chosen, among, derived, .inl rfl⟩
    have staging : Around requested (chosen ++ partialSuffix) :=
      ⟨base, chosen, among, derived, .inr rfl⟩
    have parent : ∀ q ∈ ancestors (dirPart (chosen ++ partialSuffix)),
        q ∈ ancestors (dirPart base) := by
      intro q mem
      rcases derived with rfl | ⟨k, rfl⟩
      · rwa [dirPart_append_flat (by decide)] at mem
      · exact ancestors_candidate k mem
    obtain ⟨aims, others, -, -⟩ := ((new B).aimed chosen size).stage_frame
      ((applyPolicy (checkSpace d baseOutputDir size).2
        (targetPath baseOutputDir senderDevice relativePath) policy).2.mkpath
        (dirPart (chosen ++ partialSuffix))) size 0
    refine ⟨⟨⟨?_, rfl, rfl⟩, ?_, ?_⟩, fun q outside far => ?_⟩
    · intro opened
      exact (aims.fileName opened).trans aims.partialFilePath.symm
    · rw [aims.targetFilePath]
      exact .inr final
    · rw [aims.partialFilePath]
      exact .inr staging
    · rw [Spared, others q (by rintro rfl; exact far staging), ← spares q far]
      rcases Disk.node_mkpath _ (dirPart (chosen ++ partialSuffix)) q with same | ⟨mem, free, made⟩
      · exact .inl same
      · exact .inr ⟨(way base among q (parent q mem)).resolve_right outside, free, made⟩

end Requested

end FileWriter

namespace TransferSession

open FileWriter Protocol

structure SameOutput (before after : TransferSession B) : Prop where
  baseOutputDir : after.baseOutputDir = before.baseOutputDir
  sessionSubfolder : after.sessionSubfolder = before.sessionSubfolder

theorem SameOutput.refl (s : TransferSession B) : SameOutput s s := ⟨rfl, rfl⟩

theorem SameOutput.trans {s t u : TransferSession B} (first : SameOutput s t)
    (second : SameOutput t u) : SameOutput s u :=
  ⟨second.baseOutputDir.trans first.baseOutputDir,
    second.sessionSubfolder.trans first.sessionSubfolder⟩

private theorem SameOutput.of_sender {s t u : TransferSession B} (same : SameReceiver t u)
    (first : SameOutput s t) : SameOutput s u :=
  first.trans ⟨same.baseOutputDir, same.sessionSubfolder⟩

theorem packet_output {s t : TransferSession B} {p : Packet}
    (h : onPacketReceived J s p = .ok t) : SameOutput s t := by
  obtain ⟨type, flags, payload⟩ := p
  cases type with
  | HandshakeReq =>
      cases h
      unfold onHandshakeReq
      split <;> exact ⟨rfl, rfl⟩
  | HandshakeResp =>
      cases h
      unfold onHandshakeResp
      split
      · exact ⟨rfl, rfl⟩
      · split <;> exact ⟨rfl, rfl⟩
  | TransferOffer =>
      cases h
      unfold onTransferOffer
      split <;> exact ⟨rfl, rfl⟩
  | TransferAccept =>
      rcases onTransferAccept_cases h with ⟨rfl, -⟩ | ⟨accept, -, -, start⟩
      · exact .refl t
      · exact .of_sender start.sameReceiver ⟨rfl, rfl⟩
  | TransferReject =>
      cases h
      exact ⟨rfl, rfl⟩
  | FileStart =>
      cases h
      unfold onFileStart
      split
      · exact ⟨rfl, rfl⟩
      · split <;> exact ⟨rfl, rfl⟩
  | FileDataChunk =>
      cases h
      unfold onFileDataChunk
      split
      · dsimp only
        split <;> exact ⟨rfl, rfl⟩
      · exact ⟨rfl, rfl⟩
  | FileEnd =>
      cases h
      unfold onFileEnd
      split <;> exact ⟨rfl, rfl⟩
  | FileAck =>
      rcases onFileAck_cases h with ⟨rfl, -⟩ | ⟨ack, -, ⟨-, rfl⟩ | ⟨-, reader, -, start⟩⟩
      · exact .refl t
      · exact ⟨rfl, rfl⟩
      · exact .of_sender start.sameReceiver ⟨rfl, rfl⟩
  | TransferPause =>
      cases h
      exact ⟨rfl, rfl⟩
  | TransferResume =>
      rcases onTransferResume_cases h with ⟨rfl, -⟩ | ⟨msg, -, ⟨-, rfl⟩ | ⟨-, start⟩⟩
      · exact .refl t
      · exact ⟨rfl, rfl⟩
      · exact .of_sender start.sameReceiver ⟨rfl, rfl⟩
  | TransferCancel =>
      cases h
      exact ⟨rfl, rfl⟩
  | TransferComplete =>
      cases h
      exact ⟨rfl, rfl⟩
  | Invalid =>
      cases h
      exact .refl s
  | ErrorAlert =>
      cases h
      exact .refl s
  | unnamed raw =>
      cases h
      exact .refl s

/-- The writer of the session is placed, and nothing else has changed on its disk. -/
structure Contained (requested : QString → Prop) (folder : QString)
    (before after : TransferSession B) : Prop where
  output : SameOutput before after
  writer : ∀ writer, after.fileWriter = some writer → Placed requested writer
  spared : ∀ q, q ≠ [] → ¬ Inside folder q → ¬ Around requested q →
    Spared folder before.disk after.disk q

section Contained

variable {requested : QString → Prop} {folder : QString}

private theorem Contained.called {s t u : TransferSession B} {writer : FileWriter B}
    (h : Contained requested folder s t) (found : t.fileWriter = some writer)
    (output : SameOutput t u) (call : Call)
    (writerAfter : u.fileWriter = some (writer.perform t.disk call).2.1)
    (diskAfter : u.disk = (writer.perform t.disk call).2.2) : Contained requested folder s u := by
  obtain ⟨placed, kept⟩ := (h.writer writer found).perform t.disk call
  refine ⟨h.output.trans output, ?_, ?_⟩
  · intro other eq
    rw [← Option.some.inj (writerAfter.symm.trans eq)]
    exact placed
  · intro q named outside far
    rw [diskAfter]
    exact (h.spared q named outside far).trans (.inl (kept q named far))

theorem Contained.step {s t u : TransferSession B} {e : Event}
    (way : ∀ base, requested base → ∀ q ∈ ancestors (dirPart base),
      q ∈ ancestors folder ∨ Inside folder q)
    (aimed : ∀ flags payload start, e = .packet ⟨.FileStart, flags, payload⟩ →
      parseFileStart payload = some start →
      requested (targetPath t.baseOutputDir t.subFolder start.relativePath))
    (h : Contained requested folder s t) (output : SameOutput t u) (taken : Steps J t e u) :
    Contained requested folder s u := by
  have announced : ∀ flags payload start, e = .packet ⟨.FileStart, flags, payload⟩ →
      parseFileStart payload = some start →
      u.fileWriter = some (t.openWriter start).2.1 → u.disk = (t.openWriter start).2.2 →
      Contained requested folder s u := by
    intro flags payload start eq parsed writerAfter diskAfter
    obtain ⟨placed, spared⟩ := open_placed (B := B) (d := t.disk) way
      (aimed flags payload start eq parsed) start.fileSize t.duplicatePolicy
    refine ⟨h.output.trans output, fun other eq => ?_, fun q named outside far => ?_⟩
    · rw [← Option.some.inj (writerAfter.symm.trans eq)]
      exact placed
    · rw [diskAfter]
      exact (h.spared q named outside far).trans (spared q outside far)
  cases step_receiver taken with
  | opened parsed opened => exact announced _ _ _ rfl parsed rfl rfl
  | refused parsed refused => exact announced _ _ _ rfl parsed rfl rfl
  | @written _ _ chunk writer parsed found written =>
      exact h.called found output (.writeChunk chunk.offset chunk.chunkData) rfl rfl
  | @unwritten _ _ chunk writer parsed found failed =>
      exact h.called found output (.writeChunk chunk.offset chunk.chunkData) rfl rfl
  | @ended _ _ msg writer parsed found =>
      exact h.called found output (.finalizeAndCommit msg.blake3Checksum) rfl rfl
  | ignored => exact h
  | bystander _ moved =>
      refine ⟨h.output.trans output, fun writer eq => ?_, fun q named outside far => ?_⟩
      · rcases moved.fileWriter with same | aborted
        · exact h.writer writer (same.symm.trans eq)
        · obtain ⟨before, found, rfl⟩ := Option.map_eq_some_iff.mp (aborted.symm.trans eq)
          exact ((h.writer before found).perform t.disk .abort).1
      · rw [moved.disk]
        exact h.spared q named outside far

end Contained

/-- The path of the file that a packet announces is joined to the session folder, and no dots are
smuggled into it. -/
def straight : Event → Bool
  | .packet ⟨.FileStart, _, payload⟩ =>
      (readFileStartPath payload).all fun raw =>
        Relative (PlatformFilesystem.sanitizePath (PlatformFilesystem.sanitizePath raw)) ∧
          ¬ PlatformFilesystem.Smuggles raw
  | _ => true

end TransferSession

end FastTransfer
