/- FastTransfer/Filesystem/Lifecycle
   source: src/filesystem/FileWriter.cpp
   digest: A writer from its opening on, the files it leaves alone, and the file it replaces. -/

import FastTransfer.Filesystem.Staging
import FastTransfer.Library.Transition

set_option autoImplicit false
set_option relaxedAutoImplicit false

namespace FastTransfer.FileWriter

open QString (literal)

variable {B : Blake3}

/-! What a writer leaves alone. -/

theorem fastForward_frame (d : Disk) (fuel : Nat) (self : FileWriter B) (remaining : Nat) :
    let next := fastForward d fuel self remaining
    next.file.fileName = self.file.fileName ∧ next.file.isOpen = self.file.isOpen ∧
      next.targetFilePath = self.targetFilePath ∧ next.partialFilePath = self.partialFilePath := by
  induction fuel generalizing self remaining with
  | zero => exact ⟨rfl, rfl, rfl, rfl⟩
  | succ fuel ih =>
      rw [fastForward]
      split
      · exact ⟨rfl, rfl, rfl, rfl⟩
      · exact ih _ _

theorem resumed_frame (self : FileWriter B) (d : Disk) (resumeOffset : UInt64) :
    let next := self.resumed d resumeOffset
    next.file.fileName = self.partialFilePath ∧ next.file.isOpen = true ∧
      next.targetFilePath = self.targetFilePath ∧ next.partialFilePath = self.partialFilePath := by
  obtain ⟨name, isOpen, target, staging⟩ := fastForward_frame d
    (min resumeOffset.toNat (d.content self.partialFilePath).length)
    { self with file := ⟨self.partialFilePath, true, 0⟩ }
    (min resumeOffset.toNat (d.content self.partialFilePath).length)
  refine ⟨?_, ?_, target, staging⟩
  · unfold resumed
    dsimp only
    split <;> exact name
  · unfold resumed
    dsimp only
    split <;> exact isOpen

structure Aims (writer : FileWriter B) (target staging : QString) : Prop where
  fileName : writer.file.isOpen = true → writer.file.fileName = staging
  targetFilePath : writer.targetFilePath = target
  partialFilePath : writer.partialFilePath = staging

structure Apart (target staging : QString) (d d' : Disk) : Prop where
  node : ∀ q, q ≠ target → q ≠ staging → d'.node q = d.node q
  refused : d'.refused = d.refused

theorem Apart.trans {target staging : QString} {d d' d'' : Disk} (first : Apart target staging d d')
    (second : Apart target staging d' d'') : Apart target staging d d'' := by
  refine ⟨?_, second.refused.trans first.refused⟩
  intro q notTarget notStaging
  exact (second.node q notTarget notStaging).trans (first.node q notTarget notStaging)

theorem stage_frame (self : FileWriter B) (d : Disk) (size resumeOffset : UInt64) :
    let result := self.stage d size resumeOffset
    Aims result.2.1 self.targetFilePath self.partialFilePath ∧
      (∀ q, q ≠ self.partialFilePath → result.2.2.node q = d.node q) ∧
      result.2.2.refused = d.refused ∧ result.2.1.file.isOpen = result.1 := by
  unfold stage
  split
  · have others : ∀ q, q ≠ self.partialFilePath →
        (d.openReadWrite self.partialFilePath).2.node q = d.node q := by
      intro q other
      exact Disk.node_openReadWrite_ne _ other
    cases opened : (d.openReadWrite self.partialFilePath).1 with
    | false =>
        obtain ⟨errorString, eq⟩ := openResumed_failed opened resumeOffset
        rw [eq]
        exact ⟨⟨fun _ => rfl, rfl, rfl⟩, others, Disk.refused_openReadWrite .., rfl⟩
    | true =>
        obtain ⟨name, isOpen, target, staging⟩ :=
          self.resumed_frame (d.openReadWrite self.partialFilePath).2 resumeOffset
        rw [openResumed_ok opened]
        exact ⟨⟨fun _ => name, target, staging⟩, others, Disk.refused_openReadWrite .., isOpen⟩
  · have others : ∀ q, q ≠ self.partialFilePath →
        ((clearStaging d self.partialFilePath size).openReadWrite self.partialFilePath).2.node q =
          d.node q := by
      intro q other
      rw [Disk.node_openReadWrite_ne _ other, clearStaging, Disk.node_preallocateFile_ne _ _ other]
      split
      · exact Disk.node_remove_ne _ other
      · rfl
    have host : ((clearStaging d self.partialFilePath size).openReadWrite
        self.partialFilePath).2.refused = d.refused := by
      rw [Disk.refused_openReadWrite, clearStaging, Disk.refused_preallocateFile]
      exact (d.host_removed self.partialFilePath).1
    cases opened : ((clearStaging d self.partialFilePath size).openReadWrite
        self.partialFilePath).1 with
    | false =>
        obtain ⟨errorString, eq⟩ := openFresh_failed opened
        rw [eq]
        exact ⟨⟨fun _ => rfl, rfl, rfl⟩, others, host, rfl⟩
    | true =>
        rw [openFresh_ok opened]
        exact ⟨⟨fun _ => rfl, rfl, rfl⟩, others, host, rfl⟩

/-! The calls on a writer. -/

inductive Call
  | writeChunk (offset : UInt64) (data : QByteArray)
  | finalizeAndCommit (expectedBlake3 : QString)
  | abort
  | close

def perform (self : FileWriter B) (d : Disk) : Call → Bool × FileWriter B × Disk
  | .writeChunk offset data => self.writeChunk d offset data
  | .finalizeAndCommit expectedBlake3 => self.finalizeAndCommit d expectedBlake3
  | .abort => (true, self.abort, d)
  | .close => (true, self.close, d)

def Called (s : FileWriter B × Disk) (call : Call) (s' : FileWriter B × Disk) : Prop :=
  (s.1.perform s.2 call).2 = s'

/-- The call is a `finalizeAndCommit` that returns true. -/
def Commits (s : FileWriter B × Disk) (call : Call) : Prop :=
  ∃ expectedBlake3, call = .finalizeAndCommit expectedBlake3 ∧
    (s.1.finalizeAndCommit s.2 expectedBlake3).1 = true

section Frames

variable {self : FileWriter B} {d : Disk}

theorem writeChunk_frame (self : FileWriter B) (d : Disk) (offset : UInt64) (data : QByteArray) :
    let result := self.writeChunk d offset data
    result.2.1.file.fileName = self.file.fileName ∧
      result.2.1.file.isOpen = self.file.isOpen ∧
      result.2.1.targetFilePath = self.targetFilePath ∧
      result.2.1.partialFilePath = self.partialFilePath ∧ result.2.2.refused = d.refused ∧
      ∀ q, (self.file.isOpen = true → q ≠ self.file.fileName) →
        result.2.2.node q = d.node q := by
  unfold writeChunk
  dsimp only
  cases opened : self.file.isOpen with
  | false => exact ⟨rfl, opened, rfl, rfl, rfl, fun _ _ => rfl⟩
  | true =>
      have written : ∀ (d' : Disk) (q : QString), q ≠ self.file.fileName →
          (d'.write self.file.fileName offset.toNat data).2.node q = d'.node q := by
        intro d' q other
        exact Disk.node_write_ne _ _ _ other
      simp only [Bool.not_true, Bool.false_eq_true, if_false]
      split
      · cases sought : (d.seek self.file.fileName offset.toNat).1 with
        | false =>
            exact ⟨rfl, opened, rfl, rfl, rfl, fun _ _ => rfl⟩
        | true =>
            simp only [Bool.not_true, Bool.false_eq_true, if_false]
            have host := Disk.refused_write (d.seek self.file.fileName offset.toNat).2
              self.file.fileName offset.toNat data
            split
            · exact ⟨rfl, rfl, rfl, rfl, host, fun q other => written _ q (other trivial)⟩
            · exact ⟨rfl, rfl, rfl, rfl, host, fun q other => written _ q (other trivial)⟩
      · simp only [Bool.not_true, Bool.false_eq_true, if_false]
        have host := Disk.refused_write d self.file.fileName offset.toNat data
        split
        · exact ⟨rfl, rfl, rfl, rfl, host, fun q other => written _ q (other trivial)⟩
        · exact ⟨rfl, rfl, rfl, rfl, host, fun q other => written _ q (other trivial)⟩

theorem refused_cleared (self : FileWriter B) (d : Disk) :
    (self.cleared d).refused = d.refused := (d.host_removed self.targetFilePath).1

theorem node_cleared_ne (self : FileWriter B) (d : Disk) {q : QString}
    (other : q ≠ self.targetFilePath) : (self.cleared d).node q = d.node q := by
  unfold cleared
  split
  · exact Disk.node_remove_ne _ other
  · rfl

theorem finalizeAndCommit_frame (self : FileWriter B) (d : Disk) (expectedBlake3 : QString) :
    let result := self.finalizeAndCommit d expectedBlake3
    result.2.1.file.isOpen = false ∧ result.2.1.targetFilePath = self.targetFilePath ∧
      result.2.1.partialFilePath = self.partialFilePath ∧ result.2.2.refused = d.refused ∧
      ∀ q, q ≠ self.targetFilePath → q ≠ self.partialFilePath →
        result.2.2.node q = d.node q := by
  by_cases verifies : self.Verifies expectedBlake3
  · obtain ⟨errorString, eq⟩ := finalizeAndCommit_verified (d := d) verifies
    rw [eq]
    refine ⟨rfl, rfl, rfl, ?_, ?_⟩
    · rw [Disk.refused_rename, refused_cleared]
    · intro q notTarget notStaging
      rw [Disk.node_rename_ne _ notStaging notTarget, node_cleared_ne _ _ notTarget]
  · rw [finalizeAndCommit_mismatch verifies]
    exact ⟨rfl, rfl, rfl, rfl, fun _ _ _ => rfl⟩

theorem called_apart {s s' : FileWriter B × Disk} {target staging : QString} {call : Call}
    (aims : Aims s.1 target staging) (h : Called s call s') :
    Aims s'.1 target staging ∧ Apart target staging s.2 s'.2 := by
  cases call with
  | writeChunk offset data =>
      obtain ⟨name, isOpen, target', staging', host, others⟩ := s.1.writeChunk_frame s.2 offset data
      cases h
      refine ⟨⟨?_, target'.trans aims.targetFilePath, staging'.trans aims.partialFilePath⟩, ?_, host⟩
      · intro opened
        exact name.trans (aims.fileName (isOpen.symm.trans opened))
      · intro q notTarget notStaging
        apply others q
        intro opened
        rw [aims.fileName opened]
        exact notStaging
  | finalizeAndCommit expectedBlake3 =>
      obtain ⟨shut, target', staging', host, others⟩ :=
        s.1.finalizeAndCommit_frame s.2 expectedBlake3
      cases h
      refine ⟨⟨?_, target'.trans aims.targetFilePath, staging'.trans aims.partialFilePath⟩, ?_, host⟩
      · intro opened
        cases shut.symm.trans opened
      · intro q notTarget notStaging
        apply others q
        · rw [aims.targetFilePath]
          exact notTarget
        · rw [aims.partialFilePath]
          exact notStaging
  | abort =>
      cases h
      refine ⟨⟨?_, aims.targetFilePath, aims.partialFilePath⟩, fun _ _ _ => rfl, rfl⟩
      intro opened
      cases opened
  | close =>
      cases h
      refine ⟨⟨?_, aims.targetFilePath, aims.partialFilePath⟩, fun _ _ _ => rfl, rfl⟩
      intro opened
      cases opened

theorem calls_apart {s s' : FileWriter B × Disk} {target staging : QString} {calls : List Call}
    (aims : Aims s.1 target staging) (run : Run Called s calls s') :
    Aims s'.1 target staging ∧ Apart target staging s.2 s'.2 := by
  induction run with
  | nil => exact ⟨aims, fun _ _ _ => rfl, rfl⟩
  | snoc _ last ih =>
      obtain ⟨aims', apart⟩ := ih
      obtain ⟨aims'', apart'⟩ := called_apart aims' last
      exact ⟨aims'', apart.trans apart'⟩

end Frames

/-! The file that is at the requested path before. -/

/-- What is at the target stays, as there is nothing or it cannot be removed. -/
structure Frozen (target : QString) (found : Option Node) (d : Disk) : Prop where
  node : d.node target = found
  stuck : found = none ∨ d.refused (.remove target) = true

private theorem node_cleared_frozen {self : FileWriter B} {d : Disk} {found : Option Node}
    (frozen : Frozen self.targetFilePath found d) :
    (self.cleared d).node self.targetFilePath = found := by
  unfold cleared
  split
  · rename_i there
    rcases frozen.stuck with rfl | refused
    · rw [Disk.exists, frozen.node] at there
      cases there
    · rw [Disk.node_remove, refused, if_neg (by simp), frozen.node]
  · exact frozen.node

/-- Only a commit moves something to a target that is frozen. -/
private theorem called_frozen {s s' : FileWriter B × Disk} {target staging : QString} {call : Call}
    {found : Option Node} (aims : Aims s.1 target staging) (differ : target ≠ staging)
    (frozen : Frozen target found s.2) (taken : ¬ Commits s call) (h : Called s call s') :
    Frozen target found s'.2 := by
  have host := (called_apart aims h).2.refused
  suffices same : s'.2.node target = found by
    refine ⟨same, ?_⟩
    rw [host]
    exact frozen.stuck
  cases call with
  | writeChunk offset data =>
      obtain ⟨-, -, -, -, -, others⟩ := s.1.writeChunk_frame s.2 offset data
      cases h
      refine (others target ?_).trans frozen.node
      intro opened
      rw [aims.fileName opened]
      exact differ
  | finalizeAndCommit expectedBlake3 =>
      have failed : (s.1.finalizeAndCommit s.2 expectedBlake3).1 = false := by
        rw [← Bool.not_eq_true]
        intro done
        exact taken ⟨expectedBlake3, rfl, done⟩
      cases h
      show (s.1.finalizeAndCommit s.2 expectedBlake3).2.2.node target = found
      by_cases verifies : s.1.Verifies expectedBlake3
      · obtain ⟨errorString, eq⟩ := finalizeAndCommit_verified (d := s.2) verifies
        rw [eq] at failed ⊢
        rw [Disk.node_rename_failed failed, ← aims.targetFilePath]
        apply node_cleared_frozen
        rw [aims.targetFilePath]
        exact frozen
      · rw [finalizeAndCommit_mismatch verifies]
        exact frozen.node
  | abort =>
      cases h
      exact frozen.node
  | close =>
      cases h
      exact frozen.node

private theorem calls_frozen {s s' : FileWriter B × Disk} {target staging : QString}
    {calls : List Call} {found : Option Node} (aims : Aims s.1 target staging)
    (differ : target ≠ staging) (frozen : Frozen target found s.2)
    (run : Run (Guarded Called fun s call => ¬ Commits s call) s calls s') :
    Aims s'.1 target staging ∧ Frozen target found s'.2 := by
  induction run with
  | nil => exact ⟨aims, frozen⟩
  | snoc _ last ih =>
      obtain ⟨aims', frozen'⟩ := ih
      exact ⟨(called_apart aims' last.2).1, called_frozen aims' differ frozen' last.1 last.2⟩

theorem checkSpace_refused (d : Disk) (baseOutputDir : QString) (size : UInt64) :
    (checkSpace d baseOutputDir size).2.refused = d.refused := by
  unfold checkSpace
  split <;> rfl

/-- Under `Rename` and `Ask` neither the target nor its staging file is there, and the disk is as
it was. -/
theorem applyPolicy_unique {d : Disk} {target : QString} {policy : DuplicatePolicy}
    (there : d.exists target = true) (numbers : policy = .Rename ∨ policy = .Ask) :
    applyPolicy d target policy = (some (resolveUniqueName d target), d) ∧
      d.node (resolveUniqueName d target) = none ∧
      d.node (resolveUniqueName d target ++ partialSuffix) = none := by
  obtain ⟨n, -, eq, free, -⟩ := resolveUniqueName_least there
  rw [isTaken, Bool.or_eq_false_iff] at free
  have absent : ∀ path, d.exists path = false → d.node path = none := by
    intro path none
    exact Option.isNone_iff_eq_none.mp (Option.isSome_eq_false_iff.mp none)
  refine ⟨?_, ?_, ?_⟩
  · unfold applyPolicy
    rw [if_pos there]
    rcases numbers with rfl | rfl <;> rfl
  · rw [eq]
    exact absent _ free.1
  · rw [eq]
    exact absent _ free.2

section OldFile

variable {d : Disk} {baseOutputDir senderDevice relativePath : QString}
  {size : UInt64} {policy : DuplicatePolicy} {old : QByteArray}

/-- Under `Replace`, the old file is removed, if that is not refused, before its staging file is
opened. -/
private theorem open_replace (self : FileWriter B) (resumeOffset : UInt64)
    (there : d.node (targetPath baseOutputDir senderDevice relativePath) = some (.file old))
    (space : (checkSpace d baseOutputDir size).1 = true) :
    let target := targetPath baseOutputDir senderDevice relativePath
    let result := self.open d baseOutputDir senderDevice relativePath size resumeOffset .Replace
    Aims result.2.1 target (target ++ partialSuffix) ∧
      Frozen target (if d.refused (.remove target) = false then none else some (.file old))
        result.2.2 := by
  intro target result
  have nonempty : target ≠ [] := targetPath_ne_nil baseOutputDir senderDevice relativePath
  have cases := self.open_cases d baseOutputDir senderDevice relativePath size resumeOffset .Replace
  have room := (checkSpace_node d baseOutputDir size target).trans there
  have host := checkSpace_refused d baseOutputDir size
  have removed : applyPolicy (checkSpace d baseOutputDir size).2 target .Replace =
      (some target, (checkSpace d baseOutputDir size).2.remove target) := by
    rw [applyPolicy, if_pos (by rw [Disk.exists, room]; rfl)]
  rcases cases with ⟨full, -⟩ | ⟨-, skipped, -⟩ | ⟨-, chosen, choice, eq⟩
  · rw [space] at full
    cases full
  · rw [show applyPolicy _ _ _ = _ from removed] at skipped
    cases skipped
  · rw [show applyPolicy _ _ _ = _ from removed] at choice eq
    obtain rfl := Option.some.inj choice
    obtain ⟨aims, others, host', -⟩ := stage_frame (self.aimed target size)
      (((checkSpace d baseOutputDir size).2.remove target).mkpath
        (dirPart (target ++ partialSuffix))) size resumeOffset
    rw [show result = _ from eq]
    refine ⟨aims, ?_, ?_⟩
    · rw [others target (partial_ne target).symm, node_mkpath_target nonempty, Disk.node_remove,
        room, host]
      simp
    · rw [host', (Disk.host_mkpath _ _).1, (Disk.host_remove _ _).1, host]
      cases d.refused (.remove target) with
      | true => exact .inr rfl
      | false => exact .inl rfl

/-- Otherwise a file of another name is opened, or none, and the old one is still there. A writer
without space keeps its target and its hash, one that skips the file has it for its target. -/
private theorem open_spares (self : FileWriter B) (resumeOffset : UInt64)
    (there : d.node (targetPath baseOutputDir senderDevice relativePath) = some (.file old))
    (spares : ¬ (policy = .Replace ∧ (checkSpace d baseOutputDir size).1 = true)) :
    let target := targetPath baseOutputDir senderDevice relativePath
    let space := (checkSpace d baseOutputDir size).1
    let result := self.open d baseOutputDir senderDevice relativePath size resumeOffset policy
    result.2.2.node target = some (.file old) ∧ result.2.2.refused = d.refused ∧
      (space = false ∧ result.2.1.file.isOpen = false ∧
          result.2.1.targetFilePath = self.targetFilePath ∧ result.2.1.hasher = self.hasher ∨
        space = true ∧ policy = .Skip ∧ result.2.1.file.isOpen = false ∧
          result.2.1.targetFilePath = target ∧ result.2.1.hasher = .reset B ∨
        space = true ∧ policy ≠ .Skip ∧ ∃ chosen, Aims result.2.1 chosen (chosen ++ partialSuffix) ∧
          target ≠ chosen ∧ target ≠ chosen ++ partialSuffix) := by
  intro target space result
  have cases := self.open_cases d baseOutputDir senderDevice relativePath size resumeOffset policy
  have room := (checkSpace_node d baseOutputDir size target).trans there
  have host := checkSpace_refused d baseOutputDir size
  have taken : (checkSpace d baseOutputDir size).2.exists target = true := by
    rw [Disk.exists, room]
    rfl
  rcases cases with ⟨full, eq⟩ | ⟨enough, skipped, eq⟩ | ⟨enough, chosen, choice, eq⟩
  · rw [show result = _ from eq]
    exact ⟨room, host, .inl ⟨full, rfl, rfl, rfl⟩⟩
  · obtain ⟨rfl, -⟩ := applyPolicy_none skipped
    have same : (applyPolicy (checkSpace d baseOutputDir size).2 target .Skip).2 =
        (checkSpace d baseOutputDir size).2 := by
      rw [applyPolicy, if_pos taken]
    rw [show result = _ from eq]
    refine ⟨?_, ?_, .inr (.inl ⟨enough, rfl, rfl, rfl, rfl⟩)⟩
    · rw [show applyPolicy _ _ _ = applyPolicy _ target _ from rfl, same]
      exact room
    · rw [show applyPolicy _ _ _ = applyPolicy _ target _ from rfl, same]
      exact host
  · have numbers : policy = .Rename ∨ policy = .Ask := by
      cases policy with
      | Rename => exact .inl rfl
      | Ask => exact .inr rfl
      | Replace => exact absurd ⟨rfl, enough⟩ spares
      | Skip =>
          rw [show applyPolicy _ _ _ = applyPolicy _ target _ from rfl, applyPolicy,
            if_pos taken] at choice
          cases choice
    have other : policy ≠ .Skip := by
      rcases numbers with rfl | rfl <;> decide
    obtain ⟨unique, free, clear⟩ := applyPolicy_unique taken numbers
    rw [show applyPolicy _ _ _ = _ from unique] at choice eq
    obtain rfl := Option.some.inj choice
    have differs : ∀ path, (checkSpace d baseOutputDir size).2.node path = none →
        target ≠ path := by
      rintro path absent rfl
      rw [room] at absent
      cases absent
    obtain ⟨aims, others, host', -⟩ := stage_frame
      (self.aimed (resolveUniqueName (checkSpace d baseOutputDir size).2 target) size)
      ((checkSpace d baseOutputDir size).2.mkpath (dirPart
        (resolveUniqueName (checkSpace d baseOutputDir size).2 target ++ partialSuffix)))
      size resumeOffset
    rw [show result = _ from eq]
    refine ⟨?_, ?_, .inr (.inr ⟨enough, other, _, aims, differs _ free, differs _ clear⟩)⟩
    · rw [others target (differs _ clear)]
      exact Disk.node_mkpath_some room _
    · rw [host', (Disk.host_mkpath _ _).1, host]

/-- One of the calls is to commit what the writer has hashed. -/
def Ends (calls : List Call) (writer : FileWriter B) : Prop :=
  ∃ expectedBlake3, .finalizeAndCommit expectedBlake3 ∈ calls ∧ writer.Verifies expectedBlake3

private theorem ends_snoc {calls : List Call} {call : Call} {writer : FileWriter B} :
    Ends (calls ++ [call]) writer ↔ Ends calls writer ∨
      ∃ expectedBlake3, call = .finalizeAndCommit expectedBlake3 ∧
        writer.Verifies expectedBlake3 := by
  simp only [Ends, List.mem_append, List.mem_singleton, or_and_right, exists_or, eq_comm]

private theorem finalizeHex_again (hasher : Blake3Hasher B) :
    hasher.finalizeHex.2.finalizeHex.1 = hasher.finalizeHex.1 := by
  cases done : hasher.finalized <;>
    simp [Blake3Hasher.finalizeHex, Blake3Hasher.finalizeRaw, done]

private theorem node_cleared_file {self : FileWriter B} {d : Disk}
    (nodes : d.node self.targetFilePath = some (.file old) ∨ d.node self.targetFilePath = none) :
    (self.cleared d).node self.targetFilePath =
      if d.refused (.remove self.targetFilePath) = false then none
      else d.node self.targetFilePath := by
  unfold cleared
  split
  · rw [Disk.node_remove]
    have file : d.node self.targetFilePath ≠ some .dir := by
      rintro folder
      rcases nodes with there | gone
      · cases there.symm.trans folder
      · cases gone.symm.trans folder
    simp only [file, ne_eq, not_false_eq_true, and_true]
  · rename_i absent
    have gone : d.node self.targetFilePath = none := by
      simpa [Disk.exists] using absent
    rw [gone, ite_self]

/-- A writer whose opening was refused, behind some calls that committed nothing. -/
structure Refused (start s : FileWriter B × Disk) (calls : List Call) (target : QString)
    (old : QByteArray) : Prop where
  shut : s.1.file.isOpen = false
  targetFilePath : s.1.targetFilePath = start.1.targetFilePath
  hasher : s.1.hasher.finalizeHex.1 = start.1.hasher.finalizeHex.1
  refused : s.2.refused = start.2.refused
  file : s.2.node target = some (.file old) ∨ s.2.node target = none
  gone : s.2.node target = none ↔ start.2.refused (.remove target) = false ∧
    start.1.targetFilePath = target ∧ Ends calls start.1

private theorem Refused.ends_snoc {start s : FileWriter B × Disk} {calls : List Call}
    {target : QString} (h : Refused start s calls target old) (call : Call) :
    Ends (calls ++ [call]) start.1 ↔ Ends calls start.1 ∨
      ∃ expectedBlake3, call = .finalizeAndCommit expectedBlake3 ∧
        s.1.Verifies expectedBlake3 := by
  have verifies : ∀ expectedBlake3,
      start.1.Verifies expectedBlake3 ↔ s.1.Verifies expectedBlake3 := by
    intro expectedBlake3
    rw [Verifies, Verifies, h.hasher]
  simp only [FileWriter.ends_snoc, verifies]

private theorem Refused.idle {start s : FileWriter B × Disk} {calls : List Call}
    {target : QString} (h : Refused start s calls target old) (call : Call)
    (idle : ¬ ∃ expectedBlake3, call = .finalizeAndCommit expectedBlake3 ∧
      s.1.Verifies expectedBlake3) :
    s.2.node target = none ↔ start.2.refused (.remove target) = false ∧
      start.1.targetFilePath = target ∧ Ends (calls ++ [call]) start.1 := by
  rw [h.ends_snoc, or_iff_left idle]
  exact h.gone

/-- The removal in front of the rename takes the file away, where the system allows it. -/
private theorem Refused.cleared {start s : FileWriter B × Disk} {calls : List Call}
    {target : QString} (h : Refused start s calls target old) :
    ((s.1.cleared s.2).node target = some (.file old) ∨
        (s.1.cleared s.2).node target = none) ∧
      ((s.1.cleared s.2).node target = none ↔
        start.2.refused (.remove target) = false ∧ start.1.targetFilePath = target) := by
  rw [← h.targetFilePath, ← h.refused]
  by_cases aim : s.1.targetFilePath = target
  · subst aim
    rw [node_cleared_file h.file]
    split
    · rename_i allowed
      exact ⟨.inr rfl, iff_of_true rfl ⟨allowed, rfl⟩⟩
    · rename_i refuses
      refine ⟨h.file, iff_of_false (fun gone => ?_) fun both => refuses both.1⟩
      exact refuses (h.refused ▸ (h.gone.mp gone).1)
  · rw [node_cleared_ne _ _ (Ne.symm aim)]
    refine ⟨h.file, iff_of_false (fun gone => aim ?_) fun both => aim both.2⟩
    exact h.targetFilePath.trans (h.gone.mp gone).2.1

private theorem Refused.committing {start s : FileWriter B × Disk} {calls : List Call}
    {target expectedBlake3 : QString} (h : Refused start s calls target old)
    (failed : (s.1.finalizeAndCommit s.2 expectedBlake3).1 = false)
    (passes : s.1.Verifies expectedBlake3) :
    Refused start (s.1.finalizeAndCommit s.2 expectedBlake3).2
      (calls ++ [.finalizeAndCommit expectedBlake3]) target old := by
  obtain ⟨errorString, eq⟩ := finalizeAndCommit_verified (d := s.2) passes
  obtain ⟨file, gone⟩ := h.cleared
  have nodes : ∀ q, (s.1.finalizeAndCommit s.2 expectedBlake3).2.2.node q =
      (s.1.cleared s.2).node q := by
    rw [eq] at failed ⊢
    exact Disk.node_rename_failed failed
  have ended : Ends (calls ++ [.finalizeAndCommit expectedBlake3]) start.1 :=
    (h.ends_snoc _).mpr (.inr ⟨expectedBlake3, rfl, passes⟩)
  have host : (s.1.finalizeAndCommit s.2 expectedBlake3).2.2.refused = s.2.refused := by
    rw [eq, Disk.refused_rename, refused_cleared]
  refine ⟨?_, ?_, ?_, host.trans h.refused, ?_, ?_⟩
  · rw [eq]
    rfl
  · rw [eq]
    exact h.targetFilePath
  · rw [eq]
    exact (finalizeHex_again s.1.hasher).trans h.hasher
  · rw [nodes]
    exact file
  · rw [nodes, gone]
    exact ⟨fun both => ⟨both.1, both.2, ended⟩, fun all => ⟨all.1, all.2.1⟩⟩

/-- The next call: the file at the target goes as the writer tries to commit. -/
private theorem Refused.step {start s s' : FileWriter B × Disk} {calls : List Call}
    {target : QString} {call : Call} (h : Refused start s calls target old)
    (taken : ¬ Commits s call) (called : Called s call s') :
    Refused start s' (calls ++ [call]) target old := by
  cases call with
  | writeChunk offset data =>
      have skipped : s.1.writeChunk s.2 offset data = (false,
          { s.1 with errorString := literal "File is not open for writing" }, s.2) := by
        rw [writeChunk, h.shut]
        rfl
      cases called
      rw [perform, skipped]
      have gone := h.idle (.writeChunk offset data) (by rintro ⟨_, impossible, -⟩; cases impossible)
      exact ⟨h.shut, h.targetFilePath, h.hasher, h.refused, h.file, gone⟩
  | finalizeAndCommit expectedBlake3 =>
      have failed : (s.1.finalizeAndCommit s.2 expectedBlake3).1 = false := by
        rw [← Bool.not_eq_true]
        intro done
        exact taken ⟨expectedBlake3, rfl, done⟩
      cases called
      by_cases passes : s.1.Verifies expectedBlake3
      · exact h.committing failed passes
      · rw [perform, finalizeAndCommit_mismatch passes]
        have gone := h.idle (.finalizeAndCommit expectedBlake3)
          (by rintro ⟨_, same, yes⟩; cases same; exact passes yes)
        exact ⟨rfl, h.targetFilePath, (finalizeHex_again s.1.hasher).trans h.hasher, h.refused,
          h.file, gone⟩
  | abort =>
      cases called
      have gone := h.idle .abort (by rintro ⟨_, impossible, -⟩; cases impossible)
      exact ⟨rfl, h.targetFilePath, h.hasher, h.refused, h.file, gone⟩
  | close =>
      cases called
      have gone := h.idle .close (by rintro ⟨_, impossible, -⟩; cases impossible)
      exact ⟨rfl, h.targetFilePath, h.hasher, h.refused, h.file, gone⟩

private theorem Refused.run {start s : FileWriter B × Disk} {calls : List Call} {target : QString}
    (shut : start.1.file.isOpen = false) (there : start.2.node target = some (.file old))
    (run : Run (Guarded Called fun s call => ¬ Commits s call) start calls s) :
    Refused start s calls target old := by
  induction run with
  | nil =>
      refine ⟨shut, rfl, rfl, rfl, .inl there, ?_⟩
      rw [there]
      refine iff_of_false (Option.some_ne_none _) ?_
      rintro ⟨-, -, expectedBlake3, mem, -⟩
      cases mem
  | snoc _ last ih => exact ih.step last.1 last.2

/-- Without a commit, the file that was at the requested path is still there, exactly if it cannot
be removed, or it was not to be replaced and no later call commits a writer that was refused. -/
theorem old_file_kept_iff {self : FileWriter B} {resumeOffset : UInt64} {calls : List Call}
    {s' : FileWriter B × Disk}
    (there : d.node (targetPath baseOutputDir senderDevice relativePath) = some (.file old))
    (run : Run (Guarded Called fun s call => ¬ Commits s call)
      (self.open d baseOutputDir senderDevice relativePath size resumeOffset policy).2 calls s') :
    let target := targetPath baseOutputDir senderDevice relativePath
    let space := (checkSpace d baseOutputDir size).1
    s'.2.node target = some (.file old) ↔
      ¬ (d.refused (.remove target) = false ∧
        (space = true ∧ policy = .Replace ∨
          space = true ∧ policy = .Skip ∧ Ends calls (new B) ∨
          space = false ∧ self.targetFilePath = target ∧ Ends calls self)) := by
  intro target space
  by_cases replaces : policy = .Replace ∧ (checkSpace d baseOutputDir size).1 = true
  · obtain ⟨rfl, enough⟩ := replaces
    obtain ⟨aims, frozen⟩ := self.open_replace resumeOffset there enough
    rw [(calls_frozen aims (partial_ne _).symm frozen run).2.node]
    cases refuses : d.refused (.remove target) with
    | true => simp [target]
    | false => simp [target, space, enough]
  obtain ⟨kept, host, outcome⟩ := self.open_spares resumeOffset there replaces
  -- a writer that was refused still has a target, and its hash
  have shut : (self.open d baseOutputDir senderDevice relativePath size resumeOffset
        policy).2.1.file.isOpen = false →
      (s'.2.node target = some (.file old) ↔
        ¬ (d.refused (.remove target) = false ∧
          (self.open d baseOutputDir senderDevice relativePath size resumeOffset
            policy).2.1.targetFilePath = target ∧
          Ends calls (self.open d baseOutputDir senderDevice relativePath size resumeOffset
            policy).2.1)) := by
    intro closed
    have refused := Refused.run closed kept run
    rw [← host, ← refused.gone]
    rcases refused.file with file | gone
    · rw [file]
      simp
    · rw [gone]
      simp
  have same : ∀ writer : FileWriter B, (self.open d baseOutputDir senderDevice relativePath size
      resumeOffset policy).2.1.hasher = writer.hasher →
      (Ends calls (self.open d baseOutputDir senderDevice relativePath size resumeOffset
        policy).2.1 ↔ Ends calls writer) := by
    intro writer hasher
    simp only [Ends, Verifies, hasher]
  rcases outcome with ⟨full, closed, aim, hasher⟩ | ⟨enough, rfl, closed, aim, hasher⟩ |
    ⟨enough, other, chosen, aims, notTarget, notStaging⟩
  · rw [shut closed, aim, same self hasher]
    have none : space = false := full
    simp [none]
  · rw [shut closed, aim, same (new B) hasher]
    have some : space = true := enough
    simp [some, target]
  · have calm : Run Called _ calls s' := run.mono fun _ _ _ step => step.2
    rw [(calls_apart aims calm).2.node _ notTarget notStaging]
    refine iff_of_true kept ?_
    rintro ⟨-, ⟨-, replace⟩ | ⟨-, skip, -⟩ | ⟨full, -⟩⟩
    · exact replaces ⟨replace, enough⟩
    · exact other skip
    · cases enough.symm.trans full

end OldFile

def oneFile : Disk :=
  ((Disk.blank.put (literal "d") .dir).put (literal "d/pc") .dir).put (literal "d/pc/a.txt")
    (.file [1])

def receivedAgain (policy : DuplicatePolicy) : Bool × FileWriter Blake3.vendored × Disk :=
  (new Blake3.vendored).open oneFile (literal "d") (literal "pc") (literal "a.txt") 1 0 policy

/-- A renamed download that is aborted. -/
theorem old_file_kept_renamed :
    ((receivedAgain .Rename).2.1.perform (receivedAgain .Rename).2.2 .abort).2.2.node
      (literal "d/pc/a.txt") = some (.file [1]) := by
  have target : targetPath (literal "d") (literal "pc") (literal "a.txt") =
      literal "d/pc/a.txt" := by
    decide
  have there : oneFile.node (targetPath (literal "d") (literal "pc") (literal "a.txt")) =
      some (.file [1]) := by
    decide
  have run : Run (Guarded Called fun s call => ¬ Commits s call) (receivedAgain .Rename).2 [.abort]
      ((receivedAgain .Rename).2.1.perform (receivedAgain .Rename).2.2 .abort).2 := by
    refine .single ⟨?_, rfl⟩
    rintro ⟨expectedBlake3, impossible, -⟩
    cases impossible
  have kept := old_file_kept_iff there run
  rw [target] at kept
  refine kept.mpr ?_
  rintro ⟨-, ⟨-, replaces⟩ | ⟨-, skips, -⟩ | ⟨full, -⟩⟩
  · cases replaces
  · cases skips
  · revert full
    decide

/-- A download that is to replace the file and is aborted: the file is gone. -/
theorem old_file_lost :
    oneFile.node (targetPath (literal "d") (literal "pc") (literal "a.txt")) = some (.file [1]) ∧
      (receivedAgain .Replace).1 = true ∧
      ¬ Commits (receivedAgain .Replace).2 .abort ∧
      ((receivedAgain .Replace).2.1.perform (receivedAgain .Replace).2.2 .abort).2.2.node
        (targetPath (literal "d") (literal "pc") (literal "a.txt")) = none := by
  refine ⟨by decide, by decide +kernel, ?_, by decide +kernel⟩
  rintro ⟨expectedBlake3, impossible, -⟩
  cases impossible

-- a file that is skipped goes if the refused writer is committed all the same
example : ((receivedAgain .Skip).2.1.perform (receivedAgain .Skip).2.2
    (.finalizeAndCommit [])).2.2.node (literal "d/pc/a.txt") = none := by decide +kernel

end FastTransfer.FileWriter
