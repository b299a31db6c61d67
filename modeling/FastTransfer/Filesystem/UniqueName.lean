/- FastTransfer/Filesystem/UniqueName
   source: src/filesystem/FileWriter.cpp
   digest: A renamed download has the first free name, and touches nothing that was there. -/

import FastTransfer.Filesystem.Lifecycle

set_option autoImplicit false
set_option relaxedAutoImplicit false

namespace FastTransfer

open QString (literal slash)

/-- What every file system has: nothing without a name, and a folder around every entry. -/
structure Disk.Sound (d : Disk) : Prop where
  nameless : d.node [] = none
  folders : ∀ q ∈ d.nodes.keys, ∀ folder ∈ ancestors (dirPart q), d.node folder = some .dir

namespace FileWriter

variable {B : Blake3}

structure Inert (s : FileWriter B × Disk) : Prop where
  shut : s.1.file.isOpen = false
  targetFilePath : s.1.targetFilePath = []
  partialFilePath : s.1.partialFilePath = []
  nameless : s.2.node [] = none

private theorem Inert.finalizeAndCommit {s : FileWriter B × Disk} (h : Inert s)
    (expectedBlake3 : QString) :
    (s.1.finalizeAndCommit s.2 expectedBlake3).1 = false ∧
      ∀ q, (s.1.finalizeAndCommit s.2 expectedBlake3).2.2.node q = s.2.node q := by
  by_cases verifies : s.1.Verifies expectedBlake3
  · have untouched : s.1.cleared s.2 = s.2 := by
      rw [cleared, h.targetFilePath, Disk.exists, h.nameless]
      rfl
    have failed : (s.2.rename [] []).1 = false := by
      simp only [Disk.rename, h.nameless]
    obtain ⟨errorString, eq⟩ := finalizeAndCommit_verified (d := s.2) verifies
    rw [untouched, h.targetFilePath, h.partialFilePath] at eq
    rw [eq]
    exact ⟨failed, Disk.node_rename_failed failed⟩
  · rw [finalizeAndCommit_mismatch verifies]
    exact ⟨rfl, fun _ => rfl⟩

private theorem called_inert {s s' : FileWriter B × Disk} {call : Call} (inert : Inert s)
    (h : Called s call s') : Inert s' ∧ ∀ q, s'.2.node q = s.2.node q := by
  cases call with
  | writeChunk offset data =>
      obtain ⟨-, isOpen, target, staging, -, others⟩ := s.1.writeChunk_frame s.2 offset data
      cases h
      have same : ∀ q, (s.1.writeChunk s.2 offset data).2.2.node q = s.2.node q := by
        intro q
        apply others q
        intro opened
        cases inert.shut.symm.trans opened
      exact ⟨⟨isOpen.trans inert.shut, target.trans inert.targetFilePath,
        staging.trans inert.partialFilePath, (same []).trans inert.nameless⟩, same⟩
  | finalizeAndCommit expectedBlake3 =>
      obtain ⟨shut, target, staging, -, -⟩ := s.1.finalizeAndCommit_frame s.2 expectedBlake3
      have same := (inert.finalizeAndCommit expectedBlake3).2
      cases h
      exact ⟨⟨shut, target.trans inert.targetFilePath, staging.trans inert.partialFilePath,
        (same []).trans inert.nameless⟩, same⟩
  | abort =>
      cases h
      exact ⟨⟨rfl, inert.targetFilePath, inert.partialFilePath, inert.nameless⟩, fun _ => rfl⟩
  | close =>
      cases h
      exact ⟨⟨rfl, inert.targetFilePath, inert.partialFilePath, inert.nameless⟩, fun _ => rfl⟩

private theorem calls_inert {s s' : FileWriter B × Disk} {calls : List Call} (inert : Inert s)
    (run : Run Called s calls s') : Inert s' ∧ ∀ q, s'.2.node q = s.2.node q := by
  induction run with
  | nil => exact ⟨inert, fun _ => rfl⟩
  | snoc _ last ih =>
      obtain ⟨inert', same⟩ := ih
      obtain ⟨inert'', same'⟩ := called_inert inert' last
      exact ⟨inert'', fun q => (same' q).trans (same q)⟩

theorem committed_nodes {self : FileWriter B} {d : Disk} {expectedBlake3 : QString}
    (done : (self.finalizeAndCommit d expectedBlake3).1 = true) :
    (∃ content, (self.finalizeAndCommit d expectedBlake3).2.2.node self.targetFilePath =
      some (.file content)) ∧
    (self.finalizeAndCommit d expectedBlake3).2.2.node self.partialFilePath = none := by
  have verifies : self.Verifies expectedBlake3 := by
    by_contra mismatch
    rw [finalizeAndCommit_mismatch mismatch] at done
    cases done
  obtain ⟨errorString, eq⟩ := finalizeAndCommit_verified (d := d) verifies
  rw [eq] at done ⊢
  obtain ⟨content, -, -, there, gone⟩ := Disk.node_rename done
  exact ⟨⟨content, there⟩, gone⟩

/-- Opening under `Rename` or `Ask` for a path that exists: there is no space, or the first free
name is taken and only its staging file is touched. -/
private theorem open_unique (self : FileWriter B) {d : Disk}
    {baseOutputDir senderDevice relativePath : QString} (size resumeOffset : UInt64)
    {policy : DuplicatePolicy} (sound : d.Sound)
    (there : d.exists (targetPath baseOutputDir senderDevice relativePath) = true)
    (numbers : policy = .Rename ∨ policy = .Ask) :
    let result := self.open d baseOutputDir senderDevice relativePath size resumeOffset policy
    let unique := resolveUniqueName d (targetPath baseOutputDir senderDevice relativePath)
    (result.1 = false ∧ (self = new B → Inert result.2) ∧ ∀ q, result.2.2.node q = d.node q) ∨
      Aims result.2.1 unique (unique ++ partialSuffix) ∧
        ∀ q, q ≠ unique ++ partialSuffix → result.2.2.node q = d.node q := by
  intro result unique
  have cases := self.open_cases d baseOutputDir senderDevice relativePath size resumeOffset policy
  have nodes := checkSpace_nodes d baseOutputDir size
  have same : ∀ q, (checkSpace d baseOutputDir size).2.node q = d.node q :=
    checkSpace_node d baseOutputDir size
  have there' : (checkSpace d baseOutputDir size).2.exists
      (targetPath baseOutputDir senderDevice relativePath) = true := by
    rw [Disk.exists, same]
    exact there
  obtain ⟨choice, -, -⟩ := applyPolicy_unique there' numbers
  rw [resolveUniqueName_congr nodes] at choice
  rcases cases with ⟨-, eq⟩ | ⟨-, none, -⟩ | ⟨-, chosen, taken, eq⟩
  · rw [show result = _ from eq]
    refine .inl ⟨rfl, ?_, same⟩
    rintro rfl
    exact ⟨rfl, rfl, rfl, (same []).trans sound.nameless⟩
  · rw [choice] at none
    cases none
  · rw [choice] at taken
    obtain rfl : unique = chosen := Option.some.inj taken
    obtain ⟨aims, others, -, -⟩ := stage_frame (self.aimed unique size)
      ((applyPolicy (checkSpace d baseOutputDir size).2
        (targetPath baseOutputDir senderDevice relativePath) policy).2.mkpath
          (dirPart (unique ++ partialSuffix))) size resumeOffset
    rw [← eq, choice] at others
    rw [← eq] at aims
    refine .inr ⟨aims, ?_⟩
    intro q other
    rw [show result.2.2.node q = _ from others q other, ← same q]
    apply Disk.node_mkpath_present
    intro folder mem
    obtain ⟨n, -, named, -⟩ := resolveUniqueName_least there
    rw [show unique = _ from named] at mem
    rw [same, sound.folders _ (AList.mem_keys.mp (AList.lookup_isSome.mp there)) folder
      (ancestors_candidate n mem)]
    exact Option.some_ne_none _

/-- Where nothing but the target and its staging file has changed, a commit adds the target. -/
private theorem committed_adds {s : FileWriter B × Disk} {d : Disk} {target expectedBlake3 : QString}
    (aims : Aims s.1 target (target ++ partialSuffix))
    (clear : d.node (target ++ partialSuffix) = none)
    (kept : ∀ q, q ≠ target → q ≠ target ++ partialSuffix → s.2.node q = d.node q)
    (done : (s.1.finalizeAndCommit s.2 expectedBlake3).1 = true) (q : QString) :
    (s.1.finalizeAndCommit s.2 expectedBlake3).2.2.exists q = true ↔
      d.exists q = true ∨ q = target := by
  obtain ⟨⟨content, moved⟩, gone⟩ := committed_nodes done
  obtain ⟨-, -, -, -, rest⟩ := s.1.finalizeAndCommit_frame s.2 expectedBlake3
  rw [aims.targetFilePath] at moved rest
  rw [aims.partialFilePath] at gone rest
  by_cases final : q = target
  · rw [final, Disk.exists, moved]
    exact iff_of_true rfl (.inr rfl)
  by_cases staging : q = target ++ partialSuffix
  · rw [staging, Disk.exists, gone, Disk.exists, clear]
    refine iff_of_false (by decide) ?_
    rintro (impossible | same)
    · cases impossible
    · exact partial_ne _ same
  · rw [Disk.exists, rest q final staging, kept q final staging, Disk.exists]
    exact (or_iff_left final).symm

/-- The unique name of a path that exists is the first that is free. A writer under `Rename` or
`Ask`, new or successfully opened, leaves whatever was there as it was, whichever calls follow; and
a commit adds one path. -/
theorem unique_name_spares {d : Disk} (sound : d.Sound) :
    (∀ target, d.exists target = true → ∃ n, 1 ≤ n ∧
      resolveUniqueName d target = candidate target n ∧
      d.exists (candidate target n) = false ∧
      d.exists (candidate target n ++ partialSuffix) = false ∧
      ∀ m, 1 ≤ m → m < n → d.exists (candidate target m) = true ∨
        d.exists (candidate target m ++ partialSuffix) = true) ∧
    ∀ (baseOutputDir senderDevice relativePath : QString) (size resumeOffset : UInt64)
      (policy : DuplicatePolicy) (self : FileWriter B) (calls : List Call)
      (s' : FileWriter B × Disk),
      let target := targetPath baseOutputDir senderDevice relativePath
      let result := self.open d baseOutputDir senderDevice relativePath size resumeOffset policy
      d.exists target = true → policy = .Rename ∨ policy = .Ask →
      self = new B ∨ result.1 = true → Run Called result.2 calls s' →
      (∀ q n, d.node q = some n → s'.2.node q = some n) ∧
      ∀ expectedBlake3, (s'.1.finalizeAndCommit s'.2 expectedBlake3).1 = true →
        ∀ q, (s'.1.finalizeAndCommit s'.2 expectedBlake3).2.2.exists q = true ↔
          d.exists q = true ∨ q = resolveUniqueName d target := by
  constructor
  · intro target there
    obtain ⟨n, low, eq, free, least⟩ := resolveUniqueName_least there
    rw [isTaken, Bool.or_eq_false_iff] at free
    refine ⟨n, low, eq, free.1, free.2, ?_⟩
    intro m above below
    have taken := least m above below
    rwa [isTaken, Bool.or_eq_true] at taken
  intro baseOutputDir senderDevice relativePath size resumeOffset policy self calls s' target result
    there numbers usable run
  obtain ⟨-, free, clear⟩ := applyPolicy_unique there numbers
  rcases open_unique self size resumeOffset sound there numbers with
    ⟨shut, inert, same⟩ | ⟨aims, others⟩
  · have fresh := usable.resolve_right (by rw [show result.1 = false from shut]; decide)
    obtain ⟨inert', same'⟩ := calls_inert (inert fresh) run
    constructor
    · intro q n found
      exact (same' q).trans ((same q).trans found)
    · intro expectedBlake3 done
      rw [(inert'.finalizeAndCommit expectedBlake3).1] at done
      cases done
  · obtain ⟨aims', apart⟩ := calls_apart aims run
    have kept : ∀ q, q ≠ resolveUniqueName d target →
        q ≠ resolveUniqueName d target ++ partialSuffix → s'.2.node q = d.node q := by
      intro q notTarget notStaging
      exact (apart.node q notTarget notStaging).trans (others q notStaging)
    constructor
    · intro q n found
      have differs : ∀ path, d.node path = none → q ≠ path := by
        rintro path absent rfl
        rw [found] at absent
        cases absent
      exact (kept q (differs _ free) (differs _ clear)).trans found
    · intro expectedBlake3 done q
      exact committed_adds aims' clear kept done q

/-- A second download of the one file, with a chunk and a commit: the first is as it was, and the
second has its name numbered. -/
theorem unique_name_spares_second :
    let s := ((receivedAgain .Rename).2.1.perform (receivedAgain .Rename).2.2
      (.writeChunk 0 [2])).2
    s.2.node (literal "d/pc/a.txt") = some (.file [1]) ∧
      ((s.1.finalizeAndCommit s.2 []).2.2.exists (literal "d/pc/a (1).txt") = true ↔
        oneFile.exists (literal "d/pc/a (1).txt") = true ∨
          literal "d/pc/a (1).txt" = resolveUniqueName oneFile
            (targetPath (literal "d") (literal "pc") (literal "a.txt"))) := by
  intro s
  have sound : oneFile.Sound := ⟨by decide, by decide⟩
  have there :
      oneFile.exists (targetPath (literal "d") (literal "pc") (literal "a.txt")) = true := by
    decide
  have run : Run Called (receivedAgain .Rename).2 [.writeChunk 0 [2]] s := .single rfl
  obtain ⟨kept, added⟩ := (unique_name_spares sound).2 (literal "d") (literal "pc")
    (literal "a.txt") 1 0 .Rename (new Blake3.vendored) [.writeChunk 0 [2]] s there (.inl rfl)
    (.inl rfl) run
  exact ⟨kept _ _ (by decide), added [] (by decide +kernel) _⟩

end FileWriter

end FastTransfer
