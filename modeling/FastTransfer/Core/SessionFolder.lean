/- FastTransfer/Core/SessionFolder
   source: src/core/TransferSession.cpp, src/filesystem/FileWriter.cpp
   digest: The folder that an accepted transfer is given, and the folder that it writes to. -/

import FastTransfer.Core.Confinement
import FastTransfer.Filesystem.Staging
import FastTransfer.Library.LeastFree

set_option autoImplicit false
set_option relaxedAutoImplicit false

namespace FastTransfer

open QString (literal dash isSpace isValidUtf16 trimmed)
open PlatformFilesystem

/-- What the loop of `acceptTransfer` tries, one name after the other. -/
def folderName (baseName : QString) : Nat → QString
  | 0 => baseName
  | n + 1 => baseName ++ literal "_" ++ QString.number (n + 1)

theorem folderName_front (baseName : QString) (n : Nat) :
    ∃ tail, folderName baseName n = baseName ++ tail := by
  cases n with
  | zero => exact ⟨[], (List.append_nil _).symm⟩
  | succ n => exact ⟨_, List.append_assoc ..⟩

private theorem folderName_head {baseName : QString} (nonempty : baseName ≠ []) (n : Nat) :
    (folderName baseName n).head? = baseName.head? := by
  obtain ⟨tail, eq⟩ := folderName_front baseName n
  rw [eq, List.head?_append_of_ne_nil _ nonempty]

private theorem folderName_injective {baseName : QString} {m n : Nat}
    (same : folderName baseName m = folderName baseName n) : m = n := by
  cases m with
  | zero =>
      cases n with
      | zero => rfl
      | succ n =>
          have length := congrArg List.length same
          simp [folderName, literal] at length
  | succ m =>
      cases n with
      | zero =>
          have length := congrArg List.length same
          simp [folderName, literal] at length
      | succ n => exact QString.number_injective (List.append_cancel_left same)

theorem filePath_injective {dir first second : QString} (nonempty : first ≠ [])
    (nonempty' : second ≠ [])
    (absolute : first.head? = some QString.slash ↔ second.head? = some QString.slash)
    (same : filePath dir first = filePath dir second) : first = second := by
  simp only [filePath, if_neg nonempty, if_neg nonempty', absolute] at same
  split at same
  · exact same
  split at same
  · exact same
  · exact (List.cons.inj (List.append_cancel_left same)).2

namespace TransferSession

private theorem uniqueFolder_search (d : Disk) (dir baseName : QString) (fuel n : Nat) :
    uniqueFolder d dir baseName fuel (n + 1) (folderName baseName n) =
      folderName baseName
        (LeastFree.search (fun k => d.exists (filePath dir (folderName baseName k))) fuel n) := by
  induction fuel generalizing n with
  | zero => rfl
  | succ fuel ih =>
      rw [uniqueFolder, LeastFree.search]
      split
      · exact ih (n + 1)
      · rfl

theorem uniqueFolder_least (d : Disk) (dir : QString) {baseName : QString}
    (nonempty : baseName ≠ []) :
    ∃ n, uniqueFolder d dir baseName (d.nodes.entries.length + 1) 1 baseName =
        folderName baseName n ∧
      d.exists (filePath dir (folderName baseName n)) = false ∧
      ∀ m < n, d.exists (filePath dir (folderName baseName m)) = true := by
  have filled : ∀ n, folderName baseName n ≠ [] := by
    intro n
    obtain ⟨tail, eq⟩ := folderName_front baseName n
    rw [eq]
    exact List.append_ne_nil_of_left_ne_nil nonempty tail
  have apart : ∀ m n, filePath dir (folderName baseName m) = filePath dir (folderName baseName n) →
      m = n := by
    intro m n same
    refine folderName_injective (filePath_injective (filled m) (filled n) ?_ same)
    rw [folderName_head nonempty, folderName_head nonempty]
  have key : ∀ n, d.exists (filePath dir (folderName baseName n)) = true →
      filePath dir (folderName baseName n) ∈ d.nodes.keys := by
    intro n there
    exact AList.mem_keys.mp (AList.lookup_isSome.mp there)
  have enough : d.nodes.keys.length ≤ d.nodes.entries.length + 1 := by
    have : d.nodes.keys.length = d.nodes.entries.length := List.length_map _
    omega
  obtain ⟨free, -, least⟩ := LeastFree.search_least
    (fun k => filePath dir (folderName baseName k)) 0 apart key enough
  refine ⟨_, uniqueFolder_search d dir baseName _ 0, free, ?_⟩
  intro m before
  exact least m (Nat.zero_le m) before

end TransferSession

section Names

def isDigit (c : UInt16) : Bool := 0x30 ≤ c.toNat && c.toNat ≤ 0x39

/-- A time as `acceptTransfer` formats it: digits, dashes and underscores, and a digit at the
end. -/
structure Timestamp (s : QString) : Prop where
  characters : ∀ c ∈ s, isDigit c = true ∨ c = dash ∨ c = 0x5F
  ends : ∃ c, s.getLast? = some c ∧ isDigit c = true

private theorem digit_proper {c : UInt16} (digit : isDigit c = true) :
    isReplaced c = false ∧ c ≠ dash ∧ isSpace c = false ∧ isPlain c ∧ c ≠ QString.slash := by
  have each : ∀ n < 0x3A, 0x30 ≤ n →
      isReplaced (UInt16.ofNat n) = false ∧ UInt16.ofNat n ≠ dash ∧
        isSpace (UInt16.ofNat n) = false ∧
        (QString.isHighSurrogate (UInt16.ofNat n) = false ∧
          QString.isLowSurrogate (UInt16.ofNat n) = false) ∧ UInt16.ofNat n ≠ QString.slash := by
    decide
  simp only [isDigit, Bool.and_eq_true, decide_eq_true_eq] at digit
  have proper := each c.toNat (by omega) digit.1
  rwa [UInt16.ofNat_toNat] at proper

private theorem folderName_tail {timestamp : QString} (time : Timestamp timestamp) (name : QString)
    (n : Nat) :
    ∃ tail, folderName (name ++ literal "_" ++ timestamp) n = name ++ tail ∧
      (∀ c ∈ tail, isReplaced c = false ∧ isPlain c) ∧
      ∃ c, tail.getLast? = some c ∧ isDigit c = true := by
  have legal : ∀ c, isDigit c = true ∨ c = dash ∨ c = 0x5F → isReplaced c = false ∧ isPlain c := by
    rintro c (digit | rfl | rfl)
    · have proper := digit_proper digit
      exact ⟨proper.1, proper.2.2.2.1⟩
    · exact ⟨by decide, by decide, by decide⟩
    · exact ⟨by decide, by decide, by decide⟩
  have underscore : literal "_" = [0x5F] := by decide
  obtain ⟨final, last, digit⟩ := time.ends
  have stamped : ∀ c ∈ literal "_" ++ timestamp, isReplaced c = false ∧ isPlain c := by
    intro c mem
    rcases List.mem_append.mp mem with line | inside
    · rw [underscore] at line
      exact legal c (.inr (.inr (List.mem_singleton.mp line)))
    · exact legal c (time.characters c inside)
  have nonempty : timestamp ≠ [] := by
    rintro rfl
    cases last
  cases n with
  | zero =>
      refine ⟨literal "_" ++ timestamp, List.append_assoc .., stamped, final, ?_, digit⟩
      rw [List.getLast?_append_of_ne_nil _ nonempty, last]
  | succ n =>
      have digits : ∀ c ∈ QString.number (n + 1), isDigit c = true := by
        intro c mem
        simpa [isDigit] using QString.number_digit mem
      have some : QString.number (n + 1) ≠ [] := by
        simp [QString.number]
      refine ⟨literal "_" ++ timestamp ++ (literal "_" ++ QString.number (n + 1)), ?_, ?_, ?_⟩
      · simp only [folderName, List.append_assoc]
      · intro c mem
        rcases List.mem_append.mp mem with front | back
        · exact stamped c front
        rcases List.mem_append.mp back with line | inside
        · rw [underscore] at line
          exact legal c (.inr (.inr (List.mem_singleton.mp line)))
        · exact legal c (.inl (digits c inside))
      · refine ⟨(QString.number (n + 1)).getLast some, ?_, digits _ (List.getLast_mem some)⟩
        rw [List.getLast?_append_of_ne_nil _ (List.append_ne_nil_of_right_ne_nil _ some),
          List.getLast?_append_of_ne_nil _ some, List.getLast?_eq_getLast_of_ne_nil some]

/-- A folder name of a sanitised device name is sanitised to itself exactly if the stem of the
device's name does not start with a blank. -/
theorem folderName_stable_iff {timestamp : QString} (time : Timestamp timestamp)
    (rawName : QString) (n : Nat) :
    let folder := folderName (sanitizeDeviceName rawName ++ literal "_" ++ timestamp) n
    Folder folder ∧ (sanitizeDeviceName folder = folder ↔
      ∀ c, (stem rawName).head? = some c → isSpace c = false) := by
  intro folder
  obtain ⟨nonempty, undashed, -⟩ := sanitizeDeviceName_legal rawName
  obtain ⟨tail, whole, plain, final, last, digit⟩ :=
    folderName_tail time (sanitizeDeviceName rawName) n
  obtain ⟨-, notDash, visible, -, notSlash⟩ := digit_proper digit
  change folder = _ at whole
  have head : folder.head? = (sanitizeDeviceName rawName).head? := by
    rw [whole, List.head?_append_of_ne_nil _ nonempty]
  have ends : folder.getLast? = some final := by
    have more : tail ≠ [] := by
      rintro rfl
      cases last
    rw [whole, List.getLast?_append_of_ne_nil _ more, last]
  have some : folder ≠ [] := by
    rw [whole]
    exact List.append_ne_nil_of_left_ne_nil nonempty _
  -- nothing is replaced: in valid UTF-16 the name is legal, and in the rest nothing ever is
  have kept : isValidUtf16 folder = true → ∀ c ∈ folder, isReplaced c = false := by
    intro proper c mem
    rw [whole] at mem proper
    rcases List.mem_append.mp mem with front | back
    · cases valid : isValidUtf16 (trimmed rawName) with
      | true => exact sanitizeDeviceName_valid valid front
      | false =>
          rw [sanitizeDeviceName_invalid valid,
            stem_invalid valid fun c mem => (plain c mem).2] at proper
          cases proper
    · exact (plain c back).1
  refine ⟨⟨some, ?_⟩, ?_, ?_⟩
  · rw [ends]
    exact fun same => notSlash (Option.some.inj same)
  · intro stable c starts
    by_contra blank
    have stemmed : stem rawName ≠ [] := by
      intro empty
      rw [empty] at starts
      cases starts
    rw [← (sanitizeDeviceName_ends stemmed).1, ← head] at starts
    exact sanitizeDeviceName_ne_self starts (Bool.of_not_eq_false blank) stable
  · intro starts
    apply sanitizeDeviceName_self some kept ⟨?_, ?_⟩
    · intro c front
      rw [head] at front
      by_cases empty : stem rawName = []
      · rw [sanitizeDeviceName_eq, if_pos empty] at front
        cases front
        decide
      · rw [(sanitizeDeviceName_ends empty).1] at front
        exact starts c front
    · intro c back
      cases ends.symm.trans back
      exact visible
    · rw [head]
      exact undashed.first
    · rw [ends]
      exact fun same => notDash (Option.some.inj same)

end Names

namespace TransferSession

variable {B : Blake3}

/-- The session's folder has a name that the writer keeps, and was not there. -/
structure FreshFolder (t : TransferSession B) : Prop where
  chosen : t.sessionSubfolder ≠ []
  stable : sanitizeDeviceName t.sessionSubfolder = t.sessionSubfolder
  absent : t.disk.exists t.sessionFolder = false

theorem acceptTransfer_fields (J : QJson) (s : TransferSession B) (baseOutputDir : QString)
    (policy : DuplicatePolicy) (timestamp : QString) :
    let t := s.acceptTransfer J baseOutputDir policy timestamp
    t.sessionSubfolder = s.chooseSubfolder baseOutputDir timestamp ∧
      t.baseOutputDir = baseOutputDir ∧ t.disk = s.disk := by
  dsimp only [acceptTransfer]
  split
  · exact ⟨rfl, rfl, rfl⟩
  · exact ⟨rfl, rfl, rfl⟩

/-- An accepted transfer gets the least name that is free, and where sanitising keeps the name it
is that of the session folder. -/
theorem acceptTransfer_folder (J : QJson) {s : TransferSession B}
    (unnamed : s.sessionSubfolder = []) (baseOutputDir : QString) (policy : DuplicatePolicy)
    {timestamp : QString} (time : Timestamp timestamp) :
    let t := s.acceptTransfer J baseOutputDir policy timestamp
    let name := folderName (sanitizeDeviceName s.remoteDevice ++ literal "_" ++ timestamp)
    ∃ n, t.sessionSubfolder = name n ∧
      s.disk.exists (filePath baseOutputDir (name n)) = false ∧
      (∀ m < n, s.disk.exists (filePath baseOutputDir (name m)) = true) ∧
      name n ≠ [] ∧
      (sanitizeDeviceName (name n) = name n ↔
        ∀ c, (stem s.remoteDevice).head? = some c → isSpace c = false) ∧
      (sanitizeDeviceName (name n) = name n →
        t.sessionFolder = filePath baseOutputDir (name n)) := by
  intro t name
  obtain ⟨chosen, base, disk⟩ := acceptTransfer_fields J s baseOutputDir policy timestamp
  obtain ⟨nonempty, -, -⟩ := sanitizeDeviceName_legal s.remoteDevice
  have filled : sanitizeDeviceName s.remoteDevice ++ literal "_" ++ timestamp ≠ [] := by
    rw [List.append_assoc]
    exact List.append_ne_nil_of_left_ne_nil nonempty _
  obtain ⟨n, eq, free, least⟩ := uniqueFolder_least s.disk baseOutputDir filled
  have sub : t.sessionSubfolder = name n := by
    refine (chosen.trans ?_).trans eq
    simp only [chooseSubfolder, unnamed, ne_eq, not_true_eq_false, if_false, if_neg nonempty]
  obtain ⟨whole, stable⟩ := folderName_stable_iff time s.remoteDevice n
  change Folder (name n) at whole
  have some : t.sessionSubfolder ≠ [] := sub ▸ whole.nonempty
  refine ⟨n, sub, free, least, whole.nonempty, stable, fun same => ?_⟩
  rw [sessionFolder, FileWriter.targetDir, subFolder, if_neg some,
    show t.baseOutputDir = _ from base, sub, same, (folder_below baseOutputDir whole).dirName]

/-- An accepted transfer always gets the least name that is free, but its files go to a fresh
folder exactly if the stem of the sender's name does not start with a blank. -/
theorem freshFolder_iff (J : QJson) {s : TransferSession B} (unnamed : s.sessionSubfolder = [])
    (baseOutputDir : QString) (policy : DuplicatePolicy) {timestamp : QString}
    (time : Timestamp timestamp) :
    let t := s.acceptTransfer J baseOutputDir policy timestamp
    let name := folderName (sanitizeDeviceName s.remoteDevice ++ literal "_" ++ timestamp)
    (∃ n, t.sessionSubfolder = name n ∧
      t.disk.exists (filePath baseOutputDir (name n)) = false ∧
      ∀ m < n, t.disk.exists (filePath baseOutputDir (name m)) = true) ∧
    (FreshFolder t ↔ ∀ c, (stem s.remoteDevice).head? = some c → isSpace c = false) := by
  intro t name
  obtain ⟨-, -, disk⟩ := acceptTransfer_fields J s baseOutputDir policy timestamp
  obtain ⟨n, sub, free, least, some, stable, folder⟩ :=
    acceptTransfer_folder J unnamed baseOutputDir policy time
  rw [← stable, show t.disk = s.disk from disk]
  refine ⟨⟨n, sub, free, least⟩, fun fresh => sub ▸ fresh.stable, fun same => ?_⟩
  refine ⟨sub ▸ some, sub ▸ same, ?_⟩
  rw [folder same, show t.disk = s.disk from disk]
  exact free

def offered (device : QString) (disk : Disk) : TransferSession Blake3.vendored :=
  onTransferOffer (fromConnection Blake3.vendored [] disk)
    (Protocol.serializeTransferOffer { senderDevice := device })

def noon : QString := literal "2024-01-31_12-00-00"

theorem timestamp_noon : Timestamp noon := by
  have characters : noon.all (fun c => isDigit c || c == dash || c == 0x5F) = true := by decide
  refine ⟨?_, 0x30, by decide, by decide⟩
  intro c mem
  simpa [or_assoc] using List.all_eq_true.mp characters c mem

/-- A plain name. -/
theorem freshFolder_plain :
    FreshFolder ((offered (literal "pc") .blank).acceptTransfer CompactJson.codec
      (literal "downloads") .Rename noon) := by
  have front : (stem (offered (literal "pc") .blank).remoteDevice).head? = some 0x70 := by
    decide +kernel
  apply (freshFolder_iff CompactJson.codec (s := offered (literal "pc") .blank) (by decide +kernel)
    (literal "downloads") .Rename timestamp_noon).2.mpr
  intro c head
  cases front.symm.trans head
  decide

/-- A no-break space behind a dash is not trimmed at first. The folder checked starts with it; the
folder written to does not, and exists. -/
theorem stale_folder :
    let d := Disk.blank.put (literal "downloads/x_2024-01-31_12-00-00") .dir
    let s := offered (0x2D :: 0xA0 :: literal "x") d
    let t := s.acceptTransfer CompactJson.codec (literal "downloads") .Rename noon
    s.sessionSubfolder = [] ∧ t.sessionSubfolder = 0xA0 :: literal "x_2024-01-31_12-00-00" ∧
      t.sessionFolder = literal "downloads/x_2024-01-31_12-00-00" ∧
      t.disk.exists t.sessionFolder = true ∧ ¬ FreshFolder t := by
  intro d s t
  have there : t.disk.exists t.sessionFolder = true := by decide +kernel
  refine ⟨by decide +kernel, by decide +kernel, by decide +kernel, there, ?_⟩
  intro fresh
  rw [fresh.absent] at there
  cases there

end TransferSession

end FastTransfer
