/- FastTransfer/Core/Confinement
   source: src/filesystem/FileWriter.cpp, src/core/TransferSession.cpp, src/network/Protocol.cpp
   digest: Which received paths stay inside the session folder. -/

import FastTransfer.Core.TransferSession
import FastTransfer.Filesystem.SessionPath
import FastTransfer.Network.PathSafety
import FastTransfer.Qt.CompactJson

set_option autoImplicit false
set_option relaxedAutoImplicit false

namespace FastTransfer

open QString (literal)
open PlatformFilesystem

variable {B : Blake3}

namespace FileWriter

@[irreducible] def targetDir (baseOutputDir senderDevice : QString) : QString :=
  dirName (filePath baseOutputDir (sanitizeDeviceName senderDevice))

structure Confined (writer : FileWriter B) (folder : QString) : Prop where
  target : writer.targetFilePath ≠ [] → Inside folder writer.targetFilePath
  staging : writer.partialFilePath ≠ [] → Inside folder writer.partialFilePath

theorem applyPolicy_target (d : Disk) (target : QString) (policy : DuplicatePolicy) :
    (applyPolicy d target policy).1 = none ∨ (applyPolicy d target policy).1 = some target ∨
      (applyPolicy d target policy).1 = some (resolveUniqueName d target) := by
  unfold applyPolicy
  split
  · cases policy with
    | Ask => exact .inr (.inr rfl)
    | Replace => exact .inr (.inl rfl)
    | Skip => exact .inl rfl
    | Rename => exact .inr (.inr rfl)
  · exact .inr (.inl rfl)

private theorem openFresh_paths (self : FileWriter B) (d : Disk) (size : UInt64) :
    (openFresh self d size).2.1.targetFilePath = self.targetFilePath ∧
      (openFresh self d size).2.1.partialFilePath = self.partialFilePath := by
  unfold openFresh
  dsimp only
  split <;> exact ⟨rfl, rfl⟩

/-- The paths that `open` computes: none without space, no staging path for a refused file. -/
theorem open_paths (d : Disk) (baseOutputDir senderDevice relativePath : QString) (size : UInt64)
    (policy : DuplicatePolicy) :
    let writer := ((new B).open d baseOutputDir senderDevice relativePath size 0 policy).2.1
    let room := checkSpace d baseOutputDir size
    let target := targetPath baseOutputDir senderDevice relativePath
    (room.1 = false ∧ writer.targetFilePath = [] ∧ writer.partialFilePath = []) ∨
      (room.1 = true ∧ ∃ path, (path = target ∨ path = resolveUniqueName room.2 target) ∧
        writer.targetFilePath = path ∧
        (writer.partialFilePath = [] ∨ writer.partialFilePath = path ++ partialSuffix)) := by
  intro writer room target
  cases space : room.1 with
  | false =>
      refine .inl ⟨rfl, ?_⟩
      simp only [writer, «open», room] at space ⊢
      rw [space]
      exact ⟨rfl, rfl⟩
  | true =>
      have pair : applyPolicy room.2 target policy =
          ((applyPolicy room.2 target policy).1, (applyPolicy room.2 target policy).2) := rfl
      -- what follows the policy keeps the path it chose
      have chosen : ∀ path, (applyPolicy room.2 target policy).1 = some path →
          writer.targetFilePath = path ∧
            (writer.partialFilePath = [] ∨ writer.partialFilePath = path ++ partialSuffix) := by
        intro path eq
        rw [eq] at pair
        simp only [writer, «open», room, target] at space pair ⊢
        rw [space, pair]
        obtain ⟨aim, staging⟩ := openFresh_paths ((new B).aimed path size) _ size
        exact ⟨aim, .inr staging⟩
      rcases applyPolicy_target room.2 target policy with none | same | unique
      · refine .inr ⟨rfl, target, .inl rfl, ?_⟩
        rw [none] at pair
        simp only [writer, «open», room, target] at space pair ⊢
        rw [space, pair]
        exact ⟨rfl, .inl rfl⟩
      · exact .inr ⟨rfl, target, .inl rfl, chosen target same⟩
      · exact .inr ⟨rfl, _, .inr rfl, chosen _ unique⟩

end FileWriter

theorem inside_descends {folder : QString} (h : Folder folder) {path : QString}
    (descends : Descends path) (relative : path.head? ≠ some QString.slash) :
    Inside folder (filePath folder path) := by
  have nonempty : path ≠ [] := by
    rintro rfl
    obtain ⟨segments, more, each, eq⟩ := descends
    have parts := @QString.splitSkipEmpty_join QString.slash _ fun seg mem =>
      ⟨(each seg mem).nonempty, (each seg mem).flat⟩
    rw [← eq] at parts
    exact more parts.symm
  rw [h.filePath nonempty relative]
  exact inside_append_iff.mpr descends

namespace TransferSession

def sessionFolder (self : TransferSession B) : QString :=
  FileWriter.targetDir self.baseOutputDir self.subFolder

theorem sessionFolder_folder (s : TransferSession B) : Folder s.sessionFolder := by
  rw [sessionFolder, FileWriter.targetDir]
  exact folder_filePath s.baseOutputDir (sanitizeDeviceName_visible s.subFolder)

theorem targetPath_eq (s : TransferSession B) (relativePath : QString) :
    FileWriter.targetPath s.baseOutputDir s.subFolder relativePath =
      filePath s.sessionFolder (sanitizePath relativePath) := by
  rw [FileWriter.targetPath, sessionFolder, FileWriter.targetDir, filePath_dirName]

theorem targetPath_inside (s : TransferSession B) {relativePath : QString}
    (descends : Descends (sanitizePath relativePath)) :
    Inside s.sessionFolder
      (FileWriter.targetPath s.baseOutputDir s.subFolder relativePath) := by
  rw [targetPath_eq]
  exact inside_descends s.sessionFolder_folder descends (sanitizePath_relative relativePath)

theorem targetPath_vanished (s : TransferSession B) {relativePath : QString}
    (vanished : sanitizePath relativePath = []) :
    FileWriter.targetPath s.baseOutputDir s.subFolder relativePath = s.sessionFolder := by
  rw [targetPath_eq, vanished, filePath_nil]
  exact s.sessionFolder_folder.dirName

/-- Neither a path that is not inside a folder nor a free name for it is, if the folder Qt takes
the path to be in is no deeper than that folder. -/
private theorem outside_shallow {folder path chosen : QString} (nonempty : path ≠ [])
    (outside : ¬ Inside folder path) (shallow : FileWriter.infoFolder path <+: folder) (d : Disk)
    (cases : chosen = path ∨ chosen = FileWriter.resolveUniqueName d path) :
    chosen ≠ [] ∧ ¬ Inside folder chosen := by
  rcases cases with rfl | rfl
  · exact ⟨nonempty, outside⟩
  · rcases resolveUniqueName_cases d path with ⟨same, -⟩ | ⟨k, other⟩
    · rw [same]
      exact ⟨nonempty, outside⟩
    · rw [other]
      exact ⟨FileWriter.candidate_ne_nil path k,
        not_inside_candidate (shallow.sublist.count_le _) k⟩

private theorem outside_dots {folder dots chosen : QString} {rest : List QString}
    (mem : dots ∈ [[QString.dot], [QString.dot, QString.dot]])
    (each : ∀ seg ∈ rest, FileName seg) (d : Disk)
    (cases : chosen = folder ++ QString.slash :: QString.join QString.slash (dots :: rest) ∨
      chosen = FileWriter.resolveUniqueName d
        (folder ++ QString.slash :: QString.join QString.slash (dots :: rest))) :
    chosen ≠ [] ∧ ¬ Inside folder chosen := by
  have filled : ∀ path : QString, folder ++ QString.slash :: path ≠ [] := fun path =>
    List.append_ne_nil_of_right_ne_nil folder (List.cons_ne_nil _ _)
  by_cases more : rest = []
  · subst more
    rw [QString.join, List.intercalate_singleton] at cases
    refine outside_shallow (filled dots) ?_ (FileWriter.infoFolder_dots mem) d cases
    rw [inside_append_iff]
    have proper := not_descends_dots mem each
    rwa [QString.join, List.intercalate_singleton] at proper
  · have split : folder ++ QString.slash :: QString.join QString.slash (dots :: rest) =
        below (folder ++ QString.slash :: dots) rest := by
      rw [← below_join _ more, QString.join_cons more, List.append_assoc, List.cons_append]
    have within : Inside (folder ++ QString.slash :: dots)
        (below (folder ++ QString.slash :: dots) rest) := ⟨rest, more, each, rfl⟩
    have inside : Inside (folder ++ QString.slash :: dots) chosen := by
      rw [split] at cases
      rcases cases with rfl | rfl
      · exact within
      · exact within.resolveUniqueName d
    exact ⟨inside.nonempty (filled dots), not_inside_dots mem inside⟩

/-- What the documentation promises of a file: its target and its staging path are inside a folder
that is in the output folder, as the names that make them up are joined to it. -/
structure StrictlyInside (s : TransferSession B) (start : MsgFileStart) : Prop where
  joined : (s.openWriter start).2.1.targetFilePath ≠ [] →
    Relative (sanitizeDeviceName s.sessionSubfolder) ∧ Relative (sanitizePath start.relativePath)
  confined : (s.openWriter start).2.1.Confined
    (dirName (filePath s.baseOutputDir (sanitizeDeviceName s.sessionSubfolder)))

/-- A path that vanishes, or that has dots smuggled into it, is outside with its free names. -/
private theorem outside_of_not_descends (s : TransferSession B) {raw chosen : QString}
    (astray : sanitizePath (sanitizePath raw) = [] ∨ Smuggles raw) (d : Disk)
    (cases : chosen = FileWriter.targetPath s.baseOutputDir s.subFolder (sanitizePath raw) ∨
      chosen = FileWriter.resolveUniqueName d
        (FileWriter.targetPath s.baseOutputDir s.subFolder (sanitizePath raw))) :
    chosen ≠ [] ∧ ¬ Inside s.sessionFolder chosen := by
  have proper := s.sessionFolder_folder
  rcases astray with vanished | smuggles
  · rw [s.targetPath_vanished vanished] at cases
    exact outside_shallow proper.nonempty (not_inside_self _)
      (FileWriter.infoFolder_front _) d cases
  · obtain ⟨dots, mem, rest, each, eq⟩ := sanitizePath_smuggled smuggles
    have relative := sanitizePath_relative (sanitizePath raw)
    have filled : sanitizePath (sanitizePath raw) ≠ [] := by
      intro empty
      rw [eq] at empty
      have front : dots <+: QString.join QString.slash (dots :: rest) := QString.join_front
      rw [empty, List.prefix_nil] at front
      exact (dots_component mem).1 front
    rw [s.targetPath_eq, proper.filePath filled relative, eq] at cases
    exact outside_dots mem each d cases

private theorem strictlyInside_joined (s : TransferSession B) (named : s.sessionSubfolder ≠ [])
    (start : MsgFileStart) :
    s.StrictlyInside start ↔
      ((s.openWriter start).2.1.targetFilePath ≠ [] →
        Relative (sanitizeDeviceName s.sessionSubfolder) ∧
          Relative (sanitizePath start.relativePath)) ∧
        (s.openWriter start).2.1.Confined s.sessionFolder := by
  have folder : dirName (filePath s.baseOutputDir (sanitizeDeviceName s.sessionSubfolder)) =
      s.sessionFolder := by
    rw [sessionFolder, FileWriter.targetDir, subFolder, if_neg named]
  rw [← folder]
  exact ⟨fun h => ⟨h.joined, h.confined⟩, fun h => ⟨h.1, h.2⟩⟩

private theorem confined_of_inside {folder target chosen : QString} {d : Disk}
    {writer : FileWriter B} (within : Inside folder target)
    (cases : chosen = target ∨ chosen = FileWriter.resolveUniqueName d target)
    (aim : writer.targetFilePath = chosen)
    (staging : writer.partialFilePath = [] ∨
      writer.partialFilePath = chosen ++ FileWriter.partialSuffix) : writer.Confined folder := by
  have inside : Inside folder chosen := by
    rcases cases with rfl | rfl
    · exact within
    · exact within.resolveUniqueName d
  constructor
  · intro _
    rw [aim]
    exact inside
  · intro filled
    rw [staging.resolve_left filled]
    exact inside.staging

/-- Target and staging path are strictly inside the session folder exactly if both names are
relative and the path neither vanishes as it is sanitised for the second time, which the writer
does, nor has dots smuggled into it; without space no path is computed. -/
theorem strictlyInside_iff (s : TransferSession B) (named : s.sessionSubfolder ≠ [])
    {payload : QByteArray} {start : MsgFileStart}
    (parsed : Protocol.parseFileStart payload = some start) :
    ∃ raw, Protocol.readFileStartPath payload = some raw ∧
      (s.StrictlyInside start ↔
        (FileWriter.checkSpace s.disk s.baseOutputDir start.fileSize).1 = false ∨
          Relative (sanitizeDeviceName s.sessionSubfolder) ∧
            Relative (sanitizePath (sanitizePath raw)) ∧
            sanitizePath (sanitizePath raw) ≠ [] ∧ ¬ Smuggles raw) := by
  obtain ⟨raw, read, path⟩ := Protocol.parseFileStart_path parsed
  refine ⟨raw, read, ?_⟩
  rw [strictlyInside_joined s named, path]
  have nonempty := FileWriter.targetPath_ne_nil s.baseOutputDir s.subFolder (sanitizePath raw)
  have outcome := FileWriter.open_paths (B := B) s.disk s.baseOutputDir s.subFolder
    start.relativePath start.fileSize s.duplicatePolicy
  rw [path] at outcome
  rcases outcome with ⟨full, aim, staging⟩ | ⟨room, chosen, cases, aim, staging⟩
  · -- nothing is opened, and no path is set
    refine iff_of_true ⟨fun filled => ?_, ⟨fun filled => ?_, fun filled => ?_⟩⟩ (.inl full)
    · rw [openWriter, path] at filled
      exact absurd aim filled
    · rw [openWriter, path] at filled
      exact absurd aim filled
    · rw [openWriter, path] at filled
      exact absurd staging filled
  have target : (s.openWriter start).2.1.targetFilePath = chosen := by
    rw [openWriter, path]
    exact aim
  rw [room, or_iff_right (by decide)]
  constructor
  · rintro ⟨joined, confined⟩
    have straight : ¬ (sanitizePath (sanitizePath raw) = [] ∨ Smuggles raw) := by
      intro astray
      obtain ⟨filled, outside⟩ := s.outside_of_not_descends astray _ cases
      rw [← target] at filled outside
      exact outside (confined.target filled)
    have filled : (s.openWriter start).2.1.targetFilePath ≠ [] := by
      rw [target]
      rcases cases with rfl | rfl
      · exact nonempty
      · exact resolveUniqueName_ne_nil _ nonempty
    obtain ⟨device, name⟩ := joined filled
    obtain ⟨more, plain⟩ := not_or.mp straight
    exact ⟨device, name, more, plain⟩
  · rintro ⟨device, name, more, plain⟩
    have within := s.targetPath_inside
      (((descends_sanitizePath_twice_iff raw).mpr plain).resolve_left more)
    refine ⟨fun _ => ⟨device, name⟩, confined_of_inside within cases target ?_⟩
    rw [openWriter, path]
    exact staging

def receiving (policy : DuplicatePolicy) : TransferSession Blake3.vendored :=
  acceptTransfer CompactJson.codec
    (onTransferOffer (fromConnection Blake3.vendored [] .blank) (Protocol.serializeTransferOffer
      { senderDevice := literal "pc" }))
    (literal "downloads") policy (literal "now")

/-- A plain file. -/
theorem strictlyInside_plain :
    let s := receiving .Rename
    let start : MsgFileStart := { relativePath := literal "a/b.txt", fileSize := 1 }
    s.StrictlyInside start := by
  intro s start
  have parsed : Protocol.parseFileStart (Protocol.serializeFileStart start) = some start := by
    decide +kernel
  obtain ⟨raw, read, given⟩ := strictlyInside_iff s (by decide +kernel) parsed
  have path : Protocol.readFileStartPath (Protocol.serializeFileStart start) =
      some (literal "a/b.txt") := by
    decide +kernel
  cases path.symm.trans read
  exact given.mpr (.inr (by decide +kernel))

/-- A path that the parser turns into two dots makes the session folder itself the target, and
its sibling the staging file. -/
theorem unconfined_accepted :
    let s := receiving .Rename
    ∃ start, Protocol.parseFileStart (Protocol.serializeFileStart
        { relativePath := literal ".<." }) = some start ∧ s.sessionSubfolder ≠ [] ∧
      (s.openWriter start).2.1.targetFilePath = literal "downloads/pc_now" ∧
      (s.openWriter start).2.1.partialFilePath = literal "downloads/pc_now.partial" ∧
      ¬ s.StrictlyInside start := by
  intro s
  have parsed : Protocol.parseFileStart (Protocol.serializeFileStart
      { relativePath := literal ".<." }) = some { relativePath := literal ".." } := by
    decide +kernel
  have named : s.sessionSubfolder ≠ [] := by decide +kernel
  have target : (s.openWriter { relativePath := literal ".." }).2.1.targetFilePath =
      literal "downloads/pc_now" := by
    decide +kernel
  have folder : dirName (filePath s.baseOutputDir (sanitizeDeviceName s.sessionSubfolder)) =
      literal "downloads/pc_now" := by
    decide +kernel
  refine ⟨_, parsed, named, target, by decide +kernel, fun strict => ?_⟩
  have inside := strict.confined.target (by rw [target]; decide)
  rw [target, folder] at inside
  exact not_inside_self _ inside

end TransferSession

end FastTransfer
