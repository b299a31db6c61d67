/- FastTransfer/Filesystem/Disk
   source: the QFile, QDir and QFileInfo operations the sources call, and
     PlatformFilesystem::preallocateFile, getAvailableDiskSpace
   digest: One host's file system, which operations it refuses, and a journal of what was done. -/

import FastTransfer.Library.Overlay
import FastTransfer.Qt.QString
import Mathlib.Algebra.Group.Nat.Defs
import Mathlib.Data.List.AList

set_option autoImplicit false
set_option relaxedAutoImplicit false

namespace FastTransfer

inductive Node
  | file (content : QByteArray)
  | dir
  deriving DecidableEq

inductive DiskOp
  | openReadOnly (path : QString)
  | read (path : QString)
  | reserve (path : QString) (size : UInt64)
  | mkpath (path : QString)
  | openReadWrite (path : QString)
  | preallocate (path : QString) (size : UInt64)
  | seek (path : QString) (pos : Nat)
  | write (path : QString) (pos length : Nat)
  | remove (path : QString)
  | rename (source target : QString)
  deriving DecidableEq

/-- `mkpath`, creation, truncation, writing, removal and renaming change files or folders. -/
def DiskOp.mutates : DiskOp → Bool
  | mkpath _ | openReadWrite _ | preallocate _ _ | write _ _ _ | remove _ | rename _ _ => true
  | _ => false

/-- A finite file system. `refused` and `errorString` are the operating system's answers,
`preallocates` says where preallocation moves the end of the file (`posix_fallocate`) and where it
is a mere hint or fails, and `journal` lists the operations on destination files with their
outcomes. Two paths name the same file only if they are equal; the segments `.` and `..` are not
resolved, nor is a path that has them made sense of where a folder on its way is missing. -/
structure Disk where
  nodes : AList fun _ : QString => Node
  refused : DiskOp → Bool
  errorString : DiskOp → QString
  preallocates : QString → Bool
  availableDiskSpace : QString → UInt64
  journal : List (DiskOp × Bool)

/-- The part of a path before its last slash. -/
def dirPart (path : QString) : QString :=
  ((path.reverse.dropWhile (· ≠ QString.slash)).drop 1).reverse

/-- The part of a path up to its last slash, with the slash. -/
def folderPart (path : QString) : QString := (path.reverse.dropWhile (· ≠ QString.slash)).reverse

/-- The part of a path behind its last slash. -/
def namePart (path : QString) : QString := (path.reverse.takeWhile (· ≠ QString.slash)).reverse

/-- The path of `QDir(dir)`, without slashes at its end. -/
def dirName (dir : QString) : QString :=
  if QString.stripTrailing QString.slash dir = [] then dir.take 1
  else QString.stripTrailing QString.slash dir

/-- `QDir(dir).filePath(name)`: a name that starts with a slash is the path. The empty folder is the
working directory. Names are meant that Qt joins; see `Relative`. -/
def filePath (dir name : QString) : QString :=
  if name.head? = some QString.slash then name
  else if name = [] then dirName dir
  else if dir = [] then name
  else QString.stripTrailing QString.slash dir ++ QString.slash :: name

/-- A name that Qt joins to a folder: it is not absolute, and names no resource of the program, as
a colon in front would make it do. -/
def Relative (name : QString) : Prop :=
  name.head? ≠ some QString.slash ∧ name.head? ≠ some QString.colon

instance (name : QString) : Decidable (Relative name) :=
  inferInstanceAs (Decidable (_ ∧ _))

/-- The folders above and including a path, outermost first. -/
def ancestors (path : QString) : List QString :=
  path.inits.filter fun q => q ≠ [] ∧ (q = path ∨ (path.drop q.length).head? = some QString.slash)

namespace Disk

def node (d : Disk) (path : QString) : Option Node := d.nodes.lookup path

/-- `QFile::exists`, which is true of folders too. -/
def «exists» (d : Disk) (path : QString) : Bool := (d.node path).isSome

def content (d : Disk) (path : QString) : QByteArray :=
  match d.node path with
  | some (.file content) => content
  | _ => []

def put (d : Disk) (path : QString) (n : Node) : Disk := { d with nodes := d.nodes.insert path n }

def erase (d : Disk) (path : QString) : Disk := { d with nodes := d.nodes.erase path }

def record (d : Disk) (op : DiskOp) (ok : Bool) : Disk :=
  { d with journal := d.journal ++ [(op, ok)] }

/-- Whether a file can be created at the path. -/
def parentExists (d : Disk) (path : QString) : Bool :=
  dirPart path = [] || d.node (dirPart path) = some .dir

/-- The disk-space check of `FileWriter::open`; zero available bytes mean unknown. -/
def reserve (d : Disk) (path : QString) (size : UInt64) : Bool × Disk :=
  let ok := !(0 < d.availableDiskSpace path && d.availableDiskSpace path < size)
  (ok, d.record (.reserve path size) ok)

def makeDir (d : Disk) (path : QString) : Disk :=
  if d.node path = none then d.put path .dir else d

def mkpath (d : Disk) (path : QString) : Disk :=
  let ok := !d.refused (.mkpath path) &&
    (ancestors path).all fun q => d.node q = none ∨ d.node q = some .dir
  let d := d.record (.mkpath path) ok
  if ok then (ancestors path).foldl makeDir d else d

/-- Whether the operation opens the path for writing, creating the file if needed. -/
def canOpen (d : Disk) (op : DiskOp) (path : QString) : Bool :=
  !d.refused op && path ≠ [] &&
    match d.node path with
    | some (.file _) => true
    | some .dir => false
    | none => d.parentExists path

/-- `QFile::open(QIODevice::ReadWrite)`: creates a missing file, truncates nothing. -/
def openReadWrite (d : Disk) (path : QString) : Bool × Disk :=
  let ok := d.canOpen (.openReadWrite path) path
  let d := d.record (.openReadWrite path) ok
  (ok, if ok ∧ d.node path = none then d.put path (.file []) else d)

/-- `PlatformFilesystem::preallocateFile`, whose result `FileWriter` ignores. -/
def preallocateFile (d : Disk) (path : QString) (size : UInt64) : Disk :=
  if size = 0 then d
  else
    let ok := d.canOpen (.preallocate path size) path
    let d := d.record (.preallocate path size) true
    if ok then
      d.put path (.file (if d.preallocates path then
        d.content path ++ List.replicate (size.toNat - (d.content path).length) 0
        else d.content path))
    else d

def remove (d : Disk) (path : QString) : Disk :=
  match d.node path with
  | some (.file _) =>
      let ok := !d.refused (.remove path)
      let d := d.record (.remove path) ok
      if ok then d.erase path else d
  | _ => d.record (.remove path) false

/-- `QFile::rename` of a file, which never overwrites. -/
def rename (d : Disk) (source target : QString) : Bool × Disk :=
  match d.node source, d.node target with
  | some (.file content), none =>
      let ok := !d.refused (.rename source target) && d.parentExists target && target ≠ []
      let d := d.record (.rename source target) ok
      (ok, if ok then (d.erase source).put target (.file content) else d)
  | _, _ => (false, d.record (.rename source target) false)

/-- `QFile::seek` with the offset cast to `qint64`. -/
def seek (d : Disk) (path : QString) (pos : Nat) : Bool × Disk :=
  let ok := !d.refused (.seek path pos) && pos < 2 ^ 63
  (ok, d.record (.seek path pos) ok)

/-- `QFile::write` of all the data or, if refused, of none. -/
def write (d : Disk) (path : QString) (pos : Nat) (data : QByteArray) : Bool × Disk :=
  let ok := !d.refused (.write path pos data.length)
  let d := d.record (.write path pos data.length) ok
  match d.node path with
  | some (.file content) =>
      (ok, if ok then d.put path (.file (Overlay.write 0 content pos data)) else d)
  | _ => (ok, d)

def openReadOnly (d : Disk) (path : QString) : Option QByteArray :=
  if d.refused (.openReadOnly path) then none
  else match d.node path with
    | some (.file content) => some content
    | _ => none

/-- `QFile::read`: nothing at the end of the file or if refused. -/
def read (d : Disk) (path : QString) (pos maxSize : Nat) : QByteArray :=
  if d.refused (.read path) then []
  else match d.node path with
    | some (.file content) => (content.drop pos).take maxSize
    | _ => []

/-- An empty disk of unknown free space that refuses nothing and preallocates. -/
def blank : Disk := ⟨∅, fun _ => false, fun _ => [], fun _ => true, fun _ => 0, []⟩

/-- Every operation on destination files so far succeeded. -/
def AllSucceeded (d : Disk) : Prop := ∀ entry ∈ d.journal, entry.2 = true

instance (d : Disk) : Decidable d.AllSucceeded :=
  inferInstanceAs (Decidable (∀ entry ∈ d.journal, entry.2 = true))

def effects (d : Disk) : List DiskOp := (d.journal.map Prod.fst).filter DiskOp.mutates

def leftover (d : Disk) (path : QString) : QByteArray :=
  if d.refused (.remove path) then d.content path else []

def prepared (d : Disk) (path : QString) (size : UInt64) : QByteArray :=
  if d.refused (.preallocate path size) || !d.preallocates path then d.leftover path
  else d.leftover path ++ List.replicate (size.toNat - (d.leftover path).length) 0

/-! What each operation does to the nodes. -/

@[simp] theorem node_record (d : Disk) (op : DiskOp) (ok : Bool) (q : QString) :
    (d.record op ok).node q = d.node q := rfl

@[simp] theorem node_put_self (d : Disk) (p : QString) (n : Node) :
    (d.put p n).node p = some n := AList.lookup_insert d.nodes

theorem node_put_ne (d : Disk) {p q : QString} (n : Node) (h : q ≠ p) :
    (d.put p n).node q = d.node q := AList.lookup_insert_ne h

@[simp] theorem node_erase_self (d : Disk) (p : QString) : (d.erase p).node p = none :=
  AList.lookup_erase p d.nodes

theorem node_erase_ne (d : Disk) {p q : QString} (h : q ≠ p) : (d.erase p).node q = d.node q :=
  AList.lookup_erase_ne h

private theorem node_makeDir (d : Disk) (p q : QString) :
    (d.makeDir p).node q = d.node q ∨
      (q = p ∧ d.node q = none ∧ (d.makeDir p).node q = some .dir) := by
  by_cases free : d.node p = none
  · by_cases same : q = p
    · subst same
      exact .inr ⟨rfl, free, by rw [makeDir, if_pos free, node_put_self]⟩
    · exact .inl (by rw [makeDir, if_pos free, node_put_ne d .dir same])
  · exact .inl (by rw [makeDir, if_neg free])

private theorem node_makeDirs (paths : List QString) (d : Disk) (q : QString) :
    (paths.foldl makeDir d).node q = d.node q ∨
      (q ∈ paths ∧ d.node q = none ∧ (paths.foldl makeDir d).node q = some .dir) := by
  induction paths generalizing d with
  | nil => exact .inl rfl
  | cons p paths ih =>
      rw [List.foldl_cons]
      rcases ih (d.makeDir p) with same | ⟨mem, free, made⟩
      · rcases node_makeDir d p q with kept | ⟨rfl, free, made⟩
        · exact .inl (same.trans kept)
        · exact .inr ⟨List.mem_cons_self, free, same.trans made⟩
      · refine .inr ⟨List.mem_cons_of_mem p mem, ?_, made⟩
        rcases node_makeDir d p q with kept | ⟨rfl, free', _⟩
        · exact kept ▸ free
        · exact free'

theorem node_mkpath (d : Disk) (p q : QString) :
    (d.mkpath p).node q = d.node q ∨
      (q ∈ ancestors p ∧ d.node q = none ∧ (d.mkpath p).node q = some .dir) := by
  simp only [mkpath]
  split
  · exact node_makeDirs (ancestors p) _ q
  · exact .inl rfl

theorem node_mkpath_some {d : Disk} {q : QString} {n : Node} (there : d.node q = some n)
    (p : QString) : (d.mkpath p).node q = some n := by
  rcases d.node_mkpath p q with same | ⟨-, free, -⟩
  · exact same.trans there
  · rw [there] at free
    cases free

theorem node_mkpath_present {d : Disk} {p : QString}
    (present : ∀ folder ∈ ancestors p, d.node folder ≠ none) (q : QString) :
    (d.mkpath p).node q = d.node q := by
  rcases d.node_mkpath p q with same | ⟨mem, free, -⟩
  · exact same
  · exact absurd free (present q mem)

theorem node_remove (d : Disk) (p : QString) :
    (d.remove p).node p =
      if d.refused (.remove p) = false ∧ d.node p ≠ some .dir then none else d.node p := by
  unfold remove
  cases found : d.node p with
  | none =>
      rw [node_record, found]
      split <;> rfl
  | some n =>
      cases n with
      | dir =>
          rw [node_record, found, if_neg]
          rintro ⟨-, file⟩
          exact file rfl
      | file content =>
          cases allowed : d.refused (.remove p) with
          | true =>
              rw [if_neg (by simp)]
              exact found
          | false =>
              rw [if_pos (by simp)]
              exact node_erase_self _ _

theorem node_remove_ne (d : Disk) {p q : QString} (h : q ≠ p) :
    (d.remove p).node q = d.node q := by
  simp only [remove]
  split
  · split
    · rw [node_erase_ne _ h, node_record]
    · rfl
  · rfl

theorem node_preallocateFile_ne (d : Disk) {p q : QString} (size : UInt64) (h : q ≠ p) :
    (d.preallocateFile p size).node q = d.node q := by
  simp only [preallocateFile]
  split
  · rfl
  · split
    · rw [node_put_ne _ _ h, node_record]
    · rfl

theorem node_openReadWrite {d : Disk} {p : QString} (h : (d.openReadWrite p).1 = true) :
    (d.openReadWrite p).2.node p = some (.file (d.content p)) := by
  have ok : d.canOpen (.openReadWrite p) p = true := h
  cases found : d.node p with
  | none => simp [openReadWrite, ok, found, content]
  | some n =>
      cases n with
      | dir => simp [canOpen, found] at ok
      | file content => simp [openReadWrite, found, Disk.content]

theorem node_openReadWrite_ne (d : Disk) {p q : QString} (h : q ≠ p) :
    (d.openReadWrite p).2.node q = d.node q := by
  simp only [openReadWrite]
  split
  · rw [node_put_ne _ _ h, node_record]
  · rfl

@[simp] theorem node_seek (d : Disk) (p : QString) (pos : Nat) (q : QString) :
    (d.seek p pos).2.node q = d.node q := rfl

theorem node_write {d : Disk} {p : QString} {content : QByteArray}
    (found : d.node p = some (.file content)) {pos : Nat} {data : QByteArray}
    (h : (d.write p pos data).1 = true) :
    (d.write p pos data).2.node p = some (.file (Overlay.write 0 content pos data)) := by
  have ok : d.refused (.write p pos data.length) = false := by
    simpa [write, found] using h
  simp [write, found, ok]

theorem node_write_ne (d : Disk) {p q : QString} (pos : Nat) (data : QByteArray) (h : q ≠ p) :
    (d.write p pos data).2.node q = d.node q := by
  simp only [write]
  split
  · split
    · rw [node_put_ne _ _ h, node_record]
    · rfl
  · rfl

theorem node_rename {d : Disk} {source target : QString}
    (h : (d.rename source target).1 = true) :
    ∃ content, d.node source = some (.file content) ∧ d.node target = none ∧
      (d.rename source target).2.node target = some (.file content) ∧
      (d.rename source target).2.node source = none := by
  cases found : d.node source with
  | none => simp [rename, found] at h
  | some n =>
      cases n with
      | dir => simp [rename, found] at h
      | file content =>
          cases free : d.node target with
          | some n => simp [rename, found, free] at h
          | none =>
              have differ : source ≠ target := by
                rintro rfl
                rw [found] at free
                cases free
              have eq : (d.rename source target).2 =
                  ((d.record (.rename source target) true).erase source).put target
                    (.file content) := by
                simp only [rename, found, free] at h ⊢
                rw [if_pos h, h]
              refine ⟨content, rfl, rfl, ?_, ?_⟩
              · rw [eq, node_put_self]
              · rw [eq, node_put_ne _ _ differ, node_erase_self]

theorem node_rename_ne (d : Disk) {source target q : QString} (hs : q ≠ source)
    (ht : q ≠ target) : (d.rename source target).2.node q = d.node q := by
  simp only [rename]
  split
  · simp only
    split
    · rw [node_put_ne _ _ ht, node_erase_ne _ hs, node_record]
    · rfl
  · rfl

theorem node_rename_failed {d : Disk} {source target : QString}
    (h : (d.rename source target).1 = false) (q : QString) :
    (d.rename source target).2.node q = d.node q := by
  simp only [rename] at h ⊢
  split
  · rename_i content found free
    simp only [found, free] at h
    simp only [h, Bool.false_eq_true, if_false, node_record]
  · rfl

private theorem host_makeDirs (paths : List QString) (d : Disk) :
    (paths.foldl makeDir d).refused = d.refused ∧
      (paths.foldl makeDir d).preallocates = d.preallocates := by
  induction paths generalizing d with
  | nil => exact ⟨rfl, rfl⟩
  | cons p paths ih =>
      have first : (d.makeDir p).refused = d.refused ∧
          (d.makeDir p).preallocates = d.preallocates := by
        unfold makeDir
        split <;> exact ⟨rfl, rfl⟩
      obtain ⟨refused, preallocates⟩ := ih (d.makeDir p)
      exact ⟨refused.trans first.1, preallocates.trans first.2⟩

theorem host_mkpath (d : Disk) (p : QString) :
    (d.mkpath p).refused = d.refused ∧ (d.mkpath p).preallocates = d.preallocates := by
  unfold mkpath
  dsimp only
  split
  · exact host_makeDirs (ancestors p) _
  · exact ⟨rfl, rfl⟩

theorem host_remove (d : Disk) (p : QString) :
    (d.remove p).refused = d.refused ∧ (d.remove p).preallocates = d.preallocates := by
  unfold remove
  split
  · dsimp only
    split <;> exact ⟨rfl, rfl⟩
  · exact ⟨rfl, rfl⟩

theorem refused_openReadWrite (d : Disk) (p : QString) :
    (d.openReadWrite p).2.refused = d.refused := by
  unfold openReadWrite
  dsimp only
  split <;> rfl

theorem refused_preallocateFile (d : Disk) (p : QString) (size : UInt64) :
    (d.preallocateFile p size).refused = d.refused := by
  unfold preallocateFile
  split
  · rfl
  · dsimp only
    split <;> rfl

theorem refused_write (d : Disk) (p : QString) (pos : Nat) (data : QByteArray) :
    (d.write p pos data).2.refused = d.refused := by
  unfold write
  dsimp only
  split
  · split <;> rfl
  · rfl

theorem refused_rename (d : Disk) (source target : QString) :
    (d.rename source target).2.refused = d.refused := by
  unfold rename
  split
  · dsimp only
    split <;> rfl
  · rfl

theorem content_file {d : Disk} {p : QString} {content : QByteArray}
    (h : d.node p = some (.file content)) : d.content p = content := by
  rw [Disk.content, h]

theorem content_mkpath (d : Disk) (p q : QString) : (d.mkpath p).content q = d.content q := by
  rcases d.node_mkpath p q with same | ⟨-, free, made⟩
  · rw [content, content, same]
  · rw [content, content, made, free]

theorem content_removed (d : Disk) (p : QString) :
    (if d.exists p then d.remove p else d).content p = d.leftover p := by
  cases found : d.node p with
  | none => simp [«exists», content, leftover, found]
  | some n =>
      cases n with
      | dir => simp [«exists», content, leftover, remove, found]
      | file content =>
          cases kept : d.refused (.remove p) <;>
            simp [«exists», Disk.content, leftover, remove, found, kept]

theorem host_removed (d : Disk) (p : QString) :
    (if d.exists p then d.remove p else d).refused = d.refused ∧
      (if d.exists p then d.remove p else d).preallocates = d.preallocates := by
  split
  · exact d.host_remove p
  · exact ⟨rfl, rfl⟩

theorem content_preallocateFile {d : Disk} {p : QString} {size : UInt64}
    (opened : ((d.preallocateFile p size).openReadWrite p).1 = true) :
    (d.preallocateFile p size).content p =
      if d.refused (.preallocate p size) || !d.preallocates p then d.content p
      else d.content p ++ List.replicate (size.toNat - (d.content p).length) 0 := by
  by_cases empty : size = 0
  · rw [preallocateFile, if_pos empty, empty]
    simp
  · cases ok : d.canOpen (.preallocate p size) p with
    | true =>
        have allowed : d.refused (.preallocate p size) = false := by
          unfold canOpen at ok
          simp only [Bool.and_eq_true, Bool.not_eq_true'] at ok
          exact ok.1.1
        have made : (d.preallocateFile p size).content p = if d.preallocates p then
            d.content p ++ List.replicate (size.toNat - (d.content p).length) 0
            else d.content p := by
          simp only [preallocateFile, if_neg empty, ok, if_true]
          exact content_file (node_put_self _ _ _)
        rw [made, allowed]
        cases d.preallocates p <;> rfl
    | false =>
        have same : d.preallocateFile p size = d.record (.preallocate p size) true := by
          simp [preallocateFile, if_neg empty, ok]
        have possible : d.canOpen (.openReadWrite p) p = true := by
          rw [same] at opened
          exact opened
        have refused : d.refused (.preallocate p size) = true := by
          unfold canOpen at possible ok
          simp only [Bool.and_eq_true] at possible
          simpa [possible.1.2, possible.2] using ok
        rw [same, refused]
        rfl

/-! What it takes for every operation to have succeeded. -/

theorem succeeded_record {d : Disk} {op : DiskOp} {ok : Bool} :
    (d.record op ok).AllSucceeded ↔ d.AllSucceeded ∧ ok = true := by
  simp only [AllSucceeded, record, List.mem_append, List.mem_singleton]
  constructor
  · intro all
    exact ⟨fun entry mem => all entry (.inl mem), all (op, ok) (.inr rfl)⟩
  · rintro ⟨earlier, rfl⟩ entry (mem | rfl)
    · exact earlier entry mem
    · rfl

theorem succeeded_reserve {d : Disk} {p : QString} {size : UInt64}
    (h : (d.reserve p size).2.AllSucceeded) : d.AllSucceeded ∧ (d.reserve p size).1 = true :=
  succeeded_record.mp h

private theorem journal_makeDirs (paths : List QString) (d : Disk) :
    (paths.foldl makeDir d).journal = d.journal := by
  induction paths generalizing d with
  | nil => rfl
  | cons p paths ih =>
      have first : (d.makeDir p).journal = d.journal := by
        unfold makeDir
        split <;> rfl
      exact (ih (d.makeDir p)).trans first

theorem succeeded_mkpath {d : Disk} {p : QString} (h : (d.mkpath p).AllSucceeded) :
    d.AllSucceeded := by
  have record : ∀ ok, (d.record (.mkpath p) ok).AllSucceeded → d.AllSucceeded :=
    fun ok all => (succeeded_record.mp all).1
  unfold mkpath at h
  dsimp only at h
  split at h
  · rw [AllSucceeded, journal_makeDirs] at h
    exact record _ h
  · exact record _ h

theorem succeeded_openReadWrite {d : Disk} {p : QString}
    (h : (d.openReadWrite p).2.AllSucceeded) :
    d.AllSucceeded ∧ (d.openReadWrite p).1 = true := by
  have record : (d.record (.openReadWrite p) (d.canOpen (.openReadWrite p) p)).AllSucceeded := by
    unfold openReadWrite at h
    dsimp only at h
    split at h <;> exact h
  exact succeeded_record.mp record

theorem succeeded_preallocateFile {d : Disk} {p : QString} {size : UInt64}
    (h : (d.preallocateFile p size).AllSucceeded) : d.AllSucceeded := by
  unfold preallocateFile at h
  split at h
  · exact h
  · dsimp only at h
    split at h <;> exact (succeeded_record.mp h).1

theorem succeeded_remove {d : Disk} {p : QString} (h : (d.remove p).AllSucceeded) :
    d.AllSucceeded ∧ d.refused (.remove p) = false ∧ (d.remove p).node p = none := by
  unfold remove at h ⊢
  split at h
  · rename_i content found
    dsimp only at h
    split at h
    · rename_i allowed
      refine ⟨(succeeded_record.mp h).1, by simpa using allowed, ?_⟩
      simp only [allowed, if_true, node_erase_self]
    · rename_i refused
      exact absurd (succeeded_record.mp h).2 refused
  · exact nomatch (succeeded_record.mp h).2

theorem succeeded_rename {d : Disk} {source target : QString}
    (h : (d.rename source target).2.AllSucceeded) :
    d.AllSucceeded ∧ (d.rename source target).1 = true := by
  unfold rename at h ⊢
  split at h
  · have record : (d.record (.rename source target) (!d.refused (.rename source target) &&
        d.parentExists target && target ≠ [])).AllSucceeded := by
      dsimp only at h
      split at h <;> exact h
    exact succeeded_record.mp record
  · exact nomatch (succeeded_record.mp h).2

theorem succeeded_seek {d : Disk} {p : QString} {pos : Nat}
    (h : (d.seek p pos).2.AllSucceeded) : d.AllSucceeded ∧ (d.seek p pos).1 = true :=
  succeeded_record.mp h

theorem succeeded_write {d : Disk} {p : QString} {pos : Nat} {data : QByteArray}
    (h : (d.write p pos data).2.AllSucceeded) :
    d.AllSucceeded ∧ (d.write p pos data).1 = true := by
  have record : (d.record (.write p pos data.length)
      (!d.refused (.write p pos data.length))).AllSucceeded := by
    unfold write at h
    dsimp only at h
    split at h
    · split at h <;> exact h
    · exact h
  have ok : (d.write p pos data).1 = !d.refused (.write p pos data.length) := by
    unfold write
    dsimp only
    split <;> rfl
  rw [ok]
  exact succeeded_record.mp record

end Disk

end FastTransfer
