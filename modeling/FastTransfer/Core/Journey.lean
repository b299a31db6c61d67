/- FastTransfer/Core/Journey
   source: src/core/TransferSession.cpp
   digest: From the connection to the last file: an undisturbed transfer mirrors the manifest. -/

import FastTransfer.Core.Arrival
import FastTransfer.Core.Liveness
import FastTransfer.Core.Mirror

set_option autoImplicit false
set_option relaxedAutoImplicit false

namespace FastTransfer.TransferSession

open Protocol

variable {B : Blake3} {J : QJson}

/-! The duplicate policy matters to a file that finds its name taken only. -/

/-- The session as if its user had chosen to rename duplicates. -/
def asRename (self : TransferSession B) : TransferSession B :=
  { self with duplicatePolicy := .Rename }

theorem step_asRename {s t : TransferSession B} {e : LocalEvent} (plain : e.isControl = false)
    (role : s.direction = .Receive) (none : s.fileReader = none)
    (taken : Steps J s e.event t) : Steps J s.asRename e.event t.asRename := by
  have receives : s.direction ≠ .Send := by
    rw [role]
    decide
  cases e with
  | pause => cases plain
  | resume => cases plain
  | drain pending =>
      cases taken
      rfl
  | metricsTick =>
      cases taken
      show Except.ok (calculateMetrics s.asRename) = Except.ok (asRename (calculateMetrics s))
      unfold calculateMetrics
      rw [show s.asRename.sessionTimer = s.sessionTimer from rfl,
        show s.asRename.status = s.status from rfl]
      split <;> rfl
  | bytesWritten pending =>
      have same : ∀ u : TransferSession B, u.direction ≠ .Send → onBytesTransferred u = .ok u :=
        fun u other => if_neg fun guard => other guard.1
      cases (same { s with bytesToWrite := pending } receives).symm.trans taken
      exact same { s.asRename with bytesToWrite := pending } receives
  | sendNextChunk =>
      have same : ∀ u : TransferSession B, u.fileReader = .none → sendNextChunk u = .ok u := by
        intro u none
        rw [sendNextChunk, none]
      cases (same { s with queuedCalls := s.queuedCalls - 1 } none).symm.trans taken
      exact same { s.asRename with queuedCalls := s.queuedCalls - 1 } none

/-- A packet of a stream does what it does under any policy, unless it announces a file whose
name is taken. -/
theorem packet_asRename {s t : TransferSession B} {p : Packet} (sender : p.type ∈ senderTypes)
    (role : s.direction = .Receive)
    (free : ∀ start, p.type = .FileStart → parseFileStart p.payload = some start →
      s.disk.node (FileWriter.targetPath s.baseOutputDir s.subFolder start.relativePath) = none)
    (taken : Steps J s (.packet p) t) : Steps J s.asRename (.packet p) t.asRename := by
  obtain ⟨type, flags, payload⟩ := p
  cases type with
  | FileStart =>
      cases taken
      show Except.ok (onFileStart s.asRename payload) = Except.ok (asRename (onFileStart s payload))
      unfold onFileStart
      cases parsed : parseFileStart payload with
      | none => rfl
      | some start =>
          have same : s.asRename.openWriter start = s.openWriter start :=
            (FileWriter.open_free (free start rfl parsed) _ _).symm
          dsimp only
          rw [same]
          split
          · simp only [fileOpened, same]
            rfl
          · simp only [fileRefused, fileOpened, same]
            rfl
  | FileDataChunk =>
      cases taken
      show Except.ok (onFileDataChunk s.asRename payload) =
        Except.ok (asRename (onFileDataChunk s payload))
      unfold onFileDataChunk
      rw [show s.asRename.fileWriter = s.fileWriter from rfl]
      split
      · dsimp only
        rw [show s.asRename.disk = s.disk from rfl]
        split <;> rfl
      · rfl
  | FileEnd =>
      cases taken
      show Except.ok (onFileEnd s.asRename payload) = Except.ok (asRename (onFileEnd s payload))
      unfold onFileEnd
      rw [show s.asRename.fileWriter = s.fileWriter from rfl]
      split <;> rfl
  | TransferComplete =>
      cases taken
      rfl
  | TransferPause =>
      cases taken
      rfl
  | TransferResume =>
      have receives : ∀ u : TransferSession B, u.direction = .Receive →
          ¬ (u.setStatus .Transferring).direction = .Send := by
        intro u role sends
        cases role.symm.trans sends
      replace taken : onTransferResume J s payload = .ok t := taken
      show onTransferResume J s.asRename payload = .ok t.asRename
      unfold onTransferResume at taken ⊢
      cases parsed : parseTransferResume J payload with
      | none =>
          rw [parsed] at taken
          cases taken
          rfl
      | some resumeMsg =>
          rw [parsed] at taken
          dsimp only at taken ⊢
          rw [if_neg (receives s role)] at taken
          rw [if_neg (receives s.asRename role)]
          cases taken
          rfl
  | _ => exact absurd sender (by simp [senderTypes])

end FastTransfer.TransferSession

namespace FastTransfer.Link

open TransferSession Protocol
open FileWriter (partialSuffix resolveUniqueName)
open Loopback (Fits)

variable {B : Blake3} {J : QJson} {D : Delivery}

def asRename (l : Link B) : Link B :=
  { l with right := { l.right with session := l.right.session.asRename } }

theorem act_asRename {E E' : Endpoint B} {e : LocalEvent} {out : List Packet}
    (plain : e.isControl = false) (role : E.session.direction = .Receive)
    (none : E.session.fileReader = none) (acted : act J E e = .ok (E', out)) :
    act J { E with session := E.session.asRename } e =
      .ok ({ E' with session := E'.session.asRename }, out) := by
  obtain ⟨t, taken, eq⟩ := Except.ok_of_map acted
  obtain ⟨rfl, rfl⟩ := Prod.mk.inj eq
  have same : TransferSession.step J E.session.asRename e.event = .ok t.asRename :=
    step_asRename plain role none taken
  rw [act]
  dsimp only
  rw [same]
  rfl

theorem receive_asRename {E E' : Endpoint B} {p : Packet} {out : List Packet}
    (sender : p.type ∈ senderTypes) (role : E.session.direction = .Receive)
    (free : ∀ start, p.type = .FileStart → parseFileStart p.payload = some start →
      E.session.disk.node (FileWriter.targetPath E.session.baseOutputDir E.session.subFolder
        start.relativePath) = none)
    (received : receive J E p = .ok (E', out)) :
    receive J { E with session := E.session.asRename } p =
      .ok ({ E' with session := E'.session.asRename }, out) := by
  unfold receive at received ⊢
  dsimp only
  split at received
  · rename_i refused
    obtain ⟨rfl, rfl⟩ := Prod.mk.inj (Except.ok.inj received)
    rw [if_pos refused]
    have same : E.session.asRename.refuse = E.session.refuse.asRename := by
      unfold refuse onSocketError
      rw [show E.session.asRename.status = E.session.status from rfl]
      split <;> rfl
    rw [same]
  · rename_i heard
    obtain ⟨t, taken, eq⟩ := Except.ok_of_map received
    obtain ⟨rfl, rfl⟩ := Prod.mk.inj eq
    have same : TransferSession.step J E.session.asRename (.packet p) = .ok t.asRename :=
      packet_asRename sender role free taken
    rw [if_neg heard, same]
    rfl

structure Underway (J : QJson) (D : Delivery) (l : Link B) (ahead behind : Cursor) : Prop where
  places : Places J D l.asRename ahead behind
  mirrors : Mirrors l.right.session D behind

variable {l : Link B} {E : Endpoint B} {out : List Packet} {ahead behind : Cursor}

/-- The file that a packet announces finds its name and its staging file's free. -/
theorem Underway.free (h : Underway J D l ahead behind) (listed : D.Listed B) (fits : Fits D)
    (orderly : D.Orderly) {p : Packet} {rest : List Packet} (pending : l.toRight = p :: rest)
    {start : MsgFileStart} (type : p.type = .FileStart)
    (parsed : parseFileStart p.payload = some start) :
    let target := FileWriter.targetPath l.right.session.baseOutputDir l.right.session.subFolder
      start.relativePath
    l.right.session.disk.node target = none ∧
      l.right.session.disk.node (target ++ partialSuffix) = none := by
  intro target
  have passage := h.places.toPassage
  have path := passage.path
  have acceptable : p.Acceptable := Loopback.toRight_acceptable fits listed passage.delivering p
    (by rw [show l.asRename.toRight = _ from pending]; exact List.mem_cons_self)
  rw [show l.asRename.toRight = _ from pending, List.cons_append] at path
  have place := passage.receiver.place
  have mirrors := h.mirrors
  cases place with
  | @between i rest' paths suffix =>
      cases rest' with
      | nil =>
          rw [(List.cons.inj path).1] at type
          cases type
      | cons item rest' =>
          obtain ⟨rfl, -⟩ :=
            List.cons.inj (path.trans (D.stream.filesFrom_cons i item rest'))
          have mem := (mem_of_suffix suffix).1
          cases (listed.parsed mem acceptable).symm.trans parsed
          have aim := passage.receiver.target listed mem
          replace aim : target = D.target item := aim
          rw [aim]
          exact mirrors.vacant listed orderly suffix
  | @sending i k item rest' paths target' writer suffix running stored most =>
      by_cases more : k < (D.stream.pieces item).length
      · rw [(List.cons.inj (path.trans (D.stream.remaining_chunk more))).1] at type
        cases type
      · rw [(List.cons.inj (path.trans
          (D.stream.remaining_end (Nat.le_of_not_lt more)))).1] at type
        cases type
  | done => cases path

theorem Underway.unobstructed (h : Underway J D l ahead behind) (listed : D.Listed B)
    (fits : Fits D) (orderly : D.Orderly) : unobstructed l.asRename .toRight = true := by
  cases pending : l.toRight with
  | nil =>
      unfold Link.unobstructed
      rw [show l.asRename.toRight = _ from pending]
  | cons p rest =>
      obtain ⟨type, flags, payload⟩ := p
      unfold Link.unobstructed
      rw [show l.asRename.toRight = _ from pending]
      cases type with
      | FileStart =>
          cases parsed : parseFileStart payload with
          | none => simp only [parsed]
          | some start =>
              obtain ⟨free, clear⟩ := h.free listed fits orderly pending rfl parsed
              have own : resolveUniqueName l.right.session.disk (FileWriter.targetPath
                  l.right.session.baseOutputDir l.right.session.subFolder start.relativePath) =
                FileWriter.targetPath l.right.session.baseOutputDir l.right.session.subFolder
                  start.relativePath := by
                rw [resolveUniqueName, Disk.exists, free]
                rfl
              have absent : l.right.session.disk.hasFile (FileWriter.targetPath
                  l.right.session.baseOutputDir l.right.session.subFolder start.relativePath ++
                    partialSuffix) = false := by
                rw [Disk.hasFile, clear]
              simp only [parsed]
              show (!l.right.session.disk.hasFile (resolveUniqueName l.right.session.disk
                (FileWriter.targetPath l.right.session.baseOutputDir l.right.session.subFolder
                  start.relativePath) ++ partialSuffix)) = true
              rw [own, absent]
              rfl
      | _ => rfl

/-- No user calls anything, and no bytes leave the sender's buffer without a notification. -/
def quiet : Duplex.Move LocalEvent → Bool
  | .left (.drain _) => false
  | .left e | .right e => !e.isControl
  | .toRight | .toLeft => true

theorem quiet_left {e : LocalEvent} (allowed : quiet (.left e) = true) :
    e.isControl = false ∧ Notified e.event := by
  cases e with
  | pause => cases allowed
  | resume => cases allowed
  | drain pending => cases allowed
  | sendNextChunk => exact ⟨rfl, trivial⟩
  | metricsTick => exact ⟨rfl, trivial⟩
  | bytesWritten pending => exact ⟨rfl, trivial⟩

theorem quiet_right {e : LocalEvent} (allowed : quiet (.right e) = true) :
    e.isControl = false := by
  simpa [quiet] using allowed

theorem Underway.leftAlone (h : Underway J D l ahead behind) (listed : D.Listed B)
    (fits : Fits D) (orderly : D.Orderly) {move : Duplex.Move LocalEvent}
    (allowed : quiet move = true) : leftAlone l.asRename move = true := by
  cases move with
  | left e => cases e <;> first | rfl | cases allowed
  | right e => cases e <;> first | rfl | cases allowed
  | toRight => exact (Bool.and_eq_true _ _).mpr ⟨h.unobstructed listed fits orderly, rfl⟩
  | toLeft => rfl

/-- Every step of an orderly transfer is one under the policy `Rename`, and keeps the mirror. -/
theorem Underway.step {l' : Link B} {move : Duplex.Move LocalEvent}
    (h : Underway J D l ahead behind) (listed : D.Listed B) (fits : Fits D) (orderly : D.Orderly)
    (allowed : quiet move = true) (taken : Steps J l move l')
    (succeeded : l'.right.session.disk.AllSucceeded) :
    Steps J l.asRename move l'.asRename ∧ ∃ ahead behind, Underway J D l' ahead behind := by
  have receiver := h.places.receiver
  have mirrors := h.mirrors
  cases Duplex.Steps.moved taken with
  | left acted =>
      obtain ⟨plain, notified⟩ := quiet_left allowed
      have acted' : act J l.asRename.left _ = .ok _ := acted
      obtain ⟨ahead', places, -⟩ := h.places.left plain notified acted'
      exact ⟨Duplex.Moved.steps (.left acted'), ahead', behind, places, mirrors⟩
  | @right e E out acted =>
      have plain := quiet_right allowed
      have acted' := act_asRename (E := l.right) plain receiver.role receiver.noReader acted
      obtain ⟨places, -⟩ := h.places.right plain acted'
      obtain ⟨t, -, step, rfl, -⟩ := act_ok acted
      obtain ⟨same, -⟩ := step.idle plain receiver.noReader
      exact ⟨Duplex.Moved.steps (d := l.asRename) (.right acted'), ahead, behind, places,
        mirrors.frame same.disk same.fileWriter⟩
  | @toRight p rest E out pending received =>
      have passage := h.places.toPassage
      have path := passage.path
      rw [show l.asRename.toRight = _ from pending, List.cons_append] at path
      have acceptable : p.Acceptable := Loopback.toRight_acceptable fits listed
        passage.delivering p
        (by rw [show l.asRename.toRight = _ from pending]; exact List.mem_cons_self)
      have sender := D.stream.next_type path.symm
      have free : ∀ start, p.type = .FileStart → parseFileStart p.payload = some start →
          l.right.session.disk.node (FileWriter.targetPath l.right.session.baseOutputDir
            l.right.session.subFolder start.relativePath) = none :=
        fun start type parsed => (h.free listed fits orderly pending type parsed).1
      have received' := receive_asRename (E := l.right) sender receiver.role free received
      obtain ⟨behind', places, left, -⟩ := h.places.toRight listed fits pending
        (h.unobstructed listed fits orderly) received' succeeded
      obtain ⟨t, handled, rfl, -⟩ := receive_heard received passage.hears.2 acceptable
      have mirrors' : Mirrors t.asRename D behind' :=
        Mirrors.packet listed orderly receiver (mirrors.frame rfl rfl) left acceptable
          (packet_asRename sender receiver.role free handled) places.receiver.unfailed succeeded
      exact ⟨Duplex.Moved.steps (d := l.asRename) (.toRight pending received'), ahead, behind',
        places, mirrors'.frame rfl rfl⟩
  | toLeft pending received =>
      have received' : receive J l.asRename.left _ = .ok _ := received
      obtain ⟨ahead', places, -⟩ := h.places.toLeft pending received'
      exact ⟨Duplex.Moved.steps (d := l.asRename) (.toLeft pending received'), ahead', behind,
        places, mirrors⟩
  | noneRight none =>
      exact ⟨Duplex.Moved.steps (d := l.asRename) (.noneRight none), ahead, behind, h⟩
  | noneLeft none =>
      exact ⟨Duplex.Moved.steps (d := l.asRename) (.noneLeft none), ahead, behind, h⟩

end FastTransfer.Link

namespace FastTransfer

open FileWriter (partialSuffix)
open QString (slash)

/-- No file of the list is in the way of a later one. -/
def Tidy (items : List LocalFileItem) : Prop :=
  items.Pairwise fun earlier later =>
    later.relativePath ∉ ancestors earlier.relativePath ∧
      later.relativePath ++ partialSuffix ∉ ancestors earlier.relativePath

/-- What is below a folder that is not there is not there. -/
def Disk.Rooted (d : Disk) : Prop :=
  ∀ folder path, Inside folder path → d.exists path = true → d.exists folder = true

theorem filePath_ancestors {folder first second : QString} (f : Folder folder)
    (nonempty : first ≠ []) (nonempty' : second ≠ []) (relative : first.head? ≠ some slash)
    (relative' : second.head? ≠ some slash)
    (mem : filePath folder first ∈ ancestors (filePath folder second)) :
    first ∈ ancestors second := by
  have split : ∀ name : QString, folder ++ slash :: name = (folder ++ [slash]) ++ name := by
    intro name
    rw [List.append_assoc, List.singleton_append]
  rw [f.filePath nonempty relative, f.filePath nonempty' relative', split first, split second] at mem
  obtain ⟨front, -, follows⟩ := mem_ancestors.mp mem
  refine mem_ancestors.mpr ⟨(List.prefix_append_right_inj _).mp front, nonempty, ?_⟩
  rcases follows with same | follows
  · exact .inl (List.append_cancel_left same)
  · rw [List.length_append, ← List.drop_drop, List.drop_left] at follows
    exact .inr follows

theorem Delivery.orderly {D : Delivery} {B : Blake3} (listed : D.Listed B) (tidy : Tidy D.items)
    (empty : ∀ path, Inside D.folder path → D.base.node path = none) : D.Orderly := by
  refine ⟨empty, List.Pairwise.imp_of_mem (fun {earlier later} first second apart => ?_) tidy⟩
  have some := listed.nonempty later second
  have some' := listed.nonempty earlier first
  have relative := listed.relative second
  have relative' := listed.relative first
  refine ⟨fun mem => apart.1 (filePath_ancestors listed.folder some some' relative relative' mem),
    fun mem => ?_⟩
  have more : later.relativePath ++ partialSuffix ≠ [] :=
    List.append_ne_nil_of_left_ne_nil some _
  have still : (later.relativePath ++ partialSuffix).head? ≠ Option.some slash := by
    rwa [List.head?_append_of_ne_nil _ some]
  have staged : D.target later ++ partialSuffix =
      filePath D.folder (later.relativePath ++ partialSuffix) := by
    rw [Delivery.target, listed.folder.filePath some relative, listed.folder.filePath more still,
      List.append_assoc, List.cons_append]
  rw [staged] at mem
  exact apart.2 (filePath_ancestors listed.folder more some' still relative' mem)

namespace Encounter

open TransferSession Protocol PlatformFilesystem
open Loopback (Fits Terse)

variable {B : Blake3} {J : QJson} {A : Approach}

/-- What the two parties bring for a transfer to go through: messages within the size limit, files
that can be sent and are in no other's way, a file system in order, and a plain device name. -/
structure Approach.Sound (J : QJson) (B : Blake3) (A : Approach) : Prop where
  admissible : A.offer.Admissible
  concise : A.Concise J
  deliverable : Link.Deliverable (A.caller B)
  tidy : Tidy A.manifest.items
  rooted : A.receiver.Rooted
  plain : ∀ c, (stem A.deviceName).head? = some c → QString.isSpace c = false

structure Embarked (J : QJson) (A : Approach) (l : Link B) : Prop where
  agreed : Agreed J A l
  caller : Caller A l.left.session
  transferId : l.right.session.transferId = A.transferId
  localDeviceName : l.right.session.localDeviceName = []
  empty : ∀ path, Inside l.right.session.sessionFolder path → l.right.session.disk.node path = none

theorem accepted_absent (J : QJson) {s : TransferSession B} (unnamed : s.sessionSubfolder = [])
    (plain : ∀ c, (stem s.remoteDevice).head? = some c → QString.isSpace c = false)
    (baseOutputDir : QString) (policy : DuplicatePolicy) {timestamp : QString}
    (time : Timestamp timestamp) :
    let t := s.acceptTransfer J baseOutputDir policy timestamp
    s.disk.exists t.sessionFolder = false := by
  intro t
  obtain ⟨n, -, free, -, -, stable, folder⟩ :=
    acceptTransfer_folder J unnamed baseOutputDir policy time
  rw [folder (stable.mpr plain)]
  exact free

theorem Arriving.accepted {l l' : Link B} {e : Occurrence} {baseOutputDir timestamp : QString}
    {policy : DuplicatePolicy} (h : Arriving J A l) (sound : A.Sound J B)
    (time : Timestamp timestamp) (shown : l.right.session.receivedOffer.isSome = true)
    (accepts : e.val = .acceptTransfer baseOutputDir policy timestamp)
    (taken : Steps J l (.right e) l') : Embarked J A l' := by
  have agreed := h.approaching.accepted sound.admissible shown accepts taken
  obtain ⟨⟨E, out⟩, acted, rfl⟩ := Except.ok_of_map taken
  obtain ⟨t, stepped, rfl, rfl⟩ := act_ok acted
  rw [accepts] at stepped
  have same : t = acceptTransfer J l.right.session baseOutputDir policy timestamp :=
    (Except.ok.inj stepped).symm
  have caller := h.approaching.caller
  have callee := h.approaching.callee
  obtain ⟨-, -, remoteDevice, disk⟩ :=
    acceptTransfer_keeps J l.right.session baseOutputDir policy timestamp
  rw [← same] at remoteDevice disk
  have name : l.right.session.remoteDevice = A.deviceName :=
    (remoteDevice.symm.trans agreed.remoteDevice).trans caller.localDeviceName
  have absent := accepted_absent J h.unnamed (by rw [name]; exact sound.plain) baseOutputDir policy
    time
  rw [← same, callee.disk] at absent
  refine ⟨agreed, caller, agreed.transferId.trans caller.transferId, ?_, fun path inside => ?_⟩
  · rw [same]
    dsimp only [acceptTransfer]
    split <;> exact callee.localDeviceName
  · show t.disk.node path = none
    rw [disk, callee.disk]
    by_contra there
    have exists' : A.receiver.exists path = true := Option.isSome_iff_ne_none.mpr there
    cases absent.symm.trans (sound.rooted _ path inside exists')

theorem Embarked.deliverable {l : Link B} (h : Embarked J A l) (sound : A.Sound J B) :
    Link.Deliverable l.left.session := by
  obtain ⟨short, sources, sizes, nonempty, fixed⟩ := sound.deliverable
  have manifest : l.left.session.sendManifest = (A.caller B).sendManifest := h.caller.sendManifest
  have disk : l.left.session.disk = (A.caller B).disk := h.caller.disk
  refine ⟨manifest ▸ short, ?_, ?_, manifest ▸ nonempty, manifest ▸ fixed⟩
  · rw [manifest, disk]
    exact sources
  · rw [manifest]
    intro item mem
    rw [content, disk]
    exact sizes item mem

theorem Embarked.fits {l : Link B} (h : Embarked J A l) (sound : A.Sound J B) (terse : Terse J) :
    Fits (Link.delivery J l) := by
  let w : Wired (Peer B) UInt8 :=
    { left := { session := l.left.session }, right := { session := l.right.session }
      toRight := [], toLeft := (Link.acceptance J l.right.session).bytes }
  have start := h.agreed.start
  have accepting : Loopback.Accepting J w := by
    refine ⟨start.offered, start.accepted, h.agreed.transferId, .inl ?_, ?_, ?_, rfl, rfl⟩
    · have offer : l.left.session.sendManifest.offer l.left.session.transferId
          l.left.session.localDeviceName = A.offer := by
        rw [h.caller.sendManifest, h.caller.transferId, h.caller.localDeviceName]
        rfl
      show (serializeTransferOffer (l.left.session.sendManifest.offer l.left.session.transferId
        l.left.session.localDeviceName)).length ≤ _
      rw [offer]
      exact sound.admissible.size
    · show (Link.acceptance J l.right.session).Acceptable
      rw [Link.acceptance, h.transferId, h.localDeviceName]
      exact sound.concise.acceptance
    · intro x mem
      rcases List.mem_cons.mp mem with rfl | mem
      · exact ⟨rfl, rfl⟩
      · rw [List.mem_singleton.mp mem]
        exact ⟨rfl, rfl⟩
  exact accepting.fits terse

theorem Embarked.underway {l : Link B} (h : Embarked J A l) (sound : A.Sound J B)
    (orderly : (Link.delivery J l).Orderly) :
    ∃ ahead behind, Link.Underway J (Link.delivery J l) l ahead behind := by
  obtain ⟨offered, accepted, -, deaf, toRight, toLeft⟩ := h.agreed.start
  let m := (forget l).asRename
  have start : Link.Start J m :=
    ⟨offered, ⟨accepted.direction, accepted.status, accepted.ownsConnection, accepted.connected,
      accepted.fileReader, accepted.fileWriter, accepted.currentFileIndex, accepted.outbox⟩,
      ⟨rfl, rfl⟩, deaf, toRight, toLeft⟩
  obtain ⟨ahead, behind, passage⟩ :=
    (start.delivering (h.deliverable sound) (.inl rfl)).passage
  have answers : ∀ p ∈ l.toLeft, p.Acceptable := by
    rw [show l.toLeft = _ from toLeft]
    refine List.forall_mem_singleton.mpr ?_
    show (Link.acceptance J l.right.session).Acceptable
    rw [Link.acceptance, h.transferId, h.localDeviceName]
    exact sound.concise.acceptance
  have awake : Awake l.left.session := by
    refine .of_status offered.direction ?_
    rw [show l.left.session.status = _ from offered.status]
    decide
  have ends := passage.ends_waiting offered.status
  refine ⟨ahead, behind, ⟨⟨passage.hears, passage.sender, passage.receiver, passage.path,
    passage.count, passage.small, passage.quiet⟩, answers, awake⟩, ?_⟩
  exact mirrors_empty orderly rfl accepted.fileWriter ends

def ownMove : Duplex.Move Occurrence → Duplex.Move LocalEvent
  | .left e => .left (own e)
  | .right e => .right (own e)
  | .toRight => .toRight
  | .toLeft => .toLeft

theorem ownMove_steps {D : Delivery} {l l' : Link B} {move : Duplex.Move Occurrence}
    {ahead behind : Cursor} (h : Link.Underway J D l ahead behind)
    (allowed : attended l move = true) (taken : Steps J l move l') :
    Link.quiet (ownMove move) = true ∧ Link.Steps J l (ownMove move) l' := by
  cases move with
  | left e =>
      have busy : l.left.session.status ≠ .Connecting := by
        intro status
        have place := h.places.sender.place
        generalize l.asRename.toLeft = incoming at place
        cases place with
        | offered _ waiting => cases status.symm.trans waiting
        | streaming _ either =>
            rcases either with ⟨running, -⟩ | ⟨completed, -⟩
            · cases status.symm.trans running
            · cases status.symm.trans completed
      obtain ⟨eq, notified⟩ := (attended_left allowed).resolve_left fun up => busy up.2
      obtain ⟨E, acted, rfl⟩ := Except.ok_of_map taken
      have acted' : Link.act J l.left (own e) = .ok E := by
        rw [Link.act, ← eq]
        exact acted
      refine ⟨?_, Duplex.Moved.steps (.left acted')⟩
      rw [ownMove]
      have plain := own_plain e
      generalize own e = event at notified plain
      cases event with
      | drain pending => cases notified
      | pause => cases plain
      | resume => cases plain
      | _ => rfl
  | right e =>
      have busy : l.right.session.status ≠ .WaitingApproval := by
        intro status
        have place := h.places.receiver.place
        cases place with
        | between _ running => cases status.symm.trans running
        | sending _ running => cases status.symm.trans running
        | done completed => cases status.symm.trans completed
      have eq := (attended_right allowed).resolve_left fun accepts => busy accepts.2.2
      obtain ⟨E, acted, rfl⟩ := Except.ok_of_map taken
      have acted' : Link.act J l.right (own e) = .ok E := by
        rw [Link.act, ← eq]
        exact acted
      refine ⟨?_, Duplex.Moved.steps (.right acted')⟩
      rw [ownMove, Link.quiet, own_plain]
      rfl
  | toRight => exact ⟨rfl, taken⟩
  | toLeft => exact ⟨rfl, taken⟩

private theorem later {p : ℕ → Prop} {n k : ℕ} (h : ∃ m ≥ n + k, p m) :
    ∃ j ≥ k, p (n + j) := by
  obtain ⟨m, after, holds⟩ := h
  obtain ⟨j, rfl⟩ := Nat.exists_eq_add_of_le (Nat.le_trans (Nat.le_add_right n k) after)
  exact ⟨j, by omega, holds⟩

def Approach.files (self : Approach) : List (QString × QByteArray) :=
  self.manifest.items.map fun item =>
    (item.relativePath, self.sender.content item.sourceAbsolutePath)

structure Shipping (J : QJson) (A : Approach) (D : Delivery) (l : Link B) : Prop where
  underway : ∃ ahead behind, Link.Underway J D l ahead behind
  listed : D.Listed B
  orderly : D.Orderly
  fits : Fits D
  files : (D.items.map fun item => (item.relativePath, D.content item)) = A.files

theorem Embarked.shipping {l : Link B} (h : Embarked J A l) (terse : Terse J)
    (sound : A.Sound J B) : Shipping J A (Link.delivery J l) l := by
  have positive := h.agreed.start.offered.chunkSize
  have listed : (Link.delivery J l).Listed B := (h.deliverable sound).listed positive
  have items : (Link.delivery J l).items = A.manifest.items :=
    congrArg FileManifest.items h.caller.sendManifest
  have orderly := Delivery.orderly listed (items ▸ sound.tidy) h.empty
  refine ⟨h.underway sound orderly, listed, orderly, h.fits sound terse, ?_⟩
  rw [items]
  refine List.map_congr_left fun item _ => ?_
  show (item.relativePath, (Link.delivery J l).content item) = _
  rw [show (Link.delivery J l).content item = _ from Link.delivery_content J positive item,
    content]
  exact congrArg (fun disk : Disk =>
    (item.relativePath, disk.content item.sourceAbsolutePath)) h.caller.disk

theorem Shipping.step {D : Delivery} {l l' : Link B} {move : Duplex.Move Occurrence}
    (h : Shipping J A D l) (allowed : attended l move = true) (taken : Steps J l move l')
    (succeeded : l'.right.session.disk.AllSucceeded) :
    Shipping J A D l' ∧ Link.Alone J l.asRename (ownMove move) l'.asRename := by
  obtain ⟨⟨ahead, behind, under⟩, listed, orderly, fits, files⟩ := h
  obtain ⟨quiet, taken⟩ := ownMove_steps under allowed taken
  obtain ⟨taken', under'⟩ := under.step listed fits orderly quiet taken succeeded
  exact ⟨⟨under', listed, orderly, fits, files⟩, under.leftAlone listed fits orderly quiet, taken'⟩

/-- An execution from the acceptance on is one of a transfer that is left alone, and is fair as
one. -/
private theorem shipping_completes {x : Execution (Attended (B := B) J)} {n : ℕ} {D : Delivery}
    (fair : Fair x) (succeeded : ∀ n, (x.state n).right.session.disk.AllSucceeded)
    (start : Shipping J A D (x.state n)) :
    ∃ m, Link.Finished (x.state m) ∧ Shipping J A D (x.state m) := by
  have moves : ∀ k, Shipping J A D (x.state (n + k)) →
      Shipping J A D (x.state (n + k + 1)) ∧ Link.Alone J (x.state (n + k)).asRename
        (ownMove (x.event (n + k))) (x.state (n + k + 1)).asRename :=
    fun k h => h.step (x.next (n + k)).1 (x.next (n + k)).2 (succeeded _)
  have ships : ∀ k, Shipping J A D (x.state (n + k)) := by
    intro k
    induction k with
    | zero => exact start
    | succ k ih => exact (moves k ih).1
  let y : Execution (Link.Alone (B := B) J) :=
    { state := fun k => (x.state (n + k)).asRename
      event := fun k => ownMove (x.event (n + k))
      next := fun k => (moves k (ships k)).2 }
  have fair' : Link.Fair y := by
    refine ⟨fun k more => ?_, fun k more => ?_, fun k more => ?_, fun k more => ?_⟩
    · obtain ⟨j, after, event⟩ := later (fair.toRight (n + k) more)
      exact ⟨j, after, by rw [show y.event j = ownMove _ from rfl, event]; rfl⟩
    · obtain ⟨j, after, event⟩ := later (fair.toLeft (n + k) more)
      exact ⟨j, after, by rw [show y.event j = ownMove _ from rfl, event]; rfl⟩
    · obtain ⟨j, after, e, event, call⟩ := later (fair.queued (n + k) more)
      refine ⟨j, after, ?_⟩
      rw [show y.event j = ownMove _ from rfl, event, ownMove, own, call]
    · obtain ⟨j, after, e, pending, room, event, written⟩ := later (fair.written (n + k) more)
      refine ⟨j, after, pending, room, ?_⟩
      rw [show y.event j = ownMove _ from rfl, event, ownMove, own, written]
  obtain ⟨ahead, behind, first⟩ := (ships 0).underway
  obtain ⟨k, finished, -⟩ := Link.completes start.listed start.fits
    (fun k => succeeded (n + k)) fair' first.places
  exact ⟨n + k, finished, ships k⟩

def Timely : Duplex.Move Occurrence → Prop
  | .right e => ∀ baseOutputDir policy timestamp,
      e.val = .acceptTransfer baseOutputDir policy timestamp → Timestamp timestamp
  | _ => True

theorem Arriving.ships {l l' : Link B} {move : Duplex.Move Occurrence} (h : Arriving J A l)
    (terse : Terse J) (sound : A.Sound J B) (allowed : attended l move = true)
    (timely : Timely move) (accepts : Accepts move) (taken : Steps J l move l') :
    ∃ D, Shipping J A D l' := by
  cases move with
  | right e =>
      obtain ⟨baseOutputDir, policy, timestamp, eq⟩ := accepts
      have shown := (attended_right allowed).resolve_right fun own' => by
        rw [eq] at own'
        generalize own e = event at own'
        cases event <;> cases own'
      have embarked := h.accepted sound (timely _ _ _ eq) shown.2.1 eq taken
      exact ⟨_, embarked.shipping terse sound⟩
  | left e => exact accepts.elim
  | toRight => exact accepts.elim
  | toLeft => exact accepts.elim

/-- How far an attended encounter has come: it is on its way to the acceptance, or the accepted
transfer is under way. -/
def Stage (J : QJson) (A : Approach) (l : Link B) : Prop :=
  Arriving J A l ∨ ∃ D, Shipping J A D l

theorem Stage.step {l l' : Link B} {move : Duplex.Move Occurrence} (h : Stage J A l)
    (terse : Terse J) (sound : A.Sound J B) (allowed : attended l move = true)
    (timely : Timely move) (taken : Steps J l move l')
    (succeeded : l'.right.session.disk.AllSucceeded) : Stage J A l' := by
  rcases h with arriving | ⟨D, shipping⟩
  · by_cases accepts : Accepts move
    · exact .inr (arriving.ships terse sound allowed timely accepts taken)
    · exact .inl (arriving.step sound.admissible sound.concise allowed accepts taken).1
  · exact .inr ⟨D, (shipping.step allowed taken succeeded).1⟩

theorem Stage.toLeft {l : Link B} (h : Stage J A l) (sound : A.Sound J B) :
    ∀ p ∈ l.toLeft, p.type ≠ .TransferOffer := by
  intro p mem
  rcases h with arriving | ⟨D, ⟨ahead, behind, under⟩, -⟩
  · have phase := arriving.phase sound.admissible
    cases phase with
    | answered _ _ _ flight =>
        rw [flight.2, List.mem_singleton] at mem
        rw [mem]
        exact MessageType.noConfusion
    | connecting _ _ _ flight => cases flight.2 ▸ mem
    | requested _ _ _ flight => cases flight.2 ▸ mem
    | offered _ _ _ flight => cases flight.2 ▸ mem
    | waiting _ _ _ _ _ _ flight => cases flight.2 ▸ mem
  · have among := Loopback.sent_type under.places.sender.place p mem
    rintro type
    rw [type] at among
    revert among
    decide

section Attended

variable {x : Execution (Attended (B := B) J)} (terse : Terse J) (sound : A.Sound J B)
  (clock : ∀ n, Timely (x.event n))

include terse sound clock

theorem finishes (start : x.state 0 = A.start B)
    (succeeded : ∀ n, (x.state n).right.session.disk.AllSucceeded) (fair : Fair x) :
    ∃ n D, Link.Finished (x.state n) ∧ Shipping J A D (x.state n) := by
  obtain ⟨n, arriving, accepts⟩ :=
    arrives sound.admissible sound.concise fair (start ▸ arriving_start J A)
  obtain ⟨allowed, taken⟩ := x.next n
  obtain ⟨D, shipping⟩ := arriving.ships terse sound allowed (clock n) accepts taken
  obtain ⟨m, finished, shipping'⟩ := shipping_completes fair succeeded shipping
  exact ⟨m, D, finished, shipping'⟩

end Attended

theorem event_isPacket (e : LocalEvent) : e.event.isPacket = false := by
  cases e <;> rfl

theorem socketConnected_isPacket : Event.socketConnected.isPacket = false := rfl

private def turn : Duplex.Move LocalEvent → Duplex.Move Occurrence
  | .left e => .left ⟨e.event, event_isPacket e⟩
  | .right e => .right ⟨e.event, event_isPacket e⟩
  | .toRight => .toRight
  | .toLeft => .toLeft

end Encounter

end FastTransfer
