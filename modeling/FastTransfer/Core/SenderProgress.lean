/- FastTransfer/Core/SenderProgress
   source: src/core/TransferSession.cpp, src/filesystem/FileReader.cpp
   digest: When the counters of a sender are those of the place it has reached. -/

import FastTransfer.Core.Receiving

set_option autoImplicit false
set_option relaxedAutoImplicit false

namespace FastTransfer

open Protocol

def sizeBefore (items : List LocalFileItem) (i : Nat) : Nat :=
  ((items.take i).map fun item => item.fileSize.toNat).sum

@[simp] theorem sizeBefore_zero (items : List LocalFileItem) : sizeBefore items 0 = 0 := by
  simp [sizeBefore]

theorem sizeBefore_succ {items : List LocalFileItem} {i : Nat} {item : LocalFileItem}
    (found : items[i]? = some item) :
    sizeBefore items (i + 1) = sizeBefore items i + item.fileSize.toNat := by
  rw [sizeBefore, List.take_add_one, found, List.map_append, List.sum_append]
  simp [sizeBefore]

theorem sizeBefore_le (items : List LocalFileItem) (i : Nat) :
    sizeBefore items i ≤ sizeBefore items items.length := by
  have whole : sizeBefore items items.length =
      sizeBefore items i + ((items.drop i).map fun item => item.fileSize.toNat).sum := by
    rw [sizeBefore, List.take_length, sizeBefore, ← List.sum_append, ← List.map_append,
      List.take_append_drop]
  omega

/-- The files of the manifest are on the disk as they were enumerated, and can be read. -/
structure FileManifest.Unchanged (d : Disk) (m : FileManifest) : Prop where
  short : m.items.length < 2 ^ 63
  sources : ∀ item ∈ m.items, FileReader.Readable d item.sourceAbsolutePath ∧
    (d.content item.sourceAbsolutePath).length = item.fileSize.toNat
  totalBytes : m.totalBytes.toNat = sizeBefore m.items m.items.length

namespace TransferSession

variable {B : Blake3} {J : QJson}

/-- The counters say where the sender is in its manifest and in its file. -/
structure ProgressExact (s : TransferSession B) : Prop where
  total : s.metrics.totalTransferred.toNat =
    sizeBefore s.sendManifest.items s.currentFileIndex.toNat +
      s.metrics.currentFileTransferred.toNat
  offset : ∀ reader, s.fileReader = some reader → reader.file.isOpen = true →
    s.metrics.currentFileTransferred = reader.currentOffset
  bound : s.metrics.totalTransferred ≤ s.metrics.totalBytes

/-- What keeps the counters exact: before the first file they are zero, in a file they are those
of the item and of the reader. -/
structure Exact (s : TransferSession B) : Prop where
  role : s.direction = .Send
  chunkSize : 0 < s.chunkSize
  unchanged : s.sendManifest.Unchanged s.disk
  totalBytes : s.metrics.totalBytes = s.sendManifest.totalBytes
  total : s.metrics.totalTransferred.toNat =
    sizeBefore s.sendManifest.items s.currentFileIndex.toNat +
      s.metrics.currentFileTransferred.toNat
  entered : ∀ reader, s.fileReader = some reader →
    ∃ item, s.sendManifest.items[s.currentFileIndex.toNat]? = some item ∧
      s.metrics.currentFileSize = item.fileSize ∧
      s.metrics.currentFileTransferred ≤ item.fileSize ∧
      (reader.file.isOpen = true → reader.Reading s.disk item.sourceAbsolutePath
        s.metrics.currentFileTransferred.toNat)
  fresh : s.fileReader = none → s.currentFileIndex = 0 ∧ s.metrics.totalTransferred = 0 ∧
    s.metrics.currentFileSize = 0

theorem Exact.progress {s : TransferSession B} (h : Exact s) : ProgressExact s where
  total := h.total
  offset := by
    intro reader found isOpen
    obtain ⟨item, -, -, -, reading⟩ := h.entered reader found
    apply UInt64.toNat_inj.mp
    rw [(reading isOpen).currentOffset]
  bound := by
    rw [UInt64.le_iff_toNat_le, h.totalBytes, h.unchanged.totalBytes]
    cases found : s.fileReader with
    | none =>
        rw [(h.fresh found).2.1]
        simp
    | some reader =>
        obtain ⟨item, inside, -, within, -⟩ := h.entered reader found
        have next := sizeBefore_succ inside
        have all := sizeBefore_le s.sendManifest.items (s.currentFileIndex.toNat + 1)
        rw [UInt64.le_iff_toNat_le] at within
        have total := h.total
        omega

theorem Exact.keep {s t : TransferSession B} (h : Exact s) (role : t.direction = s.direction)
    (chunkSize : t.chunkSize = s.chunkSize) (manifest : t.sendManifest = s.sendManifest)
    (disk : t.disk = s.disk) (metrics : t.metrics = s.metrics)
    (index : t.currentFileIndex = s.currentFileIndex) (fileReader : t.fileReader = s.fileReader) :
    Exact t where
  role := role.trans h.role
  chunkSize := chunkSize ▸ h.chunkSize
  unchanged := by
    rw [manifest, disk]
    exact h.unchanged
  totalBytes := by
    rw [metrics, manifest]
    exact h.totalBytes
  total := by
    rw [metrics, manifest, index]
    exact h.total
  entered := by
    rw [metrics, manifest, index, fileReader, disk]
    exact h.entered
  fresh := by
    rw [metrics, index, fileReader]
    exact h.fresh

theorem Exact.frame {s t : TransferSession B} (h : Exact s) (same : Frame s t) : Exact t :=
  h.keep same.direction same.chunkSize same.sendManifest same.disk same.metrics
    same.currentFileIndex same.fileReader

theorem Exact.source {s : TransferSession B} (h : Exact s) {i : Nat} {item : LocalFileItem}
    (found : s.sendManifest.items[i]? = some item) :
    FileReader.Readable s.disk item.sourceAbsolutePath ∧
      (s.disk.content item.sourceAbsolutePath).length = item.fileSize.toNat :=
  h.unchanged.sources item (List.mem_of_getElem? found)

private theorem Exact.read {s : TransferSession B} (h : Exact s) {reader : FileReader B}
    (active : Active s reader) (ended : reader.isAtEnd = false) :
    ∃ item, s.sendManifest.items[s.currentFileIndex.toNat]? = some item ∧
      s.metrics.currentFileSize = item.fileSize ∧
      (reader.readNextChunk s.disk).1 ≠ [] ∧
      s.metrics.currentFileTransferred.toNat + (reader.readNextChunk s.disk).1.length ≤
        item.fileSize.toNat ∧
      (reader.readNextChunk s.disk).2.Reading s.disk item.sourceAbsolutePath
        (s.metrics.currentFileTransferred.toNat + (reader.readNextChunk s.disk).1.length) := by
  obtain ⟨item, inside, size, -, reading⟩ := h.entered reader active.found
  obtain ⟨readable, length⟩ := h.source inside
  have place := reading (FileReader.isOpen_of_not_atEnd ended)
  have ahead := place.ahead ended
  have positive := place.chunkSize
  obtain ⟨data, -, -, next⟩ := place.next readable ahead
  rw [← data] at next
  have width : (reader.readNextChunk s.disk).1.length = min reader.chunkSize.toNat
      (item.fileSize.toNat - s.metrics.currentFileTransferred.toNat) := by
    rw [data, List.length_take, List.length_drop, length]
  rw [length] at ahead
  refine ⟨item, inside, size, ?_, by omega, next⟩
  apply List.ne_nil_of_length_pos
  omega

private theorem toNat_add_ofNat {a : UInt64} {n : Nat} (fits : a.toNat + n < 2 ^ 64) :
    (a + UInt64.ofNat n).toNat = a.toNat + n := by
  have added : (UInt64.ofNat n).toNat = n := by
    apply UInt64.toNat_ofNat_of_lt'
    rw [UInt64.size]
    omega
  rw [UInt64.toNat_add, added, Nat.mod_eq_of_lt fits]

/-- Within the current item neither counter wraps around, since the total counts the whole
manifest. -/
private theorem Exact.room {s : TransferSession B} (h : Exact s) {item : LocalFileItem} {n : Nat}
    (inside : s.sendManifest.items[s.currentFileIndex.toNat]? = some item)
    (within : s.metrics.currentFileTransferred.toNat + n ≤ item.fileSize.toNat) :
    s.metrics.totalTransferred.toNat + n < 2 ^ 64 ∧
      s.metrics.currentFileTransferred.toNat + n < 2 ^ 64 := by
  have total := h.total
  have later := sizeBefore_succ inside
  have all := sizeBefore_le s.sendManifest.items (s.currentFileIndex.toNat + 1)
  have whole := h.unchanged.totalBytes
  have bound := s.sendManifest.totalBytes.toNat_lt
  omega

private theorem Exact.chunkSent {s : TransferSession B} (h : Exact s) {reader : FileReader B}
    (active : Active s reader) (ended : reader.isAtEnd = false) (payload : QByteArray) :
    Exact ((s.afterRead reader).chunkSent payload (reader.readNextChunk s.disk).1.length) := by
  obtain ⟨item, inside, size, -, within, next⟩ := h.read active ended
  obtain ⟨totalRoom, fileRoom⟩ := h.room inside within
  have summed := toNat_add_ofNat totalRoom
  have counted := toNat_add_ofNat fileRoom
  refine ⟨h.role, h.chunkSize, h.unchanged, h.totalBytes, ?_, ?_, ?_⟩
  · show (s.metrics.totalTransferred + _).toNat = sizeBefore _ _ +
      (s.metrics.currentFileTransferred + _).toNat
    rw [summed, counted, h.total, Nat.add_assoc]
    rfl
  · intro reader' found
    cases found
    refine ⟨item, inside, size, ?_, ?_⟩
    · show s.metrics.currentFileTransferred + _ ≤ item.fileSize
      rw [UInt64.le_iff_toNat_le, counted]
      exact within
    · intro _
      show FileReader.Reading _ s.disk _ (s.metrics.currentFileTransferred + _).toNat
      rw [counted]
      exact next
  · intro none
    cases none

theorem Exact.nextChunk {s t : TransferSession B} (h : Exact s) (next : NextChunk s t) :
    Exact t ∨ (s.connected = false ∧ t.status = .Failed) := by
  cases next with
  | idle => exact .inl h
  | fileEnd reader active ended =>
      left
      refine ⟨h.role, h.chunkSize, h.unchanged, h.totalBytes, h.total, ?_, ?_⟩
      · intro reader' found
        cases found
        obtain ⟨item, inside, size, within, reading⟩ := h.entered reader active.found
        refine ⟨item, inside, size, within, ?_⟩
        intro isOpen
        obtain ⟨fileName, opened, chunkSize, fileSize, pos, offset⟩ := reading isOpen
        exact ⟨fileName, opened, chunkSize, fileSize, pos, offset⟩
      · intro none
        cases none
  | readFailed reader active ended empty =>
      obtain ⟨item, -, -, nonempty, -⟩ := h.read active ended
      exact absurd empty nonempty
  | sendFailed reader active lost => exact .inr ⟨lost, by simp [fail, setStatus, emit]⟩
  | chunk reader active ended nonempty online payload written =>
      exact .inl (h.chunkSent active ended payload)

private theorem Exact.finished {s : TransferSession B} (h : Exact s)
    (last : ∀ reader, s.fileReader = some reader → reader.file.isOpen = false ∧
      s.sendManifest.items.length ≤ s.currentFileIndex.toNat + 1)
    (empty : s.fileReader = none → s.sendManifest.items.length = 0) :
    Exact (finishSending J s) := by
  have whole := h.unchanged.totalBytes
  have total : s.metrics.totalBytes.toNat =
      sizeBefore s.sendManifest.items s.currentFileIndex.toNat +
        s.metrics.currentFileSize.toNat := by
    rw [h.totalBytes, whole]
    cases found : s.fileReader with
    | none =>
        obtain ⟨index, -, size⟩ := h.fresh found
        rw [index, size, empty found]
        simp
    | some reader =>
        obtain ⟨item, inside, size, -, -⟩ := h.entered reader found
        have bound := (List.getElem?_eq_some_iff.mp inside).1
        have index : s.sendManifest.items.length = s.currentFileIndex.toNat + 1 := by
          have := (last reader found).2
          omega
        rw [index, sizeBefore_succ inside, size]
  refine ⟨h.role, h.chunkSize, h.unchanged, h.totalBytes, total, ?_, ?_⟩
  · intro reader found
    obtain ⟨item, inside, size, -, -⟩ := h.entered reader found
    refine ⟨item, inside, size, ?_, ?_⟩
    · show s.metrics.currentFileSize ≤ item.fileSize
      rw [size, UInt64.le_iff_toNat_le]
    · intro isOpen
      rw [(last reader found).1] at isOpen
      cases isOpen
  · intro none
    obtain ⟨index, -, size⟩ := h.fresh none
    refine ⟨index, ?_, size⟩
    show s.metrics.totalBytes = 0
    rw [index, size] at total
    apply UInt64.toNat_inj.mp
    rw [total]
    simp

theorem Exact.startFile {s t : TransferSession B} {fileIndex startOffset : UInt64} (h : Exact s)
    (lands : ∀ item, s.sendManifest.items[fileIndex.toNat]? = some item →
      sizeBefore s.sendManifest.items fileIndex.toNat + startOffset.toNat =
          s.metrics.totalTransferred.toNat ∧
        startOffset ≤ item.fileSize)
    (last : s.sendManifest.items.length ≤ fileIndex.toNat →
      ∀ reader, s.fileReader = some reader → reader.file.isOpen = false ∧
        s.sendManifest.items.length ≤ s.currentFileIndex.toNat + 1)
    (empty : s.sendManifest.items.length ≤ fileIndex.toNat → s.fileReader = none →
      s.sendManifest.items.length = 0)
    (start : StartFile J s fileIndex startOffset t) :
    Exact t ∨ (s.connected = false ∧ t.status = .Failed) := by
  cases start with
  | finished done => exact .inl (h.finished (last done) (empty done))
  | unopened item found closed =>
      exfalso
      obtain ⟨readable, length⟩ := h.source found
      have within := UInt64.le_iff_toNat_le.mp (lands item found).2
      have fits : startOffset.toNat ≤ (s.disk.content item.sourceAbsolutePath).length := by omega
      have opened := (FileReader.open_reading (B := B) readable h.chunkSize fits).1
      rw [closed] at opened
      cases opened
  | started item found opened next sent =>
      obtain ⟨readable, length⟩ := h.source found
      obtain ⟨total, within⟩ := lands item found
      have inside := UInt64.le_iff_toNat_le.mp within
      have fits : startOffset.toNat ≤ (s.disk.content item.sourceAbsolutePath).length := by omega
      have reading := (FileReader.open_reading (B := B) readable h.chunkSize fits).2.1
      have entered : Exact (s.started fileIndex startOffset item) := by
        refine ⟨h.role, h.chunkSize, h.unchanged, h.totalBytes, total.symm, ?_, ?_⟩
        · intro reader eq
          cases eq
          exact ⟨item, found, rfl, within, fun _ => reading⟩
        · intro none
          cases none
      exact entered.nextChunk sent

theorem Exact.refuse {s : TransferSession B} (h : Exact s) : Exact s.refuse := by
  have offline : Exact { s with connected := false } := h.keep rfl rfl rfl rfl rfl rfl rfl
  exact offline.frame (refuse_frame s).1

theorem Exact.local {s t : TransferSession B} {e : LocalEvent} (h : Exact s)
    (step : LocalStep J s e t) : Exact t ∨ (s.connected = false ∧ t.status = .Failed) := by
  cases step with
  | aside same status outbox => exact .inl (h.frame same)
  | paused was =>
      left
      rw [pause, if_pos was]
      exact h.keep rfl rfl rfl rfl rfl rfl rfl
  | resumed was role => exact absurd h.role role
  | resumedSending was role next =>
      have resumed : Exact (s.resumed J) := h.keep rfl rfl rfl rfl rfl rfl rfl
      exact resumed.nextChunk next
  | next same status outbox next =>
      rw [← same.connected]
      exact (h.frame same).nextChunk next

theorem LocalStep.noReader {s t : TransferSession B} {e : LocalEvent}
    (absent : s.fileReader = none) (step : LocalStep J s e t) : t.fileReader = none := by
  cases step with
  | aside same status outbox => exact same.fileReader.trans absent
  | paused was =>
      rw [pause, if_pos was]
      exact absent
  | resumed was role => exact absent
  | resumedSending was role next =>
      have still : (s.resumed J).fileReader = none := absent
      rw [next.absent still]
      exact absent
  | next same status outbox next =>
      have still := same.fileReader.trans absent
      rw [next.absent still]
      exact still

theorem LocalStep.failed {s t : TransferSession B} {e : LocalEvent} (failed : s.status = .Failed)
    (step : LocalStep J s e t) : t.status = .Failed := by
  have idle : ∀ {u v : TransferSession B}, u.status = .Failed → NextChunk u v →
      v.status = .Failed := by
    intro u v status next
    rcases next.progress.2 with same | failed
    · exact same.trans status
    · exact failed
  cases step with
  | aside same status outbox => exact status.trans failed
  | paused was =>
      rw [failed] at was
      cases was
  | resumed was role =>
      rw [failed] at was
      cases was
  | resumedSending was role next =>
      rw [failed] at was
      cases was
  | next same status outbox next => exact idle (status.trans failed) next

/-- The file in hand has been sent to its end, or is the last one. -/
def sentWhole (s : TransferSession B) : Bool :=
  s.sendManifest.items.length ≤ s.currentFileIndex.toNat + 1 ∨
    s.metrics.currentFileTransferred = s.metrics.currentFileSize

/-- The place to resume at is within its file and is the one that the total says. -/
def inPlace (s : TransferSession B) (msg : MsgTransferResume) : Bool :=
  match s.sendManifest.items[msg.fileIndex.toNat]? with
  | some item =>
      sizeBefore s.sendManifest.items msg.fileIndex.toNat + msg.resumeOffset.toNat =
          s.metrics.totalTransferred.toNat ∧
        msg.resumeOffset ≤ item.fileSize
  | none => true

private theorem Exact.accepted {s t : TransferSession B} (h : Exact s)
    (absent : s.fileReader = none) (start : StartFile J s.begin 0 0 t) :
    Exact t ∨ (s.connected = false ∧ t.status = .Failed) := by
  have begun : Exact s.begin := h.keep rfl rfl rfl rfl rfl rfl rfl
  refine begun.startFile ?_ ?_ ?_ start
  · intro item _
    refine ⟨?_, by simp⟩
    show _ = s.metrics.totalTransferred.toNat
    rw [(h.fresh absent).2.1]
    simp
  · intro _ reader found
    rw [show s.begin.fileReader = s.fileReader from rfl, absent] at found
    cases found
  · intro none _
    simpa using none

private theorem Exact.acked {s t : TransferSession B} {ack : MsgFileAck} {reader : FileReader B}
    (h : Exact s) (found : s.fileReader = some reader) (ended : sentWhole s = true)
    (start : StartFile J ((s.ackReceived ack).closeReader reader) (s.currentFileIndex + 1) 0 t) :
    Exact t ∨ (s.connected = false ∧ t.status = .Failed) := by
  obtain ⟨item, inside, size, within, -⟩ := h.entered reader found
  have bound := (List.getElem?_eq_some_iff.mp inside).1
  have short := h.unchanged.short
  have index : (s.currentFileIndex + 1).toNat = s.currentFileIndex.toNat + 1 := by
    rw [UInt64.toNat_add]
    exact Nat.mod_eq_of_lt (show s.currentFileIndex.toNat + 1 < 2 ^ 64 by omega)
  have closed : Exact ((s.ackReceived ack).closeReader reader) := by
    refine ⟨h.role, h.chunkSize, h.unchanged, h.totalBytes, h.total, ?_, ?_⟩
    · intro reader' eq
      cases eq
      exact ⟨item, inside, size, within, (fun isOpen => by cases isOpen)⟩
    · intro none
      cases none
  refine closed.startFile ?_ ?_ ?_ start
  · intro next following
    have more := (List.getElem?_eq_some_iff.mp following).1
    have more' : s.currentFileIndex.toNat + 1 < s.sendManifest.items.length := by
      rwa [index] at more
    have sent : s.metrics.currentFileTransferred = s.metrics.currentFileSize := by
      rcases of_decide_eq_true ended with last | sent
      · omega
      · exact sent
    refine ⟨?_, by simp⟩
    show sizeBefore s.sendManifest.items _ + _ = s.metrics.totalTransferred.toNat
    rw [index, sizeBefore_succ inside, h.total, sent, size]
    simp
  · intro last reader' eq
    cases eq
    refine ⟨rfl, ?_⟩
    rwa [index] at last
  · intro _ none
    cases none

private theorem Exact.resumed {s t : TransferSession B} {msg : MsgTransferResume} (h : Exact s)
    (index : msg.fileIndex = 0) (place : inPlace s msg = true)
    (start : StartFile J (s.setStatus .Transferring) msg.fileIndex msg.resumeOffset t) :
    Exact t ∨ (s.connected = false ∧ t.status = .Failed) := by
  have running : Exact (s.setStatus .Transferring) := h.keep rfl rfl rfl rfl rfl rfl rfl
  have none : s.sendManifest.items.length ≤ msg.fileIndex.toNat →
      s.sendManifest.items.length = 0 := by
    rw [index]
    simp
  refine running.startFile ?_ ?_ ?_ start
  · intro item found
    have found' : s.sendManifest.items[msg.fileIndex.toNat]? = some item := found
    rw [inPlace, found'] at place
    exact of_decide_eq_true place
  · intro done reader found
    obtain ⟨item, inside, -⟩ := h.entered reader found
    have bound := (List.getElem?_eq_some_iff.mp inside).1
    have := none done
    omega
  · intro done _
    exact none done

/-- What a sender makes of a packet keeps the counters exact, if a positive acknowledgement comes
at the end of a file and a resumption is in place. -/
theorem Exact.packet {s t : TransferSession B} {p : Packet} (h : Exact s)
    (move : SenderMove J s p t) (honest : Link.FromReceiver J p)
    (opening : p.type = .TransferAccept → s.fileReader = none ∧
      ∀ msg, parseTransferAccept J p.payload = some msg → msg.resumeOffset = 0)
    (whole : ∀ ack, p.type = .FileAck → parseFileAck p.payload = some ack →
      ack.statusCode = 0 → sentWhole s = true)
    (resumption : ∀ msg, p.type = .TransferResume →
      parseTransferResume J p.payload = some msg → inPlace s msg = true) :
    Exact t ∨ (s.connected = false ∧ t.status = .Failed) := by
  cases move with
  | ignored => exact .inl h
  | accepted parsed start =>
      obtain ⟨absent, zero⟩ := opening rfl
      rw [honest.2.1 rfl _ parsed, zero _ parsed] at start
      exact h.accepted absent start
  | acked parsed ok found start => exact h.acked found (whole _ rfl parsed ok) start
  | nacked parsed bad => exact .inl (h.keep rfl rfl rfl rfl rfl rfl rfl)
  | paused => exact .inl (h.keep rfl rfl rfl rfl rfl rfl rfl)
  | resumed parsed start =>
      exact h.resumed (honest.2.2 rfl _ parsed) (resumption _ rfl parsed) start

end TransferSession

namespace Link

open TransferSession
open QString (literal)

variable {B : Blake3} {J : QJson}

/-- A positive acknowledgement that is about to be handled comes at the end of a file, and a
resumption is in place. -/
def onTrack (J : QJson) (l : Link B) : Duplex.Move LocalEvent → Bool
  | .toLeft =>
      match l.toLeft with
      | p :: _ => l.left.deaf || !decide p.Acceptable ||
          ((p.type ≠ .FileAck ||
              match parseFileAck p.payload with
              | some ack => ack.statusCode ≠ 0 || sentWhole l.left.session
              | none => true) &&
            (p.type ≠ .TransferResume ||
              match parseTransferResume J p.payload with
              | some msg => inPlace l.left.session msg
              | none => true))
      | [] => true
  | _ => true

/-- The counters are exact, or the sender has lost its connection and failed. -/
private structure Counting (J : QJson) (l : Link B) : Prop where
  online : l.left.deaf = false → l.left.session.connected = true
  sender : Exact l.left.session ∨ (l.left.deaf = true ∧ l.left.session.status = .Failed)
  receiver : Receiving l.right.session
  toRight : ∀ p ∈ l.toRight, p.type ∈ senderTypes
  toLeft : ∀ p ∈ l.toLeft, FromReceiver J p
  opening : ∀ p ∈ l.toLeft, p.type = .TransferAccept → l.left.session.fileReader = none ∧
    ∀ msg, parseTransferAccept J p.payload = some msg → msg.resumeOffset = 0
  later : ∀ p ∈ l.toLeft.tail, p.type ≠ .TransferAccept

private theorem Counting.append {l : Link B} (h : Counting J l) {E : Endpoint B}
    {toRight out : List Packet} (receiver : Receiving E.session)
    (types : ∀ p ∈ toRight, p.type ∈ senderTypes) (honest : ∀ p ∈ out, FromReceiver J p)
    (other : ∀ p ∈ out, p.type ≠ .TransferAccept) :
    Counting J { l with right := E, toRight := toRight, toLeft := l.toLeft ++ out } where
  online := h.online
  sender := h.sender
  receiver := receiver
  toRight := types
  toLeft := List.forall_mem_append.mpr ⟨h.toLeft, honest⟩
  opening := by
    refine List.forall_mem_append.mpr ⟨h.opening, ?_⟩
    intro p mem type
    exact absurd type (other p mem)
  later := by
    intro p mem
    have later := h.later
    dsimp only at mem
    cases queue : l.toLeft with
    | nil =>
        rw [queue] at mem
        exact other p (List.mem_of_mem_tail mem)
    | cons first rest =>
        rw [queue] at mem later
        rcases List.mem_append.mp mem with earlier | new
        · exact later p earlier
        · exact other p new

private theorem onTrack_next {l : Link B} {p : Packet} {rest : List Packet}
    (pending : l.toLeft = p :: rest) (hears : l.left.deaf = false) (acceptable : p.Acceptable)
    (allowed : onTrack J l .toLeft = true) :
    (∀ ack, p.type = .FileAck → parseFileAck p.payload = some ack → ack.statusCode = 0 →
        sentWhole l.left.session = true) ∧
      ∀ msg, p.type = .TransferResume → parseTransferResume J p.payload = some msg →
        inPlace l.left.session msg = true := by
  simp only [onTrack, pending, hears, acceptable, decide_true, Bool.not_true, Bool.or_self,
    Bool.false_or, Bool.and_eq_true, Bool.or_eq_true, decide_eq_true_eq] at allowed
  obtain ⟨acks, resumptions⟩ := allowed
  constructor
  · intro ack type parsed ok
    rcases acks with other | good
    · exact absurd type other
    · simpa [parsed, ok] using good
  · intro msg type parsed
    rcases resumptions with other | good
    · exact absurd type other
    · simpa [parsed] using good

section Moves

variable {l : Link B} {E : Endpoint B} {out : List Packet}

private theorem Counting.left {e : LocalEvent} (h : Counting J l)
    (acted : act J l.left e = .ok (E, out)) :
    Counting J { l with left := E, toRight := l.toRight ++ out } := by
  obtain ⟨t, -, step, rfl, rfl⟩ := act_ok acted
  refine ⟨?_, ?_, h.receiver, List.forall_mem_append.mpr ⟨h.toRight, step.types⟩, h.toLeft, ?_,
    h.later⟩
  · intro hears
    exact step.keeps.2.trans (h.online hears)
  · rcases h.sender with exact' | ⟨deaf, failed⟩
    · rcases exact'.local step with exact' | ⟨lost, failed⟩
      · exact .inl exact'
      · refine .inr ⟨?_, failed⟩
        by_contra hears
        rw [h.online (by simpa using hears)] at lost
        cases lost
    · exact .inr ⟨deaf, step.failed failed⟩
  · intro p mem type
    obtain ⟨absent, zero⟩ := h.opening p mem type
    exact ⟨step.noReader absent, zero⟩

private theorem Counting.right {e : LocalEvent} (h : Counting J l)
    (acted : act J l.right e = .ok (E, out)) :
    Counting J { l with right := E, toLeft := l.toLeft ++ out } := by
  obtain ⟨t, -, step, rfl, rfl⟩ := act_ok acted
  obtain ⟨receiver, sent⟩ := h.receiver.local step
  refine h.append receiver h.toRight sent ?_
  intro p mem
  have type := (receiver_local_sends h.receiver.role h.receiver.noReader step).sentSince.2 p mem
  simp only [List.mem_cons, List.not_mem_nil, or_false] at type
  rcases type with type | type <;> simp [type]

private theorem Counting.heardRight {p : Packet} {rest : List Packet} (h : Counting J l)
    (pending : l.toRight = p :: rest) (received : receive J l.right p = .ok (E, out)) :
    Counting J { l with right := E, toRight := rest, toLeft := l.toLeft ++ out } := by
  have types : ∀ q ∈ p :: rest, q.type ∈ senderTypes := pending ▸ h.toRight
  obtain ⟨first, remaining⟩ := List.forall_mem_cons.mp types
  rcases receive_ok received with ⟨-, rfl, rfl⟩ | ⟨-, -, t, step, rfl, rfl⟩
  · exact h.append h.receiver.refuse remaining (List.forall_mem_nil _) (List.forall_mem_nil _)
  · have move := receiver_move h.receiver.role step first
    obtain ⟨receiver, sent⟩ := h.receiver.packet (J := J) move
    refine h.append receiver remaining sent ?_
    intro q mem
    have type := List.mem_singleton.mp (move.sends.sentSince.2 q mem)
    simp [type]

private theorem Counting.taken {p : Packet} {rest : List Packet} (h : Counting J l)
    (pending : l.toLeft = p :: rest) (types : ∀ q ∈ out, q.type ∈ senderTypes)
    (online : E.deaf = false → E.session.connected = true)
    (sender : Exact E.session ∨ (E.deaf = true ∧ E.session.status = .Failed)) :
    Counting J { l with left := E, toLeft := rest, toRight := l.toRight ++ out } := by
  have later : ∀ q ∈ rest, q.type ≠ .TransferAccept := by
    have later := h.later
    rwa [pending] at later
  have honest : ∀ q ∈ p :: rest, FromReceiver J q := pending ▸ h.toLeft
  refine ⟨online, sender, h.receiver, List.forall_mem_append.mpr ⟨h.toRight, types⟩,
    (List.forall_mem_cons.mp honest).2, ?_, ?_⟩
  · intro q mem type
    exact absurd type (later q mem)
  · intro q mem
    exact later q (List.mem_of_mem_tail mem)

private theorem Counting.heardLeft {p : Packet} {rest : List Packet} (h : Counting J l)
    (allowed : onTrack J l .toLeft = true) (pending : l.toLeft = p :: rest)
    (received : receive J l.left p = .ok (E, out)) :
    Counting J { l with left := E, toLeft := rest, toRight := l.toRight ++ out } := by
  rcases receive_ok received with ⟨-, rfl, rfl⟩ | ⟨hears, acceptable, t, step, rfl, rfl⟩
  · refine h.taken pending (List.forall_mem_nil _) (fun hears => by cases hears) ?_
    rcases h.sender with exact' | ⟨-, failed⟩
    · exact .inl exact'.refuse
    · refine .inr ⟨rfl, ?_⟩
      rcases (refuse_frame l.left.session).2.2 with still | again
      · exact still.trans failed
      · exact again
  · obtain exact' | ⟨deaf, -⟩ := h.sender
    · have first : p ∈ l.toLeft := by
        rw [pending]
        exact List.mem_cons_self
      have honest := h.toLeft p first
      have move := sender_move exact'.role step honest.1
      obtain ⟨whole, resumption⟩ := onTrack_next pending hears acceptable allowed
      refine h.taken pending move.sends.sentSince.2 ?_ ?_
      · intro hears
        exact move.sameReceiver.connected.trans (h.online hears)
      · rcases exact'.packet move honest (h.opening p first) whole resumption with kept | ⟨lost, -⟩
        · exact .inl kept
        · rw [h.online hears] at lost
          cases lost
    · rw [hears] at deaf
      cases deaf

end Moves

private theorem counting_run {start l : Link B} {moves : List (Duplex.Move LocalEvent)}
    (run : Run (Guarded (Steps J) fun l move => onTrack J l move = true) start moves l)
    (initial : Counting J start) : Counting J l := by
  refine Duplex.invariant (Counting J) ?_ ?_ ?_ ?_ run initial
  · intro d e E out h _ acted
    exact h.left acted
  · intro d e E out h _ acted
    exact h.right acted
  · intro d p rest E out h _ pending received
    exact h.heardRight pending received
  · intro d p rest E out h allowed pending received
    exact h.heardLeft allowed pending received

structure Enumerated (s : TransferSession B) : Prop where
  metrics : s.metrics =
    { totalFiles := s.sendManifest.totalFiles, totalBytes := s.sendManifest.totalBytes }
  unchanged : s.sendManifest.Unchanged s.disk

private theorem counting_start {l : Link B} (h : Start J l)
    (enumerated : Enumerated l.left.session) : Counting J l where
  online := fun _ => h.offered.connected
  sender := by
    left
    refine ⟨h.offered.direction, h.offered.chunkSize, enumerated.unchanged, ?_, ?_, ?_, ?_⟩
    · rw [enumerated.metrics]
    · rw [enumerated.metrics, h.offered.currentFileIndex]
      simp
    · rw [h.offered.fileReader]
      intro reader found
      cases found
    · intro _
      rw [enumerated.metrics]
      exact ⟨h.offered.currentFileIndex, rfl, rfl⟩
  receiver := receiving_accepted h.accepted
  toRight := by
    rw [h.toRight]
    exact List.forall_mem_nil _
  toLeft := by
    rw [h.toLeft]
    exact List.forall_mem_singleton.mpr (fromReceiver_acceptance J _)
  opening := by
    rw [h.toLeft]
    intro p mem _
    rw [List.mem_singleton.mp mem]
    refine ⟨h.offered.fileReader, ?_⟩
    intro msg parsed
    obtain ⟨read, eq, -, -, offset⟩ := parseTransferAccept_serialize J
      ⟨l.right.session.transferId, l.right.session.localDeviceName, true, 0, 0⟩
    dsimp only [acceptance] at parsed
    rw [eq] at parsed
    cases parsed
    exact offset
  later := by
    rw [h.toLeft]
    exact List.forall_mem_nil _

/-- If positive acknowledgements come at the end of a file and resumptions are in place, the
counters of the sender are exact whenever it is transferring or paused. -/
theorem progress_exact_on_track (J : QJson) {start l : Link B}
    {moves : List (Duplex.Move LocalEvent)} (initial : Start J start)
    (enumerated : Enumerated start.left.session)
    (run : Run (Guarded (Steps J) fun l move => onTrack J l move = true) start moves l)
    (status : l.left.session.status = .Transferring ∨ l.left.session.status = .Paused) :
    ProgressExact l.left.session := by
  have counting := counting_run run (counting_start initial enumerated)
  rcases counting.sender with exact' | ⟨-, failed⟩
  · exact exact'.progress
  · rw [failed] at status
    rcases status with other | other <;> cases other

/-- Two files of which the first is resumed behind its first byte, with nothing under way. -/
theorem progress_exact_on_track_resumed :
    ∃ l : Link Blake3.vendored, l.left.session.status = .Transferring ∧
      l.left.session.metrics.totalTransferred = 2 ∧ ProgressExact l.left.session := by
  let start := sending [(literal "x", [7, 8]), (literal "y", [9])] 1 .Rename
  let moves : List (Duplex.Move LocalEvent) :=
    [.toLeft, .toRight, .toRight, .right .pause, .right .resume, .toLeft, .toLeft]
  have computed : (moves.foldlM (tryGuarded (onTrack CompactJson.codec)) start).map (fun l =>
      (l.left.session.status, l.left.session.metrics.totalTransferred)) =
        some (.Transferring, 2) := by
    decide +kernel
  obtain ⟨l, reached, eq⟩ := Option.map_eq_some_iff.mp computed
  obtain ⟨status, total⟩ := Prod.mk.inj eq
  refine ⟨l, status, total, progress_exact_on_track CompactJson.codec (start_accepted ..) ?_
    (run_tryGuarded reached) (.inl status)⟩
  refine ⟨rfl, by decide, ?_, by decide⟩
  intro item mem
  rcases mem with _ | ⟨_, mem⟩
  · exact ⟨⟨by decide, rfl, rfl, by decide⟩, by decide⟩
  · cases List.mem_singleton.mp mem
    exact ⟨⟨by decide, rfl, rfl, by decide⟩, by decide⟩

/-- The receiver pauses and resumes while the first byte is under way: the sender goes back to the
start of the file and counts it again. -/
theorem progress_counted_twice :
    ∃ l : Link Blake3.vendored, Run (Steps CompactJson.codec)
      (sending [(literal "x", [7, 8])] 1 .Rename)
      [.toLeft, .right .pause, .right .resume, .toLeft, .toLeft, .left .sendNextChunk] l ∧
      (l.left.session.status, l.left.session.currentFileIndex,
        l.left.session.metrics.currentFileTransferred, l.left.session.metrics.totalTransferred,
        l.left.session.metrics.totalBytes) = (.Transferring, 0, 2, 3, 2) ∧
      ¬ ProgressExact l.left.session := by
  have computed : ([.toLeft, .right .pause, .right .resume, .toLeft, .toLeft,
      .left .sendNextChunk].foldlM tryStep (sending [(literal "x", [7, 8])] 1 .Rename)).map
      (fun l => (l.left.session.status, l.left.session.currentFileIndex,
        l.left.session.metrics.currentFileTransferred, l.left.session.metrics.totalTransferred,
        l.left.session.metrics.totalBytes)) = some (.Transferring, 0, 2, 3, 2) := by
    decide +kernel
  obtain ⟨l, reached, eq⟩ := Option.map_eq_some_iff.mp computed
  refine ⟨l, Run.of_foldlM (fun _ _ _ => tryStep_sound) reached, eq, ?_⟩
  intro progress
  obtain ⟨-, -, -, total, totalBytes⟩ : _ ∧ _ ∧ _ ∧ _ ∧ _ := by simpa using eq
  have bound := progress.bound
  rw [total, totalBytes] at bound
  revert bound
  decide

end Link

end FastTransfer
