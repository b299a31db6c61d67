/- FastTransfer/Core/SenderSteps
   source: src/core/TransferSession.cpp
   digest: All that the sending half of a session can do, said once. -/

import FastTransfer.Core.TransferSession

set_option autoImplicit false
set_option relaxedAutoImplicit false

namespace FastTransfer.TransferSession

open Protocol

variable {B : Blake3}

/-- The guard of `sendNextChunk`, less flow control. -/
structure Active (s : TransferSession B) (reader : FileReader B) : Prop where
  found : s.fileReader = some reader
  transferring : s.status = .Transferring
  notWaiting : s.waitingFileAck = false

def afterRead (self : TransferSession B) (reader : FileReader B) : TransferSession B :=
  { self with fileReader := some (reader.readNextChunk self.disk).2 }

inductive NextChunk (self : TransferSession B) : TransferSession B → Prop
  | idle : NextChunk self self
  | fileEnd (reader : FileReader B) (active : Active self reader)
      (ended : reader.isAtEnd = true) : NextChunk self (self.sendFileEnd reader)
  | readFailed (reader : FileReader B) (active : Active self reader)
      (ended : reader.isAtEnd = false) (empty : (reader.readNextChunk self.disk).1 = []) :
      NextChunk self
        ((self.afterRead reader).fail (readError (reader.readNextChunk self.disk).2))
  | sendFailed (reader : FileReader B) (active : Active self reader)
      (lost : self.connected = false) :
      NextChunk self ((self.afterRead reader).fail transmitError)
  | chunk (reader : FileReader B) (active : Active self reader)
      (ended : reader.isAtEnd = false) (nonempty : (reader.readNextChunk self.disk).1 ≠ [])
      (online : self.connected = true) (payload : QByteArray)
      (written : serializeFileDataChunk
        ⟨self.currentFileIndex, reader.currentOffset,
          UInt32.ofNat (reader.readNextChunk self.disk).1.length,
          (reader.readNextChunk self.disk).1⟩ = some payload) :
      NextChunk self
        ((self.afterRead reader).chunkSent payload (reader.readNextChunk self.disk).1.length)

private theorem readNextChunk_empty {reader : FileReader B} {d : Disk}
    (h : (reader.readNextChunk d).1 = []) :
    (reader.readNextChunk d).2.isAtEnd = reader.isAtEnd := by
  simp only [FileReader.readNextChunk] at h ⊢
  split
  · rfl
  · rename_i ready
    split
    · rfl
    · rename_i nonempty
      rw [if_neg ready, if_neg nonempty] at h
      exact absurd h nonempty

theorem sendNextChunk_outcome (self : TransferSession B) :
    self.sendNextChunk = .error .chunkOverrun ∨
      ∃ next, self.sendNextChunk = .ok next ∧ NextChunk self next := by
  cases found : self.fileReader with
  | none => exact .inr ⟨self, by rw [sendNextChunk, found], .idle⟩
  | some reader =>
      simp only [sendNextChunk, found]
      split
      · exact .inr ⟨self, rfl, .idle⟩
      · rename_i guard
        have transferring : self.status = .Transferring := by
          by_contra other
          exact guard (.inl other)
        have notWaiting : self.waitingFileAck = false := by
          simpa using fun waiting => guard (.inr waiting)
        have active : Active self reader := ⟨found, transferring, notWaiting⟩
        split
        · exact .inr ⟨self, rfl, .idle⟩
        split
        · rename_i ended
          exact .inr ⟨_, rfl, .fileEnd reader active ended⟩
        · rename_i notEnded
          have ended : reader.isAtEnd = false := by simpa using notEnded
          split
          · rename_i failed
            exact .inr ⟨_, rfl, .readFailed reader active ended failed.1⟩
          · rename_i read
            have nonempty : (reader.readNextChunk self.disk).1 ≠ [] := by
              intro empty
              exact read ⟨empty, by rw [readNextChunk_empty empty, ended]; rfl⟩
            simp only [sendChunk]
            split
            · exact .inl rfl
            · rename_i payload written
              split
              · rename_i lost
                exact .inr ⟨_, rfl, .sendFailed reader active (by simpa using lost)⟩
              · rename_i online
                exact .inr ⟨_, rfl,
                  .chunk reader active ended nonempty (by simpa using online) payload written⟩

theorem sendNextChunk_cases {self next : TransferSession B} (h : self.sendNextChunk = .ok next) :
    NextChunk self next := by
  rcases sendNextChunk_outcome self with e | ⟨other, eq, cases⟩
  · rw [e] at h
    cases h
  · rw [eq] at h
    cases h
    exact cases

theorem sendNextChunk_error {self : TransferSession B} {c : Crash}
    (h : self.sendNextChunk = .error c) : c = .chunkOverrun := by
  rcases sendNextChunk_outcome self with e | ⟨other, eq, _⟩
  · rw [e] at h
    cases h
    rfl
  · rw [eq] at h
    cases h

def started (self : TransferSession B) (fileIndex startOffset : UInt64) (item : LocalFileItem) :
    TransferSession B :=
  { self.enterFile fileIndex item startOffset with
    fileReader := some ((FileReader.new B self.chunkSize).open self.disk item.sourceAbsolutePath
      startOffset).2
    waitingFileAck := false }
  |>.sendPacket .FileStart
    (serializeFileStart
      ⟨self.transferId, fileIndex, item.relativePath, item.fileSize, item.modifiedTime,
        item.blake3Checksum⟩)

def unopened (self : TransferSession B) (fileIndex startOffset : UInt64) (item : LocalFileItem) :
    TransferSession B :=
  let reader := ((FileReader.new B self.chunkSize).open self.disk item.sourceAbsolutePath
    startOffset).2
  { self.enterFile fileIndex item startOffset with fileReader := some reader }
  |>.fail (openError reader)

inductive StartFile (J : QJson) (self : TransferSession B) (fileIndex startOffset : UInt64) :
    TransferSession B → Prop
  | finished (done : self.sendManifest.items.length ≤ fileIndex.toNat) :
      StartFile J self fileIndex startOffset (finishSending J self)
  | unopened (item : LocalFileItem) (found : self.sendManifest.items[fileIndex.toNat]? = some item)
      (closed : ((FileReader.new B self.chunkSize).open self.disk item.sourceAbsolutePath
        startOffset).1 = false) :
      StartFile J self fileIndex startOffset (self.unopened fileIndex startOffset item)
  | started (item : LocalFileItem) (found : self.sendManifest.items[fileIndex.toNat]? = some item)
      (opened : ((FileReader.new B self.chunkSize).open self.disk item.sourceAbsolutePath
        startOffset).1 = true) (next : TransferSession B)
      (sent : NextChunk (self.started fileIndex startOffset item) next) :
      StartFile J self fileIndex startOffset next

theorem startSendingFile_item (J : QJson) (self : TransferSession B)
    {fileIndex : UInt64} (startOffset : UInt64) {item : LocalFileItem}
    (found : self.sendManifest.items[fileIndex.toNat]? = some item) :
    startSendingFile J self fileIndex startOffset =
      if ((FileReader.new B self.chunkSize).open self.disk item.sourceAbsolutePath
        startOffset).1 then (self.started fileIndex startOffset item).sendNextChunk
      else .ok (self.unopened fileIndex startOffset item) := by
  have inside : ¬ self.sendManifest.items.length ≤ fileIndex.toNat :=
    Nat.not_le.mpr (List.getElem?_eq_some_iff.mp found).1
  simp only [startSendingFile, if_neg inside, found]
  cases opened : ((FileReader.new B self.chunkSize).open self.disk item.sourceAbsolutePath
      startOffset).1 with
  | false =>
      have closed : ((FileReader.new B (self.enterFile fileIndex item startOffset).chunkSize).open
          (self.enterFile fileIndex item startOffset).disk item.sourceAbsolutePath
          startOffset).1 = false := opened
      rw [if_pos (by rw [closed]; rfl), if_neg (by decide)]
      rfl
  | true =>
      have open' : ((FileReader.new B (self.enterFile fileIndex item startOffset).chunkSize).open
          (self.enterFile fileIndex item startOffset).disk item.sourceAbsolutePath
          startOffset).1 = true := opened
      rw [if_neg (by rw [open']; decide), if_pos rfl]
      rfl

theorem startSendingFile_outcome (J : QJson) (self : TransferSession B)
    (fileIndex startOffset : UInt64) :
    startSendingFile J self fileIndex startOffset = .error .chunkOverrun ∨
      ∃ next, startSendingFile J self fileIndex startOffset = .ok next ∧
        StartFile J self fileIndex startOffset next := by
  by_cases done : self.sendManifest.items.length ≤ fileIndex.toNat
  · exact .inr ⟨_, by rw [startSendingFile, if_pos done], .finished done⟩
  · obtain ⟨item, found⟩ : ∃ item, self.sendManifest.items[fileIndex.toNat]? = some item :=
      ⟨_, List.getElem?_eq_getElem (Nat.lt_of_not_le done)⟩
    rw [startSendingFile_item J self startOffset found]
    split
    · rename_i opened
      rcases sendNextChunk_outcome (self.started fileIndex startOffset item) with
        e | ⟨next, eq, sent⟩
      · exact .inl e
      · exact .inr ⟨next, eq, .started item found opened next sent⟩
    · rename_i closed
      exact .inr ⟨_, rfl, .unopened item found (by simpa using closed)⟩

theorem startSendingFile_cases {J : QJson} {self next : TransferSession B}
    {fileIndex startOffset : UInt64}
    (h : startSendingFile J self fileIndex startOffset = .ok next) :
    StartFile J self fileIndex startOffset next := by
  rcases startSendingFile_outcome J self fileIndex startOffset with e | ⟨other, eq, cases⟩
  · rw [e] at h
    cases h
  · rw [eq] at h
    cases h
    exact cases

theorem startSendingFile_error {J : QJson} {self : TransferSession B}
    {fileIndex startOffset : UInt64} {c : Crash}
    (h : startSendingFile J self fileIndex startOffset = .error c) : c = .chunkOverrun := by
  rcases startSendingFile_outcome J self fileIndex startOffset with e | ⟨other, eq, _⟩
  · rw [e] at h
    cases h
    rfl
  · rw [eq] at h
    cases h

theorem onTransferAccept_cases {J : QJson} {self next : TransferSession B}
    {payload : QByteArray} (h : onTransferAccept J self payload = .ok next) :
    (next = self ∧ ∀ accept, parseTransferAccept J payload = some accept →
        accept.accepted = false) ∨
      ∃ accept, parseTransferAccept J payload = some accept ∧ accept.accepted = true ∧
        StartFile J self.begin accept.startFileIndex accept.resumeOffset next := by
  simp only [onTransferAccept] at h
  cases parsed : parseTransferAccept J payload with
  | none =>
      rw [parsed] at h
      cases h
      exact .inl ⟨rfl, fun accept eq => nomatch eq⟩
  | some accept =>
      rw [parsed] at h
      dsimp only at h
      by_cases yes : accept.accepted = true
      · rw [if_pos yes] at h
        exact .inr ⟨accept, rfl, yes, startSendingFile_cases h⟩
      · rw [if_neg yes] at h
        cases h
        refine .inl ⟨rfl, ?_⟩
        rintro other ⟨⟩
        simpa using yes

theorem onFileAck_cases {J : QJson} {self next : TransferSession B} {payload : QByteArray}
    (h : onFileAck J self payload = .ok next) :
    (next = self ∧ parseFileAck payload = none) ∨
      ∃ ack, parseFileAck payload = some ack ∧
        ((ack.statusCode ≠ 0 ∧
            next = (self.ackReceived ack).fail (verificationError ack.fileIndex)) ∨
          (ack.statusCode = 0 ∧ ∃ reader, self.fileReader = some reader ∧
            StartFile J ((self.ackReceived ack).closeReader reader) (self.currentFileIndex + 1)
              0 next)) := by
  simp only [onFileAck] at h
  cases parsed : parseFileAck payload with
  | none =>
      rw [parsed] at h
      cases h
      exact .inl ⟨rfl, rfl⟩
  | some ack =>
      rw [parsed] at h
      dsimp only at h
      refine .inr ⟨ack, rfl, ?_⟩
      by_cases ok : ack.statusCode = 0
      · rw [if_pos ok] at h
        cases found : self.fileReader with
        | none =>
            rw [found] at h
            cases h
        | some reader =>
            rw [found] at h
            exact .inr ⟨ok, reader, rfl, startSendingFile_cases h⟩
      · rw [if_neg ok] at h
        cases h
        exact .inl ⟨ok, rfl⟩

theorem onTransferResume_cases {J : QJson} {self next : TransferSession B}
    {payload : QByteArray} (h : onTransferResume J self payload = .ok next) :
    (next = self ∧ parseTransferResume J payload = none) ∨
      ∃ msg, parseTransferResume J payload = some msg ∧
        ((self.direction ≠ .Send ∧ next = self.setStatus .Transferring) ∨
          (self.direction = .Send ∧
            StartFile J (self.setStatus .Transferring) msg.fileIndex msg.resumeOffset next)) := by
  simp only [onTransferResume] at h
  cases parsed : parseTransferResume J payload with
  | none =>
      rw [parsed] at h
      cases h
      exact .inl ⟨rfl, rfl⟩
  | some msg =>
      rw [parsed] at h
      dsimp only at h
      refine .inr ⟨msg, rfl, ?_⟩
      by_cases send : self.direction = .Send
      · rw [if_pos (by exact send)] at h
        exact .inr ⟨send, startSendingFile_cases h⟩
      · rw [if_neg (by exact send)] at h
        cases h
        exact .inl ⟨send, rfl⟩

theorem resume_cases {J : QJson} {self next : TransferSession B}
    (h : resume J self = .ok next) :
    (self.status ≠ .Paused ∧ next = self) ∨
      (self.status = .Paused ∧
        ((self.direction ≠ .Send ∧ next = self.resumed J) ∨
          (self.direction = .Send ∧ NextChunk (self.resumed J) next))) := by
  simp only [resume] at h
  by_cases paused : self.status = .Paused
  · rw [if_pos paused] at h
    refine .inr ⟨paused, ?_⟩
    by_cases send : self.direction = .Send
    · rw [if_pos (by exact send)] at h
      exact .inr ⟨send, sendNextChunk_cases h⟩
    · rw [if_neg (by exact send)] at h
      cases h
      exact .inl ⟨send, rfl⟩
  · rw [if_neg paused] at h
    cases h
    exact .inl ⟨paused, rfl⟩

theorem onBytesTransferred_cases {self next : TransferSession B}
    (h : onBytesTransferred self = .ok next) : NextChunk self next := by
  simp only [onBytesTransferred] at h
  split at h
  · exact sendNextChunk_cases h
  · cases h
    exact .idle

structure SameReceiver (before after : TransferSession B) : Prop where
  direction : after.direction = before.direction
  ownsConnection : after.ownsConnection = before.ownsConnection
  transferId : after.transferId = before.transferId
  remoteDevice : after.remoteDevice = before.remoteDevice
  sendManifest : after.sendManifest = before.sendManifest
  chunkSize : after.chunkSize = before.chunkSize
  receivedOffer : after.receivedOffer = before.receivedOffer
  fileWriter : after.fileWriter = before.fileWriter
  baseOutputDir : after.baseOutputDir = before.baseOutputDir
  sessionSubfolder : after.sessionSubfolder = before.sessionSubfolder
  duplicatePolicy : after.duplicatePolicy = before.duplicatePolicy
  currentReceivingFileIndex : after.currentReceivingFileIndex = before.currentReceivingFileIndex
  expectedFileSize : after.expectedFileSize = before.expectedFileSize
  connected : after.connected = before.connected
  disk : after.disk = before.disk

theorem SameReceiver.refl (self : TransferSession B) : SameReceiver self self := by
  constructor <;> rfl

theorem SameReceiver.trans {s t u : TransferSession B} (first : SameReceiver s t)
    (second : SameReceiver t u) : SameReceiver s u where
  direction := second.direction.trans first.direction
  ownsConnection := second.ownsConnection.trans first.ownsConnection
  transferId := second.transferId.trans first.transferId
  remoteDevice := second.remoteDevice.trans first.remoteDevice
  sendManifest := second.sendManifest.trans first.sendManifest
  chunkSize := second.chunkSize.trans first.chunkSize
  receivedOffer := second.receivedOffer.trans first.receivedOffer
  fileWriter := second.fileWriter.trans first.fileWriter
  baseOutputDir := second.baseOutputDir.trans first.baseOutputDir
  sessionSubfolder := second.sessionSubfolder.trans first.sessionSubfolder
  duplicatePolicy := second.duplicatePolicy.trans first.duplicatePolicy
  currentReceivingFileIndex :=
    second.currentReceivingFileIndex.trans first.currentReceivingFileIndex
  expectedFileSize := second.expectedFileSize.trans first.expectedFileSize
  connected := second.connected.trans first.connected
  disk := second.disk.trans first.disk

theorem NextChunk.sameReceiver {self next : TransferSession B} (h : NextChunk self next) :
    SameReceiver self next := by
  cases h <;> constructor <;> rfl

theorem StartFile.sameReceiver {J : QJson} {self next : TransferSession B}
    {fileIndex startOffset : UInt64} (h : StartFile J self fileIndex startOffset next) :
    SameReceiver self next := by
  cases h with
  | finished => constructor <;> rfl
  | unopened item => constructor <;> rfl
  | started item found opened next sent =>
      have announced : SameReceiver self (self.started fileIndex startOffset item) := by
        constructor <;> rfl
      exact announced.trans sent.sameReceiver

def Sends (types : List MessageType) (before after : TransferSession B) : Prop :=
  ∃ sent : List Packet, after.outbox = before.outbox ++ sent ∧ ∀ p ∈ sent, p.type ∈ types

theorem Sends.refl (types : List MessageType) (s : TransferSession B) : Sends types s s :=
  ⟨[], (List.append_nil _).symm, fun _ hp => nomatch hp⟩

theorem Sends.trans {types : List MessageType} {s t u : TransferSession B}
    (first : Sends types s t) (second : Sends types t u) : Sends types s u := by
  obtain ⟨a, ha, hta⟩ := first
  obtain ⟨b, hb, htb⟩ := second
  refine ⟨a ++ b, by rw [hb, ha, List.append_assoc], fun p hp => ?_⟩
  rcases List.mem_append.mp hp with hp | hp
  · exact hta p hp
  · exact htb p hp

theorem Sends.mono {types more : List MessageType} {s t : TransferSession B}
    (h : Sends types s t) (sub : types ⊆ more) : Sends more s t := by
  obtain ⟨sent, eq, each⟩ := h
  exact ⟨sent, eq, fun p hp => sub (each p hp)⟩

theorem sends_sendPacket (s : TransferSession B) (type : MessageType) (payload : QByteArray) :
    Sends [type] s (s.sendPacket type payload) := by
  unfold sendPacket Sends
  dsimp only
  split
  · refine ⟨[⟨type, 0, payload⟩], rfl, fun p hp => ?_⟩
    rw [List.mem_singleton.mp hp]
    exact List.mem_cons_self
  · exact Sends.refl _ s

theorem sendPacket_outbox {s : TransferSession B} (connected : s.connected = true)
    (type : MessageType) (payload : QByteArray) :
    (s.sendPacket type payload).outbox = s.outbox ++ [⟨type, 0, payload⟩] := by
  rw [sendPacket]
  simp [connected]

theorem NextChunk.sends {self next : TransferSession B} (h : NextChunk self next) :
    Sends [.FileDataChunk, .FileEnd] self next := by
  cases h with
  | idle => exact .refl _ self
  | fileEnd reader => exact (sends_sendPacket self .FileEnd _).mono (by simp)
  | readFailed reader => exact .refl _ self
  | sendFailed reader => exact .refl _ self
  | chunk reader => exact (sends_sendPacket self .FileDataChunk _).mono (by simp)

theorem StartFile.sends {J : QJson} {self next : TransferSession B}
    {fileIndex startOffset : UInt64} (h : StartFile J self fileIndex startOffset next) :
    Sends [.FileStart, .FileDataChunk, .FileEnd, .TransferComplete] self next := by
  cases h with
  | finished => exact (sends_sendPacket self .TransferComplete _).mono (by simp)
  | unopened item => exact .refl _ self
  | started item found opened next sent =>
      have announced : Sends [.FileStart] self (self.started fileIndex startOffset item) :=
        sends_sendPacket self .FileStart _
      exact (announced.mono (by simp)).trans (sent.sends.mono (by simp))

end FastTransfer.TransferSession
