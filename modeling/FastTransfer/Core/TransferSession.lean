/- FastTransfer/Core/TransferSession
   source: src/core/TransferTypes.h, src/core/TransferSession.h, src/core/TransferSession.cpp,
     src/filesystem/FileEnumerator.h
   digest: The transfer session: its state and every handler. -/

import FastTransfer.Filesystem.FileWriter
import FastTransfer.Library.Transition
import FastTransfer.Network.Protocol

set_option autoImplicit false
set_option relaxedAutoImplicit false

namespace FastTransfer

open QString (literal)
open Protocol

inductive TransferStatus
  | Idle | Connecting | Handshaking | Offering | WaitingApproval | Transferring | Paused
  | Completed | Failed | Cancelled
  deriving DecidableEq

inductive TransferDirection
  | Send | Receive
  deriving DecidableEq

/-- The integral fields; speeds, times and ratios are display only. -/
structure TransferMetrics where
  currentFileTransferred : UInt64 := 0
  currentFileSize : UInt64 := 0
  totalTransferred : UInt64 := 0
  totalBytes : UInt64 := 0
  currentFileIndex : UInt64 := 0
  totalFiles : UInt64 := 0
  currentFileName : QString := []
  deriving DecidableEq

structure LocalFileItem where
  fileIndex : UInt64 := 0
  sourceAbsolutePath : QString := []
  relativePath : QString := []
  fileSize : UInt64 := 0
  modifiedTime : UInt64 := 0
  blake3Checksum : QString := []
  deriving DecidableEq

structure FileManifest where
  totalFiles : UInt64 := 0
  totalBytes : UInt64 := 0
  items : List LocalFileItem := []
  deriving DecidableEq

def FileManifest.toProtocolItems (self : FileManifest) : List ManifestItem :=
  self.items.map fun it =>
    ⟨it.fileIndex, it.relativePath, it.fileSize, it.modifiedTime, it.blake3Checksum⟩

/-- The signals of a session, less the speed samples. -/
inductive Signal
  | statusChanged (status : TransferStatus)
  | metricsUpdated (metrics : TransferMetrics)
  | incomingOfferReceived (transferId senderDevice : QString) (totalFiles totalBytes : UInt64)
  | fileStarted (fileIndex : UInt64) (relativePath : QString) (fileSize : UInt64)
  | fileCompleted (fileIndex : UInt64) (relativePath : QString) (verified : Bool)
  | transferCompleted
  | transferFailed (errorMessage : QString)
  deriving DecidableEq

/-- The undefined behaviour a handler may run into. -/
inductive Crash
  | absentReader
  | absentWriter
  | itemIndex
  | chunkOverrun
  deriving DecidableEq

/-- The members of the session, with what it reaches outside: the socket (whether it is
connected, its pending bytes, and every packet written to it), the queued calls of
`sendNextChunk`, the signals emitted so far, and the host's disk. -/
structure TransferSession (B : Blake3) where
  direction : TransferDirection
  status : TransferStatus := .Idle
  ownsConnection : Bool := true
  transferId : QString := []
  localDeviceName : QString := []
  remoteDevice : QString := []
  sendManifest : FileManifest := {}
  fileReader : Option (FileReader B) := none
  chunkSize : UInt32 := DEFAULT_CHUNK_SIZE
  currentFileIndex : UInt64 := 0
  waitingFileAck : Bool := false
  receivedOffer : Option MsgTransferOffer := none
  fileWriter : Option (FileWriter B) := none
  baseOutputDir : QString := []
  sessionSubfolder : QString := []
  duplicatePolicy : DuplicatePolicy := .Rename
  currentReceivingFileIndex : UInt64 := 0
  expectedFileSize : UInt64 := 0
  expectedFileChecksum : QString := []
  metrics : TransferMetrics := {}
  sessionTimer : Bool := false
  connected : Bool := false
  bytesToWrite : Nat := 0
  outbox : List Packet := []
  queuedCalls : Nat := 0
  signals : List Signal := []
  disk : Disk

namespace TransferSession

variable {B : Blake3}

def new (B : Blake3) (direction : TransferDirection) (transferId : QString) (disk : Disk) :
    TransferSession B :=
  { direction := direction, transferId := transferId, disk := disk }

/-- The constructor for an accepted connection, whose `connected` signal is not wired. -/
def fromConnection (B : Blake3) (transferId : QString) (disk : Disk) : TransferSession B :=
  { direction := .Receive, status := .Handshaking, ownsConnection := false,
    transferId := transferId, connected := true, signals := [.statusChanged .Handshaking],
    disk := disk }

def emit (self : TransferSession B) (signal : Signal) : TransferSession B :=
  { self with signals := self.signals ++ [signal] }

def setStatus (self : TransferSession B) (newStatus : TransferStatus) : TransferSession B :=
  { self with
    status := newStatus
    signals :=
      if self.status ≠ newStatus then self.signals ++ [.statusChanged newStatus]
      else self.signals }

/-- `m_connection->sendPacket`, which fails unless connected; a connected socket buffers
everything. -/
def sendPacket (self : TransferSession B) (type : MessageType) (payload : QByteArray) :
    TransferSession B :=
  { self with
    outbox := if self.connected then self.outbox ++ [⟨type, 0, payload⟩] else self.outbox
    bytesToWrite :=
      if self.connected then self.bytesToWrite + (kHeaderSize + payload.length)
      else self.bytesToWrite }

/-- `m_connection->disconnectFromHost()`. Where the socket disconnects at once its handler finds
the status changed already and does nothing. -/
def disconnectFromHost (self : TransferSession B) : TransferSession B :=
  { self with connected := false }

def fail (self : TransferSession B) (errorMessage : QString) : TransferSession B :=
  (self.setStatus .Failed).emit (.transferFailed errorMessage)

/-- The common end of both sides: status, metrics and signals of a completed transfer. -/
def complete (self : TransferSession B) : TransferSession B :=
  let self := self.setStatus .Completed
  let metrics :=
    { self.metrics with
      currentFileTransferred := self.metrics.currentFileSize
      totalTransferred := self.metrics.totalBytes }
  { self with
    metrics := metrics
    signals := self.signals ++ [.metricsUpdated metrics, .transferCompleted] }

/-- Both sides when the transfer is accepted. -/
def begin (self : TransferSession B) : TransferSession B :=
  { self.setStatus .Transferring with sessionTimer := true }

/-! The sender. -/

def startSend (self : TransferSession B) (manifest : FileManifest) (localDeviceName : QString)
    (chunkSize : UInt32) : TransferSession B :=
  { self with
    sendManifest := manifest
    localDeviceName := localDeviceName
    chunkSize := if 0 < chunkSize then chunkSize else DEFAULT_CHUNK_SIZE
    currentFileIndex := 0
    metrics := { totalFiles := manifest.totalFiles, totalBytes := manifest.totalBytes } }
  |>.setStatus .Connecting

/-- `std::max<qint64>(static_cast<qint64>(m_chunkSize * 2), 16 * 1024 * 1024)`. -/
def maxPending (self : TransferSession B) : Nat := max (self.chunkSize * 2).toNat (16 * 1024 * 1024)

def sendFileEnd (self : TransferSession B) (reader : FileReader B) : TransferSession B :=
  { self with waitingFileAck := true, fileReader := some reader.finalizeBlake3.2 }
  |>.sendPacket .FileEnd
    (serializeFileEnd ⟨self.currentFileIndex, reader.finalizeBlake3.1⟩)

def readError (reader : FileReader B) : QString :=
  literal "Error reading file: " ++ reader.errorString

def transmitError : QString := literal "Network socket error: Failed to transmit data chunk"

/-- A chunk goes out, is counted, and is followed by a queued call if the buffer has room. -/
def chunkSent (self : TransferSession B) (payload : QByteArray) (size : Nat) : TransferSession B :=
  let self := self.sendPacket .FileDataChunk payload
  { self with
    metrics :=
      { self.metrics with
        currentFileTransferred := self.metrics.currentFileTransferred + UInt64.ofNat size
        totalTransferred := self.metrics.totalTransferred + UInt64.ofNat size }
    queuedCalls :=
      if self.bytesToWrite < self.maxPending then self.queuedCalls + 1 else self.queuedCalls }

def sendChunk (self : TransferSession B) (chunkOffset : UInt64) (chunk : QByteArray) :
    Except Crash (TransferSession B) :=
  match serializeFileDataChunk
      ⟨self.currentFileIndex, chunkOffset, UInt32.ofNat chunk.length, chunk⟩ with
  | none => .error .chunkOverrun
  | some payload =>
      if !self.connected then .ok (self.fail transmitError)
      else .ok (self.chunkSent payload chunk.length)

def sendNextChunk (self : TransferSession B) : Except Crash (TransferSession B) :=
  match self.fileReader with
  | none => .ok self
  | some reader =>
      if self.status ≠ .Transferring ∨ self.waitingFileAck then .ok self
      else if self.maxPending ≤ self.bytesToWrite then .ok self
      else if reader.isAtEnd then .ok (self.sendFileEnd reader)
      else
        let (chunk, next) := reader.readNextChunk self.disk
        let self := { self with fileReader := some next }
        if chunk = [] ∧ !next.isAtEnd then .ok (self.fail (readError next))
        else self.sendChunk reader.currentOffset chunk

def finishSending (J : QJson) (self : TransferSession B) : TransferSession B :=
  (self.sendPacket .TransferComplete
    (serializeTransferComplete J ⟨self.transferId, self.metrics.totalTransferred⟩)).complete

def openError (reader : FileReader B) : QString :=
  literal "Failed to open source file: " ++ reader.errorString

def enterFile (self : TransferSession B) (fileIndex : UInt64) (item : LocalFileItem)
    (startOffset : UInt64) : TransferSession B :=
  { self with
    currentFileIndex := fileIndex
    metrics :=
      { self.metrics with
        currentFileIndex := fileIndex + 1
        currentFileName := item.relativePath
        currentFileSize := item.fileSize
        currentFileTransferred := startOffset } }
  |>.emit (.fileStarted fileIndex item.relativePath item.fileSize)

def startSendingFile (J : QJson) (self : TransferSession B) (fileIndex startOffset : UInt64) :
    Except Crash (TransferSession B) :=
  if self.sendManifest.items.length ≤ fileIndex.toNat then .ok (finishSending J self)
  else
    match self.sendManifest.items[fileIndex.toNat]? with
    | none => .error .itemIndex
    | some item =>
        let self := self.enterFile fileIndex item startOffset
        let (opened, reader) :=
          (FileReader.new B self.chunkSize).open self.disk item.sourceAbsolutePath startOffset
        let self := { self with fileReader := some reader }
        if !opened then .ok (self.fail (openError reader))
        else
          let self := self.sendPacket .FileStart
            (serializeFileStart
              ⟨self.transferId, fileIndex, item.relativePath, item.fileSize, item.modifiedTime,
                item.blake3Checksum⟩)
          sendNextChunk { self with waitingFileAck := false }

/-! The receiver. -/

/-- The loop that makes the session folder's name unique. An entry of the file system blocks at
most one counter, so the fuel given by `chooseSubfolder` suffices. -/
def uniqueFolder (d : Disk) (baseOutputDir baseName : QString) : Nat → Nat → QString → QString
  | 0, _, candidate => candidate
  | fuel + 1, counter, candidate =>
      if d.exists (filePath baseOutputDir candidate) then
        uniqueFolder d baseOutputDir baseName fuel (counter + 1)
          (baseName ++ literal "_" ++ QString.number counter)
      else candidate

def chooseSubfolder (self : TransferSession B) (baseOutputDir timestamp : QString) : QString :=
  if self.sessionSubfolder ≠ [] then self.sessionSubfolder
  else
    let cleanSender := PlatformFilesystem.sanitizeDeviceName self.remoteDevice
    let cleanSender := if cleanSender = [] then literal "Sender" else cleanSender
    let baseName := cleanSender ++ literal "_" ++ timestamp
    uniqueFolder self.disk baseOutputDir baseName (self.disk.nodes.entries.length + 1) 1 baseName

/-- `timestamp` is the current time as the call formats it. -/
def acceptTransfer (J : QJson) (self : TransferSession B) (baseOutputDir : QString)
    (policy : DuplicatePolicy) (timestamp : QString) : TransferSession B :=
  let self :=
    { self with
      baseOutputDir := baseOutputDir
      duplicatePolicy := policy
      sessionSubfolder := self.chooseSubfolder baseOutputDir timestamp }
  if self.receivedOffer.isNone then self
  else
    self.sendPacket .TransferAccept
      (serializeTransferAccept J ⟨self.transferId, self.localDeviceName, true, 0, 0⟩)
    |>.begin

def rejectTransfer (J : QJson) (self : TransferSession B) (reason : QString) : TransferSession B :=
  self.sendPacket .TransferReject (serializeTransferReject J ⟨self.transferId, reason⟩)
  |>.setStatus .Cancelled
  |>.disconnectFromHost

/-! The controls. -/

def pause (J : QJson) (self : TransferSession B) : TransferSession B :=
  if self.status = .Transferring then
    (self.setStatus .Paused).emit (.metricsUpdated self.metrics)
    |>.sendPacket .TransferPause
      (serializeTransferPause J ⟨self.transferId, literal "User paused transfer"⟩)
  else self

def resumed (J : QJson) (self : TransferSession B) : TransferSession B :=
  (self.setStatus .Transferring).sendPacket .TransferResume
    (serializeTransferResume J
      ⟨self.transferId, self.currentFileIndex, self.metrics.currentFileTransferred⟩)

def resume (J : QJson) (self : TransferSession B) : Except Crash (TransferSession B) :=
  if self.status = .Paused then
    if self.direction = .Send then (self.resumed J).sendNextChunk else .ok (self.resumed J)
  else .ok self

def closeFiles (self : TransferSession B) : TransferSession B :=
  { self with
    fileWriter := self.fileWriter.map FileWriter.abort
    fileReader := self.fileReader.map FileReader.close }

def cancel (J : QJson) (self : TransferSession B) : TransferSession B :=
  (self.setStatus .Cancelled).emit (.metricsUpdated self.metrics)
  |>.sendPacket .TransferCancel
    (serializeTransferCancel J ⟨self.transferId, literal "User cancelled transfer"⟩)
  |>.closeFiles
  |>.disconnectFromHost

/-! The packet handlers, one for each case of `onPacketReceived`. -/

def onHandshakeReq (J : QJson) (self : TransferSession B) (payload : QByteArray) :
    TransferSession B :=
  match parseHandshakeReq J payload with
  | none => self
  | some req =>
      { self with remoteDevice := req.deviceName }
      |>.sendPacket .HandshakeResp
        (serializeHandshakeResp J ⟨PROTOCOL_VERSION, self.localDeviceName, true, []⟩)
      |>.setStatus .Offering

def onHandshakeResp (J : QJson) (self : TransferSession B) (payload : QByteArray) :
    TransferSession B :=
  match parseHandshakeResp J payload with
  | none => self.fail (literal "Handshake rejected")
  | some resp =>
      if resp.accepted then
        { self with remoteDevice := resp.deviceName }
        |>.setStatus .Offering
        |>.sendPacket .TransferOffer
          (serializeTransferOffer
            ⟨self.transferId, self.localDeviceName, self.sendManifest.totalFiles,
              self.sendManifest.totalBytes, self.sendManifest.toProtocolItems⟩)
        |>.setStatus .WaitingApproval
      else self.fail resp.errorMessage

def onTransferOffer (self : TransferSession B) (payload : QByteArray) : TransferSession B :=
  match parseTransferOffer payload with
  | none => self
  | some offer =>
      { self with
        receivedOffer := some offer
        transferId := offer.transferId
        remoteDevice := offer.senderDevice
        metrics :=
          { self.metrics with totalFiles := offer.totalFiles, totalBytes := offer.totalBytes } }
      |>.setStatus .WaitingApproval
      |>.emit (.incomingOfferReceived offer.transferId offer.senderDevice offer.totalFiles
        offer.totalBytes)

def onTransferAccept (J : QJson) (self : TransferSession B) (payload : QByteArray) :
    Except Crash (TransferSession B) :=
  match parseTransferAccept J payload with
  | none => .ok self
  | some accept =>
      if accept.accepted then
        startSendingFile J self.begin accept.startFileIndex accept.resumeOffset
      else .ok self

def onTransferReject (J : QJson) (self : TransferSession B) (payload : QByteArray) :
    TransferSession B :=
  (self.setStatus .Cancelled).emit (.transferFailed
    (match parseTransferReject J payload with
      | some reject => reject.reason
      | none => literal "Transfer rejected by receiver"))

def expectFile (self : TransferSession B) (start : MsgFileStart) : TransferSession B :=
  { self with
    currentReceivingFileIndex := start.fileIndex
    expectedFileSize := start.fileSize
    expectedFileChecksum := start.expectedBlake3
    metrics :=
      { self.metrics with
        currentFileIndex := start.fileIndex + 1
        currentFileName := start.relativePath
        currentFileSize := start.fileSize
        currentFileTransferred := 0 } }
  |>.emit (.fileStarted start.fileIndex start.relativePath start.fileSize)

/-- The folder below the output folder that files go to. -/
def subFolder (self : TransferSession B) : QString :=
  if self.sessionSubfolder = [] then self.remoteDevice else self.sessionSubfolder

def prepareError (writer : FileWriter B) : QString :=
  literal "Failed to prepare destination file: " ++ writer.errorString

/-- What `m_fileWriter->open` returns for the announced file. -/
def openWriter (self : TransferSession B) (start : MsgFileStart) : Bool × FileWriter B × Disk :=
  (FileWriter.new B).open self.disk self.baseOutputDir self.subFolder start.relativePath
    start.fileSize 0 self.duplicatePolicy

def fileOpened (self : TransferSession B) (start : MsgFileStart) : TransferSession B :=
  { self.expectFile start with
    fileWriter := some (self.openWriter start).2.1
    disk := (self.openWriter start).2.2 }

def fileRefused (self : TransferSession B) (start : MsgFileStart) : TransferSession B :=
  (self.fileOpened start).sendPacket .FileAck
    (serializeFileAck { fileIndex := start.fileIndex, statusCode := 2 })
  |>.fail (prepareError (self.openWriter start).2.1)
  |>.disconnectFromHost

def onFileStart (self : TransferSession B) (payload : QByteArray) : TransferSession B :=
  match parseFileStart payload with
  | none => self
  | some start =>
      if (self.openWriter start).1 then self.fileOpened start else self.fileRefused start

def writeError (writer : FileWriter B) : QString :=
  literal "Disk write error: " ++ writer.errorString

def chunkWritten (self : TransferSession B) (writer : FileWriter B) (chunk : MsgFileDataChunk) :
    TransferSession B :=
  let result := writer.writeChunk self.disk chunk.offset chunk.chunkData
  { self with fileWriter := some result.2.1, disk := result.2.2 }

def countReceived (self : TransferSession B) (size : Nat) : TransferSession B :=
  { self with
    metrics :=
      { self.metrics with
        currentFileTransferred := self.metrics.currentFileTransferred + UInt64.ofNat size
        totalTransferred := self.metrics.totalTransferred + UInt64.ofNat size } }

def onFileDataChunk (self : TransferSession B) (payload : QByteArray) : TransferSession B :=
  match parseFileDataChunk payload, self.fileWriter with
  | some chunk, some writer =>
      let result := writer.writeChunk self.disk chunk.offset chunk.chunkData
      if result.1 then (self.chunkWritten writer chunk).countReceived chunk.chunkData.length
      else ((self.chunkWritten writer chunk).fail (writeError result.2.1)).disconnectFromHost
  | _, _ => self

def fileFinalized (self : TransferSession B) (writer : FileWriter B) («end» : MsgFileEnd) :
    TransferSession B :=
  let result := writer.finalizeAndCommit self.disk «end».blake3Checksum
  { self with fileWriter := some result.2.1, disk := result.2.2 }

def endAck (self : TransferSession B) (writer : FileWriter B) («end» : MsgFileEnd) : MsgFileAck :=
  let result := writer.finalizeAndCommit self.disk «end».blake3Checksum
  ⟨«end».fileIndex, if result.1 then 0 else 1, result.2.1.bytesWritten,
    result.2.1.calculatedChecksum⟩

def fileEnded (self : TransferSession B) (writer : FileWriter B) («end» : MsgFileEnd) :
    TransferSession B :=
  let verified := (writer.finalizeAndCommit self.disk «end».blake3Checksum).1
  (self.fileFinalized writer «end»).sendPacket .FileAck (serializeFileAck (self.endAck writer «end»))
  |>.emit (.fileCompleted «end».fileIndex self.metrics.currentFileName verified)

def onFileEnd (self : TransferSession B) (payload : QByteArray) : TransferSession B :=
  match parseFileEnd payload, self.fileWriter with
  | some «end», some writer => self.fileEnded writer «end»
  | _, _ => self

def verificationError (fileIndex : UInt64) : QString :=
  literal "File verification failed for file index " ++ QString.number fileIndex.toNat

def ackReceived (self : TransferSession B) (ack : MsgFileAck) : TransferSession B :=
  self.emit (.fileCompleted ack.fileIndex self.metrics.currentFileName (ack.statusCode = 0))

def closeReader (self : TransferSession B) (reader : FileReader B) : TransferSession B :=
  { self with fileReader := some reader.close }

def onFileAck (J : QJson) (self : TransferSession B) (payload : QByteArray) :
    Except Crash (TransferSession B) :=
  match parseFileAck payload with
  | none => .ok self
  | some ack =>
      if ack.statusCode = 0 then
        match self.fileReader with
        | none => .error .absentReader
        | some reader =>
            startSendingFile J ((self.ackReceived ack).closeReader reader)
              (self.currentFileIndex + 1) 0
      else .ok ((self.ackReceived ack).fail (verificationError ack.fileIndex))

def onTransferResume (J : QJson) (self : TransferSession B) (payload : QByteArray) :
    Except Crash (TransferSession B) :=
  match parseTransferResume J payload with
  | none => .ok self
  | some resumeMsg =>
      let self := self.setStatus .Transferring
      if self.direction = .Send then
        startSendingFile J self resumeMsg.fileIndex resumeMsg.resumeOffset
      else .ok self

def onPacketReceived (J : QJson) (self : TransferSession B) (p : Packet) :
    Except Crash (TransferSession B) :=
  match p.type with
  | .HandshakeReq => .ok (onHandshakeReq J self p.payload)
  | .HandshakeResp => .ok (onHandshakeResp J self p.payload)
  | .TransferOffer => .ok (onTransferOffer self p.payload)
  | .TransferAccept => onTransferAccept J self p.payload
  | .TransferReject => .ok (onTransferReject J self p.payload)
  | .FileStart => .ok (onFileStart self p.payload)
  | .FileDataChunk => .ok (onFileDataChunk self p.payload)
  | .FileEnd => .ok (onFileEnd self p.payload)
  | .FileAck => onFileAck J self p.payload
  | .TransferPause => .ok (self.setStatus .Paused)
  | .TransferResume => onTransferResume J self p.payload
  | .TransferCancel => .ok (self.setStatus .Cancelled).closeFiles
  | .TransferComplete => .ok self.complete
  | .Invalid | .ErrorAlert | .unnamed _ => .ok self

/-! The socket and timer handlers. -/

/-- `req.osType` of the Linux build. -/
def osType : QString := literal "Linux"

def onSocketConnected (J : QJson) (self : TransferSession B) : TransferSession B :=
  { self with connected := true }
  |>.setStatus .Handshaking
  |>.sendPacket .HandshakeReq
    (serializeHandshakeReq J ⟨PROTOCOL_VERSION, self.localDeviceName, osType⟩)

def connectionLost : QString :=
  literal "Connection to remote host was lost unexpectedly. Partial transfer preserved for resume."

def onSocketDisconnected (self : TransferSession B) : TransferSession B :=
  let self := self.disconnectFromHost
  if self.status = .Transferring then self.fail connectionLost else self

def onSocketError (self : TransferSession B) (errorMsg : QString) : TransferSession B :=
  if self.status = .Transferring ∨ self.status = .Connecting then self.fail errorMsg else self

def onBytesTransferred (self : TransferSession B) : Except Crash (TransferSession B) :=
  if self.direction = .Send ∧ self.status = .Transferring ∧ !self.waitingFileAck ∧
      self.bytesToWrite < self.maxPending then self.sendNextChunk
  else .ok self

def calculateMetrics (self : TransferSession B) : TransferSession B :=
  if self.sessionTimer ∧ self.status = .Transferring then self.emit (.metricsUpdated self.metrics)
  else self

/-- What can happen to a session: packets, calls of the user, and the callbacks of the event
loop. `bytesWritten` comes with the number of bytes then pending, and `drain` changes that number
without a callback. -/
inductive Event
  | packet (p : Packet)
  | acceptTransfer (baseOutputDir : QString) (policy : DuplicatePolicy) (timestamp : QString)
  | rejectTransfer (reason : QString)
  | pause | resume | cancel
  | startSend (manifest : FileManifest) (localDeviceName : QString) (chunkSize : UInt32)
  | socketConnected | socketDisconnected
  | socketError (errorMsg : QString)
  | bytesWritten (pending : Nat)
  | drain (pending : Nat)
  | sendNextChunk
  | metricsTick

def step (J : QJson) (self : TransferSession B) : Event → Except Crash (TransferSession B)
  | .packet p => onPacketReceived J self p
  | .acceptTransfer baseOutputDir policy timestamp =>
      .ok (acceptTransfer J self baseOutputDir policy timestamp)
  | .rejectTransfer reason => .ok (rejectTransfer J self reason)
  | .pause => .ok (pause J self)
  | .resume => resume J self
  | .cancel => .ok (cancel J self)
  | .startSend manifest localDeviceName chunkSize =>
      .ok (startSend self manifest localDeviceName chunkSize)
  | .socketConnected => .ok (if self.ownsConnection then onSocketConnected J self else self)
  | .socketDisconnected => .ok (onSocketDisconnected self)
  | .socketError errorMsg => .ok (onSocketError self errorMsg)
  | .bytesWritten pending => onBytesTransferred { self with bytesToWrite := pending }
  | .drain pending => .ok { self with bytesToWrite := pending }
  | .sendNextChunk => sendNextChunk { self with queuedCalls := self.queuedCalls - 1 }
  | .metricsTick => .ok (calculateMetrics self)

/-- The steps that run into no undefined behaviour. -/
def Steps (J : QJson) (s : TransferSession B) (e : Event) (t : TransferSession B) : Prop :=
  step J s e = .ok t

inductive Initial : TransferSession B → Prop
  | new (direction : TransferDirection) (transferId : QString) (disk : Disk) :
      Initial (new B direction transferId disk)
  | fromConnection (transferId : QString) (disk : Disk) :
      Initial (fromConnection B transferId disk)

def execute (J : QJson) (self : TransferSession B) (events : List Event) :
    Except Crash (TransferSession B) := events.foldlM (step J) self

theorem execute_snoc (J : QJson) (self : TransferSession B) (events : List Event) (e : Event) :
    execute J self (events ++ [e]) = (execute J self events).bind fun t => step J t e := by
  rw [execute, List.foldlM_append]
  exact bind_congr fun t => bind_pure (step J t e)

theorem execute_snoc_ok {J : QJson} {self t : TransferSession B} {events : List Event} {e : Event}
    (h : execute J self (events ++ [e]) = .ok t) :
    ∃ u, execute J self events = .ok u ∧ Steps J u e t := by
  rw [execute_snoc] at h
  exact Except.ok_of_bind h

end TransferSession

end FastTransfer
