/- FastTransfer/Core/TransferManager
   source: src/core/TransferManager.h, src/core/TransferManager.cpp
   digest: The one active session, and the history that its signals write. -/

import FastTransfer.Database.Database
import FastTransfer.Filesystem.FileEnumerator

set_option autoImplicit false
set_option relaxedAutoImplicit false

namespace FastTransfer

open QString (literal)

/-- The manager, less what only the interface reads. `created` counts the sessions made, and so
stands for the pointer to the active one; `remoteIp` is the address of its peer, `disk` the host's
disk while there is no session. The last member is no member of the source: it remembers the
identifiers under which sessions emitted `transferCompleted` since the history was cleared. -/
structure TransferManager (B : Blake3) where
  activeSession : Option (TransferSession B) := none
  created : Nat := 0
  remoteIp : QString := []
  database : Database := {}
  deviceName : QString := []
  downloadDir : QString := []
  duplicatePolicy : DuplicatePolicy := .Rename
  autoAccept : Bool := false
  chunkSize : UInt32 := DEFAULT_CHUNK_SIZE
  listening : Bool := true
  disk : Disk
  completed : List QString := []

namespace TransferManager

variable {B : Blake3}

def statusText : TransferStatus → QString
  | .Completed => literal "Completed"
  | .Failed => literal "Failed"
  | .Cancelled => literal "Cancelled"
  | .Paused => literal "Paused"
  | _ => literal "Active"

/-! The slots. They look at the active session, whose signals alone reach them. -/

/-- `transferred` is `totalTransferred` at the signal. -/
def onSessionStatusChanged (self : TransferManager B) (transferred : UInt64)
    (status : TransferStatus) : TransferManager B :=
  match self.activeSession with
  | none => self
  | some session =>
      { self with
        database := self.database.updateTransferProgress session.transferId transferred
          (statusText status) }

def onSessionCompleted (self : TransferManager B) : TransferManager B :=
  match self.activeSession with
  | none => self
  | some session =>
      { self with
        database := self.database.recordTransferCompleted session.transferId
          (literal "Completed") []
        completed := session.transferId :: self.completed }

def onSessionFailed (self : TransferManager B) (errorMsg : QString) : TransferManager B :=
  match self.activeSession with
  | none => self
  | some session =>
      { self with
        database := self.database.recordTransferCompleted session.transferId (literal "Failed")
          errorMsg }

/-- What is recorded of an offer, which only an incoming connection is heard for. -/
def onIncomingOffer (self : TransferManager B) (senderDevice : QString)
    (totalFiles totalBytes : UInt64) : TransferManager B :=
  match self.activeSession with
  | none => self
  | some session =>
      if session.ownsConnection then self
      else
        { self with
          database := (self.database.recordTransferStarted
            { id := session.transferId, direction := literal "RECEIVE"
              remoteDevice := senderDevice, remoteIp := self.remoteIp
              status := literal "Active", totalFiles := totalFiles.toInt64
              totalBytes := totalBytes.toInt64, transferredBytes := 0
              errorMessage := [] }).2 }

def hear (transferred : UInt64) (self : TransferManager B) : Signal → TransferManager B
  | .statusChanged status => self.onSessionStatusChanged transferred status
  | .transferCompleted => self.onSessionCompleted
  | .transferFailed errorMsg => self.onSessionFailed errorMsg
  | .incomingOfferReceived _ senderDevice totalFiles totalBytes =>
      self.onIncomingOffer senderDevice totalFiles totalBytes
  | .metricsUpdated _ | .fileStarted _ _ _ | .fileCompleted _ _ _ => self

/-- The signals emitted between two states of a session. -/
def emitted (s t : TransferSession B) : List Signal := t.signals.drop s.signals.length

/-- The active session has gone from one state to the next and its signals are heard. No handler
counts bytes before it changes the status. -/
def notify (self : TransferManager B) (s t : TransferSession B) : TransferManager B :=
  (emitted s t).foldl (hear s.metrics.totalTransferred) { self with activeSession := some t }

/-! The calls. -/

def host (self : TransferManager B) : Disk :=
  match self.activeSession with
  | none => self.disk
  | some session => session.disk

/-- `m_activeSession->cancel()` and `m_activeSession.reset()`, where there is one. -/
def dropSession (J : QJson) (self : TransferManager B) : TransferManager B :=
  match self.activeSession with
  | none => self
  | some session =>
      { self.notify session (session.cancel J) with activeSession := none, disk := session.disk }

/-- `transferId` is the identifier that the constructor makes up, `targetIp` the address as text. -/
def initiateSend (self : TransferManager B) (J : QJson) (fs : FileSystem)
    (fileOrFolderPaths : List QString) (targetIp transferId : QString) : TransferManager B :=
  let manifest := FileEnumerator.enumeratePaths fs fileOrFolderPaths
  if manifest.items = [] then self
  else
    let self := self.dropSession J
    let session := TransferSession.new B .Send transferId self.host
    let self :=
      { self with
        activeSession := some session
        created := self.created + 1
        remoteIp := targetIp
        database := (self.database.recordTransferStarted
          { id := transferId, direction := literal "SEND", remoteDevice := targetIp
            remoteIp := targetIp, status := literal "Active"
            totalFiles := manifest.totalFiles.toInt64, totalBytes := manifest.totalBytes.toInt64
            transferredBytes := 0, errorMessage := [] }).2 }
    self.notify session (session.startSend manifest self.deviceName self.chunkSize)

/-- A connection that was accepted while no transfer runs takes the place of the session. What its
constructor emits is not heard. -/
def onNewIncomingConnection (self : TransferManager B) (remoteIp transferId : QString) :
    TransferManager B :=
  let busy := self.activeSession.any fun session => session.status = .Transferring
  if !self.listening || busy then self
  else
    { self with
      activeSession := some (TransferSession.fromConnection B transferId self.host)
      created := self.created + 1
      remoteIp := remoteIp }

def acceptIncomingTransfer (J : QJson) (self : TransferManager B) (session : Nat)
    (timestamp : QString) : TransferManager B :=
  match self.activeSession with
  | none => self
  | some active =>
      if session = self.created then
        self.notify active
          (active.acceptTransfer J self.downloadDir self.duplicatePolicy timestamp)
      else self

def rejectIncomingTransfer (J : QJson) (self : TransferManager B) (session : Nat)
    (reason : QString) : TransferManager B :=
  match self.activeSession with
  | none => self
  | some active =>
      if session = self.created then
        let self := self.notify active (active.rejectTransfer J reason)
        { self with
          database := self.database.recordTransferCompleted active.transferId
            (literal "Rejected") reason }
      else self

def shutdown (J : QJson) (self : TransferManager B) : TransferManager B :=
  { self with listening := false }.dropSession J

def Signal.isOffer : Signal → Bool
  | .incomingOfferReceived _ _ _ _ => true
  | _ => false

/-- The active session has moved. With `m_autoAccept` an offer is accepted as soon as it is
recorded, which is the last thing its handler does. -/
def moved (J : QJson) (self : TransferManager B) (s t : TransferSession B) (timestamp : QString) :
    TransferManager B :=
  let self := self.notify s t
  if self.autoAccept ∧ !t.ownsConnection ∧ (emitted s t).any Signal.isOffer then
    self.acceptIncomingTransfer J self.created timestamp
  else self

/-- The events that reach a session otherwise than through the manager. -/
def Spontaneous : TransferSession.Event → Prop
  | .acceptTransfer _ _ _ | .rejectTransfer _ | .startSend _ _ _ => False
  | _ => True

/-- The calls of the interface, the connections, and what happens to the active session. -/
inductive Event
  | initiateSend (fs : FileSystem) (fileOrFolderPaths : List QString)
      (targetIp transferId : QString)
  | newIncomingConnection (remoteIp transferId : QString)
  | acceptIncomingTransfer (session : Nat) (timestamp : QString)
  | rejectIncomingTransfer (session : Nat) (reason : QString)
  | session (e : TransferSession.Event) (spontaneous : Spontaneous e) (timestamp : QString)
  | setDeviceName (name : QString)
  | setDefaultDownloadDir (dir : QString)
  | setDuplicatePolicy (policy : DuplicatePolicy)
  | setChunkSize (bytes : UInt32)
  | setAutoAccept (enabled : Bool)
  | clearHistory
  | shutdown

def step (J : QJson) (self : TransferManager B) :
    Event → Except Crash (TransferManager B)
  | .initiateSend fs paths targetIp transferId =>
      .ok (self.initiateSend J fs paths targetIp transferId)
  | .newIncomingConnection remoteIp transferId =>
      .ok (self.onNewIncomingConnection remoteIp transferId)
  | .acceptIncomingTransfer session timestamp =>
      .ok (self.acceptIncomingTransfer J session timestamp)
  | .rejectIncomingTransfer session reason => .ok (self.rejectIncomingTransfer J session reason)
  | .session e _ timestamp =>
      match self.activeSession with
      | none => .ok self
      | some s => (s.step J e).map fun t => self.moved J s t timestamp
  | .setDeviceName name => .ok (if name = [] then self else { self with deviceName := name })
  | .setDefaultDownloadDir dir => .ok (if dir = [] then self else { self with downloadDir := dir })
  | .setDuplicatePolicy policy => .ok { self with duplicatePolicy := policy }
  | .setChunkSize bytes =>
      .ok (if 1024 * 1024 ≤ bytes ∧ bytes ≤ MAX_CHUNK_SIZE then
        { self with chunkSize := bytes } else self)
  | .setAutoAccept enabled => .ok { self with autoAccept := enabled }
  | .clearHistory => .ok { self with database := self.database.clearHistory, completed := [] }
  | .shutdown => .ok (self.shutdown J)

def Steps (J : QJson) (m : TransferManager B) (e : Event) (m' : TransferManager B) : Prop :=
  step J m e = .ok m'

end TransferManager

end FastTransfer
