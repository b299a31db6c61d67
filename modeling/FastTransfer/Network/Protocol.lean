/- FastTransfer/Network/Protocol
   source: src/network/Protocol.h, src/network/Protocol.cpp
   digest: Message types, message records, and their serialisers and parsers. -/

import FastTransfer.Platform.PlatformFilesystem
import FastTransfer.Qt.QDataStream
import FastTransfer.Qt.QJson

set_option autoImplicit false
set_option relaxedAutoImplicit false

namespace FastTransfer

open QString (literal)

def PROTOCOL_MAGIC : UInt32 := 0x46543031

def PROTOCOL_VERSION : UInt32 := 1

def MAX_METADATA_PAYLOAD_SIZE : UInt64 := 64 * 1024 * 1024

def MAX_CHUNK_SIZE : UInt32 := 64 * 1024 * 1024

def DEFAULT_CHUNK_SIZE : UInt32 := 8 * 1024 * 1024

def enumerators : List UInt16 :=
  [0x0000, 0x0001, 0x0002, 0x0010, 0x0011, 0x0012, 0x0020, 0x0021, 0x0022, 0x0023, 0x0030,
    0x0031, 0x0032, 0x0033, 0x00FF]

/-- `enum class MessageType : uint16_t`. A cast from the wire may also give a value without
a name. -/
inductive MessageType
  | Invalid | HandshakeReq | HandshakeResp | TransferOffer | TransferAccept | TransferReject
  | FileStart | FileDataChunk | FileEnd | FileAck
  | TransferPause | TransferResume | TransferCancel | TransferComplete | ErrorAlert
  | unnamed (raw : {raw : UInt16 // raw ∉ enumerators})
  deriving DecidableEq

namespace MessageType

def toRaw : MessageType → UInt16
  | Invalid => 0x0000
  | HandshakeReq => 0x0001
  | HandshakeResp => 0x0002
  | TransferOffer => 0x0010
  | TransferAccept => 0x0011
  | TransferReject => 0x0012
  | FileStart => 0x0020
  | FileDataChunk => 0x0021
  | FileEnd => 0x0022
  | FileAck => 0x0023
  | TransferPause => 0x0030
  | TransferResume => 0x0031
  | TransferCancel => 0x0032
  | TransferComplete => 0x0033
  | ErrorAlert => 0x00FF
  | unnamed raw => raw.1

def named : List MessageType :=
  [Invalid, HandshakeReq, HandshakeResp, TransferOffer, TransferAccept, TransferReject,
    FileStart, FileDataChunk, FileEnd, FileAck, TransferPause, TransferResume, TransferCancel,
    TransferComplete, ErrorAlert]

def ofRaw (raw : UInt16) : MessageType :=
  if h : raw ∉ enumerators then unnamed ⟨raw, h⟩
  else (named.find? fun t => t.toRaw = raw).getD Invalid

@[simp] theorem ofRaw_toRaw (t : MessageType) : ofRaw t.toRaw = t := by
  cases t with
  | unnamed raw => exact dif_pos raw.2
  | _ => decide

@[simp] theorem toRaw_ofRaw (raw : UInt16) : (ofRaw raw).toRaw = raw := by
  by_cases h : raw ∈ enumerators
  · have each : enumerators.all (fun raw => (ofRaw raw).toRaw = raw) = true := by decide
    simpa using List.all_eq_true.mp each raw h
  · rw [ofRaw, dif_pos h, toRaw]

end MessageType

structure ProtocolHeader where
  magic : UInt32 := 0
  msgType : UInt16 := 0
  flags : UInt16 := 0
  payloadLength : UInt64 := 0
  deriving DecidableEq

structure Packet where
  type : MessageType
  flags : UInt16 := 0
  payload : QByteArray := []
  deriving DecidableEq

structure ManifestItem where
  fileIndex : UInt64 := 0
  relativePath : QString := []
  fileSize : UInt64 := 0
  modifiedTime : UInt64 := 0
  blake3Checksum : QString := []
  deriving DecidableEq

structure MsgHandshakeReq where
  version : UInt32 := PROTOCOL_VERSION
  deviceName : QString := []
  osType : QString := []
  deriving DecidableEq

structure MsgHandshakeResp where
  version : UInt32 := PROTOCOL_VERSION
  deviceName : QString := []
  accepted : Bool := true
  errorMessage : QString := []
  deriving DecidableEq

structure MsgTransferOffer where
  transferId : QString := []
  senderDevice : QString := []
  totalFiles : UInt64 := 0
  totalBytes : UInt64 := 0
  items : List ManifestItem := []
  deriving DecidableEq

structure MsgTransferAccept where
  transferId : QString := []
  receiverDevice : QString := []
  accepted : Bool := true
  startFileIndex : UInt64 := 0
  resumeOffset : UInt64 := 0
  deriving DecidableEq

structure MsgTransferReject where
  transferId : QString := []
  reason : QString := []
  deriving DecidableEq

structure MsgFileStart where
  transferId : QString := []
  fileIndex : UInt64 := 0
  relativePath : QString := []
  fileSize : UInt64 := 0
  modifiedTime : UInt64 := 0
  expectedBlake3 : QString := []
  deriving DecidableEq

structure MsgFileDataChunk where
  fileIndex : UInt64 := 0
  offset : UInt64 := 0
  chunkSize : UInt32 := 0
  chunkData : QByteArray := []
  deriving DecidableEq

structure MsgFileEnd where
  fileIndex : UInt64 := 0
  blake3Checksum : QString := []
  deriving DecidableEq

/-- Status 0 is success, 1 a hash mismatch, 2 a write error. -/
structure MsgFileAck where
  fileIndex : UInt64 := 0
  statusCode : UInt32 := 0
  bytesReceived : UInt64 := 0
  calculatedBlake3 : QString := []
  deriving DecidableEq

structure MsgTransferPause where
  transferId : QString := []
  reason : QString := []
  deriving DecidableEq

structure MsgTransferResume where
  transferId : QString := []
  fileIndex : UInt64 := 0
  resumeOffset : UInt64 := 0
  deriving DecidableEq

structure MsgTransferCancel where
  transferId : QString := []
  reason : QString := []
  deriving DecidableEq

structure MsgTransferComplete where
  transferId : QString := []
  totalBytesTransferred : UInt64 := 0
  deriving DecidableEq

namespace Protocol

open QDataStream

def kHeaderSize : Nat := 16

def headerBytes (header : ProtocolHeader) : QByteArray :=
  BigEndian.encode 4 header.magic.toNat ++ BigEndian.encode 2 header.msgType.toNat ++
    BigEndian.encode 2 header.flags.toNat ++ BigEndian.encode 8 header.payloadLength.toNat

def readHeader (bytes : QByteArray) : ProtocolHeader :=
  { magic := UInt32.ofNat (BigEndian.decode (bytes.take 4))
    msgType := UInt16.ofNat (BigEndian.decode ((bytes.drop 4).take 2))
    flags := UInt16.ofNat (BigEndian.decode ((bytes.drop 6).take 2))
    payloadLength := UInt64.ofNat (BigEndian.decode ((bytes.drop 8).take 8)) }

def createPacket (type : MessageType) (payload : QByteArray) (flags : UInt16) : QByteArray :=
  headerBytes ⟨PROTOCOL_MAGIC, type.toRaw, flags, UInt64.ofNat payload.length⟩ ++ payload

section Json

variable (J : QJson)

/-- A `uint64_t` stored as `static_cast<qint64>`. -/
def jsonU64 (x : UInt64) : QJsonValue := .integer x.toInt64

def serializeHandshakeReq (msg : MsgHandshakeReq) : QByteArray :=
  J.toJson [(literal "device", .string msg.deviceName), (literal "os", .string msg.osType),
    (literal "version", .integer msg.version.toUInt64.toInt64)]

def parseHandshakeReq (data : QByteArray) : Option MsgHandshakeReq := do
  let obj ← J.fromJson data
  some
    { version := J.toInt (obj.value (literal "version")) PROTOCOL_VERSION
      deviceName := (obj.value (literal "device")).toString
      osType := (obj.value (literal "os")).toString }

def serializeHandshakeResp (msg : MsgHandshakeResp) : QByteArray :=
  J.toJson [(literal "accepted", .bool msg.accepted), (literal "device", .string msg.deviceName),
    (literal "error", .string msg.errorMessage),
    (literal "version", .integer msg.version.toUInt64.toInt64)]

def parseHandshakeResp (data : QByteArray) : Option MsgHandshakeResp := do
  let obj ← J.fromJson data
  some
    { version := J.toInt (obj.value (literal "version")) PROTOCOL_VERSION
      deviceName := (obj.value (literal "device")).toString
      accepted := (obj.value (literal "accepted")).toBool
      errorMessage := (obj.value (literal "error")).toString }

def serializeTransferAccept (msg : MsgTransferAccept) : QByteArray :=
  J.toJson [(literal "accepted", .bool msg.accepted),
    (literal "receiver_device", .string msg.receiverDevice),
    (literal "resume_offset", jsonU64 msg.resumeOffset),
    (literal "start_file_index", jsonU64 msg.startFileIndex),
    (literal "transfer_id", .string msg.transferId)]

def parseTransferAccept (data : QByteArray) : Option MsgTransferAccept := do
  let obj ← J.fromJson data
  some
    { transferId := (obj.value (literal "transfer_id")).toString
      receiverDevice := (obj.value (literal "receiver_device")).toString
      accepted := (obj.value (literal "accepted")).toBool
      startFileIndex := J.toULongLong (obj.value (literal "start_file_index"))
      resumeOffset := J.toULongLong (obj.value (literal "resume_offset")) }

/-- The two text fields that reject, pause and cancel messages carry. -/
def serializeReason (transferId reason : QString) : QByteArray :=
  J.toJson [(literal "reason", .string reason), (literal "transfer_id", .string transferId)]

def serializeTransferReject (msg : MsgTransferReject) : QByteArray :=
  serializeReason J msg.transferId msg.reason

def parseTransferReject (data : QByteArray) : Option MsgTransferReject := do
  let obj ← J.fromJson data
  some
    { transferId := (obj.value (literal "transfer_id")).toString
      reason := (obj.value (literal "reason")).toString }

def serializeTransferPause (msg : MsgTransferPause) : QByteArray :=
  serializeReason J msg.transferId msg.reason

def serializeTransferCancel (msg : MsgTransferCancel) : QByteArray :=
  serializeReason J msg.transferId msg.reason

def serializeTransferResume (msg : MsgTransferResume) : QByteArray :=
  J.toJson [(literal "file_index", jsonU64 msg.fileIndex),
    (literal "resume_offset", jsonU64 msg.resumeOffset),
    (literal "transfer_id", .string msg.transferId)]

def parseTransferResume (data : QByteArray) : Option MsgTransferResume := do
  let obj ← J.fromJson data
  some
    { transferId := (obj.value (literal "transfer_id")).toString
      fileIndex := J.toULongLong (obj.value (literal "file_index"))
      resumeOffset := J.toULongLong (obj.value (literal "resume_offset")) }

def serializeTransferComplete (msg : MsgTransferComplete) : QByteArray :=
  J.toJson [(literal "transfer_id", .string msg.transferId),
    (literal "transferred_bytes", jsonU64 msg.totalBytesTransferred)]

end Json

/-! The binary messages. A failed read leaves the stream in an error status for good, so the
parsers that test `stream.status()` at the end fail at the first failed read. -/

def writeItem (item : ManifestItem) : QByteArray :=
  writeU64 item.fileIndex ++ writeString item.relativePath ++ writeU64 item.fileSize ++
    writeU64 item.modifiedTime ++ writeString item.blake3Checksum

def serializeTransferOffer (msg : MsgTransferOffer) : QByteArray :=
  writeString msg.transferId ++ writeString msg.senderDevice ++ writeU64 msg.totalFiles ++
    writeU64 msg.totalBytes ++ writeU64 (UInt64.ofNat msg.items.length) ++
    msg.items.flatMap writeItem

/-- Accept a path from the wire unless sanitising empties it. -/
def checkedPath (relPath : QString) : Option QString :=
  let safe := PlatformFilesystem.sanitizePath relPath
  if safe = [] ∧ relPath ≠ [] then none else some safe

def readItem (data : QByteArray) : Option (ManifestItem × QByteArray) := do
  let (fileIdx, data) ← readU64 data
  let (relPath, data) ← readString data
  let (fileSize, data) ← readU64 data
  let (modTime, data) ← readU64 data
  let (checksum, data) ← readString data
  let safePath ← checkedPath relPath
  some
    ({ fileIndex := fileIdx, relativePath := safePath, fileSize := fileSize,
       modifiedTime := modTime, blake3Checksum := checksum }, data)

def readItems : Nat → QByteArray → Option (List ManifestItem)
  | 0, _ => some []
  | n + 1, data => do
      let (item, data) ← readItem data
      let items ← readItems n data
      some (item :: items)

def parseTransferOffer (data : QByteArray) : Option MsgTransferOffer :=
  if MAX_METADATA_PAYLOAD_SIZE.toNat < data.length then none
  else do
    let (transferId, data) ← readString data
    let (senderDevice, data) ← readString data
    let (totalFiles, data) ← readU64 data
    let (totalBytes, data) ← readU64 data
    let (itemCount, data) ← readU64 data
    if 1000000 < itemCount then none
    else do
      let items ← readItems itemCount.toNat data
      some
        { transferId := transferId, senderDevice := senderDevice, totalFiles := totalFiles,
          totalBytes := totalBytes, items := items }

def serializeFileStart (msg : MsgFileStart) : QByteArray :=
  writeString msg.transferId ++ writeU64 msg.fileIndex ++ writeString msg.relativePath ++
    writeU64 msg.fileSize ++ writeU64 msg.modifiedTime ++ writeString msg.expectedBlake3

def parseFileStart (data : QByteArray) : Option MsgFileStart := do
  let (transferId, data) ← readString data
  let (fileIndex, data) ← readU64 data
  let (relPath, data) ← readString data
  let (fileSize, data) ← readU64 data
  let (modifiedTime, data) ← readU64 data
  let (expectedBlake3, _) ← readString data
  let safe ← checkedPath relPath
  some
    { transferId := transferId, fileIndex := fileIndex, relativePath := safe,
      fileSize := fileSize, modifiedTime := modifiedTime, expectedBlake3 := expectedBlake3 }

/-- `none` where `20 + dataLen` wraps around: the copy then runs past the resized buffer. -/
def serializeFileDataChunk (msg : MsgFileDataChunk) : Option QByteArray :=
  let dataLen := UInt32.ofNat msg.chunkData.length
  if (20 + dataLen).toNat < 20 + dataLen.toNat then none
  else some (writeU64 msg.fileIndex ++ writeU64 msg.offset ++ writeU32 dataLen ++
    msg.chunkData.take dataLen.toNat)

def parseFileDataChunk (data : QByteArray) : Option MsgFileDataChunk :=
  if data.length < 20 then none
  else
    let chunkSize := UInt32.ofNat (BigEndian.decode ((data.drop 16).take 4))
    if 20 + chunkSize ≠ UInt32.ofNat data.length then none
    else some
      { fileIndex := UInt64.ofNat (BigEndian.decode (data.take 8))
        offset := UInt64.ofNat (BigEndian.decode ((data.drop 8).take 8))
        chunkSize := chunkSize
        chunkData := (data.drop 20).take chunkSize.toNat }

def serializeFileEnd (msg : MsgFileEnd) : QByteArray :=
  writeU64 msg.fileIndex ++ writeString msg.blake3Checksum

def parseFileEnd (data : QByteArray) : Option MsgFileEnd := do
  let (fileIndex, data) ← readU64 data
  let (checksum, _) ← readString data
  some { fileIndex := fileIndex, blake3Checksum := checksum }

def serializeFileAck (msg : MsgFileAck) : QByteArray :=
  writeU64 msg.fileIndex ++ writeU32 msg.statusCode ++ writeU64 msg.bytesReceived ++
    writeString msg.calculatedBlake3

def parseFileAck (data : QByteArray) : Option MsgFileAck := do
  let (fileIndex, data) ← readU64 data
  let (statusCode, data) ← readU32 data
  let (bytesReceived, data) ← readU64 data
  let (calculatedBlake3, _) ← readString data
  some
    { fileIndex := fileIndex, statusCode := statusCode, bytesReceived := bytesReceived,
      calculatedBlake3 := calculatedBlake3 }

/-! What each parser makes of the bytes its serialiser wrote. -/

@[simp] theorem headerBytes_length (header : ProtocolHeader) :
    (headerBytes header).length = kHeaderSize := by
  simp [headerBytes, kHeaderSize]

theorem readHeader_headerBytes (header : ProtocolHeader) (rest : QByteArray) :
    readHeader (headerBytes header ++ rest) = header := by
  obtain ⟨magic, msgType, flags, payloadLength⟩ := header
  have field : ∀ (before : QByteArray) (i n value : Nat) (behind : QByteArray),
      before.length = i → value < 256 ^ n →
      BigEndian.decode (((before ++ BigEndian.encode n value ++ behind).drop i).take n) = value := by
    intro before i n value behind len bound
    rw [List.append_assoc, List.drop_left' len, List.take_left' (BigEndian.encode_length n value),
      BigEndian.decode_encode bound]
  have dMagic := field [] 0 4 magic.toNat (BigEndian.encode 2 msgType.toNat ++
    (BigEndian.encode 2 flags.toNat ++ (BigEndian.encode 8 payloadLength.toNat ++ rest))) rfl
    magic.toNat_lt
  have dType := field (BigEndian.encode 4 magic.toNat) 4 2 msgType.toNat
    (BigEndian.encode 2 flags.toNat ++ (BigEndian.encode 8 payloadLength.toNat ++ rest))
    (by simp) msgType.toNat_lt
  have dFlags := field (BigEndian.encode 4 magic.toNat ++ BigEndian.encode 2 msgType.toNat) 6 2
    flags.toNat (BigEndian.encode 8 payloadLength.toNat ++ rest) (by simp) flags.toNat_lt
  have dLength := field (BigEndian.encode 4 magic.toNat ++ BigEndian.encode 2 msgType.toNat ++
    BigEndian.encode 2 flags.toNat) 8 8 payloadLength.toNat rest (by simp) payloadLength.toNat_lt
  simp only [List.append_assoc, List.nil_append, List.drop_zero] at dMagic dType dFlags dLength
  simp only [readHeader, headerBytes, List.append_assoc, dMagic, dType, dFlags, dLength,
    UInt32.ofNat_toNat, UInt16.ofNat_toNat, UInt64.ofNat_toNat]

theorem headerBytes_readHeader {bytes : QByteArray} (h : kHeaderSize ≤ bytes.length) :
    headerBytes (readHeader bytes) = bytes.take kHeaderSize := by
  have field : ∀ i n : Nat, i + n ≤ kHeaderSize →
      BigEndian.encode n (BigEndian.decode ((bytes.drop i).take n)) = (bytes.drop i).take n ∧
        BigEndian.decode ((bytes.drop i).take n) < 256 ^ n := by
    intro i n bound
    have len : ((bytes.drop i).take n).length = n := by
      simp only [List.length_take, List.length_drop, kHeaderSize] at h bound ⊢
      omega
    have round := BigEndian.encode_decode ((bytes.drop i).take n)
    have lt := BigEndian.decode_lt ((bytes.drop i).take n)
    rw [len] at round lt
    exact ⟨round, lt⟩
  obtain ⟨eMagic, bMagic⟩ := field 0 4 (by decide)
  obtain ⟨eType, bType⟩ := field 4 2 (by decide)
  obtain ⟨eFlags, bFlags⟩ := field 6 2 (by decide)
  obtain ⟨eLength, bLength⟩ := field 8 8 (by decide)
  rw [List.drop_zero] at eMagic bMagic
  rw [headerBytes, readHeader, UInt32.toNat_ofNat_of_lt' bMagic, UInt16.toNat_ofNat_of_lt' bType,
    UInt16.toNat_ofNat_of_lt' bFlags, UInt64.toNat_ofNat_of_lt' bLength, eMagic, eType, eFlags,
    eLength]
  have four := @List.take_add _ bytes 4 2
  have six := @List.take_add _ bytes 6 2
  have eight := @List.take_add _ bytes 8 8
  rw [← four, ← six, ← eight]
  rfl

theorem readHeader_append {bytes : QByteArray} (h : kHeaderSize ≤ bytes.length)
    (rest : QByteArray) : readHeader (bytes ++ rest) = readHeader bytes := by
  have front := headerBytes_readHeader h
  have split : bytes = headerBytes (readHeader bytes) ++ bytes.drop kHeaderSize := by
    rw [front, List.take_append_drop]
  conv_lhs => rw [split, List.append_assoc, readHeader_headerBytes]

theorem checkedPath_fixed {p : QString} (h : PlatformFilesystem.sanitizePath p = p) :
    checkedPath p = some p := by
  simp [checkedPath, h]

theorem parseFileStart_serialize {msg : MsgFileStart} {safe : QString}
    (id : msg.transferId.length < 2 ^ 30) (path : msg.relativePath.length < 2 ^ 30)
    (sum : msg.expectedBlake3.length < 2 ^ 30) (hsafe : checkedPath msg.relativePath = some safe) :
    parseFileStart (serializeFileStart msg) = some { msg with relativePath := safe } := by
  have last := readString_writeString sum []
  rw [List.append_nil] at last
  simp [parseFileStart, serializeFileStart, readString_writeString id,
    readString_writeString path, last, hsafe]

theorem parseFileEnd_serialize {msg : MsgFileEnd} (sum : msg.blake3Checksum.length < 2 ^ 30) :
    parseFileEnd (serializeFileEnd msg) = some msg := by
  have last := readString_writeString sum []
  rw [List.append_nil] at last
  simp [parseFileEnd, serializeFileEnd, last]

theorem parseFileAck_serialize {msg : MsgFileAck} (sum : msg.calculatedBlake3.length < 2 ^ 30) :
    parseFileAck (serializeFileAck msg) = some msg := by
  have last := readString_writeString sum []
  rw [List.append_nil] at last
  simp [parseFileAck, serializeFileAck, last]

/-- Two acknowledgements with the same bytes have the same index and status. -/
theorem serializeFileAck_inj {msg msg' : MsgFileAck}
    (h : serializeFileAck msg = serializeFileAck msg') :
    msg.fileIndex = msg'.fileIndex ∧ msg.statusCode = msg'.statusCode := by
  have index : readU64 (serializeFileAck msg) = readU64 (serializeFileAck msg') := by rw [h]
  simp only [serializeFileAck, List.append_assoc, readU64_writeU64, Option.some.injEq,
    Prod.mk.injEq] at index
  have status := congrArg readU32 index.2
  simp only [readU32_writeU32, Option.some.injEq, Prod.mk.injEq] at status
  exact ⟨index.1, status.1⟩

theorem parseFileAck_some {msg ack : MsgFileAck}
    (h : parseFileAck (serializeFileAck msg) = some ack) :
    ack.fileIndex = msg.fileIndex ∧ ack.statusCode = msg.statusCode ∧
      ack.bytesReceived = msg.bytesReceived := by
  simp only [parseFileAck, serializeFileAck, List.append_assoc, readU64_writeU64,
    readU32_writeU32, Option.bind_eq_bind, Option.bind_some] at h
  obtain ⟨sum, -, eq⟩ := Option.bind_eq_some_iff.mp h
  cases eq
  exact ⟨rfl, rfl, rfl⟩

def chunkBytes (msg : MsgFileDataChunk) : QByteArray :=
  writeU64 msg.fileIndex ++ writeU64 msg.offset ++
    writeU32 (UInt32.ofNat msg.chunkData.length) ++ msg.chunkData

@[simp] theorem chunkBytes_length (msg : MsgFileDataChunk) :
    (chunkBytes msg).length = 20 + msg.chunkData.length := by
  simp [chunkBytes]
  omega

theorem serializeFileDataChunk_eq {msg : MsgFileDataChunk}
    (fits : msg.chunkData.length + 20 < 2 ^ 32) :
    serializeFileDataChunk msg = some (chunkBytes msg) := by
  have len : (UInt32.ofNat msg.chunkData.length).toNat = msg.chunkData.length := by
    simp only [UInt32.toNat_ofNat']
    omega
  have noWrap : ¬ (20 + UInt32.ofNat msg.chunkData.length).toNat < 20 + msg.chunkData.length := by
    rw [UInt32.toNat_add, len]
    have twenty : (20 : UInt32).toNat = 20 := rfl
    omega
  simp only [serializeFileDataChunk, len, if_neg noWrap, List.take_length, chunkBytes]

theorem serializeFileDataChunk_some {msg : MsgFileDataChunk} {payload : QByteArray}
    (size : msg.chunkData.length < 2 ^ 32) (h : serializeFileDataChunk msg = some payload) :
    msg.chunkData.length + 20 < 2 ^ 32 ∧ payload = chunkBytes msg := by
  have fits : msg.chunkData.length + 20 < 2 ^ 32 := by
    by_contra wraps
    have len : (UInt32.ofNat msg.chunkData.length).toNat = msg.chunkData.length := by
      simp only [UInt32.toNat_ofNat']
      omega
    have wrapped : (20 + UInt32.ofNat msg.chunkData.length).toNat <
        20 + msg.chunkData.length := by
      rw [UInt32.toNat_add, len]
      have twenty : (20 : UInt32).toNat = 20 := rfl
      omega
    simp only [serializeFileDataChunk, len, if_pos wrapped] at h
    cases h
  rw [serializeFileDataChunk_eq fits] at h
  exact ⟨fits, (Option.some.inj h).symm⟩

theorem parseFileDataChunk_chunkBytes {msg : MsgFileDataChunk}
    (fits : msg.chunkData.length + 20 < 2 ^ 32)
    (hsize : msg.chunkSize = UInt32.ofNat msg.chunkData.length) :
    parseFileDataChunk (chunkBytes msg) = some msg := by
  obtain ⟨fileIndex, offset, size, chunkData⟩ := msg
  simp only at fits hsize
  have len : (UInt32.ofNat chunkData.length).toNat = chunkData.length := by
    simp only [UInt32.toNat_ofNat']
    omega
  have index : (chunkBytes ⟨fileIndex, offset, size, chunkData⟩).take 8 = writeU64 fileIndex := by
    simp [chunkBytes]
  have position : ((chunkBytes ⟨fileIndex, offset, size, chunkData⟩).drop 8).take 8 =
      writeU64 offset := by
    simp [chunkBytes]
  have word : ((chunkBytes ⟨fileIndex, offset, size, chunkData⟩).drop 16).take 4 =
      writeU32 (UInt32.ofNat chunkData.length) := by
    simp [chunkBytes, List.drop_append, List.take_append]
  have tail : (chunkBytes ⟨fileIndex, offset, size, chunkData⟩).drop 20 =
      chunkData := by
    have header : (writeU64 fileIndex ++ writeU64 offset ++
        writeU32 (UInt32.ofNat chunkData.length)).length = 20 := by simp
    exact List.drop_left' header
  have sum : (20 : UInt32) + UInt32.ofNat chunkData.length =
      UInt32.ofNat (20 + chunkData.length) := by
    rw [UInt32.ofNat_add]
    rfl
  have long : ¬ 20 + chunkData.length < 20 := by omega
  have dIndex : UInt64.ofNat (BigEndian.decode (writeU64 fileIndex)) = fileIndex := by
    rw [writeU64, BigEndian.decode_encode fileIndex.toNat_lt, UInt64.ofNat_toNat]
  have dOffset : UInt64.ofNat (BigEndian.decode (writeU64 offset)) = offset := by
    rw [writeU64, BigEndian.decode_encode offset.toNat_lt, UInt64.ofNat_toNat]
  have dSize : UInt32.ofNat (BigEndian.decode (writeU32 (UInt32.ofNat chunkData.length))) =
      UInt32.ofNat chunkData.length := by
    rw [writeU32, BigEndian.decode_encode (UInt32.toNat_lt _), UInt32.ofNat_toNat]
  subst hsize
  simp only [parseFileDataChunk, chunkBytes_length, if_neg long, index, position, word, tail,
    dIndex, dOffset, dSize, sum, ne_eq, not_true_eq_false, if_false, len, List.take_length]

private theorem value_jsonU64 (J : QJson) (x : UInt64) : J.toULongLong (jsonU64 x) = x := by
  rw [jsonU64, J.toULongLong_integer, UInt64.toUInt64_toInt64]

theorem parseHandshakeResp_serialize (J : QJson) (msg : MsgHandshakeResp) :
    ∃ read, parseHandshakeResp J (serializeHandshakeResp J msg) = some read ∧
      read.accepted = msg.accepted := by
  obtain ⟨obj, hread, keep⟩ := J.fromJson_toJson
    [(literal "accepted", .bool msg.accepted), (literal "device", .string msg.deviceName),
      (literal "error", .string msg.errorMessage),
      (literal "version", .integer msg.version.toUInt64.toInt64)]
  refine ⟨_, by rw [parseHandshakeResp, serializeHandshakeResp, hread]; rfl, ?_⟩
  rw [keep (literal "accepted") trivial]
  rfl

theorem parseTransferAccept_serialize (J : QJson) (msg : MsgTransferAccept) :
    ∃ read, parseTransferAccept J (serializeTransferAccept J msg) = some read ∧
      read.accepted = msg.accepted ∧ read.startFileIndex = msg.startFileIndex ∧
      read.resumeOffset = msg.resumeOffset := by
  obtain ⟨obj, hread, keep⟩ := J.fromJson_toJson
    [(literal "accepted", .bool msg.accepted),
      (literal "receiver_device", .string msg.receiverDevice),
      (literal "resume_offset", jsonU64 msg.resumeOffset),
      (literal "start_file_index", jsonU64 msg.startFileIndex),
      (literal "transfer_id", .string msg.transferId)]
  refine ⟨_, by rw [parseTransferAccept, serializeTransferAccept, hread]; rfl, ?_, ?_, ?_⟩
  · rw [keep (literal "accepted") trivial]
    rfl
  · rw [keep (literal "start_file_index") trivial]
    exact value_jsonU64 J _
  · rw [keep (literal "resume_offset") trivial]
    exact value_jsonU64 J _

theorem parseTransferResume_serialize (J : QJson) (msg : MsgTransferResume) :
    ∃ read, parseTransferResume J (serializeTransferResume J msg) = some read ∧
      read.fileIndex = msg.fileIndex ∧ read.resumeOffset = msg.resumeOffset := by
  obtain ⟨obj, hread, keep⟩ := J.fromJson_toJson
    [(literal "file_index", jsonU64 msg.fileIndex),
      (literal "resume_offset", jsonU64 msg.resumeOffset),
      (literal "transfer_id", .string msg.transferId)]
  refine ⟨_, by rw [parseTransferResume, serializeTransferResume, hread]; rfl, ?_, ?_⟩
  · rw [keep (literal "file_index") trivial]
    exact value_jsonU64 J _
  · rw [keep (literal "resume_offset") trivial]
    exact value_jsonU64 J _

end Protocol

end FastTransfer
