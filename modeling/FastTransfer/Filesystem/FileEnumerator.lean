/- FastTransfer/Filesystem/FileEnumerator
   source: src/filesystem/FileEnumerator.cpp, src/core/TransferSession.cpp
   digest: The manifest of a list of paths, and which of its offers the other side understands. -/

import FastTransfer.Core.TransferSession
import FastTransfer.Network.PathSafety
import FastTransfer.Network.TcpConnection

set_option autoImplicit false
set_option relaxedAutoImplicit false

namespace FastTransfer

open QString (literal)
open Protocol

structure QFileInfo where
  isFile : Bool
  isDir : Bool
  absoluteFilePath : QString
  size : UInt64 := 0
  lastModified : UInt64 := 0

/-- A file system as the enumerator sees it. `info` is there for paths that exist, `files` are the
files that the iterator finds below a folder, in its order, and `relativeFilePath` is that of a
`QDir`. -/
structure FileSystem where
  info : QString → Option QFileInfo
  files : QString → List (QString × QFileInfo)
  relativeFilePath : QString → QString → QString

namespace FileEnumerator

abbrev State := UInt64 × FileManifest

def addFile (state : State) (relativePath : QString) (info : QFileInfo) : State :=
  (state.1 + 1,
    { totalFiles := state.2.totalFiles + 1
      totalBytes := state.2.totalBytes + info.size
      items := state.2.items ++
        [{ fileIndex := state.1, sourceAbsolutePath := info.absoluteFilePath
           relativePath := PlatformFilesystem.sanitizePath relativePath
           fileSize := info.size, modifiedTime := info.lastModified }] })

def addFolder (fs : FileSystem) (state : State) (pathStr : QString) (info : QFileInfo) : State :=
  let root := info.absoluteFilePath
  let rootDirName := namePart pathStr
  let rootDirName := if rootDirName = [] then literal "Folder" else rootDirName
  (fs.files root).foldl
    (fun state found => addFile state
      (rootDirName ++ QString.slash :: fs.relativeFilePath root found.1) found.2) state

def addPath (fs : FileSystem) (state : State) (pathStr : QString) : State :=
  match fs.info pathStr with
  | none => state
  | some info =>
      if info.isFile then addFile state (namePart pathStr) info
      else if info.isDir then addFolder fs state pathStr info
      else state

def enumeratePaths (fs : FileSystem) (inputPaths : List QString) : FileManifest :=
  (inputPaths.foldl (addPath fs) (0, {})).2

end FileEnumerator

/-- The offer that a `HandshakeResp` makes a session send. -/
def FileManifest.offer (self : FileManifest) (transferId localDeviceName : QString) :
    MsgTransferOffer :=
  ⟨transferId, localDeviceName, self.totalFiles, self.totalBytes, self.toProtocolItems⟩

/-- The packet of the offer passes the size check, and is parsed to the same totals and items. -/
def Understood (offer : MsgTransferOffer) : Prop :=
  (⟨.TransferOffer, 0, serializeTransferOffer offer⟩ : Packet).Acceptable ∧
    ∃ read, parseTransferOffer (serializeTransferOffer offer) = some read ∧
      read.totalFiles = offer.totalFiles ∧ read.totalBytes = offer.totalBytes ∧
      read.items = offer.items

namespace FileEnumerator

theorem offer_sent {B : Blake3} (J : QJson) (s : TransferSession B) {payload : QByteArray}
    {resp : MsgHandshakeResp} (parsed : parseHandshakeResp J payload = some resp)
    (accepted : resp.accepted = true) (connected : s.connected = true) :
    (TransferSession.onHandshakeResp J s payload).outbox = s.outbox ++
      [⟨.TransferOffer, 0, serializeTransferOffer
        (s.sendManifest.offer s.transferId s.localDeviceName)⟩] := by
  unfold TransferSession.onHandshakeResp
  rw [parsed]
  dsimp only
  rw [if_pos accepted]
  exact if_pos connected

/-- Up to a million files, 64 MiB of offer, and no path that a second sanitising changes: then
the receiver understands the offer of whatever was enumerated. -/
theorem enumerated_understood (fs : FileSystem) (inputPaths : List QString)
    (transferId localDeviceName : QString)
    (count : (enumeratePaths fs inputPaths).items.length ≤ 1000000)
    (size : (serializeTransferOffer
      ((enumeratePaths fs inputPaths).offer transferId localDeviceName)).length ≤
        MAX_METADATA_PAYLOAD_SIZE.toNat)
    (stable : ∀ item ∈ (enumeratePaths fs inputPaths).items,
      PlatformFilesystem.sanitizePath item.relativePath = item.relativePath) :
    Understood ((enumeratePaths fs inputPaths).offer transferId localDeviceName) := by
  have admissible :
      ((enumeratePaths fs inputPaths).offer transferId localDeviceName).Admissible := by
    refine ⟨?_, size, ?_⟩
    · rw [FileManifest.offer, FileManifest.toProtocolItems, List.length_map]
      exact count
    · intro item mem
      obtain ⟨source, among, rfl⟩ := List.mem_map.mp mem
      exact stable source among
  exact ⟨.inl size, _, parseTransferOffer_serialize admissible, rfl, rfl, rfl⟩

def emptyFiles : FileSystem where
  info path := some ⟨true, false, path, 0, 0⟩
  files _ := []
  relativeFilePath _ path := path

/-- One plain file. -/
theorem enumerated_understood_plain :
    Understood ((enumeratePaths emptyFiles [literal "/home/a.txt"]).offer (literal "t")
      (literal "pc")) :=
  enumerated_understood emptyFiles _ _ _ (by decide) (by decide +kernel) (by decide)

private theorem addPath_emptyFiles (paths : List QString) (state : State) :
    (paths.foldl (addPath emptyFiles) state).2.items.length =
      state.2.items.length + paths.length := by
  induction paths generalizing state with
  | nil => rfl
  | cons path rest ih =>
      rw [List.foldl_cons, ih]
      show (state.2.items ++ [_]).length + rest.length = _
      rw [List.length_append, List.length_singleton, List.length_cons]
      omega

private theorem offer_emptyFiles (paths : List QString) (transferId localDeviceName : QString) :
    ((enumeratePaths emptyFiles paths).offer transferId localDeviceName).items.length =
      paths.length := by
  rw [FileManifest.offer, FileManifest.toProtocolItems, List.length_map, enumeratePaths,
    addPath_emptyFiles, List.length_nil, Nat.zero_add]

theorem parseTransferOffer_crowded {msg : MsgTransferOffer} (crowded : 1000000 < msg.items.length)
    (bound : msg.items.length < 2 ^ 64) :
    parseTransferOffer (serializeTransferOffer msg) = none := by
  rw [parseTransferOffer]
  split
  · rfl
  rename_i size
  have limit : MAX_METADATA_PAYLOAD_SIZE.toNat = 67108864 := rfl
  have total := serializeTransferOffer_length msg
  have transferId : msg.transferId.length < 2 ^ 30 := by omega
  have senderDevice : msg.senderDevice.length < 2 ^ 30 := by omega
  have count : (UInt64.ofNat msg.items.length).toNat = msg.items.length :=
    UInt64.toNat_ofNat_of_lt' bound
  have many : 1000000 < UInt64.ofNat msg.items.length := by
    have million : (1000000 : UInt64).toNat = 1000000 := by decide
    rw [UInt64.lt_iff_toNat_lt, count, million]
    exact crowded
  rw [Option.eq_none_iff_forall_not_mem]
  intro read parsed
  simp only [serializeTransferOffer, List.append_assoc] at parsed
  obtain ⟨id, first, parsed⟩ := Option.bind_eq_some_iff.mp parsed
  cases (QDataStream.readString_writeString transferId _).symm.trans first
  obtain ⟨device, second, parsed⟩ := Option.bind_eq_some_iff.mp parsed
  cases (QDataStream.readString_writeString senderDevice _).symm.trans second
  obtain ⟨files, third, parsed⟩ := Option.bind_eq_some_iff.mp parsed
  cases (QDataStream.readU64_writeU64 _ _).symm.trans third
  obtain ⟨bytes, fourth, parsed⟩ := Option.bind_eq_some_iff.mp parsed
  cases (QDataStream.readU64_writeU64 _ _).symm.trans fourth
  obtain ⟨items, fifth, parsed⟩ := Option.bind_eq_some_iff.mp parsed
  cases (QDataStream.readU64_writeU64 _ _).symm.trans fifth
  cases (if_pos many).symm.trans parsed

/-- A million and one files are more than the parser takes; and a name whose illegal character
hides dots is sanitised by the sender to dots, which the receiver rejects. -/
theorem enumerated_misunderstood :
    ¬ Understood ((enumeratePaths emptyFiles (List.replicate 1000001 (literal "/a"))).offer
        (literal "t") (literal "pc")) ∧
      ¬ Understood ((enumeratePaths emptyFiles [literal "/home/.*."]).offer (literal "t")
        (literal "pc")) := by
  constructor
  · rintro ⟨-, read, parsed, -⟩
    have length := offer_emptyFiles (List.replicate 1000001 (literal "/a")) (literal "t")
      (literal "pc")
    rw [List.length_replicate] at length
    rw [parseTransferOffer_crowded (by omega) (by omega)] at parsed
    cases parsed
  · rintro ⟨-, read, parsed, -⟩
    have rejected : parseTransferOffer (serializeTransferOffer
        ((enumeratePaths emptyFiles [literal "/home/.*."]).offer (literal "t")
          (literal "pc"))) = none := by
      decide +kernel
    rw [rejected] at parsed
    cases parsed

end FileEnumerator

end FastTransfer
