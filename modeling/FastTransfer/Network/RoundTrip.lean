/- FastTransfer/Network/RoundTrip
   source: src/network/Protocol.cpp
   digest: The binary messages are read as they were written. -/

import FastTransfer.Network.Protocol

set_option autoImplicit false
set_option relaxedAutoImplicit false

namespace FastTransfer

/-- A manifest item that the receiver's sanitiser leaves as it is. -/
structure ManifestItem.Plain (item : ManifestItem) : Prop where
  relativePath : item.relativePath.length < 2 ^ 30
  blake3Checksum : item.blake3Checksum.length < 2 ^ 30
  fixed : PlatformFilesystem.sanitizePath item.relativePath = item.relativePath

/-- An offer within the limits of the receiver. -/
structure MsgTransferOffer.Admissible (msg : MsgTransferOffer) : Prop where
  count : msg.items.length ≤ 1000000
  size : (Protocol.serializeTransferOffer msg).length ≤ MAX_METADATA_PAYLOAD_SIZE.toNat
  fixed : ∀ item ∈ msg.items, PlatformFilesystem.sanitizePath item.relativePath = item.relativePath

namespace Protocol

open QDataStream
open QString (literal)

theorem readItem_writeItem {item : ManifestItem} (plain : item.Plain) (rest : QByteArray) :
    readItem (writeItem item ++ rest) = some (item, rest) := by
  simp only [readItem, writeItem, List.append_assoc, readU64_writeU64, Option.bind_eq_bind,
    Option.bind_some, readString_writeString plain.relativePath,
    readString_writeString plain.blake3Checksum, checkedPath_fixed plain.fixed]

theorem readItems_writeItems {items : List ManifestItem} (plain : ∀ item ∈ items, item.Plain) :
    readItems items.length (items.flatMap writeItem) = some items := by
  induction items with
  | nil => rfl
  | cons item rest ih =>
      have first := readItem_writeItem (plain item List.mem_cons_self) (rest.flatMap writeItem)
      have later := ih fun other mem => plain other (List.mem_cons_of_mem item mem)
      rw [List.length_cons, List.flatMap_cons, readItems, first]
      simp only [Option.bind_eq_bind, Option.bind_some, later]

@[simp] theorem writeItem_length (item : ManifestItem) :
    (writeItem item).length =
      32 + 2 * item.relativePath.length + 2 * item.blake3Checksum.length := by
  simp only [writeItem, List.length_append, writeU64_length, writeString_length]
  omega

theorem serializeTransferOffer_length (msg : MsgTransferOffer) :
    (serializeTransferOffer msg).length =
      32 + 2 * msg.transferId.length + 2 * msg.senderDevice.length +
        (msg.items.flatMap writeItem).length := by
  simp only [serializeTransferOffer, List.length_append, writeU64_length, writeString_length]
  omega

theorem item_length {items : List ManifestItem} {item : ManifestItem}
    (mem : item ∈ items) : (writeItem item).length ≤ (items.flatMap writeItem).length := by
  obtain ⟨before, behind, rfl⟩ := List.append_of_mem mem
  simp only [List.flatMap_append, List.flatMap_cons, List.length_append]
  omega

theorem parseTransferOffer_serialize {msg : MsgTransferOffer} (h : msg.Admissible) :
    parseTransferOffer (serializeTransferOffer msg) = some msg := by
  have limit : MAX_METADATA_PAYLOAD_SIZE.toNat = 67108864 := rfl
  have size := h.size
  have total := serializeTransferOffer_length msg
  have transferId : msg.transferId.length < 2 ^ 30 := by omega
  have senderDevice : msg.senderDevice.length < 2 ^ 30 := by omega
  have plain : ∀ item ∈ msg.items, item.Plain := by
    intro item mem
    have part := item_length mem
    rw [writeItem_length] at part
    exact ⟨by omega, by omega, h.fixed item mem⟩
  have count : (UInt64.ofNat msg.items.length).toNat = msg.items.length := by
    have := h.count
    exact UInt64.toNat_ofNat_of_lt' (by rw [UInt64.size]; omega)
  have few : ¬ 1000000 < UInt64.ofNat msg.items.length := by
    have million : (1000000 : UInt64).toNat = 1000000 := by decide
    rw [UInt64.lt_iff_toNat_lt, count, million]
    exact Nat.not_lt.mpr h.count
  rw [parseTransferOffer, if_neg (Nat.not_lt.mpr size)]
  simp only [serializeTransferOffer, List.append_assoc]
  refine Option.bind_eq_some_iff.mpr ⟨_, readString_writeString transferId _, ?_⟩
  refine Option.bind_eq_some_iff.mpr ⟨_, readString_writeString senderDevice _, ?_⟩
  refine Option.bind_eq_some_iff.mpr ⟨_, readU64_writeU64 _ _, ?_⟩
  refine Option.bind_eq_some_iff.mpr ⟨_, readU64_writeU64 _ _, ?_⟩
  refine Option.bind_eq_some_iff.mpr ⟨_, readU64_writeU64 _ _, ?_⟩
  refine (if_neg few).trans (Option.bind_eq_some_iff.mpr ⟨msg.items, ?_, rfl⟩)
  rw [count]
  exact readItems_writeItems plain

/-- Every binary message is parsed as it was serialised. -/
theorem parse_serialize :
    (∀ msg : MsgTransferOffer, msg.Admissible →
      parseTransferOffer (serializeTransferOffer msg) = some msg) ∧
    (∀ msg : MsgFileStart, msg.transferId.length < 2 ^ 30 → msg.relativePath.length < 2 ^ 30 →
      msg.expectedBlake3.length < 2 ^ 30 →
      PlatformFilesystem.sanitizePath msg.relativePath = msg.relativePath →
      parseFileStart (serializeFileStart msg) = some msg) ∧
    (∀ msg : MsgFileDataChunk, msg.chunkSize.toNat = msg.chunkData.length →
      msg.chunkData.length < 2 ^ 32 - 20 →
      (serializeFileDataChunk msg).bind parseFileDataChunk = some msg) ∧
    (∀ msg : MsgFileEnd, msg.blake3Checksum.length < 2 ^ 30 →
      parseFileEnd (serializeFileEnd msg) = some msg) ∧
    (∀ msg : MsgFileAck, msg.calculatedBlake3.length < 2 ^ 30 →
      parseFileAck (serializeFileAck msg) = some msg) := by
  refine ⟨fun msg => parseTransferOffer_serialize, ?_, ?_, fun msg => parseFileEnd_serialize,
    fun msg => parseFileAck_serialize⟩
  · intro msg transferId relativePath expectedBlake3 fixed
    exact parseFileStart_serialize transferId relativePath expectedBlake3 (checkedPath_fixed fixed)
  · intro msg size short
    have fits : msg.chunkData.length + 20 < 2 ^ 32 := by omega
    have same : msg.chunkSize = UInt32.ofNat msg.chunkData.length := by
      rw [← size, UInt32.ofNat_toNat]
    rw [serializeFileDataChunk_eq fits, Option.bind_some, parseFileDataChunk_chunkBytes fits same]

/-- An offer of two files, a file that starts, a chunk, an end and an acknowledgement. -/
theorem parse_serialize_example :
    let offer : MsgTransferOffer :=
      { transferId := literal "t", senderDevice := literal "pc", totalFiles := 2, totalBytes := 3
        items := [⟨0, literal "a.txt", 1, 5, []⟩, ⟨1, literal "d/b", 2, 6, literal "ff"⟩] }
    let start : MsgFileStart := ⟨literal "t", 1, literal "d/b", 2, 6, literal "ff"⟩
    let chunk : MsgFileDataChunk := ⟨1, 0, 2, [7, 8]⟩
    parseTransferOffer (serializeTransferOffer offer) = some offer ∧
      parseFileStart (serializeFileStart start) = some start ∧
      (serializeFileDataChunk chunk).bind parseFileDataChunk = some chunk ∧
      parseFileEnd (serializeFileEnd ⟨1, literal "ff"⟩) = some ⟨1, literal "ff"⟩ ∧
      parseFileAck (serializeFileAck ⟨1, 0, 2, literal "ff"⟩) = some ⟨1, 0, 2, literal "ff"⟩ := by
  intro offer start chunk
  obtain ⟨ofOffer, ofStart, ofChunk, ofEnd, ofAck⟩ := parse_serialize
  exact ⟨ofOffer offer ⟨by decide, by decide +kernel, by decide⟩,
    ofStart start (by decide) (by decide) (by decide) (by decide),
    ofChunk chunk (by decide) (by decide), ofEnd _ (by decide), ofAck _ (by decide)⟩

end Protocol

end FastTransfer
