/- FastTransfer/Network/ChunkPayload
   source: src/network/Protocol.cpp, src/network/TcpConnection.cpp
   digest: Which chunk payloads the parser takes, for payloads of any length. -/

import FastTransfer.Network.Protocol

set_option autoImplicit false
set_option relaxedAutoImplicit false

namespace FastTransfer.Protocol

open QDataStream

def lengthField (data : QByteArray) : Nat := BigEndian.decode ((data.drop 16).take 4)

/-- The length field is the number of bytes behind the twenty header bytes. -/
def WellFormed (data : QByteArray) : Prop :=
  20 ≤ data.length ∧ lengthField data = data.length - 20

/-- The payload is accepted if and only if it is well formed, and what is accepted is all of it. -/
structure ReadExactly (data : QByteArray) : Prop where
  accepted : (parseFileDataChunk data).isSome ↔ WellFormed data
  whole : ∀ msg, parseFileDataChunk data = some msg →
    msg.chunkData = data.drop 20 ∧ serializeFileDataChunk msg = some data

theorem lengthField_lt (data : QByteArray) : lengthField data < 2 ^ 32 := by
  have bound := BigEndian.decode_lt ((data.drop 16).take 4)
  have width : ((data.drop 16).take 4).length ≤ 4 := List.length_take_le 4 _
  calc
    lengthField data < 256 ^ ((data.drop 16).take 4).length := bound
    _ ≤ 256 ^ 4 := Nat.pow_le_pow_right (by decide) width
    _ = 2 ^ 32 := by decide

private theorem sizeField_toNat (data : QByteArray) :
    (UInt32.ofNat (BigEndian.decode ((data.drop 16).take 4))).toNat = lengthField data :=
  UInt32.toNat_ofNat_of_lt' (lengthField_lt data)

/-- The comparison of the parser is one of remainders. -/
private theorem check_iff {data : QByteArray} (long : 20 ≤ data.length) :
    20 + UInt32.ofNat (BigEndian.decode ((data.drop 16).take 4)) = UInt32.ofNat data.length ↔
      lengthField data = (data.length - 20) % 2 ^ 32 := by
  have bound := lengthField_lt data
  have twenty : (20 : UInt32).toNat = 20 := rfl
  rw [← UInt32.toNat_inj, UInt32.toNat_add, sizeField_toNat, UInt32.toNat_ofNat', twenty]
  omega

theorem parseFileDataChunk_iff {data : QByteArray} {msg : MsgFileDataChunk} :
    parseFileDataChunk data = some msg ↔
      20 ≤ data.length ∧ lengthField data = (data.length - 20) % 2 ^ 32 ∧
        msg = { fileIndex := UInt64.ofNat (BigEndian.decode (data.take 8))
                offset := UInt64.ofNat (BigEndian.decode ((data.drop 8).take 8))
                chunkSize := UInt32.ofNat (lengthField data)
                chunkData := (data.drop 20).take (lengthField data) } := by
  unfold parseFileDataChunk
  by_cases short : data.length < 20
  · rw [if_pos short]
    constructor
    · intro impossible
      cases impossible
    · rintro ⟨long, -⟩
      omega
  · have long : 20 ≤ data.length := Nat.le_of_not_lt short
    rw [if_neg short]
    dsimp only
    rw [sizeField_toNat]
    by_cases same : lengthField data = (data.length - 20) % 2 ^ 32
    · rw [if_neg (not_not.mpr ((check_iff long).mpr same)), Option.some.injEq]
      constructor
      · intro eq
        exact ⟨long, same, eq.symm⟩
      · rintro ⟨-, -, rfl⟩
        rfl
    · rw [if_pos fun check => same ((check_iff long).mp check)]
      constructor
      · intro impossible
        cases impossible
      · rintro ⟨-, accepted, -⟩
        exact absurd accepted same

private theorem chunkBytes_read {data : QByteArray} (long : 20 ≤ data.length)
    (fits : lengthField data = data.length - 20) :
    chunkBytes
      { fileIndex := UInt64.ofNat (BigEndian.decode (data.take 8))
        offset := UInt64.ofNat (BigEndian.decode ((data.drop 8).take 8))
        chunkSize := UInt32.ofNat (lengthField data)
        chunkData := data.drop 20 } = data := by
  have field : ∀ i n : Nat, i + n ≤ 20 →
      BigEndian.encode n (BigEndian.decode ((data.drop i).take n)) = (data.drop i).take n ∧
        BigEndian.decode ((data.drop i).take n) < 256 ^ n := by
    intro i n inside
    have width : ((data.drop i).take n).length = n := by
      rw [List.length_take, List.length_drop]
      omega
    have round := BigEndian.encode_decode ((data.drop i).take n)
    have bound := BigEndian.decode_lt ((data.drop i).take n)
    rw [width] at round bound
    exact ⟨round, bound⟩
  obtain ⟨index, indexBound⟩ := field 0 8 (by decide)
  obtain ⟨offset, offsetBound⟩ := field 8 8 (by decide)
  obtain ⟨size, sizeBound⟩ := field 16 4 (by decide)
  rw [List.drop_zero] at index indexBound
  have length : (data.drop 20).length = BigEndian.decode ((data.drop 16).take 4) := by
    rw [List.length_drop]
    exact fits.symm
  have eight := @List.take_add _ data 8 8
  have sixteen := @List.take_add _ data 16 4
  simp only [chunkBytes, writeU64, writeU32]
  rw [length, UInt64.toNat_ofNat_of_lt' indexBound, UInt64.toNat_ofNat_of_lt' offsetBound,
    UInt32.toNat_ofNat_of_lt' sizeBound, index, offset, size, ← eight, ← sixteen]
  exact List.take_append_drop 20 data

/-- A payload of any length is read exactly, unless it has 2^32 bytes or more and its length field
is the remainder that the truncated comparison looks for. -/
theorem readExactly_iff (data : QByteArray) :
    ReadExactly data ↔
      data.length < 2 ^ 32 ∨ lengthField data ≠ (data.length - 20) % 2 ^ 32 := by
  constructor
  · intro exactly
    by_contra both
    obtain ⟨large, same⟩ := not_or.mp both
    rw [not_not] at same
    have long : 20 ≤ data.length := by omega
    have read := parseFileDataChunk_iff.mpr ⟨long, same, rfl⟩
    -- it is accepted, so it should be well formed; but then it cannot be written back
    obtain ⟨-, fits⟩ := exactly.accepted.mp (by rw [read]; rfl)
    obtain ⟨all, back⟩ := exactly.whole _ read
    have length : ((data.drop 20).take (lengthField data)).length = data.length - 20 := by
      rw [List.length_take, List.length_drop, fits, Nat.min_self]
    have bound := lengthField_lt data
    have room := (serializeFileDataChunk_some (by dsimp only; omega) back).1
    dsimp only at room
    omega
  · intro condition
    have sound : ∀ msg, parseFileDataChunk data = some msg →
        20 ≤ data.length ∧ data.length < 2 ^ 32 ∧ lengthField data = data.length - 20 := by
      intro msg read
      obtain ⟨long, same, -⟩ := parseFileDataChunk_iff.mp read
      have small : data.length < 2 ^ 32 := by
        apply condition.resolve_right
        exact not_not.mpr same
      refine ⟨long, small, ?_⟩
      omega
    constructor
    · constructor
      · intro accepted
        obtain ⟨msg, read⟩ := Option.isSome_iff_exists.mp accepted
        obtain ⟨long, -, fits⟩ := sound msg read
        exact ⟨long, fits⟩
      · rintro ⟨long, fits⟩
        have bound := lengthField_lt data
        have same : lengthField data = (data.length - 20) % 2 ^ 32 := by omega
        rw [parseFileDataChunk_iff.mpr ⟨long, same, rfl⟩]
        rfl
    · intro msg read
      obtain ⟨long, small, fits⟩ := sound msg read
      obtain ⟨-, -, rfl⟩ := parseFileDataChunk_iff.mp read
      have all : (data.drop 20).take (lengthField data) = data.drop 20 := by
        apply List.take_of_length_le
        rw [List.length_drop, fits]
      rw [all]
      refine ⟨rfl, ?_⟩
      rw [serializeFileDataChunk_eq, chunkBytes_read long fits]
      rw [List.length_drop]
      omega

/-- A payload of 2^32 + 20 zeros says that no data follows, and is accepted as if that were so. -/
theorem overlong_accepted :
    ¬ ReadExactly (List.replicate (2 ^ 32 + 20) 0) ∧
      parseFileDataChunk (List.replicate (2 ^ 32 + 20) 0) = some {} := by
  have length : (List.replicate (2 ^ 32 + 20) (0 : UInt8)).length = 2 ^ 32 + 20 :=
    List.length_replicate
  have cut : ∀ i n : Nat, i + n ≤ 20 →
      ((List.replicate (2 ^ 32 + 20) (0 : UInt8)).drop i).take n = List.replicate n 0 := by
    intro i n inside
    rw [List.drop_replicate, List.take_replicate]
    congr 1
    omega
  have field : lengthField (List.replicate (2 ^ 32 + 20) 0) = 0 := by
    rw [lengthField, cut 16 4 (by decide)]
    decide
  have read : parseFileDataChunk (List.replicate (2 ^ 32 + 20) 0) = some {} := by
    apply parseFileDataChunk_iff.mpr
    refine ⟨by omega, by omega, ?_⟩
    have first := cut 0 8 (by decide)
    rw [List.drop_zero] at first
    rw [field, first, cut 8 8 (by decide), List.take_zero]
    decide
  refine ⟨fun exactly => ?_, read⟩
  obtain ⟨-, fits⟩ := exactly.accepted.mp (by rw [read]; rfl)
  rw [field, length] at fits
  omega

end FastTransfer.Protocol
