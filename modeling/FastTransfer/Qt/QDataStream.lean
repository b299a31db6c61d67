/- FastTransfer/Qt/QDataStream
   source: the QDataStream operators the binary messages use
   digest: Big-endian integers and strings, with the readers that invert the writers. -/

import FastTransfer.Library.BigEndian
import FastTransfer.Qt.QString

set_option autoImplicit false
set_option relaxedAutoImplicit false

namespace FastTransfer.QDataStream

def writeU64 (x : UInt64) : QByteArray := BigEndian.encode 8 x.toNat

def writeU32 (x : UInt32) : QByteArray := BigEndian.encode 4 x.toNat

def writeUnits (s : QString) : QByteArray := s.flatMap fun c => BigEndian.encode 2 c.toNat

/-- `stream << QString`: the length in bytes, then the code units. The null string is written
as the length `0xFFFFFFFF`. -/
def writeString (s : QString) : QByteArray :=
  if s = [] then writeU32 0xFFFFFFFF
  else writeU32 (UInt32.ofNat (2 * s.length)) ++ writeUnits s

/-- `stream >> quint64`; `none` is a status other than `Ok`, which is sticky. -/
def readU64 (bytes : QByteArray) : Option (UInt64 × QByteArray) :=
  (BigEndian.read 8 bytes).map fun r => (UInt64.ofNat r.1, r.2)

def readU32 (bytes : QByteArray) : Option (UInt32 × QByteArray) :=
  (BigEndian.read 4 bytes).map fun r => (UInt32.ofNat r.1, r.2)

def readUnits : Nat → QByteArray → Option (QString × QByteArray)
  | 0, bytes => some ([], bytes)
  | n + 1, hi :: lo :: bytes =>
      (readUnits n bytes).map fun r => (UInt16.ofNat (hi.toNat * 256 + lo.toNat) :: r.1, r.2)
  | _ + 1, _ => none

/-- `stream >> QString`: an odd byte length is corrupt data. -/
def readString (bytes : QByteArray) : Option (QString × QByteArray) := do
  let (len, rest) ← readU32 bytes
  if len = 0xFFFFFFFF then some ([], rest)
  else if len.toNat % 2 = 1 then none
  else readUnits (len.toNat / 2) rest

@[simp] theorem writeU64_length (x : UInt64) : (writeU64 x).length = 8 :=
  BigEndian.encode_length 8 _

@[simp] theorem writeU32_length (x : UInt32) : (writeU32 x).length = 4 :=
  BigEndian.encode_length 4 _

@[simp] theorem writeUnits_length (s : QString) : (writeUnits s).length = 2 * s.length := by
  induction s with
  | nil => rfl
  | cons c s ih =>
      simp only [writeUnits, List.flatMap_cons, List.length_append, BigEndian.encode_length,
        List.length_cons] at ih ⊢
      omega

@[simp] theorem writeString_length (s : QString) : (writeString s).length = 4 + 2 * s.length := by
  by_cases h : s = []
  · simp [writeString, h]
  · simp [writeString, h]

@[simp] theorem readU64_writeU64 (x : UInt64) (rest : QByteArray) :
    readU64 (writeU64 x ++ rest) = some (x, rest) := by
  have bound : x.toNat < 256 ^ 8 := x.toNat_lt
  simp [readU64, writeU64, BigEndian.read_encode bound]

@[simp] theorem readU32_writeU32 (x : UInt32) (rest : QByteArray) :
    readU32 (writeU32 x ++ rest) = some (x, rest) := by
  have bound : x.toNat < 256 ^ 4 := x.toNat_lt
  simp [readU32, writeU32, BigEndian.read_encode bound]

private theorem readUnits_writeUnits (s : QString) (rest : QByteArray) :
    readUnits s.length (writeUnits s ++ rest) = some (s, rest) := by
  induction s with
  | nil => rfl
  | cons c s ih =>
      have hi : (UInt8.ofNat (c.toNat / 256 ^ 1)).toNat = c.toNat / 256 := by
        have := c.toNat_lt
        simp only [UInt8.toNat_ofNat', pow_one]
        omega
      have lo : (UInt8.ofNat (c.toNat / 256 ^ 0)).toNat = c.toNat % 256 := by
        simp only [UInt8.toNat_ofNat', pow_zero, Nat.div_one]
      have unit : UInt16.ofNat (c.toNat / 256 * 256 + c.toNat % 256) = c := by
        rw [Nat.div_add_mod', UInt16.ofNat_toNat]
      have cons : writeUnits (c :: s) =
          UInt8.ofNat (c.toNat / 256 ^ 1) :: UInt8.ofNat (c.toNat / 256 ^ 0) :: writeUnits s := rfl
      simp only [cons, List.cons_append, List.length_cons, readUnits, ih, hi, lo, unit,
        Option.map_some]

theorem readString_writeString {s : QString} (h : s.length < 2 ^ 30) (rest : QByteArray) :
    readString (writeString s ++ rest) = some (s, rest) := by
  by_cases empty : s = []
  · simp [writeString, readString, empty]
  · have len : (UInt32.ofNat (2 * s.length)).toNat = 2 * s.length := by
      simp only [UInt32.toNat_ofNat']
      omega
    have notNull : UInt32.ofNat (2 * s.length) ≠ 0xFFFFFFFF := by
      intro e
      have := congrArg UInt32.toNat e
      rw [len] at this
      simp at this
      omega
    have even : ¬ 2 * s.length % 2 = 1 := by omega
    simp only [writeString, readString, if_neg empty, List.append_assoc, readU32_writeU32,
      Option.bind_eq_bind, Option.bind_some, if_neg notNull, len, if_neg even,
      Nat.mul_div_cancel_left s.length (by decide : 0 < 2), readUnits_writeUnits]

end FastTransfer.QDataStream
