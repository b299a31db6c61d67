/- FastTransfer/Library/BigEndian
   source: none, a general library
   digest: Fixed-width big-endian numerals and the reader that inverts them. -/

import Mathlib.Algebra.Order.Ring.Nat
import Mathlib.Tactic.Ring

set_option autoImplicit false
set_option relaxedAutoImplicit false

namespace BigEndian

/-- The `width` low-order bytes of `value`, most significant first. -/
def encode : Nat → Nat → List UInt8
  | 0, _ => []
  | width + 1, value => UInt8.ofNat (value / 256 ^ width) :: encode width value

/-- The number a string of base-256 digits denotes. -/
def decode : List UInt8 → Nat
  | [] => 0
  | b :: bs => b.toNat * 256 ^ bs.length + decode bs

def read (width : Nat) (bytes : List UInt8) : Option (Nat × List UInt8) :=
  if bytes.length < width then none
  else some (decode (bytes.take width), bytes.drop width)

@[simp] theorem encode_length (width value : Nat) : (encode width value).length = width := by
  induction width with
  | zero => rfl
  | succ width ih => simp [encode, ih]

theorem decode_lt (bytes : List UInt8) : decode bytes < 256 ^ bytes.length := by
  induction bytes with
  | nil => simp [decode]
  | cons b bs ih =>
      have hb : b.toNat + 1 ≤ 256 := b.toNat_lt
      calc decode (b :: bs) < b.toNat * 256 ^ bs.length + 256 ^ bs.length := by
            simpa [decode] using ih
        _ = (b.toNat + 1) * 256 ^ bs.length := by ring
        _ ≤ 256 * 256 ^ bs.length := Nat.mul_le_mul_right _ hb
        _ = 256 ^ (b :: bs).length := by rw [List.length_cons]; ring

theorem decode_encode_mod (width value : Nat) :
    decode (encode width value) = value % 256 ^ width := by
  induction width with
  | zero => simp [encode, decode, Nat.mod_one]
  | succ width ih =>
      have digit : (UInt8.ofNat (value / 256 ^ width)).toNat = value / 256 ^ width % 256 := rfl
      simp only [encode, decode, encode_length, digit, ih]
      rw [pow_succ, Nat.mod_mul, Nat.mul_comm, Nat.add_comm]

theorem decode_encode {width value : Nat} (h : value < 256 ^ width) :
    decode (encode width value) = value := by
  rw [decode_encode_mod, Nat.mod_eq_of_lt h]

private theorem encode_mul_add (width k value : Nat) :
    encode width (k * 256 ^ width + value) = encode width value := by
  induction width generalizing k with
  | zero => rfl
  | succ width ih =>
      have split : k * 256 ^ (width + 1) = k * 256 * 256 ^ width := by ring
      have digit : UInt8.ofNat ((k * 256 * 256 ^ width + value) / 256 ^ width) =
          UInt8.ofNat (value / 256 ^ width) := by
        rw [Nat.mul_comm, Nat.mul_add_div (Nat.pow_pos (by decide))]
        apply UInt8.toNat_inj.mp
        simp only [UInt8.toNat_ofNat']
        omega
      rw [encode, encode, split, digit, ih]

theorem encode_decode (bytes : List UInt8) : encode bytes.length (decode bytes) = bytes := by
  induction bytes with
  | nil => rfl
  | cons b bs ih =>
      have digit : (b.toNat * 256 ^ bs.length + decode bs) / 256 ^ bs.length = b.toNat := by
        rw [Nat.mul_comm, Nat.mul_add_div (Nat.pow_pos (by decide)),
          Nat.div_eq_of_lt (decode_lt bs), Nat.add_zero]
      rw [List.length_cons, encode, decode, digit, UInt8.ofNat_toNat, encode_mul_add, ih]

theorem read_encode {width value : Nat} (h : value < 256 ^ width) (rest : List UInt8) :
    read width (encode width value ++ rest) = some (value, rest) := by
  have hlen : ¬ (encode width value ++ rest).length < width := by simp
  have htake : (encode width value ++ rest).take width = encode width value :=
    List.take_left' (encode_length width value)
  have hdrop : (encode width value ++ rest).drop width = rest :=
    List.drop_left' (encode_length width value)
  rw [read, if_neg hlen, htake, hdrop, decode_encode h]

end BigEndian
