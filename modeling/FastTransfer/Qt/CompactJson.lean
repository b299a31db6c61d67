/- FastTransfer/Qt/CompactJson
   source: QJsonDocument::toJson(QJsonDocument::Compact) and fromJson, on flat objects
   digest: A printer and parser of flat objects that satisfies the law of the JSON library. -/

import FastTransfer.Qt.QJson
import Mathlib.Tactic.IntervalCases

set_option autoImplicit false
set_option relaxedAutoImplicit false

namespace FastTransfer.CompactJson

def quote : UInt8 := 0x22

def backslash : UInt8 := 0x5C

def comma : UInt8 := 0x2C

def colon : UInt8 := 0x3A

def minus : UInt8 := 0x2D

def openBrace : UInt8 := 0x7B

def closeBrace : UInt8 := 0x7D

def hexByte (n : Nat) : UInt8 := UInt8.ofNat (if n < 10 then 0x30 + n else 0x57 + n)

def hexValue (b : UInt8) : Nat := if b.toNat < 0x40 then b.toNat - 0x30 else b.toNat - 0x57

/-- Printable ASCII stands for itself, everything else is escaped by its code unit. -/
def isPlain (c : UInt16) : Bool := 0x20 ≤ c && c < 0x7F && c != 0x22 && c != 0x5C

def escape (c : UInt16) : QByteArray :=
  if isPlain c then [c.toUInt8]
  else
    [backslash, 0x75, hexByte (c.toNat / 4096), hexByte (c.toNat / 256 % 16),
      hexByte (c.toNat / 16 % 16), hexByte (c.toNat % 16)]

def printString (s : QString) : QByteArray := quote :: (s.flatMap escape ++ [quote])

/-- The rest of a string behind its opening quote; the fuel is the number of bytes. -/
def readString : Nat → QByteArray → Option (QString × QByteArray)
  | 0, _ => none
  | fuel + 1, bytes =>
      match bytes with
      | [] => none
      | b :: rest =>
          if b = quote then some ([], rest)
          else if b = backslash then
            match rest with
            | _ :: h3 :: h2 :: h1 :: h0 :: rest =>
                (readString fuel rest).map fun r =>
                  (UInt16.ofNat (hexValue h3 * 4096 + hexValue h2 * 256 + hexValue h1 * 16 +
                    hexValue h0) :: r.1, r.2)
            | _ => none
          else (readString fuel rest).map fun r => (b.toUInt16 :: r.1, r.2)

def printNat (n : Nat) : QByteArray := (Nat.toDigits 10 n).map fun c => UInt8.ofNat c.toNat

def isDigit (b : UInt8) : Bool := 0x30 ≤ b && b ≤ 0x39

def readNat (bytes : QByteArray) : Nat × QByteArray :=
  (Nat.ofDigitChars 10 ((bytes.takeWhile isDigit).map fun b => Char.ofNat b.toNat) 0,
    bytes.dropWhile isDigit)

def printInt (n : Int64) : QByteArray :=
  if n.toInt < 0 then minus :: printNat n.toInt.natAbs else printNat n.toInt.natAbs

def readInt (bytes : QByteArray) : Int64 × QByteArray :=
  match bytes with
  | [] => (0, [])
  | b :: rest =>
      if b = minus then (Int64.ofInt (-(readNat rest).1), (readNat rest).2)
      else (Int64.ofInt (readNat (b :: rest)).1, (readNat (b :: rest)).2)

/-- Everything but a string, an integer or a boolean is printed as `null`. -/
def printValue : QJsonValue → QByteArray
  | .bool true => [0x74, 0x72, 0x75, 0x65]
  | .bool false => [0x66, 0x61, 0x6C, 0x73, 0x65]
  | .integer n => printInt n
  | .string s => printString s
  | _ => [0x6E, 0x75, 0x6C, 0x6C]

def readValue (bytes : QByteArray) : Option (QJsonValue × QByteArray) :=
  match bytes with
  | 0x22 :: rest => (readString rest.length rest).map fun r => (.string r.1, r.2)
  | 0x74 :: 0x72 :: 0x75 :: 0x65 :: rest => some (.bool true, rest)
  | 0x66 :: 0x61 :: 0x6C :: 0x73 :: 0x65 :: rest => some (.bool false, rest)
  | 0x6E :: 0x75 :: 0x6C :: 0x6C :: rest => some (.null, rest)
  | b :: rest =>
      if b = minus ∨ isDigit b then
        some (.integer (readInt (b :: rest)).1, (readInt (b :: rest)).2)
      else none
  | [] => none

def printMembers : QJsonObject → QByteArray
  | [] => [closeBrace]
  | [member] => printString member.1 ++ (colon :: (printValue member.2 ++ [closeBrace]))
  | member :: more :: obj =>
      printString member.1 ++ (colon :: (printValue member.2 ++ comma :: printMembers (more :: obj)))

def readMembers : Nat → QByteArray → Option QJsonObject
  | 0, _ => none
  | fuel + 1, bytes =>
      match bytes with
      | 0x22 :: rest => do
          let (key, rest) ← readString rest.length rest
          match rest with
          | 0x3A :: rest => do
              let (value, rest) ← readValue rest
              match rest with
              | 0x2C :: rest => do
                  let obj ← readMembers fuel rest
                  some ((key, value) :: obj)
              | [0x7D] => some [(key, value)]
              | _ => none
          | _ => none
      | _ => none

def toJson (obj : QJsonObject) : QByteArray := openBrace :: printMembers obj

def fromJson (bytes : QByteArray) : Option QJsonObject :=
  match bytes with
  | [0x7B, 0x7D] => some []
  | 0x7B :: rest => readMembers rest.length rest
  | _ => none

def toInt (value : QJsonValue) (default : UInt32) : UInt32 :=
  match value with
  | .integer n =>
      if -2 ^ 31 ≤ n.toInt ∧ n.toInt < 2 ^ 31 then UInt32.ofInt n.toInt else default
  | _ => default

def toULongLong : QJsonValue → UInt64
  | .integer n => n.toUInt64
  | .bool true => 1
  | _ => 0

def readBack : QJsonValue → QJsonValue
  | .bool b => .bool b
  | .integer n => .integer n
  | .string s => .string s
  | _ => .null

private theorem hexValue_hexByte {n : Nat} (h : n < 16) : hexValue (hexByte n) = n := by
  interval_cases n <;> rfl

private theorem readString_escape (fuel : Nat) (c : UInt16) (rest : QByteArray) :
    readString (fuel + 1) (escape c ++ rest) =
      (readString fuel rest).map fun r => (c :: r.1, r.2) := by
  have bound := c.toNat_lt
  by_cases plain : isPlain c
  · have code : c.toUInt8.toUInt16 = c := by
      apply UInt16.toNat_inj.mp
      simp only [isPlain, Bool.and_eq_true, decide_eq_true_eq, UInt16.le_iff_toNat_le,
        UInt16.lt_iff_toNat_lt] at plain
      have upper : c.toNat < 127 := plain.1.1.2
      simp only [UInt8.toNat_toUInt16, UInt16.toNat_toUInt8]
      omega
    have back : ∀ b : UInt8, b.toUInt16 = c → b ≠ quote ∧ b ≠ backslash := by
      rintro b rfl
      simp only [isPlain, Bool.and_eq_true, bne_iff_ne] at plain
      constructor
      · rintro rfl
        exact plain.1.2 rfl
      · rintro rfl
        exact plain.2 rfl
    obtain ⟨notQuote, notBackslash⟩ := back _ code
    simp only [escape, if_pos plain, List.cons_append, List.nil_append, readString,
      if_neg notQuote, if_neg notBackslash, code]
  · have value : hexValue (hexByte (c.toNat / 4096)) * 4096 +
        hexValue (hexByte (c.toNat / 256 % 16)) * 256 +
        hexValue (hexByte (c.toNat / 16 % 16)) * 16 + hexValue (hexByte (c.toNat % 16)) =
        c.toNat := by
      rw [hexValue_hexByte (by omega), hexValue_hexByte (by omega), hexValue_hexByte (by omega),
        hexValue_hexByte (by omega)]
      omega
    have notQuote : backslash ≠ quote := by decide
    rw [escape, if_neg plain]
    simp only [List.cons_append, List.nil_append, readString, if_neg notQuote, if_true, value,
      UInt16.ofNat_toNat]

private theorem readString_printString (s : QString) (rest : QByteArray) :
    ∀ fuel, (s.flatMap escape).length < fuel →
      readString fuel (s.flatMap escape ++ quote :: rest) = some (s, rest) := by
  induction s with
  | nil =>
      intro fuel enough
      obtain ⟨fuel, rfl⟩ := Nat.exists_eq_succ_of_ne_zero (Nat.ne_of_gt enough)
      rfl
  | cons c s ih =>
      intro fuel enough
      obtain ⟨fuel, rfl⟩ := Nat.exists_eq_succ_of_ne_zero (Nat.ne_of_gt (Nat.zero_lt_of_lt enough))
      have step : 0 < (escape c).length := by
        rw [escape]
        split
        · exact Nat.zero_lt_one
        · exact Nat.succ_pos _
      rw [List.flatMap_cons, List.length_append] at enough
      rw [List.flatMap_cons, List.append_assoc, readString_escape, ih fuel (by omega)]
      rfl

def EndsNumber (rest : QByteArray) : Prop := ∀ b ∈ rest.head?, isDigit b = false

private theorem digit_byte {n : Nat} {c : Char} (h : c ∈ Nat.toDigits 10 n) :
    isDigit (UInt8.ofNat c.toNat) = true ∧ Char.ofNat (UInt8.ofNat c.toNat).toNat = c := by
  have hc := Nat.isDigit_of_mem_toDigits (by decide) (by decide) h
  simp only [Char.isDigit, Bool.and_eq_true, decide_eq_true_eq, ge_iff_le,
    UInt32.le_iff_toNat_le] at hc
  have lower : 48 ≤ c.toNat := hc.1
  have upper : c.toNat ≤ 57 := hc.2
  have byte : (UInt8.ofNat c.toNat).toNat = c.toNat := by
    rw [UInt8.toNat_ofNat']
    omega
  constructor
  · simp only [isDigit, Bool.and_eq_true, decide_eq_true_eq, UInt8.le_iff_toNat_le, byte]
    exact ⟨lower, upper⟩
  · rw [byte, Char.ofNat_toNat]

private theorem readNat_printNat (n : Nat) {rest : QByteArray} (h : EndsNumber rest) :
    readNat (printNat n ++ rest) = (n, rest) := by
  have digit : ∀ b ∈ printNat n, isDigit b = true := by
    intro b hb
    obtain ⟨c, hc, rfl⟩ := List.mem_map.mp hb
    exact (digit_byte hc).1
  have back : ((printNat n).map fun b => Char.ofNat b.toNat) = Nat.toDigits 10 n := by
    rw [printNat, List.map_map]
    exact (List.map_congr_left fun c hc => (digit_byte hc).2).trans (List.map_id _)
  have takes : (printNat n ++ rest).takeWhile isDigit = printNat n := by
    rw [List.takeWhile_append_of_pos digit]
    cases rest with
    | nil => rw [List.takeWhile_nil, List.append_nil]
    | cons b rest =>
        rw [List.takeWhile_cons_of_neg (by simp [h b rfl]), List.append_nil]
  have drops : (printNat n ++ rest).dropWhile isDigit = rest := by
    rw [List.dropWhile_append_of_pos digit]
    cases rest with
    | nil => rfl
    | cons b rest => rw [List.dropWhile_cons_of_neg (by simp [h b rfl])]
  rw [readNat, takes, drops, back, Nat.ofDigitChars_ten_toDigits]

private theorem printNat_head (n : Nat) :
    ∃ b tail, printNat n = b :: tail ∧ isDigit b = true := by
  cases h : Nat.toDigits 10 n with
  | nil => exact absurd h Nat.toDigits_ne_nil
  | cons c tail =>
      have hc : c ∈ Nat.toDigits 10 n := h ▸ List.mem_cons_self
      exact ⟨_, _, by rw [printNat, h, List.map_cons], (digit_byte hc).1⟩

private theorem digit_ne_minus {b : UInt8} (h : isDigit b = true) : b ≠ minus := by
  rintro rfl
  cases h

private theorem readInt_printInt (n : Int64) {rest : QByteArray} (h : EndsNumber rest) :
    readInt (printInt n ++ rest) = (n, rest) := by
  by_cases neg : n.toInt < 0
  · have value : -((n.toInt.natAbs : Nat) : Int) = n.toInt := by omega
    rw [printInt, if_pos neg, List.cons_append, readInt, if_pos rfl, readNat_printNat _ h, value,
      Int64.ofInt_toInt]
  · have value : ((n.toInt.natAbs : Nat) : Int) = n.toInt := by omega
    obtain ⟨b, tail, eq, digit⟩ := printNat_head n.toInt.natAbs
    have whole := readNat_printNat n.toInt.natAbs h
    rw [eq, List.cons_append] at whole
    rw [printInt, if_neg neg, eq, List.cons_append, readInt, if_neg (digit_ne_minus digit), whole,
      value, Int64.ofInt_toInt]

private theorem printInt_head (n : Int64) :
    ∃ b tail, printInt n = b :: tail ∧ (b = minus ∨ isDigit b = true) := by
  by_cases neg : n.toInt < 0
  · exact ⟨minus, _, if_pos neg, .inl rfl⟩
  · obtain ⟨b, tail, eq, digit⟩ := printNat_head n.toInt.natAbs
    exact ⟨b, tail, by rw [printInt, if_neg neg, eq], .inr digit⟩

private theorem readValue_number {b : UInt8} (h : b = minus ∨ isDigit b = true)
    (rest : QByteArray) : readValue (b :: rest) =
      some (.integer (readInt (b :: rest)).1, (readInt (b :: rest)).2) := by
  unfold readValue
  split
  all_goals first
    | rename_i eq
      obtain ⟨rfl, rfl⟩ := List.cons.inj eq
      first
        | exact absurd h (by decide)
        | rw [if_pos h]
    | rename_i eq; cases eq

private theorem readValue_printValue (v : QJsonValue) {rest : QByteArray} (h : EndsNumber rest) :
    readValue (printValue v ++ rest) = some (readBack v, rest) := by
  cases v with
  | bool b => cases b <;> rfl
  | integer n =>
      obtain ⟨b, tail, eq, start⟩ := printInt_head n
      have whole := readInt_printInt n h
      rw [eq, List.cons_append] at whole
      rw [printValue, eq, List.cons_append, readValue_number start, whole]
      rfl
  | string s =>
      have whole := readString_printString s rest
        (s.flatMap escape ++ quote :: rest).length (by simp)
      have shape : printValue (.string s) ++ rest = 0x22 :: (s.flatMap escape ++ quote :: rest) := by
        simp [printValue, printString, quote]
      rw [shape, readValue, whole]
      rfl
  | undefined => rfl
  | null => rfl
  | double bits => rfl
  | composite => rfl

private theorem readMembers_printMembers (obj : QJsonObject) :
    ∀ fuel, obj.length < fuel → obj ≠ [] →
      readMembers fuel (printMembers obj) = some (obj.map fun kv => (kv.1, readBack kv.2)) := by
  induction obj with
  | nil =>
      intro fuel _ nonempty
      exact absurd rfl nonempty
  | cons member obj ih =>
      intro fuel enough _
      obtain ⟨fuel, rfl⟩ := Nat.exists_eq_succ_of_ne_zero (Nat.ne_of_gt (Nat.zero_lt_of_lt enough))
      have key : ∀ tail : QByteArray, printString member.1 ++ tail =
          0x22 :: (member.1.flatMap escape ++ quote :: tail) := by
        intro tail
        simp [printString, quote]
      have whole := fun tail : QByteArray => readString_printString member.1 tail
        (member.1.flatMap escape ++ quote :: tail).length (by simp)
      cases obj with
      | nil =>
          have ends : EndsNumber [closeBrace] := by
            rintro b ⟨⟩
            rfl
          have value := readValue_printValue member.2 ends
          rw [closeBrace] at value
          rw [printMembers, key, readMembers]
          simp only [whole, Option.bind_eq_bind, Option.bind_some, colon, closeBrace, value]
          rfl
      | cons more obj =>
          have ends : EndsNumber (comma :: printMembers (more :: obj)) := by
            rintro b ⟨⟩
            rfl
          have later := ih fuel (by simpa using enough) (List.cons_ne_nil _ _)
          have value := readValue_printValue member.2 ends
          rw [comma] at value
          rw [printMembers, key, readMembers]
          simp only [whole, Option.bind_eq_bind, Option.bind_some, colon, comma, value, later]
          rfl

private theorem length_lt_printMembers (obj : QJsonObject) :
    obj.length < (printMembers obj).length := by
  induction obj with
  | nil => exact Nat.zero_lt_one
  | cons member obj ih =>
      cases obj with
      | nil =>
          simp [printMembers]
          omega
      | cons more obj =>
          simp only [printMembers, List.length_append, List.length_cons] at ih ⊢
          omega

private theorem fromJson_toJson_eq (obj : QJsonObject) :
    fromJson (toJson obj) = some (obj.map fun kv => (kv.1, readBack kv.2)) := by
  cases obj with
  | nil => rfl
  | cons member obj =>
      have members := readMembers_printMembers (member :: obj) _
        (length_lt_printMembers (member :: obj)) (List.cons_ne_nil _ _)
      have head : ∃ b tail, printMembers (member :: obj) = 0x22 :: b :: tail := by
        cases obj <;> cases h : member.1.flatMap escape <;>
          simp [printMembers, printString, quote, h]
      obtain ⟨b, tail, eq⟩ := head
      rw [eq] at members
      rw [toJson, eq]
      exact members

private theorem value_map (obj : QJsonObject) (key : QString) (h : (obj.value key).IsScalar) :
    QJsonObject.value (obj.map fun kv => (kv.1, readBack kv.2)) key = obj.value key := by
  induction obj with
  | nil => rfl
  | cons member obj ih =>
      obtain ⟨name, v⟩ := member
      by_cases same : key = name
      · subst same
        have found : ∀ (w : QJsonValue) (rest : QJsonObject),
            QJsonObject.value ((key, w) :: rest) key = w := by
          intro w rest
          simp [QJsonObject.value]
        rw [found] at h
        rw [List.map_cons, found, found]
        cases v with
        | bool b => rfl
        | integer n => rfl
        | _ => cases h
      · have skip : ∀ (w : QJsonValue) (rest : QJsonObject),
            QJsonObject.value ((name, w) :: rest) key = QJsonObject.value rest key := by
          intro w rest
          have differ : (key == name) = false := by simpa using same
          simp [QJsonObject.value, List.lookup_cons, differ]
        rw [skip] at h
        rw [List.map_cons, skip, skip, ih h]

/-- The library the control messages are printed and parsed with, on flat objects. -/
def codec : QJson where
  toJson := toJson
  fromJson := fromJson
  toInt := toInt
  toULongLong := toULongLong
  toULongLong_integer _ := rfl
  fromJson_toJson obj := ⟨_, fromJson_toJson_eq obj, value_map obj⟩

end FastTransfer.CompactJson
