/- FastTransfer/Qt/QString
   source: the QString and QByteArray operations the sources call
   digest: Byte arrays and UTF-16 strings as lists, with the Qt operations on them. -/

import Mathlib.Data.List.Basic

set_option autoImplicit false
set_option relaxedAutoImplicit false

namespace FastTransfer

/-- Raw bytes, as `QByteArray` holds them. -/
abbrev QByteArray := List UInt8

/-- A string is its UTF-16 code units; null and empty strings compare equal and are
identified. -/
abbrev QString := List UInt16

namespace QString

/-- A string literal of the source; all of them are ASCII. -/
def literal (s : String) : QString := s.toList.map fun c => UInt16.ofNat c.toNat

def slash : UInt16 := 0x2F

def backslash : UInt16 := 0x5C

def colon : UInt16 := 0x3A

def dot : UInt16 := 0x2E

def dash : UInt16 := 0x2D

/-- `QChar::isSpace`: the ASCII blanks, NEL, NBSP and the Unicode separators. -/
def isSpace (c : UInt16) : Bool :=
  (0x09 ≤ c && c ≤ 0x0D) || c == 0x20 || c == 0x85 || c == 0xA0 || c == 0x1680 ||
    (0x2000 ≤ c && c ≤ 0x200A) || c == 0x2028 || c == 0x2029 || c == 0x202F ||
    c == 0x205F || c == 0x3000

def trimmed (s : QString) : QString :=
  ((s.dropWhile isSpace).reverse.dropWhile isSpace).reverse

/-- `QString::replace` of one character by another. -/
def replaceChar (s : QString) (before after : UInt16) : QString :=
  s.map fun c => if c = before then after else c

theorem replaceChar_of_notMem {s : QString} {before after : UInt16} (absent : before ∉ s) :
    replaceChar s before after = s := by
  unfold replaceChar
  conv_rhs => rw [← List.map_id s]
  apply List.map_congr_left
  intro c mem
  apply if_neg
  rintro rfl
  exact absent mem

/-- `while (s.startsWith(c)) s.remove(0, 1)`. -/
def stripLeading (c : UInt16) (s : QString) : QString := s.dropWhile (· = c)

/-- `while (s.endsWith(c)) s.chop(1)`. -/
def stripTrailing (c : UInt16) (s : QString) : QString := (s.reverse.dropWhile (· = c)).reverse

/-- `QString::split` with `Qt::SkipEmptyParts`. -/
def splitSkipEmpty (sep : UInt16) (s : QString) : List QString :=
  (s.splitOn sep).filter (· ≠ [])

def join (sep : UInt16) (parts : List QString) : QString := [sep].intercalate parts

def number (n : Nat) : QString := (Nat.toDigits 10 n).map fun c => UInt16.ofNat c.toNat

def isHighSurrogate (c : UInt16) : Bool := 0xD800 ≤ c && c ≤ 0xDBFF

def isLowSurrogate (c : UInt16) : Bool := 0xDC00 ≤ c && c ≤ 0xDFFF

/-- Every surrogate has its partner, where the character in front may be a high surrogate that
still lacks one. -/
def pairsUp : Bool → QString → Bool
  | high, [] => !high
  | true, c :: s => isLowSurrogate c && pairsUp false s
  | false, c :: s =>
      if isHighSurrogate c then pairsUp true s else !isLowSurrogate c && pairsUp false s

def isValidUtf16 (s : QString) : Bool := pairsUp false s

/-- `QString::remove` of a `QRegularExpression` that is one class of characters. The engine refuses
a subject that is not valid UTF-16, so that nothing of it matches. -/
def removeClass (p : UInt16 → Bool) (s : QString) : QString :=
  if isValidUtf16 s then s.filter fun c => !p c else s

/-- A dash for every run of characters in a class. -/
def collapseRuns (p : UInt16 → Bool) : Bool → QString → QString
  | _, [] => []
  | inRun, c :: s =>
      if p c then
        if inRun then collapseRuns p true s else dash :: collapseRuns p true s
      else c :: collapseRuns p false s

/-- `QString::replace` of a `QRegularExpression` that is a run of a class, by a dash; as above
nothing matches in a string that is not valid UTF-16. -/
def replaceRuns (p : UInt16 → Bool) (s : QString) : QString :=
  if isValidUtf16 s then collapseRuns p false s else s

/-- Upper-case ASCII letters folded to lower case. -/
def foldCase (c : UInt16) : UInt16 := if 0x41 ≤ c && c ≤ 0x5A then c + 0x20 else c

/-- `QString::compare(a, b, Qt::CaseInsensitive) == 0`. Both sides are hexadecimal digests
when they agree, so only the ASCII letters matter. -/
def equalsIgnoringCase (a b : QString) : Bool := a.map foldCase = b.map foldCase

@[simp] theorem equalsIgnoringCase_self (a : QString) : equalsIgnoringCase a a = true := by
  simp [equalsIgnoringCase]

end QString

namespace QByteArray

def hexDigit (n : UInt8) : UInt16 :=
  if n < 10 then 0x30 + n.toUInt16 else 0x57 + n.toUInt16

/-- `QString::fromLatin1(raw.toHex())`. -/
def toHex (raw : QByteArray) : QString :=
  raw.flatMap fun b => [hexDigit (b / 16), hexDigit (b % 16)]

@[simp] theorem toHex_length (raw : QByteArray) : (toHex raw).length = 2 * raw.length := by
  induction raw with
  | nil => rfl
  | cons b raw ih =>
      simp only [toHex, List.flatMap_cons, List.length_append, List.length_cons,
        List.length_nil] at ih ⊢
      omega

end QByteArray

end FastTransfer
