/- FastTransfer/Qt/PlaceMarker
   source: QString::arg
   digest: The place markers of a text, and what arg puts in their place. -/

import FastTransfer.Qt.QString

set_option autoImplicit false
set_option relaxedAutoImplicit false

namespace FastTransfer.QString

def percent : UInt16 := 0x25

def letterL : UInt16 := 0x4C

/-- A place marker behind its percent sign. -/
structure Marker where
  localised : Bool
  number : Nat
  length : Nat
  deriving DecidableEq

def digitValue (c : UInt16) : Option Nat :=
  if 0x30 ≤ c && c ≤ 0x39 then some (c.toNat - 0x30) else none

def digits (localised : Bool) : QString → Option Marker
  | [] => none
  | c :: s =>
      match digitValue c with
      | none => none
      | some tens =>
          match s.head?.bind digitValue with
          | none => some ⟨localised, tens, 1⟩
          | some ones => some ⟨localised, 10 * tens + ones, 2⟩

/-- The marker that the text behind a percent sign makes, with or without the letter. -/
def marker : QString → Option Marker
  | [] => none
  | c :: s =>
      if c = letterL then (digits true s).map fun m => { m with length := m.length + 1 }
      else digits false (c :: s)

inductive Piece
  | char (c : UInt16)
  | marker (m : Marker) (raw : QString)
  deriving DecidableEq

/-- The pieces of a text from which the first characters are skipped. -/
def pieces : Nat → QString → List Piece
  | _, [] => []
  | skipped + 1, _ :: s => pieces skipped s
  | 0, c :: s =>
      if c = percent then
        match marker s with
        | none => .char c :: pieces 0 s
        | some m => .marker m (c :: s.take m.length) :: pieces m.length s
      else .char c :: pieces 0 s

def Piece.number : Piece → Option Nat
  | .char _ => none
  | .marker m _ => some m.number

def Piece.replace (number : Nat) (plain localised : QString) : Piece → QString
  | .char c => [c]
  | .marker m raw =>
      if m.number = number then if m.localised then localised else plain else raw

/-- `QString::arg`: all markers of the lowest number give way to the argument, those with the
letter to the argument as the locale writes it. -/
def arg (s plain localised : QString) : QString :=
  match ((pieces 0 s).filterMap Piece.number).min? with
  | none => s
  | some number => (pieces 0 s).flatMap (Piece.replace number plain localised)

/-- The text has none of the markers from 0 to 2. -/
def Unmarked (s : QString) : Prop := ∀ n ∈ (pieces 0 s).filterMap Piece.number, 2 < n

instance (s : QString) : Decidable (Unmarked s) := by
  unfold Unmarked
  infer_instance

theorem unmarked_of_notMem {s : QString} (plain : percent ∉ s) : Unmarked s := by
  have chars : pieces 0 s = s.map .char := by
    induction s with
    | nil => simp [pieces]
    | cons c s ih =>
        rw [List.mem_cons, not_or] at plain
        simp [pieces, Ne.symm plain.1, ih plain.2]
  intro n mem
  rw [chars, List.filterMap_map] at mem
  simp [Piece.number] at mem

section Colon

variable (rest : QString)

private theorem digits_colon (localised : Bool) (s : QString) :
    digits localised (s ++ colon :: rest) = digits localised s := by
  have none : digitValue colon = none := by decide
  cases s with
  | nil => simp [digits, none]
  | cons c s =>
      cases s with
      | nil => simp [digits, none]
      | cons d s => simp [digits]

private theorem marker_colon (s : QString) : marker (s ++ colon :: rest) = marker s := by
  have other : colon ≠ letterL := by decide
  cases s with
  | nil =>
      have none : digitValue colon = none := by decide
      simp [marker, digits, other, none]
  | cons c s =>
      have front := digits_colon rest false (c :: s)
      rw [List.cons_append] at front
      rw [List.cons_append, marker, marker, digits_colon, front]

private theorem digits_length {localised : Bool} {s : QString} {m : Marker}
    (h : digits localised s = some m) : m.length ≤ s.length := by
  cases s with
  | nil => simp [digits] at h
  | cons c s =>
      rw [digits] at h
      cases first : digitValue c with
      | none => simp [first] at h
      | some tens =>
          cases second : s.head?.bind digitValue with
          | none =>
              simp only [first, second, Option.some.injEq] at h
              simp [← h]
          | some ones =>
              simp only [first, second, Option.some.injEq] at h
              cases s with
              | nil => simp at second
              | cons d s => simp [← h]

private theorem marker_length {s : QString} {m : Marker} (h : marker s = some m) :
    m.length ≤ s.length := by
  cases s with
  | nil => simp [marker] at h
  | cons c s =>
      rw [marker] at h
      split at h
      · obtain ⟨m', first, rfl⟩ := Option.map_eq_some_iff.mp h
        have bound := digits_length first
        simp only [List.length_cons]
        omega
      · exact digits_length h

theorem pieces_colon {skipped : Nat} (s : QString) (within : skipped ≤ s.length) :
    pieces skipped (s ++ colon :: rest) = pieces skipped s ++ pieces 0 (colon :: rest) := by
  induction s generalizing skipped with
  | nil =>
      have zero : skipped = 0 := by simpa using within
      simp [zero, pieces]
  | cons c s ih =>
      cases skipped with
      | succ skipped =>
          rw [List.cons_append, pieces, pieces]
          exact ih (by simpa using within)
      | zero =>
          rw [List.cons_append, pieces, pieces, marker_colon]
          by_cases sign : c = percent
          · simp only [sign, if_true]
            cases found : marker s with
            | none => simp [ih (Nat.zero_le _)]
            | some m =>
                have bound := marker_length found
                simp [ih bound, List.take_append_of_le_length bound]
          · simp [sign, ih (Nat.zero_le _)]

end Colon

theorem pieces_text {s : QString} {number : Nat} {plain localised : QString}
    (other : number ∉ (pieces 0 s).filterMap Piece.number) :
    (pieces 0 s).flatMap (Piece.replace number plain localised) = s := by
  suffices skip : ∀ skipped, number ∉ (pieces skipped s).filterMap Piece.number →
      (pieces skipped s).flatMap (Piece.replace number plain localised) = s.drop skipped by
    simpa using skip 0 other
  clear other
  induction s with
  | nil => simp [pieces]
  | cons c s ih =>
      intro skipped other
      cases skipped with
      | succ skipped =>
          rw [pieces] at other ⊢
          simpa using ih skipped other
      | zero =>
          rw [pieces] at other ⊢
          split at other
          · rename_i sign
            rw [if_pos sign]
            split at other
            · rename_i none
              have later := ih 0 (by simpa [Piece.number] using other)
              simpa [none, Piece.replace] using later
            · rename_i m found
              simp only [List.filterMap_cons, Piece.number, List.mem_cons, not_or] at other
              have later := ih m.length other.2
              simp only [List.flatMap_cons, Piece.replace, if_neg (Ne.symm other.1), later]
              simp
          · rename_i sign
            have later := ih 0 (by simpa [Piece.number] using other)
            rw [if_neg sign]
            simpa [Piece.replace] using later

theorem arg_first (first localised : QString) :
    arg (literal "%1:%2") first localised = first ++ colon :: literal "%2" := by
  have apart : pieces 0 (literal "%1:%2") =
      [.marker ⟨false, 1, 1⟩ (literal "%1"), .char colon,
        .marker ⟨false, 2, 1⟩ (literal "%2")] := by decide
  have lowest : ((pieces 0 (literal "%1:%2")).filterMap Piece.number).min? = some 1 := by decide
  rw [apart] at lowest
  simp only [arg, apart, lowest]
  simp [Piece.replace]

/-- The second argument goes to its own marker only if the first has no lower one and not the
same. -/
theorem arg_second {first : QString} (unmarked : Unmarked first) (second localised : QString) :
    arg (first ++ colon :: literal "%2") second localised = first ++ colon :: second := by
  have tail : pieces 0 (colon :: literal "%2") =
      [.char colon, .marker ⟨false, 2, 1⟩ (literal "%2")] := by decide
  have apart := pieces_colon (literal "%2") first (Nat.zero_le _)
  rw [tail] at apart
  have numbers : ((pieces 0 (first ++ colon :: literal "%2")).filterMap Piece.number).min? =
      some 2 := by
    rw [apart, List.filterMap_append, List.min?_eq_some_iff]
    constructor
    · simp [Piece.number]
    · intro n mem
      rcases List.mem_append.mp mem with mem | mem
      · have := unmarked n mem
        omega
      · have same : 2 = n := by simpa [Piece.number] using mem
        omega
  have other : 2 ∉ (pieces 0 first).filterMap Piece.number := by
    intro mem
    have := unmarked 2 mem
    omega
  simp only [arg, numbers]
  rw [apart, List.flatMap_append, pieces_text other]
  simp [Piece.replace]

end FastTransfer.QString
