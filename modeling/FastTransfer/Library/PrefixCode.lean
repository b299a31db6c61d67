/- FastTransfer/Library/PrefixCode
   source: none, a general library
   digest: Codes read off the front of a stream, and decoding in pieces. -/

import Mathlib.Data.List.Basic

set_option autoImplicit false
set_option relaxedAutoImplicit false

/-- What the front of a stream shows: too little, something that no continuation makes a
codeword, or a codeword and what is behind it. -/
inductive Front (α β : Type*)
  | more
  | refuse
  | word (value : β) (rest : List α)

/-- A code whose words are recognised without looking behind them. -/
structure PrefixCode (α β : Type*) where
  Valid : β → Prop
  encode : β → List α
  front : List α → Front α β
  encode_ne_nil : ∀ {b}, Valid b → encode b ≠ []
  front_word : ∀ {xs b rest}, front xs = .word b rest ↔ Valid b ∧ xs = encode b ++ rest
  front_refuse : ∀ {xs ys}, front xs = .refuse → front (xs ++ ys) = .refuse

namespace PrefixCode

variable {α β : Type*} (C : PrefixCode α β)

theorem rest_length {xs rest : List α} {b : β} (h : C.front xs = .word b rest) :
    rest.length < xs.length := by
  obtain ⟨valid, rfl⟩ := C.front_word.mp h
  have := List.length_pos_iff.mpr (C.encode_ne_nil valid)
  simp only [List.length_append]
  omega

/-- Nothing more can be read off the front. -/
def Stuck (xs : List α) : Prop := ∀ b rest, C.front xs ≠ .word b rest

/-- All words at the front of a stream, and the remainder. -/
def decode (xs : List α) : List β × List α :=
  match _h : C.front xs with
  | .word b rest => (b :: (decode rest).1, (decode rest).2)
  | _ => ([], xs)
termination_by xs.length
decreasing_by all_goals exact C.rest_length _h

theorem decode_word {xs rest : List α} {b : β} (h : C.front xs = .word b rest) :
    C.decode xs = (b :: (C.decode rest).1, (C.decode rest).2) := by
  rw [decode]
  split
  · next e =>
      rw [h] at e
      cases e
      rfl
  · next e => exact absurd h (e _ _)

theorem decode_stuck {xs : List α} (h : C.Stuck xs) : C.decode xs = ([], xs) := by
  rw [decode]
  split
  · next e => exact absurd e (h _ _)
  · rfl

theorem words_induction {motive : List α → Prop} (stuck : ∀ xs, C.Stuck xs → motive xs)
    (word : ∀ xs b rest, C.front xs = .word b rest → motive rest → motive xs) (xs : List α) :
    motive xs := by
  induction hn : xs.length using Nat.strongRecOn generalizing xs with
  | ind n ih =>
      by_cases h : C.Stuck xs
      · exact stuck xs h
      · simp only [Stuck, ne_eq, not_forall, not_not] at h
        obtain ⟨b, rest, h⟩ := h
        exact word xs b rest h (ih _ (hn ▸ C.rest_length h) rest rfl)

theorem decode_rest_stuck (xs : List α) : C.Stuck (C.decode xs).2 := by
  induction xs using C.words_induction with
  | stuck xs h => rwa [C.decode_stuck h]
  | word xs b rest h ih => rwa [C.decode_word h]

theorem decode_valid (xs : List α) : ∀ b ∈ (C.decode xs).1, C.Valid b := by
  induction xs using C.words_induction with
  | stuck xs h =>
      rw [C.decode_stuck h]
      intro b hb
      cases hb
  | word xs b rest h ih =>
      rw [C.decode_word h]
      intro b' hb
      rcases List.mem_cons.mp hb with rfl | hb
      · exact (C.front_word.mp h).1
      · exact ih b' hb

theorem decode_eq (xs : List α) :
    xs = (C.decode xs).1.flatMap C.encode ++ (C.decode xs).2 := by
  induction xs using C.words_induction with
  | stuck xs h => rw [C.decode_stuck h]; rfl
  | word xs b rest h ih =>
      rw [C.decode_word h, List.flatMap_cons, List.append_assoc, ← ih]
      exact (C.front_word.mp h).2

theorem decode_encoded {bs : List β} (valid : ∀ b ∈ bs, C.Valid b) (rest : List α) :
    C.decode (bs.flatMap C.encode ++ rest) = (bs ++ (C.decode rest).1, (C.decode rest).2) := by
  induction bs with
  | nil => rfl
  | cons b bs ih =>
      have front : C.front ((b :: bs).flatMap C.encode ++ rest) =
          .word b (bs.flatMap C.encode ++ rest) := by
        refine C.front_word.mpr ⟨valid b List.mem_cons_self, ?_⟩
        rw [List.flatMap_cons, List.append_assoc]
      rw [C.decode_word front, ih fun b' hb => valid b' (List.mem_cons_of_mem b hb)]
      rfl

/-- A stream splits into words and a stuck remainder in one way only. -/
theorem decode_unique {bs : List β} {xs rest : List α} (valid : ∀ b ∈ bs, C.Valid b)
    (eq : xs = bs.flatMap C.encode ++ rest) (stuck : C.Stuck rest) : C.decode xs = (bs, rest) := by
  rw [eq, C.decode_encoded valid, C.decode_stuck stuck, List.append_nil]

/-- Decoding in two pieces: the remainder of the first piece waits for the second. -/
theorem decode_append (xs ys : List α) :
    C.decode (xs ++ ys) =
      ((C.decode xs).1 ++ (C.decode ((C.decode xs).2 ++ ys)).1,
        (C.decode ((C.decode xs).2 ++ ys)).2) := by
  conv_lhs => rw [C.decode_eq xs, List.append_assoc]
  exact C.decode_encoded (C.decode_valid xs) _

theorem stuck_nil : C.Stuck [] := by
  intro b rest h
  obtain ⟨valid, eq⟩ := C.front_word.mp h
  exact C.encode_ne_nil valid (List.append_eq_nil_iff.mp eq.symm).1

theorem decode_front {words : List β} (valid : ∀ b ∈ words, C.Valid b) {xs ys : List α}
    (eq : xs ++ ys = words.flatMap C.encode) :
    ∃ behind, words = (C.decode xs).1 ++ behind ∧
      (C.decode xs).2 ++ ys = behind.flatMap C.encode := by
  have whole : C.decode (xs ++ ys) = (words, []) :=
    C.decode_unique valid (by rw [List.append_nil, eq]) C.stuck_nil
  rw [C.decode_append] at whole
  obtain ⟨front, rest⟩ := Prod.mk.inj whole
  have split := C.decode_eq ((C.decode xs).2 ++ ys)
  rw [rest, List.append_nil] at split
  exact ⟨_, front.symm, split⟩

end PrefixCode
