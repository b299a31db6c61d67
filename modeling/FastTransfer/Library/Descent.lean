/- FastTransfer/Library/Descent
   source: none, a general library
   digest: Moves up and down from a base, and when they stay below it. -/

import Mathlib.Algebra.Ring.Int.Defs
import Mathlib.Data.List.Infix

set_option autoImplicit false
set_option relaxedAutoImplicit false

namespace Descent

variable {α : Type*}

inductive Move (α : Type*)
  | up
  | stay
  | down (name : α)
deriving DecidableEq

def Move.isUp : Move α → Bool
  | .up => true
  | _ => false

def Move.isDown : Move α → Bool
  | .down _ => true
  | _ => false

/-- Follow the moves. A place is the names between it and the base, the innermost first; there is
none above the base. -/
def follow : List α → List (Move α) → Option (List α)
  | place, [] => some place
  | [], .up :: _ => none
  | _ :: place, .up :: moves => follow place moves
  | place, .stay :: moves => follow place moves
  | place, .down name :: moves => follow (name :: place) moves

/-- The moves are never above the base, and end strictly below it. -/
def Below (moves : List (Move α)) : Prop :=
  (∀ front ∈ moves.inits, follow [] front ≠ none) ∧ follow [] moves ≠ some []

instance [DecidableEq α] (moves : List (Move α)) : Decidable (Below moves) := by
  unfold Below
  infer_instance

def Move.level : Move α → Int
  | .up => -1
  | .stay => 0
  | .down _ => 1

def ups (moves : List (Move α)) : Nat := moves.countP Move.isUp

def downs (moves : List (Move α)) : Nat := moves.countP Move.isDown

@[simp] theorem follow_nil (place : List α) : follow place [] = some place := by
  simp [follow]

@[simp] theorem follow_up_base (moves : List (Move α)) : follow [] (.up :: moves) = none := by
  simp [follow]

@[simp] theorem follow_up (name : α) (place : List α) (moves : List (Move α)) :
    follow (name :: place) (.up :: moves) = follow place moves := by
  simp [follow]

@[simp] theorem follow_stay (place : List α) (moves : List (Move α)) :
    follow place (.stay :: moves) = follow place moves := by
  cases place <;> simp [follow]

@[simp] theorem follow_down (name : α) (place : List α) (moves : List (Move α)) :
    follow place (.down name :: moves) = follow (name :: place) moves := by
  cases place <;> simp [follow]

theorem follow_length {place after : List α} {moves : List (Move α)}
    (h : follow place moves = some after) :
    after.length + ups moves = place.length + downs moves := by
  induction moves generalizing place with
  | nil =>
      cases h
      simp [ups, downs]
  | cons move moves ih =>
      cases move with
      | up =>
          cases place with
          | nil => simp at h
          | cons name place =>
              have rest := ih (by simpa using h)
              simp only [ups, downs, List.countP_cons, Move.isUp, Move.isDown,
                List.length_cons] at rest ⊢
              simp
              omega
      | stay =>
          have rest := ih (by simpa using h)
          simpa [ups, downs, List.countP_cons, Move.isUp, Move.isDown] using rest
      | down name =>
          have rest : after.length + ups moves = (name :: place).length + downs moves := by
            apply ih
            simpa using h
          simp only [ups, downs, List.countP_cons, Move.isUp, Move.isDown,
            List.length_cons] at rest ⊢
          simp
          omega

/-- The moves can be followed exactly if at no point more of them led up than there are levels. -/
theorem follow_ne_none_iff (place : List α) (moves : List (Move α)) :
    follow place moves ≠ none ↔
      ∀ front ∈ moves.inits, ups front ≤ place.length + downs front := by
  induction moves generalizing place with
  | nil => simp [ups, downs]
  | cons move moves ih =>
      rw [List.inits_cons, List.forall_mem_cons, List.forall_mem_map]
      cases move with
      | up =>
          cases place with
          | nil =>
              simp only [follow_up_base, ne_eq, not_true_eq_false, false_iff, not_and]
              intro _ all
              have first := all [] (by simp)
              simp [ups, downs, Move.isUp, Move.isDown] at first
          | cons name place =>
              rw [follow_up, ih]
              simp only [ups, downs, List.countP_cons, List.countP_nil, Move.isUp, Move.isDown,
                List.length_cons, Nat.zero_le, true_and]
              refine forall₂_congr fun front _ => ?_
              simp
              omega
      | stay =>
          rw [follow_stay, ih]
          simp [ups, downs, Move.isUp, Move.isDown]
      | down name =>
          rw [follow_down, ih]
          simp only [ups, downs, List.countP_cons, List.countP_nil, Move.isUp, Move.isDown,
            List.length_cons, Nat.zero_le, true_and]
          refine forall₂_congr fun front _ => ?_
          simp
          omega

theorem follow_front {place : List α} {moves front : List (Move α)} (h : front ∈ moves.inits)
    (followed : follow place moves ≠ none) : follow place front ≠ none := by
  rw [follow_ne_none_iff] at followed ⊢
  intro shorter mem
  apply followed
  rw [List.mem_inits] at *
  exact mem.trans h

theorem below_iff_follow {moves : List (Move α)} :
    Below moves ↔ ∃ place, follow [] moves = some place ∧ place ≠ [] := by
  constructor
  · rintro ⟨inside, strict⟩
    have whole := inside moves (by simp)
    obtain ⟨place, eq⟩ := Option.ne_none_iff_exists'.mp whole
    refine ⟨place, eq, ?_⟩
    rintro rfl
    exact strict eq
  · rintro ⟨place, eq, nonempty⟩
    constructor
    · intro front mem
      apply follow_front mem
      simp [eq]
    · rw [eq]
      simpa using nonempty

/-- Moves stay below the base exactly if, counted from the front, those up are never more than
those down, and fewer in all. -/
theorem below_iff_count {moves : List (Move α)} :
    Below moves ↔ (∀ front ∈ moves.inits, ups front ≤ downs front) ∧ ups moves < downs moves := by
  have inside : follow [] moves ≠ none ↔ ∀ front ∈ moves.inits, ups front ≤ downs front := by
    simpa using follow_ne_none_iff [] moves
  rw [below_iff_follow, ← inside]
  constructor
  · rintro ⟨place, eq, nonempty⟩
    have length := follow_length eq
    have positive := List.length_pos_iff.mpr nonempty
    simp only [List.length_nil] at length
    refine ⟨by simp [eq], by omega⟩
  · rintro ⟨followed, fewer⟩
    obtain ⟨place, eq⟩ := Option.ne_none_iff_exists'.mp followed
    refine ⟨place, eq, ?_⟩
    rintro rfl
    have length := follow_length eq
    simp only [List.length_nil] at length
    omega

theorem sum_level (moves : List (Move α)) :
    (moves.map Move.level).sum = downs moves - ups moves := by
  induction moves with
  | nil => simp [ups, downs]
  | cons move moves ih =>
      rw [List.map_cons, List.sum_cons, ih]
      cases move <;>
        simp only [ups, downs, List.countP_cons, Move.isUp, Move.isDown, Move.level] <;>
        simp <;> omega

theorem below_iff_level {moves : List (Move α)} :
    Below moves ↔
      (∀ front ∈ moves.inits, 0 ≤ (front.map Move.level).sum) ∧
        0 < (moves.map Move.level).sum := by
  rw [below_iff_count]
  simp only [sum_level]
  constructor
  · rintro ⟨inside, fewer⟩
    refine ⟨fun front mem => ?_, by omega⟩
    have few := inside front mem
    omega
  · rintro ⟨inside, fewer⟩
    refine ⟨fun front mem => ?_, by omega⟩
    have few := inside front mem
    omega

end Descent
