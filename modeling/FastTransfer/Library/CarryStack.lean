/- FastTransfer/Library/CarryStack
   source: none, a general library
   digest: A left-balanced binary tree, computed with a stack that carries like a binary counter. -/

import Mathlib.Data.Nat.Log
import Mathlib.Tactic.Ring

set_option autoImplicit false
set_option relaxedAutoImplicit false

namespace CarryStack

variable {α β : Type*} (node : α → α → α) (leaf : Nat → α)

/-- The tree over `count` leaves from `first` on. The left part is the largest power of two
below the count. -/
def tree (first count : Nat) : α :=
  if h : count ≤ 1 then leaf first
  else
    node (tree first (2 ^ (count - 1).log2))
      (tree (first + 2 ^ (count - 1).log2) (count - 2 ^ (count - 1).log2))
termination_by count
decreasing_by
  all_goals
    have below : 2 ^ (count - 1).log2 ≤ count - 1 := Nat.log2_self_le (by omega)
    have positive := Nat.two_pow_pos (count - 1).log2
    omega

/-- Add a tree as number `count` of its level; two trees of a pair become one of the next. -/
def push : List α → α → Nat → List α
  | [], new, _ => [new]
  | top :: stack, new, count =>
      if count % 2 = 0 then push stack (node top new) (count / 2) else new :: top :: stack

/-- The stack, top first, that stands for `count` trees of the level. -/
def stack (level count : Nat) : List α :=
  if h : count = 0 then []
  else if count % 2 = 0 then stack (level + 1) (count / 2)
  else tree node leaf ((count - 1) * 2 ^ level) (2 ^ level) :: stack (level + 1) (count / 2)
termination_by count
decreasing_by all_goals omega

theorem tree_one (first : Nat) : tree node leaf first 1 = leaf first := by
  rw [tree, dif_pos (Nat.le_refl 1)]

theorem tree_split (first level : Nat) {rest : Nat} (positive : 0 < rest)
    (small : rest ≤ 2 ^ level) :
    tree node leaf first (2 ^ level + rest) =
      node (tree node leaf first (2 ^ level)) (tree node leaf (first + 2 ^ level) rest) := by
  have power := Nat.two_pow_pos level
  have log : (2 ^ level + rest - 1).log2 = level := by
    apply (Nat.log2_eq_iff (by omega)).mpr
    rw [Nat.pow_succ]
    omega
  rw [tree, dif_neg (by omega), log, Nat.add_sub_cancel_left]

theorem stack_even (level : Nat) {count : Nat} (even : count % 2 = 0) :
    stack node leaf level count = stack node leaf (level + 1) (count / 2) := by
  by_cases zero : count = 0
  · subst zero
    rw [stack, dif_pos rfl, stack, dif_pos rfl]
  · rw [stack, dif_neg zero, if_pos even]

theorem stack_odd (level : Nat) {count : Nat} (odd : count % 2 = 1) :
    stack node leaf level count =
      tree node leaf ((count - 1) * 2 ^ level) (2 ^ level) ::
        stack node leaf (level + 1) (count / 2) := by
  rw [stack, dif_neg (by omega), if_neg (by omega)]

theorem stack_nil_iff (level count : Nat) : stack node leaf level count = [] ↔ count = 0 := by
  induction count using Nat.strong_induction_on generalizing level with
  | _ count ih =>
      by_cases zero : count = 0
      · subst zero
        rw [stack, dif_pos rfl]
        exact iff_of_true rfl rfl
      · rcases Nat.mod_two_eq_zero_or_one count with even | odd
        · rw [stack_even node leaf level even, ih (count / 2) (by omega)]
          omega
        · rw [stack_odd node leaf level odd]
          simp [zero]

private theorem odd_blocks (level : Nat) {count : Nat} (odd : count % 2 = 1) :
    (count - 1) * 2 ^ level = count / 2 * 2 ^ (level + 1) ∧
      count * 2 ^ level = count / 2 * 2 ^ (level + 1) + 2 ^ level := by
  have left : (count - 1) * 2 ^ level = count / 2 * 2 ^ (level + 1) := by
    rw [Nat.pow_succ', ← Nat.mul_assoc]
    congr 1
    omega
  have right : count * 2 ^ level = (count - 1) * 2 ^ level + 2 ^ level := by
    rw [← Nat.succ_mul]
    congr 1
    omega
  exact ⟨left, right.trans (by rw [left])⟩

theorem push_stack (level count : Nat) :
    push node (stack node leaf level count) (tree node leaf (count * 2 ^ level) (2 ^ level))
      (count + 1) = stack node leaf level (count + 1) := by
  induction count using Nat.strong_induction_on generalizing level with
  | _ count ih =>
      rcases Nat.mod_two_eq_zero_or_one count with even | odd
      · have half : (count + 1) / 2 = count / 2 := by omega
        rw [stack_odd node leaf level (show (count + 1) % 2 = 1 by omega), Nat.add_sub_cancel,
          half, ← stack_even node leaf level even]
        cases stack node leaf level count with
        | nil => rfl
        | cons top rest => rw [push, if_neg (by omega)]
      · have half : (count + 1) / 2 = count / 2 + 1 := by omega
        obtain ⟨left, right⟩ := odd_blocks level odd
        have pair := tree_split node leaf (count / 2 * 2 ^ (level + 1)) level
          (Nat.two_pow_pos level) (Nat.le_refl _)
        have double : 2 ^ level + 2 ^ level = 2 ^ (level + 1) := by
          rw [Nat.pow_succ]
          omega
        rw [double] at pair
        rw [stack_even node leaf level (show (count + 1) % 2 = 0 by omega), half,
          stack_odd node leaf level odd, push, if_pos (by omega), half, left, right, ← pair]
        exact ih (count / 2) (by omega) (level + 1)

/-- Folding the stack onto the trees that follow gives the whole tree. -/
theorem foldl_stack (level count : Nat) {rest : Nat} (positive : 0 < rest)
    (small : rest ≤ 2 ^ level) :
    (stack node leaf level count).foldl (fun right left => node left right)
        (tree node leaf (count * 2 ^ level) rest) =
      tree node leaf 0 (count * 2 ^ level + rest) := by
  induction count using Nat.strong_induction_on generalizing level rest with
  | _ count ih =>
      by_cases zero : count = 0
      · subst zero
        rw [(stack_nil_iff node leaf level 0).mpr rfl, List.foldl_nil, Nat.zero_mul, Nat.zero_add]
      have grown : 2 ^ (level + 1) = 2 ^ level + 2 ^ level := by
        rw [Nat.pow_succ]
        omega
      rcases Nat.mod_two_eq_zero_or_one count with even | odd
      · have same : count * 2 ^ level = count / 2 * 2 ^ (level + 1) := by
          rw [Nat.pow_succ', ← Nat.mul_assoc]
          congr 1
          omega
        rw [stack_even node leaf level even, same]
        exact ih (count / 2) (by omega) (level + 1) positive (by omega)
      · obtain ⟨left, right⟩ := odd_blocks level odd
        rw [stack_odd node leaf level odd, List.foldl_cons, left, right,
          ← tree_split node leaf _ level positive small, Nat.add_assoc]
        exact ih (count / 2) (by omega) (level + 1) (by omega) (by omega)

theorem push_map {node' : β → β → β} {f : α → β}
    (hom : ∀ a b, f (node a b) = node' (f a) (f b)) (stack : List α) (new : α) (count : Nat) :
    (push node stack new count).map f = push node' (stack.map f) (f new) count := by
  induction stack generalizing new count with
  | nil => rfl
  | cons top rest ih =>
      rw [push, List.map_cons, push]
      split
      · rw [ih, hom]
      · rfl

end CarryStack
