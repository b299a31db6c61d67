/- FastTransfer/Library/LeastFree
   source: none, a general library
   digest: The first index that is not taken, found by counting up. -/

import Mathlib.Data.List.Nodup
import Mathlib.Data.List.Perm.Subperm

set_option autoImplicit false
set_option relaxedAutoImplicit false

namespace LeastFree

/-- Count up from `start` past what is taken, at most `fuel` times. -/
def search (taken : Nat → Bool) : Nat → Nat → Nat
  | 0, start => start
  | fuel + 1, start => if taken start then search taken fuel (start + 1) else start

variable {taken : Nat → Bool}

theorem search_spec (fuel start : Nat)
    (within : ∃ n, start ≤ n ∧ n ≤ start + fuel ∧ taken n = false) :
    taken (search taken fuel start) = false ∧ start ≤ search taken fuel start ∧
      ∀ m, start ≤ m → m < search taken fuel start → taken m = true := by
  induction fuel generalizing start with
  | zero =>
      obtain ⟨n, low, high, free⟩ := within
      have same : n = start := by omega
      rw [same] at free
      refine ⟨free, Nat.le_refl _, ?_⟩
      intro m above below
      rw [search] at below
      omega
  | succ fuel ih =>
      rw [search]
      cases here : taken start with
      | false =>
          refine ⟨here, Nat.le_refl _, ?_⟩
          intro m above below
          simp only [Bool.false_eq_true, if_false] at below
          omega
      | true =>
          have later : ∃ n, start + 1 ≤ n ∧ n ≤ start + 1 + fuel ∧ taken n = false := by
            obtain ⟨n, low, high, free⟩ := within
            refine ⟨n, ?_, by omega, free⟩
            by_contra under
            have same : n = start := by omega
            rw [same, here] at free
            cases free
          obtain ⟨free, low, least⟩ := ih (start + 1) later
          simp only [if_true]
          refine ⟨free, by omega, ?_⟩
          intro m above below
          by_cases same : m = start
          · rw [same]
            exact here
          · exact least m (by omega) below

/-- If what is taken is told apart by keys from a list, no more indices are taken than the list
is long. -/
theorem exists_free {κ : Type*} {keys : List κ} (key : Nat → κ) {fuel : Nat} (start : Nat)
    (apart : ∀ m n, key m = key n → m = n) (mem : ∀ n, taken n = true → key n ∈ keys)
    (enough : keys.length ≤ fuel) : ∃ n, start ≤ n ∧ n ≤ start + fuel ∧ taken n = false := by
  by_contra none
  let names := (List.range (fuel + 1)).map fun i => key (start + i)
  have distinct : names.Nodup := by
    apply List.Nodup.map_on _ List.nodup_range
    intro i _ j _ same
    have := apart _ _ same
    omega
  have among : names ⊆ keys := by
    intro name member
    obtain ⟨i, below, rfl⟩ := List.mem_map.mp member
    have bound := List.mem_range.mp below
    apply mem
    by_contra free
    exact none ⟨start + i, by omega, by omega, Bool.eq_false_iff.mpr free⟩
  have count := (List.subperm_of_subset distinct among).length_le
  rw [List.length_map, List.length_range] at count
  omega

/-- The search ends at the least free index, whatever is taken. -/
theorem search_least {κ : Type*} {keys : List κ} (key : Nat → κ) {fuel : Nat} (start : Nat)
    (apart : ∀ m n, key m = key n → m = n) (mem : ∀ n, taken n = true → key n ∈ keys)
    (enough : keys.length ≤ fuel) :
    taken (search taken fuel start) = false ∧ start ≤ search taken fuel start ∧
      ∀ m, start ≤ m → m < search taken fuel start → taken m = true :=
  search_spec fuel start (exists_free key start apart mem enough)

end LeastFree
