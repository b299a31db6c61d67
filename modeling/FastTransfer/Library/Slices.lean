/- FastTransfer/Library/Slices
   source: none, a general library
   digest: A list cut into consecutive slices of one width. -/

import Mathlib.Data.List.Basic

set_option autoImplicit false
set_option relaxedAutoImplicit false

namespace Slices

variable {α : Type*}

/-- The slice behind the first `k`. -/
def slice (width : Nat) (l : List α) (k : Nat) : List α := (l.drop (k * width)).take width

def slices (width : Nat) (l : List α) (k : Nat) : List (List α) :=
  (List.range k).map (slice width l)

def count (width : Nat) (l : List α) : Nat := (l.length + width - 1) / width

@[simp] theorem slices_zero (width : Nat) (l : List α) : slices width l 0 = [] := rfl

theorem slices_succ (width : Nat) (l : List α) (k : Nat) :
    slices width l (k + 1) = slices width l k ++ [slice width l k] := by
  simp only [slices, List.range_succ, List.map_append, List.map_cons, List.map_nil]

@[simp] theorem slices_length (width : Nat) (l : List α) (k : Nat) :
    (slices width l k).length = k := by
  rw [slices, List.length_map, List.length_range]

theorem getElem_slices (width : Nat) (l : List α) {k n : Nat} (h : k < (slices width l n).length) :
    (slices width l n)[k] = slice width l k := by
  simp only [slices, List.getElem_map, List.getElem_range]

theorem take_slices (width : Nat) (l : List α) {k n : Nat} (h : k ≤ n) :
    (slices width l n).take k = slices width l k := by
  rw [slices, ← List.map_take, List.take_range, Nat.min_eq_left h, slices]

theorem slice_length (width : Nat) (l : List α) (k : Nat) :
    (slice width l k).length = min width (l.length - k * width) := by
  rw [slice, List.length_take, List.length_drop]

theorem slice_ne_nil {width : Nat} {l : List α} {k : Nat} (positive : 0 < width)
    (inside : k * width < l.length) : slice width l k ≠ [] := by
  intro empty
  have := slice_length width l k
  rw [empty, List.length_nil] at this
  omega

theorem slices_flatten (width : Nat) (l : List α) (k : Nat) :
    (slices width l k).flatten = l.take (k * width) := by
  induction k with
  | zero => simp
  | succ k ih =>
      rw [slices_succ, List.flatten_append, ih, List.flatten_singleton, slice, Nat.succ_mul,
        List.take_add]

theorem mem_slices {width : Nat} {l : List α} {k : Nat} {s : List α}
    (h : s ∈ slices width l k) : ∃ j < k, s = slice width l j := by
  obtain ⟨j, mem, rfl⟩ := List.mem_map.mp h
  exact ⟨j, List.mem_range.mp mem, rfl⟩

theorem lt_count {width : Nat} {l : List α} {k : Nat} (positive : 0 < width) :
    k < count width l ↔ k * width < l.length := by
  rw [count, Nat.lt_iff_add_one_le, Nat.le_div_iff_mul_le positive, Nat.succ_mul]
  omega

theorem flatten_count {width : Nat} (l : List α) (positive : 0 < width) :
    (slices width l (count width l)).flatten = l := by
  rw [slices_flatten]
  apply List.take_of_length_le
  have := (lt_count (l := l) positive).not.mp (Nat.lt_irrefl (count width l))
  omega

/-- A loop that takes one slice a turn, and stops where nothing is left, ends behind all the
slices. -/
theorem loop_slices {width : Nat} {l : List α} {σ β : Type*} {At : Nat → σ → Prop}
    {run : Nat → σ → Nat → β} {finish : σ → β} (positive : 0 < width)
    (stop : ∀ fuel s, run fuel s 0 = finish s)
    (turn : ∀ fuel k s, At k s → k * width < l.length → ∃ t, At (k + 1) t ∧
      run (fuel + 1) s (l.length - k * width) = run fuel t (l.length - (k + 1) * width))
    {s : σ} (start : At 0 s) {fuel : Nat} (enough : l.length ≤ fuel) :
    ∃ t, At (count width l) t ∧ run fuel s l.length = finish t := by
  suffices from_slice : ∀ fuel k s, At k s → k ≤ count width l → l.length - k * width ≤ fuel →
      ∃ t, At (count width l) t ∧ run fuel s (l.length - k * width) = finish t by
    have all := from_slice fuel 0 s start (Nat.zero_le _) (by omega)
    rwa [Nat.zero_mul, Nat.sub_zero] at all
  intro fuel
  induction fuel with
  | zero =>
      intro k s here below none
      have last : k = count width l := by
        have behind := (lt_count (l := l) (k := k) positive).not.mpr (by omega)
        omega
      rw [Nat.le_zero.mp none]
      exact ⟨s, last ▸ here, stop 0 s⟩
  | succ fuel ih =>
      intro k s here below some
      by_cases inside : k * width < l.length
      · obtain ⟨t, next, eq⟩ := turn fuel k s here inside
        have further := Nat.add_one_mul k width
        rw [eq]
        exact ih (k + 1) t next ((lt_count positive).mpr inside) (by omega)
      · have last : k = count width l := by
          have behind := (lt_count (l := l) (k := k) positive).not.mpr inside
          omega
        rw [Nat.sub_eq_zero_of_le (Nat.le_of_not_lt inside)]
        exact ⟨s, last ▸ here, stop (fuel + 1) s⟩

end Slices
