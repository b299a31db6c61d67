/- FastTransfer/Library/Execution
   source: none, a general library
   digest: Infinite executions of a labelled transition relation, and what is reached in them. -/

import FastTransfer.Library.Transition
import Mathlib.Algebra.Ring.Parity

set_option autoImplicit false
set_option relaxedAutoImplicit false

/-- A state at every moment, and the event that leads to the next. -/
structure Execution {σ ε : Type*} (step : σ → ε → σ → Prop) where
  state : ℕ → σ
  event : ℕ → ε
  next : ∀ n, step (state n) (event n) (state (n + 1))

namespace Execution

variable {σ ε : Type*} {step : σ → ε → σ → Prop} (x : Execution step)

theorem run (n : ℕ) : Run step (x.state 0) ((List.range n).map x.event) (x.state n) := by
  induction n with
  | zero => exact .nil
  | succ n ih =>
      rw [List.range_succ, List.map_append]
      exact ih.snoc (x.next n)

theorem persists (kept ended : ℕ → Prop) (stays : ∀ n, kept n → ended n ∨ kept (n + 1)) {n m : ℕ}
    (later : n ≤ m) (start : kept n) : (∃ k, n ≤ k ∧ ended k) ∨ kept m := by
  obtain ⟨k, rfl⟩ := Nat.exists_eq_add_of_le later
  induction k with
  | zero => exact .inr start
  | succ k ih =>
      rcases ih (Nat.le_add_right n k) with before | still
      · exact .inl before
      · rcases stays (n + k) still with now | still
        · exact .inl ⟨n + k, Nat.le_add_right n k, now⟩
        · exact .inr still

/-- The rule of a helpful event: what every step keeps or ends, and what one kind of event ends
that is bound to come, does end. -/
theorem ends (kept ended : ℕ → Prop) (helpful : ε → σ → Prop)
    (stays : ∀ n, kept n → ended n ∨ kept (n + 1))
    (helps : ∀ n, kept n → helpful (x.event n) (x.state n) → ended n) {n : ℕ}
    (comes : ∃ m ≥ n, helpful (x.event m) (x.state m)) (start : kept n) :
    ∃ k, n ≤ k ∧ ended k := by
  obtain ⟨m, later, event⟩ := comes
  rcases persists kept ended stays later start with before | still
  · exact before
  · exact ⟨m, later, helps m still event⟩

/-- A rank that falls later on wherever the goal is not reached leads to the goal. -/
theorem reaches (goal : σ → Prop) (rank : σ → ℕ → Prop)
    (falls : ∀ n r, rank (x.state n) r → goal (x.state n) ∨
      ∃ m ≥ n, ∃ r' < r, rank (x.state m) r')
    {n r : ℕ} (start : rank (x.state n) r) : ∃ m ≥ n, goal (x.state m) := by
  induction r using Nat.strongRecOn generalizing n with
  | ind r ih =>
      rcases falls n r start with now | ⟨m, later, r', less, ranked⟩
      · exact ⟨n, Nat.le_refl n, now⟩
      · obtain ⟨k, after, reached⟩ := ih r' less ranked
        exact ⟨k, Nat.le_trans later after, reached⟩

/-! Executions that are computed. -/

/-- The states of a schedule; an event that cannot be taken is left out. -/
def follow (next : σ → ε → Option σ) (schedule : ℕ → ε) (start : σ) : ℕ → σ
  | 0 => start
  | n + 1 => (next (follow next schedule start n) (schedule n)).getD
      (follow next schedule start n)

section Follow

variable {next : σ → ε → Option σ} {schedule : ℕ → ε} {start rest : σ} {n : ℕ}

theorem follow_of_foldlM
    (h : (List.range n).foldlM (fun s k => next s (schedule k)) start = some rest) :
    follow next schedule start n = rest ∧
      ∀ k < n, next (follow next schedule start k) (schedule k) =
        some (follow next schedule start (k + 1)) := by
  induction n generalizing rest with
  | zero => exact ⟨Option.some.inj h, fun k lt => absurd lt (Nat.not_lt_zero k)⟩
  | succ n ih =>
      rw [List.range_succ, List.foldlM_append] at h
      obtain ⟨t, first, last⟩ := Option.bind_eq_some_iff.mp h
      obtain ⟨u, taken, done⟩ := Option.bind_eq_some_iff.mp last
      obtain ⟨rfl, early⟩ := ih first
      cases done
      have reached : follow next schedule start (n + 1) = rest := by
        replace taken : next (follow next schedule start n) (schedule n) = some rest := taken
        rw [follow, taken]
        rfl
      refine ⟨reached, fun k lt => ?_⟩
      rcases Nat.lt_succ_iff_lt_or_eq.mp lt with lt | rfl
      · exact early k lt
      · rw [reached]
        exact taken

theorem follow_next
    (h : (List.range n).foldlM (fun s k => next s (schedule k)) start = some rest)
    (still : ∀ k ≥ n, next rest (schedule k) = some rest) (k : ℕ) :
    next (follow next schedule start k) (schedule k) = some (follow next schedule start (k + 1)) ∧
      (n ≤ k → follow next schedule start k = rest) := by
  obtain ⟨reached, early⟩ := follow_of_foldlM h
  have late : ∀ j, follow next schedule start (n + j) = rest := by
    intro j
    induction j with
    | zero => exact reached
    | succ j ih =>
        rw [← Nat.add_assoc, follow, ih, still _ (Nat.le_add_right n j)]
        rfl
  by_cases before : k < n
  · exact ⟨early k before, fun after => absurd before (Nat.not_lt.mpr after)⟩
  · obtain ⟨j, rfl⟩ := Nat.exists_eq_add_of_le (Nat.le_of_not_lt before)
    refine ⟨?_, fun _ => late j⟩
    rw [Nat.add_assoc, late j, late (j + 1)]
    exact still _ (Nat.le_add_right n j)

end Follow

/-! Executions of which each step is two steps of a finer system. -/

section Twofold

variable {τ ζ : Type*} {fine : τ → ζ → τ → Prop} (image : σ → τ) (mid : ℕ → τ)
  (first second : ℕ → ζ)

def twofold (steps : ∀ n, fine (image (x.state n)) (first n) (mid n) ∧
    fine (mid n) (second n) (image (x.state (n + 1)))) : Execution fine where
  state k := if k % 2 = 0 then image (x.state (k / 2)) else mid (k / 2)
  event k := if k % 2 = 0 then first (k / 2) else second (k / 2)
  next k := by
    obtain ⟨n, rfl | rfl⟩ := Nat.even_or_odd' k
    · simpa [Nat.mul_add_mod, Nat.mul_add_div] using (steps n).1
    · have half : (2 * n + 1 + 1) / 2 = n + 1 := by omega
      have even : (2 * n + 1 + 1) % 2 = 0 := by omega
      simpa [Nat.mul_add_mod, Nat.mul_add_div, half, even] using (steps n).2

variable {image mid first second}
  {steps : ∀ n, fine (image (x.state n)) (first n) (mid n) ∧
    fine (mid n) (second n) (image (x.state (n + 1)))}

theorem twofold_even (n : ℕ) :
    (x.twofold image mid first second steps).state (2 * n) = image (x.state n) ∧
      (x.twofold image mid first second steps).event (2 * n) = first n := by
  simp [twofold]

theorem twofold_odd (n : ℕ) :
    (x.twofold image mid first second steps).state (2 * n + 1) = mid n ∧
      (x.twofold image mid first second steps).event (2 * n + 1) = second n := by
  simp [twofold, Nat.mul_add_div]

/-- What is bound to come is bound to come in the finer execution, if it comes of the second step
or is still due behind it. -/
theorem comes_twofold {due : τ → Prop} {helpful : ζ → τ → Prop}
    (fair : ∀ n, due (image (x.state n)) → ∃ m ≥ n, helpful (first m) (image (x.state m)))
    (between : ∀ n, due (mid n) → helpful (second n) (mid n) ∨ due (image (x.state (n + 1))))
    (k : ℕ) (now : due ((x.twofold image mid first second steps).state k)) :
    ∃ m ≥ k, helpful ((x.twofold image mid first second steps).event m)
      ((x.twofold image mid first second steps).state m) := by
  have later : ∀ n, due (image (x.state n)) → ∃ m ≥ 2 * n,
      helpful ((x.twofold image mid first second steps).event m)
        ((x.twofold image mid first second steps).state m) := by
    intro n now
    obtain ⟨m, after, helps⟩ := fair n now
    refine ⟨2 * m, Nat.mul_le_mul_left 2 after, ?_⟩
    rw [(x.twofold_even m).1, (x.twofold_even m).2]
    exact helps
  obtain ⟨n, rfl | rfl⟩ := Nat.even_or_odd' k
  · rw [(x.twofold_even n).1] at now
    exact later n now
  · rw [(x.twofold_odd n).1] at now
    rcases between n now with helps | still
    · refine ⟨2 * n + 1, Nat.le_refl _, ?_⟩
      rw [(x.twofold_odd n).1, (x.twofold_odd n).2]
      exact helps
    · obtain ⟨m, after, helps⟩ := later (n + 1) still
      exact ⟨m, by omega, helps⟩

end Twofold

end Execution
