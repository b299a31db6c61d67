/- FastTransfer/Library/Transition
   source: none, a general library
   digest: Runs of a labelled transition relation and their invariants; steps that are computed and
     may run into a fault. -/

import Mathlib.Data.List.Induction

set_option autoImplicit false
set_option relaxedAutoImplicit false

namespace Except

variable {κ α β : Type*}

theorem ok_of_map {f : α → β} {x : Except κ α} {b : β} (h : x.map f = .ok b) :
    ∃ a, x = .ok a ∧ f a = b := by
  cases x with
  | error c => cases h
  | ok a => exact ⟨a, rfl, Except.ok.inj h⟩

theorem ok_of_bind {f : α → Except κ β} {x : Except κ α} {b : β} (h : x.bind f = .ok b) :
    ∃ a, x = .ok a ∧ f a = .ok b := by
  cases x with
  | error c => cases h
  | ok a => exact ⟨a, rfl, h⟩

theorem ok_of_toOption {x : Except κ α} {a : α} (h : x.toOption = some a) : x = .ok a := by
  cases x with
  | error c => cases h
  | ok b => rw [Option.some.inj h]

end Except

/-- A finite run with the events taken, oldest first. -/
inductive Run {σ ε : Type*} (step : σ → ε → σ → Prop) (s : σ) : List ε → σ → Prop
  | nil : Run step s [] s
  | snoc {events : List ε} {e : ε} {t u : σ} :
      Run step s events t → step t e u → Run step s (events ++ [e]) u

/-- The steps taken where a condition holds. -/
def Guarded {σ ε : Type*} (step : σ → ε → σ → Prop) (guard : σ → ε → Prop) : σ → ε → σ → Prop :=
  fun s e t => guard s e ∧ step s e t

namespace Run

variable {σ ε : Type*} {step : σ → ε → σ → Prop} {s t u : σ} {events later : List ε}

theorem single {e : ε} (h : step s e t) : Run step s [e] t := snoc nil h

theorem append (first : Run step s events t) (second : Run step t later u) :
    Run step s (events ++ later) u := by
  induction second with
  | nil => rwa [List.append_nil]
  | snoc _ last ih =>
      rw [← List.append_assoc]
      exact ih.snoc last

theorem split (run : Run step s (events ++ later) t) :
    ∃ u, Run step s events u ∧ Run step u later t := by
  generalize whole : events ++ later = all at run
  induction run generalizing later with
  | nil =>
      obtain ⟨rfl, rfl⟩ := List.append_eq_nil_iff.mp whole
      exact ⟨s, nil, nil⟩
  | @snoc front e mid last first final ih =>
      rcases List.eq_nil_or_concat later with rfl | ⟨init, e', rfl⟩
      · rw [List.append_nil] at whole
        subst whole
        exact ⟨last, first.snoc final, nil⟩
      · rw [List.concat_eq_append, ← List.append_assoc] at whole
        obtain ⟨same, one⟩ := List.append_inj' whole rfl
        cases one
        obtain ⟨between, left, right⟩ := ih same
        rw [List.concat_eq_append]
        exact ⟨between, left, right.snoc final⟩

theorem of_nil (run : Run step s [] t) : t = s := by
  generalize none : ([] : List ε) = events at run
  cases run with
  | nil => rfl
  | snoc first last => exact absurd none (by simp)

private theorem of_singleton {e : ε} (run : Run step s [e] t) : step s e t := by
  generalize one : [e] = events at run
  cases run with
  | nil => cases one
  | @snoc front e' mid _ first last =>
      obtain ⟨rfl, same⟩ := List.append_inj' (show [] ++ [e] = front ++ [e'] from one) rfl
      cases same
      rw [← of_nil first]
      exact last

theorem uncons {e : ε} (run : Run step s (e :: events) t) :
    ∃ u, step s e u ∧ Run step u events t := by
  have apart : Run step s ([e] ++ events) t := run
  obtain ⟨u, first, rest⟩ := split apart
  exact ⟨u, of_singleton first, rest⟩

theorem invariant (inv : σ → Prop) (keep : ∀ s e t, inv s → step s e t → inv t)
    (run : Run step s events t) (start : inv s) : inv t := by
  induction run with
  | nil => exact start
  | snoc _ last ih => exact keep _ _ _ ih last

theorem mono {step' : σ → ε → σ → Prop} (sub : ∀ s e t, step s e t → step' s e t)
    (run : Run step s events t) : Run step' s events t := by
  induction run with
  | nil => exact nil
  | snoc _ last ih => exact ih.snoc (sub _ _ _ last)

theorem of_foldlM {next : σ → ε → Option σ} (sound : ∀ s e t, next s e = some t → step s e t)
    (h : events.foldlM next s = some t) : Run step s events t := by
  induction events using List.reverseRecOn generalizing t with
  | nil =>
      cases h
      exact nil
  | append_singleton events e ih =>
      rw [List.foldlM_append] at h
      obtain ⟨u, first, last⟩ := Option.bind_eq_some_iff.mp h
      obtain ⟨v, last, done⟩ := Option.bind_eq_some_iff.mp last
      cases done
      exact (ih first).snoc (sound u e _ last)

theorem of_foldlM_guarded {κ : Type*} {next : σ → ε → Except κ σ} {check : σ → ε → Bool}
    (h : events.foldlM (fun s e => if check s e = true then (next s e).toOption else none) s =
      some t) :
    Run (Guarded (fun s e t => next s e = .ok t) fun s e => check s e = true) s events t := by
  refine of_foldlM (fun s e t step => ?_) h
  by_cases allowed : check s e = true
  · rw [if_pos allowed] at step
    exact ⟨allowed, Except.ok_of_toOption step⟩
  · rw [if_neg allowed] at step
    cases step

end Run
