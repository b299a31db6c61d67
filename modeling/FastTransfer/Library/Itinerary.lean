/- FastTransfer/Library/Itinerary
   source: none, a general library
   digest: Infinite executions put together from finite trails, and what comes in them. -/

import FastTransfer.Library.Execution

set_option autoImplicit false
set_option relaxedAutoImplicit false

section

variable {τ ζ : Type*} {fine other : τ → ζ → τ → Prop} {s t u : τ} {l : List (ζ × τ)}

/-- Steps from one state to another: the event of each, and the state it leads to. -/
inductive Trail (fine : τ → ζ → τ → Prop) : τ → List (ζ × τ) → τ → Prop
  | nil {s : τ} : Trail fine s [] s
  | cons {s t u : τ} {e : ζ} {rest : List (ζ × τ)} (step : fine s e t)
      (later : Trail fine t rest u) : Trail fine s ((e, t) :: rest) u

namespace Trail

theorem mono (trail : Trail fine s l u)
    (weaker : ∀ s e t, e ∈ l.map Prod.fst → fine s e t → other s e t) : Trail other s l u := by
  induction trail with
  | nil => exact .nil
  | cons step _ ih =>
      exact .cons (weaker _ _ _ List.mem_cons_self step)
        (ih fun s e t mem => weaker s e t (.tail _ mem))

theorem single {e : ζ} (step : fine s e t) : Trail fine s [(e, t)] t := .cons step .nil

theorem uncons {e : ζ} (trail : Trail fine s ((e, t) :: l) u) : fine s e t ∧ Trail fine t l u := by
  cases trail with
  | cons step later => exact ⟨step, later⟩

theorem snoc {e : ζ} (trail : Trail fine s l t) (last : fine t e u) :
    Trail fine s (l ++ [(e, u)]) u := by
  induction trail with
  | nil => exact .single last
  | cons step _ ih => exact .cons step (ih last)

theorem end_eq (trail : Trail fine s [] u) : s = u := by
  cases trail
  rfl

/-- A run that ends well is a trail of steps that start and end well, and keeps what these keep. -/
theorem of_run {step : τ → ζ → τ → Prop} {well inv : τ → Prop} {events : List ζ}
    (before : ∀ s e t, step s e t → well t → well s)
    (keep : ∀ s e t, e ∈ events → inv s → step s e t → well t → fine s e t ∧ inv t)
    (run : Run step s events t) (start : inv s) (ends : well t) :
    ∃ l, l.map Prod.fst = events ∧ Trail fine s l t ∧ inv t := by
  induction run with
  | nil => exact ⟨[], rfl, .nil, start⟩
  | @snoc events e t u _ last ih =>
      obtain ⟨l, same, trail, kept⟩ :=
        ih (fun s e t mem => keep s e t (List.mem_append_left _ mem)) (before t e u last ends)
      obtain ⟨next, kept'⟩ := keep t e u (by simp) kept last ends
      exact ⟨l ++ [(e, u)], by rw [List.map_append, same]; rfl, trail.snoc next, kept'⟩

end Trail

/-- Some event of a trail is helpful where it happens. -/
def Helps (helpful : ζ → τ → Prop) : τ → List (ζ × τ) → Prop
  | _, [] => False
  | s, (e, t) :: rest => helpful e s ∨ Helps helpful t rest

theorem helps_of_mem {helpful : ζ → τ → Prop} {e : ζ} (always : ∀ s, helpful e s)
    (mem : e ∈ l.map Prod.fst) : Helps helpful s l := by
  induction l generalizing s with
  | nil => cases mem
  | cons first rest ih =>
      rcases List.mem_cons.mp mem with rfl | later
      · exact .inl (always s)
      · exact .inr (ih later)

theorem Trail.helps_or {due : τ → Prop} {helpful : ζ → τ → Prop}
    (trail : Trail (fun s e t => due s → helpful e s ∨ due t) s l u) (now : due s) :
    Helps helpful s l ∨ due u := by
  induction trail with
  | nil => exact .inr now
  | cons step _ ih =>
      rcases step now with helps | still
      · exact .inl (.inl helps)
      · exact (ih still).imp_left .inr

end

/-- Places, and for each a trail to the next one that is not empty. -/
structure Itinerary {τ ζ : Type*} (fine : τ → ζ → τ → Prop) where
  place : ℕ → τ
  first : ℕ → ζ × τ
  rest : ℕ → List (ζ × τ)
  trail : ∀ n, Trail fine (place n) (first n :: rest n) (place (n + 1))

namespace Itinerary

variable {τ ζ : Type*} {fine : τ → ζ → τ → Prop} (i : Itinerary fine)

structure Spot where
  leg : ℕ
  state : τ
  next : ζ × τ
  later : List (ζ × τ)
  trail : Trail fine state (next :: later) (i.place (leg + 1))

namespace Spot

variable {i}

def depart (n : ℕ) : i.Spot := ⟨n, i.place n, i.first n, i.rest n, i.trail n⟩

def step (p : i.Spot) : i.Spot :=
  match p with
  | ⟨leg, _, _, [], _⟩ => depart (leg + 1)
  | ⟨leg, _, next, q :: more, trail⟩ => ⟨leg, next.2, q, more, trail.uncons.2⟩

theorem step_fine (p : i.Spot) : fine p.state p.next.1 p.step.state := by
  obtain ⟨leg, state, next, later, trail⟩ := p
  cases later with
  | nil =>
      obtain ⟨taken, ends⟩ := trail.uncons
      rw [ends.end_eq] at taken
      exact taken
  | cons q more => exact trail.uncons.1

end Spot

def spot : ℕ → i.Spot
  | 0 => .depart 0
  | t + 1 => (spot t).step

def execution : Execution fine where
  state t := (i.spot t).state
  event t := (i.spot t).next.1
  next t := (i.spot t).step_fine

variable {i}

theorem reaches_next {t : ℕ} {p : i.Spot} (here : i.spot t = p) :
    ∃ t' > t, i.spot t' = .depart (p.leg + 1) := by
  obtain ⟨leg, state, next, later, trail⟩ := p
  induction later generalizing t state next with
  | nil => exact ⟨t + 1, Nat.lt_succ_self t, by rw [spot, here]; rfl⟩
  | cons q more ih =>
      obtain ⟨t', later, there⟩ :=
        ih next.2 q trail.uncons.2 (t := t + 1) (by rw [spot, here]; rfl)
      exact ⟨t', by omega, there⟩

theorem reaches_place {t : ℕ} {n m : ℕ} (here : (i.spot t).leg = n) (later : n < m) :
    ∃ t' > t, i.spot t' = .depart m := by
  obtain ⟨k, rfl⟩ := Nat.exists_eq_add_of_lt later
  induction k with
  | zero =>
      obtain ⟨t', after, there⟩ := reaches_next (t := t) rfl
      exact ⟨t', after, by rw [there, here]⟩
  | succ k ih =>
      obtain ⟨t', after, there⟩ := ih (by omega)
      obtain ⟨t'', after', there'⟩ := reaches_next there
      exact ⟨t'', by omega, there'⟩

/-- What helps on the steps that are left does come. -/
theorem helps_comes {helpful : ζ → τ → Prop} {t : ℕ} {p : i.Spot} (here : i.spot t = p)
    (helps : Helps helpful p.state (p.next :: p.later)) :
    ∃ t' ≥ t, helpful (i.execution.event t') (i.execution.state t') := by
  obtain ⟨leg, state, next, later, trail⟩ := p
  induction later generalizing t state next with
  | nil =>
      refine ⟨t, Nat.le_refl t, ?_⟩
      show helpful (i.spot t).next.1 (i.spot t).state
      rw [here]
      exact helps.resolve_right id
  | cons q more ih =>
      rcases helps with now | helps
      · refine ⟨t, Nat.le_refl t, ?_⟩
        show helpful (i.spot t).next.1 (i.spot t).state
        rw [here]
        exact now
      · obtain ⟨t', after, comes⟩ :=
          ih next.2 q trail.uncons.2 (t := t + 1) (by rw [spot, here]; rfl) helps
        exact ⟨t', by omega, comes⟩

theorem spot_between {other : τ → ζ → τ → Prop}
    (rest : ∀ n, Trail other (i.first n).2 (i.rest n) (i.place (n + 1))) (t : ℕ) :
    (∃ n, i.spot t = .depart n) ∨ Trail other (i.spot t).state
      ((i.spot t).next :: (i.spot t).later) (i.place ((i.spot t).leg + 1)) := by
  induction t with
  | zero => exact .inl ⟨0, rfl⟩
  | succ t ih =>
      rw [spot]
      rcases ih with ⟨n, here⟩ | between
      · rw [here]
        have known := rest n
        unfold Spot.depart Spot.step
        split
        · exact .inl ⟨_, rfl⟩
        · rename_i eq
          simp only [Spot.mk.injEq] at eq
          obtain ⟨rfl, -, rfl, same⟩ := eq
          rw [same] at known
          exact .inr known
      · generalize i.spot t = p at between
        obtain ⟨leg, state, next, later, trail⟩ := p
        cases later with
        | nil => exact .inl ⟨_, rfl⟩
        | cons q more => exact .inr between.uncons.2

/-- What is bound to come from every place is bound to come, if the steps behind the first of each
trail leave it due. -/
theorem comes (due : τ → Prop) (helpful : ζ → τ → Prop)
    (fair : ∀ n, due (i.place n) → ∃ m ≥ n, Helps helpful (i.place m) (i.first m :: i.rest m))
    (keeps : ∀ n, Trail (fun s e t => due s → helpful e s ∨ due t) (i.first n).2 (i.rest n)
      (i.place (n + 1)))
    (t : ℕ) (now : due (i.execution.state t)) :
    ∃ t' ≥ t, helpful (i.execution.event t') (i.execution.state t') := by
  -- a later place from which it is due leads to it
  have later : ∀ n, (i.spot t).leg < n → due (i.place n) →
      ∃ t' ≥ t, helpful (i.execution.event t') (i.execution.state t') := by
    intro n before now
    obtain ⟨m, after, helps⟩ := fair n now
    obtain ⟨t', behind, there⟩ := reaches_place rfl (Nat.lt_of_lt_of_le before after)
    obtain ⟨t'', behind', comes⟩ := helps_comes there helps
    exact ⟨t'', by omega, comes⟩
  rcases spot_between keeps t with ⟨n, here⟩ | between
  · have place : (i.spot t).state = i.place n := by rw [here]; rfl
    have leg : (i.spot t).leg = n := by rw [here]; rfl
    obtain ⟨m, after, helps⟩ := fair n (place ▸ now)
    rcases Nat.eq_or_lt_of_le after with rfl | behind
    · exact helps_comes here helps
    · obtain ⟨t', behind', there⟩ := reaches_place leg behind
      obtain ⟨t'', behind'', comes⟩ := helps_comes there helps
      exact ⟨t'', by omega, comes⟩
  · rcases between.helps_or now with helps | still
    · exact helps_comes rfl helps
    · exact later _ (Nat.lt_succ_self _) still

end Itinerary
