/- FastTransfer/Library/Duplex
   source: none, a general library
   digest: Two machines joined by a pair of reliable first-in first-out channels. -/

import FastTransfer.Library.Transition

set_option autoImplicit false
set_option relaxedAutoImplicit false

/-- A party that acts on its own events and on the messages it receives. Either may run into a
fault; otherwise it gives the next state and the messages sent, oldest first. -/
structure Machine (σ ε μ κ : Type*) where
  act : σ → ε → Except κ (σ × List μ)
  receive : σ → μ → Except κ (σ × List μ)

/-- Two parties and the messages in flight between them, oldest first. -/
structure Duplex (σ μ : Type*) where
  left : σ
  right : σ
  toRight : List μ
  toLeft : List μ

namespace Duplex

inductive Move (ε : Type*)
  | left (e : ε)
  | right (e : ε)
  | toRight
  | toLeft

variable {σ ε μ κ : Type*}

/-- A delivery from an empty channel does nothing. -/
def step (M : Machine σ ε μ κ) (d : Duplex σ μ) : Move ε → Except κ (Duplex σ μ)
  | .left e => (M.act d.left e).map fun next =>
      { d with left := next.1, toRight := d.toRight ++ next.2 }
  | .right e => (M.act d.right e).map fun next =>
      { d with right := next.1, toLeft := d.toLeft ++ next.2 }
  | .toRight =>
      match d.toRight with
      | [] => .ok d
      | m :: rest => (M.receive d.right m).map fun next =>
          { d with right := next.1, toRight := rest, toLeft := d.toLeft ++ next.2 }
  | .toLeft =>
      match d.toLeft with
      | [] => .ok d
      | m :: rest => (M.receive d.left m).map fun next =>
          { d with left := next.1, toLeft := rest, toRight := d.toRight ++ next.2 }

def Steps (M : Machine σ ε μ κ) (d : Duplex σ μ) (move : Move ε) (d' : Duplex σ μ) : Prop :=
  step M d move = .ok d'

/-- The rule for invariants: each party keeps it with what it sends put behind the channel, and
with what it receives taken from the front. -/
theorem invariant {M : Machine σ ε μ κ} {guard : Duplex σ μ → Move ε → Prop}
    (inv : Duplex σ μ → Prop)
    (left : ∀ d e s out, inv d → guard d (.left e) → M.act d.left e = .ok (s, out) →
      inv { d with left := s, toRight := d.toRight ++ out })
    (right : ∀ d e s out, inv d → guard d (.right e) → M.act d.right e = .ok (s, out) →
      inv { d with right := s, toLeft := d.toLeft ++ out })
    (toRight : ∀ d m rest s out, inv d → guard d .toRight → d.toRight = m :: rest →
      M.receive d.right m = .ok (s, out) →
      inv { d with right := s, toRight := rest, toLeft := d.toLeft ++ out })
    (toLeft : ∀ d m rest s out, inv d → guard d .toLeft → d.toLeft = m :: rest →
      M.receive d.left m = .ok (s, out) →
      inv { d with left := s, toLeft := rest, toRight := d.toRight ++ out })
    {d d' : Duplex σ μ} {moves : List (Move ε)}
    (run : Run (Guarded (Steps M) guard) d moves d') (start : inv d) : inv d' := by
  refine run.invariant inv (fun d move d' holds next => ?_) start
  obtain ⟨allowed, taken⟩ := next
  cases move with
  | left e =>
      obtain ⟨⟨s, out⟩, acted, rfl⟩ := Except.ok_of_map taken
      exact left d e s out holds allowed acted
  | right e =>
      obtain ⟨⟨s, out⟩, acted, rfl⟩ := Except.ok_of_map taken
      exact right d e s out holds allowed acted
  | toRight =>
      cases pending : d.toRight with
      | nil =>
          simp only [Steps, step, pending] at taken
          cases taken
          exact holds
      | cons m rest =>
          simp only [Steps, step, pending] at taken
          obtain ⟨⟨s, out⟩, received, rfl⟩ := Except.ok_of_map taken
          exact toRight d m rest s out holds allowed pending received
  | toLeft =>
      cases pending : d.toLeft with
      | nil =>
          simp only [Steps, step, pending] at taken
          cases taken
          exact holds
      | cons m rest =>
          simp only [Steps, step, pending] at taken
          obtain ⟨⟨s, out⟩, received, rfl⟩ := Except.ok_of_map taken
          exact toLeft d m rest s out holds allowed pending received

inductive Moved (M : Machine σ ε μ κ) (d : Duplex σ μ) : Move ε → Duplex σ μ → Prop
  | left {e : ε} {s : σ} {out : List μ} (acted : M.act d.left e = .ok (s, out)) :
      Moved M d (.left e) { d with left := s, toRight := d.toRight ++ out }
  | right {e : ε} {s : σ} {out : List μ} (acted : M.act d.right e = .ok (s, out)) :
      Moved M d (.right e) { d with right := s, toLeft := d.toLeft ++ out }
  | toRight {m : μ} {rest : List μ} {s : σ} {out : List μ} (pending : d.toRight = m :: rest)
      (received : M.receive d.right m = .ok (s, out)) :
      Moved M d .toRight { d with right := s, toRight := rest, toLeft := d.toLeft ++ out }
  | toLeft {m : μ} {rest : List μ} {s : σ} {out : List μ} (pending : d.toLeft = m :: rest)
      (received : M.receive d.left m = .ok (s, out)) :
      Moved M d .toLeft { d with left := s, toLeft := rest, toRight := d.toRight ++ out }
  | noneRight (none : d.toRight = []) : Moved M d .toRight d
  | noneLeft (none : d.toLeft = []) : Moved M d .toLeft d

theorem Steps.moved {M : Machine σ ε μ κ} {d d' : Duplex σ μ} {move : Move ε}
    (taken : Steps M d move d') : Moved M d move d' := by
  cases move with
  | left e =>
      obtain ⟨⟨s, out⟩, acted, rfl⟩ := Except.ok_of_map taken
      exact .left acted
  | right e =>
      obtain ⟨⟨s, out⟩, acted, rfl⟩ := Except.ok_of_map taken
      exact .right acted
  | toRight =>
      cases pending : d.toRight with
      | nil =>
          simp only [Steps, step, pending] at taken
          cases taken
          exact .noneRight pending
      | cons m rest =>
          simp only [Steps, step, pending] at taken
          obtain ⟨⟨s, out⟩, received, rfl⟩ := Except.ok_of_map taken
          exact .toRight pending received
  | toLeft =>
      cases pending : d.toLeft with
      | nil =>
          simp only [Steps, step, pending] at taken
          cases taken
          exact .noneLeft pending
      | cons m rest =>
          simp only [Steps, step, pending] at taken
          obtain ⟨⟨s, out⟩, received, rfl⟩ := Except.ok_of_map taken
          exact .toLeft pending received

theorem Moved.steps {M : Machine σ ε μ κ} {d d' : Duplex σ μ} {move : Move ε}
    (moved : Moved M d move d') : Steps M d move d' := by
  cases moved with
  | left acted =>
      rw [Steps, step, acted]
      rfl
  | right acted =>
      rw [Steps, step, acted]
      rfl
  | toRight pending received =>
      simp only [Steps, step, pending, received]
      rfl
  | toLeft pending received =>
      simp only [Steps, step, pending, received]
      rfl
  | noneRight none => simp only [Steps, step, none]
  | noneLeft none => simp only [Steps, step, none]

end Duplex
