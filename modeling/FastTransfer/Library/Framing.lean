/- FastTransfer/Library/Framing
   source: none, a general library
   digest: Messages sent as streams of symbols, which are read in pieces of any size. -/

import FastTransfer.Library.Duplex
import FastTransfer.Library.PrefixCode

set_option autoImplicit false
set_option relaxedAutoImplicit false

/-- A party that acts on its own events and reads symbols, any number at once. -/
structure Reader (δ ε α κ : Type*) where
  act : δ → ε → Except κ (δ × List α)
  read : δ → List α → Except κ (δ × List α)

/-- Two parties and the symbols in flight between them, oldest first. -/
structure Wired (δ α : Type*) where
  left : δ
  right : δ
  toRight : List α
  toLeft : List α

namespace Wired

inductive Move (ε : Type*)
  | left (e : ε)
  | right (e : ε)
  | toRight (count : Nat)
  | toLeft (count : Nat)

variable {δ ε α κ : Type*}

def step (N : Reader δ ε α κ) (w : Wired δ α) : Move ε → Except κ (Wired δ α)
  | .left e => (N.act w.left e).map fun next =>
      { w with left := next.1, toRight := w.toRight ++ next.2 }
  | .right e => (N.act w.right e).map fun next =>
      { w with right := next.1, toLeft := w.toLeft ++ next.2 }
  | .toRight count => (N.read w.right (w.toRight.take count)).map fun next =>
      { w with right := next.1, toRight := w.toRight.drop count, toLeft := w.toLeft ++ next.2 }
  | .toLeft count => (N.read w.left (w.toLeft.take count)).map fun next =>
      { w with left := next.1, toLeft := w.toLeft.drop count, toRight := w.toRight ++ next.2 }

def Steps (N : Reader δ ε α κ) (w : Wired δ α) (move : Move ε) (w' : Wired δ α) : Prop :=
  step N w move = .ok w'

end Wired

namespace Machine

variable {σ ε μ κ : Type*}

def receiveAll (M : Machine σ ε μ κ) : σ → List μ → Except κ (σ × List μ)
  | s, [] => .ok (s, [])
  | s, m :: later => (M.receive s m).bind fun first =>
      (receiveAll M first.1 later).map fun rest => (rest.1, first.2 ++ rest.2)

theorem receiveAll_cons {M : Machine σ ε μ κ} {s t : σ} {m : μ} {later sent : List μ}
    (h : M.receiveAll s (m :: later) = .ok (t, sent)) :
    ∃ u first more, M.receive s m = .ok (u, first) ∧ M.receiveAll u later = .ok (t, more) ∧
      sent = first ++ more := by
  rw [receiveAll] at h
  obtain ⟨first, received, h⟩ := Except.ok_of_bind h
  obtain ⟨rest, more, eq⟩ := Except.ok_of_map h
  obtain ⟨rfl, same⟩ := Prod.mk.inj eq
  exact ⟨first.1, first.2, rest.2, received, more, same.symm⟩

theorem run_toRight {M : Machine σ ε μ κ} {d : Duplex σ μ} {messages rest sent : List μ} {s : σ}
    (pending : d.toRight = messages ++ rest)
    (received : M.receiveAll d.right messages = .ok (s, sent)) :
    Run (Duplex.Steps M) d (List.replicate messages.length .toRight)
      { d with right := s, toRight := rest, toLeft := d.toLeft ++ sent } := by
  induction messages generalizing d sent with
  | nil =>
      obtain ⟨rfl, rfl⟩ := Prod.mk.inj (Except.ok.inj received)
      rw [List.nil_append] at pending
      rw [← pending, List.append_nil]
      exact .nil
  | cons m messages ih =>
      obtain ⟨u, first, more, one, later, rfl⟩ := receiveAll_cons received
      have step : Duplex.Steps M d .toRight
          { d with right := u, toRight := messages ++ rest, toLeft := d.toLeft ++ first } := by
        simp only [Duplex.Steps, Duplex.step, pending, List.cons_append, one]
        rfl
      have run := (Run.single step).append (ih rfl later)
      rw [List.append_assoc] at run
      exact run

theorem run_toLeft {M : Machine σ ε μ κ} {d : Duplex σ μ} {messages rest sent : List μ} {s : σ}
    (pending : d.toLeft = messages ++ rest)
    (received : M.receiveAll d.left messages = .ok (s, sent)) :
    Run (Duplex.Steps M) d (List.replicate messages.length .toLeft)
      { d with left := s, toLeft := rest, toRight := d.toRight ++ sent } := by
  induction messages generalizing d sent with
  | nil =>
      obtain ⟨rfl, rfl⟩ := Prod.mk.inj (Except.ok.inj received)
      rw [List.nil_append] at pending
      rw [← pending, List.append_nil]
      exact .nil
  | cons m messages ih =>
      obtain ⟨u, first, more, one, later, rfl⟩ := receiveAll_cons received
      have step : Duplex.Steps M d .toLeft
          { d with left := u, toLeft := messages ++ rest, toRight := d.toRight ++ first } := by
        simp only [Duplex.Steps, Duplex.step, pending, List.cons_append, one]
        rfl
      have run := (Run.single step).append (ih rfl later)
      rw [List.append_assoc] at run
      exact run

end Machine

section Framing

variable {σ δ ε α μ κ κ' : Type*} {C : PrefixCode α μ} {M : Machine σ ε μ κ}
  {N : Reader δ ε α κ'} {Shows : δ → σ → List α → Prop}

/-- A reader stands for a party that receives messages, with the symbols it has read of the next
message: both act alike, and what one reads the other receives, as long as the symbols are those
of messages. -/
structure Framing (C : PrefixCode α μ) (M : Machine σ ε μ κ) (N : Reader δ ε α κ')
    (Shows : δ → σ → List α → Prop) : Prop where
  act : ∀ {x y : δ} {s : σ} {buffer sent : List α} {e : ε}, Shows x s buffer →
    N.act x e = .ok (y, sent) → ∃ t out, M.act s e = .ok (t, out) ∧
      sent = out.flatMap C.encode ∧ Shows y t buffer
  read : ∀ {x y : δ} {s : σ} {buffer data later sent : List α} {messages : List μ},
    Shows x s buffer → (∀ m ∈ messages, C.Valid m) →
    buffer ++ data ++ later = messages.flatMap C.encode → N.read x data = .ok (y, sent) →
    ∃ t out, M.receiveAll s (C.decode (buffer ++ data)).1 = .ok (t, out) ∧
      sent = out.flatMap C.encode ∧ Shows y t (C.decode (buffer ++ data)).2

/-- The streams carry the messages of the channels. -/
structure Carries (C : PrefixCode α μ) (Shows : δ → σ → List α → Prop) (w : Wired δ α)
    (d : Duplex σ μ) : Prop where
  toRight : ∃ buffer, Shows w.right d.right buffer ∧
    buffer ++ w.toRight = d.toRight.flatMap C.encode
  toLeft : ∃ buffer, Shows w.left d.left buffer ∧ buffer ++ w.toLeft = d.toLeft.flatMap C.encode

theorem carried_append {buffer symbols sent : List α} {messages out : List μ}
    (carried : buffer ++ symbols = messages.flatMap C.encode) (eq : sent = out.flatMap C.encode) :
    buffer ++ (symbols ++ sent) = (messages ++ out).flatMap C.encode := by
  rw [← List.append_assoc, carried, eq, List.flatMap_append]

theorem Framing.step (F : Framing C M N Shows) {w w' : Wired δ α} {d : Duplex σ μ}
    {move : Wired.Move ε} (h : Carries C Shows w d) (validRight : ∀ m ∈ d.toRight, C.Valid m)
    (validLeft : ∀ m ∈ d.toLeft, C.Valid m) (taken : Wired.Steps N w move w') :
    ∃ moves d', Run (Duplex.Steps M) d moves d' ∧ Carries C Shows w' d' := by
  obtain ⟨⟨rightBuffer, right, carriedRight⟩, leftBuffer, left, carriedLeft⟩ := h
  cases move with
  | left e =>
      obtain ⟨⟨x, sent⟩, acted, rfl⟩ := Except.ok_of_map taken
      obtain ⟨t, out, same, eq, left'⟩ := F.act left acted
      have step : Duplex.Steps M d (.left e) { d with left := t, toRight := d.toRight ++ out } := by
        rw [Duplex.Steps, Duplex.step, same]
        rfl
      exact ⟨_, _, .single step, ⟨rightBuffer, right, carried_append carriedRight eq⟩,
        leftBuffer, left', carriedLeft⟩
  | right e =>
      obtain ⟨⟨x, sent⟩, acted, rfl⟩ := Except.ok_of_map taken
      obtain ⟨t, out, same, eq, right'⟩ := F.act right acted
      have step : Duplex.Steps M d (.right e) { d with right := t, toLeft := d.toLeft ++ out } := by
        rw [Duplex.Steps, Duplex.step, same]
        rfl
      exact ⟨_, _, .single step, ⟨rightBuffer, right', carriedRight⟩, leftBuffer, left,
        carried_append carriedLeft eq⟩
  | toRight count =>
      obtain ⟨⟨x, sent⟩, read, rfl⟩ := Except.ok_of_map taken
      rw [← List.take_append_drop count w.toRight, ← List.append_assoc] at carriedRight
      obtain ⟨t, out, received, eq, right'⟩ := F.read right validRight carriedRight read
      obtain ⟨behind, pending, rest⟩ := C.decode_front validRight carriedRight
      exact ⟨_, _, Machine.run_toRight pending received, ⟨_, right', rest⟩, leftBuffer, left,
        carried_append carriedLeft eq⟩
  | toLeft count =>
      obtain ⟨⟨x, sent⟩, read, rfl⟩ := Except.ok_of_map taken
      rw [← List.take_append_drop count w.toLeft, ← List.append_assoc] at carriedLeft
      obtain ⟨t, out, received, eq, left'⟩ := F.read left validLeft carriedLeft read
      obtain ⟨behind, pending, rest⟩ := C.decode_front validLeft carriedLeft
      exact ⟨_, _, Machine.run_toLeft pending received,
        ⟨rightBuffer, right, carried_append carriedRight eq⟩, _, left', rest⟩

/-- The rule for refinement: as long as all goes well and the parties send messages only, a run
of the readers is a run of the parties they stand for. -/
theorem Framing.refines (F : Framing C M N Shows) (good : Wired δ α → Prop)
    (ok : Duplex σ μ → Prop) {w w' : Wired δ α} {d : Duplex σ μ}
    (earlier : ∀ w move w', Wired.Steps N w move w' → good w' → good w)
    (same : ∀ w d, Carries C Shows w d → good w → ok d)
    (valid : ∀ deliveries d', Run (Duplex.Steps M) d deliveries d' → ok d' →
      (∀ m ∈ d'.toRight, C.Valid m) ∧ ∀ m ∈ d'.toLeft, C.Valid m)
    {moves : List (Wired.Move ε)} (run : Run (Wired.Steps N) w moves w')
    (start : Carries C Shows w d) (well : good w') :
    ∃ deliveries d', Run (Duplex.Steps M) d deliveries d' ∧ Carries C Shows w' d' := by
  refine run.invariant (fun w' => good w' →
    ∃ deliveries d', Run (Duplex.Steps M) d deliveries d' ∧ Carries C Shows w' d') ?_
    (fun _ => ⟨[], d, .nil, start⟩) well
  intro u move u' ih taken well
  have before := earlier u move u' taken well
  obtain ⟨deliveries, e, run, carries⟩ := ih before
  obtain ⟨validRight, validLeft⟩ := valid deliveries e run (same u e carries before)
  obtain ⟨more, e', run', carries'⟩ := F.step carries validRight validLeft taken
  exact ⟨_, e', run.append run', carries'⟩

end Framing
