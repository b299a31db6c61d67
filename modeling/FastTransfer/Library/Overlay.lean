/- FastTransfer/Library/Overlay
   source: none, a general library
   digest: Writes at positions of a sequence: which symbol stands where, and writes that spell a
     text. -/

import Mathlib.Data.List.Forall2
import Mathlib.Data.List.GetD
import Mathlib.Data.List.Induction

set_option autoImplicit false
set_option relaxedAutoImplicit false

namespace Overlay

variable {α : Type*} (blank : α)

/-- Write at a position; a gap behind the end is filled with blanks, and an empty write has no
effect. -/
def write (content : List α) (pos : Nat) (data : List α) : List α :=
  if data = [] then content
  else content.take pos ++ List.replicate (pos - content.length) blank ++ data ++
    content.drop (pos + data.length)

def writeAll (content : List α) (writes : List (Nat × List α)) : List α :=
  writes.foldl (fun content w => write blank content w.1 w.2) content

/-- Where the content ends after the writes. -/
def reach (length : Nat) (writes : List (Nat × List α)) : Nat :=
  writes.foldl (fun n w => if w.2 = [] then n else max n (w.1 + w.2.length)) length

/-- What the last write over a place puts there. -/
def lastAt (writes : List (Nat × List α)) (place : Nat) : Option α :=
  writes.foldl (fun before w =>
    if w.1 ≤ place ∧ place < w.1 + w.2.length then w.2[place - w.1]? else before) none

/-- The writes end where the text does, and leave its symbol in each of its places. -/
structure Spells (content : List α) (writes : List (Nat × List α)) (text : List α) : Prop where
  length : reach content.length writes = text.length
  symbol : ∀ place < text.length,
    (lastAt writes place).getD (content.getD place blank) = text.getD place blank

/-- Each write that is not empty starts where the one before ended. -/
def Straight : Nat → List (Nat × List α) → Prop
  | _, [] => True
  | start, w :: writes => (w.2 = [] ∨ w.1 = start) ∧ Straight (start + w.2.length) writes

theorem length_write (content : List α) (pos : Nat) (data : List α) :
    (write blank content pos data).length =
      if data = [] then content.length else max content.length (pos + data.length) := by
  rw [write]
  split
  · rfl
  · simp only [List.length_append, List.length_take, List.length_replicate, List.length_drop]
    omega

theorem getD_write (content : List α) (pos : Nat) (data : List α) (place : Nat) :
    (write blank content pos data).getD place blank =
      if pos ≤ place ∧ place < pos + data.length then data.getD (place - pos) blank
      else content.getD place blank := by
  rw [write]
  split
  · rename_i empty
    rw [if_neg]
    rw [empty, List.length_nil]
    omega
  have front : (content.take pos ++ List.replicate (pos - content.length) blank).length = pos := by
    rw [List.length_append, List.length_take, List.length_replicate]
    omega
  by_cases before : place < pos
  · rw [if_neg (by omega), List.append_assoc, List.getD_append _ _ _ _ (by omega)]
    by_cases inside : place < content.length
    · rw [List.getD_append _ _ _ _ (by rw [List.length_take]; omega), List.getD_eq_getElem?_getD,
        List.getElem?_take_of_lt before, ← List.getD_eq_getElem?_getD]
    · rw [List.getD_append_right _ _ _ _ (by rw [List.length_take]; omega),
        List.getD_replicate _ (by rw [List.length_take]; omega),
        List.getD_eq_default _ _ (by omega)]
  · by_cases within : place < pos + data.length
    · rw [if_pos ⟨by omega, within⟩, List.append_assoc,
        List.getD_append_right _ _ _ _ (by omega), front,
        List.getD_append _ _ _ _ (by omega)]
    · rw [if_neg (by omega), List.getD_append_right _ _ _ _ (by rw [List.length_append]; omega),
        List.length_append, front, List.getD_eq_getElem?_getD, List.getElem?_drop,
        ← List.getD_eq_getElem?_getD]
      congr 1
      omega

theorem length_writeAll (content : List α) (writes : List (Nat × List α)) :
    (writeAll blank content writes).length = reach content.length writes := by
  induction writes generalizing content with
  | nil => rfl
  | cons w writes ih =>
      rw [writeAll, List.foldl_cons, ← writeAll, ih, length_write, reach, reach, List.foldl_cons]

private theorem le_reach (length : Nat) (writes : List (Nat × List α)) :
    length ≤ reach length writes := by
  induction writes generalizing length with
  | nil => exact Nat.le_refl _
  | cons w writes ih =>
      rw [reach, List.foldl_cons, ← reach]
      refine Nat.le_trans ?_ (ih _)
      split
      · exact Nat.le_refl _
      · exact Nat.le_max_left _ _

theorem getD_writeAll (content : List α) (writes : List (Nat × List α)) (place : Nat) :
    (writeAll blank content writes).getD place blank =
      (lastAt writes place).getD (content.getD place blank) := by
  induction writes using List.reverseRecOn with
  | nil => rfl
  | append_singleton writes w ih =>
      rw [writeAll, List.foldl_append, List.foldl_cons, List.foldl_nil, ← writeAll, getD_write, ih,
        lastAt, lastAt, List.foldl_append, List.foldl_cons, List.foldl_nil]
      split
      · rw [List.getElem?_eq_getElem (by omega), Option.getD_some, List.getD_eq_getElem]
      · rfl

/-- The writes turn a content into a text exactly if they spell it. -/
theorem writeAll_eq_iff (content : List α) (writes : List (Nat × List α)) (text : List α) :
    writeAll blank content writes = text ↔ Spells blank content writes text := by
  constructor
  · rintro rfl
    exact ⟨(length_writeAll blank content writes).symm,
      fun place _ => (getD_writeAll blank content writes place).symm⟩
  · intro spells
    have same : (writeAll blank content writes).length = text.length :=
      (length_writeAll blank content writes).trans spells.length
    apply List.ext_getElem same
    intro place inside inside'
    have symbol := spells.symbol place inside'
    rwa [← getD_writeAll, List.getD_eq_getElem _ _ inside, List.getD_eq_getElem _ _ inside']
      at symbol

/-! Writes that follow one another. -/

def text (writes : List (Nat × List α)) : List α := writes.flatMap Prod.snd

theorem write_front {content head data : List α} {pos : Nat} (front : head <+: content)
    (next : data = [] ∨ pos = head.length) : head ++ data <+: write blank content pos data := by
  obtain ⟨behind, rfl⟩ := front
  rw [write]
  split
  · rename_i empty
    rw [empty, List.append_nil]
    exact List.prefix_append _ _
  · rename_i some
    rw [next.resolve_left some, List.take_left, List.length_append,
      Nat.sub_eq_zero_of_le (Nat.le_add_right _ _), List.replicate_zero, List.append_nil]
    exact List.prefix_append _ _

theorem writeAll_straight {content head : List α} {writes : List (Nat × List α)}
    (front : head <+: content) (straight : Straight head.length writes)
    (fits : content.length ≤ head.length + (text writes).length) :
    writeAll blank content writes = head ++ text writes := by
  induction writes generalizing content head with
  | nil =>
      rw [text, List.flatMap_nil, List.length_nil] at fits
      rw [text, List.flatMap_nil, List.append_nil, front.eq_of_length_le (by omega)]
      rfl
  | cons w writes ih =>
      obtain ⟨next, later⟩ := straight
      rw [← List.length_append] at later
      have whole : text (w :: writes) = w.2 ++ text writes := List.flatMap_cons
      rw [whole, List.length_append] at fits
      have longer := length_write blank content w.1 w.2
      rw [writeAll, List.foldl_cons, ← writeAll, ih (write_front blank front next) later, whole,
        List.append_assoc]
      rw [longer, List.length_append]
      split
      · omega
      · rename_i some
        have := next.resolve_left some
        omega

/-- The places of the writes are the same. -/
def SameLayout (writes writes' : List (Nat × List α)) : Prop :=
  List.Forall₂ (fun w w' => w.1 = w'.1 ∧ w.2.length = w'.2.length) writes writes'

private theorem straight_of_split {start : Nat} {writes : List (Nat × List α)}
    (each : ∀ before w after, writes = before ++ w :: after →
      w.2 = [] ∨ w.1 = start + (text before).length) : Straight start writes := by
  induction writes generalizing start with
  | nil => trivial
  | cons w writes ih =>
      refine ⟨each [] w writes rfl, ih ?_⟩
      intro before v after split
      have here := each (w :: before) v after (by rw [split, List.cons_append])
      have whole : text (w :: before) = w.2 ++ text before := List.flatMap_cons
      rwa [whole, List.length_append, ← Nat.add_assoc] at here

private theorem lastAt_const {writes : List (Nat × List α)} {place : Nat} {x : α}
    (const : ∀ w ∈ writes, w.1 ≤ place ∧ place < w.1 + w.2.length →
      w.2[place - w.1]? = some x) : (lastAt writes place).getD x = x := by
  induction writes using List.reverseRecOn with
  | nil => rfl
  | append_singleton writes w ih =>
      rw [lastAt, List.foldl_append, List.foldl_cons, List.foldl_nil]
      split
      · rename_i within
        rw [const w (List.mem_append_right _ (List.mem_singleton_self w)) within]
        rfl
      · exact ih fun v mem => const v (List.mem_append_left _ mem)

/-- The write with all its data replaced by one symbol. -/
private def flat (x : α) (w : Nat × List α) : Nat × List α := (w.1, List.replicate w.2.length x)

private theorem flat_layout (x : α) (writes : List (Nat × List α)) :
    SameLayout writes (writes.map (flat x)) := by
  rw [SameLayout, List.forall₂_map_right_iff, List.forall₂_same]
  intro w _
  exact ⟨rfl, List.length_replicate.symm⟩

private theorem SameLayout.length {writes writes' : List (Nat × List α)}
    (same : SameLayout writes writes') : (text writes).length = (text writes').length := by
  induction same with
  | nil => rfl
  | cons here _ ih =>
      rw [text, text, List.flatMap_cons, List.flatMap_cons, List.length_append, List.length_append,
        here.2]
      exact congrArg _ ih

private theorem SameLayout.straight {writes writes' : List (Nat × List α)} {start : Nat}
    (same : SameLayout writes writes') (straight : Straight start writes) :
    Straight start writes' := by
  induction same generalizing start with
  | nil => trivial
  | cons here _ ih =>
      obtain ⟨next, later⟩ := straight
      refine ⟨?_, here.2 ▸ ih later⟩
      rcases next with empty | same
      · rw [empty, List.length_nil] at here
        exact .inl (List.length_eq_zero_iff.mp here.2.symm)
      · exact .inr (here.1.symm.trans same)

/-- The write with its first symbol replaced by another one than the rest. -/
private def marked (x y : α) (w : Nat × List α) : Nat × List α :=
  (w.1, y :: List.replicate (w.2.length - 1) x)

private theorem marked_layout (x y : α) {w : Nat × List α} (some : w.2 ≠ [])
    (before after : List (Nat × List α)) :
    SameLayout (before ++ w :: after)
      (before.map (flat x) ++ marked x y w :: after.map (flat x)) := by
  have positive := List.length_pos_of_ne_nil some
  refine List.rel_append (flat_layout x before) (.cons ⟨rfl, ?_⟩ (flat_layout x after))
  rw [marked, List.length_cons, List.length_replicate]
  omega

private theorem lastAt_marked (x y : α) {w : Nat × List α} {place : Nat} (elsewhere : w.1 ≠ place)
    (before after : List (Nat × List α)) :
    (lastAt (before.map (flat x) ++ marked x y w :: after.map (flat x)) place).getD x = x := by
  have plain : ∀ writes : List (Nat × List α), ∀ v ∈ writes.map (flat x),
      v.1 ≤ place ∧ place < v.1 + v.2.length → v.2[place - v.1]? = some x := by
    intro writes v mem
    obtain ⟨u, -, rfl⟩ := List.mem_map.mp mem
    rintro ⟨low, high⟩
    simp only [flat, List.length_replicate] at low high ⊢
    exact List.getElem?_replicate_of_lt (by omega)
  apply lastAt_const
  intro v mem
  rcases List.mem_append.mp mem with early | late
  · exact plain before v early
  rcases List.mem_cons.mp late with rfl | behind
  · rintro ⟨low, high⟩
    simp only [marked, List.length_cons, List.length_replicate] at low high ⊢
    obtain ⟨n, shift⟩ := Nat.exists_eq_succ_of_ne_zero (by omega : place - w.1 ≠ 0)
    rw [shift, List.getElem?_cons_succ]
    exact List.getElem?_replicate_of_lt (by omega)
  · exact plain after v behind

/-- Writes append their data to a front, whatever the data are, exactly if they are straight and
cover what is behind the front. -/
theorem straight_iff [Nontrivial α] {content head : List α} (front : head <+: content)
    (writes : List (Nat × List α)) :
    (∀ writes', SameLayout writes writes' →
      writeAll blank content writes' = head ++ text writes') ↔
      Straight head.length writes ∧ content.length ≤ head.length + (text writes).length := by
  constructor
  · intro all
    have straight : Straight head.length writes := by
      apply straight_of_split
      rintro before w after rfl
      by_contra neither
      obtain ⟨some, elsewhere⟩ := not_or.mp neither
      -- one new symbol, where the text has it but no write puts it
      let place := head.length + (text before).length
      obtain ⟨y, other⟩ := exists_ne (content.getD place blank)
      generalize there : content.getD place blank = x at other
      have symbol : (writeAll blank content _).getD place blank = List.getD _ place blank :=
        congrArg (fun l => l.getD place blank) (all _ (marked_layout x y some before after))
      have wanted : (head ++ text (before.map (flat x) ++ marked x y w :: after.map (flat x))).getD
          place blank = y := by
        have length := (flat_layout x before).length
        rw [List.getD_append_right _ _ _ _ (by omega), text, List.flatMap_append, ← text,
          List.getD_append_right _ _ _ _ (by omega), ← length,
          show place - head.length - (text before).length = 0 by omega, List.flatMap_cons]
        rfl
      rw [getD_writeAll, wanted, there, lastAt_marked x y elsewhere] at symbol
      exact other symbol.symm
    refine ⟨straight, ?_⟩
    have whole := congrArg List.length (all writes (List.forall₂_same.mpr fun _ _ => ⟨rfl, rfl⟩))
    have longer := le_reach content.length writes
    rw [length_writeAll, List.length_append] at whole
    omega
  · rintro ⟨straight, fits⟩ writes' same
    refine writeAll_straight blank front (same.straight straight) ?_
    rw [← same.length]
    exact fits

end Overlay
