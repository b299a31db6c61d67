/- FastTransfer/Qt/Splitting
   source: QString::trimmed, QString::split and QStringList::join
   digest: Strings split at a separator and joined again. -/

import FastTransfer.Qt.QString
import Mathlib.Data.List.DropRight

set_option autoImplicit false
set_option relaxedAutoImplicit false

namespace FastTransfer.QString

theorem trimmed_sublist (s : QString) : (trimmed s).Sublist s :=
  (List.rdropWhile_prefix isSpace (s.dropWhile isSpace)).sublist.trans (List.dropWhile_sublist _)

theorem mem_trimmed {s : QString} {c : UInt16} (mem : c ∈ trimmed s) : c ∈ s :=
  (trimmed_sublist s).subset mem

theorem trimmed_trimmed (s : QString) : trimmed (trimmed s) = trimmed s := by
  have front : (trimmed s).dropWhile isSpace = trimmed s := by
    rw [List.dropWhile_eq_self_iff]
    intro nonempty
    obtain ⟨rest, whole⟩ : trimmed s <+: s.dropWhile isSpace :=
      List.rdropWhile_prefix isSpace _
    have idle := List.dropWhile_idempotent (p := isSpace) (l := s)
    rw [List.dropWhile_eq_self_iff] at idle
    have head : ∀ inside : 0 < (s.dropWhile isSpace).length,
        (s.dropWhile isSpace)[0] = (trimmed s)[0] := by
      rw [← whole]
      intro inside
      exact List.getElem_append_left nonempty
    have inside : 0 < (s.dropWhile isSpace).length := by
      rw [← whole, List.length_append]
      omega
    rw [← head inside]
    exact idle inside
  show ((trimmed s).dropWhile isSpace).rdropWhile isSpace = trimmed s
  rw [front]
  exact List.rdropWhile_idempotent isSpace _

/-- Splitting undoes the joining of parts that are not empty and hold no separator. -/
theorem splitSkipEmpty_join {sep : UInt16} {parts : List QString}
    (whole : ∀ part ∈ parts, part ≠ [] ∧ sep ∉ part) :
    splitSkipEmpty sep (join sep parts) = parts := by
  cases parts with
  | nil => rfl
  | cons part rest =>
      have split : (join sep (part :: rest)).splitOn sep = part :: rest :=
        List.splitOn_intercalate sep (fun l mem => (whole l mem).2) (List.cons_ne_nil _ _)
      rw [splitSkipEmpty, split, List.filter_eq_self]
      intro l mem
      simpa using (whole l mem).1

theorem mem_join {sep c : UInt16} {parts : List QString} (mem : c ∈ join sep parts) :
    c = sep ∨ ∃ part ∈ parts, c ∈ part := by
  induction parts with
  | nil => cases mem
  | cons part rest ih =>
      cases rest with
      | nil =>
          rw [join, List.intercalate_singleton] at mem
          exact .inr ⟨part, List.mem_cons_self, mem⟩
      | cons next rest =>
          rw [join, List.intercalate_cons_cons, List.append_assoc] at mem
          rcases List.mem_append.mp mem with here | later
          · exact .inr ⟨part, List.mem_cons_self, here⟩
          rcases List.mem_append.mp later with here | later
          · exact .inl (List.mem_singleton.mp here)
          · rcases ih later with same | ⟨other, among, inside⟩
            · exact .inl same
            · exact .inr ⟨other, List.mem_cons_of_mem _ among, inside⟩

theorem mem_join_of_mem {sep c : UInt16} {parts : List QString} {part : QString}
    (mem : part ∈ parts) (inside : c ∈ part) : c ∈ join sep parts := by
  induction parts with
  | nil => cases mem
  | cons first rest ih =>
      cases rest with
      | nil =>
          rw [join, List.intercalate_singleton, ← List.mem_singleton.mp mem]
          exact inside
      | cons next rest =>
          rw [join, List.intercalate_cons_cons, List.append_assoc]
          rcases List.mem_cons.mp mem with rfl | later
          · exact List.mem_append_left _ inside
          · exact List.mem_append_right _ (List.mem_append_right _ (ih later))

theorem join_front {sep : UInt16} {part : QString} {rest : List QString} :
    part <+: join sep (part :: rest) := by
  cases rest with
  | nil =>
      have alone : join sep [part] = part := List.intercalate_singleton
      exact ⟨[], by rw [List.append_nil, alone]⟩
  | cons next rest =>
      rw [join, List.intercalate_cons_cons, List.append_assoc]
      exact List.prefix_append _ _

theorem mem_splitOn {sep : UInt16} {s part : QString} (mem : part ∈ s.splitOn sep) :
    sep ∉ part ∧ ∀ c ∈ part, c ∈ s := by
  induction s generalizing part with
  | nil =>
      rw [List.splitOn_nil, List.mem_singleton] at mem
      subst mem
      exact ⟨List.not_mem_nil, fun c inside => inside⟩
  | cons a s ih =>
      obtain ⟨first, rest, eq⟩ := List.exists_cons_of_ne_nil (List.splitOn_ne_nil sep s)
      have weaker : ∀ part ∈ s.splitOn sep, sep ∉ part ∧ ∀ c ∈ part, c ∈ a :: s := by
        intro part mem
        obtain ⟨flat, sub⟩ := ih mem
        exact ⟨flat, fun c inside => List.mem_cons_of_mem a (sub c inside)⟩
      rw [List.splitOn_cons_eq_if_modifyHead] at mem
      split at mem
      · rcases List.mem_cons.mp mem with rfl | later
        · exact ⟨List.not_mem_nil, fun c inside => absurd inside List.not_mem_nil⟩
        · exact weaker part later
      · rename_i other
        rw [eq, List.modifyHead_cons] at mem
        rcases List.mem_cons.mp mem with rfl | later
        · obtain ⟨flat, sub⟩ := weaker first (eq ▸ List.mem_cons_self)
          refine ⟨fun inside => ?_, fun c inside => ?_⟩
          · rcases List.mem_cons.mp inside with same | behind
            · exact other (by simp [same])
            · exact flat behind
          · rcases List.mem_cons.mp inside with rfl | behind
            · exact List.mem_cons_self
            · exact sub c behind
        · exact weaker part (eq ▸ List.mem_cons_of_mem first later)

section Split

variable {sep : UInt16}

theorem splitSkipEmpty_flat {s : QString} (flat : sep ∉ s) :
    splitSkipEmpty sep s = if s = [] then [] else [s] := by
  rw [splitSkipEmpty, List.splitOn_eq_singleton flat]
  split
  · rename_i empty
    rw [empty]
    rfl
  · rename_i nonempty
    rw [List.filter_cons_of_pos (by simpa using nonempty), List.filter_nil]

theorem splitSkipEmpty_append (front behind : QString) :
    splitSkipEmpty sep (front ++ sep :: behind) =
      splitSkipEmpty sep front ++ splitSkipEmpty sep behind := by
  rw [splitSkipEmpty, List.splitOn_append_cons_self, List.filter_append]
  rfl

theorem splitSkipEmpty_stripLeading (s : QString) :
    splitSkipEmpty sep (stripLeading sep s) = splitSkipEmpty sep s := by
  induction s with
  | nil => rfl
  | cons c s ih =>
      by_cases same : c = sep
      · subst same
        rw [stripLeading, List.dropWhile_cons_of_pos (by simp)]
        have front := @splitSkipEmpty_append c [] s
        rw [List.nil_append] at front
        rw [front]
        exact ih
      · rw [stripLeading, List.dropWhile_cons_of_neg (by simpa using same)]

theorem join_cons {part : QString} {rest : List QString} (more : rest ≠ []) :
    join sep (part :: rest) = part ++ sep :: join sep rest := by
  obtain ⟨next, rest, rfl⟩ := List.exists_cons_of_ne_nil more
  rw [join, List.intercalate_cons_cons, List.append_assoc]
  rfl

end Split

end FastTransfer.QString
