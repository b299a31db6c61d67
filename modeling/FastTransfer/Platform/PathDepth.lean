/- FastTransfer/Platform/PathDepth
   source: src/platform/PlatformFilesystem.cpp
   digest: Where the paths that isSafeRelativePath accepts lead to, on POSIX and on Windows. -/

import FastTransfer.Library.Descent
import FastTransfer.Platform.PlatformFilesystem
import FastTransfer.Qt.Splitting

set_option autoImplicit false
set_option relaxedAutoImplicit false

namespace FastTransfer.PlatformFilesystem

open QString Descent

/-- How a file system resolves a segment, with no blank trimmed. -/
def segmentMove (seg : QString) : Move QString :=
  if seg = [] ∨ seg = [dot] then .stay
  else if seg = [dot, dot] then .up
  else .down seg

/-- The separators of a POSIX path; the backslash is an ordinary character. -/
def posix (c : UInt16) : Bool := c == slash

/-- The separators of a Windows path. -/
def windows (c : UInt16) : Bool := c == slash || c == backslash

def moves (separates : UInt16 → Bool) (path : QString) : List (Move QString) :=
  (path.splitOnP separates).map segmentMove

/-- The levels that the loop counts a part for. -/
def weight (part : QString) : Int :=
  if trimmed part = [dot, dot] then -1 else if trimmed part = [dot] then 0 else 1

def depthOf (parts : List QString) : Int := ((parts.filter (· ≠ [])).map weight).sum

/-- The levels of a segment between slashes with its backslashes read as separators too. -/
def levels (seg : QString) : Int := depthOf (seg.splitOn backslash)

/-- The levels that a backslash only pretends: on POSIX a segment that has one is a single name. So
is one with blanks around it, for which less may be counted. -/
def surplus (seg : QString) : Int :=
  if backslash ∈ seg ∨ trimmed seg ≠ seg then levels seg - 1 else 0

/-- From the first backslash on, the levels that backslashes only pretend never exceed those there
are with them, and are fewer at the end of a path that has a backslash. -/
def Anchored (path : QString) : Prop :=
  (∀ front ∈ (path.splitOn slash).inits, (∃ seg ∈ front, backslash ∈ seg) →
      (front.map surplus).sum ≤ (front.map levels).sum) ∧
    (backslash ∈ path →
      ((path.splitOn slash).map surplus).sum < ((path.splitOn slash).map levels).sum)

instance (path : QString) : Decidable (Anchored path) := by
  unfold Anchored
  infer_instance

section Moves

@[simp] theorem segmentMove_nil : segmentMove [] = .stay := by
  simp [segmentMove]

theorem segmentMove_name {seg : QString} (nonempty : seg ≠ []) (one : seg ≠ [dot])
    (two : seg ≠ [dot, dot]) : segmentMove seg = .down seg := by
  simp [segmentMove, nonempty, one, two]

theorem level_of_trimmed {seg : QString} (nonempty : seg ≠ []) (still : trimmed seg = seg) :
    (segmentMove seg).level = weight seg := by
  unfold segmentMove weight
  rw [still]
  by_cases two : seg = [dot, dot]
  · subst two
    decide
  by_cases one : seg = [dot]
  · subst one
    decide
  simp [nonempty, one, two, Move.level]

theorem level_of_blanks {seg : QString} (blanks : trimmed seg ≠ seg) :
    (segmentMove seg).level = 1 := by
  rw [segmentMove_name]
  · rfl
  all_goals
    rintro rfl
    exact blanks (by decide)

theorem weight_le_one (part : QString) : weight part ≤ 1 := by
  unfold weight
  split
  · decide
  split <;> decide

theorem weight_le_level {part : QString} (nonempty : part ≠ []) :
    weight part ≤ (segmentMove part).level := by
  by_cases still : trimmed part = part
  · exact Int.le_of_eq (level_of_trimmed nonempty still).symm
  · rw [level_of_blanks still]
    exact weight_le_one part

end Moves

section Depth

@[simp] theorem depthOf_nil : depthOf [] = 0 := by
  simp [depthOf]

@[simp] theorem depthOf_empty (parts : List QString) : depthOf ([] :: parts) = depthOf parts := by
  simp [depthOf]

theorem depthOf_cons {part : QString} (nonempty : part ≠ []) (parts : List QString) :
    depthOf (part :: parts) = weight part + depthOf parts := by
  rw [depthOf, List.filter_cons_of_pos (by simpa using nonempty), List.map_cons, List.sum_cons]
  rfl

theorem depthOf_append (parts others : List QString) :
    depthOf (parts ++ others) = depthOf parts + depthOf others := by
  simp [depthOf]

theorem depthOf_flatMap (segs : List QString) :
    depthOf (segs.flatMap (·.splitOn backslash)) = (segs.map levels).sum := by
  induction segs with
  | nil => simp
  | cons seg segs ih =>
      rw [List.flatMap_cons, depthOf_append, ih, List.map_cons, List.sum_cons]
      rfl

theorem depthOf_le_level (segs : List QString) :
    depthOf segs ≤ ((segs.map segmentMove).map Move.level).sum := by
  induction segs with
  | nil => simp
  | cons seg segs ih =>
      rw [List.map_cons, List.map_cons, List.sum_cons]
      by_cases empty : seg = []
      · subst empty
        simpa [Move.level] using ih
      rw [depthOf_cons empty]
      have first := weight_le_level empty
      omega

theorem depthBelow_cons {depth last : Int} {part : QString} {parts : List QString}
    (inside : 0 ≤ depth) (counted : depthBelow depth (part :: parts) = some last) :
    0 ≤ depth + weight part ∧ depthBelow (depth + weight part) parts = some last := by
  unfold depthBelow at counted
  dsimp only at counted
  unfold weight
  split at counted
  · rename_i two
    rw [if_pos two]
    split at counted
    · cases counted
    · exact ⟨by omega, counted⟩
  rename_i two
  rw [if_neg two]
  split at counted
  · rename_i one
    rw [if_pos one]
    exact ⟨by omega, by simpa using counted⟩
  · rename_i one
    rw [if_neg one]
    exact ⟨by omega, counted⟩

theorem depthBelow_depthOf {depth last : Int} {parts : List QString} (inside : 0 ≤ depth)
    (counted : depthBelow depth (parts.filter (· ≠ [])) = some last) :
    (∀ front ∈ parts.inits, 0 ≤ depth + depthOf front) ∧ last = depth + depthOf parts := by
  induction parts generalizing depth with
  | nil =>
      cases counted
      simpa using inside
  | cons part parts ih =>
      rw [List.inits_cons, List.forall_mem_cons, List.forall_mem_map]
      by_cases empty : part = []
      · subst empty
        simp only [depthOf_nil, depthOf_empty]
        have rest := ih inside (by simpa using counted)
        exact ⟨⟨by omega, rest.1⟩, rest.2⟩
      rw [List.filter_cons_of_pos (by simpa using empty)] at counted
      obtain ⟨deep, counted⟩ := depthBelow_cons inside counted
      obtain ⟨fronts, whole⟩ := ih deep counted
      simp only [depthOf_cons empty]
      refine ⟨⟨by simpa using inside, fun front mem => ?_⟩, by omega⟩
      have front := fronts front mem
      omega

end Depth

section Separators

theorem splitOnP_posix (path : QString) : path.splitOnP posix = path.splitOn slash := by
  rw [List.splitOn_eq_splitOnP]
  rfl

theorem split_normalised (path : QString) :
    (replaceChar path backslash slash).splitOn slash = path.splitOnP windows := by
  induction path with
  | nil => simp [replaceChar]
  | cons c path ih =>
      rw [replaceChar, List.map_cons, List.splitOn_cons_eq_if_modifyHead,
        List.splitOnP_cons_eq_if_modifyHead]
      rw [replaceChar] at ih
      rw [ih]
      by_cases back : c = backslash
      · rw [back]
        rfl
      · simp [windows, back]

theorem splitOnP_windows (path : QString) :
    path.splitOnP windows = (path.splitOn slash).flatMap (·.splitOn backslash) := by
  induction path with
  | nil => simp
  | cons c path ih =>
      obtain ⟨seg, segs, eq⟩ := List.exists_cons_of_ne_nil (List.splitOn_ne_nil slash path)
      rw [List.splitOnP_cons_eq_if_modifyHead, List.splitOn_cons_eq_if_modifyHead, ih, eq]
      by_cases separates : c = slash
      · simp [windows, separates]
      · rw [if_neg (c := (c == slash) = true) (by simpa using separates), List.modifyHead_cons,
          List.flatMap_cons, List.flatMap_cons, List.splitOn_cons_eq_if_modifyHead]
        by_cases back : c = backslash
        · simp [windows, back]
        · obtain ⟨part, parts, first⟩ :=
            List.exists_cons_of_ne_nil (List.splitOn_ne_nil backslash seg)
          simp [windows, separates, back, first]

end Separators

theorem isSafeRelativePath_depth {path : QString} (safe : isSafeRelativePath path = true) :
    (∀ front ∈ (path.splitOnP windows).inits, 0 ≤ depthOf front) ∧
      0 < depthOf (path.splitOnP windows) := by
  unfold isSafeRelativePath at safe
  dsimp only at safe
  split at safe
  · cases safe
  split at safe
  · cases safe
  split at safe
  · cases safe
  split at safe
  · cases safe
  rw [splitSkipEmpty, split_normalised] at safe
  split at safe
  · cases safe
  · rename_i depth counted
    have positive : 0 < depth := of_decide_eq_true safe
    obtain ⟨fronts, whole⟩ := depthBelow_depthOf (Int.le_refl 0) counted
    simp only [Int.zero_add] at fronts whole
    exact ⟨fronts, by omega⟩

/-- On Windows an accepted path leads strictly below the base. -/
theorem below_windows {path : QString} (safe : isSafeRelativePath path = true) :
    Below (moves windows path) := by
  obtain ⟨fronts, whole⟩ := isSafeRelativePath_depth safe
  rw [below_iff_level, moves, List.map_inits, List.forall_mem_map]
  constructor
  · intro front mem
    exact Int.le_trans (fronts front mem) (depthOf_le_level front)
  · exact Int.lt_of_lt_of_le whole (depthOf_le_level _)

theorem levels_plain {seg : QString} (nonempty : seg ≠ []) (plain : backslash ∉ seg) :
    levels seg = weight seg := by
  rw [levels, List.splitOn_eq_singleton plain, depthOf_cons nonempty, depthOf_nil, Int.add_zero]

/-- The levels of a segment are those counted less those that are only pretended. -/
theorem level_segmentMove (seg : QString) :
    (segmentMove seg).level = levels seg - surplus seg := by
  unfold surplus
  by_cases back : backslash ∈ seg
  · rw [if_pos (Or.inl back), segmentMove_name]
    · simp only [Move.level]
      omega
    all_goals
      rintro rfl
      exact absurd back (by decide)
  by_cases still : trimmed seg = seg
  · rw [if_neg (by simp [back, still])]
    by_cases empty : seg = []
    · subst empty
      decide
    · rw [level_of_trimmed empty still, levels_plain empty back, Int.sub_zero]
  · rw [if_pos (Or.inr still), level_of_blanks still]
    omega

theorem level_segments (segs : List QString) :
    ((segs.map segmentMove).map Move.level).sum =
      (segs.map levels).sum - (segs.map surplus).sum := by
  induction segs with
  | nil => simp
  | cons seg segs ih =>
      simp only [List.map_cons, List.sum_cons, level_segmentMove] at ih ⊢
      omega

/-- Nothing is asked of a path without a backslash. -/
theorem anchored_of_no_backslash {path : QString} (plain : backslash ∉ path) : Anchored path := by
  refine ⟨?_, fun back => absurd back plain⟩
  rintro front mem ⟨seg, among, back⟩
  rw [List.mem_inits] at mem
  exact absurd ((mem_splitOn (mem.subset among)).2 backslash back) plain

theorem surplus_le_zero {seg : QString} (plain : backslash ∉ seg) : surplus seg ≤ 0 := by
  unfold surplus
  by_cases still : trimmed seg = seg
  · exact Int.le_of_eq (if_neg (by simp [plain, still]))
  · have nonempty : seg ≠ [] := by
      rintro rfl
      exact still rfl
    have light := weight_le_one seg
    rw [if_pos (Or.inr still), levels_plain nonempty plain]
    omega

theorem surplus_sum_le_zero {segs : List QString} (plain : ∀ seg ∈ segs, backslash ∉ seg) :
    (segs.map surplus).sum ≤ 0 := by
  induction segs with
  | nil => simp
  | cons seg segs ih =>
      rw [List.forall_mem_cons] at plain
      have first := surplus_le_zero plain.1
      have rest := ih plain.2
      rw [List.map_cons, List.sum_cons]
      omega

theorem levels_fronts {path : QString} (safe : isSafeRelativePath path = true) :
    (∀ front ∈ (path.splitOn slash).inits, 0 ≤ (front.map levels).sum) ∧
      0 < ((path.splitOn slash).map levels).sum := by
  obtain ⟨fronts, whole⟩ := isSafeRelativePath_depth safe
  rw [splitOnP_windows] at fronts whole
  rw [depthOf_flatMap] at whole
  refine ⟨fun front mem => ?_, whole⟩
  rw [← depthOf_flatMap]
  apply fronts
  rw [List.mem_inits] at mem ⊢
  exact mem.flatMap _

/-- Of the accepted paths exactly the anchored ones lead strictly below the base on both systems. -/
theorem safe_below_iff_anchored (path : QString) (safe : isSafeRelativePath path = true) :
    (Below (moves posix path) ∧ Below (moves windows path)) ↔ Anchored path := by
  obtain ⟨fronts, whole⟩ := levels_fronts safe
  have posixLevels : Below (moves posix path) ↔
      (∀ front ∈ (path.splitOn slash).inits,
        (front.map surplus).sum ≤ (front.map levels).sum) ∧
      ((path.splitOn slash).map surplus).sum < ((path.splitOn slash).map levels).sum := by
    rw [below_iff_level, moves, splitOnP_posix, List.map_inits, List.forall_mem_map]
    simp only [level_segments]
    refine and_congr (forall₂_congr fun front _ => ?_) ?_ <;> omega
  rw [and_iff_left (below_windows safe), posixLevels]
  constructor
  · rintro ⟨inside, strict⟩
    exact ⟨fun front mem _ => inside front mem, fun _ => strict⟩
  · rintro ⟨inside, strict⟩
    constructor
    · intro front mem
      by_cases back : ∃ seg ∈ front, backslash ∈ seg
      · exact inside front mem back
      · push Not at back
        exact Int.le_trans (surplus_sum_le_zero back) (fronts front mem)
    · by_cases back : backslash ∈ path
      · exact strict back
      · refine Int.lt_of_le_of_lt (surplus_sum_le_zero ?_) whole
        intro seg mem has
        exact back ((mem_splitOn mem).2 backslash has)

/-- A backslash in a name, and blanks around dots. -/
theorem safe_below_iff_anchored_mixed :
    (Below (moves posix (literal "a\\b/c/.. /.")) ∧
        Below (moves windows (literal "a\\b/c/.. /."))) ↔
      Anchored (literal "a\\b/c/.. /.") :=
  safe_below_iff_anchored _ (by decide)

/-- Backslashes make levels on Windows only: with them a path back to the base and one out of it
are accepted. -/
theorem backslash_accepted :
    (isSafeRelativePath (literal "a\\b/..") = true ∧
      follow [] (moves posix (literal "a\\b/..")) = some []) ∧
    (isSafeRelativePath (literal "a\\b/../../x") = true ∧
      follow [] (moves posix (literal "a\\b/../../x")) = none) ∧
    ¬ ∀ path, isSafeRelativePath path = true →
      Below (moves posix path) ∧ Below (moves windows path) := by
  refine ⟨by decide, by decide, ?_⟩
  intro sound
  have below := (sound (literal "a\\b/..") (by decide)).1
  exact below.2 (by decide)

end FastTransfer.PlatformFilesystem
