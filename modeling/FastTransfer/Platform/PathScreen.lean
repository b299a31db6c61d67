/- FastTransfer/Platform/PathScreen
   source: src/platform/PlatformFilesystem.cpp
   digest: Which sanitised paths the safety check accepts. -/

import FastTransfer.Platform.CleanPath

set_option autoImplicit false
set_option relaxedAutoImplicit false

namespace FastTransfer.PlatformFilesystem

open QString

private theorem depthBelow_proper {segments : List QString} (depth : Int)
    (proper : ∀ seg ∈ segments, trimmed seg ≠ [dot] ∧ trimmed seg ≠ [dot, dot]) :
    depthBelow depth segments = some (depth + segments.length) := by
  induction segments generalizing depth with
  | nil => simp [depthBelow]
  | cons seg rest ih =>
      obtain ⟨one, two⟩ := proper seg List.mem_cons_self
      rw [depthBelow, if_neg two, if_neg one,
        ih (depth + 1) fun other mem => proper other (List.mem_cons_of_mem seg mem),
        List.length_cons]
      congr 1
      omega

/-- A path of segments that do not trim to dots is safe if none of them holds a colon or a null
character. -/
private theorem isSafeRelativePath_join_iff {segments : List QString} (nonempty : segments ≠ [])
    (kept : ∀ seg ∈ segments, KeptSegment seg)
    (proper : ∀ seg ∈ segments, trimmed seg ≠ [dot] ∧ trimmed seg ≠ [dot, dot]) :
    isSafeRelativePath (join slash segments) = true ↔
      ∀ seg ∈ segments, colon ∉ seg ∧ 0 ∉ seg := by
  have filled : join slash segments ≠ [] := by
    intro empty
    have parts := joined_split kept
    rw [empty] at parts
    exact nonempty parts.symm
  have depth : (0 : Int) < segments.length := by
    have := List.length_pos_iff.mpr nonempty
    omega
  have absent : ∀ c, c ≠ slash → (c ∉ join slash segments ↔ ∀ seg ∈ segments, c ∉ seg) := by
    intro c other
    constructor
    · intro none seg mem inside
      exact none (mem_join_of_mem mem inside)
    · intro none mem
      rcases mem_join mem with same | ⟨seg, among, inside⟩
      · exact other same
      · exact none seg among inside
  have colons := absent colon (by decide)
  have nulls := absent 0 (by decide)
  unfold isSafeRelativePath
  dsimp only
  rw [if_neg filled, joined_replace kept, if_neg (joined_head kept), joined_split kept,
    depthBelow_proper 0 proper]
  simp only [forall_and, ← colons, ← nulls]
  split
  · rename_i there
    exact iff_of_false Bool.false_ne_true fun both => both.1 there
  split
  · rename_i there
    exact iff_of_false Bool.false_ne_true fun both => both.2 there
  · rename_i first second
    exact iff_of_true (by simpa using depth) ⟨first, second⟩

theorem isSafeRelativePath_clean {path : QString} (h : Clean path) :
    isSafeRelativePath path = true := by
  obtain ⟨segments, more, clean, rfl⟩ := h
  refine (isSafeRelativePath_join_iff more
    (fun seg mem => (clean seg mem).toLegalSegment.kept) fun seg mem => ?_).mpr fun seg mem => ?_
  · rw [(clean seg mem).trimmed]
    exact ⟨(clean seg mem).notDot, (clean seg mem).notDotDot⟩
  · exact ⟨(clean seg mem).toLegalSegment.notMem (by decide),
      (clean seg mem).toLegalSegment.notMem (by decide)⟩

/-- What two passes are to make of a path: a clean path or none, which is stable and safe; and one
pass is to leave the path alone exactly if it is such a path. -/
structure WellSanitized (s : QString) : Prop where
  clean : sanitizePath (sanitizePath s) = [] ∨ Clean (sanitizePath (sanitizePath s))
  stable : sanitizePath (sanitizePath (sanitizePath s)) = sanitizePath (sanitizePath s)
  safe : sanitizePath (sanitizePath s) ≠ [] →
    isSafeRelativePath (sanitizePath (sanitizePath s)) = true
  fixed : sanitizePath s = s ↔ s = [] ∨ Clean s

/-- Two passes do for exactly the paths that are stable. -/
theorem wellSanitized_iff_stable (s : QString) : WellSanitized s ↔ Stable s := by
  have twice : (sanitizePath (sanitizePath s) = [] ∨ Clean (sanitizePath (sanitizePath s))) ↔
      Stable s := by
    rw [sanitizePath_sanitizePath, joined_clean_iff fun seg mem => twice_kept mem,
      twiceSanitized_clean_iff]
  have settled : ∀ path, path = [] ∨ Clean path → sanitizePath path = path := by
    rintro path (rfl | clean)
    · rfl
    · exact sanitizePath_clean clean
  rw [← twice]
  refine ⟨fun well => well.clean, fun clean => ⟨clean, settled _ clean, fun more => ?_, ?_, ?_⟩⟩
  · exact isSafeRelativePath_clean (clean.resolve_left more)
  · intro fixed
    rwa [fixed, fixed] at clean
  · exact settled s

/-- Beside an unpaired surrogate an illegal character stays. -/
theorem wellSanitized_surrogate :
    let s : QString := [0xD800, 0x3C]
    sanitizePath s = s ∧ ¬ Clean s ∧ ¬ ∀ s, WellSanitized s := by
  intro s
  have fixed : sanitizePath s = s := by decide
  have unclean : ¬ Clean s := by
    rintro ⟨segments, -, clean, eq⟩
    have parts := @splitSkipEmpty_join slash _ fun seg mem =>
      ⟨(clean seg mem).nonempty, (clean seg mem).toLegalSegment.notMem (by decide)⟩
    rw [← eq, show splitSkipEmpty slash s = [s] by decide] at parts
    exact (clean s (parts ▸ List.mem_singleton_self s)).toLegalSegment.notMem (c := 0x3C)
      (by decide) (by decide)
  refine ⟨fixed, unclean, fun all => ?_⟩
  rcases (all s).fixed.mp fixed with empty | clean
  · exact List.cons_ne_nil _ _ empty
  · exact unclean clean

/-! What one pass lets through. -/

/-- A segment that becomes dots only as its illegal characters are deleted. -/
def Disguised (seg : QString) : Prop :=
  isValidUtf16 (trimmed seg) = true ∧
    trimmed seg ≠ [] ∧ trimmed seg ≠ [dot] ∧ trimmed seg ≠ [dot, dot] ∧
    trimmed (legalPart seg) ∈ [[dot], [dot, dot]]

instance (seg : QString) : Decidable (Disguised seg) := by
  unfold Disguised
  infer_instance

/-- A segment that keeps a colon or a null character, as it is not valid UTF-16. -/
def Unscreened (seg : QString) : Prop :=
  isValidUtf16 (trimmed seg) = false ∧ (colon ∈ trimmed seg ∨ 0 ∈ trimmed seg)

instance (seg : QString) : Decidable (Unscreened seg) := by
  unfold Unscreened
  infer_instance

/-- An empty path, or a safe one without a segment of dots, trimmed or not. -/
def Secure (path : QString) : Prop :=
  path = [] ∨ isSafeRelativePath path = true ∧
    ∀ seg ∈ path.splitOn slash, seg ∉ [[dot], [dot, dot]] ∧ trimmed seg ∉ [[dot], [dot, dot]]

instance (path : QString) : Decidable (Secure path) := by
  unfold Secure
  infer_instance

private theorem disguised_iff {raw : QString} :
    Disguised raw ↔
      ∃ kept, sanitizeSegment raw = some kept ∧ trimmed kept ∈ [[dot], [dot, dot]] := by
  constructor
  · rintro ⟨valid, nonempty, one, two, dots⟩
    have more : sanitizeSegment raw ≠ none := by
      rw [ne_eq, ← dropped_iff]
      rintro (empty | single | double | ⟨-, none⟩)
      · exact nonempty empty
      · exact one single
      · exact two double
      · have left : legalPart raw = [] := by
          rw [legalPart, List.filter_eq_nil_iff]
          simpa using none
        rw [left] at dots
        revert dots
        decide
    obtain ⟨kept, eq⟩ := Option.ne_none_iff_exists'.mp more
    exact ⟨kept, eq, (sanitizeSegment_legible (.inl valid) eq).1 ▸ dots⟩
  · rintro ⟨kept, eq, dots⟩
    have proper : ¬ Dropped raw := by
      rw [dropped_iff, eq]
      exact Option.some_ne_none _
    have valid : isValidUtf16 (trimmed raw) = true := by
      obtain ⟨-, ⟨valid, -⟩ | ⟨invalid, rfl⟩⟩ := sanitizeSegment_some eq
      · exact valid
      · rw [trimmed_trimmed] at dots
        refine absurd (.inr ?_) (invalid_proper invalid)
        simpa using dots
    rw [(sanitizeSegment_legible (.inl valid) eq).1] at dots
    exact ⟨valid, fun h => proper (.inl h), fun h => proper (.inr (.inl h)),
      fun h => proper (.inr (.inr (.inl h))), dots⟩

private theorem unscreened_iff {raw : QString} :
    Unscreened raw ↔
      ∃ kept, sanitizeSegment raw = some kept ∧ ¬ (colon ∉ kept ∧ 0 ∉ kept) := by
  constructor
  · rintro ⟨invalid, either⟩
    refine ⟨_, sanitizeSegment_invalid invalid, fun neither => ?_⟩
    exact either.elim neither.1 neither.2
  · rintro ⟨kept, eq, either⟩
    obtain ⟨-, ⟨-, legal⟩ | ⟨invalid, rfl⟩⟩ := sanitizeSegment_some eq
    · exact absurd ⟨legal.notMem (by decide), legal.notMem (by decide)⟩ either
    · refine ⟨invalid, ?_⟩
      by_contra neither
      exact either (not_or.mp neither)

/-- One pass gives a secure path exactly if no segment is disguised or unscreened. -/
theorem secure_sanitizePath_iff (s : QString) :
    Secure (sanitizePath s) ↔ ∀ seg ∈ pathSegments s, ¬ Disguised seg ∧ ¬ Unscreened seg := by
  have kept : ∀ seg ∈ (pathSegments s).filterMap sanitizeSegment, KeptSegment seg :=
    fun seg mem => sanitized_kept mem
  have each : (∀ seg ∈ pathSegments s, ¬ Disguised seg ∧ ¬ Unscreened seg) ↔
      ∀ seg ∈ (pathSegments s).filterMap sanitizeSegment,
        trimmed seg ∉ [[dot], [dot, dot]] ∧ (colon ∉ seg ∧ 0 ∉ seg) := by
    constructor
    · intro plain seg mem
      obtain ⟨raw, among, eq⟩ := List.mem_filterMap.mp mem
      obtain ⟨open_, screened⟩ := plain raw among
      refine ⟨fun dots => open_ (disguised_iff.mpr ⟨seg, eq, dots⟩), ?_⟩
      by_contra either
      exact screened (unscreened_iff.mpr ⟨seg, eq, either⟩)
    · intro plain raw among
      constructor
      · rintro disguised
        obtain ⟨seg, eq, dots⟩ := disguised_iff.mp disguised
        exact (plain seg (List.mem_filterMap.mpr ⟨raw, among, eq⟩)).1 dots
      · intro unscreened
        obtain ⟨seg, eq, either⟩ := unscreened_iff.mp unscreened
        exact either (plain seg (List.mem_filterMap.mpr ⟨raw, among, eq⟩)).2
  rw [each, sanitizePath_eq]
  by_cases none : (pathSegments s).filterMap sanitizeSegment = []
  · rw [none]
    exact iff_of_true (.inl rfl) fun seg mem => absurd mem List.not_mem_nil
  have filled : join slash ((pathSegments s).filterMap sanitizeSegment) ≠ [] := by
    intro empty
    have parts := joined_split kept
    rw [empty] at parts
    exact none parts.symm
  have split := List.splitOn_intercalate slash (fun seg mem => (kept seg mem).flat) none
  have untrimmed : ∀ seg : QString, trimmed seg ∉ [[dot], [dot, dot]] →
      seg ∉ [[dot], [dot, dot]] := by
    intro seg proper dots
    simp only [List.mem_cons, List.not_mem_nil, or_false] at dots
    rcases dots with rfl | rfl <;> exact proper (by decide)
  unfold Secure
  rw [or_iff_right filled, show (join slash _).splitOn slash = _ from split]
  constructor
  · rintro ⟨safe, proper⟩ seg mem
    refine ⟨(proper seg mem).2, ?_⟩
    refine (isSafeRelativePath_join_iff none kept fun seg mem => ?_).mp safe seg mem
    simpa using (proper seg mem).2
  · intro plain
    refine ⟨(isSafeRelativePath_join_iff none kept fun seg mem => ?_).mpr
      fun seg mem => (plain seg mem).2, fun seg mem => ⟨untrimmed seg (plain seg mem).1,
        (plain seg mem).1⟩⟩
    simpa using (plain seg mem).1

end FastTransfer.PlatformFilesystem
