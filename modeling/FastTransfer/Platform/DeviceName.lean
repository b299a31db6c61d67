/- FastTransfer/Platform/DeviceName
   source: src/platform/PlatformFilesystem.cpp
   digest: Which device names are sanitised to one component of a path. -/

import FastTransfer.Filesystem.Disk
import FastTransfer.Platform.CleanPath

set_option autoImplicit false
set_option relaxedAutoImplicit false

namespace FastTransfer.PlatformFilesystem

open QString

/-- The class of the regular expression of `sanitizeDeviceName`, where `\s` is ASCII only. -/
def isReplaced (c : UInt16) : Bool := isIllegalChar c || c == 0x20

/-- What becomes a dash in a name; nothing does in one that is not valid UTF-16. -/
def becomesDash (rawName : QString) (c : UInt16) : Bool :=
  isValidUtf16 (trimmed rawName) && isReplaced c

/-- What becomes a dash, or is one. -/
def isFiller (rawName : QString) (c : UInt16) : Bool := becomesDash rawName c || c == dash

/-- The trimmed name without the fillers at its ends. -/
def stem (rawName : QString) : QString :=
  ((trimmed rawName).dropWhile (isFiller rawName)).rdropWhile (isFiller rawName)

section Runs

variable {p : UInt16 → Bool}

private theorem collapseRuns_append (inRun : Bool) (s : QString) (c : UInt16) :
    ∃ t : QString, collapseRuns p inRun (s ++ [c]) = collapseRuns p inRun s ++ t ∧
      (p c = true → t = [] ∨ t = [dash]) ∧ (p c = false → t = [c]) := by
  induction s generalizing inRun with
  | nil =>
      cases run : p c <;> cases inRun <;> simp [collapseRuns, run]
  | cons a s ih =>
      rw [List.cons_append, collapseRuns, collapseRuns]
      cases run : p a with
      | false =>
          obtain ⟨t, eq, skipped, kept⟩ := ih false
          exact ⟨t, by simp [eq], skipped, kept⟩
      | true =>
          obtain ⟨t, eq, skipped, kept⟩ := ih true
          refine ⟨t, ?_, skipped, kept⟩
          cases inRun <;> simp [eq]

section Strip

variable {filler : UInt16 → Bool} (fills : ∀ c, filler c = (p c || c == dash))
include fills

private theorem stripLeading_collapseRuns (inRun : Bool) (s : QString) :
    stripLeading dash (collapseRuns p inRun s) = collapseRuns p false (s.dropWhile filler) := by
  unfold stripLeading
  induction s generalizing inRun with
  | nil => rfl
  | cons a s ih =>
      have here := fills a
      rw [collapseRuns]
      cases run : p a with
      | true =>
          rw [run, Bool.true_or] at here
          rw [if_pos rfl, List.dropWhile_cons_of_pos here]
          split
          · exact ih true
          · rw [List.dropWhile_cons_of_pos (by simp)]
            exact ih true
      | false =>
          rw [run, Bool.false_or] at here
          rw [if_neg Bool.false_ne_true]
          by_cases same : a = dash
          · rw [List.dropWhile_cons_of_pos (by simpa using same),
              List.dropWhile_cons_of_pos (by simpa [here] using same)]
            exact ih false
          · rw [List.dropWhile_cons_of_neg (by simpa using same),
              List.dropWhile_cons_of_neg (by simpa [here] using same), collapseRuns, run,
              if_neg Bool.false_ne_true]

private theorem stripTrailing_collapseRuns (inRun : Bool) (s : QString) :
    stripTrailing dash (collapseRuns p inRun s) =
      collapseRuns p inRun (s.rdropWhile filler) := by
  show (collapseRuns p inRun s).rdropWhile (· = dash) = _
  induction s using List.reverseRecOn with
  | nil => rfl
  | append_singleton s c ih =>
      have here := fills c
      obtain ⟨t, eq, skipped, kept⟩ := collapseRuns_append (p := p) inRun s c
      rw [eq]
      cases run : p c with
      | true =>
          rw [run, Bool.true_or] at here
          rw [List.rdropWhile_concat_pos _ _ _ here]
          rcases skipped run with rfl | rfl
          · rw [List.append_nil]
            exact ih
          · rw [List.rdropWhile_concat_pos _ _ _ (by simp)]
            exact ih
      | false =>
          rw [run, Bool.false_or] at here
          rw [kept run]
          by_cases same : c = dash
          · rw [List.rdropWhile_concat_pos _ _ _ (by simpa using same),
              List.rdropWhile_concat_pos _ _ _ (by simpa [here] using same)]
            exact ih
          · rw [List.rdropWhile_concat_neg _ _ _ (by simpa using same),
              List.rdropWhile_concat_neg _ _ _ (by simpa [here] using same), eq, kept run]

end Strip

theorem mem_collapseRuns {inRun : Bool} {s : QString} {c : UInt16}
    (mem : c ∈ collapseRuns p inRun s) : c = dash ∨ c ∈ s ∧ p c = false := by
  induction s generalizing inRun with
  | nil => cases mem
  | cons a s ih =>
      have later : ∀ {inRun}, c ∈ collapseRuns p inRun s → c = dash ∨ c ∈ a :: s ∧ p c = false := by
        intro inRun mem
        rcases ih mem with same | ⟨inside, legal⟩
        · exact .inl same
        · exact .inr ⟨List.mem_cons_of_mem a inside, legal⟩
      rw [collapseRuns] at mem
      cases run : p a with
      | true =>
          rw [if_pos run] at mem
          split at mem
          · exact later mem
          · rcases List.mem_cons.mp mem with same | behind
            · exact .inl same
            · exact later behind
      | false =>
          rw [if_neg (by rw [run]; decide)] at mem
          rcases List.mem_cons.mp mem with rfl | behind
          · exact .inr ⟨List.mem_cons_self, run⟩
          · exact later behind

theorem collapseRuns_self {inRun : Bool} {s : QString} (plain : ∀ c ∈ s, p c = false) :
    collapseRuns p inRun s = s := by
  induction s generalizing inRun with
  | nil => rfl
  | cons a s ih =>
      rw [collapseRuns, plain a List.mem_cons_self, if_neg Bool.false_ne_true,
        ih fun c mem => plain c (List.mem_cons_of_mem a mem)]

private theorem collapseRuns_plain {s : QString} (plain : dash ∉ collapseRuns p false s) :
    collapseRuns p false s = s := by
  induction s with
  | nil => rfl
  | cons a s ih =>
      rw [collapseRuns] at plain ⊢
      cases run : p a with
      | true =>
          rw [if_pos run, if_neg Bool.false_ne_true] at plain
          exact absurd List.mem_cons_self plain
      | false =>
          rw [run, if_neg Bool.false_ne_true] at plain
          rw [if_neg Bool.false_ne_true, ih fun mem => plain (List.mem_cons_of_mem a mem)]

end Runs

private theorem collapseRuns_empty {p : UInt16 → Bool} {s : QString} :
    collapseRuns p false s = [] ↔ s = [] := by
  constructor
  · intro none
    have same := collapseRuns_plain (p := p) (s := s) (by simp [none])
    exact same.symm.trans none
  · rintro rfl
    rfl

theorem sanitizeDeviceName_eq (rawName : QString) :
    sanitizeDeviceName rawName =
      if stem rawName = [] then literal "Unknown-Device"
      else collapseRuns (becomesDash rawName) false (stem rawName) := by
  have runs : replaceRuns isReplaced (trimmed rawName) =
      collapseRuns (becomesDash rawName) false (trimmed rawName) := by
    unfold replaceRuns becomesDash
    cases isValidUtf16 (trimmed rawName) with
    | true => rfl
    | false => exact (collapseRuns_self fun c mem => rfl).symm
  have strip : stripTrailing dash (stripLeading dash
      (replaceRuns isReplaced (trimmed rawName))) =
        collapseRuns (becomesDash rawName) false (stem rawName) := by
    have fills : ∀ c, isFiller rawName c = (becomesDash rawName c || c == dash) := fun c => rfl
    rw [runs, stripLeading_collapseRuns fills, stripTrailing_collapseRuns fills, stem]
  show (if stripTrailing dash (stripLeading dash (replaceRuns isReplaced (trimmed rawName))) = []
    then literal "Unknown-Device"
    else stripTrailing dash (stripLeading dash (replaceRuns isReplaced (trimmed rawName)))) = _
  rw [strip]
  simp only [collapseRuns_empty]

theorem stem_ends {rawName : QString} (nonempty : stem rawName ≠ []) :
    isFiller rawName ((stem rawName).head nonempty) = false ∧
      isFiller rawName ((stem rawName).getLast nonempty) = false := by
  constructor
  · obtain ⟨rest, whole⟩ : stem rawName <+: (trimmed rawName).dropWhile (isFiller rawName) :=
      List.rdropWhile_prefix _ _
    have more : (trimmed rawName).dropWhile (isFiller rawName) ≠ [] := by
      rw [← whole]
      exact List.append_ne_nil_of_left_ne_nil nonempty rest
    have head := List.head_dropWhile_not (isFiller rawName) more
    have same : ((trimmed rawName).dropWhile (isFiller rawName)).head more =
        (stem rawName).head nonempty := by
      simp only [← whole]
      exact List.head_append_left nonempty
    rwa [same] at head
  · have last := List.rdropWhile_last_not (isFiller rawName)
      ((trimmed rawName).dropWhile (isFiller rawName)) nonempty
    exact Bool.eq_false_iff.mpr last

structure Undashed (name : QString) : Prop where
  first : name.head? ≠ some dash
  last : name.getLast? ≠ some dash

private theorem collapseRuns_ends {p : UInt16 → Bool} {name : QString} (nonempty : name ≠ [])
    (first : p (name.head nonempty) = false) (last : p (name.getLast nonempty) = false) :
    (collapseRuns p false name).head? = some (name.head nonempty) ∧
      (collapseRuns p false name).getLast? = some (name.getLast nonempty) := by
  constructor
  · obtain ⟨a, rest, rfl⟩ := List.exists_cons_of_ne_nil nonempty
    have here : p a = false := first
    rw [collapseRuns, here, if_neg Bool.false_ne_true]
    rfl
  · obtain ⟨t, eq, -, kept⟩ := collapseRuns_append (p := p) false name.dropLast
      (name.getLast nonempty)
    rw [List.dropLast_append_getLast, kept last] at eq
    rw [eq, List.getLast?_concat]

theorem sanitizeDeviceName_ends {rawName : QString} (nonempty : stem rawName ≠ []) :
    (sanitizeDeviceName rawName).head? = (stem rawName).head? ∧
      (sanitizeDeviceName rawName).getLast? = (stem rawName).getLast? := by
  obtain ⟨first, last⟩ := stem_ends nonempty
  rw [sanitizeDeviceName_eq, if_neg nonempty, List.head?_eq_some_head nonempty,
    List.getLast?_eq_getLast_of_ne_nil nonempty]
  exact collapseRuns_ends nonempty (Bool.or_eq_false_iff.mp first).1
    (Bool.or_eq_false_iff.mp last).1

/-- A sanitised name is not empty, does not start or end with a dash, and has nothing left in it
that was to be replaced. -/
theorem sanitizeDeviceName_legal (rawName : QString) :
    sanitizeDeviceName rawName ≠ [] ∧ Undashed (sanitizeDeviceName rawName) ∧
      ∀ c ∈ sanitizeDeviceName rawName, becomesDash rawName c = false := by
  by_cases nonempty : stem rawName = []
  · rw [sanitizeDeviceName_eq, if_pos nonempty]
    have plain : (literal "Unknown-Device").all (fun c => !isReplaced c) = true := by decide
    refine ⟨by decide, ⟨by decide, by decide⟩, ?_⟩
    intro c mem
    have kept : isReplaced c = false := by simpa using List.all_eq_true.mp plain c mem
    rw [becomesDash, kept, Bool.and_false]
  · obtain ⟨first, last⟩ := stem_ends nonempty
    obtain ⟨head, final⟩ := sanitizeDeviceName_ends nonempty
    rw [List.head?_eq_some_head nonempty] at head
    rw [List.getLast?_eq_getLast_of_ne_nil nonempty] at final
    have other : ∀ {c}, isFiller rawName c = false → c ≠ dash := by
      rintro c proper rfl
      exact absurd (Bool.or_eq_false_iff.mp proper).2 (by decide)
    refine ⟨fun empty => ?_, ⟨fun same => ?_, fun same => ?_⟩, ?_⟩
    · rw [empty] at head
      cases head
    · rw [head] at same
      exact other first (Option.some.inj same)
    · rw [final] at same
      exact other last (Option.some.inj same)
    · intro c mem
      rw [sanitizeDeviceName_eq, if_neg nonempty] at mem
      rcases mem_collapseRuns mem with rfl | ⟨-, legal⟩
      · rw [becomesDash, show isReplaced dash = false by decide, Bool.and_false]
      · exact legal

/-- In valid UTF-16 the characters of a sanitised name are legal. -/
theorem sanitizeDeviceName_valid {rawName : QString}
    (valid : isValidUtf16 (trimmed rawName) = true) {c : UInt16}
    (mem : c ∈ sanitizeDeviceName rawName) : isReplaced c = false := by
  have legal := (sanitizeDeviceName_legal rawName).2.2 c mem
  rwa [becomesDash, valid, Bool.true_and] at legal

/-- A legal name, or one that is not valid UTF-16, is left as it is if it neither starts nor ends
with a blank or a dash. -/
theorem sanitizeDeviceName_self {name : QString} (nonempty : name ≠ [])
    (legal : isValidUtf16 name = true → ∀ c ∈ name, isReplaced c = false)
    (undashed : Undashed name) (starts : ∀ c, name.head? = some c → isSpace c = false)
    (ends : ∀ c, name.getLast? = some c → isSpace c = false) : sanitizeDeviceName name = name := by
  have front : ∀ p : UInt16 → Bool, (∀ c, name.head? = some c → p c = false) →
      name.dropWhile p = name := by
    intro p stops
    obtain ⟨a, rest, rfl⟩ := List.exists_cons_of_ne_nil nonempty
    apply List.dropWhile_cons_of_neg
    rw [stops a rfl]
    decide
  have back : ∀ p : UInt16 → Bool, (∀ c, name.getLast? = some c → p c = false) →
      name.rdropWhile p = name := by
    intro p stops
    rw [List.rdropWhile_eq_self_iff]
    intro _ drops
    rw [stops _ (List.getLast?_eq_getLast_of_ne_nil nonempty)] at drops
    cases drops
  have untrimmed : trimmed name = name := by
    show (name.dropWhile isSpace).rdropWhile isSpace = name
    rw [front isSpace starts, back isSpace ends]
  have kept : ∀ c ∈ name, becomesDash name c = false := by
    intro c mem
    rw [becomesDash, untrimmed]
    cases valid : isValidUtf16 name with
    | true => rw [legal valid c mem, Bool.and_false]
    | false => rfl
  have proper : ∀ c ∈ name, c ≠ dash → isFiller name c = false := by
    intro c mem other
    rw [isFiller, kept c mem, Bool.false_or, beq_eq_false_iff_ne]
    exact other
  have whole : stem name = name := by
    rw [stem, untrimmed, front (isFiller name), back (isFiller name)]
    · intro c final
      refine proper c (List.mem_of_getLast? final) ?_
      rintro rfl
      exact undashed.last final
    · intro c head
      refine proper c (List.mem_of_head? head) ?_
      rintro rfl
      exact undashed.first head
  rw [sanitizeDeviceName_eq, whole, if_neg nonempty, collapseRuns_self kept]

private theorem collapseRuns_length (p : UInt16 → Bool) (inRun : Bool) (s : QString) :
    (collapseRuns p inRun s).length ≤ s.length := by
  induction s generalizing inRun with
  | nil => exact Nat.le_refl _
  | cons a s ih =>
      rw [collapseRuns]
      split
      · split
        · exact Nat.le_succ_of_le (ih true)
        · exact Nat.succ_le_succ (ih true)
      · exact Nat.succ_le_succ (ih false)

theorem sanitizeDeviceName_ne_self {name : QString} {c : UInt16} (starts : name.head? = some c)
    (blank : isSpace c = true) : sanitizeDeviceName name ≠ name := by
  obtain ⟨rest, rfl⟩ := List.head?_eq_some_iff.mp starts
  rw [sanitizeDeviceName_eq]
  split
  · intro same
    cases same
    cases blank
  · intro same
    have stemmed : (stem (c :: rest)).length ≤ (trimmed (c :: rest)).length :=
      Nat.le_trans (List.rdropWhile_prefix _ _).length_le (List.dropWhile_sublist _).length_le
    have shorter : (trimmed (c :: rest)).length ≤ rest.length := by
      show (((c :: rest).dropWhile isSpace).rdropWhile isSpace).length ≤ rest.length
      rw [List.dropWhile_cons_of_pos blank]
      exact Nat.le_trans (List.rdropWhile_prefix isSpace _).length_le
        (List.dropWhile_sublist isSpace).length_le
    have collapsed := collapseRuns_length (becomesDash (c :: rest)) false (stem (c :: rest))
    rw [same, List.length_cons] at collapsed
    omega

/-! A name that is not valid UTF-16 remains so. -/

def isPlain (c : UInt16) : Prop := isHighSurrogate c = false ∧ isLowSurrogate c = false

private theorem pairsUp_plain {c : UInt16} (plain : isPlain c) (high : Bool) (s : QString) :
    pairsUp high (c :: s) = (!high && pairsUp false s) := by
  obtain ⟨notHigh, notLow⟩ := plain
  cases high with
  | true => simp [pairsUp, notLow]
  | false => simp [pairsUp, notHigh, notLow]

private theorem pairsUp_separated {c : UInt16} (plain : isPlain c) (high : Bool)
    (front behind : QString) :
    pairsUp high (front ++ c :: behind) = (pairsUp high front && pairsUp false behind) := by
  induction front generalizing high with
  | nil =>
      rw [List.nil_append, pairsUp_plain plain]
      rfl
  | cons a front ih =>
      cases high with
      | true => rw [List.cons_append, pairsUp, pairsUp, ih, Bool.and_assoc]
      | false =>
          rw [List.cons_append, pairsUp, pairsUp]
          split
          · exact ih true
          · rw [ih, Bool.and_assoc]

private theorem pairsUp_front {front s : QString} (plain : ∀ c ∈ front, isPlain c) :
    pairsUp false (front ++ s) = pairsUp false s := by
  induction front with
  | nil => rfl
  | cons c front ih =>
      rw [List.cons_append, pairsUp_plain (plain c List.mem_cons_self), Bool.not_false,
        Bool.true_and, ih fun c mem => plain c (List.mem_cons_of_mem _ mem)]

private theorem pairsUp_behind {behind : QString} (plain : ∀ c ∈ behind, isPlain c) (s : QString) :
    pairsUp false (s ++ behind) = pairsUp false s := by
  cases behind with
  | nil => rw [List.append_nil]
  | cons c rest =>
      have more := @pairsUp_front rest []
        fun c mem => plain c (List.mem_cons_of_mem _ mem)
      rw [List.append_nil] at more
      rw [pairsUp_separated (plain c List.mem_cons_self), more]
      exact Bool.and_true _

/-- A stem that is not valid stays so with plain characters behind it. -/
theorem stem_invalid {rawName behind : QString}
    (invalid : isValidUtf16 (trimmed rawName) = false) (plain : ∀ c ∈ behind, isPlain c) :
    isValidUtf16 (stem rawName ++ behind) = false := by
  have dashes : ∀ c, isFiller rawName c = true → isPlain c := by
    intro c filler
    rw [isFiller, becomesDash, invalid, Bool.false_and, Bool.false_or, beq_iff_eq] at filler
    rw [filler]
    exact ⟨by decide, by decide⟩
  have whole : trimmed rawName = (trimmed rawName).takeWhile (isFiller rawName) ++
      (stem rawName ++
        ((trimmed rawName).dropWhile (isFiller rawName)).rtakeWhile (isFiller rawName)) := by
    rw [stem, List.rdropWhile_append_rtakeWhile, List.takeWhile_append_dropWhile]
  rw [isValidUtf16, whole, pairsUp_front fun c mem => dashes c (List.mem_takeWhile_imp mem),
    pairsUp_behind fun c mem => dashes c (List.mem_rtakeWhile_imp mem)] at invalid
  rw [isValidUtf16, pairsUp_behind plain, invalid]

theorem sanitizeDeviceName_invalid {rawName : QString}
    (invalid : isValidUtf16 (trimmed rawName) = false) :
    sanitizeDeviceName rawName = stem rawName := by
  have nonempty : stem rawName ≠ [] := by
    intro empty
    have none := @stem_invalid _ [] invalid fun c mem => absurd mem List.not_mem_nil
    rw [empty] at none
    cases none
  have kept : ∀ c ∈ stem rawName, becomesDash rawName c = false := by
    intro c mem
    rw [becomesDash, invalid, Bool.false_and]
  rw [sanitizeDeviceName_eq, if_neg nonempty, collapseRuns_self kept]

theorem sanitizeDeviceName_visible (rawName : QString) :
    ∃ c ∈ sanitizeDeviceName rawName, c ≠ slash := by
  by_contra none
  have slashes : ∀ c ∈ sanitizeDeviceName rawName, c = slash := by
    intro c mem
    by_contra other
    exact none ⟨c, mem, other⟩
  cases valid : isValidUtf16 (trimmed rawName) with
  | true =>
      obtain ⟨c, rest, eq⟩ := List.exists_cons_of_ne_nil (sanitizeDeviceName_legal rawName).1
      have mem : c ∈ sanitizeDeviceName rawName := eq ▸ List.mem_cons_self
      have legal := sanitizeDeviceName_valid valid mem
      rw [slashes c mem] at legal
      revert legal
      decide
  | false =>
      have plain := @pairsUp_front (sanitizeDeviceName rawName) [] fun c mem => by
        rw [slashes c mem]
        exact ⟨by decide, by decide⟩
      have invalid := @stem_invalid _ [] valid fun c mem => absurd mem List.not_mem_nil
      rw [← sanitizeDeviceName_invalid valid, isValidUtf16, plain] at invalid
      cases invalid

/-- A name that is safe as that of a directory: joined to a base it is one more component. -/
structure DirectoryName (name : QString) : Prop where
  nonempty : name ≠ []
  legal : ∀ c ∈ name, isIllegalChar c = false ∧ ¬ (c = 0x20 ∨ 0x09 ≤ c ∧ c ≤ 0x0D)
  starts : name.head? ≠ some dash
  ends : name.getLast? ≠ some dash
  notDot : name ≠ [dot]
  notDotDot : name ≠ [dot, dot]
  child : ∀ base, splitSkipEmpty slash (filePath base name) = splitSkipEmpty slash base ++ [name]

theorem splitSkipEmpty_stripTrailing (s : QString) :
    splitSkipEmpty slash (stripTrailing slash s) = splitSkipEmpty slash s := by
  show splitSkipEmpty slash (s.rdropWhile (· = slash)) = _
  induction s using List.reverseRecOn with
  | nil => rfl
  | append_singleton s c ih =>
      by_cases same : c = slash
      · rw [List.rdropWhile_concat_pos _ _ _ (by simpa using same), ih, same,
          splitSkipEmpty_append, splitSkipEmpty_flat (s := []) List.not_mem_nil, if_pos rfl,
          List.append_nil]
      · rw [List.rdropWhile_concat_neg _ _ _ (by simpa using same)]

theorem splitSkipEmpty_filePath {name : QString} (nonempty : name ≠ []) (flat : slash ∉ name)
    (base : QString) :
    splitSkipEmpty slash (filePath base name) = splitSkipEmpty slash base ++ [name] := by
  have alone : splitSkipEmpty slash name = [name] := by
    rw [splitSkipEmpty_flat flat, if_neg nonempty]
  unfold filePath
  rw [if_neg fun head => flat (List.mem_of_head? head), if_neg nonempty]
  split
  · rename_i empty
    rw [empty, alone]
    rfl
  · rw [splitSkipEmpty_append, splitSkipEmpty_stripTrailing, alone]

private theorem kept_iff {c : UInt16} :
    isReplaced c = false ↔
      isIllegalChar c = false ∧ ¬ (c = 0x20 ∨ 0x09 ≤ c ∧ c ≤ 0x0D) := by
  constructor
  · intro kept
    obtain ⟨legal, blank⟩ := Bool.or_eq_false_iff.mp kept
    refine ⟨legal, ?_⟩
    rintro (rfl | ⟨-, high⟩)
    · cases blank
    · have control : c < 0x20 := UInt16.lt_of_le_of_lt high (by decide)
      simp [isIllegalChar, control] at legal
  · rintro ⟨legal, notBlank⟩
    rw [isReplaced, legal, Bool.false_or, beq_eq_false_iff_ne]
    exact fun space => notBlank (.inl space)

private theorem sanitizeDeviceName_plain {rawName : QString}
    (plain : dash ∉ sanitizeDeviceName rawName) : sanitizeDeviceName rawName = stem rawName := by
  have eq := sanitizeDeviceName_eq rawName
  by_cases none : stem rawName = []
  · rw [eq, if_pos none] at plain
    exact absurd (by decide) plain
  · rw [eq, if_neg none] at plain ⊢
    exact collapseRuns_plain plain

private theorem mem_stem {rawName : QString} (invalid : isValidUtf16 (trimmed rawName) = false)
    {c : UInt16} (mem : c ∈ trimmed rawName) : c ∈ stem rawName ∨ c = dash := by
  have dashes : isFiller rawName c = true → c = dash := by
    intro filler
    rwa [isFiller, becomesDash, invalid, Bool.false_and, Bool.false_or, beq_iff_eq] at filler
  rw [← List.takeWhile_append_dropWhile (p := isFiller rawName) (l := trimmed rawName)] at mem
  rcases List.mem_append.mp mem with front | rest
  · exact .inr (dashes (List.mem_takeWhile_imp front))
  rw [← List.rdropWhile_append_rtakeWhile (p := isFiller rawName)
    (l := (trimmed rawName).dropWhile (isFiller rawName))] at rest
  rcases List.mem_append.mp rest with inside | behind
  · exact .inl inside
  · exact .inr (dashes (List.mem_rtakeWhile_imp behind))

private theorem sanitizeDeviceName_dots {rawName : QString}
    (dots : stem rawName ∈ [[dot], [dot, dot]]) : sanitizeDeviceName rawName = stem rawName := by
  have some : stem rawName ≠ [] := by
    intro empty
    rw [empty] at dots
    revert dots
    decide
  rw [sanitizeDeviceName_eq, if_neg some]
  apply collapseRuns_self
  intro c inside
  have isDot : c = dot := by
    simp only [List.mem_cons, List.not_mem_nil, or_false] at dots
    rcases dots with one | two
    · simpa [one] using inside
    · simpa [two] using inside
  rw [becomesDash, isDot, show isReplaced dot = false by decide, Bool.and_false]

/-- Nothing that is to be replaced is left of a name where it is found, or was not there. -/
private theorem sanitizeDeviceName_clean {rawName : QString}
    (either : isValidUtf16 (trimmed rawName) = true ∨ ∀ c ∈ trimmed rawName, isReplaced c = false)
    {c : UInt16} (mem : c ∈ sanitizeDeviceName rawName) : isReplaced c = false := by
  cases valid : isValidUtf16 (trimmed rawName) with
  | true => exact sanitizeDeviceName_valid valid mem
  | false =>
      have legal := either.resolve_left (by rw [valid]; exact Bool.false_ne_true)
      rw [sanitizeDeviceName_invalid valid] at mem
      exact legal c ((List.dropWhile_sublist _).subset ((List.rdropWhile_prefix _ _).subset mem))

/-- A sanitised name is safe as that of a directory unless the name trimmed and freed of the
fillers at its ends is the folder itself or the folder above, or the name has characters to be
replaced and is not valid UTF-16. -/
theorem directoryName_iff (rawName : QString) :
    DirectoryName (sanitizeDeviceName rawName) ↔
      stem rawName ∉ [[dot], [dot, dot]] ∧
        (isValidUtf16 (trimmed rawName) = true ∨ ∀ c ∈ trimmed rawName, isReplaced c = false) := by
  obtain ⟨nonempty, undashed, -⟩ := sanitizeDeviceName_legal rawName
  constructor
  · intro proper
    constructor
    · intro dots
      rw [← sanitizeDeviceName_dots dots] at dots
      simp only [List.mem_cons, List.not_mem_nil, or_false] at dots
      exact dots.elim proper.notDot proper.notDotDot
    · cases valid : isValidUtf16 (trimmed rawName) with
      | true => exact .inl rfl
      | false =>
          refine .inr fun c mem => ?_
          rcases mem_stem valid mem with inside | rfl
          · rw [← sanitizeDeviceName_invalid valid] at inside
            exact kept_iff.mpr (proper.legal c inside)
          · decide
  · rintro ⟨proper, either⟩
    have legal : ∀ c ∈ sanitizeDeviceName rawName, isReplaced c = false :=
      fun c mem => sanitizeDeviceName_clean either mem
    have dots : ∀ name ∈ [[dot], [dot, dot]], sanitizeDeviceName rawName ≠ name := by
      intro name mem same
      have plain : dash ∉ sanitizeDeviceName rawName := by
        rw [same]
        simp only [List.mem_cons, List.not_mem_nil, or_false] at mem
        rcases mem with rfl | rfl <;> decide
      rw [sanitizeDeviceName_plain plain] at same
      exact proper (same ▸ mem)
    have absent : slash ∉ sanitizeDeviceName rawName := by
      intro mem
      exact absurd (legal slash mem) (by decide)
    exact {
      nonempty := nonempty
      legal := fun c mem => kept_iff.mp (legal c mem)
      starts := undashed.first
      ends := undashed.last
      notDot := dots [dot] (by decide)
      notDotDot := dots [dot, dot] (by decide)
      child := splitSkipEmpty_filePath nonempty absent }

/-- A device may call itself the folder above. -/
theorem directoryName_dots : ¬ DirectoryName (sanitizeDeviceName (literal " -.. ")) := by
  intro proper
  exact proper.notDotDot (by decide)

end FastTransfer.PlatformFilesystem
