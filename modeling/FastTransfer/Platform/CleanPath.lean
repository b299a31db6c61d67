/- FastTransfer/Platform/CleanPath
   source: src/platform/PlatformFilesystem.cpp
   digest: What one pass and what two passes of the path sanitiser leave of a path. -/

import FastTransfer.Platform.PlatformFilesystem
import FastTransfer.Qt.Splitting

set_option autoImplicit false
set_option relaxedAutoImplicit false

namespace FastTransfer

open QString

structure FileName (name : QString) : Prop where
  nonempty : name ≠ []
  flat : slash ∉ name
  notDot : name ≠ [dot]
  notDotDot : name ≠ [dot, dot]

end FastTransfer

namespace FastTransfer.PlatformFilesystem

open QString

/-- The segments that `sanitizePath` looks at, one after the other. -/
def pathSegments (relativePath : QString) : List QString :=
  splitSkipEmpty slash (stripDrive (stripLeading slash (replaceChar relativePath backslash slash)))

structure LegalSegment (seg : QString) : Prop where
  nonempty : seg ≠ []
  legal : ∀ c ∈ seg, isIllegalChar c = false

/-- A segment as one pass leaves it: legal, or trimmed only, where it is not valid UTF-16. -/
structure KeptSegment (seg : QString) : Prop where
  nonempty : seg ≠ []
  flat : slash ∉ seg
  plain : backslash ∉ seg
  legal : (∀ c ∈ seg, isIllegalChar c = false) ∨ isValidUtf16 seg = false ∧ trimmed seg = seg

structure CleanSegment (seg : QString) : Prop extends LegalSegment seg where
  trimmed : trimmed seg = seg
  notDot : seg ≠ [dot]
  notDotDot : seg ≠ [dot, dot]

def Clean (path : QString) : Prop :=
  ∃ segments : List QString, segments ≠ [] ∧ (∀ seg ∈ segments, CleanSegment seg) ∧
    path = join slash segments

/-- A path of names that go down, of whatever characters. -/
def Descends (path : QString) : Prop :=
  ∃ segments : List QString, segments ≠ [] ∧ (∀ seg ∈ segments, FileName seg) ∧
    path = join slash segments

theorem sanitizePath_eq (relativePath : QString) :
    sanitizePath relativePath =
      join slash ((pathSegments relativePath).filterMap sanitizeSegment) := rfl

theorem mem_pathSegments {relativePath seg : QString} (mem : seg ∈ pathSegments relativePath) :
    slash ∉ seg ∧ backslash ∉ seg := by
  obtain ⟨flat, sub⟩ := mem_splitOn (List.mem_of_mem_filter mem)
  refine ⟨flat, fun inside => ?_⟩
  have stripped : ∀ s : QString, ∀ c ∈ stripDrive s, c ∈ s := by
    intro s c inside
    unfold stripDrive at inside
    split at inside
    · exact List.mem_of_mem_drop ((List.dropWhile_sublist _).subset inside)
    · exact inside
  have replaced := (List.dropWhile_sublist _).subset (stripped _ _ (sub _ inside))
  obtain ⟨c, -, eq⟩ := List.mem_map.mp replaced
  split at eq
  · cases eq
  · rename_i other
    exact other eq

theorem LegalSegment.notMem {seg : QString} (h : LegalSegment seg) {c : UInt16}
    (illegal : isIllegalChar c = true) : c ∉ seg := by
  intro mem
  rw [h.legal c mem] at illegal
  cases illegal

theorem LegalSegment.kept {seg : QString} (h : LegalSegment seg) : KeptSegment seg :=
  ⟨h.nonempty, h.notMem (by decide), h.notMem (by decide), .inl h.legal⟩

private theorem filter_legal {seg : QString} (legal : ∀ c ∈ seg, isIllegalChar c = false) :
    (seg.filter fun c => !isIllegalChar c) = seg := by
  rw [List.filter_eq_self]
  intro c mem
  rw [legal c mem]
  rfl

private theorem removeClass_legal {seg : QString} (legal : ∀ c ∈ seg, isIllegalChar c = false) :
    removeClass isIllegalChar seg = seg := by
  unfold removeClass
  split
  · exact filter_legal legal
  · rfl

theorem invalid_proper {seg : QString} (invalid : isValidUtf16 seg = false) :
    ¬ (seg = [] ∨ seg = [dot] ∨ seg = [dot, dot]) := by
  rintro (rfl | rfl | rfl) <;> exact absurd invalid (by decide)

theorem sanitizeSegment_invalid {seg : QString}
    (invalid : isValidUtf16 (trimmed seg) = false) : sanitizeSegment seg = some (trimmed seg) := by
  have proper := invalid_proper invalid
  have untouched : removeClass isIllegalChar (trimmed seg) = trimmed seg := by
    rw [removeClass, invalid, if_neg Bool.false_ne_true]
  unfold sanitizeSegment
  dsimp only
  rw [if_neg proper, untouched, if_neg fun empty => proper (.inl empty)]

/-- What one pass makes of a segment. -/
theorem sanitizeSegment_some {seg kept : QString} (h : sanitizeSegment seg = some kept) :
    kept.Sublist seg ∧ (isValidUtf16 (trimmed seg) = true ∧ LegalSegment kept ∨
      isValidUtf16 (trimmed seg) = false ∧ kept = trimmed seg) := by
  cases valid : isValidUtf16 (trimmed seg) with
  | false =>
      rw [sanitizeSegment_invalid valid] at h
      obtain rfl := Option.some.inj h
      exact ⟨trimmed_sublist seg, .inr ⟨rfl, rfl⟩⟩
  | true =>
      unfold sanitizeSegment at h
      dsimp only at h
      rw [removeClass, if_pos valid] at h
      split at h
      · cases h
      split at h
      · cases h
      · rename_i nonempty
        cases h
        refine ⟨List.filter_sublist.trans (trimmed_sublist seg), .inl ⟨rfl, nonempty, ?_⟩⟩
        intro c mem
        simpa using (List.mem_filter.mp mem).2

private theorem sanitizeSegment_kept {seg kept : QString} (flat : slash ∉ seg)
    (plain : backslash ∉ seg) (h : sanitizeSegment seg = some kept) : KeptSegment kept := by
  obtain ⟨sub, ⟨-, legal⟩ | ⟨invalid, rfl⟩⟩ := sanitizeSegment_some h
  · exact legal.kept
  · exact ⟨fun empty => invalid_proper invalid (.inl empty), fun mem => flat (sub.subset mem),
      fun mem => plain (sub.subset mem), .inr ⟨invalid, trimmed_trimmed seg⟩⟩

theorem sanitized_kept {relativePath seg : QString}
    (mem : seg ∈ (pathSegments relativePath).filterMap sanitizeSegment) : KeptSegment seg := by
  obtain ⟨raw, among, kept⟩ := List.mem_filterMap.mp mem
  obtain ⟨flat, plain⟩ := mem_pathSegments among
  exact sanitizeSegment_kept flat plain kept

/-! How the second pass takes apart what the first has put together. -/

/-- The segments of a joined path, of which a second drive is stripped. -/
def undriven : List QString → List QString
  | [] => []
  | first :: rest =>
      if first[1]? = some colon then
        if first.drop 2 = [] then rest else first.drop 2 :: rest
      else first :: rest

section Joined

variable {segments : List QString}

theorem joined_replace (kept : ∀ seg ∈ segments, KeptSegment seg) :
    replaceChar (join slash segments) backslash slash = join slash segments := by
  apply replaceChar_of_notMem
  intro mem
  rcases mem_join mem with same | ⟨seg, among, inside⟩
  · revert same
    decide
  · exact (kept seg among).plain inside

theorem joined_head (kept : ∀ seg ∈ segments, KeptSegment seg) :
    (join slash segments).head? ≠ some slash := by
  cases segments with
  | nil => exact nofun
  | cons seg rest =>
      have first := kept seg List.mem_cons_self
      have front : seg <+: join slash (seg :: rest) := join_front
      obtain ⟨behind, whole⟩ := front
      rw [← whole]
      intro head
      obtain ⟨c, tail, rfl⟩ := List.exists_cons_of_ne_nil first.nonempty
      cases Option.some.inj head
      exact first.flat List.mem_cons_self

private theorem joined_strip (kept : ∀ seg ∈ segments, KeptSegment seg) :
    stripLeading slash (join slash segments) = join slash segments := by
  have head := joined_head kept
  unfold stripLeading
  rw [List.dropWhile_eq_self_iff]
  intro nonempty same
  apply head
  rw [List.head?_eq_getElem?, List.getElem?_eq_getElem nonempty]
  exact congrArg some (of_decide_eq_true same)

theorem joined_split (kept : ∀ seg ∈ segments, KeptSegment seg) :
    splitSkipEmpty slash (join slash segments) = segments :=
  splitSkipEmpty_join fun seg mem => ⟨(kept seg mem).nonempty, (kept seg mem).flat⟩

private theorem joined_second {first : QString} {rest : List QString} (nonempty : first ≠ []) :
    (join slash (first :: rest))[1]? = some colon ↔ first[1]? = some colon := by
  obtain ⟨c, tail, rfl⟩ := List.exists_cons_of_ne_nil nonempty
  cases rest with
  | nil => rw [join, List.intercalate_singleton]
  | cons next rest =>
      rw [join_cons (List.cons_ne_nil _ _)]
      cases tail with
      | nil =>
          refine iff_of_false (fun same => ?_) (by simp)
          cases Option.some.inj same
      | cons d tail => rfl

/-- What one pass leaves is taken apart by the next into the same segments, but for a drive. -/
theorem pathSegments_join (kept : ∀ seg ∈ segments, KeptSegment seg) :
    pathSegments (join slash segments) = undriven segments := by
  rw [pathSegments, joined_replace kept, joined_strip kept]
  cases segments with
  | nil => rfl
  | cons first rest =>
      have here := kept first List.mem_cons_self
      have later := joined_split fun seg mem => kept seg (List.mem_cons_of_mem first mem)
      have second := @joined_second _ rest here.nonempty
      rw [undriven]
      by_cases drive : first[1]? = some colon
      · have length : 2 ≤ first.length := by
          obtain ⟨inside, -⟩ := List.getElem?_eq_some_iff.mp drive
          exact inside
        have longer : 2 ≤ (join slash (first :: rest)).length :=
          Nat.le_trans length (@join_front slash first rest).length_le
        have flat : slash ∉ first.drop 2 := fun mem => here.flat (List.mem_of_mem_drop mem)
        rw [if_pos drive, stripDrive, if_pos ⟨longer, second.mpr drive⟩,
          splitSkipEmpty_stripLeading]
        by_cases alone : rest = []
        · rw [alone, join, List.intercalate_singleton, splitSkipEmpty_flat flat]
        · rw [join_cons alone, List.drop_append_of_le_length length, splitSkipEmpty_append, later,
            splitSkipEmpty_flat flat]
          split <;> rfl
      · rw [if_neg drive, stripDrive, if_neg fun both => drive (second.mp both.2),
          joined_split kept]

end Joined

/-! The second pass. -/

/-- The second pass of a legal segment only trims, or drops what trims to nothing or to dots. -/
private theorem sanitizeSegment_legal {seg : QString} (h : LegalSegment seg) :
    sanitizeSegment seg =
      if trimmed seg = [] ∨ trimmed seg = [dot] ∨ trimmed seg = [dot, dot] then none
      else some (trimmed seg) := by
  have kept : removeClass isIllegalChar (trimmed seg) = trimmed seg :=
    removeClass_legal fun c mem => h.legal c (mem_trimmed mem)
  unfold sanitizeSegment
  dsimp only
  rw [kept]
  split
  · rfl
  · rename_i proper
    rw [if_neg fun empty => proper (.inl empty)]

private theorem clean_of_legal {seg kept : QString} (h : LegalSegment seg)
    (again : sanitizeSegment seg = some kept) : CleanSegment kept := by
  rw [sanitizeSegment_legal h] at again
  split at again
  · cases again
  · rename_i proper
    cases again
    refine ⟨⟨fun empty => proper (.inl empty), fun c mem => h.legal c (mem_trimmed mem)⟩,
      trimmed_trimmed seg, fun one => proper (.inr (.inl one)), fun two => proper (.inr (.inr two))⟩

private theorem sanitizeSegment_clean {seg : QString} (h : CleanSegment seg) :
    sanitizeSegment seg = some seg := by
  rw [sanitizeSegment_legal h.toLegalSegment, h.trimmed, if_neg]
  rintro (empty | one | two)
  · exact h.nonempty empty
  · exact h.notDot one
  · exact h.notDotDot two

private theorem filterMap_clean {segments : List QString}
    (clean : ∀ seg ∈ segments, CleanSegment seg) :
    segments.filterMap sanitizeSegment = segments := by
  induction segments with
  | nil => rfl
  | cons seg rest ih =>
      rw [List.filterMap_cons_some (sanitizeSegment_clean (clean seg List.mem_cons_self)),
        ih fun other mem => clean other (List.mem_cons_of_mem seg mem)]

private theorem undriven_legal {segments : List QString}
    (legal : ∀ seg ∈ segments, LegalSegment seg) : undriven segments = segments := by
  cases segments with
  | nil => rfl
  | cons first rest =>
      rw [undriven, if_neg]
      intro drive
      exact (legal first List.mem_cons_self).notMem (by decide) (List.mem_of_getElem? drive)

theorem sanitizePath_clean {path : QString} (h : Clean path) : sanitizePath path = path := by
  obtain ⟨segments, -, clean, rfl⟩ := h
  have legal : ∀ seg ∈ segments, LegalSegment seg := fun seg mem => (clean seg mem).toLegalSegment
  rw [sanitizePath_eq, pathSegments_join fun seg mem => (legal seg mem).kept, undriven_legal legal,
    filterMap_clean clean]

/-- The segments that two passes leave. -/
def twiceSanitized (relativePath : QString) : List QString :=
  (undriven ((pathSegments relativePath).filterMap sanitizeSegment)).filterMap sanitizeSegment

theorem sanitizePath_sanitizePath (relativePath : QString) :
    sanitizePath (sanitizePath relativePath) = join slash (twiceSanitized relativePath) := by
  rw [sanitizePath_eq (sanitizePath relativePath), sanitizePath_eq relativePath,
    pathSegments_join fun seg mem => sanitized_kept mem]
  rfl

private theorem undriven_flat {segments : List QString}
    (kept : ∀ seg ∈ segments, KeptSegment seg) :
    ∀ seg ∈ undriven segments, slash ∉ seg ∧ backslash ∉ seg := by
  intro seg mem
  cases segments with
  | nil => cases mem
  | cons first rest =>
      have here := kept first List.mem_cons_self
      have front : seg ∈ rest → slash ∉ seg ∧ backslash ∉ seg := fun later =>
        ⟨(kept seg (.tail _ later)).flat, (kept seg (.tail _ later)).plain⟩
      rw [undriven] at mem
      split at mem
      · split at mem
        · exact front mem
        · rcases List.mem_cons.mp mem with rfl | later
          · exact ⟨fun inside => here.flat (List.mem_of_mem_drop inside),
              fun inside => here.plain (List.mem_of_mem_drop inside)⟩
          · exact front later
      · rcases List.mem_cons.mp mem with rfl | later
        · exact ⟨here.flat, here.plain⟩
        · exact front later

theorem twice_kept {relativePath seg : QString} (mem : seg ∈ twiceSanitized relativePath) :
    KeptSegment seg := by
  obtain ⟨raw, among, kept⟩ := List.mem_filterMap.mp mem
  obtain ⟨flat, plain⟩ := undriven_flat (fun seg mem => sanitized_kept mem) raw among
  exact sanitizeSegment_kept flat plain kept

/-- A segment of which nothing is kept: blanks, dots, or illegal characters only. -/
def Dropped (seg : QString) : Prop :=
  trimmed seg = [] ∨ trimmed seg = [dot] ∨ trimmed seg = [dot, dot] ∨
    isValidUtf16 (trimmed seg) = true ∧ ∀ c ∈ trimmed seg, isIllegalChar c = true

instance (seg : QString) : Decidable (Dropped seg) :=
  -- along the segment, as otherwise every character there is would be tried
  have : Decidable (∀ c ∈ trimmed seg, isIllegalChar c = true) := List.decidableBAll _ _
  inferInstanceAs (Decidable (_ ∨ _ ∨ _ ∨ _ ∧ _))

/-- A segment whose illegal characters are found, if it has some. -/
def Legible (seg : QString) : Prop :=
  isValidUtf16 (trimmed seg) = true ∨ ∀ c ∈ trimmed seg, isIllegalChar c = false

instance (seg : QString) : Decidable (Legible seg) :=
  have : Decidable (∀ c ∈ trimmed seg, isIllegalChar c = false) := List.decidableBAll _ _
  inferInstanceAs (Decidable (_ ∨ _))

/-- The legal characters of a segment, between its blanks. -/
def legalPart (seg : QString) : QString := (trimmed seg).filter fun c => !isIllegalChar c

/-- A segment that is done with after one pass. -/
def Settled (seg : QString) : Prop :=
  Dropped seg ∨ Legible seg ∧ trimmed (legalPart seg) = legalPart seg ∧
    legalPart seg ≠ [dot] ∧ legalPart seg ≠ [dot, dot]

instance (seg : QString) : Decidable (Settled seg) := by
  unfold Settled
  infer_instance

theorem dropped_iff (seg : QString) : Dropped seg ↔ sanitizeSegment seg = none := by
  cases valid : isValidUtf16 (trimmed seg) with
  | false =>
      rw [sanitizeSegment_invalid valid]
      refine iff_of_false ?_ (Option.some_ne_none _)
      rintro (empty | one | two | ⟨found, -⟩)
      · exact invalid_proper valid (.inl empty)
      · exact invalid_proper valid (.inr (.inl one))
      · exact invalid_proper valid (.inr (.inr two))
      · cases valid.symm.trans found
  | true =>
      have nothing : removeClass isIllegalChar (trimmed seg) = [] ↔
          ∀ c ∈ trimmed seg, isIllegalChar c = true := by
        rw [removeClass, if_pos valid, List.filter_eq_nil_iff]
        simp
      unfold sanitizeSegment Dropped
      dsimp only
      rw [← nothing]
      split
      · rename_i dots
        refine iff_of_true (dots.elim .inl fun more => ?_) rfl
        exact .inr (more.elim .inl fun two => .inr (.inl two))
      · rename_i proper
        simp only [not_or] at proper
        split
        · rename_i empty
          exact iff_of_true (.inr (.inr (.inr ⟨valid, empty⟩))) rfl
        · rename_i more
          refine iff_of_false ?_ (Option.some_ne_none _)
          rintro (empty | one | two | ⟨-, none⟩)
          · exact proper.1 empty
          · exact proper.2.1 one
          · exact proper.2.2 two
          · exact more none

theorem sanitizeSegment_legible {seg kept : QString} (legible : Legible seg)
    (h : sanitizeSegment seg = some kept) : kept = legalPart seg ∧ LegalSegment kept := by
  obtain ⟨-, ⟨valid, legal⟩ | ⟨invalid, rfl⟩⟩ := sanitizeSegment_some h
  · refine ⟨?_, legal⟩
    unfold sanitizeSegment at h
    dsimp only at h
    rw [removeClass, if_pos valid] at h
    split at h
    · cases h
    split at h
    · cases h
    · exact (Option.some.inj h).symm
  · have legal := legible.resolve_left (by rw [invalid]; decide)
    exact ⟨(filter_legal legal).symm, fun empty => invalid_proper invalid (.inl empty), legal⟩

private theorem settled_iff (seg : QString) :
    Settled seg ↔ ∀ kept, sanitizeSegment seg = some kept → CleanSegment kept := by
  unfold Settled
  rw [dropped_iff]
  constructor
  · rintro (none | ⟨legible, stays, one, two⟩) kept h
    · cases none.symm.trans h
    · obtain ⟨rfl, legal⟩ := sanitizeSegment_legible legible h
      exact ⟨legal, stays, one, two⟩
  · intro all
    cases found : sanitizeSegment seg with
    | none => exact .inl rfl
    | some kept =>
        have clean := all kept found
        have legible : Legible seg := by
          obtain ⟨-, ⟨valid, -⟩ | ⟨-, rfl⟩⟩ := sanitizeSegment_some found
          · exact .inl valid
          · exact .inr clean.legal
        obtain ⟨rfl, -⟩ := sanitizeSegment_legible legible found
        exact .inr ⟨legible, clean.trimmed, clean.notDot, clean.notDotDot⟩

private theorem legible_iff {raw kept : QString} (h : sanitizeSegment raw = some kept) :
    Legible raw ↔ ∀ again, sanitizeSegment kept = some again → CleanSegment again := by
  constructor
  · intro legible again h'
    exact clean_of_legal (sanitizeSegment_legible legible h).2 h'
  · intro all
    obtain ⟨-, ⟨valid, -⟩ | ⟨invalid, rfl⟩⟩ := sanitizeSegment_some h
    · exact .inl valid
    · have same : sanitizeSegment (trimmed raw) = some (trimmed raw) := by
        rw [sanitizeSegment_invalid (by rw [trimmed_trimmed]; exact invalid), trimmed_trimmed]
      exact .inr (all _ same).legal

def keptSegments (relativePath : QString) : List QString :=
  (pathSegments relativePath).filter fun seg => ¬ Dropped seg

/-- A path of which two passes leave nothing but clean segments: beside an unpaired surrogate it
has no illegal character, but for a second drive, behind which one pass is enough. -/
def Stable (relativePath : QString) : Prop :=
  match keptSegments relativePath with
  | [] => True
  | first :: rest =>
      (∀ seg ∈ rest, Legible seg) ∧
        (Legible first ∨ (trimmed first)[1]? = some colon ∧ Settled ((trimmed first).drop 2))

instance (relativePath : QString) : Decidable (Stable relativePath) := by
  unfold Stable
  split <;> infer_instance

/-- A path whose second drive hides dots: in front of its colon stands an unpaired surrogate. -/
def Smuggles (relativePath : QString) : Prop :=
  ∃ first ∈ (keptSegments relativePath).head?, isValidUtf16 (trimmed first) = false ∧
    (trimmed first)[1]? = some colon ∧ ¬ Dropped ((trimmed first).drop 2) ∧
    isValidUtf16 (trimmed ((trimmed first).drop 2)) = true ∧
    (legalPart ((trimmed first).drop 2) = [dot] ∨ legalPart ((trimmed first).drop 2) = [dot, dot])

instance (relativePath : QString) : Decidable (Smuggles relativePath) := by
  unfold Smuggles
  infer_instance

/-- What one pass keeps of the first segment, as the next sees it. -/
private def behindDrive (kept : QString) : QString :=
  if kept[1]? = some colon then kept.drop 2 else kept

private theorem twiceSanitized_cases (s : QString) :
    keptSegments s = [] ∧ twiceSanitized s = [] ∨
      ∃ first rest kept, keptSegments s = first :: rest ∧ sanitizeSegment first = some kept ∧
        (pathSegments s).filterMap sanitizeSegment = kept :: rest.filterMap sanitizeSegment ∧
        twiceSanitized s = (sanitizeSegment (behindDrive kept)).toList ++
          (rest.filterMap sanitizeSegment).filterMap sanitizeSegment := by
  have once : (pathSegments s).filterMap sanitizeSegment =
      (keptSegments s).filterMap sanitizeSegment := by
    rw [keptSegments, List.filterMap_filter]
    refine List.filterMap_congr fun seg _ => ?_
    by_cases dropped : Dropped seg
    · rw [(dropped_iff seg).mp dropped]
      simp [dropped]
    · simp [dropped]
  rw [twiceSanitized, once]
  cases found : keptSegments s with
  | nil => exact .inl ⟨rfl, rfl⟩
  | cons first rest =>
      have there : first ∈ keptSegments s := found ▸ List.mem_cons_self
      have kept : sanitizeSegment first ≠ none := fun none =>
        (of_decide_eq_true (List.mem_filter.mp there).2) ((dropped_iff first).mpr none)
      obtain ⟨kept, eq⟩ := Option.ne_none_iff_exists'.mp kept
      refine .inr ⟨first, rest, kept, rfl, eq, List.filterMap_cons_some eq, ?_⟩
      rw [List.filterMap_cons_some eq, undriven, behindDrive]
      split
      · split
        · rename_i empty
          rw [empty]
          rfl
        · rw [List.filterMap_cons]
          split <;> simp_all
      · rw [List.filterMap_cons]
        split <;> simp_all

private theorem behindDrive_eq {first kept : QString} (h : sanitizeSegment first = some kept) :
    behindDrive kept = kept ∧
        ¬ (isValidUtf16 (trimmed first) = false ∧ (trimmed first)[1]? = some colon) ∨
      isValidUtf16 (trimmed first) = false ∧ (trimmed first)[1]? = some colon ∧
        kept = trimmed first ∧ behindDrive kept = (trimmed first).drop 2 := by
  obtain ⟨-, ⟨valid, legal⟩ | ⟨invalid, rfl⟩⟩ := sanitizeSegment_some h
  · refine .inl ⟨if_neg fun drive => legal.notMem (by decide) (List.mem_of_getElem? drive), ?_⟩
    rintro ⟨invalid, -⟩
    cases valid.symm.trans invalid
  · by_cases drive : (trimmed first)[1]? = some colon
    · exact .inr ⟨invalid, drive, rfl, if_pos drive⟩
    · exact .inl ⟨if_neg drive, fun both => drive both.2⟩

private theorem illegible_of_colon {seg : QString} (invalid : isValidUtf16 (trimmed seg) = false)
    (second : (trimmed seg)[1]? = some colon) : ¬ Legible seg := by
  rintro (valid | legal)
  · cases invalid.symm.trans valid
  · cases legal _ (List.mem_of_getElem? second)

theorem twiceSanitized_clean_iff (s : QString) :
    (∀ seg ∈ twiceSanitized s, CleanSegment seg) ↔ Stable s := by
  unfold Stable
  rcases twiceSanitized_cases s with ⟨none, eq⟩ | ⟨first, rest, kept, some, found, -, eq⟩
  · rw [none, eq]
    exact iff_of_true (fun seg mem => absurd mem List.not_mem_nil) trivial
  have among : ∀ seg ∈ keptSegments s, ∃ kept, sanitizeSegment seg = Option.some kept := by
    intro seg mem
    refine Option.ne_none_iff_exists'.mp fun none => ?_
    exact (of_decide_eq_true (List.mem_filter.mp mem).2) ((dropped_iff seg).mpr none)
  have front : (∀ again, sanitizeSegment (behindDrive kept) = Option.some again →
        CleanSegment again) ↔
      (Legible first ∨ (trimmed first)[1]? = Option.some colon ∧
        Settled ((trimmed first).drop 2)) := by
    rcases behindDrive_eq found with ⟨same, undriven⟩ | ⟨invalid, drive, -, behind⟩
    · rw [same, ← legible_iff found]
      refine ⟨.inl, ?_⟩
      rintro (legible | ⟨drive, -⟩)
      · exact legible
      · exact .inl (Bool.of_not_eq_false fun invalid => undriven ⟨invalid, drive⟩)
    · rw [behind, ← settled_iff]
      refine ⟨fun settled => .inr ⟨drive, settled⟩, fun either => ?_⟩
      exact (either.resolve_left (illegible_of_colon invalid drive)).2
  have later : (∀ seg ∈ (rest.filterMap sanitizeSegment).filterMap sanitizeSegment,
      CleanSegment seg) ↔ ∀ seg ∈ rest, Legible seg := by
    constructor
    · intro clean raw mem
      obtain ⟨kept, one⟩ := among raw (some ▸ List.mem_cons_of_mem first mem)
      refine (legible_iff one).mpr fun again two => clean again ?_
      exact List.mem_filterMap.mpr ⟨kept, List.mem_filterMap.mpr ⟨raw, mem, one⟩, two⟩
    · intro legible again mem
      obtain ⟨kept, mem, two⟩ := List.mem_filterMap.mp mem
      obtain ⟨raw, mem, one⟩ := List.mem_filterMap.mp mem
      exact (legible_iff one).mp (legible raw mem) again two
  rw [some, eq]
  simp only [List.forall_mem_append, later, Option.mem_toList, ← front]
  exact and_comm

private theorem again_proper {raw kept last : QString} (one : sanitizeSegment raw = some kept)
    (two : sanitizeSegment kept = some last) : last ≠ [dot] ∧ last ≠ [dot, dot] := by
  obtain ⟨-, ⟨-, legal⟩ | ⟨invalid, rfl⟩⟩ := sanitizeSegment_some one
  · have clean := clean_of_legal legal two
    exact ⟨clean.notDot, clean.notDotDot⟩
  · rw [← trimmed_trimmed] at invalid
    rw [sanitizeSegment_invalid invalid, trimmed_trimmed] at two
    rw [← Option.some.inj two]
    rw [trimmed_trimmed] at invalid
    exact ⟨fun one => invalid_proper invalid (.inr (.inl one)),
      fun two => invalid_proper invalid (.inr (.inr two))⟩

theorem twiceSanitized_tail {s first : QString} {rest : List QString}
    (eq : twiceSanitized s = first :: rest) : ∀ seg ∈ rest, FileName seg := by
  intro seg mem
  have among : seg ∈ twiceSanitized s := eq ▸ List.mem_cons_of_mem first mem
  rcases twiceSanitized_cases s with ⟨-, none⟩ | ⟨raw, others, kept, -, -, -, whole⟩
  · cases none.symm.trans eq
  have later : seg ∈ (others.filterMap sanitizeSegment).filterMap sanitizeSegment := by
    have same := whole.symm.trans eq
    cases two : sanitizeSegment (behindDrive kept) with
    | none =>
        rw [two, Option.toList_none, List.nil_append] at same
        exact same ▸ List.mem_cons_of_mem first mem
    | some last =>
        rw [two] at same
        have rest' : (others.filterMap sanitizeSegment).filterMap sanitizeSegment = rest :=
          (List.cons.inj same).2
        rwa [rest']
  obtain ⟨kept, mem', two⟩ := List.mem_filterMap.mp later
  obtain ⟨raw, -, one⟩ := List.mem_filterMap.mp mem'
  obtain ⟨notDot, notDotDot⟩ := again_proper one two
  exact ⟨(twice_kept among).nonempty, (twice_kept among).flat, notDot, notDotDot⟩

theorem smuggles_iff (s : QString) :
    Smuggles s ↔ ∃ dots ∈ [[dot], [dot, dot]], ∃ rest, twiceSanitized s = dots :: rest := by
  rcases twiceSanitized_cases s with ⟨none, eq⟩ | ⟨first, rest, kept, some, found, -, eq⟩
  · refine iff_of_false ?_ ?_
    · rintro ⟨first, mem, -⟩
      rw [none] at mem
      cases mem
    · rintro ⟨dots, -, rest, more⟩
      cases eq.symm.trans more
  have front : (∃ dots ∈ [[dot], [dot, dot]], ∃ rest, twiceSanitized s = dots :: rest) ↔
      ∃ last, sanitizeSegment (behindDrive kept) = Option.some last ∧
        (last = [dot] ∨ last = [dot, dot]) := by
    rw [eq]
    constructor
    · rintro ⟨dots, mem, others, same⟩
      simp only [List.mem_cons, List.not_mem_nil, or_false] at mem
      cases two : sanitizeSegment (behindDrive kept) with
      | some last =>
          rw [two] at same
          exact ⟨last, rfl, (List.cons.inj same).1 ▸ mem⟩
      | none =>
          rw [two, Option.toList_none, List.nil_append] at same
          have inside : dots ∈ (rest.filterMap sanitizeSegment).filterMap sanitizeSegment :=
            same ▸ List.mem_cons_self
          obtain ⟨kept, mem', two⟩ := List.mem_filterMap.mp inside
          obtain ⟨raw, -, one⟩ := List.mem_filterMap.mp mem'
          obtain ⟨notDot, notDotDot⟩ := again_proper one two
          exact absurd mem (not_or.mpr ⟨notDot, notDotDot⟩)
    · rintro ⟨last, two, dots⟩
      exact ⟨last, by simpa using dots, _, by rw [two]; rfl⟩
  rw [front]
  unfold Smuggles
  simp only [some, List.head?_cons, Option.mem_some_iff, exists_eq_left']
  rcases behindDrive_eq found with ⟨same, undriven⟩ | ⟨invalid, drive, -, behind⟩
  · rw [same]
    refine iff_of_false (fun h => undriven ⟨h.1, h.2.1⟩) ?_
    rintro ⟨last, two, one | both⟩
    · exact (again_proper found two).1 one
    · exact (again_proper found two).2 both
  · rw [behind, dropped_iff]
    constructor
    · rintro ⟨-, -, more, valid, dots⟩
      obtain ⟨last, eq⟩ := Option.ne_none_iff_exists'.mp more
      exact ⟨last, eq, (sanitizeSegment_legible (.inl valid) eq).1 ▸ dots⟩
    · rintro ⟨last, eq, dots⟩
      have valid : isValidUtf16 (trimmed ((trimmed first).drop 2)) = true := by
        obtain ⟨-, ⟨valid, -⟩ | ⟨invalid, rfl⟩⟩ := sanitizeSegment_some eq
        · exact valid
        · exact absurd (.inr dots) (invalid_proper invalid)
      refine ⟨invalid, drive, by rw [eq]; exact Option.some_ne_none _, valid, ?_⟩
      rw [← (sanitizeSegment_legible (.inl valid) eq).1]
      exact dots

/-- Two passes leave names, unless dots are smuggled in. -/
theorem twiceSanitized_names_iff (s : QString) :
    (∀ seg ∈ twiceSanitized s, FileName seg) ↔ ¬ Smuggles s := by
  rw [smuggles_iff]
  constructor
  · rintro names ⟨dots, mem, rest, eq⟩
    have name := names dots (eq ▸ List.mem_cons_self)
    simp only [List.mem_cons, List.not_mem_nil, or_false] at mem
    exact mem.elim name.notDot name.notDotDot
  · intro plain seg mem
    obtain ⟨first, rest, eq⟩ := List.exists_cons_of_ne_nil (List.ne_nil_of_mem mem)
    rcases List.mem_cons.mp (eq ▸ mem) with rfl | later
    · refine ⟨(twice_kept mem).nonempty, (twice_kept mem).flat, fun one => plain ?_,
        fun two => plain ?_⟩
      · exact ⟨seg, by simp [one], rest, eq⟩
      · exact ⟨seg, by simp [two], rest, eq⟩
    · exact twiceSanitized_tail eq seg later

section Joined

variable {segments : List QString}

private theorem joined_eq {others : List QString} (kept : ∀ seg ∈ segments, KeptSegment seg)
    (names : ∀ seg ∈ others, seg ≠ [] ∧ slash ∉ seg)
    (same : join slash segments = join slash others) : segments = others := by
  rw [← joined_split kept, same, splitSkipEmpty_join names]

theorem joined_clean_iff (kept : ∀ seg ∈ segments, KeptSegment seg) :
    (join slash segments = [] ∨ Clean (join slash segments)) ↔
      ∀ seg ∈ segments, CleanSegment seg := by
  constructor
  · rintro (empty | ⟨others, -, clean, same⟩)
    · have none := @joined_eq _ [] kept (fun seg mem => absurd mem List.not_mem_nil) empty
      rw [none]
      exact fun seg mem => absurd mem List.not_mem_nil
    · have eq := joined_eq kept (fun seg mem => ⟨(clean seg mem).nonempty,
        (clean seg mem).toLegalSegment.notMem (by decide)⟩) same
      rw [eq]
      exact clean
  · intro clean
    by_cases none : segments = []
    · rw [none]
      exact .inl rfl
    · exact .inr ⟨segments, none, clean, rfl⟩

private theorem joined_descends_iff (kept : ∀ seg ∈ segments, KeptSegment seg) :
    (join slash segments = [] ∨ Descends (join slash segments)) ↔
      ∀ seg ∈ segments, FileName seg := by
  constructor
  · rintro (empty | ⟨others, -, names, same⟩)
    · have none := @joined_eq _ [] kept (fun seg mem => absurd mem List.not_mem_nil) empty
      rw [none]
      exact fun seg mem => absurd mem List.not_mem_nil
    · have eq := joined_eq kept
        (fun seg mem => ⟨(names seg mem).nonempty, (names seg mem).flat⟩) same
      rw [eq]
      exact names
  · intro names
    by_cases none : segments = []
    · rw [none]
      exact .inl rfl
    · exact .inr ⟨segments, none, names, rfl⟩

end Joined

theorem descends_sanitizePath_twice_iff (s : QString) :
    (sanitizePath (sanitizePath s) = [] ∨ Descends (sanitizePath (sanitizePath s))) ↔
      ¬ Smuggles s := by
  rw [sanitizePath_sanitizePath, joined_descends_iff fun seg mem => twice_kept mem,
    twiceSanitized_names_iff]

theorem sanitizePath_smuggled {s : QString} (smuggles : Smuggles s) :
    ∃ dots ∈ [[dot], [dot, dot]], ∃ rest, (∀ seg ∈ rest, FileName seg) ∧
      sanitizePath (sanitizePath s) = join slash (dots :: rest) := by
  obtain ⟨dots, mem, rest, eq⟩ := (smuggles_iff s).mp smuggles
  exact ⟨dots, mem, rest, twiceSanitized_tail eq, by rw [sanitizePath_sanitizePath, eq]⟩

theorem sanitizePath_relative (s : QString) : (sanitizePath s).head? ≠ some slash :=
  joined_head fun _ mem => sanitized_kept mem

theorem descends_of_fixed {path : QString} (fixed : sanitizePath path = path) (more : path ≠ []) :
    Descends path := by
  have twice := sanitizePath_sanitizePath path
  rw [fixed, fixed] at twice
  have same : (pathSegments path).filterMap sanitizeSegment = twiceSanitized path := by
    refine joined_eq (fun seg mem => sanitized_kept mem)
      (fun seg mem => ⟨(twice_kept mem).nonempty, (twice_kept mem).flat⟩) ?_
    rw [← sanitizePath_eq, fixed]
    exact twice
  have plain : ¬ Smuggles path := by
    rintro ⟨first, mem, invalid, drive, -⟩
    rcases twiceSanitized_cases path with ⟨none, -⟩ | ⟨first', rest, kept, some, found, once, eq⟩
    · rw [none] at mem
      cases mem
    rw [some, List.head?_cons, Option.mem_some_iff] at mem
    subst mem
    rcases behindDrive_eq found with ⟨-, undriven⟩ | ⟨-, -, rfl, behind⟩
    · exact undriven ⟨invalid, drive⟩
    rw [once, eq, behind] at same
    -- a drive that is stripped makes the path shorter
    cases last : sanitizeSegment ((trimmed first').drop 2) with
    | none =>
        have lengths := congrArg List.length same
        have shorter := List.length_filterMap_le sanitizeSegment (rest.filterMap sanitizeSegment)
        simp only [last, Option.toList_none, List.nil_append, List.length_cons] at lengths
        omega
    | some again =>
        rw [last] at same
        obtain ⟨rfl, -⟩ := List.cons.inj same
        have shorter := (sanitizeSegment_some last).1.length_le
        obtain ⟨inside, -⟩ := List.getElem?_eq_some_iff.mp drive
        rw [List.length_drop] at shorter
        omega
  have descends := (descends_sanitizePath_twice_iff path).mpr plain
  rw [fixed, fixed] at descends
  exact descends.resolve_left more

end FastTransfer.PlatformFilesystem
