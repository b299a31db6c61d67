/- FastTransfer/Library/Lease
   source: none, a general library
   digest: A table of values that expire unless they are heard again, and the notices of it. -/

import Mathlib.Data.List.Induction
import Mathlib.Data.Set.Insert
import Mathlib.Order.Defs.LinearOrder

set_option autoImplicit false
set_option relaxedAutoImplicit false

namespace Lease

variable {κ ν τ : Type*}

/-- The value under each key. -/
abbrev Table (κ ν : Type*) := κ → Option ν

/-- Drop what was heard before the limit. -/
def expire [LinearOrder τ] (time : ν → τ) (table : Table κ ν) (limit : τ) : Table κ ν :=
  fun k => (table k).filter fun v => limit ≤ time v

def keys (table : Table κ ν) : Set κ := {k | table k ≠ none}

inductive Notice (κ : Type*)
  | found (k : κ)
  | lost (k : κ)

/-- Replay notices on a set of keys. A key found is new and a key lost is known. -/
inductive Replays : Set κ → List (Notice κ) → Set κ → Prop
  | nil {s : Set κ} : Replays s [] s
  | found {s t : Set κ} {k : κ} {notices : List (Notice κ)} :
      k ∉ s → Replays (insert k s) notices t → Replays s (.found k :: notices) t
  | lost {s t : Set κ} {k : κ} {notices : List (Notice κ)} :
      k ∈ s → Replays (s \ {k}) notices t → Replays s (.lost k :: notices) t

section Notices

variable {s t u : Set κ} {first second : List (Notice κ)}

theorem Replays.append (h : Replays s first t) (h' : Replays t second u) :
    Replays s (first ++ second) u := by
  induction h with
  | nil => exact h'
  | found new _ ih => exact .found new (ih h')
  | lost known _ ih => exact .lost known (ih h')

theorem Replays.losses {ks : List κ} (distinct : ks.Nodup) (known : ∀ k ∈ ks, k ∈ s) :
    Replays s (ks.map .lost) {k ∈ s | k ∉ ks} := by
  induction ks generalizing s with
  | nil =>
      simp only [List.map_nil, List.not_mem_nil, not_false_eq_true, and_true, Set.ofPred_mem_eq]
      exact .nil
  | cons k ks ih =>
      rw [List.nodup_cons] at distinct
      apply Replays.lost (known k List.mem_cons_self)
      have rest : Replays (s \ {k}) (ks.map .lost) {l ∈ s \ {k} | l ∉ ks} := by
        apply ih distinct.2
        intro l mem
        refine ⟨known l (List.mem_cons_of_mem k mem), ?_⟩
        rintro rfl
        exact distinct.1 mem
      have same : {l ∈ s \ {k} | l ∉ ks} = {l ∈ s | l ∉ k :: ks} := by
        ext l
        simp [and_assoc]
      rwa [same] at rest

end Notices

theorem replays_expire [LinearOrder τ] {time : ν → τ} {limit : τ} {table : Table κ ν}
    {ks : List κ} (distinct : ks.Nodup)
    (mem : ∀ k, k ∈ ks ↔ ∃ v, table k = some v ∧ time v < limit) :
    Replays (keys table) (ks.map .lost) (keys (expire time table limit)) := by
  have known : ∀ k ∈ ks, k ∈ keys table := by
    intro k among
    obtain ⟨v, eq, -⟩ := (mem k).mp among
    simp [keys, eq]
  have same : {k ∈ keys table | k ∉ ks} = keys (expire time table limit) := by
    ext k
    cases eq : table k with
    | none => simp [keys, expire, eq]
    | some v => simp [keys, expire, eq, mem, Option.filter]
  rw [← same]
  exact .losses distinct known

section Put

variable [DecidableEq κ]

def put (key : ν → κ) (table : Table κ ν) (v : ν) : Table κ ν :=
  fun k => if key v = k then some v else table k

variable {key : ν → κ} {table : Table κ ν}

theorem replays_put_new {v : ν} (new : table (key v) = none) :
    Replays (keys table) [.found (key v)] (keys (put key table v)) := by
  have same : insert (key v) (keys table) = keys (put key table v) := by
    ext k
    by_cases own : key v = k
    · simp [keys, put, own]
    · simp [keys, put, own, Ne.symm own]
  rw [← same]
  apply Replays.found
  · simp [keys, new]
  · exact .nil

theorem keys_put_known {v : ν} (known : table (key v) ≠ none) :
    keys (put key table v) = keys table := by
  ext k
  by_cases own : key v = k
  · subst own
    simp [keys, put, known]
  · simp [keys, put, own]

end Put

variable [DecidableEq κ] [LinearOrder τ]

/-- The value heard last under a key. -/
def latest (key : ν → κ) (heard : List ν) (k : κ) : Option ν :=
  (heard.filter fun v => key v = k).getLast?

/-- Under each key the table has the value heard last, or none and that value is out of date. -/
def Tracks (key : ν → κ) (time : ν → τ) (heard : List ν) (limit : τ) (table : Table κ ν) : Prop :=
  ∀ k, table k = latest key heard k ∨
    table k = none ∧ ∃ v, latest key heard k = some v ∧ time v < limit

section Values

variable {key : ν → κ} {time : ν → τ} {heard : List ν} {limit later : τ} {table : Table κ ν}

theorem latest_snoc (v : ν) (k : κ) :
    latest key (heard ++ [v]) k = if key v = k then some v else latest key heard k := by
  unfold latest
  by_cases same : key v = k
  · simp [List.filter_append, same]
  · simp [List.filter_append, same]

theorem mem_of_latest {k : κ} {v : ν} (h : latest key heard k = some v) :
    v ∈ heard ∧ key v = k := by
  have mem := List.mem_of_getLast? h
  simpa using mem

theorem Tracks.nil : Tracks key time [] limit fun _ => none := by
  intro k
  left
  simp [latest]

theorem Tracks.mono (h : Tracks key time heard limit table) (le : limit ≤ later) :
    Tracks key time heard later table := by
  intro k
  rcases h k with same | ⟨none, v, last, old⟩
  · exact .inl same
  · exact .inr ⟨none, v, last, lt_of_lt_of_le old le⟩

theorem Tracks.put (h : Tracks key time heard limit table) (v : ν) :
    Tracks key time (heard ++ [v]) limit (put key table v) := by
  intro k
  rw [latest_snoc, Lease.put]
  by_cases same : key v = k
  · simp [same]
  · simpa [same] using h k

/-- After the sweep the table has the values heard last that are not out of date. -/
theorem Tracks.expire_eq (h : Tracks key time heard limit table) (k : κ) :
    expire time table limit k = (latest key heard k).filter fun v => limit ≤ time v := by
  unfold expire
  rcases h k with same | ⟨none, v, last, old⟩
  · rw [same]
  · simp [none, last, Option.filter, not_le.mpr old]

theorem Tracks.expire (h : Tracks key time heard limit table) :
    Tracks key time heard limit (expire time table limit) := by
  intro k
  rw [h.expire_eq k]
  cases last : latest key heard k with
  | none => simp
  | some v =>
      by_cases fresh : limit ≤ time v
      · simp [Option.filter, fresh]
      · simp [Option.filter, fresh, not_le.mp fresh]

theorem Tracks.expire_iff (h : Tracks key time heard limit table) {k : κ} {v : ν} :
    Lease.expire time table limit k = some v ↔
      latest key heard k = some v ∧ limit ≤ time v := by
  rw [h.expire_eq k, Option.filter_eq_some_iff]
  simp

/-- The last entry of a log that reports a value under the key reports this one. -/
def LastReport {ρ : Type*} (reports : ρ → ν → Prop) (key : ν → κ) (log : List ρ) (k : κ) (v : ν) :
    Prop :=
  ∃ front entry back, log = front ++ entry :: back ∧ reports entry v ∧ key v = k ∧
    ∀ later ∈ back, ∀ w, reports later w → key w ≠ k

omit [DecidableEq κ] in
theorem lastReport_snoc {ρ : Type*} {reports : ρ → ν → Prop} {log : List ρ} {entry : ρ} {k : κ}
    {v : ν} :
    LastReport reports key (log ++ [entry]) k v ↔
      reports entry v ∧ key v = k ∨
        (∀ w, reports entry w → key w ≠ k) ∧ LastReport reports key log k v := by
  constructor
  · rintro ⟨front, last, back, eq, reported, own, others⟩
    rcases List.eq_nil_or_concat back with rfl | ⟨back, final, rfl⟩
    · obtain ⟨-, same⟩ := List.append_inj' eq rfl
      obtain rfl := List.singleton_inj.mp same
      exact .inl ⟨reported, own⟩
    · rw [List.concat_eq_append, ← List.cons_append, ← List.append_assoc] at eq
      obtain ⟨rfl, same⟩ := List.append_inj' eq rfl
      obtain rfl := List.singleton_inj.mp same
      refine .inr ⟨fun w => others entry (by simp) w, front, last, back, rfl, reported, own, ?_⟩
      exact fun later mem => others later (by simp [mem])
  · rintro (⟨reported, own⟩ | ⟨silent, front, last, back, rfl, reported, own, others⟩)
    · exact ⟨log, entry, [], rfl, reported, own, fun _ mem => absurd mem List.not_mem_nil⟩
    · refine ⟨front, last, back ++ [entry], by simp, reported, own, fun later mem => ?_⟩
      rcases List.mem_append.mp mem with before | final
      · exact others later before
      · rw [List.mem_singleton.mp final]
        exact silent

theorem latest_filterMap {ρ : Type*} {reports : ρ → ν → Prop} {report : ρ → Option ν}
    {log : List ρ} (eq : ∀ entry ∈ log, ∀ v, report entry = some v ↔ reports entry v) {k : κ}
    {v : ν} : latest key (log.filterMap report) k = some v ↔ LastReport reports key log k v := by
  induction log using List.reverseRecOn with
  | nil =>
      refine iff_of_false (by simp [latest]) ?_
      rintro ⟨front, entry, back, none, -⟩
      simp at none
  | append_singleton log entry ih =>
      have here := eq entry (List.mem_append_right _ (List.mem_singleton_self entry))
      have before := ih fun earlier mem => eq earlier (List.mem_append_left _ mem)
      rw [lastReport_snoc, ← before, ← here v, List.filterMap_append]
      cases told : report entry with
      | none =>
          have silent : ∀ w, ¬ reports entry w := by
            intro w reported
            cases told.symm.trans ((here w).mpr reported)
          simp [told, silent]
      | some w =>
          have single : [entry].filterMap report = [w] := by simp [told]
          have only : ∀ u, reports entry u ↔ w = u := by
            intro u
            rw [← here u, told, Option.some.injEq]
          rw [single, latest_snoc]
          by_cases own : key w = k
          · simp only [own, if_true, Option.some.injEq, only, forall_eq', ne_eq, not_true_eq_false,
              false_and, or_false]
            exact ⟨fun same => ⟨same, same ▸ own⟩, fun both => both.1⟩
          · simp only [own, if_false, Option.some.injEq, only, forall_eq', ne_eq, not_false_eq_true,
              true_and]
            refine ⟨.inr, ?_⟩
            rintro (⟨rfl, same⟩ | last)
            · exact absurd same own
            · exact last

end Values

end Lease
