/- FastTransfer/Network/PathSafety
   source: src/network/Protocol.cpp, src/platform/PlatformFilesystem.cpp
   digest: Which relative paths get past the two parsers that sanitise them. -/

import FastTransfer.Network.RoundTrip
import FastTransfer.Platform.PathScreen

set_option autoImplicit false
set_option relaxedAutoImplicit false

namespace FastTransfer.Protocol

open QDataStream
open PlatformFilesystem
open QString (literal)

/-! The paths as they are on the wire. -/

def readFileStartPath (data : QByteArray) : Option QString := do
  let (_, data) ← readString data
  let (_, data) ← readU64 data
  let (relPath, _) ← readString data
  some relPath

def readItemPath (data : QByteArray) : Option (QString × QByteArray) := do
  let (_, data) ← readU64 data
  let (relPath, data) ← readString data
  let (_, data) ← readU64 data
  let (_, data) ← readU64 data
  let (_, data) ← readString data
  some (relPath, data)

def readItemPaths : Nat → QByteArray → Option (List QString)
  | 0, _ => some []
  | n + 1, data => do
      let (relPath, data) ← readItemPath data
      let paths ← readItemPaths n data
      some (relPath :: paths)

def readOfferPaths (data : QByteArray) : Option (List QString) := do
  let (_, data) ← readString data
  let (_, data) ← readString data
  let (_, data) ← readU64 data
  let (_, data) ← readU64 data
  let (itemCount, data) ← readU64 data
  readItemPaths itemCount.toNat data

private theorem checkedPath_some {relPath safe : QString} (h : checkedPath relPath = some safe) :
    safe = sanitizePath relPath := by
  unfold checkedPath at h
  dsimp only at h
  split at h
  · cases h
  · exact (Option.some.inj h).symm

/-- The path of a message is that on the wire, sanitised once. -/
theorem parseFileStart_path {data : QByteArray} {msg : MsgFileStart}
    (h : parseFileStart data = some msg) :
    ∃ raw, readFileStartPath data = some raw ∧ msg.relativePath = sanitizePath raw := by
  obtain ⟨id, first, h⟩ := Option.bind_eq_some_iff.mp h
  obtain ⟨index, second, h⟩ := Option.bind_eq_some_iff.mp h
  obtain ⟨raw, third, h⟩ := Option.bind_eq_some_iff.mp h
  obtain ⟨size, -, h⟩ := Option.bind_eq_some_iff.mp h
  obtain ⟨time, -, h⟩ := Option.bind_eq_some_iff.mp h
  obtain ⟨sum, -, h⟩ := Option.bind_eq_some_iff.mp h
  obtain ⟨safe, checked, h⟩ := Option.bind_eq_some_iff.mp h
  cases h
  refine ⟨raw.1, ?_, checkedPath_some checked⟩
  simp only [readFileStartPath, first, second, third, Option.bind_eq_bind, Option.bind_some]

private theorem readItem_path {data rest : QByteArray} {item : ManifestItem}
    (h : readItem data = some (item, rest)) :
    ∃ raw, readItemPath data = some (raw, rest) ∧ item.relativePath = sanitizePath raw := by
  obtain ⟨index, first, h⟩ := Option.bind_eq_some_iff.mp h
  obtain ⟨raw, second, h⟩ := Option.bind_eq_some_iff.mp h
  obtain ⟨size, third, h⟩ := Option.bind_eq_some_iff.mp h
  obtain ⟨time, fourth, h⟩ := Option.bind_eq_some_iff.mp h
  obtain ⟨sum, fifth, h⟩ := Option.bind_eq_some_iff.mp h
  obtain ⟨safe, checked, h⟩ := Option.bind_eq_some_iff.mp h
  cases h
  refine ⟨raw.1, ?_, checkedPath_some checked⟩
  simp only [readItemPath, first, second, third, fourth, fifth, Option.bind_eq_bind,
    Option.bind_some]

private theorem readItems_paths {n : Nat} {data : QByteArray} {items : List ManifestItem}
    (h : readItems n data = some items) :
    ∃ raws, readItemPaths n data = some raws ∧
      items.map ManifestItem.relativePath = raws.map sanitizePath := by
  induction n generalizing data items with
  | zero =>
      cases h
      exact ⟨[], rfl, rfl⟩
  | succ n ih =>
      obtain ⟨⟨item, rest⟩, first, h⟩ := Option.bind_eq_some_iff.mp h
      obtain ⟨others, later, h⟩ := Option.bind_eq_some_iff.mp h
      cases h
      obtain ⟨raw, read, path⟩ := readItem_path first
      obtain ⟨raws, reads, paths⟩ := ih later
      refine ⟨raw :: raws, ?_, ?_⟩
      · simp only [readItemPaths, read, reads, Option.bind_eq_bind, Option.bind_some]
      · rw [List.map_cons, List.map_cons, path, paths]

theorem parseTransferOffer_paths {data : QByteArray} {msg : MsgTransferOffer}
    (h : parseTransferOffer data = some msg) :
    ∃ raws, readOfferPaths data = some raws ∧
      msg.items.map ManifestItem.relativePath = raws.map sanitizePath := by
  unfold parseTransferOffer at h
  split at h
  · cases h
  obtain ⟨id, first, h⟩ := Option.bind_eq_some_iff.mp h
  obtain ⟨device, second, h⟩ := Option.bind_eq_some_iff.mp h
  obtain ⟨files, third, h⟩ := Option.bind_eq_some_iff.mp h
  obtain ⟨bytes, fourth, h⟩ := Option.bind_eq_some_iff.mp h
  obtain ⟨count, fifth, h⟩ := Option.bind_eq_some_iff.mp h
  dsimp only at h
  split at h
  · cases h
  obtain ⟨items, read, h⟩ := Option.bind_eq_some_iff.mp h
  cases h
  obtain ⟨raws, reads, paths⟩ := readItems_paths read
  refine ⟨raws, ?_, paths⟩
  simp only [readOfferPaths, first, second, third, fourth, fifth, reads, Option.bind_eq_bind,
    Option.bind_some]

/-- None of a path's segments becomes dots as its illegal characters are deleted, and none that is
not valid UTF-16 has a colon or a null character. -/
def Undisguised (path : QString) : Prop :=
  ∀ seg ∈ pathSegments path, ¬ Disguised seg ∧ ¬ Unscreened seg

/-- The sanitiser gives a secure path exactly for an undisguised one, and so do the parsers: the
paths they return are secure exactly if those on the wire are undisguised. -/
theorem secure_iff_undisguised (s : QString) (data : QByteArray) :
    (Secure (sanitizePath s) ↔ Undisguised s) ∧
    (∀ msg : MsgFileStart, parseFileStart data = some msg →
      ∃ raw, readFileStartPath data = some raw ∧ (Secure msg.relativePath ↔ Undisguised raw)) ∧
    (∀ msg : MsgTransferOffer, parseTransferOffer data = some msg →
      ∃ raws, readOfferPaths data = some raws ∧
        ((∀ item ∈ msg.items, Secure item.relativePath) ↔ ∀ raw ∈ raws, Undisguised raw)) := by
  refine ⟨secure_sanitizePath_iff s, ?_, ?_⟩
  · intro msg parsed
    obtain ⟨raw, read, path⟩ := parseFileStart_path parsed
    refine ⟨raw, read, ?_⟩
    rw [path]
    exact secure_sanitizePath_iff raw
  · intro msg parsed
    obtain ⟨raws, read, paths⟩ := parseTransferOffer_paths parsed
    have each : (∀ item ∈ msg.items, Secure item.relativePath) ↔
        ∀ path ∈ msg.items.map ManifestItem.relativePath, Secure path := by
      simp only [List.forall_mem_map]
    refine ⟨raws, read, ?_⟩
    rw [each, paths, List.forall_mem_map]
    exact forall₂_congr fun raw _ => secure_sanitizePath_iff raw

/-- A plain file that starts, and an offer of it. -/
theorem secure_iff_undisguised_plain :
    let start : MsgFileStart := { relativePath := literal "a/b.txt" }
    let offer : MsgTransferOffer := { items := [{ relativePath := literal "a/b.txt" }] }
    (∃ raw, readFileStartPath (serializeFileStart start) = some raw ∧
      (Secure start.relativePath ↔ Undisguised raw)) ∧
    ∃ raws, readOfferPaths (serializeTransferOffer offer) = some raws ∧
      ((∀ item ∈ offer.items, Secure item.relativePath) ↔ ∀ raw ∈ raws, Undisguised raw) := by
  intro start offer
  obtain ⟨-, ofStart, -⟩ :=
    secure_iff_undisguised start.relativePath (serializeFileStart start)
  obtain ⟨-, -, ofOffer⟩ :=
    secure_iff_undisguised start.relativePath (serializeTransferOffer offer)
  exact ⟨ofStart start (by decide +kernel), ofOffer offer (by decide +kernel)⟩

/-- A character that is deleted hides the two dots from the sanitiser. -/
theorem insecure_accepted :
    (parseFileStart (serializeFileStart { relativePath := literal ".<." })).map
        MsgFileStart.relativePath = some (literal "..") ∧
      (parseTransferOffer (serializeTransferOffer
          { items := [{ relativePath := literal ".<./x" }] })).map
        (fun msg => msg.items.map ManifestItem.relativePath) = some [literal "../x"] ∧
      ¬ Secure (literal "..") ∧ ¬ Secure (literal "../x") := by
  decide +kernel

end FastTransfer.Protocol
