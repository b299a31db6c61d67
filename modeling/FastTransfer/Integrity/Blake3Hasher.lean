/- FastTransfer/Integrity/Blake3Hasher
   source: src/integrity/Blake3Hasher.h, src/integrity/Blake3Hasher.cpp
   digest: The caching wrapper around the hasher. -/

import FastTransfer.Integrity.Blake3
import Mathlib.Data.List.Induction

set_option autoImplicit false
set_option relaxedAutoImplicit false

namespace FastTransfer

structure Blake3Hasher (B : Blake3) where
  hasher : B.State
  finalized : Bool
  cachedDigest : QByteArray

namespace Blake3Hasher

variable {B : Blake3}

/-- `reset()`, which the constructor calls. -/
def reset (B : Blake3) : Blake3Hasher B := ⟨B.init, false, List.replicate 32 0⟩

/-- An update after finalisation starts a new hash. -/
def update (self : Blake3Hasher B) (data : QByteArray) : Blake3Hasher B :=
  let self := if self.finalized then reset B else self
  if data = [] then self else { self with hasher := B.update self.hasher data }

def finalizeRaw (self : Blake3Hasher B) : Blake3Hasher B :=
  if self.finalized then self
  else { self with cachedDigest := B.finalize self.hasher, finalized := true }

/-- `finalizeHex()`: the digest in hexadecimal, and the hasher afterwards. -/
def finalizeHex (self : Blake3Hasher B) : QString × Blake3Hasher B :=
  ((finalizeRaw self).cachedDigest.toHex, finalizeRaw self)

def hashBytes (B : Blake3) (data : QByteArray) : QString := ((reset B).update data).finalizeHex.1

/-- A hasher that has been fed the given chunks and is still open. -/
def fed (B : Blake3) (chunks : List QByteArray) : Blake3Hasher B := chunks.foldl update (reset B)

def digest (B : Blake3) (chunks : List QByteArray) : QString := (fed B chunks).finalizeHex.1

theorem fed_append (chunks : List QByteArray) (data : QByteArray) :
    fed B (chunks ++ [data]) = (fed B chunks).update data := by
  simp only [fed, List.foldl_append, List.foldl_cons, List.foldl_nil]

private theorem update_open {self : Blake3Hasher B} (h : self.finalized = false)
    (data : QByteArray) : (self.update data).finalized = false := by
  simp only [update, h, Bool.false_eq_true, if_false]
  split
  · exact h
  · rfl

theorem fed_open (chunks : List QByteArray) : (fed B chunks).finalized = false := by
  induction chunks using List.reverseRecOn with
  | nil => rfl
  | append_singleton chunks data ih =>
      rw [fed_append]
      exact update_open ih data

theorem finalizeRaw_open {self : Blake3Hasher B} (h : self.finalized = false) :
    self.finalizeRaw = ⟨self.hasher, true, B.finalize self.hasher⟩ := by
  simp [finalizeRaw, h]

theorem digest_length (chunks : List QByteArray) : (digest B chunks).length = 64 := by
  simp only [digest, finalizeHex, finalizeRaw_open (fed_open chunks), QByteArray.toHex_length,
    B.finalize_length]

end Blake3Hasher

end FastTransfer
