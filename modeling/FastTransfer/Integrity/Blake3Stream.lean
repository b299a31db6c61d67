/- FastTransfer/Integrity/Blake3Stream
   source: third_party/blake3/blake3.c, src/integrity/Blake3Hasher.cpp
   digest: When the hasher, fed a file in slices, computes the hash of the file. -/

import FastTransfer.Integrity.Blake3Tree
import FastTransfer.Integrity.Compression

set_option autoImplicit false
set_option relaxedAutoImplicit false

namespace FastTransfer.Blake3

open Slices (slice)

/-- The bytes of one chunk among the first `taken` of a content. -/
def inChunk (content : QByteArray) (chunk taken : Nat) : QByteArray :=
  (content.take taken).drop (CHUNK_LEN * chunk)

/-- A slice ends in the chunk, in front of its last block. -/
def passed (width chunk taken : Nat) : Prop :=
  CHUNK_LEN * chunk < BLOCK_LEN * lastBlock taken / width * width

instance (width chunk taken : Nat) : Decidable (passed width chunk taken) := by
  unfold passed
  infer_instance

/-- What lies behind the buffered bytes: the block in front of the chunk, until a slice that ends
in a block has the buffer cleared. -/
def residueAt (width : Nat) (content : QByteArray) (chunk taken : Nat) : QByteArray :=
  if chunk = 0 ∨ passed width chunk taken then padding 0
  else slice BLOCK_LEN content (CHUNK_LEN / BLOCK_LEN * chunk - 1)

/-- The hasher has taken `taken` bytes of `content`, and is in the given chunk. -/
structure HasherAt (width : Nat) (content : QByteArray) (chunk taken : Nat) (hasher : Hasher) :
    Prop where
  chunk_state : ChunkAt chunk (inChunk content chunk taken) (residueAt width content chunk taken)
    hasher.chunk
  cv_stack : hasher.cv_stack =
    (CarryStack.stack node (leaf content) 0 chunk).map output_chaining_value

private theorem passed_iff (width chunk taken : Nat) :
    passed width chunk taken ↔ ∃ bound, width ∣ bound ∧ CHUNK_LEN * chunk < bound ∧
      bound ≤ BLOCK_LEN * lastBlock taken := by
  constructor
  · intro h
    exact ⟨_, Nat.dvd_mul_left width _, h, Nat.div_mul_le_self _ _⟩
  · rintro ⟨_, ⟨q, rfl⟩, above, below⟩
    rcases Nat.eq_zero_or_pos width with rfl | positive
    · omega
    · refine Nat.lt_of_lt_of_le above ?_
      rw [Nat.mul_comm width q] at below ⊢
      exact Nat.mul_le_mul_right width ((Nat.le_div_iff_mul_le positive).mpr below)

private theorem inChunk_length {content : QByteArray} {chunk taken : Nat}
    (inside : taken ≤ content.length) :
    (inChunk content chunk taken).length = taken - CHUNK_LEN * chunk := by
  rw [inChunk, List.length_drop, List.length_take]
  omega

private theorem inChunk_append {content : QByteArray} {chunk taken : Nat} (take : Nat)
    (started : CHUNK_LEN * chunk ≤ taken) (inside : taken ≤ content.length) :
    inChunk content chunk taken ++ (content.drop taken).take take =
      inChunk content chunk (taken + take) := by
  rw [inChunk, inChunk, List.take_add,
    List.drop_append_of_le_length (by rw [List.length_take]; omega)]

private theorem inChunk_whole {content : QByteArray} (chunk : Nat) :
    inChunk content chunk (CHUNK_LEN * (chunk + 1)) = slice CHUNK_LEN content chunk := by
  rw [inChunk, slice, List.drop_take, Nat.mul_comm chunk, Nat.mul_succ, Nat.add_sub_cancel_left]

private theorem chunk_state_output_eq {counter : Nat} {bytes residue : QByteArray}
    {self : ChunkState} (h : ChunkAt counter bytes residue self)
    (clean : residue.drop (lastBytes bytes).length = padding (lastBytes bytes).length) :
    chunk_state_output self = chunkLeaf counter bytes := by
  rw [chunk_state_output, chunkLeaf, h.cv, h.chunk_counter, h.buf, h.buf_len, clean,
    chunk_state_maybe_start_flag, startFlag, h.blocks_compressed]

private theorem hasher_push_cv_eq (stack : List QByteArray) (new : QByteArray) (count : Nat) :
    hasher_push_cv stack new count =
      CarryStack.push (fun a b => output_chaining_value (parent_output (a ++ b))) stack new
        count := by
  induction stack generalizing new count with
  | nil => rfl
  | cons top rest ih =>
      rw [hasher_push_cv, CarryStack.push]
      split
      · rw [ih]
      · rfl

private theorem lastBytes_whole {content : QByteArray} {chunk : Nat}
    (inside : CHUNK_LEN * (chunk + 1) ≤ content.length) :
    lastBytes (slice CHUNK_LEN content chunk) =
      slice BLOCK_LEN content (CHUNK_LEN / BLOCK_LEN * (chunk + 1) - 1) := by
  have length : (slice CHUNK_LEN content chunk).length = CHUNK_LEN := by
    rw [Slices.slice_length, Nat.mul_comm]
    rw [Nat.mul_succ] at inside
    omega
  have position : CHUNK_LEN / BLOCK_LEN * (chunk + 1) - 1 = 16 * chunk + 15 := by
    simp only [CHUNK_LEN, BLOCK_LEN]
    omega
  have last : lastBlock CHUNK_LEN = 15 := rfl
  rw [lastBytes, length, last, position, slice, slice, List.drop_take, List.drop_drop]
  simp only [CHUNK_LEN, BLOCK_LEN]
  congr 2
  omega

/-- A complete chunk is stacked when more input arrives. -/
private theorem HasherAt.next_chunk {width : Nat} {content : QByteArray} {taken : Nat}
    {self : Hasher} (h : HasherAt width content (lastChunk taken) taken self)
    (more : taken < content.length) :
    HasherAt width content (taken / CHUNK_LEN) taken (hasher_next_chunk self) := by
  have len := h.chunk_state.len
  rw [inChunk_length (Nat.le_of_lt more)] at len
  unfold hasher_next_chunk
  by_cases whole : chunk_state_len self.chunk = CHUNK_LEN
  · rw [if_pos whole]
    have chunk : taken / CHUNK_LEN = lastChunk taken + 1 := by
      simp only [lastChunk, CHUNK_LEN] at *
      omega
    have ended : taken = CHUNK_LEN * (lastChunk taken + 1) := by
      simp only [lastChunk, CHUNK_LEN] at *
      omega
    have state := h.chunk_state
    have bytes : inChunk content (lastChunk taken) taken =
        slice CHUNK_LEN content (lastChunk taken) := by
      rw [← inChunk_whole, ← ended]
    have block := lastBytes_whole (Nat.le_of_lt (ended ▸ more))
    have full : (lastBytes (slice CHUNK_LEN content (lastChunk taken))).length = BLOCK_LEN := by
      rw [block, Slices.slice_length]
      simp only [lastChunk, CHUNK_LEN, BLOCK_LEN] at *
      omega
    have gone : (residueAt width content (lastChunk taken) taken).drop BLOCK_LEN = [] :=
      List.drop_of_length_le (Nat.le_of_eq state.residue)
    rw [bytes] at state
    have output := chunk_state_output_eq state (by rw [full, gone]; rfl)
    have buf := state.buf
    rw [full, gone, List.append_nil, block] at buf
    have counter : self.chunk.chunk_counter + 1 = lastChunk taken + 1 :=
      congrArg (· + 1) state.chunk_counter
    have empty : inChunk content (lastChunk taken + 1) taken = [] := by
      apply List.eq_nil_of_length_eq_zero
      rw [inChunk_length (Nat.le_of_lt more)]
      omega
    have kept : residueAt width content (lastChunk taken + 1) taken = self.chunk.buf := by
      rw [residueAt, if_neg, buf]
      rintro (zero | cut)
      · omega
      · obtain ⟨bound, -, above, below⟩ := (passed_iff _ _ _).mp cut
        simp only [lastChunk, lastBlock, CHUNK_LEN, BLOCK_LEN] at *
        omega
    have reset : ChunkAt (lastChunk taken + 1) [] self.chunk.buf
        (chunk_state_reset self.chunk (self.chunk.chunk_counter + 1)) :=
      ⟨rfl, counter, rfl, rfl, rfl, by rw [buf, ← block, full]⟩
    have stacked : hasher_push_cv self.cv_stack
        (output_chaining_value (chunk_state_output self.chunk)) (self.chunk.chunk_counter + 1) =
          (CarryStack.stack node (leaf content) 0 (lastChunk taken + 1)).map
            output_chaining_value := by
      have pushed := CarryStack.push_stack node (leaf content) 0 (lastChunk taken)
      rw [Nat.pow_zero, Nat.mul_one, CarryStack.tree_one] at pushed
      rw [hasher_push_cv_eq, output, h.cv_stack, counter, ← pushed]
      exact (CarryStack.push_map node (fun a b => rfl) _ _ _).symm
    rw [chunk]
    exact ⟨by rw [empty, kept]; exact reset, stacked⟩
  · rw [if_neg whole]
    have same : taken / CHUNK_LEN = lastChunk taken := by
      simp only [lastChunk, CHUNK_LEN] at *
      omega
    rw [same]
    exact h

private theorem nextResidue_eq {width : Nat} {content piece : QByteArray} {taken : Nat}
    (inside : taken + piece.length ≤ content.length) (positive : 0 < piece.length)
    (start : width ∣ taken ∨ CHUNK_LEN ∣ taken)
    (gap : ∀ bound, width ∣ bound → bound < taken + piece.length → bound ≤ taken) :
    nextResidue (inChunk content (taken / CHUNK_LEN) taken) piece
        (residueAt width content (taken / CHUNK_LEN) taken) =
      residueAt width content (taken / CHUNK_LEN) (taken + piece.length) := by
  have length : (inChunk content (taken / CHUNK_LEN) taken).length =
      taken - CHUNK_LEN * (taken / CHUNK_LEN) := inChunk_length (by omega)
  rw [nextResidue]
  by_cases cleared : clears (inChunk content (taken / CHUNK_LEN) taken) piece
  · rw [if_pos cleared]
    obtain ⟨nonempty, beyond⟩ := cleared
    have used := List.length_pos_of_ne_nil nonempty
    rw [length] at used beyond
    have cut : passed width (taken / CHUNK_LEN) (taken + piece.length) := by
      refine (passed_iff _ _ _).mpr ⟨taken, ?_, by omega, ?_⟩
      · refine start.resolve_right fun divides => ?_
        obtain ⟨q, eq⟩ := divides
        rw [eq, Nat.mul_div_cancel_left _ (by decide)] at used
        omega
      · simp only [lastBlock, CHUNK_LEN, BLOCK_LEN] at *
        omega
    rw [residueAt, if_pos (.inr cut)]
  · rw [if_neg cleared]
    have same : passed width (taken / CHUNK_LEN) taken ↔
        passed width (taken / CHUNK_LEN) (taken + piece.length) := by
      rw [passed_iff, passed_iff]
      constructor
      · rintro ⟨bound, divides, above, below⟩
        refine ⟨bound, divides, above, ?_⟩
        simp only [lastBlock, BLOCK_LEN] at *
        omega
      · rintro ⟨bound, divides, above, below⟩
        refine ⟨bound, divides, above, ?_⟩
        by_contra late
        have behind : bound ≤ taken := by
          apply gap bound divides
          simp only [lastBlock, BLOCK_LEN] at below
          omega
        refine cleared ⟨?_, ?_⟩
        · intro empty
          rw [empty, List.length_nil] at length
          omega
        · rw [length]
          simp only [lastBlock, CHUNK_LEN, BLOCK_LEN] at *
          omega
    rw [residueAt, residueAt]
    simp only [same]

private theorem HasherAt.piece {width : Nat} {content : QByteArray} {taken : Nat}
    {self : Hasher} (h : HasherAt width content (taken / CHUNK_LEN) taken self) {take : Nat}
    (positive : 0 < take) (fits : take ≤ CHUNK_LEN - taken % CHUNK_LEN)
    (inside : taken + take ≤ content.length) (start : width ∣ taken ∨ CHUNK_LEN ∣ taken)
    (gap : ∀ bound, width ∣ bound → bound < taken + take → bound ≤ taken) :
    HasherAt width content (lastChunk (taken + take)) (taken + take)
      { self with chunk := chunk_state_update self.chunk ((content.drop taken).take take) } := by
  have same : lastChunk (taken + take) = taken / CHUNK_LEN := by
    simp only [lastChunk, CHUNK_LEN] at *
    omega
  have length : ((content.drop taken).take take).length = take := by
    rw [List.length_take, List.length_drop]
    omega
  have moved := h.chunk_state.update ((content.drop taken).take take)
  rw [inChunk_append take (Nat.mul_div_le taken CHUNK_LEN) (by omega),
    nextResidue_eq (by rw [length]; exact inside) (by rw [length]; exact positive) start
      (by rw [length]; exact gap), length] at moved
  rw [same]
  exact ⟨moved, h.cv_stack⟩

private theorem HasherAt.loop {width : Nat} {content : QByteArray} (fuel : Nat)
    {taken len : Nat} {self : Hasher} (h : HasherAt width content (lastChunk taken) taken self)
    (inside : taken + len ≤ content.length) (enough : len ≤ fuel)
    (start : 0 < len → width ∣ taken ∨ CHUNK_LEN ∣ taken)
    (gap : ∀ bound, width ∣ bound → bound < taken + len → bound ≤ taken) :
    HasherAt width content (lastChunk (taken + len)) (taken + len)
      (hasher_update_loop fuel self ((content.drop taken).take len)) := by
  induction fuel generalizing taken len self with
  | zero =>
      obtain rfl : len = 0 := by omega
      exact h
  | succ fuel ih =>
      have length : ((content.drop taken).take len).length = len := by
        rw [List.length_take, List.length_drop]
        omega
      rw [hasher_update_loop]
      by_cases empty : (content.drop taken).take len = []
      · rw [if_pos empty]
        rw [empty] at length
        subst length
        exact h
      · have positive : 0 < len := length ▸ List.length_pos_of_ne_nil empty
        rw [if_neg empty]
        dsimp only
        have next := h.next_chunk (by omega)
        have room : chunk_state_len (hasher_next_chunk self).chunk = taken % CHUNK_LEN := by
          rw [next.chunk_state.len, inChunk_length (by omega), Nat.mod_def]
        have below : taken % CHUNK_LEN < CHUNK_LEN := Nat.mod_lt _ (by decide)
        rw [room, length]
        generalize taking : min (CHUNK_LEN - taken % CHUNK_LEN) len = take
        have least : 0 < take ∧ take ≤ CHUNK_LEN - taken % CHUNK_LEN ∧ take ≤ len := by omega
        rw [List.take_take, Nat.min_eq_left least.2.2, List.drop_take, List.drop_drop]
        have moved := next.piece least.1 least.2.1 (by omega) (start positive)
          (fun bound divides before => gap bound divides (by omega))
        have aligned : 0 < len - take → width ∣ taken + take ∨ CHUNK_LEN ∣ taken + take := by
          intro remains
          right
          have filled : take = CHUNK_LEN - taken % CHUNK_LEN := by omega
          have division := Nat.mod_add_div taken CHUNK_LEN
          refine ⟨taken / CHUNK_LEN + 1, ?_⟩
          rw [Nat.mul_succ]
          omega
        have done := ih moved (show taken + take + (len - take) ≤ content.length by omega)
          (by omega) aligned
          (fun bound divides before => (gap bound divides (by omega)).trans (by omega))
        rw [show taken + take + (len - take) = taken + len by omega] at done
        exact done

theorem hasherAt_slices {width : Nat} (positive : 0 < width) (content : QByteArray) (k : Nat) :
    HasherAt width content (lastChunk (min (k * width) content.length))
      (min (k * width) content.length)
      ((Slices.slices width content k).foldl hasher_update hasher_init) := by
  induction k with
  | zero =>
      have empty : inChunk content 0 0 = [] := by
        rw [inChunk, List.take_zero, List.drop_nil]
      rw [Nat.zero_mul, Nat.zero_min, show lastChunk 0 = 0 from rfl]
      refine ⟨?_, ?_⟩
      · rw [empty, residueAt, if_pos (.inl rfl)]
        exact ⟨rfl, rfl, rfl, rfl, rfl, rfl⟩
      · rw [(CarryStack.stack_nil_iff _ _ _ _).mpr rfl]
        rfl
  | succ k ih =>
      rw [Slices.slices_succ, List.foldl_append, List.foldl_cons, List.foldl_nil]
      generalize (Slices.slices width content k).foldl hasher_update hasher_init = self at ih
      have length := Slices.slice_length width content k
      have next : (k + 1) * width = k * width + width := Nat.succ_mul k width
      by_cases inside : k * width < content.length
      · rw [Nat.min_eq_left (Nat.le_of_lt inside)] at ih
        have same : slice width content k =
            (content.drop (k * width)).take (slice width content k).length := by
          rw [length, slice, List.take_eq_take_iff, List.length_drop]
          omega
        have reached : k * width + (slice width content k).length =
            min ((k + 1) * width) content.length := by
          omega
        have gap : ∀ bound, width ∣ bound → bound < k * width + (slice width content k).length →
            bound ≤ k * width := by
          rintro _ ⟨q, rfl⟩ before
          rw [Nat.mul_comm width q] at before ⊢
          have : q < k + 1 := Nat.lt_of_mul_lt_mul_right (show q * width < (k + 1) * width by omega)
          exact Nat.mul_le_mul_right width (by omega)
        have moved := ih.loop (slice width content k).length (by omega) (Nat.le_refl _)
          (fun _ => .inl (Nat.dvd_mul_left width k)) gap
        rw [← same, reached] at moved
        exact moved
      · have empty : slice width content k = [] := by
          apply List.eq_nil_of_length_eq_zero
          omega
        have all : min ((k + 1) * width) content.length = min (k * width) content.length := by
          omega
        rw [empty, all]
        exact ih

/-! The hash that comes out. -/

/-- What lies behind the last block of a content that was fed in slices. -/
def tail (width : Nat) (content : QByteArray) : QByteArray :=
  (residueAt width content (lastChunk content.length) content.length).drop
    (content.length - BLOCK_LEN * lastBlock content.length)

/-- The last chunk as the hasher compresses it. -/
def fedLeaf (width : Nat) (content : QByteArray) : Output :=
  { leaf content (lastChunk content.length) with
    block := lastBytes (slice CHUNK_LEN content (lastChunk content.length)) ++ tail width content }

private theorem lastBytes_last (content : QByteArray) :
    (lastBytes (slice CHUNK_LEN content (lastChunk content.length))).length =
      content.length - BLOCK_LEN * lastBlock content.length := by
  rw [lastBytes_length, Slices.slice_length]
  simp only [lastChunk, lastBlock, CHUNK_LEN, BLOCK_LEN]
  omega

theorem finalize_slices {width : Nat} (positive : 0 < width) (content : QByteArray) :
    hasher_finalize ((Slices.slices width content (Slices.count width content)).foldl
      hasher_update hasher_init) =
        output_root_bytes ((CarryStack.stack node (leaf content) 0 (lastChunk content.length)).foldl
          (fun right left => node left right) (fedLeaf width content)) := by
  have all := (Slices.lt_count (l := content) positive).not.mp (Nat.lt_irrefl _)
  have h := hasherAt_slices positive content (Slices.count width content)
  rw [Nat.min_eq_right (Nat.le_of_not_lt all)] at h
  generalize (Slices.slices width content _).foldl hasher_update hasher_init = self at h
  have bytes : inChunk content (lastChunk content.length) content.length =
      slice CHUNK_LEN content (lastChunk content.length) := by
    rw [inChunk, List.take_length, slice, Nat.mul_comm, List.take_of_length_le]
    rw [List.length_drop]
    simp only [lastChunk, CHUNK_LEN]
    omega
  have state := h.chunk_state
  rw [bytes] at state
  have output : chunk_state_output self.chunk = fedLeaf width content := by
    rw [chunk_state_output, fedLeaf, leaf, chunkLeaf, tail, state.cv, state.chunk_counter,
      state.buf, state.buf_len, chunk_state_maybe_start_flag, startFlag,
      state.blocks_compressed, lastBytes_last]
  rw [hasher_finalize, h.cv_stack, output, List.foldl_map]
  rfl

/-- The bytes of the block in front of the last chunk that stand behind the last block. -/
def stale (content : QByteArray) : QByteArray :=
  (slice BLOCK_LEN content (CHUNK_LEN / BLOCK_LEN * lastChunk content.length - 1)).drop
    (content.length - BLOCK_LEN * lastBlock content.length)

/-- Nothing is left behind the last block: the content is one chunk, or the block is full, or a
slice ends in the last chunk in front of the block, or what is left are zeros. -/
def CleanTail (width : Nat) (content : QByteArray) : Prop :=
  content.length ≤ CHUNK_LEN ∨ BLOCK_LEN ∣ content.length ∨
    passed width (lastChunk content.length) content.length ∨ ∀ byte ∈ stale content, byte = 0

instance (width : Nat) (content : QByteArray) : Decidable (CleanTail width content) :=
  haveI : Decidable (∀ byte ∈ stale content, byte = 0) := List.decidableBAll _ _
  inferInstanceAs (Decidable (_ ∨ _ ∨ _ ∨ _))

theorem fedLeaf_eq_iff (width : Nat) (content : QByteArray) :
    fedLeaf width content = leaf content (lastChunk content.length) ↔ CleanTail width content := by
  have padded : fedLeaf width content = leaf content (lastChunk content.length) ↔
      tail width content = padding (content.length - BLOCK_LEN * lastBlock content.length) := by
    rw [← lastBytes_last]
    constructor
    · intro same
      exact List.append_cancel_left (congrArg Output.block same)
    · intro same
      rw [fedLeaf, same, leaf, chunkLeaf]
  rw [padded, tail, residueAt]
  by_cases fresh : lastChunk content.length = 0 ∨ passed width (lastChunk content.length)
      content.length
  · rw [if_pos fresh, padding, padding, List.drop_replicate]
    refine iff_of_true rfl ?_
    rcases fresh with one | cut
    · left
      simp only [lastChunk, CHUNK_LEN] at *
      omega
    · exact .inr (.inr (.inl cut))
  · rw [if_neg fresh]
    obtain ⟨later, uncut⟩ := not_or.mp fresh
    have length : (stale content).length =
        BLOCK_LEN - (content.length - BLOCK_LEN * lastBlock content.length) := by
      rw [stale, List.length_drop, Slices.slice_length]
      simp only [lastChunk, lastBlock, CHUNK_LEN, BLOCK_LEN] at *
      omega
    have zeros : stale content =
        padding (content.length - BLOCK_LEN * lastBlock content.length) ↔
          ∀ byte ∈ stale content, byte = 0 :=
      List.eq_replicate_iff.trans (and_iff_right length)
    refine zeros.trans ⟨fun clean => .inr (.inr (.inr clean)), ?_⟩
    rintro (small | full | cut | clean)
    · simp only [lastChunk, CHUNK_LEN] at *
      omega
    · have none : stale content = [] := by
        apply List.eq_nil_of_length_eq_zero
        simp only [lastChunk, lastBlock, CHUNK_LEN, BLOCK_LEN] at *
        omega
      rw [none]
      exact List.forall_mem_nil _
    · exact absurd cut uncut
    · exact clean

theorem finalize_clean {width : Nat} (positive : 0 < width) {content : QByteArray}
    (clean : CleanTail width content) :
    hasher_finalize ((Slices.slices width content (Slices.count width content)).foldl
      hasher_update hasher_init) = hash content := by
  have folded := CarryStack.foldl_stack node (leaf content) 0 (lastChunk content.length)
    Nat.one_pos (Nat.le_refl _)
  rw [Nat.pow_zero, Nat.mul_one, CarryStack.tree_one] at folded
  rw [finalize_slices positive, (fedLeaf_eq_iff width content).mpr clean, folded, hash]

/-- `chunkCv` through the compression on named words. -/
def chainedCv (counter : Nat) (bytes : QByteArray) : Nat → Words8
  | 0 => IV
  | block + 1 =>
      (Block16.compressed (chainedCv counter bytes block) (slice BLOCK_LEN bytes block) BLOCK_LEN
        counter (startFlag block)).lower

theorem chunkCv_chained (counter : Nat) (bytes : QByteArray) (block : Nat) :
    chunkCv counter bytes block = chainedCv counter bytes block := by
  induction block with
  | zero => rfl
  | succ block ih => rw [chunkCv, chainedCv, compress_in_place_words, ih]

end FastTransfer.Blake3

namespace FastTransfer.Blake3Hasher

private theorem hasher_fed (B : Blake3) (chunks : List QByteArray)
    (nonempty : ∀ chunk ∈ chunks, chunk ≠ []) :
    (fed B chunks).hasher = chunks.foldl B.update B.init := by
  induction chunks using List.reverseRecOn with
  | nil => rfl
  | append_singleton chunks data ih =>
      have full : data ≠ [] := nonempty data (by simp)
      have before := ih fun chunk mem => nonempty chunk (List.mem_append_left _ mem)
      rw [fed_append, List.foldl_append, List.foldl_cons, List.foldl_nil, ← before]
      simp only [update, fed_open, Bool.false_eq_true, if_false, if_neg full]

private theorem digest_finalize {width : Nat} (positive : 0 < width) (content : QByteArray) :
    digest .vendored (Slices.slices width content (Slices.count width content)) =
      (Blake3.hasher_finalize ((Slices.slices width content (Slices.count width content)).foldl
        Blake3.hasher_update Blake3.hasher_init)).toHex := by
  have full : ∀ chunk ∈ Slices.slices width content (Slices.count width content),
      chunk ≠ [] := by
    intro chunk mem
    obtain ⟨k, below, rfl⟩ := Slices.mem_slices mem
    exact Slices.slice_ne_nil positive ((Slices.lt_count positive).mp below)
  rw [digest, finalizeHex, finalizeRaw_open (fed_open _), hasher_fed .vendored _ full]
  rfl

theorem digest_slices {width : Nat} (positive : 0 < width) {content : QByteArray}
    (clean : Blake3.CleanTail width content) :
    digest .vendored (Slices.slices width content (Slices.count width content)) =
      (Blake3.hash content).toHex := by
  rw [digest_finalize positive, Blake3.finalize_clean positive clean]

def chunkAndByte : QByteArray := List.replicate 1025 1

/-- The last block is padded with the bytes of the block before, and the digest is wrong. -/
theorem digest_chunkAndByte :
    digest .vendored (Slices.slices 2048 chunkAndByte (Slices.count 2048 chunkAndByte)) ≠
      (Blake3.hash chunkAndByte).toHex := by
  have chunks : Blake3.lastChunk chunkAndByte.length = 1 := by
    rw [chunkAndByte, List.length_replicate]
    rfl
  have stack : CarryStack.stack Blake3.node (Blake3.leaf chunkAndByte) 0 1 =
      [Blake3.leaf chunkAndByte 0] := by
    rw [CarryStack.stack_odd _ _ _ (by decide), Nat.pow_zero, CarryStack.tree_one,
      (CarryStack.stack_nil_iff _ _ _ _).mpr (by decide)]
  have tree : CarryStack.tree Blake3.node (Blake3.leaf chunkAndByte) 0 (1 + 1) =
      Blake3.node (Blake3.leaf chunkAndByte 0) (Blake3.leaf chunkAndByte 1) := by
    have split := CarryStack.tree_split Blake3.node (Blake3.leaf chunkAndByte) 0 0 Nat.one_pos
      (Nat.le_refl _)
    rw [Nat.pow_zero, CarryStack.tree_one, CarryStack.tree_one] at split
    exact split
  have differ :
      (Blake3.output_root_bytes (Blake3.node (Blake3.leaf chunkAndByte 0)
        (Blake3.fedLeaf 2048 chunkAndByte))).toHex ≠
      (Blake3.output_root_bytes (Blake3.node (Blake3.leaf chunkAndByte 0)
        (Blake3.leaf chunkAndByte 1))).toHex := by
    simp only [Blake3.output_root_bytes, Blake3.node, Blake3.parent_output,
      Blake3.output_chaining_value, Blake3.leaf, Blake3.chunkLeaf, Blake3.fedLeaf,
      Blake3.compress_xof_words, Blake3.compress_in_place_words, Blake3.chunkCv_chained]
    decide +kernel
  rw [digest_finalize (by decide), Blake3.finalize_slices (by decide), Blake3.hash, chunks, stack,
    tree]
  exact differ

end FastTransfer.Blake3Hasher
