/- FastTransfer/Integrity/Blake3Tree
   source: third_party/blake3/blake3.h, blake3_impl.h, blake3.c
   digest: The BLAKE3 tree over a whole input, and when the vendored streaming computes it. -/

import FastTransfer.Integrity.Blake3Hasher
import FastTransfer.Library.CarryStack
import FastTransfer.Library.Slices

set_option autoImplicit false
set_option relaxedAutoImplicit false

namespace FastTransfer.Blake3

open Slices (slice)

/-! The tree: chunks of 1024 bytes in blocks of 64, the last one padded with zeros. -/

def startFlag (block : Nat) : UInt32 := if block = 0 then CHUNK_START else 0

def chunkCv (counter : Nat) (bytes : QByteArray) : Nat → Words8
  | 0 => IV
  | block + 1 =>
      compress_in_place (chunkCv counter bytes block) (slice BLOCK_LEN bytes block) BLOCK_LEN
        counter (startFlag block)

def lastBlock (length : Nat) : Nat := (length - 1) / BLOCK_LEN

def lastBytes (bytes : QByteArray) : QByteArray := bytes.drop (BLOCK_LEN * lastBlock bytes.length)

def padding (length : Nat) : QByteArray := List.replicate (BLOCK_LEN - length) 0

def chunkLeaf (counter : Nat) (bytes : QByteArray) : Output :=
  ⟨chunkCv counter bytes (lastBlock bytes.length), counter,
    lastBytes bytes ++ padding (lastBytes bytes).length, (lastBytes bytes).length,
    startFlag (lastBlock bytes.length) ||| CHUNK_END⟩

def node (left right : Output) : Output :=
  parent_output (output_chaining_value left ++ output_chaining_value right)

def lastChunk (length : Nat) : Nat := (length - 1) / CHUNK_LEN

def leaf (content : QByteArray) (chunk : Nat) : Output :=
  chunkLeaf chunk (slice CHUNK_LEN content chunk)

/-- The BLAKE3 hash of an input. -/
def hash (content : QByteArray) : QByteArray :=
  output_root_bytes (CarryStack.tree node (leaf content) 0 (lastChunk content.length + 1))

/-! A chunk, fed in pieces. -/

/-- The chunk state has taken the given bytes. Behind them the buffer holds what was there before
it was last filled. -/
structure ChunkAt (counter : Nat) (bytes residue : QByteArray) (state : ChunkState) : Prop where
  cv : state.cv = chunkCv counter bytes (lastBlock bytes.length)
  chunk_counter : state.chunk_counter = counter
  blocks_compressed : state.blocks_compressed = lastBlock bytes.length
  buf_len : state.buf_len = (lastBytes bytes).length
  buf : state.buf = lastBytes bytes ++ residue.drop (lastBytes bytes).length
  residue : residue.length = BLOCK_LEN

theorem lastBytes_length (bytes : QByteArray) :
    (lastBytes bytes).length = bytes.length - BLOCK_LEN * lastBlock bytes.length := by
  rw [lastBytes, List.length_drop]

private theorem lastBytes_bounds (bytes : QByteArray) :
    (lastBytes bytes).length ≤ BLOCK_LEN ∧ BLOCK_LEN * lastBlock bytes.length ≤ bytes.length ∧
      (0 < bytes.length → 0 < (lastBytes bytes).length) := by
  have last := lastBytes_length bytes
  simp only [lastBlock, BLOCK_LEN] at *
  omega

private theorem maybe_start_flag_eq {self : ChunkState} {block : Nat}
    (h : self.blocks_compressed = block) : chunk_state_maybe_start_flag self = startFlag block := by
  rw [chunk_state_maybe_start_flag, startFlag, h]

theorem ChunkAt.len {counter : Nat} {bytes residue : QByteArray} {self : ChunkState}
    (h : ChunkAt counter bytes residue self) : chunk_state_len self = bytes.length := by
  have := lastBytes_length bytes
  rw [chunk_state_len, h.blocks_compressed, h.buf_len]
  simp only [lastBlock, BLOCK_LEN] at *
  omega

private theorem chunkCv_append (counter : Nat) (bytes more : QByteArray) {block : Nat}
    (inside : BLOCK_LEN * block ≤ bytes.length) :
    chunkCv counter (bytes ++ more) block = chunkCv counter bytes block := by
  induction block with
  | zero => rfl
  | succ block ih =>
      have whole : slice BLOCK_LEN (bytes ++ more) block = slice BLOCK_LEN bytes block := by
        simp only [BLOCK_LEN] at inside ⊢
        rw [slice, slice, List.drop_append_of_le_length (by omega),
          List.take_append_of_le_length (by rw [List.length_drop]; omega)]
      rw [chunkCv, chunkCv, whole, ih (by simp only [BLOCK_LEN] at inside ⊢; omega)]

private theorem compress_blocks_eq (whole : QByteArray) (fuel : Nat) (self : ChunkState)
    (cv : self.cv = chunkCv self.chunk_counter whole self.blocks_compressed)
    (inside : self.blocks_compressed ≤ lastBlock whole.length)
    (enough : whole.length - BLOCK_LEN * self.blocks_compressed ≤ fuel) :
    compress_blocks fuel self (whole.drop (BLOCK_LEN * self.blocks_compressed)) =
      ({ self with
        cv := chunkCv self.chunk_counter whole (lastBlock whole.length)
        blocks_compressed := lastBlock whole.length }, lastBytes whole) := by
  have stop : self.blocks_compressed = lastBlock whole.length →
      ((self, whole.drop (BLOCK_LEN * self.blocks_compressed)) : ChunkState × QByteArray) =
        ({ self with
          cv := chunkCv self.chunk_counter whole (lastBlock whole.length)
          blocks_compressed := lastBlock whole.length }, lastBytes whole) := by
    intro last
    rw [lastBytes, ← last, ← cv]
  induction fuel generalizing self with
  | zero =>
      refine stop ?_
      simp only [lastBlock, BLOCK_LEN] at *
      omega
  | succ fuel ih =>
      rw [compress_blocks, List.length_drop]
      by_cases more : BLOCK_LEN < whole.length - BLOCK_LEN * self.blocks_compressed
      · rw [if_pos more, List.drop_drop]
        have next := ih
          { self with
            cv := chunkCv self.chunk_counter whole (self.blocks_compressed + 1)
            blocks_compressed := self.blocks_compressed + 1 } rfl
          (by simp only [lastBlock, BLOCK_LEN] at *; omega)
          (by simp only [BLOCK_LEN] at *; omega)
          (fun last => by rw [lastBytes, ← last])
        have block : (whole.drop (BLOCK_LEN * self.blocks_compressed)).take BLOCK_LEN =
            slice BLOCK_LEN whole self.blocks_compressed := by
          rw [slice, Nat.mul_comm]
        rw [block, maybe_start_flag_eq rfl, cv]
        exact next
      · rw [if_neg more]
        refine stop ?_
        simp only [lastBlock, BLOCK_LEN] at *
        omega

private theorem blocks_at (whole residue : QByteArray) (self : ChunkState)
    (cv : self.cv = chunkCv self.chunk_counter whole self.blocks_compressed)
    (inside : self.blocks_compressed ≤ lastBlock whole.length) (empty : self.buf_len = 0)
    (buf : self.buf = residue) (length : residue.length = BLOCK_LEN) :
    ChunkAt self.chunk_counter whole residue
      (let input := whole.drop (BLOCK_LEN * self.blocks_compressed)
       let blocks := compress_blocks input.length self input
       chunk_state_fill_buf blocks.1 blocks.2) := by
  have small := (lastBytes_bounds whole).1
  dsimp only
  rw [compress_blocks_eq whole _ self cv inside (by rw [List.length_drop])]
  have take : fill_take
      { self with
        cv := chunkCv self.chunk_counter whole (lastBlock whole.length)
        blocks_compressed := lastBlock whole.length } (lastBytes whole) =
      (lastBytes whole).length := by
    rw [fill_take]
    dsimp only
    rw [empty]
    omega
  refine ⟨rfl, rfl, rfl, ?_, ?_, length⟩
  · dsimp only [chunk_state_fill_buf]
    rw [take, empty, Nat.zero_add]
  · dsimp only [chunk_state_fill_buf]
    rw [take, empty, buf, List.take_zero, List.nil_append, Nat.zero_add, List.take_length]

def clears (bytes piece : QByteArray) : Prop :=
  bytes ≠ [] ∧ BLOCK_LEN * lastBlock bytes.length + BLOCK_LEN < bytes.length + piece.length

instance (bytes piece : QByteArray) : Decidable (clears bytes piece) := by
  unfold clears
  infer_instance

def nextResidue (bytes piece residue : QByteArray) : QByteArray :=
  if clears bytes piece then padding 0 else residue

private theorem ChunkAt.update_empty {counter : Nat} {residue : QByteArray} {self : ChunkState}
    (h : ChunkAt counter [] residue self) (piece : QByteArray) :
    ChunkAt counter piece residue (chunk_state_update self piece) := by
  have empty : self.buf_len = 0 := h.buf_len
  have zero : self.blocks_compressed = 0 := h.blocks_compressed
  have moved := blocks_at piece residue self (by rw [zero, h.cv]; rfl)
    (by rw [zero]; exact Nat.zero_le _) empty (by rw [h.buf]; rfl) h.residue
  rw [zero, Nat.mul_zero, List.drop_zero, h.chunk_counter] at moved
  unfold chunk_state_update
  rw [if_neg (by omega)]
  exact moved

private theorem ChunkAt.update_inside {counter : Nat} {bytes residue : QByteArray}
    {self : ChunkState} (h : ChunkAt counter bytes residue self) (nonempty : bytes ≠ [])
    {piece : QByteArray}
    (fits : bytes.length + piece.length ≤ BLOCK_LEN * lastBlock bytes.length + BLOCK_LEN) :
    ChunkAt counter (bytes ++ piece) residue (chunk_state_update self piece) := by
  have last := lastBytes_length bytes
  obtain ⟨small, inside, filled⟩ := lastBytes_bounds bytes
  have positive := filled (List.length_pos_of_ne_nil nonempty)
  have taken : fill_take self piece = piece.length := by
    rw [fill_take, h.buf_len]
    omega
  have same : lastBlock (bytes ++ piece).length = lastBlock bytes.length := by
    simp only [List.length_append, lastBlock, BLOCK_LEN] at *
    omega
  have grown : lastBytes (bytes ++ piece) = lastBytes bytes ++ piece := by
    rw [lastBytes, same, List.drop_append_of_le_length inside, lastBytes]
  have idle : ∀ state : ChunkState, chunk_state_fill_buf (compress_blocks 0 state []).1
      (compress_blocks 0 state []).2 = state := by
    intro state
    simp [compress_blocks, chunk_state_fill_buf, fill_take]
  unfold chunk_state_update
  rw [if_pos (by rw [h.buf_len]; exact positive), taken, List.drop_length]
  dsimp only
  rw [if_neg (not_not.mpr rfl), List.length_nil, idle]
  refine ⟨?_, h.chunk_counter, ?_, ?_, ?_, h.residue⟩
  · rw [same, chunkCv_append _ _ _ inside]
    exact h.cv
  · rw [same]
    exact h.blocks_compressed
  · dsimp only [chunk_state_fill_buf]
    rw [taken, grown, h.buf_len, List.length_append]
  · dsimp only [chunk_state_fill_buf]
    rw [taken, grown, h.buf_len, h.buf, List.take_left, List.take_length, List.length_append,
      ← List.drop_drop, List.drop_left, List.drop_drop]

private theorem ChunkAt.update_beyond {counter : Nat} {bytes residue : QByteArray}
    {self : ChunkState} (h : ChunkAt counter bytes residue self) (nonempty : bytes ≠ [])
    {piece : QByteArray}
    (beyond : BLOCK_LEN * lastBlock bytes.length + BLOCK_LEN < bytes.length + piece.length) :
    ChunkAt counter (bytes ++ piece) (padding 0) (chunk_state_update self piece) := by
  have last := lastBytes_length bytes
  obtain ⟨small, inside, filled⟩ := lastBytes_bounds bytes
  have positive := filled (List.length_pos_of_ne_nil nonempty)
  have taken : fill_take self piece = BLOCK_LEN - (lastBytes bytes).length := by
    rw [fill_take, h.buf_len]
    omega
  have rest : piece.drop (BLOCK_LEN - (lastBytes bytes).length) =
      (bytes ++ piece).drop (BLOCK_LEN * (lastBlock bytes.length + 1)) := by
    have behind : bytes.length ≤ BLOCK_LEN * (lastBlock bytes.length + 1) := by
      rw [Nat.mul_succ]
      omega
    rw [List.drop_append, List.drop_of_length_le behind, List.nil_append]
    congr 1
    rw [Nat.mul_succ]
    omega
  have more : piece.drop (BLOCK_LEN - (lastBytes bytes).length) ≠ [] := by
    intro none
    have := congrArg List.length none
    rw [List.length_drop, List.length_nil] at this
    omega
  have full : (chunk_state_fill_buf self piece).buf =
      slice BLOCK_LEN (bytes ++ piece) (lastBlock bytes.length) := by
    have behind : residue.length ≤ (lastBytes bytes).length +
        (BLOCK_LEN - (lastBytes bytes).length) := by
      rw [h.residue]
      omega
    dsimp only [chunk_state_fill_buf]
    rw [taken, h.buf_len, h.buf, List.take_left, ← List.drop_drop, List.drop_left, List.drop_drop,
      List.drop_of_length_le behind, List.append_nil, slice, Nat.mul_comm,
      List.drop_append_of_le_length inside, List.take_append, ← lastBytes,
      List.take_of_length_le small]
  have flag : chunk_state_maybe_start_flag (chunk_state_fill_buf self piece) =
      startFlag (lastBlock bytes.length) := maybe_start_flag_eq h.blocks_compressed
  have moved := blocks_at (bytes ++ piece) (padding 0)
    (compress_buf (chunk_state_fill_buf self piece)) ?_ ?_ rfl rfl rfl
  · unfold chunk_state_update
    rw [if_pos (by rw [h.buf_len]; exact positive), taken]
    dsimp only
    rw [if_pos more, rest]
    have counted : (compress_buf (chunk_state_fill_buf self piece)).blocks_compressed =
        lastBlock bytes.length + 1 := congrArg (· + 1) h.blocks_compressed
    rw [counted] at moved
    have counter' : (compress_buf (chunk_state_fill_buf self piece)).chunk_counter = counter :=
      h.chunk_counter
    rw [counter'] at moved
    exact moved
  · dsimp only [compress_buf]
    rw [full, flag]
    dsimp only [chunk_state_fill_buf]
    rw [h.blocks_compressed, h.cv, chunkCv, chunkCv_append _ _ _ inside, h.chunk_counter]
  · dsimp only [compress_buf, chunk_state_fill_buf]
    rw [h.blocks_compressed]
    simp only [List.length_append, lastBlock, BLOCK_LEN] at *
    omega

theorem ChunkAt.update {counter : Nat} {bytes residue : QByteArray} {self : ChunkState}
    (h : ChunkAt counter bytes residue self) (piece : QByteArray) :
    ChunkAt counter (bytes ++ piece) (nextResidue bytes piece residue)
      (chunk_state_update self piece) := by
  rw [nextResidue]
  by_cases empty : bytes = []
  · subst empty
    rw [if_neg fun cleared => cleared.1 rfl]
    exact h.update_empty piece
  · by_cases beyond : BLOCK_LEN * lastBlock bytes.length + BLOCK_LEN < bytes.length + piece.length
    · rw [if_pos ⟨empty, beyond⟩]
      exact h.update_beyond empty beyond
    · rw [if_neg fun cleared => beyond cleared.2]
      exact h.update_inside empty (Nat.le_of_not_lt beyond)

end FastTransfer.Blake3
