/- FastTransfer/Integrity/Blake3
   source: third_party/blake3/blake3.h, blake3_impl.h, blake3.c, blake3_portable.c
   digest: The vendored BLAKE3 hasher, unkeyed, and the interface the sources use of it. -/

import FastTransfer.Qt.QString
import Mathlib.Algebra.Group.Nat.Defs

set_option autoImplicit false
set_option relaxedAutoImplicit false

namespace FastTransfer

/-- A streaming hasher with a 32-byte digest, as `Blake3Hasher` uses one. -/
structure Blake3 where
  State : Type
  init : State
  update : State → QByteArray → State
  finalize : State → QByteArray
  finalize_length : ∀ s, (finalize s).length = 32

namespace Blake3

def BLOCK_LEN : Nat := 64

def CHUNK_LEN : Nat := 1024

def CHUNK_START : UInt32 := 1

def CHUNK_END : UInt32 := 2

def PARENT : UInt32 := 4

def ROOT : UInt32 := 8

abbrev Words8 := Vector UInt32 8

abbrev Words16 := Vector UInt32 16

def IV : Words8 :=
  #v[0x6A09E667, 0xBB67AE85, 0x3C6EF372, 0xA54FF53A, 0x510E527F, 0x9B05688C, 0x1F83D9AB,
    0x5BE0CD19]

def MSG_PERMUTATION : Vector (Fin 16) 16 :=
  #v[2, 6, 3, 10, 7, 0, 4, 13, 1, 11, 12, 5, 9, 14, 15, 8]

def rotr32 (w c : UInt32) : UInt32 := (w >>> c) ||| (w <<< (32 - c))

def g (state : Words16) (a b c d : Fin 16) (mx my : UInt32) : Words16 :=
  let state := state.set a (state[a] + state[b] + mx)
  let state := state.set d (rotr32 (state[d] ^^^ state[a]) 16)
  let state := state.set c (state[c] + state[d])
  let state := state.set b (rotr32 (state[b] ^^^ state[c]) 12)
  let state := state.set a (state[a] + state[b] + my)
  let state := state.set d (rotr32 (state[d] ^^^ state[a]) 8)
  let state := state.set c (state[c] + state[d])
  state.set b (rotr32 (state[b] ^^^ state[c]) 7)

def round_fn (state msg : Words16) : Words16 :=
  let state := g state 0 4 8 12 msg[0] msg[1]
  let state := g state 1 5 9 13 msg[2] msg[3]
  let state := g state 2 6 10 14 msg[4] msg[5]
  let state := g state 3 7 11 15 msg[6] msg[7]
  let state := g state 0 5 10 15 msg[8] msg[9]
  let state := g state 1 6 11 12 msg[10] msg[11]
  let state := g state 2 7 8 13 msg[12] msg[13]
  g state 3 4 9 14 msg[14] msg[15]

def permute (m : Words16) : Words16 := MSG_PERMUTATION.map fun i => m[i]

/-- A round on each message schedule, with a permutation between two rounds. -/
def rounds : Nat → Words16 → Words16 → Words16
  | 0, state, _ => state
  | 1, state, msg => round_fn state msg
  | n + 2, state, msg => rounds (n + 1) (round_fn state msg) (permute msg)

/-- `memcpy` of little-endian words; missing bytes read as zero. -/
def loadWord (bytes : QByteArray) : UInt32 :=
  match bytes with
  | b0 :: b1 :: b2 :: b3 :: _ =>
      b0.toUInt32 ||| (b1.toUInt32 <<< 8) ||| (b2.toUInt32 <<< 16) ||| (b3.toUInt32 <<< 24)
  | _ => 0

def storeWord (w : UInt32) : QByteArray :=
  [w.toUInt8, (w >>> 8).toUInt8, (w >>> 16).toUInt8, (w >>> 24).toUInt8]

def loadWords (n : Nat) (bytes : QByteArray) : Vector UInt32 n :=
  Vector.ofFn fun i => loadWord (bytes.drop (4 * i))

def storeWords {n : Nat} (words : Vector UInt32 n) : QByteArray := words.toList.flatMap storeWord

def compress_pre (cv : Words8) (block : QByteArray) (block_len counter : Nat) (flags : UInt32) :
    Words16 :=
  let state : Words16 :=
    #v[cv[0], cv[1], cv[2], cv[3], cv[4], cv[5], cv[6], cv[7], IV[0], IV[1], IV[2], IV[3],
      UInt32.ofNat counter, UInt32.ofNat (counter / 2 ^ 32), UInt32.ofNat block_len, flags]
  rounds 7 state (loadWords 16 block)

def compress_in_place (cv : Words8) (block : QByteArray) (block_len counter : Nat)
    (flags : UInt32) : Words8 :=
  let state := compress_pre cv block block_len counter flags
  Vector.ofFn fun i => state[i.val] ^^^ state[i.val + 8]

def compress_xof (cv : Words8) (block : QByteArray) (block_len counter : Nat) (flags : UInt32) :
    QByteArray :=
  let state := compress_pre cv block block_len counter flags
  storeWords (compress_in_place cv block block_len counter flags) ++
    storeWords (Vector.ofFn fun i : Fin 8 => state[i.val + 8] ^^^ cv[i])

/-- `blake3_chunk_state`; the buffer always holds 64 bytes. -/
structure ChunkState where
  cv : Words8
  chunk_counter : Nat
  buf : QByteArray
  buf_len : Nat
  blocks_compressed : Nat

/-- `blake3_hasher` keyed with `IV`; the stack holds 32-byte chaining values, top first. -/
structure Hasher where
  chunk : ChunkState
  cv_stack : List QByteArray

def chunk_state_init : ChunkState := ⟨IV, 0, List.replicate BLOCK_LEN 0, 0, 0⟩

/-- Unlike `chunk_state_init`, this leaves the bytes of `buf` in place. -/
def chunk_state_reset (self : ChunkState) (chunk_counter : Nat) : ChunkState :=
  { self with cv := IV, chunk_counter := chunk_counter, buf_len := 0, blocks_compressed := 0 }

def chunk_state_len (self : ChunkState) : Nat := BLOCK_LEN * self.blocks_compressed + self.buf_len

def fill_take (self : ChunkState) (input : QByteArray) : Nat :=
  min (BLOCK_LEN - self.buf_len) input.length

def chunk_state_fill_buf (self : ChunkState) (input : QByteArray) : ChunkState :=
  let take := fill_take self input
  { self with
    buf := self.buf.take self.buf_len ++ input.take take ++ self.buf.drop (self.buf_len + take)
    buf_len := self.buf_len + take }

def chunk_state_maybe_start_flag (self : ChunkState) : UInt32 :=
  if self.blocks_compressed = 0 then CHUNK_START else 0

/-- `while (input_len > BLAKE3_BLOCK_LEN)`: whole blocks go straight from the input, and a
last block stays behind. -/
def compress_blocks : Nat → ChunkState → QByteArray → ChunkState × QByteArray
  | 0, self, input => (self, input)
  | fuel + 1, self, input =>
      if BLOCK_LEN < input.length then
        compress_blocks fuel
          { self with
            cv := compress_in_place self.cv (input.take BLOCK_LEN) BLOCK_LEN self.chunk_counter
              (chunk_state_maybe_start_flag self)
            blocks_compressed := self.blocks_compressed + 1 }
          (input.drop BLOCK_LEN)
      else (self, input)

/-- The buffered block, once full and followed by more input, is compressed and cleared. -/
def compress_buf (self : ChunkState) : ChunkState :=
  { self with
    cv := compress_in_place self.cv self.buf BLOCK_LEN self.chunk_counter
      (chunk_state_maybe_start_flag self)
    blocks_compressed := self.blocks_compressed + 1
    buf_len := 0
    buf := List.replicate BLOCK_LEN 0 }

def chunk_state_update (self : ChunkState) (input : QByteArray) : ChunkState :=
  let filled :=
    if 0 < self.buf_len then
      let rest := input.drop (fill_take self input)
      let self := chunk_state_fill_buf self input
      if rest ≠ [] then (compress_buf self, rest) else (self, rest)
    else (self, input)
  let blocks := compress_blocks filled.2.length filled.1 filled.2
  chunk_state_fill_buf blocks.1 blocks.2

structure Output where
  input_cv : Words8
  counter : Nat
  block : QByteArray
  block_len : Nat
  flags : UInt32

def chunk_state_output (self : ChunkState) : Output :=
  ⟨self.cv, self.chunk_counter, self.buf, self.buf_len,
    chunk_state_maybe_start_flag self ||| CHUNK_END⟩

def parent_output (block : QByteArray) : Output := ⟨IV, 0, block, BLOCK_LEN, PARENT⟩

def output_chaining_value (self : Output) : QByteArray :=
  storeWords (compress_in_place self.input_cv self.block self.block_len self.counter self.flags)

def output_root_bytes (self : Output) : QByteArray :=
  (compress_xof self.input_cv self.block self.block_len 0 (self.flags ||| ROOT)).take 32

def hasher_init : Hasher := ⟨chunk_state_init, []⟩

/-- Merge while the number of chunks so far is even. -/
def hasher_push_cv : List QByteArray → QByteArray → Nat → List QByteArray
  | [], new_cv, _ => [new_cv]
  | top :: stack, new_cv, chunk_counter =>
      if chunk_counter % 2 = 0 then
        hasher_push_cv stack (output_chaining_value (parent_output (top ++ new_cv)))
          (chunk_counter / 2)
      else new_cv :: top :: stack

/-- A full chunk leaves the chunk state when more input arrives. -/
def hasher_next_chunk (self : Hasher) : Hasher :=
  if chunk_state_len self.chunk = CHUNK_LEN then
    let total_chunks := self.chunk.chunk_counter + 1
    { chunk := chunk_state_reset self.chunk total_chunks
      cv_stack := hasher_push_cv self.cv_stack
        (output_chaining_value (chunk_state_output self.chunk)) total_chunks }
  else self

/-- `while (input_len > 0)`; every iteration takes at least one byte. -/
def hasher_update_loop : Nat → Hasher → QByteArray → Hasher
  | 0, self, _ => self
  | fuel + 1, self, input =>
      if input = [] then self
      else
        let self := hasher_next_chunk self
        let take := min (CHUNK_LEN - chunk_state_len self.chunk) input.length
        hasher_update_loop fuel
          { self with chunk := chunk_state_update self.chunk (input.take take) }
          (input.drop take)

def hasher_update (self : Hasher) (input : QByteArray) : Hasher :=
  hasher_update_loop input.length self input

/-- The stack is folded into the output of the last chunk from the top down. -/
def hasher_finalize (self : Hasher) : QByteArray :=
  output_root_bytes (self.cv_stack.foldl
    (fun output cv => parent_output (cv ++ output_chaining_value output))
    (chunk_state_output self.chunk))

theorem storeWords_length {n : Nat} (words : Vector UInt32 n) :
    (storeWords words).length = 4 * n := by
  have each : ∀ l : List UInt32, (l.flatMap storeWord).length = 4 * l.length := by
    intro l
    induction l with
    | nil => rfl
    | cons w l ih =>
        simp only [List.flatMap_cons, List.length_append, ih, storeWord, List.length_cons,
          List.length_nil]
        omega
  rw [storeWords, each, Vector.length_toList]

theorem output_root_bytes_length (self : Output) : (output_root_bytes self).length = 32 := by
  simp [output_root_bytes, compress_xof, storeWords_length]

/-- The hasher the program links. -/
def vendored : Blake3 where
  State := Hasher
  init := hasher_init
  update := hasher_update
  finalize := hasher_finalize
  finalize_length _ := output_root_bytes_length _

end Blake3

end FastTransfer
