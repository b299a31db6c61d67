/- FastTransfer/Network/BufferBound
   source: src/network/TcpConnection.cpp, src/network/Protocol.h
   digest: How many bytes the de-framing loop may leave in its buffer. -/

import FastTransfer.Network.TcpConnection
import Mathlib.Logic.Relation

set_option autoImplicit false
set_option relaxedAutoImplicit false

namespace FastTransfer.TcpConnection

open Protocol

/-- `totalPacketSize`, which wraps around. -/
def packetSize (header : ProtocolHeader) : Nat :=
  (UInt64.ofNat kHeaderSize + header.payloadLength).toNat

structure Headed (bytes : QByteArray) : Prop where
  long : kHeaderSize ≤ bytes.length
  magic : (readHeader bytes).magic = PROTOCOL_MAGIC
  size : ¬ Oversized (readHeader bytes)

structure Consumes (bytes rest : QByteArray) : Prop extends Headed bytes where
  whole : packetSize (readHeader bytes) ≤ bytes.length
  left : rest = bytes.drop (packetSize (readHeader bytes))

/-- Some packets off the front of the bytes leave the rest. -/
abbrev Leaves : QByteArray → QByteArray → Prop := Relation.ReflTransGen Consumes

theorem Headed.append {bytes : QByteArray} (h : Headed bytes) (more : QByteArray) :
    Headed (bytes ++ more) := by
  have same := readHeader_append h.long more
  refine ⟨?_, same ▸ h.magic, same ▸ h.size⟩
  rw [List.length_append]
  exact Nat.le_add_right_of_le h.long

theorem Leaves.append {bytes rest : QByteArray} (h : Leaves bytes rest) (more : QByteArray) :
    Leaves (bytes ++ more) (rest ++ more) := by
  induction h with
  | refl => exact .refl
  | @tail middle rest _ last ih =>
      have same := readHeader_append last.long more
      refine ih.tail ⟨last.toHeaded.append more, ?_, ?_⟩
      · rw [same, List.length_append]
        exact Nat.le_add_right_of_le last.whole
      · rw [same, last.left, List.drop_append_of_le_length last.whole]

private theorem Leaves.cut {bytes rest more : QByteArray} (long : kHeaderSize ≤ rest.length)
    (h : Leaves bytes (rest ++ more)) :
    ∃ front, bytes = front ++ more ∧ rest.length ≤ front.length ∧ Leaves front rest := by
  induction h using Relation.ReflTransGen.head_induction_on with
  | refl => exact ⟨rest, rfl, Nat.le_refl _, .refl⟩
  | @head bytes middle first _ ih =>
      obtain ⟨front, eq, shorter, leaves⟩ := ih
      have whole : bytes = bytes.take (packetSize (readHeader bytes)) ++ front ++ more := by
        rw [List.append_assoc, ← eq, first.left, List.take_append_drop]
      have size : (bytes.take (packetSize (readHeader bytes))).length =
          packetSize (readHeader bytes) := by
        rw [List.length_take, Nat.min_eq_left first.whole]
      have enough : kHeaderSize ≤
          (bytes.take (packetSize (readHeader bytes)) ++ front).length := by
        rw [List.length_append]
        omega
      have same : readHeader bytes =
          readHeader (bytes.take (packetSize (readHeader bytes)) ++ front) := by
        conv_lhs => rw [whole]
        exact readHeader_append enough more
      refine ⟨_, whole, ?_, .head ⟨⟨enough, same ▸ first.magic, same ▸ first.size⟩, ?_, ?_⟩ leaves⟩
      · rw [List.length_append]
        omega
      · rw [← same, List.length_append, size]
        exact Nat.le_add_right _ _
      · rw [← same, List.drop_left' size]

structure Waiting (conn : TcpConnection) : Prop extends Tied conn where
  behind : conn.readBuffer.length < kHeaderSize ∨
    Headed conn.readBuffer ∧ conn.readBuffer.length < packetSize (readHeader conn.readBuffer)

theorem turn_cases {self : TcpConnection} (tied : Tied self) :
    (∃ next, turn self = (next, .wait) ∧ Waiting next ∧ next.readBuffer = self.readBuffer) ∨
      (∃ next message, turn self = (next, .reject message) ∧ Tied next) ∨
      ∃ next p, turn self = (next, .packet p) ∧ Tied next ∧
        Consumes self.readBuffer next.readBuffer := by
  rcases parseHeader_cases tied with ⟨short, -, eq⟩ | ⟨-, -, parsed, message, eq⟩ |
    ⟨long, magic, size, eq⟩
  · exact .inl ⟨self, by rw [turn, eq], ⟨tied, .inl short⟩, rfl⟩
  · refine .inr (.inl ⟨_, message, by rw [turn, eq], ?_⟩)
    constructor <;> simp only [parsed, Bool.false_eq_true, false_implies]
  · have headed : Headed self.readBuffer := ⟨long, magic, size⟩
    by_cases short : self.readBuffer.length < packetSize (readHeader self.readBuffer)
    · refine .inl ⟨⟨self.readBuffer, true, readHeader self.readBuffer⟩, ?_, ⟨?_, .inr ⟨headed,
        short⟩⟩, rfl⟩
      · rw [turn, eq]
        exact if_pos short
      · exact ⟨fun _ => long, fun _ => rfl, fun _ => ⟨magic, size⟩⟩
    · let p : Packet := ⟨MessageType.ofRaw (readHeader self.readBuffer).msgType,
        (readHeader self.readBuffer).flags,
        (self.readBuffer.drop kHeaderSize).take (readHeader self.readBuffer).payloadLength.toNat⟩
      refine .inr (.inr ⟨⟨self.readBuffer.drop (packetSize (readHeader self.readBuffer)), false,
        readHeader self.readBuffer⟩, p, ?_, ?_, ⟨headed, Nat.le_of_not_lt short, rfl⟩⟩)
      · rw [turn, eq]
        exact if_neg short
      · exact ⟨fun c => absurd c Bool.false_ne_true, fun c => absurd c Bool.false_ne_true,
          fun c => absurd c Bool.false_ne_true⟩

/-- A loop that reports no error takes packets off and waits. -/
private theorem loop_waits {fuel : Nat} {self next : TcpConnection} {signals : List TcpSignal}
    (tied : Tied self) (run : loop fuel self = some (next, signals))
    (silent : ∀ message, .errorOccurred message ∉ signals) :
    Waiting next ∧ Leaves self.readBuffer next.readBuffer := by
  induction fuel generalizing self signals with
  | zero => cases run
  | succ fuel ih =>
      rw [loop] at run
      rcases turn_cases tied with ⟨mid, eq, waits, same⟩ | ⟨mid, message, eq, -⟩ |
        ⟨mid, p, eq, tied', consumes⟩
      · rw [eq] at run
        cases run
        exact ⟨waits, same ▸ .refl⟩
      · rw [eq] at run
        cases run
        exact absurd List.mem_cons_self (silent message)
      · rw [eq] at run
        obtain ⟨⟨last, later⟩, rest, done⟩ := Option.map_eq_some_iff.mp run
        cases done
        obtain ⟨waits, leaves⟩ := ih tied' rest fun message mem =>
          silent message (List.mem_cons_of_mem _ mem)
        exact ⟨waits, .head consumes leaves⟩

private theorem deliver_waits {reads : List QByteArray} {self next : TcpConnection}
    {signals : List TcpSignal} (waits : Waiting self)
    (run : deliver self reads = some (next, signals))
    (silent : ∀ message, .errorOccurred message ∉ signals) :
    Waiting next ∧ Leaves (self.readBuffer ++ reads.flatten) next.readBuffer := by
  induction reads generalizing self signals with
  | nil =>
      cases run
      rw [List.flatten_nil, List.append_nil]
      exact ⟨waits, .refl⟩
  | cons data reads ih =>
      obtain ⟨⟨mid, now⟩, first, run⟩ := Option.bind_eq_some_iff.mp run
      obtain ⟨⟨last, later⟩, rest, done⟩ := Option.bind_eq_some_iff.mp run
      cases done
      have quiet : ∀ message, .errorOccurred message ∉ now ∧ .errorOccurred message ∉ later :=
        fun message => ⟨fun mem => silent message (List.mem_append_left _ mem),
          fun mem => silent message (List.mem_append_right _ mem)⟩
      have moved : Waiting mid ∧ Leaves (self.readBuffer ++ data) mid.readBuffer := by
        unfold onReadyRead at first
        split at first
        · rename_i empty
          cases first
          rw [empty, List.append_nil]
          exact ⟨waits, .refl⟩
        · exact loop_waits (waits.toTied.append data) first fun message => (quiet message).1
      obtain ⟨waits', leaves⟩ := ih moved.1 rest fun message => (quiet message).2
      rw [List.flatten_cons, ← List.append_assoc]
      exact ⟨waits', (Leaves.append moved.2 reads.flatten).trans leaves⟩

private theorem loop_reaches {bytes rest : QByteArray} (leaves : Leaves bytes rest)
    (waits : Headed rest ∧ rest.length < packetSize (readHeader rest)) :
    ∀ (self : TcpConnection) (fuel : Nat), Tied self → self.readBuffer = bytes →
      bytes.length < fuel → ∃ next signals, loop fuel self = some (next, signals) ∧
        (∀ message, .errorOccurred message ∉ signals) ∧ next.readBuffer = rest := by
  induction leaves using Relation.ReflTransGen.head_induction_on with
  | refl =>
      rintro self fuel tied rfl enough
      obtain ⟨fuel, rfl⟩ := Nat.exists_eq_succ_of_ne_zero (by omega : fuel ≠ 0)
      rcases turn_cases tied with ⟨next, eq, -, same⟩ | ⟨next, message, eq, -⟩ |
        ⟨next, p, eq, -, consumes⟩
      · exact ⟨next, [], by rw [loop, eq], nofun, same⟩
      · rcases parseHeader_cases tied with ⟨short, -⟩ | ⟨-, bad, -⟩ | ⟨-, -, -, parsed⟩
        · exact absurd waits.1.long (Nat.not_le.mpr short)
        · rcases bad with magic | size
          · exact absurd waits.1.magic magic
          · exact absurd size waits.1.size
        · rw [turn, parsed] at eq
          have extracted := congrArg Prod.snd eq
          unfold extract at extracted
          dsimp only at extracted
          split at extracted <;> cases extracted
      · exact absurd consumes.whole (Nat.not_le.mpr waits.2)
  | @head bytes middle first _ ih =>
      rintro self fuel tied rfl enough
      by_cases still : packetSize (readHeader self.readBuffer) = 0
      · refine ih self fuel tied ?_ ?_
        · rw [first.left, still, List.drop_zero]
        · rw [first.left, still, List.drop_zero]
          exact enough
      obtain ⟨fuel, rfl⟩ := Nat.exists_eq_succ_of_ne_zero (by omega : fuel ≠ 0)
      rcases turn_cases tied with ⟨next, eq, waits', same⟩ | ⟨next, message, eq, -⟩ |
        ⟨next, p, eq, tied', consumes⟩
      · rw [← same] at first
        rcases waits'.behind with short | ⟨-, short⟩
        · exact absurd first.long (Nat.not_le.mpr short)
        · exact absurd first.whole (Nat.not_le.mpr short)
      · rcases parseHeader_cases tied with ⟨short, -⟩ | ⟨-, bad, -⟩ | ⟨-, -, -, parsed⟩
        · exact absurd first.long (Nat.not_le.mpr short)
        · rcases bad with magic | size
          · exact absurd first.magic magic
          · exact absurd size first.size
        · rw [turn, parsed] at eq
          have extracted := congrArg Prod.snd eq
          unfold extract at extracted
          dsimp only at extracted
          split at extracted <;> cases extracted
      · have same : next.readBuffer = middle := consumes.left.trans first.left.symm
        have whole := first.whole
        obtain ⟨last, signals, run, silent, left⟩ := ih next fuel tied' same (by
          rw [first.left, List.length_drop]
          omega)
        refine ⟨last, .packetReceived p :: signals, ?_, fun message mem => ?_, left⟩
        · rw [loop, eq]
          simp only [run, Option.map_some]
        · rcases List.mem_cons.mp mem with impossible | later
          · cases impossible
          · exact silent message later

def maxBuffered : Nat :=
  kHeaderSize + max MAX_METADATA_PAYLOAD_SIZE.toNat (MAX_CHUNK_SIZE.toNat + 20)

/-- A chunk header that declares more than a chunk may have, with at least as many bytes behind it
as the buffer should hold. -/
structure Bloated (bytes : QByteArray) : Prop where
  magic : (readHeader bytes).magic = PROTOCOL_MAGIC
  chunk : MessageType.ofRaw (readHeader bytes).msgType = .FileDataChunk
  declared : maxBuffered < packetSize (readHeader bytes)
  length : maxBuffered ≤ bytes.length

private theorem bloated_fills {stream rest : QByteArray} (leaves : Leaves stream rest)
    (bloated : Bloated rest) :
    ∃ reads conn signals, reads.flatten <+: stream ∧ deliver {} reads = some (conn, signals) ∧
      (∀ message, .errorOccurred message ∉ signals) ∧ conn.readBuffer.length = maxBuffered := by
  have limit : maxBuffered = 67108900 := by decide
  -- the one read stops where the buffer is full
  have full : (rest.take maxBuffered).length = maxBuffered := by
    rw [List.length_take, Nat.min_eq_left bloated.length]
  have long : kHeaderSize ≤ (rest.take maxBuffered).length := by
    have : kHeaderSize = 16 := rfl
    omega
  have apart := rest.take_append_drop maxBuffered
  have same := readHeader_append long (rest.drop maxBuffered)
  rw [apart] at same
  rw [← apart] at leaves
  obtain ⟨front, rfl, enough, leaves⟩ := leaves.cut long
  have headed : Headed (rest.take maxBuffered) := by
    refine ⟨long, same ▸ bloated.magic, fun oversized => oversized.2 ?_⟩
    rw [← same]
    exact bloated.chunk
  have behind : (rest.take maxBuffered).length <
      packetSize (readHeader (rest.take maxBuffered)) := by
    rw [← same, full]
    exact bloated.declared
  obtain ⟨conn, signals, run, silent, left⟩ := loop_reaches leaves ⟨headed, behind⟩
    { readBuffer := front } (front.length + 1) (Tied.initial.append front) rfl
    (Nat.lt_succ_self _)
  have nonempty : front ≠ [] := by
    rintro rfl
    rw [List.length_nil] at enough
    omega
  have read : onReadyRead {} front = some (conn, signals) := (if_neg nonempty).trans run
  refine ⟨[front], conn, signals, ?_, ?_, silent, left ▸ full⟩
  · rw [List.flatten_singleton]
    exact List.prefix_append _ _
  · simp only [deliver, read, Option.bind_eq_bind, Option.bind_some, List.append_nil]

/-- However the stream is cut into reads, the buffer stays small as long as no error was reported,
exactly if no packet of the stream is a bloated chunk. -/
theorem buffer_bounded_iff (stream : QByteArray) :
    (∀ (reads : List QByteArray) (conn : TcpConnection) (signals : List TcpSignal),
      reads.flatten <+: stream → deliver {} reads = some (conn, signals) →
      (∀ message, .errorOccurred message ∉ signals) → conn.readBuffer.length < maxBuffered) ↔
    ∀ rest, Leaves stream rest → ¬ Bloated rest := by
  have limit : maxBuffered = 67108900 := by decide
  have sixteen : kHeaderSize = 16 := rfl
  constructor
  · intro bounded rest leaves bloated
    obtain ⟨reads, conn, signals, front, run, silent, full⟩ := bloated_fills leaves bloated
    have small := bounded reads conn signals front run silent
    omega
  · intro plain reads conn signals front run silent
    obtain ⟨more, rfl⟩ := front
    obtain ⟨waits, leaves⟩ := deliver_waits ⟨Tied.initial, .inl (by decide)⟩ run silent
    rw [List.nil_append] at leaves
    by_contra big
    rcases waits.behind with short | ⟨headed, short⟩
    · omega
    refine plain (conn.readBuffer ++ more) (Leaves.append leaves more) ?_
    have same := readHeader_append headed.long more
    have chunk : MessageType.ofRaw (readHeader conn.readBuffer).msgType = .FileDataChunk := by
      by_contra other
      have small : ¬ MAX_METADATA_PAYLOAD_SIZE < (readHeader conn.readBuffer).payloadLength :=
        fun large => headed.size ⟨large, other⟩
      rw [UInt64.lt_iff_toNat_lt] at small
      have most : MAX_METADATA_PAYLOAD_SIZE.toNat = 67108864 := rfl
      have header : (UInt64.ofNat kHeaderSize).toNat = 16 := rfl
      rw [packetSize, UInt64.toNat_add, header] at short
      omega
    constructor
    · exact same ▸ headed.magic
    · exact same ▸ chunk
    · rw [same]
      omega
    · rw [List.length_append]
      omega

def bloatedHeader : ProtocolHeader :=
  ⟨PROTOCOL_MAGIC, MessageType.FileDataChunk.toRaw, 0, 0x100000000⟩

/-- The header of a chunk of four gigabytes, and more bytes than the buffer should hold: they are
all kept. -/
theorem buffer_unbounded :
    ¬ ∀ (reads : List QByteArray) (conn : TcpConnection) (signals : List TcpSignal),
      reads.flatten <+: headerBytes bloatedHeader ++ List.replicate maxBuffered 0 →
      deliver {} reads = some (conn, signals) →
      (∀ message, .errorOccurred message ∉ signals) →
      conn.readBuffer.length < maxBuffered := by
  intro bounded
  have header := readHeader_headerBytes bloatedHeader (List.replicate maxBuffered 0)
  have bloated : Bloated (headerBytes bloatedHeader ++ List.replicate maxBuffered 0) := by
    constructor
    · rw [header, bloatedHeader]
    · rw [header]
      exact MessageType.ofRaw_toRaw .FileDataChunk
    · rw [header]
      decide
    · rw [List.length_append, List.length_replicate]
      exact Nat.le_add_left _ _
  obtain ⟨reads, conn, signals, front, run, silent, full⟩ := bloated_fills .refl bloated
  exact absurd (bounded reads conn signals front run silent) (full ▸ Nat.lt_irrefl _)

end FastTransfer.TcpConnection
