/- FastTransfer/Network/Progress
   source: src/network/TcpConnection.cpp, src/network/Protocol.h
   digest: When the de-framing loop ends, and takes a header's worth of bytes with every packet. -/

import FastTransfer.Network.BufferBound

set_option autoImplicit false
set_option relaxedAutoImplicit false

namespace FastTransfer.TcpConnection

open Protocol

/-- An iteration of the loop emits a packet and leaves another state. -/
def Emits (self next : TcpConnection) : Prop := ∃ p, turn self = (next, .packet p)

/-- The states in which an iteration of `onReadyRead` begins. -/
def Iterates (self : TcpConnection) (data : QByteArray) (next : TcpConnection) : Prop :=
  data ≠ [] ∧
    Relation.ReflTransGen Emits { self with readBuffer := self.readBuffer ++ data } next

/-- The read ends, and every packet it emits takes the size of a header at least. -/
structure Progress (conn : TcpConnection) (data : QByteArray) : Prop where
  ends : ∃ result, onReadyRead conn data = some result
  removes : ∀ mid next, Iterates conn data mid → Emits mid next →
    next.readBuffer.length + kHeaderSize ≤ mid.readBuffer.length

/-- The bytes start with a header that is not refused, of a packet whose size wraps around. -/
structure Wraps (bytes : QByteArray) : Prop extends Headed bytes where
  declared : 2 ^ 64 - 16 ≤ (readHeader bytes).payloadLength.toNat

/-- Somewhere behind acceptable packets there is a header of a packet whose size wraps around. -/
def Overflows (bytes : QByteArray) : Prop :=
  ∃ (packets : List Packet) (rest : QByteArray), (∀ p ∈ packets, p.Acceptable) ∧
    bytes = packets.flatMap Packet.bytes ++ rest ∧ Wraps rest

private theorem packetSize_eq (header : ProtocolHeader) :
    packetSize header = (kHeaderSize + header.payloadLength.toNat) % 2 ^ 64 := by
  have sixteen : (UInt64.ofNat kHeaderSize).toNat = kHeaderSize := rfl
  rw [packetSize, UInt64.toNat_add, sixteen]

private theorem Wraps.short {bytes : QByteArray} (h : Wraps bytes) :
    packetSize (readHeader bytes) < kHeaderSize := by
  have declared := h.declared
  have bound := (readHeader bytes).payloadLength.toNat_lt
  have sixteen : kHeaderSize = 16 := rfl
  rw [packetSize_eq]
  omega

private theorem Consumes.packet {bytes rest : QByteArray} (h : Consumes bytes rest)
    (sane : ¬ Wraps bytes) :
    rest.length + kHeaderSize ≤ bytes.length ∧
      ∃ p : Packet, p.Acceptable ∧ bytes = p.bytes ++ rest := by
  have declared : (readHeader bytes).payloadLength.toNat < 2 ^ 64 - 16 := by
    by_contra large
    exact sane ⟨h.toHeaded, Nat.le_of_not_lt large⟩
  have size : packetSize (readHeader bytes) =
      kHeaderSize + (readHeader bytes).payloadLength.toNat := by
    have sixteen : kHeaderSize = 16 := rfl
    rw [packetSize_eq]
    omega
  have whole := h.whole
  rw [size] at whole
  constructor
  · rw [h.left, size, List.length_drop]
    omega
  · have sound : ¬ ((readHeader bytes).magic ≠ PROTOCOL_MAGIC ∨ Oversized (readHeader bytes)) := by
      simp [h.magic, h.size]
    have complete : ¬ (bytes.length < kHeaderSize + (readHeader bytes).payloadLength.toNat ∨
        2 ^ 64 - 16 ≤ (readHeader bytes).payloadLength.toNat) := by
      omega
    have word : front bytes = .word ⟨MessageType.ofRaw (readHeader bytes).msgType,
        (readHeader bytes).flags,
        (bytes.drop kHeaderSize).take (readHeader bytes).payloadLength.toNat⟩ rest := by
      simp only [front, if_neg (Nat.not_lt.mpr h.long), if_neg sound, if_neg complete, h.left, size]
    exact ⟨_, front_sound word⟩

private theorem Emits.consumes {self next : TcpConnection} (tied : Tied self)
    (h : Emits self next) : Tied next ∧ Consumes self.readBuffer next.readBuffer := by
  obtain ⟨p, emits⟩ := h
  rcases turn_cases tied with ⟨other, eq, -⟩ | ⟨other, message, eq, -⟩ | ⟨other, q, eq, tied', takes⟩
  · rw [eq] at emits
    cases emits
  · rw [eq] at emits
    cases emits
  · rw [eq] at emits
    cases emits
    exact ⟨tied', takes⟩

private theorem Wraps.emits {self : TcpConnection} (tied : Tied self)
    (h : Wraps self.readBuffer) :
    ∃ next p, turn self = (next, .packet p) ∧ Tied next ∧
      next.readBuffer = self.readBuffer.drop (packetSize (readHeader self.readBuffer)) := by
  have long := h.long
  rcases parseHeader_cases tied with ⟨short, -⟩ | ⟨-, bad, -⟩ | ⟨-, -, -, parsed⟩
  · omega
  · rcases bad with magic | oversized
    · exact absurd h.magic magic
    · exact absurd oversized h.toHeaded.size
  · have short := h.short
    have whole : ¬ self.readBuffer.length < packetSize (readHeader self.readBuffer) := by omega
    refine ⟨⟨self.readBuffer.drop (packetSize (readHeader self.readBuffer)), false,
      readHeader self.readBuffer⟩, ⟨MessageType.ofRaw (readHeader self.readBuffer).msgType,
        (readHeader self.readBuffer).flags, (self.readBuffer.drop kHeaderSize).take
          (readHeader self.readBuffer).payloadLength.toNat⟩, ?_, ?_, rfl⟩
    · rw [turn, parsed]
      exact if_neg whole
    · constructor <;> simp only [Bool.false_eq_true, false_implies]

theorem loop_endless {bytes : QByteArray} (wraps : Wraps bytes)
    (nothing : packetSize (readHeader bytes) = 0) (fuel : Nat) :
    ∀ self : TcpConnection, Tied self → self.readBuffer = bytes → loop fuel self = none := by
  induction fuel with
  | zero =>
      intro self _ _
      rfl
  | succ fuel ih =>
      rintro self tied rfl
      obtain ⟨next, p, eq, tied', left⟩ := wraps.emits tied
      rw [nothing, List.drop_zero] at left
      rw [loop, eq]
      simp only [ih next tied' left, Option.map_none]

private theorem emitted {self mid : TcpConnection} (tied : Tied self)
    (sane : ¬ Overflows self.readBuffer) (run : Relation.ReflTransGen Emits self mid) :
    Tied mid ∧ ∃ packets : List Packet, (∀ p ∈ packets, p.Acceptable) ∧
      self.readBuffer = packets.flatMap Packet.bytes ++ mid.readBuffer := by
  induction run with
  | refl => exact ⟨tied, [], List.forall_mem_nil _, rfl⟩
  | @tail mid next _ step ih =>
      obtain ⟨tied', packets, valid, split⟩ := ih
      obtain ⟨tied'', takes⟩ := step.consumes tied'
      obtain ⟨-, p, valid', front⟩ :=
        takes.packet fun wraps => sane ⟨packets, mid.readBuffer, valid, split, wraps⟩
      refine ⟨tied'', packets ++ [p], ?_, ?_⟩
      · intro q mem
        rcases List.mem_append.mp mem with early | late
        · exact valid q early
        · rw [List.mem_singleton.mp late]
          exact valid'
      · rw [List.flatMap_append, List.flatMap_singleton, List.append_assoc, ← front]
        exact split

private theorem emits_all {packets : List Packet} (valid : ∀ p ∈ packets, p.Acceptable) :
    ∀ {self : TcpConnection} {rest : QByteArray}, Tied self →
      self.readBuffer = packets.flatMap Packet.bytes ++ rest →
      ∃ mid, Relation.ReflTransGen Emits self mid ∧ Tied mid ∧ mid.readBuffer = rest := by
  induction packets with
  | nil =>
      intro self rest tied split
      exact ⟨self, .refl, tied, split⟩
  | cons p packets ih =>
      intro self rest tied split
      have word : front self.readBuffer = .word p (packets.flatMap Packet.bytes ++ rest) := by
        rw [split, List.flatMap_cons, List.append_assoc]
        exact front_bytes (valid p List.mem_cons_self) _
      obtain ⟨next, emits, tied', left⟩ := turn_word tied word
      obtain ⟨mid, run, tied'', done⟩ :=
        ih (fun q mem => valid q (List.mem_cons_of_mem p mem)) tied' left
      exact ⟨mid, .head ⟨p, emits⟩ run, tied'', done⟩

private theorem loop_ends {self : TcpConnection} {fuel : Nat} (tied : Tied self)
    (enough : self.readBuffer.length < fuel)
    (removes : ∀ mid next, Relation.ReflTransGen Emits self mid → Emits mid next →
      next.readBuffer.length + kHeaderSize ≤ mid.readBuffer.length) :
    ∃ result, loop fuel self = some result := by
  induction fuel generalizing self with
  | zero => omega
  | succ fuel ih =>
      rw [loop]
      rcases turn_cases tied with ⟨next, eq, -⟩ | ⟨next, message, eq, -⟩ | ⟨next, p, eq, tied', -⟩
      · exact ⟨(next, []), by rw [eq]⟩
      · exact ⟨(next, [.errorOccurred message]), by rw [eq]⟩
      · have step : Emits self next := ⟨p, eq⟩
        have shorter := removes self next .refl step
        have sixteen : kHeaderSize = 16 := rfl
        obtain ⟨result, run⟩ := ih tied' (by omega) fun mid last reached emits =>
          removes mid last (.head step reached) emits
        refine ⟨(result.1, .packetReceived p :: result.2), ?_⟩
        rw [eq]
        simp only [run, Option.map_some]

private theorem loop_tied {fuel : Nat} {self next : TcpConnection} {signals : List TcpSignal}
    (tied : Tied self) (run : loop fuel self = some (next, signals)) : Tied next := by
  induction fuel generalizing self signals with
  | zero => cases run
  | succ fuel ih =>
      rw [loop] at run
      rcases turn_cases tied with ⟨mid, eq, waits, -⟩ | ⟨mid, message, eq, tied'⟩ |
        ⟨mid, p, eq, tied', -⟩
      · rw [eq] at run
        cases run
        exact waits.toTied
      · rw [eq] at run
        cases run
        exact tied'
      · rw [eq] at run
        obtain ⟨⟨last, later⟩, rest, done⟩ := Option.map_eq_some_iff.mp run
        cases done
        exact ih tied' rest

theorem deliver_tied {reads : List QByteArray} {self next : TcpConnection}
    {signals : List TcpSignal} (tied : Tied self)
    (run : deliver self reads = some (next, signals)) : Tied next := by
  induction reads generalizing self signals with
  | nil =>
      cases run
      exact tied
  | cons data reads ih =>
      obtain ⟨⟨mid, now⟩, first, run⟩ := Option.bind_eq_some_iff.mp run
      obtain ⟨⟨last, later⟩, rest, done⟩ := Option.bind_eq_some_iff.mp run
      cases done
      apply ih _ rest
      unfold onReadyRead at first
      split at first
      · cases first
        exact tied
      · exact loop_tied (tied.append data) first

/-- In every state that reads lead to, the next read makes progress exactly if no size behind the
acceptable packets at the front of the buffer wraps around. -/
theorem progress_iff (self : TcpConnection) (data : QByteArray) :
    (∀ (reads : List QByteArray) (signals : List TcpSignal),
      deliver {} reads = some (self, signals) → Tied self) ∧
    (Tied self → (Progress self data ↔ data = [] ∨ ¬ Overflows (self.readBuffer ++ data))) := by
  constructor
  · intro reads signals run
    exact deliver_tied Tied.initial run
  intro tied
  constructor
  · intro progress
    by_cases empty : data = []
    · exact .inl empty
    refine .inr ?_
    rintro ⟨packets, rest, valid, split, wraps⟩
    obtain ⟨mid, run, tied', rfl⟩ := emits_all valid (tied.append data) split
    obtain ⟨next, p, eq, -, left⟩ := wraps.emits tied'
    have short := wraps.short
    have long := wraps.long
    have removes := progress.removes mid next ⟨empty, run⟩ ⟨p, eq⟩
    rw [left, List.length_drop] at removes
    omega
  · rintro (rfl | sane)
    · refine ⟨⟨_, if_pos rfl⟩, ?_⟩
      intro mid next iterates
      exact absurd rfl iterates.1
    · have removes : ∀ mid next, Relation.ReflTransGen Emits
          { self with readBuffer := self.readBuffer ++ data } mid → Emits mid next →
          next.readBuffer.length + kHeaderSize ≤ mid.readBuffer.length := by
        intro mid next run emits
        obtain ⟨tied', packets, valid, split⟩ := emitted (tied.append data) sane run
        obtain ⟨-, takes⟩ := emits.consumes tied'
        exact (takes.packet fun wraps => sane ⟨packets, _, valid, split, wraps⟩).1
      refine ⟨?_, ?_⟩
      · by_cases empty : data = []
        · exact ⟨_, if_pos empty⟩
        · rw [onReadyRead, if_neg empty]
          exact loop_ends (tied.append data) (Nat.lt_succ_self _) removes
      · intro mid next iterates emits
        exact removes mid next iterates.2 emits

/-- A handshake request of one byte, on a new connection. -/
theorem progress_handshake :
    Progress {} (⟨.HandshakeReq, 0, [0x7B]⟩ : Packet).bytes := by
  refine ((progress_iff {} _).2 Tied.initial).mpr (.inr ?_)
  rintro ⟨packets, rest, valid, split, wraps⟩
  have size := congrArg List.length split
  have declared := wraps.declared
  have long := wraps.long
  have sixteen : kHeaderSize = 16 := rfl
  cases packets with
  | nil =>
      simp only [List.flatMap_nil, List.nil_append] at split
      rw [← split] at declared
      revert declared
      decide
  | cons p packets =>
      simp only [Packet.bytes, createPacket, List.flatMap_cons, List.length_append,
        headerBytes_length, List.length_cons, List.length_nil] at size
      omega

def wrappedHeader : ProtocolHeader :=
  ⟨PROTOCOL_MAGIC, MessageType.FileDataChunk.toRaw, 0, 0xFFFFFFFFFFFFFFF0⟩

/-- The loop emits the packet of such a header without end, and takes nothing off the buffer. -/
theorem progress_stalls :
    Tied {} ∧ (∀ fuel, loop fuel { readBuffer := headerBytes wrappedHeader } = none) ∧
      onReadyRead {} (headerBytes wrappedHeader) = none ∧
      ¬ Progress {} (headerBytes wrappedHeader) := by
  have header : readHeader (headerBytes wrappedHeader) = wrappedHeader := by decide
  have wraps : Wraps (headerBytes wrappedHeader) := by
    refine ⟨⟨by decide, ?_, ?_⟩, ?_⟩
    · rw [header]
      rfl
    · rw [header]
      decide
    · rw [header]
      decide
  have nothing : packetSize (readHeader (headerBytes wrappedHeader)) = 0 := by
    rw [header]
    decide
  have endless : ∀ fuel, loop fuel { readBuffer := headerBytes wrappedHeader } = none := by
    intro fuel
    exact loop_endless wraps nothing fuel _ (Tied.initial.append (headerBytes wrappedHeader)) rfl
  have stuck : onReadyRead {} (headerBytes wrappedHeader) = none := by
    rw [onReadyRead, if_neg (by decide)]
    exact endless _
  refine ⟨Tied.initial, endless, stuck, ?_⟩
  intro progress
  obtain ⟨result, run⟩ := progress.ends
  rw [stuck] at run
  cases run

end FastTransfer.TcpConnection
