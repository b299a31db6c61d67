/- FastTransfer/Network/TcpConnection
   source: src/network/TcpConnection.h, src/network/TcpConnection.cpp
   digest: The de-framing loop, and its independence of how the stream is cut into reads. -/

import FastTransfer.Library.PrefixCode
import FastTransfer.Network.Protocol

set_option autoImplicit false
set_option relaxedAutoImplicit false

namespace FastTransfer

open QString (literal)
open Protocol

structure TcpConnection where
  readBuffer : QByteArray := []
  headerParsed : Bool := false
  currentHeader : ProtocolHeader := {}
  deriving DecidableEq

/-- The signals of `onReadyRead`. With every error the socket is told to disconnect. -/
inductive TcpSignal
  | packetReceived (p : Packet)
  | errorOccurred (message : QString)
  deriving DecidableEq

def TcpSignal.packet? : TcpSignal → Option Packet
  | packetReceived p => some p
  | errorOccurred _ => none

def received (signals : List TcpSignal) : List Packet := signals.filterMap TcpSignal.packet?

namespace TcpConnection

inductive Turn
  | wait
  | reject (message : QString)
  | packet (p : Packet)

def invalidMagic : QString :=
  literal "Invalid protocol magic header received. Closing connection."

def oversizedMessage : QString := literal "Oversized protocol message rejected."

/-- A metadata message beyond the size limit. -/
def Oversized (header : ProtocolHeader) : Prop :=
  MAX_METADATA_PAYLOAD_SIZE < header.payloadLength ∧
    MessageType.ofRaw header.msgType ≠ .FileDataChunk

instance (header : ProtocolHeader) : Decidable (Oversized header) := by
  unfold Oversized
  infer_instance

/-- The part of a turn before the payload is looked for; it may end the turn. -/
def parseHeader (self : TcpConnection) : TcpConnection × Option Turn :=
  if self.headerParsed then (self, none)
  else if self.readBuffer.length < kHeaderSize then (self, some .wait)
  else
    let self := { self with currentHeader := readHeader self.readBuffer }
    if self.currentHeader.magic ≠ PROTOCOL_MAGIC then (self, some (.reject invalidMagic))
    else if Oversized self.currentHeader then (self, some (.reject oversizedMessage))
    else ({ self with headerParsed := true }, none)

/-- The part of a turn behind the header. A payload length beyond `qsizetype` is negative as an
argument of `mid`, which then takes the rest of the buffer, as `take` does. -/
def extract (self : TcpConnection) : TcpConnection × Turn :=
  let totalPacketSize := UInt64.ofNat kHeaderSize + self.currentHeader.payloadLength
  if self.readBuffer.length < totalPacketSize.toNat then (self, .wait)
  else
    let payload :=
      (self.readBuffer.drop kHeaderSize).take self.currentHeader.payloadLength.toNat
    ({ self with
        readBuffer := self.readBuffer.drop totalPacketSize.toNat, headerParsed := false },
      .packet ⟨MessageType.ofRaw self.currentHeader.msgType, self.currentHeader.flags, payload⟩)

def turn (self : TcpConnection) : TcpConnection × Turn :=
  match parseHeader self with
  | (self, some t) => (self, t)
  | (self, none) => extract self

/-- `while (true)`. A turn that extracts a packet removes bytes, or the loop never ends because
the total size has wrapped around to zero; so `none` is an endless loop. -/
def loop : Nat → TcpConnection → Option (TcpConnection × List TcpSignal)
  | 0, _ => none
  | fuel + 1, self =>
      match turn self with
      | (self, .wait) => some (self, [])
      | (self, .reject message) => some (self, [.errorOccurred message])
      | (self, .packet p) => (loop fuel self).map fun r => (r.1, .packetReceived p :: r.2)

def onReadyRead (self : TcpConnection) (available : QByteArray) :
    Option (TcpConnection × List TcpSignal) :=
  if available = [] then some (self, [])
  else
    let self := { self with readBuffer := self.readBuffer ++ available }
    loop (self.readBuffer.length + 1) self

/-- Reads delivered in order, with all the signals they cause. -/
def deliver : TcpConnection → List QByteArray → Option (TcpConnection × List TcpSignal)
  | self, [] => some (self, [])
  | self, data :: reads => do
      let (self, signals) ← onReadyRead self data
      let (self, later) ← deliver self reads
      some (self, signals ++ later)

end TcpConnection

/-- `sendPacket` puts these bytes on the wire. -/
def Packet.bytes (p : Packet) : QByteArray := createPacket p.type p.payload p.flags

/-- A packet the other end takes: within the size limit, or file data whose total size does not
wrap around. -/
def Packet.Acceptable (p : Packet) : Prop :=
  p.payload.length ≤ MAX_METADATA_PAYLOAD_SIZE.toNat ∨
    (p.type = .FileDataChunk ∧ p.payload.length < 2 ^ 64 - 16)

namespace TcpConnection

/-- The first packet of a stream, by its header and the bytes behind it. -/
def front (bytes : QByteArray) : Front UInt8 Packet :=
  let header := readHeader bytes
  if bytes.length < kHeaderSize then .more
  else if header.magic ≠ PROTOCOL_MAGIC ∨ Oversized header then .refuse
  else if bytes.length < kHeaderSize + header.payloadLength.toNat ∨
      2 ^ 64 - 16 ≤ header.payloadLength.toNat then .more
  else .word
    ⟨MessageType.ofRaw header.msgType, header.flags,
      (bytes.drop kHeaderSize).take header.payloadLength.toNat⟩
    (bytes.drop (kHeaderSize + header.payloadLength.toNat))

private theorem acceptable_length {p : Packet} (h : p.Acceptable) :
    p.payload.length < 2 ^ 64 - 16 := by
  rcases h with h | h
  · have limit : MAX_METADATA_PAYLOAD_SIZE.toNat = 67108864 := rfl
    omega
  · exact h.2

private theorem size_toNat {n : Nat} (h : n < 2 ^ 64 - 16) : (UInt64.ofNat n).toNat = n := by
  have size : n < UInt64.size := by
    rw [UInt64.size]
    omega
  exact UInt64.toNat_ofNat_of_lt' size

private theorem acceptable_iff {p : Packet} (h : p.payload.length < 2 ^ 64 - 16) :
    p.Acceptable ↔
      ¬ Oversized ⟨PROTOCOL_MAGIC, p.type.toRaw, p.flags, UInt64.ofNat p.payload.length⟩ := by
  simp only [Packet.Acceptable, Oversized, UInt64.lt_iff_toNat_lt, size_toNat h,
    MessageType.ofRaw_toRaw, not_and_or, not_lt, not_not, h, and_true]

theorem front_bytes {p : Packet} (h : p.Acceptable) (rest : QByteArray) :
    front (p.bytes ++ rest) = .word p rest := by
  have bound := acceptable_length h
  have len := size_toNat bound
  have header : readHeader (p.bytes ++ rest) =
      ⟨PROTOCOL_MAGIC, p.type.toRaw, p.flags, UInt64.ofNat p.payload.length⟩ := by
    rw [Packet.bytes, createPacket, List.append_assoc, readHeader_headerBytes]
  have total : (p.bytes ++ rest).length = kHeaderSize + p.payload.length + rest.length := by
    simp only [Packet.bytes, createPacket, List.length_append, headerBytes_length]
  have behind : (p.bytes ++ rest).drop kHeaderSize = p.payload ++ rest := by
    rw [Packet.bytes, createPacket, List.append_assoc, List.drop_left' (headerBytes_length _)]
  have beyond : (p.bytes ++ rest).drop (kHeaderSize + p.payload.length) = rest := by
    rw [← List.drop_drop, behind, List.drop_left]
  have long : ¬ (p.bytes ++ rest).length < kHeaderSize := by omega
  have complete : ¬ ((p.bytes ++ rest).length < kHeaderSize + p.payload.length ∨
      2 ^ 64 - 16 ≤ p.payload.length) := by omega
  have sound : ¬ (PROTOCOL_MAGIC ≠ PROTOCOL_MAGIC ∨
      Oversized ⟨PROTOCOL_MAGIC, p.type.toRaw, p.flags, UInt64.ofNat p.payload.length⟩) := by
    simpa using (acceptable_iff bound).mp h
  simp only [front, header, len, if_neg long, if_neg complete, if_neg sound, behind, beyond,
    List.take_left, MessageType.ofRaw_toRaw]

theorem front_sound {bytes rest : QByteArray} {p : Packet}
    (h : front bytes = .word p rest) : p.Acceptable ∧ bytes = p.bytes ++ rest := by
  simp only [front] at h
  split at h
  · cases h
  split at h
  · cases h
  split at h
  · cases h
  rename_i long sound complete
  cases h
  obtain ⟨magic, size⟩ := not_or.mp sound
  have len : ((bytes.drop kHeaderSize).take (readHeader bytes).payloadLength.toNat).length =
      (readHeader bytes).payloadLength.toNat := by
    rw [List.length_take, List.length_drop]
    omega
  have header : (⟨PROTOCOL_MAGIC, (MessageType.ofRaw (readHeader bytes).msgType).toRaw,
      (readHeader bytes).flags, UInt64.ofNat
        ((bytes.drop kHeaderSize).take (readHeader bytes).payloadLength.toNat).length⟩ :
      ProtocolHeader) = readHeader bytes := by
    rw [len, UInt64.ofNat_toNat, MessageType.toRaw_ofRaw, ← not_not.mp magic]
  refine ⟨(acceptable_iff ?_).mpr ?_, ?_⟩
  · simp only [len]
    omega
  · simpa only [header] using size
  · simp only [Packet.bytes, createPacket, header]
    rw [headerBytes_readHeader (by omega), ← List.drop_drop, List.append_assoc,
      List.take_append_drop, List.take_append_drop]

private theorem front_refuse {bytes more : QByteArray} (h : front bytes = .refuse) :
    front (bytes ++ more) = .refuse := by
  simp only [front] at h
  split at h
  · cases h
  split at h
  · rename_i long bad
    have long' : ¬ (bytes ++ more).length < kHeaderSize := by
      rw [List.length_append]
      omega
    simp only [front, if_neg long', readHeader_append (Nat.le_of_not_lt long), if_pos bad]
  · split at h <;> cases h

/-- The packets on the wire as a prefix code. -/
def wireCode : PrefixCode UInt8 Packet where
  Valid := Packet.Acceptable
  encode := Packet.bytes
  front := front
  encode_ne_nil := by
    intro p _ e
    have := congrArg List.length e
    simp [Packet.bytes, createPacket, kHeaderSize] at this
  front_word := by
    intro bytes p rest
    constructor
    · exact front_sound
    · rintro ⟨h, rfl⟩
      exact front_bytes h rest
  front_refuse := front_refuse

/-- A cached header belongs to the buffer it was read from, and has passed the checks. -/
structure Tied (conn : TcpConnection) : Prop where
  long : conn.headerParsed = true → kHeaderSize ≤ conn.readBuffer.length
  header : conn.headerParsed = true → conn.currentHeader = readHeader conn.readBuffer
  sound : conn.headerParsed = true →
    conn.currentHeader.magic = PROTOCOL_MAGIC ∧ ¬ Oversized conn.currentHeader

theorem Tied.initial : Tied {} := by
  constructor <;> simp only [Bool.false_eq_true, false_implies]

theorem Tied.append {self : TcpConnection} (tied : Tied self) (data : QByteArray) :
    Tied { self with readBuffer := self.readBuffer ++ data } := by
  refine ⟨fun h => ?_, fun h => ?_, tied.sound⟩
  · have := tied.long h
    simp only [List.length_append]
    omega
  · simp only [readHeader_append (tied.long h)]
    exact tied.header h

/-- What the header part of a turn does, whether or not the header was cached. -/
theorem parseHeader_cases {self : TcpConnection} (tied : Tied self) :
    (self.readBuffer.length < kHeaderSize ∧ self.headerParsed = false ∧
        parseHeader self = (self, some .wait)) ∨
      (kHeaderSize ≤ self.readBuffer.length ∧
        ((readHeader self.readBuffer).magic ≠ PROTOCOL_MAGIC ∨
          Oversized (readHeader self.readBuffer)) ∧ self.headerParsed = false ∧
        ∃ message, parseHeader self =
          ({ self with currentHeader := readHeader self.readBuffer }, some (.reject message))) ∨
      (kHeaderSize ≤ self.readBuffer.length ∧
        (readHeader self.readBuffer).magic = PROTOCOL_MAGIC ∧
        ¬ Oversized (readHeader self.readBuffer) ∧
        parseHeader self =
          (⟨self.readBuffer, true, readHeader self.readBuffer⟩, none)) := by
  by_cases parsed : self.headerParsed = true
  · have header := tied.header parsed
    obtain ⟨magic, size⟩ := tied.sound parsed
    rw [header] at magic size
    refine .inr (.inr ⟨tied.long parsed, magic, size, ?_⟩)
    rw [parseHeader, if_pos parsed, ← header, ← parsed]
  · by_cases short : self.readBuffer.length < kHeaderSize
    · refine .inl ⟨short, by simpa using parsed, ?_⟩
      rw [parseHeader, if_neg parsed, if_pos short]
    · have long := Nat.le_of_not_lt short
      by_cases magic : (readHeader self.readBuffer).magic = PROTOCOL_MAGIC
      · by_cases size : Oversized (readHeader self.readBuffer)
        · refine .inr (.inl ⟨long, .inr size, by simpa using parsed, oversizedMessage, ?_⟩)
          simp only [parseHeader, if_neg parsed, if_neg short, magic, if_pos size, ne_eq,
            not_true_eq_false, if_false]
        · refine .inr (.inr ⟨long, magic, size, ?_⟩)
          simp only [parseHeader, if_neg parsed, if_neg short, magic, if_neg size, ne_eq,
            not_true_eq_false, if_false]
      · refine .inr (.inl ⟨long, .inl magic, by simpa using parsed, invalidMagic, ?_⟩)
        simp only [parseHeader, if_neg parsed, if_neg short, if_pos magic, ne_eq]

private theorem turn_refuse {self : TcpConnection} (tied : Tied self)
    (h : front self.readBuffer = .refuse) :
    ∃ next message, turn self = (next, .reject message) ∧ Tied next ∧
      next.readBuffer = self.readBuffer := by
  rcases parseHeader_cases tied with ⟨short, _, _⟩ | ⟨_, _, parsed, message, eq⟩ |
    ⟨long, magic, size, _⟩
  · simp [front, short] at h
  · refine ⟨{ self with currentHeader := readHeader self.readBuffer }, message,
      by rw [turn, eq], ?_, rfl⟩
    constructor <;> simp only [parsed, Bool.false_eq_true, false_implies]
  · have sound : ¬ ((readHeader self.readBuffer).magic ≠ PROTOCOL_MAGIC ∨
        Oversized (readHeader self.readBuffer)) := by
      simp [magic, size]
    simp only [front, if_neg (Nat.not_lt.mpr long), if_neg sound] at h
    split at h <;> cases h

theorem turn_word {self : TcpConnection} (tied : Tied self) {p : Packet}
    {rest : QByteArray} (h : front self.readBuffer = .word p rest) :
    ∃ next, turn self = (next, .packet p) ∧ Tied next ∧ next.readBuffer = rest := by
  rcases parseHeader_cases tied with ⟨short, _, _⟩ | ⟨long, bad, _, _, _⟩ | ⟨long, magic, size, eq⟩
  · simp [front, short] at h
  · simp [front, Nat.not_lt.mpr long, if_pos bad] at h
  · have sound : ¬ ((readHeader self.readBuffer).magic ≠ PROTOCOL_MAGIC ∨
        Oversized (readHeader self.readBuffer)) := by
      simp [magic, size]
    simp only [front, if_neg (Nat.not_lt.mpr long), if_neg sound] at h
    split at h
    · cases h
    · rename_i complete
      have total : (UInt64.ofNat kHeaderSize +
          (readHeader self.readBuffer).payloadLength).toNat =
          kHeaderSize + (readHeader self.readBuffer).payloadLength.toNat := by
        have sixteen : (UInt64.ofNat kHeaderSize).toNat = kHeaderSize := rfl
        rw [UInt64.toNat_add, sixteen]
        simp only [kHeaderSize]
        omega
      have enough : ¬ self.readBuffer.length <
          kHeaderSize + (readHeader self.readBuffer).payloadLength.toNat := by omega
      simp only [Front.word.injEq] at h
      obtain ⟨rfl, rfl⟩ := h
      refine ⟨⟨self.readBuffer.drop _, false, readHeader self.readBuffer⟩, ?_, ?_, rfl⟩
      · rw [turn, eq]
        simp only [extract, total, if_neg enough]
      · constructor <;> simp only [Bool.false_eq_true, false_implies]

private theorem turn_more {self : TcpConnection} (tied : Tied self)
    (sane : (readHeader self.readBuffer).payloadLength.toNat < 2 ^ 64 - 16)
    (h : front self.readBuffer = .more) :
    ∃ next, turn self = (next, .wait) ∧ Tied next ∧ next.readBuffer = self.readBuffer := by
  rcases parseHeader_cases tied with ⟨_, _, eq⟩ | ⟨long, bad, _, _, _⟩ | ⟨long, magic, size, eq⟩
  · exact ⟨self, by rw [turn, eq], tied, rfl⟩
  · simp [front, Nat.not_lt.mpr long, if_pos bad] at h
  · have sound : ¬ ((readHeader self.readBuffer).magic ≠ PROTOCOL_MAGIC ∨
        Oversized (readHeader self.readBuffer)) := by
      simp [magic, size]
    simp only [front, if_neg (Nat.not_lt.mpr long), if_neg sound] at h
    split at h
    · rename_i incomplete
      have total : (UInt64.ofNat kHeaderSize +
          (readHeader self.readBuffer).payloadLength).toNat =
          kHeaderSize + (readHeader self.readBuffer).payloadLength.toNat := by
        have sixteen : (UInt64.ofNat kHeaderSize).toNat = kHeaderSize := rfl
        rw [UInt64.toNat_add, sixteen]
        simp only [kHeaderSize]
        omega
      have short : self.readBuffer.length <
          kHeaderSize + (readHeader self.readBuffer).payloadLength.toNat := by omega
      refine ⟨⟨self.readBuffer, true, readHeader self.readBuffer⟩, ?_, ?_, rfl⟩
      · rw [turn, eq]
        simp only [extract, total, if_pos short]
      · exact ⟨fun _ => long, fun _ => rfl, fun _ => ⟨magic, size⟩⟩
    · cases h

/-- No header of the stream, that is no sixteen bytes where a packet would start, declares a
length whose packet size wraps around. -/
def SaneLengths (stream : QByteArray) : Prop :=
  ∀ (packets : List Packet) (rest : QByteArray), (∀ p ∈ packets, p.Acceptable) →
    stream = packets.flatMap Packet.bytes ++ rest → kHeaderSize ≤ rest.length →
    (readHeader rest).payloadLength.toNat < 2 ^ 64 - 16

private theorem SaneLengths.behind (packets : List Packet) {buffer : QByteArray}
    (later : QByteArray)
    (valid : ∀ p ∈ packets, p.Acceptable)
    (sane : SaneLengths (packets.flatMap Packet.bytes ++ (buffer ++ later))) :
    SaneLengths buffer := by
  rintro more rest valid' rfl long
  have stream : packets.flatMap Packet.bytes ++
      ((more.flatMap Packet.bytes ++ rest) ++ later) =
      (packets ++ more).flatMap Packet.bytes ++ (rest ++ later) := by
    simp only [List.flatMap_append, List.append_assoc]
  have valid'' : ∀ p ∈ packets ++ more, p.Acceptable := by
    intro p hp
    rcases List.mem_append.mp hp with hp | hp
    · exact valid p hp
    · exact valid' p hp
  have bound := sane (packets ++ more) (rest ++ later) valid'' stream (by
    rw [List.length_append]
    omega)
  rwa [readHeader_append long] at bound

/-- The loop extracts every packet of the buffer and stops; it reports an error only if it is
stopped by a refused header. -/
private theorem loop_decode (buffer : QByteArray) :
    ∀ (self : TcpConnection) (fuel : Nat), Tied self → self.readBuffer = buffer →
      SaneLengths buffer → buffer.length < fuel →
      ∃ next signals, loop fuel self = some (next, signals) ∧ Tied next ∧
        next.readBuffer = (wireCode.decode buffer).2 ∧
        received signals = (wireCode.decode buffer).1 ∧
        (front (wireCode.decode buffer).2 ≠ .refuse →
          signals = (wireCode.decode buffer).1.map .packetReceived) := by
  induction buffer using wireCode.words_induction with
  | stuck buffer stuck =>
      rintro self fuel tied rfl sane enough
      obtain ⟨fuel, rfl⟩ := Nat.exists_eq_succ_of_ne_zero (by omega : fuel ≠ 0)
      rw [wireCode.decode_stuck stuck]
      cases h : front self.readBuffer with
      | word p rest => exact absurd h (stuck p rest)
      | refuse =>
          obtain ⟨next, message, eq, tied', same⟩ := turn_refuse tied h
          exact ⟨next, [.errorOccurred message], by rw [loop, eq], tied', same, rfl,
            fun sound => absurd rfl sound⟩
      | more =>
          by_cases long : kHeaderSize ≤ self.readBuffer.length
          · have bound := sane [] self.readBuffer (by intro p hp; cases hp) rfl long
            obtain ⟨next, eq, tied', same⟩ := turn_more tied bound h
            exact ⟨next, [], by rw [loop, eq], tied', same, rfl, fun _ => rfl⟩
          · have notParsed : self.headerParsed = false := by
              by_contra parsed
              exact long (tied.long (by simpa using parsed))
            refine ⟨self, [], ?_, tied, rfl, rfl, fun _ => rfl⟩
            simp only [loop, turn, parseHeader, notParsed, Bool.false_eq_true, if_false,
              if_pos (Nat.lt_of_not_le long)]
  | word buffer p rest h ih =>
      rintro self fuel tied rfl sane enough
      obtain ⟨fuel, rfl⟩ := Nat.exists_eq_succ_of_ne_zero (by omega : fuel ≠ 0)
      obtain ⟨next, eq, tied', left⟩ := turn_word tied h
      obtain ⟨valid, split⟩ := wireCode.front_word.mp h
      have shorter := wireCode.rest_length h
      have sane' : SaneLengths rest := by
        refine SaneLengths.behind [p] [] ?_ ?_
        · intro q hq
          rw [List.mem_singleton.mp hq]
          exact valid
        · rw [List.append_nil, List.flatMap_singleton]
          exact split ▸ sane
      obtain ⟨last, signals, run, tied'', same, emitted, plain⟩ :=
        ih next fuel tied' left sane' (by omega)
      refine ⟨last, .packetReceived p :: signals, ?_, tied'', ?_, ?_, ?_⟩
      · rw [loop, eq]
        simp only [run, Option.map_some]
      · rw [wireCode.decode_word h, same]
      · rw [wireCode.decode_word h, ← emitted]
        rfl
      · rw [wireCode.decode_word h]
        intro sound
        rw [plain sound, List.map_cons]

private theorem received_append (a b : List TcpSignal) :
    received (a ++ b) = received a ++ received b := List.filterMap_append

private theorem onReadyRead_decode {self : TcpConnection} (tied : Tied self)
    (stuck : wireCode.Stuck self.readBuffer) {data : QByteArray}
    (sane : SaneLengths (self.readBuffer ++ data)) :
    ∃ next signals, onReadyRead self data = some (next, signals) ∧ Tied next ∧
      next.readBuffer = (wireCode.decode (self.readBuffer ++ data)).2 ∧
      received signals = (wireCode.decode (self.readBuffer ++ data)).1 ∧
      (front (wireCode.decode (self.readBuffer ++ data)).2 ≠ .refuse →
        signals = (wireCode.decode (self.readBuffer ++ data)).1.map .packetReceived) := by
  by_cases empty : data = []
  · subst empty
    rw [List.append_nil, wireCode.decode_stuck stuck]
    exact ⟨self, [], if_pos rfl, tied, rfl, rfl, fun _ => rfl⟩
  · rw [onReadyRead, if_neg empty]
    exact loop_decode _ _ _ (tied.append data) rfl sane (Nat.lt_succ_self _)

theorem deliver_decode (reads : List QByteArray) :
    ∀ self : TcpConnection, Tied self → wireCode.Stuck self.readBuffer →
      SaneLengths (self.readBuffer ++ reads.flatten) →
      ∃ next signals, deliver self reads = some (next, signals) ∧ Tied next ∧
        next.readBuffer = (wireCode.decode (self.readBuffer ++ reads.flatten)).2 ∧
        received signals = (wireCode.decode (self.readBuffer ++ reads.flatten)).1 := by
  induction reads with
  | nil =>
      intro self tied stuck _
      rw [List.flatten_nil, List.append_nil, wireCode.decode_stuck stuck]
      exact ⟨self, [], rfl, tied, rfl, rfl⟩
  | cons data reads ih =>
      intro self tied stuck sane
      rw [List.flatten_cons, ← List.append_assoc] at sane ⊢
      have first : SaneLengths (self.readBuffer ++ data) :=
        SaneLengths.behind [] reads.flatten (by intro p hp; cases hp) sane
      obtain ⟨next, signals, run, tied', left, emitted, -⟩ := onReadyRead_decode tied stuck first
      have second : SaneLengths (next.readBuffer ++ reads.flatten) := by
        refine SaneLengths.behind _ [] (wireCode.decode_valid (self.readBuffer ++ data)) ?_
        rw [left, List.append_nil, ← List.append_assoc]
        convert sane using 2
        exact (wireCode.decode_eq _).symm
      have stuck' : wireCode.Stuck next.readBuffer := left ▸ wireCode.decode_rest_stuck _
      obtain ⟨last, later, run', tied'', left', emitted'⟩ := ih next tied' stuck' second
      refine ⟨last, signals ++ later, ?_, tied'', ?_, ?_⟩
      · simp only [deliver, run, run', Option.bind_eq_bind, Option.bind_some]
      · rw [left', left, wireCode.decode_append (self.readBuffer ++ data)]
      · rw [received_append, emitted, emitted', left,
          wireCode.decode_append (self.readBuffer ++ data)]

theorem deliver_append (a b : List QByteArray) (self : TcpConnection) :
    deliver self (a ++ b) = (deliver self a).bind fun r =>
      (deliver r.1 b).map fun t => (t.1, r.2 ++ t.2) := by
  induction a generalizing self with
  | nil => simp [deliver]
  | cons data a ih =>
      simp only [List.cons_append, deliver, Option.bind_eq_bind, ih]
      cases onReadyRead self data with
      | none => rfl
      | some r =>
          simp only [Option.bind_some]
          cases deliver r.1 a with
          | none => rfl
          | some t =>
              simp only [Option.bind_some]
              cases deliver t.1 b with
              | none => rfl
              | some u => simp only [Option.bind_some, Option.map_some, List.append_assoc]

private theorem deliver_refused (reads : List QByteArray) :
    ∀ self : TcpConnection, Tied self → front self.readBuffer = .refuse →
      ∃ next signals, deliver self reads = some (next, signals) ∧ received signals = [] := by
  induction reads with
  | nil =>
      intro self _ _
      exact ⟨self, [], rfl, rfl⟩
  | cons data reads ih =>
      intro self tied refused
      by_cases empty : data = []
      · obtain ⟨next, signals, run, none⟩ := ih self tied refused
        refine ⟨next, signals, ?_, none⟩
        simp only [deliver, onReadyRead, if_pos empty, run, Option.bind_eq_bind, Option.bind_some,
          List.nil_append]
      · obtain ⟨mid, message, eq, tied', same⟩ :=
          turn_refuse (tied.append data) (front_refuse refused)
        obtain ⟨next, signals, run, none⟩ := ih mid tied' (by
          rw [same]
          exact front_refuse refused)
        refine ⟨next, .errorOccurred message :: signals, ?_, none⟩
        simp only [deliver, onReadyRead, if_neg empty, loop, eq, run, Option.bind_eq_bind,
          Option.bind_some, List.cons_append, List.nil_append]

private theorem decode_sent {sent : List Packet} (valid : ∀ p ∈ sent, p.Acceptable) :
    wireCode.decode (sent.flatMap Packet.bytes) = (sent, []) :=
  wireCode.decode_unique valid (List.append_nil _).symm wireCode.stuck_nil

theorem saneLengths_sent {sent : List Packet} (valid : ∀ p ∈ sent, p.Acceptable) :
    SaneLengths (sent.flatMap Packet.bytes) := by
  intro packets rest valid' eq long
  have whole := decode_sent valid
  have front := wireCode.decode_encoded valid' rest
  rw [eq] at whole
  rw [show packets.flatMap wireCode.encode = packets.flatMap Packet.bytes from rfl, whole] at front
  have done : (wireCode.decode rest).2 = [] := (Prod.mk.inj front).2.symm
  have split := wireCode.decode_eq rest
  rw [done, List.append_nil] at split
  cases h : (wireCode.decode rest).1 with
  | nil =>
      rw [h] at split
      rw [split] at long
      cases long
  | cons p later =>
      have ok : p.Acceptable := wireCode.decode_valid rest p (h ▸ List.mem_cons_self)
      have bound := acceptable_length ok
      have header : readHeader rest =
          ⟨PROTOCOL_MAGIC, p.type.toRaw, p.flags, UInt64.ofNat p.payload.length⟩ := by
        rw [split, h, List.flatMap_cons]
        exact (congrArg readHeader (List.append_assoc _ _ _)).trans (readHeader_headerBytes _ _)
      rw [header]
      simp only [size_toNat bound, bound]

theorem onReadyRead_sent {self : TcpConnection} (tied : Tied self)
    (stuck : wireCode.Stuck self.readBuffer) {data later : QByteArray} {sent : List Packet}
    (valid : ∀ p ∈ sent, p.Acceptable)
    (whole : self.readBuffer ++ data ++ later = sent.flatMap Packet.bytes) :
    ∃ next, onReadyRead self data =
        some (next, (wireCode.decode (self.readBuffer ++ data)).1.map .packetReceived) ∧
      Tied next ∧ next.readBuffer = (wireCode.decode (self.readBuffer ++ data)).2 := by
  have sane : SaneLengths (self.readBuffer ++ data) := by
    refine SaneLengths.behind [] later (List.forall_mem_nil _) ?_
    show SaneLengths (self.readBuffer ++ data ++ later)
    rw [whole]
    exact saneLengths_sent valid
  obtain ⟨next, signals, run, tied', left, -, plain⟩ := onReadyRead_decode tied stuck sane
  obtain ⟨behind, all, rest⟩ := wireCode.decode_front valid whole
  have sound : front (wireCode.decode (self.readBuffer ++ data)).2 ≠ .refuse := by
    intro refused
    have refused' : wireCode.front ((wireCode.decode (self.readBuffer ++ data)).2 ++ later) =
        .refuse := wireCode.front_refuse refused
    rw [rest] at refused'
    cases behind with
    | nil => cases refused'
    | cons p behind =>
        have word : wireCode.front ((p :: behind).flatMap wireCode.encode) =
            .word p (behind.flatMap wireCode.encode) := by
          refine wireCode.front_word.mpr ⟨valid p ?_, List.flatMap_cons⟩
          rw [all]
          exact List.mem_append_right _ List.mem_cons_self
        cases word.symm.trans refused'
  exact ⟨next, plain sound ▸ run, tied', left⟩

/-- The packets are all the well-formed frames at the front of the stream, up to a remainder
that starts with none. -/
structure Frames (stream : QByteArray) (packets : List Packet) (rest : QByteArray) : Prop where
  valid : ∀ p ∈ packets, p.Acceptable
  split : stream = packets.flatMap Packet.bytes ++ rest
  maximal : ∀ p : Packet, p.Acceptable → ¬ p.bytes <+: rest

/-- A header with the wrong magic, or of an oversized message other than file data. -/
def BadHeader (bytes : QByteArray) : Prop :=
  kHeaderSize ≤ bytes.length ∧
    ((readHeader bytes).magic ≠ PROTOCOL_MAGIC ∨ Oversized (readHeader bytes))

private theorem frames_decode (stream : QByteArray) :
    Frames stream (wireCode.decode stream).1 (wireCode.decode stream).2 := by
  refine ⟨wireCode.decode_valid stream, wireCode.decode_eq stream, ?_⟩
  rintro p valid ⟨rest, eq⟩
  exact wireCode.decode_rest_stuck stream p rest (wireCode.front_word.mpr ⟨valid, eq.symm⟩)

private theorem front_bad {bytes : QByteArray} (h : BadHeader bytes) : front bytes = .refuse := by
  simp only [front, if_neg (Nat.not_lt.mpr h.1), if_pos h.2]

/-- However a stream is cut into reads, the packets emitted are its maximal sequence of
well-formed frames, and none ever follows a bad header; what was sent is what is emitted. -/
theorem deliver_segmentation :
    (∀ (stream : QByteArray) (reads : List QByteArray), reads.flatten = stream →
      SaneLengths stream → ∃ packets rest, Frames stream packets rest ∧
        (∃ conn signals, deliver {} [stream] = some (conn, signals) ∧
          received signals = packets) ∧
        (∃ conn signals, deliver {} reads = some (conn, signals) ∧
          received signals = packets) ∧
        (BadHeader rest → ∀ more, ∃ conn signals,
          deliver {} (reads ++ more) = some (conn, signals) ∧ received signals = packets)) ∧
    (∀ (sent : List Packet) (reads : List QByteArray), (∀ p ∈ sent, p.Acceptable) →
      reads.flatten = sent.flatMap Packet.bytes → ∃ conn signals,
        deliver {} reads = some (conn, signals) ∧ received signals = sent ∧
          conn.readBuffer = [] ∧ conn.headerParsed = false) := by
  constructor
  · rintro stream reads rfl sane
    obtain ⟨one, signals₁, run₁, _, _, emitted₁⟩ := deliver_decode [reads.flatten] {} Tied.initial
      wireCode.stuck_nil (by simpa using sane)
    obtain ⟨conn, signals, run, tied, left, emitted⟩ := deliver_decode reads {} Tied.initial
      wireCode.stuck_nil sane
    simp only [List.flatten_cons, List.flatten_nil, List.append_nil, List.nil_append]
      at emitted₁ left emitted
    refine ⟨_, _, frames_decode reads.flatten, ⟨one, signals₁, run₁, emitted₁⟩,
      ⟨conn, signals, run, emitted⟩, fun bad more => ?_⟩
    obtain ⟨last, later, run', none⟩ := deliver_refused more conn tied (by
      rw [left]
      exact front_bad bad)
    refine ⟨last, signals ++ later, ?_, ?_⟩
    · rw [deliver_append, run, Option.bind_some, run', Option.map_some]
    · rw [received_append, none, List.append_nil, emitted]
  · intro sent reads valid eq
    obtain ⟨conn, signals, run, tied, left, emitted⟩ := deliver_decode reads {} Tied.initial
      wireCode.stuck_nil (by
        rw [eq]
        exact saneLengths_sent valid)
    rw [show ([] : QByteArray) ++ reads.flatten = reads.flatten from rfl, eq,
      decode_sent valid] at left emitted
    refine ⟨conn, signals, run, emitted, left, ?_⟩
    by_contra parsed
    have := tied.long (by simpa using parsed)
    rw [left] at this
    cases this

/-- An empty JSON object as a handshake, read as a whole and with its header cut in two. -/
theorem deliver_segmentation_handshake :
    let p : Packet := ⟨.HandshakeReq, 0, [0x7B, 0x7D]⟩
    (∃ packets rest, Frames p.bytes packets rest ∧ ∃ conn signals,
      deliver {} [p.bytes] = some (conn, signals) ∧ received signals = packets) ∧
    ∃ conn signals, deliver {} [p.bytes.take 5, p.bytes.drop 5] = some (conn, signals) ∧
      received signals = [p] ∧ conn.readBuffer = [] ∧ conn.headerParsed = false := by
  intro p
  have valid : ∀ q ∈ [p], q.Acceptable := by
    intro q hq
    rw [List.mem_singleton.mp hq]
    exact .inl (by decide)
  have stream : [p].flatMap Packet.bytes = p.bytes := List.flatMap_singleton ..
  constructor
  · obtain ⟨packets, rest, frames, whole, _, _⟩ := deliver_segmentation.1 p.bytes [p.bytes]
      (List.append_nil _) (stream ▸ saneLengths_sent valid)
    exact ⟨packets, rest, frames, whole⟩
  · refine deliver_segmentation.2 [p] _ valid ?_
    rw [stream, List.flatten_cons, List.flatten_cons, List.flatten_nil, List.append_nil,
      List.take_append_drop]

end TcpConnection

end FastTransfer
