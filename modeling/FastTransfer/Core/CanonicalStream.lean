/- FastTransfer/Core/CanonicalStream
   source: src/core/TransferSession.cpp, src/filesystem/FileReader.cpp
   digest: What a sender streams under any scheduling and pausing. -/

import FastTransfer.Core.DataStream
import FastTransfer.Core.LinkSteps
import FastTransfer.Integrity.Blake3Stream

set_option autoImplicit false
set_option relaxedAutoImplicit false

namespace FastTransfer.TransferSession

open Protocol
open QString (literal)

/-- A content in pieces that are not empty and not too long. -/
structure Pieces (most : Nat) (content : QByteArray) (pieces : List QByteArray) : Prop where
  nonempty : ∀ piece ∈ pieces, piece ≠ []
  bounded : ∀ piece ∈ pieces, piece.length ≤ most
  whole : pieces.flatten = content

/-- The stream of a manifest whose files are cut in the given way. Every file ends with the BLAKE3
hash of its content. -/
def canonical (J : QJson) (s : TransferSession Blake3.vendored)
    (pieces : LocalFileItem → List QByteArray) : DataStream :=
  { s.dataStream J with
    pieces := pieces
    sum := fun item => (Blake3.hash (s.content item)).toHex }

variable {B : Blake3} {J : QJson}

def dataPackets (self : TransferSession B) : List Packet :=
  self.outbox.filter fun p =>
    p.type ∈ [.FileStart, .FileDataChunk, .FileEnd, .TransferComplete]

def endsSent (self : TransferSession B) : Nat := self.outbox.countP fun p => p.type = .FileEnd

structure Feed (B : Blake3) where
  session : TransferSession B
  acked : Nat := 0

namespace Feed

def step (J : QJson) (self : Feed B) (e : Event) : Except Crash (Feed B) :=
  (TransferSession.step J self.session e).map fun t =>
    { session := t
      acked := match e with
        | .packet ⟨.FileAck, _, _⟩ => self.acked + 1
        | _ => self.acked }

def Steps (J : QJson) (f : Feed B) (e : Event) (g : Feed B) : Prop := step J f e = .ok g

end Feed

/-- The user pauses and resumes, the event loop does as it likes, the peer may pause, and it
acknowledges every `FileEnd` once. -/
def undisturbed (f : Feed B) : Event → Bool
  | .pause | .resume | .sendNextChunk | .metricsTick | .bytesWritten _ | .drain _ => true
  | .packet ⟨.TransferPause, _, _⟩ => true
  | .packet ⟨.FileAck, _, payload⟩ =>
      (parseFileAck payload).any (fun ack => ack.statusCode = 0) && f.acked < f.session.endsSent
  | _ => false

/-- What is sent and what remains are the whole stream. -/
structure Streaming (J : QJson) (stream : DataStream) (items : List LocalFileItem)
    (f : Feed B) : Prop where
  role : f.session.direction = .Send
  supplied : Supplied f.session
  same : f.session.dataStream J = stream
  manifest : f.session.sendManifest.items = items
  place : ∃ cursor, SenderAt f.session cursor ∧
    f.session.dataPackets ++ stream.remaining cursor = stream.filesFrom 0 items ∧
    f.acked + cursor.unacked = items.length

private theorem dataPackets_append {s t : TransferSession B} {sent : List Packet}
    (outbox : t.outbox = s.outbox ++ sent) :
    t.dataPackets = s.dataPackets ++ sent.filter fun p =>
      p.type ∈ [.FileStart, .FileDataChunk, .FileEnd, .TransferComplete] := by
  rw [dataPackets, outbox, List.filter_append]
  rfl

private theorem dataPackets_data {s t : TransferSession B} {sent : List Packet}
    (outbox : t.outbox = s.outbox ++ sent)
    (sends : Sends [.FileStart, .FileDataChunk, .FileEnd, .TransferComplete] s t) :
    t.dataPackets = s.dataPackets ++ sent := by
  obtain ⟨sent', eq, each⟩ := sends
  obtain rfl : sent = sent' := List.append_cancel_left (outbox.symm.trans eq)
  rw [dataPackets_append outbox, List.filter_eq_self.mpr]
  intro p mem
  simpa using each p mem

private theorem dataPackets_other {s t : TransferSession B} {p : Packet}
    (outbox : t.outbox = s.outbox ++ [p])
    (other : p.type ∉ [.FileStart, .FileDataChunk, .FileEnd, .TransferComplete]) :
    t.dataPackets = s.dataPackets := by
  rw [dataPackets_append outbox, List.filter_cons_of_neg (by simpa using other), List.filter_nil,
    List.append_nil]

private theorem endsSent_add {s : TransferSession B} {stream : DataStream} {cursor : Cursor}
    {items : List LocalFileItem}
    (whole : s.dataPackets ++ stream.remaining cursor = stream.filesFrom 0 items) :
    s.endsSent + cursor.ends = items.length := by
  have total := stream.count_remaining (.between 0 items)
  rw [DataStream.remaining, ← whole, List.countP_append, stream.count_remaining, dataPackets,
    List.countP_filter] at total
  have same : (fun p : Packet => decide (p.type = .FileEnd) &&
      decide (p.type ∈ [.FileStart, .FileDataChunk, .FileEnd, .TransferComplete])) =
        fun p => decide (p.type = .FileEnd) := by
    funext p
    by_cases type : p.type = .FileEnd
    · simp [type]
    · simp [type]
  rw [same] at total
  exact total

private theorem Streaming.frame {stream : DataStream} {items : List LocalFileItem} {f : Feed B}
    {t : TransferSession B} (h : Streaming J stream items f) (same : Frame f.session t)
    (data : t.dataPackets = f.session.dataPackets) :
    Streaming J stream items { f with session := t } := by
  obtain ⟨cursor, at', whole, acked⟩ := h.place
  refine ⟨same.direction.trans h.role,
    h.supplied.congr same.connected same.sendManifest same.chunkSize same.disk,
    (dataStream_congr same.transferId same.sendManifest same.chunkSize same.disk).trans h.same,
    same.sendManifest ▸ h.manifest, cursor, ?_, ?_, acked⟩
  · exact at'.congr same.sendManifest same.currentFileIndex same.waitingFileAck same.fileReader
      same.chunkSize (congrArg TransferMetrics.totalTransferred same.metrics) same.disk
  · rw [data]
    exact whole

private theorem Streaming.proceed {stream : DataStream} {items : List LocalFileItem}
    {s t : TransferSession B} {packets : List Packet} {acked unacked : Nat}
    (role : s.direction = .Send) (supplied : Supplied s) (own : s.dataStream J = stream)
    (manifest : s.sendManifest.items = items)
    (whole : s.dataPackets ++ packets = stream.filesFrom 0 items)
    (counted : acked + unacked = items.length) (same : SameReceiver s t)
    (sends : Sends [.FileStart, .FileDataChunk, .FileEnd, .TransferComplete] s t)
    (h : Proceeds stream packets unacked s t) : Streaming J stream items ⟨t, acked⟩ := by
  obtain ⟨sent, cursor, outbox, left, reached, eq⟩ := h
  refine ⟨same.direction.trans role, same.supplied supplied, same.dataStream.trans own,
    same.sendManifest ▸ manifest, cursor, reached, ?_, by rw [eq]; exact counted⟩
  rw [dataPackets_data outbox sends, List.append_assoc, ← left]
  exact whole

private theorem Streaming.nextChunk {stream : DataStream} {items : List LocalFileItem} {f : Feed B}
    {t : TransferSession B} (h : Streaming J stream items f) (next : NextChunk f.session t) :
    Streaming J stream items { f with session := t } := by
  obtain ⟨cursor, at', whole, acked⟩ := h.place
  have moved := (at'.nextChunk (J := J) h.supplied next).1
  rw [h.same] at moved
  exact .proceed h.role h.supplied h.same h.manifest whole acked next.sameReceiver
    (next.sends.mono (by simp)) moved

private theorem Streaming.local {stream : DataStream} {items : List LocalFileItem} {f : Feed B}
    {t : TransferSession B} {e : LocalEvent} (h : Streaming J stream items f)
    (step : LocalStep J f.session e t) : Streaming J stream items { f with session := t } := by
  cases step with
  | aside same status outbox =>
      refine h.frame same ?_
      rw [dataPackets, outbox]
      rfl
  | paused was =>
      rw [pause, if_pos was]
      refine h.frame ?_ (dataPackets_other (sendPacket_outbox h.supplied.connected _ _) (by simp))
      constructor <;> rfl
  | resumed was role => exact absurd h.role role
  | resumedSending was role next =>
      have resumed : Streaming J stream items { f with session := f.session.resumed J } := by
        refine h.frame ?_ (dataPackets_other (sendPacket_outbox h.supplied.connected _ _) (by simp))
        constructor <;> rfl
      exact resumed.nextChunk next
  | @next _ u _ same status outbox next =>
      have moved : Streaming J stream items { f with session := u } := by
        refine h.frame same ?_
        rw [dataPackets, outbox]
        rfl
      exact moved.nextChunk next

private theorem Streaming.acked {stream : DataStream} {items : List LocalFileItem} {f : Feed B}
    {t : TransferSession B} {payload : QByteArray} (h : Streaming J stream items f)
    (due : f.acked < f.session.endsSent)
    (positive : (parseFileAck payload).any (fun ack => ack.statusCode = 0) = true)
    (step : onFileAck J f.session payload = .ok t) :
    Streaming J stream items ⟨t, f.acked + 1⟩ := by
  obtain ⟨cursor, at', whole, acked⟩ := h.place
  have ended := endsSent_add whole
  rcases onFileAck_cases step with
    ⟨rfl, bad⟩ | ⟨ack, parsed, ⟨bad, rfl⟩ | ⟨-, reader, found, start⟩⟩
  · rw [bad] at positive
    cases positive
  · rw [parsed] at positive
    exact absurd (by simpa using positive) bad
  · cases at' with
    | @between rest inside suffix waiting isSome total =>
        have short := h.supplied.short
        have index : (f.session.currentFileIndex + 1).toNat =
            f.session.currentFileIndex.toNat + 1 := by
          rw [UInt64.toNat_add]
          exact Nat.mod_eq_of_lt (show f.session.currentFileIndex.toNat + 1 < 2 ^ 64 by omega)
        rw [← index] at suffix total
        have moved := (SenderAt.startFile (s := (f.session.ackReceived ack).closeReader reader)
          (h.supplied.congr rfl rfl rfl rfl) total (.inl waiting) start).1
        have own : ((f.session.ackReceived ack).closeReader reader).dataStream J = stream :=
          (dataStream_congr rfl rfl rfl rfl).trans h.same
        rw [own] at moved
        refine .proceed (s := (f.session.ackReceived ack).closeReader reader) h.role
          (h.supplied.congr rfl rfl rfl rfl) own h.manifest ?_ ?_ start.sameReceiver start.sends
          moved
        · rw [← index, ← suffix] at whole
          exact whole
        · dsimp only [Cursor.unacked] at acked
          rw [← suffix] at acked
          rw [← acked, Nat.add_assoc, Nat.add_comm 1]
          rfl
    | sending suffix most waiting found' position width total =>
        dsimp only [Cursor.ends, Cursor.unacked] at ended acked
        omega
    | done idle =>
        dsimp only [Cursor.ends, Cursor.unacked] at ended acked
        omega

private theorem Streaming.step {stream : DataStream} {items : List LocalFileItem} {f g : Feed B}
    {e : Event} (h : Streaming J stream items f) (allowed : undisturbed f e = true)
    (step : Feed.Steps J f e g) : Streaming J stream items g := by
  obtain ⟨t, taken, rfl⟩ := Except.ok_of_map step
  have aside : ∀ l : LocalEvent, l.event = e →
      Streaming J stream items { f with session := t } := by
    rintro l rfl
    exact h.local (local_step taken)
  cases e with
  | pause => exact aside .pause rfl
  | resume => exact aside .resume rfl
  | sendNextChunk => exact aside .sendNextChunk rfl
  | metricsTick => exact aside .metricsTick rfl
  | bytesWritten pending => exact aside (.bytesWritten pending) rfl
  | drain pending => exact aside (.drain pending) rfl
  | packet p =>
      obtain ⟨type, flags, payload⟩ := p
      cases type with
      | TransferPause =>
          rw [← Except.ok.inj taken]
          refine h.frame ?_ rfl
          constructor <;> rfl
      | FileAck =>
          rw [undisturbed, Bool.and_eq_true, decide_eq_true_eq] at allowed
          exact h.acked allowed.2 allowed.1 taken
      | _ => cases allowed
  | _ => cases allowed

theorem streaming_run {s t : TransferSession B} {accept : Packet} {msg : MsgTransferAccept}
    {events : List Event} {f : Feed B} (offered : Link.Offered s)
    (short : s.sendManifest.items.length < 2 ^ 63)
    (sources : ∀ item ∈ s.sendManifest.items,
      FileReader.Readable s.disk item.sourceAbsolutePath)
    (type : accept.type = .TransferAccept)
    (parsed : parseTransferAccept J accept.payload = some msg) (yes : msg.accepted = true)
    (first : msg.startFileIndex = 0 ∧ msg.resumeOffset = 0)
    (begun : Steps J s (.packet accept) t)
    (run : Run (Guarded (Feed.Steps J) fun f e => undisturbed f e = true) ⟨t, 0⟩ events f) :
    Streaming J (s.dataStream J) s.sendManifest.items f := by
  refine run.invariant _ (fun f e g h step => h.step step.1 step.2) ?_
  obtain ⟨type', flags, payload⟩ := accept
  cases type
  rcases onTransferAccept_cases begun with ⟨-, refused⟩ | ⟨msg', parsed', -, start⟩
  · rw [refused msg parsed] at yes
    cases yes
  obtain rfl : msg' = msg := Option.some.inj (parsed'.symm.trans parsed)
  rw [first.1, first.2] at start
  have supplied : Supplied s.begin := ⟨offered.connected, offered.chunkSize, short, sources⟩
  have none : s.begin.metrics.totalTransferred =
      UInt64.ofNat (s.begin.sizeOf (s.begin.sendManifest.items.take (UInt64.toNat 0))) :=
    offered.totalTransferred
  have moved := (SenderAt.startFile supplied none (.inr offered.fileReader) start).1
  have own : s.begin.dataStream J = s.dataStream J := dataStream_congr rfl rfl rfl rfl
  have nothing : s.begin.dataPackets = [] := by
    refine List.filter_eq_nil_iff.mpr fun p mem => ?_
    rcases offered.outbox p mem with type | type <;> simp [type]
  rw [own] at moved
  refine .proceed (s := s.begin) offered.direction supplied own rfl ?_ (Nat.zero_add _)
    start.sameReceiver start.sends moved
  rw [nothing]
  rfl

/-- What is sent is a beginning of the stream of the manifest with its files cut in some way. -/
def Canonical (J : QJson) (s : TransferSession Blake3.vendored) (sent : List Packet) : Prop :=
  ∃ pieces : LocalFileItem → List QByteArray,
    (∀ item ∈ s.sendManifest.items, Pieces s.chunkSize.toNat (s.content item) (pieces item)) ∧
      sent <+: (canonical J s pieces).filesFrom 0 s.sendManifest.items

/-- Where the hasher is clean at the end of every file, the sender streams the manifest in order,
without a gap, a repetition or an early end. -/
theorem stream_canonical (J : QJson) {s t : TransferSession Blake3.vendored} {accept : Packet}
    {msg : MsgTransferAccept} {events : List Event} {f : Feed Blake3.vendored}
    (offered : Link.Offered s) (short : s.sendManifest.items.length < 2 ^ 63)
    (sources : ∀ item ∈ s.sendManifest.items,
      FileReader.Readable s.disk item.sourceAbsolutePath)
    (clean : ∀ item ∈ s.sendManifest.items, Blake3.CleanTail s.chunkSize.toNat (s.content item))
    (type : accept.type = .TransferAccept)
    (parsed : parseTransferAccept J accept.payload = some msg) (yes : msg.accepted = true)
    (first : msg.startFileIndex = 0 ∧ msg.resumeOffset = 0)
    (begun : Steps J s (.packet accept) t)
    (run : Run (Guarded (Feed.Steps J) fun f e => undisturbed f e = true) ⟨t, 0⟩ events f) :
    Canonical J s f.session.dataPackets := by
  have positive : 0 < s.chunkSize.toNat := UInt32.lt_iff_toNat_lt.mp offered.chunkSize
  obtain ⟨cursor, -, whole, -⟩ :=
    (streaming_run offered short sources type parsed yes first begun run).place
  refine ⟨s.slicesOf, fun item mem => ⟨fun piece mem => ?_, fun piece mem => ?_, ?_⟩, ?_⟩
  · obtain ⟨k, below, rfl⟩ := Slices.mem_slices mem
    exact Slices.slice_ne_nil positive ((Slices.lt_count positive).mp below)
  · obtain ⟨k, -, rfl⟩ := Slices.mem_slices mem
    rw [Slices.slice_length]
    exact Nat.min_le_left _ _
  · exact Slices.flatten_count _ positive
  · have same : (s.dataStream J).filesFrom 0 s.sendManifest.items =
        (canonical J s s.slicesOf).filesFrom 0 s.sendManifest.items :=
      DataStream.filesFrom_congr 0 rfl rfl fun item mem =>
        ⟨rfl, Blake3Hasher.digest_slices positive (clean item mem)⟩
    rw [← same, ← whole]
    exact List.prefix_append _ _

/-! Runs of one file. -/

def Feed.next (J : QJson) (self : Feed B) (e : Event) : Option (Feed B) :=
  if undisturbed self e = true then (Feed.step J self e).toOption else none

theorem Feed.run_next {f g : Feed B} {events : List Event}
    (h : events.foldlM (Feed.next J) f = some g) :
    Run (Guarded (Feed.Steps J) fun f e => undisturbed f e = true) f events g :=
  .of_foldlM_guarded h

def single (content : QByteArray) (chunkSize : UInt32) : TransferSession Blake3.vendored :=
  Link.offering CompactJson.codec (Link.holding [(literal "x", content)])
    (Link.listing [(literal "x", content)]) chunkSize

def acceptance : Packet :=
  ⟨.TransferAccept, 0, serializeTransferAccept CompactJson.codec ⟨[], [], true, 0, 0⟩⟩

def played (s : TransferSession Blake3.vendored) (events : List Event) :
    Option (Feed Blake3.vendored) := do
  let t ← (step CompactJson.codec s (.packet acceptance)).toOption
  events.foldlM (Feed.next CompactJson.codec) ⟨t, 0⟩

private theorem played_run {s : TransferSession Blake3.vendored} {events : List Event}
    {f : Feed Blake3.vendored} (h : played s events = some f) :
    ∃ t, Steps CompactJson.codec s (.packet acceptance) t ∧
      Run (Guarded (Feed.Steps CompactJson.codec) fun f e => undisturbed f e = true) ⟨t, 0⟩
        events f := by
  obtain ⟨t, taken, moved⟩ := Option.bind_eq_some_iff.mp h
  exact ⟨t, Except.ok_of_toOption taken, Feed.run_next moved⟩

private theorem single_offered (content : QByteArray) (chunkSize : UInt32) :
    Link.Offered (single content chunkSize) := Link.offered_offering ..

private theorem single_source {content : QByteArray} (length : content.length < 2 ^ 63)
    (chunkSize : UInt32) :
    ∀ item ∈ (single content chunkSize).sendManifest.items,
      FileReader.Readable (single content chunkSize).disk item.sourceAbsolutePath := by
  intro item mem
  cases List.mem_singleton.mp mem
  exact ⟨rfl, rfl, rfl, length⟩

private theorem single_sums (content : QByteArray) :
    ∀ item ∈ (single content 2048).sendManifest.items,
      ((single content 2048).dataStream CompactJson.codec).sum item =
          Blake3Hasher.digest .vendored
            (Slices.slices 2048 content (Slices.count 2048 content)) ∧
        ∀ pieces, (canonical CompactJson.codec (single content 2048) pieces).sum item =
          (Blake3.hash content).toHex := by
  intro item mem
  cases List.mem_singleton.mp mem
  exact ⟨rfl, fun _ => rfl⟩

/-- A file of one byte, with a pause before its acknowledgement. -/
theorem stream_canonical_oneByte :
    ∃ f : Feed Blake3.vendored, f.session.dataPackets.length = 4 ∧
      Canonical CompactJson.codec (single [7] 1) f.session.dataPackets := by
  have computed : (played (single [7] 1) [.sendNextChunk, .pause, .resume,
      .packet ⟨.FileAck, 0, serializeFileAck {}⟩]).map (fun f => f.session.dataPackets.length) =
        some 4 := by
    decide +kernel
  obtain ⟨f, reached, length⟩ := Option.map_eq_some_iff.mp computed
  obtain ⟨t, begun, run⟩ := played_run reached
  have parsed : ∃ msg, parseTransferAccept CompactJson.codec acceptance.payload = some msg ∧
      msg.accepted = true ∧ msg.startFileIndex = 0 ∧ msg.resumeOffset = 0 :=
    parseTransferAccept_serialize CompactJson.codec _
  obtain ⟨msg, parsed, yes, first⟩ := parsed
  refine ⟨f, length, stream_canonical CompactJson.codec (single_offered [7] 1) ?_
    (single_source (by decide) 1) ?_ rfl parsed yes first begun run⟩
  · decide
  · intro item mem
    cases List.mem_singleton.mp mem
    exact .inl (by decide)

/-- A readable file of 1025 bytes, sent in one chunk. -/
theorem stream_not_canonical :
    let s := single Blake3Hasher.chunkAndByte 2048
    Link.Offered s ∧
      (∀ item ∈ s.sendManifest.items, FileReader.Readable s.disk item.sourceAbsolutePath) ∧
      ∃ t f, Steps CompactJson.codec s (.packet acceptance) t ∧
        Run (Guarded (Feed.Steps CompactJson.codec) fun f e => undisturbed f e = true) ⟨t, 0⟩
          [.sendNextChunk] f ∧
        ¬ Canonical CompactJson.codec s f.session.dataPackets := by
  intro s
  have length : Blake3Hasher.chunkAndByte.length < 2 ^ 63 := by
    rw [Blake3Hasher.chunkAndByte, List.length_replicate]
    decide
  have offered : Link.Offered s := single_offered _ 2048
  have sources := single_source length 2048
  have computed : (played (single Blake3Hasher.chunkAndByte 2048) [.sendNextChunk]).map
      (fun f => f.session.dataPackets.any fun p => p.type = .FileEnd) = some true := by
    decide +kernel
  obtain ⟨f, reached, sent⟩ := Option.map_eq_some_iff.mp computed
  obtain ⟨t, begun, run⟩ := played_run reached
  refine ⟨offered, sources, t, f, begun, run, ?_⟩
  rintro ⟨pieces, -, front⟩
  obtain ⟨msg, parsed, yes, first⟩ := parseTransferAccept_serialize CompactJson.codec
    ⟨[], [], true, 0, 0⟩
  obtain ⟨cursor, -, whole, -⟩ := (streaming_run offered (Nat.one_lt_two_pow (by decide))
    sources rfl parsed yes first begun run).place
  obtain ⟨p, mem, type⟩ := List.any_eq_true.mp sent
  have type : p.type = .FileEnd := of_decide_eq_true type
  obtain ⟨i, item, only, own⟩ := DataStream.mem_filesFrom
    (whole ▸ List.mem_append_left _ mem) type
  obtain ⟨j, item', only', other⟩ := DataStream.mem_filesFrom (front.subset mem) type
  have own_sum := (single_sums _ item only).1
  have other_sum := (single_sums _ item' only').2 pieces
  have same := DataStream.endPacket_sum (own.symm.trans other)
    (by
      rw [own_sum, Blake3Hasher.digest_length]
      decide)
    (by
      rw [other_sum, QByteArray.toHex_length, Blake3.hash, Blake3.output_root_bytes_length]
      decide)
  rw [own_sum, other_sum] at same
  exact Blake3Hasher.digest_chunkAndByte same

end FastTransfer.TransferSession
