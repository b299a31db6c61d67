/- FastTransfer/Library/Segments
   source: none, a general library
   digest: An execution of readers stands for one of the parties that receive whole messages. -/

import FastTransfer.Library.Framing
import FastTransfer.Library.Itinerary

set_option autoImplicit false
set_option relaxedAutoImplicit false

section

variable {σ δ ε α μ κ κ' : Type*} {C : PrefixCode α μ} {M : Machine σ ε μ κ}
  {N : Reader δ ε α κ'} {Shows : δ → σ → List α → Prop} {held : δ → List α}

/-- How many symbols of the next message have not been read. -/
def missing (C : PrefixCode α μ) (buffer : List α) : List μ → ℕ
  | [] => 0
  | m :: _ => (C.encode m).length - buffer.length

theorem missing_append {buffer : List α} {messages : List μ} (some : messages ≠ [])
    (out : List μ) : missing C buffer (messages ++ out) = missing C buffer messages := by
  obtain ⟨m, later, rfl⟩ := List.exists_cons_of_ne_nil some
  rfl

/-- A reader's buffer is all that it has read of the next message, which is not whole. -/
structure Buffers (C : PrefixCode α μ) (Shows : δ → σ → List α → Prop) (held : δ → List α) :
    Prop where
  held : ∀ {x s buffer}, Shows x s buffer → held x = buffer
  stuck : ∀ {x s buffer}, Shows x s buffer → C.Stuck buffer

theorem Buffers.carried (buffers : Buffers C Shows held) {x : δ} {s : σ} {symbols : List α}
    {messages : List μ}
    (h : ∃ buffer, Shows x s buffer ∧ buffer ++ symbols = messages.flatMap C.encode) :
    held x ++ symbols = messages.flatMap C.encode ∧ C.Stuck (held x) := by
  obtain ⟨buffer, shows, carried⟩ := h
  rw [buffers.held shows]
  exact ⟨carried, buffers.stuck shows⟩

theorem missing_pos {buffer symbols : List α} {messages : List μ} (stuck : C.Stuck buffer)
    (valid : ∀ m ∈ messages, C.Valid m) (some : messages ≠ [])
    (carried : buffer ++ symbols = messages.flatMap C.encode) :
    0 < missing C buffer messages ∧ symbols ≠ [] := by
  obtain ⟨m, later, rfl⟩ := List.exists_cons_of_ne_nil some
  have short : buffer.length < (C.encode m).length := by
    by_contra long
    rw [List.flatMap_cons] at carried
    obtain ⟨rest, split⟩ := List.prefix_of_prefix_length_le
      (List.prefix_append (C.encode m) (later.flatMap C.encode))
      (carried ▸ List.prefix_append buffer symbols) (Nat.le_of_not_lt long)
    exact stuck m rest (C.front_word.mpr ⟨valid m List.mem_cons_self, split.symm⟩)
  refine ⟨Nat.sub_pos_of_lt short, ?_⟩
  rintro rfl
  have whole := congrArg List.length carried
  rw [List.append_nil, List.flatMap_cons, List.length_append] at whole
  omega

/-- What one read of a stream comes to: the messages that it completes are received, and without
any the buffer has grown. -/
theorem Framing.reads (F : Framing C M N Shows) (buffers : Buffers C Shows held) {x y : δ} {s : σ}
    {symbols sent : List α} {messages : List μ} {count : ℕ}
    (carried : ∃ buffer, Shows x s buffer ∧ buffer ++ symbols = messages.flatMap C.encode)
    (valid : ∀ m ∈ messages, C.Valid m) (read : N.read x (symbols.take count) = .ok (y, sent)) :
    ∃ words behind t out, messages = words ++ behind ∧ M.receiveAll s words = .ok (t, out) ∧
      sent = out.flatMap C.encode ∧
      (∃ buffer, Shows y t buffer ∧
        buffer ++ symbols.drop count = behind.flatMap C.encode) ∧
      (words = [] → held y = held x ++ symbols.take count) := by
  obtain ⟨buffer, shows, carried⟩ := carried
  rw [← List.take_append_drop count symbols, ← List.append_assoc] at carried
  obtain ⟨t, out, received, eq, shows'⟩ := F.read shows valid carried read
  obtain ⟨behind, whole, rest⟩ := C.decode_front valid carried
  refine ⟨_, behind, t, out, whole, received, eq, ⟨_, shows', rest⟩, fun none => ?_⟩
  have split := C.decode_eq (buffer ++ symbols.take count)
  rw [none, List.flatMap_nil, List.nil_append] at split
  rw [buffers.held shows, buffers.held shows', ← split]

/-- The moves that one move of the readers stands for. The idle event comes first where a read may
complete no message. -/
inductive Leg (idle : σ → ε) (s : σ) : Wired.Move ε → List (Duplex.Move ε) → Prop
  | left (e : ε) : Leg idle s (.left e) [.left e]
  | right (e : ε) : Leg idle s (.right e) [.right e]
  | toRight (count k : ℕ) :
      Leg idle s (.toRight count) (.right (idle s) :: List.replicate k .toRight)
  | toLeft (count k : ℕ) :
      Leg idle s (.toLeft count) (.right (idle s) :: List.replicate k .toLeft)

namespace Leg

variable {idle : σ → ε} {s : σ} {move : Wired.Move ε} {moves : List (Duplex.Move ε)}

theorem of_left {e : ε} (leg : Leg idle s (.left e) moves) : moves = [.left e] := by
  cases leg
  rfl

theorem of_right {e : ε} (leg : Leg idle s (.right e) moves) : moves = [.right e] := by
  cases leg
  rfl

theorem behind {first : Duplex.Move ε} (leg : Leg idle s move (first :: moves)) :
    ∀ m ∈ moves, m = .toRight ∨ m = .toLeft := by
  intro m mem
  cases leg with
  | left e => cases mem
  | right e => cases mem
  | toRight count k => exact .inl (List.eq_of_mem_replicate mem)
  | toLeft count k => exact .inr (List.eq_of_mem_replicate mem)

end Leg

namespace Wired.Move

def ReadsRight : Wired.Move ε → Prop
  | .toRight count => 0 < count
  | _ => False

def ReadsLeft : Wired.Move ε → Prop
  | .toLeft count => 0 < count
  | _ => False

end Wired.Move

/-- A move that delivers nothing of a stream leaves its next message there, with no less of it
read, and with more of it if the stream was read. -/
structure Nears (C : PrefixCode α μ) (before after : List α) (messages messages' : List μ)
    (read : Prop) : Prop where
  waits : messages' ≠ []
  fewer : missing C after messages' ≤ missing C before messages
  read : read → missing C after messages' < missing C before messages

theorem Nears.same {before after : List α} {messages messages' out : List μ} {read : Prop}
    (some : messages ≠ []) (unread : ¬ read) (same : after = before)
    (longer : messages' = messages ++ out) : Nears C before after messages messages' read := by
  subst same longer
  exact ⟨List.append_ne_nil_of_left_ne_nil some out, Nat.le_of_eq (missing_append some out),
    fun now => absurd now unread⟩

theorem Nears.grown {buffer symbols : List α} {messages : List μ} {count : ℕ}
    (stuck : C.Stuck buffer) (valid : ∀ m ∈ messages, C.Valid m) (some : messages ≠ [])
    (carried : buffer ++ symbols = messages.flatMap C.encode) :
    Nears C buffer (buffer ++ symbols.take count) messages messages (0 < count) := by
  obtain ⟨short, more⟩ := missing_pos stuck valid some carried
  obtain ⟨m, later, rfl⟩ := List.exists_cons_of_ne_nil some
  have length := List.length_pos_iff.mpr more
  dsimp only [missing] at short
  refine ⟨some, ?_, fun positive => ?_⟩
  · simp only [missing, List.length_append]
    omega
  · simp only [missing, List.length_append, List.length_take]
    omega

/-- What becomes of the messages of a stream in one move: some are delivered, or the next one is
nearer. -/
def Advances (C : PrefixCode α μ) (delivered : Prop) (before after : List α)
    (messages messages' : List μ) (read : Prop) : Prop :=
  messages ≠ [] → delivered ∨ Nears C before after messages messages' read

/-- A read advances its stream: without a message that it completes, the buffer has grown. -/
private theorem advances_of_read {before after symbols : List α} {words behind : List μ} {count : ℕ}
    {delivered : Prop} (stuck : C.Stuck before) (valid : ∀ m ∈ words ++ behind, C.Valid m)
    (carried : before ++ symbols = (words ++ behind).flatMap C.encode)
    (grown : words = [] → after = before ++ symbols.take count)
    (counted : 0 < words.length → delivered) :
    Advances C delivered before after (words ++ behind) behind (0 < count) := by
  intro more
  cases words with
  | nil =>
      rw [grown rfl]
      exact .inr (.grown stuck valid more carried)
  | cons word words => exact .inl (counted (Nat.succ_pos _))

structure Matches (C : PrefixCode α μ) (Shows : δ → σ → List α → Prop) (held : δ → List α)
    (idle : σ → ε) (w : Wired δ α) (d : Duplex σ μ) (move : Wired.Move ε) (w' : Wired δ α)
    (moves : List (Duplex.Move ε)) (d' : Duplex σ μ) : Prop where
  leg : Leg idle d.right move moves
  carries : Carries C Shows w' d'
  toRight : Advances C (.toRight ∈ moves) (held w.right) (held w'.right) d.toRight d'.toRight
    move.ReadsRight
  toLeft : Advances C (.toLeft ∈ moves) (held w.left) (held w'.left) d.toLeft d'.toLeft
    move.ReadsLeft

private theorem idle_step {idle : σ → ε} (still : ∀ s, M.act s (idle s) = .ok (s, []))
    (d : Duplex σ μ) : Run (Duplex.Steps M) d [.right (idle d.right)] d := by
  refine .single ?_
  rw [Duplex.Steps, Duplex.step, still, Except.map, List.append_nil]

theorem Framing.matches (F : Framing C M N Shows) (buffers : Buffers C Shows held)
    {idle : σ → ε} (still : ∀ s, M.act s (idle s) = .ok (s, [])) {w w' : Wired δ α}
    {d : Duplex σ μ} {move : Wired.Move ε} (h : Carries C Shows w d)
    (validRight : ∀ m ∈ d.toRight, C.Valid m) (validLeft : ∀ m ∈ d.toLeft, C.Valid m)
    (taken : Wired.Steps N w move w') :
    ∃ moves d', Run (Duplex.Steps M) d moves d' ∧
      Matches C Shows held idle w d move w' moves d' := by
  obtain ⟨⟨rightBuffer, right, carriedRight⟩, leftBuffer, left, carriedLeft⟩ := h
  cases move with
  | left e =>
      obtain ⟨⟨x, sent⟩, acted, rfl⟩ := Except.ok_of_map taken
      obtain ⟨t, out, same, eq, left'⟩ := F.act left acted
      have step : Duplex.Steps M d (.left e) { d with left := t, toRight := d.toRight ++ out } := by
        rw [Duplex.Steps, Duplex.step, same]
        rfl
      exact ⟨_, _, .single step, .left e, ⟨⟨rightBuffer, right, carried_append carriedRight eq⟩,
        leftBuffer, left', carriedLeft⟩, fun more => .inr (.same more id rfl rfl),
        fun more => .inr (.same more id ((buffers.held left').trans (buffers.held left).symm)
          (List.append_nil _).symm)⟩
  | right e =>
      obtain ⟨⟨x, sent⟩, acted, rfl⟩ := Except.ok_of_map taken
      obtain ⟨t, out, same, eq, right'⟩ := F.act right acted
      have step : Duplex.Steps M d (.right e) { d with right := t, toLeft := d.toLeft ++ out } := by
        rw [Duplex.Steps, Duplex.step, same]
        rfl
      exact ⟨_, _, .single step, .right e, ⟨⟨rightBuffer, right', carriedRight⟩, leftBuffer, left,
        carried_append carriedLeft eq⟩,
        fun more => .inr (.same more id ((buffers.held right').trans (buffers.held right).symm)
          (List.append_nil _).symm), fun more => .inr (.same more id rfl rfl)⟩
  | toRight count =>
      obtain ⟨⟨x, sent⟩, read, rfl⟩ := Except.ok_of_map taken
      obtain ⟨words, behind, t, out, whole, received, eq, carried, grown⟩ :=
        F.reads buffers ⟨rightBuffer, right, carriedRight⟩ validRight read
      refine ⟨_, _, (idle_step still d).append (Machine.run_toRight whole received),
        .toRight count words.length, ⟨carried, leftBuffer, left, carried_append carriedLeft eq⟩,
        ?_, fun more => .inr (.same more id rfl rfl)⟩
      obtain ⟨whole', stuck⟩ := buffers.carried ⟨rightBuffer, right, carriedRight⟩
      rw [whole] at whole' validRight ⊢
      exact advances_of_read stuck validRight whole' grown fun some =>
        List.mem_cons_of_mem _ (List.mem_replicate.mpr ⟨Nat.ne_of_gt some, rfl⟩)
  | toLeft count =>
      obtain ⟨⟨x, sent⟩, read, rfl⟩ := Except.ok_of_map taken
      obtain ⟨words, behind, t, out, whole, received, eq, carried, grown⟩ :=
        F.reads buffers ⟨leftBuffer, left, carriedLeft⟩ validLeft read
      refine ⟨_, _, (idle_step still d).append (Machine.run_toLeft whole received),
        .toLeft count words.length, ⟨⟨rightBuffer, right, carried_append carriedRight eq⟩, carried⟩,
        fun more => .inr (.same more id rfl rfl), ?_⟩
      obtain ⟨whole', stuck⟩ := buffers.carried ⟨leftBuffer, left, carriedLeft⟩
      rw [whole] at whole' validLeft ⊢
      exact advances_of_read stuck validLeft whole' grown fun some =>
        List.mem_cons_of_mem _ (List.mem_replicate.mpr ⟨Nat.ne_of_gt some, rfl⟩)

/-- On a stream that is read again and again as long as there is something to read, every message
that is under way is followed by a delivery. -/
theorem delivered_of_read {symbols buffer : ℕ → List α} {messages : ℕ → List μ}
    {delivers reads : ℕ → Prop}
    (carried : ∀ n, buffer n ++ symbols n = (messages n).flatMap C.encode)
    (stuck : ∀ n, C.Stuck (buffer n)) (valid : ∀ n, ∀ m ∈ messages n, C.Valid m)
    (advances : ∀ n, Advances C (delivers n) (buffer n) (buffer (n + 1)) (messages n)
      (messages (n + 1)) (reads n))
    (fair : ∀ n, symbols n ≠ [] → ∃ m ≥ n, reads m) {n : ℕ} (more : messages n ≠ []) :
    ∃ m ≥ n, delivers m := by
  induction lack : missing C (buffer n) (messages n) using Nat.strongRecOn generalizing n with
  | ind r ih =>
      subst lack
      obtain ⟨-, unread⟩ := missing_pos (stuck n) (valid n) more (carried n)
      obtain ⟨m, later, read⟩ := fair n unread
      let kept k := messages k ≠ [] ∧
        missing C (buffer k) (messages k) ≤ missing C (buffer n) (messages n)
      have stays : ∀ k, kept k → delivers k ∨ kept (k + 1) := by
        rintro k ⟨some, fewer⟩
        exact (advances k some).imp_right fun near => ⟨near.waits, Nat.le_trans near.fewer fewer⟩
      rcases Execution.persists kept delivers stays later ⟨more, Nat.le_refl _⟩ with
        before | ⟨some, fewer⟩
      · exact before
      · rcases advances m some with now | near
        · exact ⟨m, later, now⟩
        · obtain ⟨k, after, comes⟩ :=
            ih _ (Nat.lt_of_lt_of_le (near.read read) fewer) near.waits rfl
          exact ⟨k, by omega, comes⟩

private theorem exists_trace {τ lam : Type*} (related : ℕ → τ → Prop)
    (link : ℕ → τ → lam → τ → Prop) {first : τ} (start : related 0 first)
    (next : ∀ n t, related n t → ∃ l u, link n t l u ∧ related (n + 1) u) :
    ∃ (place : ℕ → τ) (label : ℕ → lam), place 0 = first ∧
      ∀ n, related n (place n) ∧ link n (place n) (label n) (place (n + 1)) := by
  choose label after linked kept using next
  let place : (n : ℕ) → { t // related n t } :=
    Nat.rec ⟨first, start⟩ fun n t => ⟨after n t t.2, kept n t t.2⟩
  exact ⟨fun n => (place n).1, fun n => label n (place n).1 (place n).2, rfl,
    fun n => ⟨(place n).2, linked n _ _⟩⟩

/-- The legs of an itinerary stand for the steps of an execution of readers. -/
structure Follows (C : PrefixCode α μ) (Shows : δ → σ → List α → Prop) (held : δ → List α)
    (idle : σ → ε) {rough : Wired δ α → Wired.Move ε → Wired δ α → Prop}
    {fine : Duplex σ μ → Duplex.Move ε → Duplex σ μ → Prop} (x : Execution rough)
    (i : Itinerary fine) : Prop where
  carries : ∀ n, Carries C Shows (x.state n) (i.place n)
  moves : ∀ n, Matches C Shows held idle (x.state n) (i.place n) (x.event n) (x.state (n + 1))
    ((i.first n :: i.rest n).map Prod.fst) (i.place (n + 1))

section Follows

variable {rough : Wired δ α → Wired.Move ε → Wired δ α → Prop}
  {fine : Duplex σ μ → Duplex.Move ε → Duplex σ μ → Prop} {x : Execution rough}
  {inv : Duplex σ μ → Prop}

/-- The rule for refinement of executions: where the moves that a step stands for are good ones,
an execution of the readers stands for one of the parties. -/
theorem Framing.follows (F : Framing C M N Shows) (buffers : Buffers C Shows held)
    {idle : σ → ε} (still : ∀ s, M.act s (idle s) = .ok (s, []))
    (steps : ∀ w move w', rough w move w' → Wired.Steps N w move w')
    (valid : ∀ d, inv d → (∀ m ∈ d.toRight, C.Valid m) ∧ ∀ m ∈ d.toLeft, C.Valid m)
    (refined : ∀ w d move w' moves d', inv d → Carries C Shows w d → rough w move w' →
      Run (Duplex.Steps M) d moves d' → Matches C Shows held idle w d move w' moves d' →
      ∃ l, l.map Prod.fst = moves ∧ Trail fine d l d' ∧ inv d')
    {d : Duplex σ μ} (start : Carries C Shows (x.state 0) d) (initial : inv d) :
    ∃ i : Itinerary fine, i.place 0 = d ∧ (∀ n, inv (i.place n)) ∧
      Follows C Shows held idle x i := by
  obtain ⟨place, label, first, all⟩ := exists_trace
    (fun n d => inv d ∧ Carries C Shows (x.state n) d)
    (fun n d (l : (Duplex.Move ε × Duplex σ μ) × List (Duplex.Move ε × Duplex σ μ)) d' =>
      Trail fine d (l.1 :: l.2) d' ∧ Matches C Shows held idle (x.state n) d (x.event n)
        (x.state (n + 1)) ((l.1 :: l.2).map Prod.fst) d')
    ⟨initial, start⟩ (by
      rintro n d ⟨holds, carries⟩
      obtain ⟨validRight, validLeft⟩ := valid d holds
      obtain ⟨moves, d', run, matched⟩ :=
        F.matches buffers still carries validRight validLeft (steps _ _ _ (x.next n))
      obtain ⟨l, rfl, trail, holds'⟩ :=
        refined _ d _ _ moves d' holds carries (x.next n) run matched
      cases l with
      | nil =>
          have leg := matched.leg
          generalize x.event n = move at leg
          cases leg
      | cons q l => exact ⟨(q, l), d', ⟨trail, matched⟩, holds', matched.carries⟩)
  exact ⟨⟨place, fun n => (label n).1, fun n => (label n).2, fun n => (all n).2.1⟩, first,
    fun n => (all n).1.1, fun n => (all n).1.2, fun n => (all n).2.2⟩

variable {i : Itinerary fine} {idle : σ → ε}

theorem Follows.toRight (h : Follows C Shows held idle x i) (buffers : Buffers C Shows held)
    (valid : ∀ n, ∀ m ∈ (i.place n).toRight, C.Valid m)
    (fair : ∀ n, (x.state n).toRight ≠ [] → ∃ m ≥ n, (x.event m).ReadsRight) {n : ℕ}
    (more : (i.place n).toRight ≠ []) :
    ∃ m ≥ n, .toRight ∈ (i.first m :: i.rest m).map Prod.fst := by
  have shown n := buffers.carried (h.carries n).1
  exact delivered_of_read (fun n => (shown n).1) (fun n => (shown n).2) valid
    (fun n => (h.moves n).toRight) fair more

theorem Follows.toLeft (h : Follows C Shows held idle x i) (buffers : Buffers C Shows held)
    (valid : ∀ n, ∀ m ∈ (i.place n).toLeft, C.Valid m)
    (fair : ∀ n, (x.state n).toLeft ≠ [] → ∃ m ≥ n, (x.event m).ReadsLeft) {n : ℕ}
    (more : (i.place n).toLeft ≠ []) :
    ∃ m ≥ n, .toLeft ∈ (i.first m :: i.rest m).map Prod.fst := by
  have shown n := buffers.carried (h.carries n).2
  exact delivered_of_read (fun n => (shown n).1) (fun n => (shown n).2) valid
    (fun n => (h.moves n).toLeft) fair more

end Follows

end
