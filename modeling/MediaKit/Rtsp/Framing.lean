import MediaKit.Lib.Reader
import MediaKit.Rtsp.Session

/-!
# RTSP messages and RTP packets on one connection

`RtspSession::process_buffer` (`session.rs`) and the read loop and `read_response` of
the pull client (`pull_client.rs`) take messages, and packets framed with `$`, off the
front of one buffer. They should handle the same items however the bytes were cut into
reads.

The measure is `firstParse`: the message that the parser reports at the first moment at
which it reports one, had the bytes come singly. What the two loops do with `firstParse`
depends on the bytes alone (`extends_firstParse`). With the real parsers they keep up
with it exactly while the bytes behind each message, as far as they have been read, are
text (`Interleaving.keeps_up_iff`): `from_utf8` looks at the whole buffer.

Mirroring notes vs the Rust source:
- `process_buffer` returns the error of `handle_request`, and the session then ends.
  `RtspConnection.ended` stands for this; an ended loop handles nothing more.
- The loop of the pull client starts with what `read_response` left in the buffer and
  reads before it looks at it, hence the arbitrary `buf` and the non-empty `qs`.
- The packets' way through the depacketizer does not feed back into the loops; the
  items record the packets.
-/

namespace MediaKit.Rtsp

open Lib List Option

variable {σ μ : Type}

/-! ## The loops -/

/-- What a loop handles. -/
inductive Handled (μ : Type) where
  | rtp (channel : UInt8) (payload : Bytes)
  | message (msg : μ)
  deriving DecidableEq

/-- What the two loops differ in. -/
structure Interleaving (σ μ : Type) where
  ended : σ → Bool
  /-- A `$` at the front opens a packet. -/
  demux : σ → Bool
  onMessage : σ → μ → σ

namespace Interleaving

variable (L : Interleaving σ μ)

def atPacket (s : σ) (b : Bytes) : Bool := L.demux s && decide (b.head? = some 0x24)

/-- A packet: `$`, channel, length, payload. -/
def packet (s : σ) (b : Bytes) : Attempt σ UInt8 (Handled μ) :=
  if b.length < 4 then .wait
  else
    let len := ofBe [b.getD 2 0, b.getD 3 0]
    if b.length < 4 + len then .wait
    else .take s [.rtp (b.getD 1 0) ((b.drop 4).take len)] (b.drop (4 + len))

/-- A message, as far as the parser reports one. -/
def text (s : σ) (b : Bytes) : Parse μ → Attempt σ UInt8 (Handled μ)
  | .incomplete => .wait
  | .panic => .crash
  | .done msg consumed => .take (L.onMessage s msg) [.message msg] (b.drop consumed)

/-- One turn of the loop. -/
def attempt (parse : Bytes → Parse μ) (s : σ) (b : Bytes) : Attempt σ UInt8 (Handled μ) :=
  if L.ended s then .wait
  else if L.atPacket s b then packet s b
  else L.text s b (parse b)

end Interleaving

variable {n : Nat} {b : Bytes}

/-- A server connection. -/
structure RtspConnection where
  session : RtspSession
  /-- The requests handled so far. -/
  count : Nat
  ended : Bool

/-- `handle_request` returns an error: a reply could not be sent, or a socket not bound. -/
def requestFails (env : RtspEnv) (r : RtspRequest) : Bool :=
  if r.method = "SETUP" then
    match r.headers.get "Transport" with
    | none => !env.writeOk
    | some transport =>
      if (splitOncePat "TCP" transport).isSome ∨
          (splitOncePat "interleaved" transport).isSome then !env.writeOk
      else (parseUdpTransport transport).isSome && !(env.bindOk && env.writeOk)
  else !env.writeOk

/-- The loop of `process_buffer`; `answers` are those that the `n`th request meets. -/
def serverLoop (answers : Nat → RtspEnv) : Interleaving RtspConnection RtspRequest where
  ended c := c.ended
  demux c := c.session.isPublisher && c.session.tcpInterleaved
  onMessage c r :=
    { session := (c.session.handleRequest (answers c.count) r).1
      count := c.count + 1
      ended := requestFails (answers c.count) r }

def processBuffer (answers : Nat → RtspEnv) :
    RtspConnection → Bytes → Attempt RtspConnection UInt8 (Handled RtspRequest) :=
  (serverLoop answers).attempt parseRequest

/-- The loop of the pull client behind its PLAY: every response is ignored. -/
def clientLoop : Interleaving Unit RtspResponse where
  ended _ := false
  demux _ := true
  onMessage s _ := s

def pullLoop : Unit → Bytes → Attempt Unit UInt8 (Handled RtspResponse) :=
  clientLoop.attempt parseResponse

/-- What `read_response` ends with; a response comes with the rest of the buffer and the
reads that were not needed. -/
inductive ReadResult where
  | closed
  | panic
  | response (r : RtspResponse) (buffer : Bytes) (unread : List Bytes)
  deriving DecidableEq

/-- `read_response`, on the reads until the connection is closed. -/
def readResponse (buffer : Bytes) (reads : List Bytes) : ReadResult :=
  match parseResponse buffer with
  | .done r consumed => .response r (buffer.drop consumed) reads
  | .panic => .panic
  | .incomplete =>
    match reads with
    | [] => .closed
    | p :: ps => readResponse (buffer ++ p) ps

/-! ## The first report of a parser -/

def Parse.decided : Parse μ → Bool
  | .incomplete => false
  | _ => true

theorem Parse.decided_iff {p : Parse μ} : p.decided = true ↔ p ≠ .incomplete := by
  cases p <;> simp [decided]

/-- How many bytes it takes until the parser reports something. -/
def firstDecided (parse : Bytes → Parse μ) (b : Bytes) : Option Nat :=
  (range (b.length + 1)).find? fun n => (parse (b.take n)).decided

/-- What it then reports. -/
def firstParse (parse : Bytes → Parse μ) (b : Bytes) : Parse μ :=
  match firstDecided parse b with
  | some n => parse (b.take n)
  | none => .incomplete

variable {parse : Bytes → Parse μ}

theorem firstDecided_eq_some_iff : firstDecided parse b = some n ↔
      (parse (b.take n)).decided = true ∧ n ≤ b.length ∧
        ∀ j < n, (parse (b.take j)).decided = false := by
  unfold firstDecided
  rw [find?_range_eq_some, mem_range, Nat.lt_succ_iff]
  simp

theorem firstDecided_eq_none (h : firstDecided parse b = none) : parse b = .incomplete := by
  have hl := find?_eq_none.mp h b.length (by simp)
  rw [take_length, Parse.decided_iff, not_not] at hl
  exact hl

theorem firstDecided_append (h : firstDecided parse b = some n) (t : Bytes) :
    firstDecided parse (b ++ t) = some n := by
  rw [firstDecided_eq_some_iff] at h ⊢
  obtain ⟨hd, hn, hm⟩ := h
  refine ⟨?_, by rw [length_append]; omega, fun j hj => ?_⟩
  · rwa [take_append_of_le_length hn]
  · rw [take_append_of_le_length (by omega)]
    exact hm j hj

theorem firstParse_of_some (h : firstDecided parse b = some n) :
    firstParse parse b = parse (b.take n) := by
  rw [firstParse, h]

theorem firstParse_append (h : firstParse parse b ≠ .incomplete) (t : Bytes) :
    firstParse parse (b ++ t) = firstParse parse b := by
  cases hn : firstDecided parse b with
  | none =>
    refine absurd ?_ h
    rw [firstParse, hn]
  | some n =>
    have hle := (firstDecided_eq_some_iff.mp hn).2.1
    rw [firstParse_of_some hn, firstParse_of_some (firstDecided_append hn t),
      take_append_of_le_length hle]

section Parsers

variable {start : Str → Str → Str → Option (Headers → Bytes → μ)}

/-- **The real parser reports what it should exactly when text follows.** -/
theorem parseMessage_eq_firstParse_iff (b : Bytes) :
    parseMessage start b = firstParse (parseMessage start) b ↔
      ∀ n, firstDecided (parseMessage start) b = some n → Utf8.Valid (b.drop n) := by
  cases hn : firstDecided (parseMessage start) b with
  | none =>
    refine iff_of_true ?_ (by simp)
    rw [firstDecided_eq_none hn, firstParse, hn]
  | some n =>
    have hd := (firstDecided_eq_some_iff.mp hn).1
    have hap := parseMessage_append_iff (Parse.decided_iff.mp hd) (b.drop n)
    rw [take_append_drop] at hap
    rw [firstParse_of_some hn, hap]
    constructor
    · rintro h n' hn'
      rw [← some.inj hn']
      exact h
    · exact fun h => h n rfl

variable (start) in
theorem parseMessage_delays (b : Bytes) : parseMessage start b = .incomplete ∨
      parseMessage start b = firstParse (parseMessage start) b := by
  by_cases hb : parseMessage start b = .incomplete
  · exact .inl hb
  · refine .inr ((parseMessage_eq_firstParse_iff b).mpr fun n hn => ?_)
    have hv : Utf8.Valid b := by
      by_contra h
      exact hb (parseMessage_of_not_valid h)
    have hd := (firstDecided_eq_some_iff.mp hn).1
    have hp : Utf8.Valid (b.take n) := by
      by_contra h
      rw [parseMessage_of_not_valid h] at hd
      cases hd
    rw [← take_append_drop n b] at hv
    exact (Utf8.valid_append_iff hp _).mp hv

/-- The real parser reports something when a complete message is followed by text. -/
theorem parseMessage_ne_incomplete_iff (b : Bytes) : parseMessage start b ≠ .incomplete ↔
      ∃ n, firstDecided (parseMessage start) b = some n ∧ Utf8.Valid (b.drop n) := by
  constructor
  · intro h
    cases hn : firstDecided (parseMessage start) b with
    | none => exact absurd (firstDecided_eq_none hn) h
    | some n =>
      have heq := (parseMessage_delays _ b).resolve_left h
      exact ⟨n, rfl, (parseMessage_eq_firstParse_iff b).mp heq n hn⟩
  · rintro ⟨n, hn, hv⟩
    have heq := (parseMessage_eq_firstParse_iff b).mpr fun n' hn' => by
      rw [hn] at hn'
      rwa [← some.inj hn']
    rw [heq, firstParse_of_some hn]
    exact Parse.decided_iff.mp (firstDecided_eq_some_iff.mp hn).1

theorem consumed_of_firstParse {b : Bytes} {msg : μ} {n : Nat}
    (h : firstParse (parseMessage start) b = .done msg n) : 4 ≤ n ∧ n ≤ b.length := by
  cases hk : firstDecided (parseMessage start) b with
  | none => rw [firstParse, hk] at h; cases h
  | some k =>
    rw [firstParse_of_some hk] at h
    have := consumed_of_done h
    rw [length_take] at this
    omega

end Parsers

/-! ## The loops with the first report -/

namespace Interleaving

variable {L : Interleaving σ μ} {parse : Bytes → Parse μ}

theorem packet_take {s s' : σ} {b r : Bytes} {o : List (Handled μ)}
    (h : packet s b = .take s' o r) :
    r.length < b.length ∧ ∀ t, packet s (b ++ t) = .take s' o (r ++ t) := by
  unfold packet at h
  by_cases h4 : b.length < 4
  · rw [if_pos h4] at h
    cases h
  rw [if_neg h4] at h
  by_cases hlen : b.length < 4 + ofBe [b.getD 2 0, b.getD 3 0]
  · rw [if_pos hlen] at h
    cases h
  rw [if_neg hlen] at h
  cases h
  refine ⟨by rw [length_drop]; omega, fun t => ?_⟩
  have hg : ∀ i < 4, (b ++ t).getD i 0 = b.getD i 0 := by
    intro i hi
    rw [getD_eq_getElem?_getD, getD_eq_getElem?_getD, getElem?_append_left (by omega)]
  unfold packet
  rw [hg 1 (by omega), hg 2 (by omega), hg 3 (by omega)]
  rw [length_append, if_neg (by omega), if_neg (by omega),
    drop_append_of_le_length (by omega), drop_append_of_le_length (by omega),
    take_append_of_le_length (by rw [length_drop]; omega)]

theorem packet_ne_crash (s : σ) (b : Bytes) : packet (μ := μ) s b ≠ .crash := by
  unfold packet
  dsimp only
  split
  next => simp
  next => split <;> simp

theorem text_take {s s' : σ} {b r : Bytes} {o : List (Handled μ)} {p : Parse μ}
    (hn : ∀ {msg : μ} {n : Nat}, p = .done msg n → 4 ≤ n ∧ n ≤ b.length)
    (h : L.text s b p = .take s' o r) :
    r.length < b.length ∧ ∀ t, L.text s (b ++ t) p = .take s' o (r ++ t) := by
  cases p with
  | incomplete | panic => cases h
  | done msg n =>
    have hb := hn rfl
    cases h
    refine ⟨by rw [length_drop]; omega, fun t => ?_⟩
    rw [text, drop_append_of_le_length hb.2]

theorem shrinks_attempt
    (hn : ∀ {b : Bytes} {msg : μ} {n : Nat}, parse b = .done msg n → 4 ≤ n ∧ n ≤ b.length) :
    Shrinks (L.attempt parse) := by
  intro s b s' o r h
  unfold attempt at h
  split at h
  next => cases h
  next =>
    split at h
    next => exact (packet_take h).1
    next => exact (text_take hn h).1

theorem atPacket_append (s : σ) {b : Bytes} (hb : b ≠ []) (t : Bytes) :
    L.atPacket s (b ++ t) = L.atPacket s b := by
  cases b with
  | nil => exact absurd rfl hb
  | cons x b => rfl

theorem attempt_nil (hnil : parse [] = .incomplete) (s : σ) : L.attempt parse s [] = .wait := by
  unfold attempt
  rw [hnil]
  split
  next => rfl
  next => split <;> rfl

/-- With the first report, a turn that does something is decided by the bytes it saw. -/
theorem extends_firstParse (hnil : parse [] = .incomplete)
    (hn : ∀ {b : Bytes} {msg : μ} {n : Nat}, firstParse parse b = .done msg n → 4 ≤ n ∧
      n ≤ b.length) :
    Extends (L.attempt (firstParse parse)) := by
  intro s b t
  have hnil' : firstParse parse [] = .incomplete := by
    unfold firstParse firstDecided
    simp [hnil, Parse.decided]
  by_cases hb : b = []
  · rw [hb, attempt_nil hnil' s]
    exact ⟨fun _ _ _ h => (nomatch h), fun h => (nomatch h)⟩
  unfold attempt
  rw [atPacket_append s hb t]
  split
  next => exact ⟨fun _ _ _ h => (nomatch h), fun h => (nomatch h)⟩
  next =>
    split
    next => exact ⟨fun s' o r h => (packet_take h).2 t, fun h => absurd h (packet_ne_crash s b)⟩
    next =>
      by_cases hd : firstParse parse b = .incomplete
      · rw [hd]
        exact ⟨fun _ _ _ h => (nomatch h), fun h => (nomatch h)⟩
      · rw [firstParse_append hd t]
        refine ⟨fun s' o r h => (text_take hn h).2 t, fun h => ?_⟩
        cases hp : firstParse parse b with
        | panic => rfl
        | incomplete => exact absurd hp hd
        | done msg n => rw [hp] at h; cases h

/-- The bytes behind a message at the front are text, as far as they have been read. -/
def TextBehind (L : Interleaving σ μ) (parse : Bytes → Parse μ) (s : σ) (b : Bytes) : Prop :=
  L.ended s = false → L.atPacket s b = false →
    ∀ n, firstDecided parse b = some n → Utf8.Valid (b.drop n)

section Messages

variable {start : Str → Str → Str → Option (Headers → Bytes → μ)}

theorem delays_parseMessage : Delays (L.attempt (parseMessage start))
    (L.attempt (firstParse (parseMessage start))) := by
  intro s b
  unfold attempt
  split
  next => exact .inl rfl
  next =>
    split
    next => exact .inr rfl
    next =>
      rcases parseMessage_delays start b with h | h
      · rw [h]
        exact .inl rfl
      · rw [← h]
        exact .inr rfl

/-- One turn: the real parser does as it should exactly when text follows. -/
theorem attempt_eq_iff (s : σ) (b : Bytes) :
    L.attempt (parseMessage start) s b = L.attempt (firstParse (parseMessage start)) s b ↔
      L.TextBehind (parseMessage start) s b := by
  unfold attempt TextBehind
  by_cases he : L.ended s = true
  · rw [he]
    exact iff_of_true rfl (fun h => by cases h)
  rw [if_neg he, if_neg he]
  by_cases hp : L.atPacket s b = true
  · rw [if_pos hp, if_pos hp, hp]
    exact iff_of_true rfl (fun _ h => by cases h)
  rw [if_neg hp, if_neg hp, ← parseMessage_eq_firstParse_iff b]
  rw [Bool.not_eq_true] at he hp
  constructor
  · intro h _ _
    rcases parseMessage_delays start b with hi | heq
    · rw [hi] at h ⊢
      cases hf : firstParse (parseMessage start) b with
      | incomplete => rfl
      | panic | done => rw [hf] at h; cases h
    · exact heq
  · intro h
    rw [h he hp]

/-- **Keeping up with the first reports**, read by read. -/
theorem keeps_up_iff (s : σ) (buf : Bytes) (ps : List Bytes) :
    (∀ qs rs, ps = qs ++ rs → qs ≠ [] → feedAll (L.attempt (parseMessage start)) s buf qs =
        feed (L.attempt (firstParse (parseMessage start))) s (buf ++ qs.flatten)) ↔
      Throughout (L.attempt (firstParse (parseMessage start)))
        (L.TextBehind (parseMessage start)) s buf ps := by
  have hnil : parseMessage start [] = .incomplete := rfl
  rw [feedAll_eq_feed_iff_throughout (shrinks_attempt consumed_of_done)
    (shrinks_attempt consumed_of_firstParse) delays_parseMessage
    (extends_firstParse hnil consumed_of_firstParse)]
  exact throughout_congr attempt_eq_iff ps s buf

end Messages

end Interleaving

/-! ## `read_response` -/

variable {buffer : Bytes} {r : RtspResponse}

theorem readResponse_cons (h : parseResponse buffer = .incomplete) (p : Bytes)
    (ps : List Bytes) : readResponse buffer (p :: ps) = readResponse (buffer ++ p) ps := by
  rw [readResponse.eq_def, h]

theorem readResponse_nil (h : parseResponse buffer = .incomplete) :
    readResponse buffer [] = .closed := by
  rw [readResponse.eq_def, h]

theorem readResponse_of_done {n : Nat} (h : parseResponse buffer = .done r n) (reads : List Bytes) :
    readResponse buffer reads = .response r (buffer.drop n) reads ∧
      firstParse parseResponse (buffer ++ reads.flatten) = .done r n ∧
      buffer.drop n ++ reads.flatten = (buffer ++ reads.flatten).drop n := by
  have hf : firstParse parseResponse buffer = .done r n := by
    rw [← h]
    refine ((parseMessage_delays _ buffer).resolve_left ?_).symm
    intro hi
    rw [show parseMessage statusLine buffer = .done r n from h] at hi
    cases hi
  refine ⟨by rw [readResponse.eq_def, h], ?_, ?_⟩
  · rw [firstParse_append (by rw [hf]; simp), hf]
  · rw [drop_append_of_le_length (consumed_of_done h).2]

theorem readResponse_of_panic (h : parseResponse buffer = .panic)
    (reads : List Bytes) : readResponse buffer reads = .panic := by
  rw [readResponse.eq_def, h]

/-- Whatever `read_response` returns is the response that the bytes begin with, and it
loses none of the bytes behind it. -/
theorem readResponse_response {reads : List Bytes} {rest : Bytes} {unread : List Bytes}
    (h : readResponse buffer reads = .response r rest unread) :
    ∃ n, firstParse parseResponse (buffer ++ reads.flatten) = .done r n ∧
      rest ++ unread.flatten = (buffer ++ reads.flatten).drop n := by
  induction reads generalizing buffer with
  | nil =>
    cases hp : parseResponse buffer with
    | incomplete => rw [readResponse_nil hp] at h; cases h
    | panic => rw [readResponse_of_panic hp] at h; cases h
    | done r' n =>
      obtain ⟨heq, hf, hd⟩ := readResponse_of_done hp []
      rw [heq] at h
      cases h
      exact ⟨n, hf, hd⟩
  | cons p ps ih =>
    cases hp : parseResponse buffer with
    | incomplete =>
      rw [readResponse_cons hp] at h
      rw [flatten_cons, ← append_assoc]
      exact ih h
    | panic => rw [readResponse_of_panic hp] at h; cases h
    | done r' n =>
      obtain ⟨heq, hf, hd⟩ := readResponse_of_done hp (p :: ps)
      rw [heq] at h
      cases h
      exact ⟨n, hf, hd⟩

/-- It waits for ever exactly when no read completes a response with text behind it. -/
theorem readResponse_closed_iff (buffer : Bytes) (reads : List Bytes) :
    readResponse buffer reads = .closed ↔
      ∀ qs rs, reads = qs ++ rs → parseResponse (buffer ++ qs.flatten) = .incomplete := by
  induction reads generalizing buffer with
  | nil =>
    constructor
    · intro h qs rs hqs
      rw [(append_eq_nil_iff.mp hqs.symm).1, flatten_nil, append_nil]
      cases hp : parseResponse buffer with
      | incomplete => rfl
      | panic => rw [readResponse_of_panic hp] at h; cases h
      | done r n => rw [(readResponse_of_done hp []).1] at h; cases h
    · intro h
      have hp := h [] [] rfl
      rw [flatten_nil, append_nil] at hp
      exact readResponse_nil hp
  | cons p ps ih =>
    constructor
    · intro h qs rs hqs
      have hp : parseResponse buffer = .incomplete := by
        cases hp : parseResponse buffer with
        | incomplete => rfl
        | panic => rw [readResponse_of_panic hp] at h; cases h
        | done r n => rw [(readResponse_of_done hp (p :: ps)).1] at h; cases h
      rw [readResponse_cons hp, ih] at h
      cases qs with
      | nil => rwa [flatten_nil, append_nil]
      | cons q qs =>
        obtain ⟨rfl, ht⟩ := List.cons.inj hqs
        rw [flatten_cons, ← append_assoc]
        exact h qs rs ht
    · intro h
      have hp := h [] (p :: ps) rfl
      rw [flatten_nil, append_nil] at hp
      rw [readResponse_cons hp, ih]
      intro qs rs hqs
      have := h (p :: qs) rs (by rw [hqs, cons_append])
      rwa [flatten_cons, ← append_assoc] at this

/-! ## The framing of a connection -/

/-- **What RTSP framing depends on.** A parser reports a complete message exactly when
text follows it, and panics exactly when the announced length does not fit a `usize`.
`process_buffer` and the loop of the pull client have after every read handled what the
bytes so far contain, however they were cut, exactly when behind each message there was
text as far as had been read; `read_response` returns the response that the bytes begin
with or none, and none exactly when no read left text behind it. -/
theorem rtsp_framing_iff (answers : Nat → RtspEnv) (c : RtspConnection) (buf : Bytes)
    (ps : List Bytes) :
    (∀ m t r, parseRequest m = .done r m.length →
      (parseRequest (m ++ t) = .done r m.length ↔ Utf8.Valid t)) ∧
    (∀ m t r, parseResponse m = .done r m.length →
      (parseResponse (m ++ t) = .done r m.length ↔ Utf8.Valid t)) ∧
    (∀ b, parseRequest b = .panic ↔ ∃ make bodyStart len,
      head requestLine b = some (make, bodyStart, len) ∧ 2 ^ 64 ≤ bodyStart + len) ∧
    (∀ b, parseResponse b = .panic ↔ ∃ make bodyStart len,
      head statusLine b = some (make, bodyStart, len) ∧ 2 ^ 64 ≤ bodyStart + len) ∧
    ((∀ qs rs, ps = qs ++ rs → qs ≠ [] → feedAll (processBuffer answers) c buf qs =
        feed ((serverLoop answers).attempt (firstParse parseRequest)) c (buf ++ qs.flatten)) ↔
      Throughout ((serverLoop answers).attempt (firstParse parseRequest))
        ((serverLoop answers).TextBehind parseRequest) c buf ps) ∧
    ((∀ qs rs, ps = qs ++ rs → qs ≠ [] → feedAll pullLoop () buf qs =
        feed (clientLoop.attempt (firstParse parseResponse)) () (buf ++ qs.flatten)) ↔
      Throughout (clientLoop.attempt (firstParse parseResponse))
        (clientLoop.TextBehind parseResponse) () buf ps) ∧
    (∀ r rest unread, readResponse buf ps = .response r rest unread →
      ∃ n, firstParse parseResponse (buf ++ ps.flatten) = .done r n ∧
        rest ++ unread.flatten = (buf ++ ps.flatten).drop n) ∧
    (readResponse buf ps ≠ .closed ↔ ∃ qs rs, ps = qs ++ rs ∧ ∃ n,
      firstDecided parseResponse (buf ++ qs.flatten) = some n ∧
          Utf8.Valid ((buf ++ qs.flatten).drop n)) := by
  refine ⟨fun m t r h => ?_, fun m t r h => ?_, parseMessage_eq_panic_iff,
    parseMessage_eq_panic_iff, (serverLoop answers).keeps_up_iff c buf ps,
    clientLoop.keeps_up_iff () buf ps, fun r rest unread h => readResponse_response h, ?_⟩
  · have hm : parseMessage requestLine m ≠ .incomplete := by
      rw [show parseMessage requestLine m = .done r m.length from h]
      simp
    rw [← parseMessage_append_iff hm t, ← h]
    rfl
  · have hm : parseMessage statusLine m ≠ .incomplete := by
      rw [show parseMessage statusLine m = .done r m.length from h]
      simp
    rw [← parseMessage_append_iff hm t, ← h]
    rfl
  · rw [Ne, readResponse_closed_iff]
    simp only [not_forall, exists_prop]
    exact exists_congr fun qs => exists_congr fun rs => and_congr_right fun _ =>
      parseMessage_ne_incomplete_iff _

/-- A request, a response, and a packet whose payload is no text. -/
def optionsRequest : Bytes := Utf8.encode "OPTIONS rtsp://h/live/cam RTSP/1.0\r\nCSeq: 1\r\n\r\n"

def okResponse : Bytes := Utf8.encode "RTSP/1.0 200 OK\r\nCSeq: 1\r\n\r\n"

def binaryPacket : Bytes := [0x24, 0, 0, 1, 0xFF]

/-- The message is there and the parsers do not see it; a length that does not fit
panics; and one read or two make a difference to the pull client. -/
theorem rtsp_framing_depends_on_tail :
    (∃ r, parseRequest optionsRequest = .done r optionsRequest.length ∧
      parseRequest (optionsRequest ++ binaryPacket) = .incomplete) ∧
    (∃ r, parseResponse okResponse = .done r okResponse.length ∧
      parseResponse (okResponse ++ binaryPacket) = .incomplete) ∧
    parseRequest (Utf8.encode "OPTIONS * RTSP/1.0\r\nContent-Length: 18446744073709551615\r\n\r\n")
      = .panic ∧
    parseResponse (Utf8.encode "RTSP/1.0 200 OK\r\nContent-Length: 18446744073709551615\r\n\r\n") =
      .panic ∧
    feedAll pullLoop () [] [okResponse ++ binaryPacket] =
      some ((), [], okResponse ++ binaryPacket) ∧
    (∃ r, feedAll pullLoop () [] [okResponse, binaryPacket] =
      some ((), [.message r, .rtp 0 [0xFF]], [])) := by
  refine ⟨⟨⟨"OPTIONS", "rtsp://h/live/cam", "RTSP/1.0",
    [("CSeq", "1")], []⟩, ?_, ?_⟩, ⟨⟨"RTSP/1.0", 200, "OK",
    [("CSeq", "1")], []⟩, ?_, ?_⟩, ?_, ?_, ?_, ⟨"RTSP/1.0", 200, "OK",
    [("CSeq", "1")], []⟩, ?_⟩ <;> decide +kernel

end MediaKit.Rtsp
