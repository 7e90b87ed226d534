import Mathlib.Data.List.GetD
import MediaKit.Lib.Reader
import MediaKit.Lib.Registry
import MediaKit.Rtmp.Message

/-!
# Does the chunk parser see how the TCP stream was cut?

`RtmpSession::run` feeds the parser one `read` at a time. `attempt` is one
`try_parse_one` seen as a reader in the sense of `Lib.Reader`, and
`feed_eq_reader` says that `RtmpMessageParser::feed` is the loop around it.

`try_parse_one` waits for a whole header, so a cut inside a basic header, a
message header or an extended timestamp does not show. It does not wait for a
whole chunk payload: step 4 takes the `available` bytes, and the next attempt
reads the rest of that payload as a basic header. `wholeChunk` is the reader
that waits there too; it `Extends`, so for it no cut shows, and it `Delays` the
parser. Hence `feedAll_new_eq_feed_iff`: the cuts that never show are exactly
the ones that do not fall inside a chunk payload.
-/

namespace MediaKit.Rtmp

open Lib List Option Function

/-! ## The parser as a reader -/

/-- What the parser keeps besides its buffer. -/
structure ChunkContext where
  chunkSize : Nat
  chunkStates : Nat → Option ChunkState

namespace ChunkContext

def new : ChunkContext := ⟨128, fun _ => none⟩

/-- The parser with this context and the buffer `b`. -/
def parser (c : ChunkContext) (b : Bytes) : RtmpMessageParser := ⟨c.chunkSize, c.chunkStates, b⟩

end ChunkContext

variable {b : Bytes} {h : ChunkHeader} {cs : Nat → Option ChunkState} {c : ChunkContext}

open ChunkContext

def RtmpMessageParser.context (p : RtmpMessageParser) : ChunkContext := ⟨p.chunkSize, p.chunkStates⟩

@[simp] theorem parser_buffer (c : ChunkContext) (b : Bytes) : (c.parser b).buffer = b := rfl
@[simp] theorem parser_context (c : ChunkContext) (b : Bytes) : (c.parser b).context = c := rfl
@[simp] theorem parser_chunkSize (c : ChunkContext) (b : Bytes) : (c.parser b).chunkSize =
    c.chunkSize := rfl
@[simp] theorem parser_chunkStates (c : ChunkContext) (b : Bytes) : (c.parser b).chunkStates =
    c.chunkStates := rfl

/-- One round of the loop in `feed`. -/
def attempt (c : ChunkContext) (b : Bytes) : Attempt ChunkContext UInt8 RtmpMessage :=
  match tryParseOne (c.parser b) with
  | none => .crash
  | some (p, some msg) => .take p.context [msg] p.buffer
  | some (p, none) =>
    if p.buffer.length = b.length then .wait else .take p.context [] p.buffer

/-- The context after a chunk that completes the message with this payload. -/
def ChunkContext.completed (c : ChunkContext) (h : ChunkHeader) (payload : Bytes) : ChunkContext :=
  ⟨if h.state.msgTypeId = MSG_SET_CHUNK_SIZE ∧ 4 ≤ payload.length then
      max (payloadU32 payload).toNat 1
    else c.chunkSize,
   update c.chunkStates h.csid
    (some { h.state with timestamp := h.messageTs, buffer := [] })⟩

/-- The context after a chunk that leaves the message incomplete. -/
def ChunkContext.collected (c : ChunkContext) (h : ChunkHeader) (payload : Bytes) : ChunkContext :=
  ⟨c.chunkSize, update c.chunkStates h.csid (some { h.state with buffer := payload })⟩

/-- Step 5 as the outcome of an attempt. -/
def finishAttempt (c : ChunkContext) (h : ChunkHeader) (data rest : Bytes) :
    Attempt ChunkContext UInt8 RtmpMessage :=
  let payload := h.state.buffer ++ data
  if h.state.msgLength.toNat ≤ payload.length then
    match makeMessage h.messageTs h.state.msgTypeId h.state.msgStreamId payload with
    | none => .crash
    | some msg => .take (c.completed h payload) [msg] rest
  else .take (c.collected h payload) [] rest

/-! ## The header is decided by its own bytes -/

theorem parseBasicHeader_len {csid len : Nat} (hb : b ≠ [])
    (h : parseBasicHeader b = some (csid, len)) : 1 ≤ len ∧ len ≤ b.length := by
  have hpos := length_pos_iff.mpr hb
  unfold parseBasicHeader at h
  simp only at h
  split at h
  · split at h
    · cases h
    · cases h; omega
  · split at h
    · split at h
      · cases h
      · cases h; omega
    · cases h; omega

theorem parseBasicHeader_append {q : Nat × Nat} (hb : b ≠ []) (t : Bytes)
    (h : parseBasicHeader b = some q) : parseBasicHeader (b ++ t) = some q := by
  have hpos := length_pos_iff.mpr hb
  have hg : ∀ i, i < b.length → (b ++ t).getD i 0 = b.getD i 0 := fun i => getD_append b t 0 i
  unfold parseBasicHeader at h ⊢
  rw [hg 0 hpos, length_append]
  split_ifs at h ⊢ with h0 hs h0' h1 hs'
  all_goals grind

theorem chunkFmt_append (hb : b ≠ []) (t : Bytes) : chunkFmt (b ++ t) = chunkFmt b := by
  unfold chunkFmt
  rw [getD_append _ _ _ 0 (length_pos_iff.mpr hb)]

theorem readMessageHeader_append {fmt : UInt8} {pos : Nat} (s : ChunkState) (t : Bytes)
    (h : pos + headerLen fmt ≤ b.length) :
    readMessageHeader fmt (b ++ t) pos s = readMessageHeader fmt b pos s := by
  have hg : ∀ i, i < b.length → (b ++ t).getD i 0 = b.getD i 0 := fun i => getD_append b t 0 i
  unfold headerLen at h
  unfold readMessageHeader field24
  split_ifs at h ⊢
  · simp (disch := omega) only [hg]
  · simp (disch := omega) only [hg]
  · simp (disch := omega) only [hg]
  · rfl

/-- Everything a complete header says about the bytes it was read from. -/
theorem parseHeader_cases (hp : parseHeader cs b = some h) :
    ∃ len, b ≠ [] ∧ parseBasicHeader b = some (h.csid, len) ∧
      len + headerLen (chunkFmt b) ≤ b.length ∧ h.prev = cs h.csid ∧
      let s := readMessageHeader (chunkFmt b) b len (restoreState h.prev (chunkFmt b))
      let pos := len + headerLen (chunkFmt b)
      (s.tsField = 0xFFFFFF ∧ pos + 4 ≤ b.length ∧ h.pos = pos + 4 ∧ h.state = { s with
          tsField := UInt32.ofNat (ofBe [b.getD pos 0, b.getD (pos + 1) 0, b.getD (pos + 2) 0,
            b.getD (pos + 3) 0]),
          hasExtendedTs := true }) ∨
      (s.tsField ≠ 0xFFFFFF ∧ (chunkFmt b = 3 ∧ s.hasExtendedTs = true) ∧ pos + 4 ≤ b.length ∧
        h.pos = pos + 4 ∧ h.state = s) ∨
      (s.tsField ≠ 0xFFFFFF ∧ ¬ (chunkFmt b = 3 ∧ s.hasExtendedTs = true) ∧ h.pos = pos ∧
        h.state = s) := by
  unfold parseHeader at hp
  split at hp
  · cases hp
  next hb =>
    have hb' : b ≠ [] := by simpa using hb
    simp only at hp
    split at hp
    · cases hp
    next csid len hbh =>
      split at hp
      · cases hp
      next hlen =>
        split at hp
        next hts =>
          split at hp
          · cases hp
          next he =>
            cases hp
            exact ⟨len, hb', hbh, by omega, rfl, .inl ⟨hts, by omega, rfl, rfl⟩⟩
        next hts =>
          split at hp
          next h3 =>
            split at hp
            · cases hp
            next he =>
              cases hp
              exact ⟨len, hb', hbh, by omega, rfl, .inr (.inl ⟨hts, h3, by omega, rfl, rfl⟩)⟩
          next h3 =>
            cases hp
            exact ⟨len, hb', hbh, by omega, rfl, .inr (.inr ⟨hts, h3, rfl, rfl⟩)⟩

theorem parseHeader_pos (hp : parseHeader cs b = some h) : 1 ≤ h.pos ∧ h.pos ≤ b.length := by
  obtain ⟨len, hb, hbh, hlen, -, ⟨-, he, hpos, -⟩ | ⟨-, -, he, hpos, -⟩ | ⟨-, -, hpos, -⟩⟩ :=
    parseHeader_cases hp
  all_goals
    have := parseBasicHeader_len hb hbh
    omega

/-- A complete header stays the same header when more bytes follow. -/
theorem parseHeader_append
    (t : Bytes) (hp : parseHeader cs b = some h) : parseHeader cs (b ++ t) = some h := by
  obtain ⟨csid, prev, state, p⟩ := h
  obtain ⟨len, hb, hbh, hlen, hpr, hr⟩ := parseHeader_cases hp
  simp only at hbh hpr hr
  subst hpr
  have hne : (b ++ t).isEmpty = false := by simp [hb]
  unfold parseHeader
  rw [hne, chunkFmt_append hb, parseBasicHeader_append hb t hbh]
  simp only [Bool.false_eq_true, if_false, length_append]
  rw [if_neg (by omega), readMessageHeader_append _ t hlen]
  rcases hr with ⟨hts, he, rfl, rfl⟩ | ⟨hts, h3, he, rfl, rfl⟩ | ⟨hts, h3, rfl, rfl⟩
  · rw [if_pos hts, if_neg (by omega), getD_append _ _ _ _ (by omega),
      getD_append _ _ _ _ (by omega), getD_append _ _ _ _ (by omega),
      getD_append _ _ _ _ (by omega)]
  · rw [if_neg hts, if_pos h3, if_neg (by omega)]
  · rw [if_neg hts, if_neg h3]

theorem parseHeader_buffer (hp : parseHeader cs b = some h) :
    h.state.buffer = (restoreState (cs h.csid) (chunkFmt b)).buffer := by
  have hr : ∀ fmt pos s, (readMessageHeader fmt b pos s).buffer = s.buffer := by
    intro fmt pos s
    unfold readMessageHeader
    split
    · rfl
    · split
      · rfl
      · split <;> rfl
  obtain ⟨len, -, -, -, hpr, ⟨-, -, -, hs⟩ | ⟨-, -, -, -, hs⟩ | ⟨-, -, -, hs⟩⟩ :=
    parseHeader_cases hp
  all_goals rw [hs, ← hpr]; exact hr _ _ _

/-! ## One attempt -/

/-- What `try_parse_one` returns when an attempt on the buffer `b` has this outcome. -/
def ChunkContext.answer (c : ChunkContext) (b : Bytes) :
    Attempt ChunkContext UInt8 RtmpMessage → Option (RtmpMessageParser × Option RtmpMessage)
  | .crash => none
  | .wait => some (c.parser b, none)
  | .take c' o r => some (c'.parser r, o.head?)

theorem finishChunk_eq (c : ChunkContext) (b : Bytes) (h : ChunkHeader) (data rest : Bytes) :
    finishChunk (c.parser b) h data rest = c.answer b (finishAttempt c h data rest) := by
  unfold finishChunk finishAttempt
  dsimp only
  split
  · cases makeMessage h.messageTs h.state.msgTypeId h.state.msgStreamId (h.state.buffer ++ data) <;>
      rfl
  · rfl

/-- Steps 4 and 5 behind a header. -/
def chunkAttempt (c : ChunkContext) (b : Bytes) (h : ChunkHeader) :
    Attempt ChunkContext UInt8 RtmpMessage :=
  let available := min (h.state.chunkToRead c.chunkSize) (b.length - h.pos)
  if available = 0 then
    if h.state.remaining = 0 then .take c [] (b.drop h.pos) else .wait
  else
    finishAttempt c h ((b.drop h.pos).take available) (b.drop (h.pos + available))

theorem tryParseOne_of_header (hp : parseHeader c.chunkStates b = some h) :
    tryParseOne (c.parser b) = c.answer b (chunkAttempt c b h) := by
  unfold tryParseOne chunkAttempt
  simp only [parser_chunkStates, parser_buffer, hp, finishChunk_eq, apply_ite (c.answer b)]
  rfl

theorem finishAttempt_ne_wait (c : ChunkContext) (h : ChunkHeader) (data rest : Bytes) :
    finishAttempt c h data rest ≠ .wait := by
  unfold finishAttempt
  simp only
  split
  · split <;> exact nofun
  · exact nofun

variable {o : List RtmpMessage}
  {c' : ChunkContext}

/-- Step 5 completes a message or stores a longer payload, and keeps what is
behind the chunk. -/
theorem finishAttempt_take {data rest r : Bytes} (hf : finishAttempt c h data rest = .take c' o r) :
    r = rest ∧ ((∃ msg, o = [msg] ∧ c' = c.completed h (h.state.buffer ++ data) ∧
        makeMessage h.messageTs h.state.msgTypeId h.state.msgStreamId (h.state.buffer ++ data) =
          some msg) ∨
       (o = [] ∧ c' = c.collected h (h.state.buffer ++ data) ∧ (h.state.buffer ++ data).length <
         h.state.msgLength.toNat)) := by
  unfold finishAttempt at hf
  simp only at hf
  split at hf
  · split at hf
    · cases hf
    next msg hm =>
      cases hf
      exact ⟨rfl, .inl ⟨msg, rfl, rfl, hm⟩⟩
  next hlen =>
    cases hf
    exact ⟨rfl, .inr ⟨rfl, rfl, by omega⟩⟩

theorem finishAttempt_append (c : ChunkContext) (h : ChunkHeader) (data rest t : Bytes) :
    (∀ c' o r, finishAttempt c h data rest = .take c' o r →
      finishAttempt c h data (rest ++ t) = .take c' o (r ++ t)) ∧
    (finishAttempt c h data rest = .crash → finishAttempt c h data (rest ++ t) = .crash) := by
  unfold finishAttempt
  simp only
  split
  · split
    · exact ⟨nofun, fun _ => rfl⟩
    · refine ⟨?_, nofun⟩
      intro c' o r hf
      cases hf
      rfl
  · refine ⟨?_, nofun⟩
    intro c' o r hf
    cases hf
    rfl

/-- **What an attempt behind a header takes**: the header alone, or a chunk that completes a message
or leaves it incomplete. -/
theorem chunkAttempt_take {r : Bytes}
    (hp : parseHeader c.chunkStates b = some h) (ht : chunkAttempt c b h = .take c' o r) :
    r.length < b.length ∧ (o = [] ∧ c' = c ∨ ∃ payload, (∃ msg, o = [msg]) ∧
      c' = c.completed h payload ∨
      o = [] ∧ c' = c.collected h payload ∧ payload.length < h.state.msgLength.toNat) := by
  have hpos := parseHeader_pos hp
  unfold chunkAttempt at ht
  dsimp only at ht
  split at ht
  · split at ht
    · cases ht
      exact ⟨by rw [length_drop]; omega, .inl ⟨rfl, rfl⟩⟩
    · cases ht
  · obtain ⟨rfl, hot⟩ := finishAttempt_take ht
    refine ⟨by rw [length_drop]; omega, .inr ?_⟩
    rcases hot with ⟨msg, ho, hc, -⟩ | hot
    · exact ⟨_, .inl ⟨⟨msg, ho⟩, hc⟩⟩
    · exact ⟨_, .inr hot⟩

theorem attempt_of_none (h : parseHeader c.chunkStates b = none) : attempt c b = .wait := by
  simp [attempt, tryParseOne, h]

theorem attempt_of_header (hp : parseHeader c.chunkStates b = some h) :
    attempt c b = chunkAttempt c b h := by
  rw [attempt, tryParseOne_of_header hp]
  cases ha : chunkAttempt c b h with
  | crash => rfl
  | wait => exact if_pos rfl
  | take c' o r =>
    obtain ⟨hlt, ⟨rfl, -⟩ | ⟨-, ⟨⟨msg, rfl⟩, -⟩ | ⟨rfl, -⟩⟩⟩ := chunkAttempt_take hp ha
    · exact if_neg (Nat.ne_of_lt hlt)
    · rfl
    · exact if_neg (Nat.ne_of_lt hlt)

theorem tryParseOne_eq (c : ChunkContext) (b : Bytes) :
    tryParseOne (c.parser b) = c.answer b (attempt c b) := by
  cases hp : parseHeader c.chunkStates b with
  | none => simp [attempt_of_none hp, tryParseOne, answer, hp]
  | some h => rw [attempt_of_header hp, tryParseOne_of_header hp]

/-- What an attempt that takes something does to the buffer and the context. -/
theorem attempt_take {r : Bytes} (ht : attempt c b = .take c' o r) :
    r.length < b.length ∧ (o = [] ∧ c' = c ∨ ∃ h payload, (∃ msg, o = [msg]) ∧
      c' = c.completed h payload ∨
      o = [] ∧ c' = c.collected h payload ∧ payload.length < h.state.msgLength.toNat) := by
  cases hp : parseHeader c.chunkStates b with
  | none =>
    rw [attempt_of_none hp] at ht
    cases ht
  | some h =>
    rw [attempt_of_header hp] at ht
    exact (chunkAttempt_take hp ht).imp_right (Or.imp_right fun ho => ⟨h, ho⟩)

theorem attempt_shrinks : Shrinks attempt := fun _ _ _ _ _ ht => (attempt_take ht).1

theorem attempt_nil (c : ChunkContext) : attempt c [] = .wait := attempt_of_none rfl

theorem feedLoop_eq_drain : ∀ (n : Nat) (c : ChunkContext) (b : Bytes),
    RtmpMessageParser.feedLoop n (c.parser b)
      = (drain attempt n c b).map fun q => (q.1.parser q.2.2, q.2.1) := by
  intro n
  induction n with
  | zero => intro c b; rfl
  | succ n ih =>
    intro c b
    rw [RtmpMessageParser.feedLoop, drain, tryParseOne_eq]
    cases ha : attempt c b with
    | crash => rfl
    | wait => exact if_pos rfl
    | take c' o r =>
      obtain ⟨hlt, ho⟩ := attempt_take ha
      obtain rfl | ⟨msg, rfl⟩ : o = [] ∨ ∃ msg, o = [msg] := by grind
      · refine (if_neg (Nat.ne_of_lt hlt)).trans ?_
        simp only [ih, Fed.prepend_nil]
      · simp only [answer, head?_cons, ih]
        cases drain attempt n c' r <;> rfl

/-- `RtmpMessageParser::feed` is the reader's loop. -/
theorem feed_eq_reader (c : ChunkContext) (b data : Bytes) : (c.parser b).feed data
      = (feed attempt c (b ++ data)).map fun q => (q.1.parser q.2.2, q.2.1) :=
  feedLoop_eq_drain ((b ++ data).length + 1) c (b ++ data)

namespace RtmpMessageParser

/-- One `feed` per read, the returned messages concatenated. -/
def feedAll : RtmpMessageParser → List Bytes → Option (RtmpMessageParser × List RtmpMessage)
  | p, [] => some (p, [])
  | p, d :: ds => (p.feed d).bind fun q => (feedAll q.1 ds).map fun r => (r.1, q.2 ++ r.2)

end RtmpMessageParser

variable {b : Bytes} {c : ChunkContext}

theorem feedAll_eq_reader : ∀ (ps : List Bytes) (c : ChunkContext) (b : Bytes),
    (c.parser b).feedAll ps
      = (feedAll attempt c b ps).map fun q => (q.1.parser q.2.2, q.2.1) := by
  intro ps
  induction ps with
  | nil => intro c b; rfl
  | cons p ps ih =>
    intro c b
    simp only [RtmpMessageParser.feedAll, feedAll]
    rw [feed_eq_reader]
    cases feed attempt c (b ++ p) with
    | none => rfl
    | some q =>
      simp only [map_some, bind_some, ih]
      cases feedAll attempt q.1 q.2.2 ps <;> rfl

/-! ## The reader that waits for whole chunks -/

/-- The buffer ends inside the payload of its first chunk: the header is there,
and some but not all of the bytes that this chunk carries. -/
def inPayload (c : ChunkContext) (b : Bytes) : Bool :=
  match parseHeader c.chunkStates b with
  | none => false
  | some h => decide (0 < b.length - h.pos ∧ b.length - h.pos < h.state.chunkToRead c.chunkSize)

theorem inPayload_iff : inPayload c b = true ↔ ∃ h, parseHeader c.chunkStates b = some h ∧
    0 < b.length - h.pos ∧
      b.length - h.pos < h.state.chunkToRead c.chunkSize := by
  unfold inPayload
  cases parseHeader c.chunkStates b with
  | none | some => simp

/-- The reading of the stream that takes every chunk as a whole. -/
def wholeChunk (c : ChunkContext) (b : Bytes) : Attempt ChunkContext UInt8 RtmpMessage :=
  if inPayload c b then .wait else attempt c b

theorem wholeChunk_delays : Delays wholeChunk attempt := by
  intro c b
  unfold wholeChunk
  split
  · exact .inl rfl
  · exact .inr rfl

theorem wholeChunk_shrinks : Shrinks wholeChunk := by
  intro c b c' o r ht
  rcases wholeChunk_delays c b with hw | he
  · rw [hw] at ht; cases ht
  · exact attempt_shrinks c b c' o r (by rw [← he, ht])

/-- Outside a payload, an attempt that does not wait does not look behind the chunk. -/
theorem attempt_append (t : Bytes) (hin : inPayload c b = false) :
    (∀ c' o r, attempt c b = .take c' o r →
      inPayload c (b ++ t) = false ∧ attempt c (b ++ t) = .take c' o (r ++ t)) ∧
    (attempt c b = .crash → inPayload c (b ++ t) = false ∧ attempt c (b ++ t) = .crash) := by
  cases hp : parseHeader c.chunkStates b with
  | none =>
    rw [attempt_of_none hp]
    exact ⟨nofun, nofun⟩
  | some h =>
    have hpos := parseHeader_pos hp
    have hp' := parseHeader_append t hp
    have hnt : ¬ (0 < b.length - h.pos ∧ b.length - h.pos < h.state.chunkToRead c.chunkSize) := by
      intro hcn
      rw [inPayload_iff.mpr ⟨h, hp, hcn⟩] at hin
      cases hin
    have hin' : h.state.chunkToRead c.chunkSize ≤ b.length - h.pos → inPayload c (b ++ t) =
        false := by
      intro hle
      rw [inPayload, hp']
      simp only [length_append, decide_eq_false_iff_not]
      omega
    rw [attempt_of_header hp, attempt_of_header hp', chunkAttempt, chunkAttempt]
    simp only [length_append]
    split
    next h0 =>
      split
      next hr =>
        -- nothing remains of this message: the header alone is skipped
        have hn : h.state.chunkToRead c.chunkSize = 0 := by
          unfold ChunkState.chunkToRead
          omega
        refine ⟨?_, nofun⟩
        intro c' o r ht
        cases ht
        rw [if_pos (by omega), drop_append_of_le_length hpos.2]
        exact ⟨hin' (by omega), rfl⟩
      next hr => exact ⟨nofun, nofun⟩
    next h0 =>
      -- the whole chunk is in `b`
      have hle : h.state.chunkToRead c.chunkSize ≤ b.length - h.pos := by omega
      have hm : min (h.state.chunkToRead c.chunkSize) (b.length + t.length - h.pos)
          = min (h.state.chunkToRead c.chunkSize) (b.length - h.pos) := by omega
      rw [hm, if_neg h0, drop_append_of_le_length hpos.2, drop_append_of_le_length (by omega),
        take_append_of_le_length (by rw [length_drop]; omega)]
      obtain ⟨htk, hcr⟩ := finishAttempt_append c h
        ((b.drop h.pos).take (min (h.state.chunkToRead c.chunkSize) (b.length - h.pos)))
        (b.drop (h.pos + min (h.state.chunkToRead c.chunkSize) (b.length - h.pos))) t
      exact ⟨fun c' o r ht => ⟨hin' hle, htk c' o r ht⟩, fun hc => ⟨hin' hle, hcr hc⟩⟩

theorem wholeChunk_extends : Extends wholeChunk := by
  intro c b t
  unfold wholeChunk
  cases hin : inPayload c b with
  | true => exact ⟨nofun, nofun⟩
  | false =>
    obtain ⟨htk, hcr⟩ := attempt_append t hin
    constructor
    · intro c' o r ht
      obtain ⟨hin', ht'⟩ := htk c' o r ht
      rw [hin', ht']
      rfl
    · intro hc
      obtain ⟨hin', hc'⟩ := hcr hc
      rw [hin', hc']
      rfl

/-- Where `wholeChunk` waits, the parser goes on only inside a payload. -/
theorem attempt_wait_iff (hw : wholeChunk c b = .wait) :
    attempt c b = .wait ↔ inPayload c b = false := by
  constructor
  · intro ha
    by_contra hin
    obtain ⟨h, hp, hpos, hlt⟩ := inPayload_iff.mp (by simpa using hin)
    rw [attempt_of_header hp, chunkAttempt] at ha
    rw [if_neg (by omega)] at ha
    exact finishAttempt_ne_wait _ _ _ _ ha
  · intro hin
    rw [wholeChunk, hin] at hw
    exact hw

/-- The bytes so far end inside a chunk payload, in the reading by whole chunks. -/
def EndsInPayload (stream : Bytes) : Prop :=
  ∃ c o r, feed wholeChunk .new stream = some (c, o, r) ∧ inPayload c r = true

theorem cleanEnd_iff (stream : Bytes) :
    CleanEnd wholeChunk attempt .new stream ↔ ¬ EndsInPayload stream := by
  constructor
  · rintro hc ⟨c, o, r, hf, hin⟩
    have hw := feed_waits wholeChunk_shrinks _ _ hf
    rw [(attempt_wait_iff hw).mp (hc c o r hf)] at hin
    cases hin
  · intro hn c o r hf
    have hw := feed_waits wholeChunk_shrinks _ _ hf
    rw [attempt_wait_iff hw]
    by_contra hin
    exact hn ⟨c, o, r, hf, by simpa using hin⟩

/-! ## A cut inside a payload shows at the next byte -/

/-- No stored payload is long enough for `buffer.len() as u32` to wrap. -/
def Bounded (c : ChunkContext) : Prop :=
  ∀ k st, c.chunkStates k = some st → st.buffer.length < 2 ^ 32

theorem parseHeader_bounded {h : ChunkHeader} (hb : Bounded c)
    (hp : parseHeader c.chunkStates b = some h) : h.state.buffer.length < 2 ^ 32 := by
  rw [parseHeader_buffer hp]
  unfold restoreState
  cases hk : c.chunkStates h.csid with
  | none => simp
  | some st =>
    have := hb h.csid st hk
    simp only
    split
    · simp
    · exact this

theorem bounded_update (hb : Bounded c) (size k : Nat) {st : ChunkState}
    (hst : st.buffer.length < 2 ^ 32) : Bounded ⟨size, update c.chunkStates k (some st)⟩ := by
  intro k' st' hk'
  rcases of_update hk' with ⟨-, ⟨⟩⟩ | ⟨-, hk'⟩
  · exact hst
  · exact hb k' st' hk'

theorem attempt_bounded (c : ChunkContext) (b : Bytes) (c' : ChunkContext) (o : List RtmpMessage)
    (r : Bytes) (hb : Bounded c) (ht : attempt c b = .take c' o r) : Bounded c' := by
  obtain ⟨-, ⟨-, rfl⟩ | ⟨h, payload, ⟨-, rfl⟩ | ⟨-, rfl, hlen⟩⟩⟩ := attempt_take ht
  · exact hb
  · exact bounded_update hb _ _ (by simp)
  · exact bounded_update hb _ _ (lt_trans hlen (UInt32.toNat_lt _))

theorem new_bounded : Bounded .new := by
  intro k st hk
  cases hk

theorem wholeChunk_bounded {stream : Bytes} {r : Bytes}
    (hf : feed wholeChunk .new stream = some (c, o, r)) : Bounded c := by
  refine feed_invariant wholeChunk_shrinks ?_ _ _ new_bounded hf
  intro c b c' o r hb ht
  rcases wholeChunk_delays c b with hw | he
  · rw [hw] at ht; cases ht
  · exact attempt_bounded c b c' o r hb (by rw [← he, ht])

/-- A single byte is never more than a header: the parser waits with it, or
skips it as the format 3 header of a stream that expects no payload. -/
theorem feed_one_byte (c : ChunkContext) (x : UInt8) :
    feed attempt c [x] = some (c, [], [x]) ∨ feed attempt c [x] = some (c, [], []) := by
  cases hp : parseHeader c.chunkStates [x] with
  | none => exact .inl (feed_of_wait (attempt_of_none hp))
  | some h =>
    have hpos := parseHeader_pos hp
    have ha := attempt_of_header hp
    simp only [chunkAttempt, length_singleton] at ha
    rw [if_pos (by omega)] at ha
    split at ha
    · refine .inr ?_
      rw [feed_of_take attempt_shrinks ha, drop_of_length_le (by simpa using hpos.1),
        feed_of_wait (attempt_nil c)]
      rfl
    · exact .inl (feed_of_wait ha)

/-- Everything received of a chunk payload that ends with the buffer is taken. -/
theorem attempt_in_payload {h : ChunkHeader} (hp : parseHeader c.chunkStates b = some h)
    (hpos : 0 < b.length - h.pos) (hle : b.length - h.pos ≤ h.state.chunkToRead c.chunkSize) :
    attempt c b = finishAttempt c h (b.drop h.pos) [] := by
  rw [attempt_of_header hp, chunkAttempt]
  rw [if_neg (by omega), min_eq_right hle, take_of_length_le (by simp),
    drop_of_length_le (i := h.pos + (b.length - h.pos)) (by omega)]

/-- Cut inside a payload, the parser does not take the next byte as payload. -/
theorem attempt_cut_shows (stream : Bytes) (c : ChunkContext) (o : List RtmpMessage) (r : Bytes)
    (x : UInt8) (hf : feed wholeChunk .new stream = some (c, o, r)) (hne : attempt c r ≠ .wait) :
    feed attempt c (r ++ [x])
      ≠ (feed attempt c r).bind fun q => Fed.prepend q.2.1 (feed attempt q.1 (q.2.2 ++ [x])) := by
  have hin : inPayload c r = true := by
    by_contra hin
    exact hne ((attempt_wait_iff (feed_waits wholeChunk_shrinks _ _ hf)).mpr (by simpa using hin))
  obtain ⟨h, hp, hpos, hlt⟩ := inPayload_iff.mp hin
  have hb := parseHeader_bounded (wholeChunk_bounded hf) hp
  -- the bytes before the cut leave the message incomplete
  have hsh : ¬ h.state.msgLength.toNat ≤ (h.state.buffer ++ r.drop h.pos).length := by
    simp only [ChunkState.chunkToRead, ChunkState.remaining] at hlt
    rw [length_append, length_drop]
    omega
  have hc : feed attempt c r = some (c.collected h (h.state.buffer ++ r.drop h.pos), [], []) := by
    have ha : attempt c r = .take (c.collected h (h.state.buffer ++ r.drop h.pos)) [] [] := by
      rw [attempt_in_payload hp hpos (by omega), finishAttempt]
      simp only [hsh, if_false]
    rw [feed_of_take attempt_shrinks ha, feed_of_wait (attempt_nil _)]
    rfl
  rw [hc]
  simp only [bind_some, Fed.prepend_nil, nil_append]
  -- at once, the byte is payload: it completes a message, or it is stored
  have hp' := parseHeader_append [x] hp
  have hd : (r ++ [x]).drop h.pos = r.drop h.pos ++ [x] :=
    drop_append_of_le_length (parseHeader_pos hp).2
  have ha := attempt_in_payload hp' (by simp only [length_append, length_singleton]; omega)
    (by simp only [length_append, length_singleton]; omega)
  rw [hd] at ha
  intro heq
  cases hfn : finishAttempt c h (r.drop h.pos ++ [x]) [] with
  | wait => exact finishAttempt_ne_wait _ _ _ _ hfn
  | crash =>
    rw [feed_of_crash (by rw [ha, hfn])] at heq
    rcases feed_one_byte (c.collected h (h.state.buffer ++ r.drop h.pos)) x with h1 | h1 <;>
      rw [h1] at heq <;> cases heq
  | take c' o' r' =>
    rw [hfn] at ha
    obtain ⟨rfl, ⟨msg, rfl, rfl, -⟩ | ⟨rfl, rfl, -⟩⟩ := finishAttempt_take hfn
    all_goals
      rw [feed_of_take attempt_shrinks ha, feed_of_wait (attempt_nil _)] at heq
      simp only [Fed.prepend_some, append_nil] at heq
      rcases feed_one_byte (c.collected h (h.state.buffer ++ r.drop h.pos)) x with h1 | h1 <;>
        rw [h1] at heq <;>
        simp only [some.injEq, Prod.mk.injEq, cons_ne_nil, and_false, and_true, ne_cons_self] at heq
    -- left: both sides skip nothing, and differ in the stored payload
    have hst := congrFun (congrArg chunkStates heq) h.csid
    simp [collected] at hst

/-! ## The result -/

/-- **The cuts that never show are those outside chunk payloads.** Whatever had
been read at any moment of a connection (`Snapshot`), feeding it read by read and
feeding it at once give the same messages and the same parser, if and only if no
read that was followed by more bytes ended inside a chunk payload. -/
theorem feedAll_new_eq_feed_iff (ps : List Bytes) : (∀ ts, Snapshot ps ts →
      RtmpMessageParser.new.feedAll ts = RtmpMessageParser.new.feed ts.flatten) ↔
    ∀ qs rs, ps = qs ++ rs → rs.flatten ≠ [] → ¬ EndsInPayload qs.flatten := by
  have hp : ∀ ts : List Bytes, RtmpMessageParser.new.feedAll ts =
    RtmpMessageParser.new.feed ts.flatten ↔
        feedAll attempt .new [] ts = feed attempt .new ts.flatten := by
    intro ts
    have hal := feedAll_eq_reader ts .new []
    have ho := feed_eq_reader .new [] ts.flatten
    change RtmpMessageParser.new.feedAll ts = _ at hal
    change RtmpMessageParser.new.feed ts.flatten = _ at ho
    rw [hal, ho, nil_append]
    refine ⟨fun heq => map_injective ?_ heq, fun heq => by rw [heq]⟩
    rintro ⟨⟨_, _⟩, _, _⟩ ⟨⟨_, _⟩, _, _⟩ hq
    simp only [parser, Prod.mk.injEq, RtmpMessageParser.mk.injEq] at hq
    obtain ⟨⟨rfl, rfl, rfl⟩, rfl⟩ := hq
    rfl
  simp only [hp, ← cleanEnd_iff]
  exact feedAll_eq_feed_iff wholeChunk_shrinks attempt_shrinks wholeChunk_extends
    wholeChunk_delays (attempt_nil _) attempt_cut_shows ps

/-- A four-byte data message on chunk stream 3, once whole and once cut after
two payload bytes: the cut one is lost, its `c` is taken for a format 1 header. -/
theorem feedAll_new_ne_feed :
    RtmpMessageParser.new.feedAll [[3, 0, 0, 0, 0, 0, 4, 18, 0, 0, 0, 0, 97, 98], [99, 100]]
      ≠ RtmpMessageParser.new.feed [3, 0, 0, 0, 0, 0, 4, 18, 0, 0, 0, 0, 97, 98, 99, 100] := by
  intro h
  have hm := congrArg (Option.map Prod.snd) h
  revert hm
  decide

end MediaKit.Rtmp
