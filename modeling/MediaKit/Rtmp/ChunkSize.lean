import MediaKit.Lib.Schedule
import MediaKit.Rtmp.PushClient
import MediaKit.Rtmp.Segmentation

/-!
# What a peer can do to the chunk parser and the chunk size

Two things reach the parser and the encoder from the network without a check. `make_message` slices
a user control payload at 2, so that one of a single byte ends the task (`feed_total_iff`: nothing
else does, and the loop of `feed` always ends). And while `try_parse_one` takes a size of 0 as 1,
the raw value of the same message is stored again: by `handle_message` and by the loop of
`pull_client::start` in the parser, by `apply_control_messages` of both clients in the encoder
(`chunkSizes_positive`). At size 0 the parser waits for ever, and `encode` writes format 3 headers
without end.

Mirroring notes vs the Rust source:
- `ChunkPeer.read` is one `read` of any of the three programs: of `RtmpSession::run`
  (`ReadKind.loop`), of the push client (`ReadKind.reply`), or of the pull client (`ReadKind.reply`,
  and behind `play` `ReadKind.loop`, where no `connect` is answered).
- A loop over messages that an error ends, or that is looked at before its end, has handled the
  first few of them. -/

namespace MediaKit.Rtmp

open Lib List

variable {b : Bytes} {c c' : ChunkContext} {h : ChunkHeader} {o : List RtmpMessage} {r : Bytes}

/-! ## `feed` returns -/

open ChunkState

/-- The buffer stands before a user control message of one byte. -/
def ShortControl (c : ChunkContext) (b : Bytes) : Prop :=
  ∃ h, parseHeader c.chunkStates b = some h ∧ h.state.msgTypeId = MSG_USER_CONTROL ∧
    h.state.msgLength.toNat = 1 ∧
    h.state.buffer = [] ∧ h.pos < b.length ∧ c.chunkSize % 2 ^ 32 ≠ 0

theorem makeMessage_eq_none_iff {ts sid : UInt32} {ty : UInt8} {payload : Bytes} :
    makeMessage ts ty sid payload = none ↔ ty = MSG_USER_CONTROL ∧ payload.length < 2 := by
  unfold makeMessage
  repeat' split
  all_goals simp_all [MSG_USER_CONTROL, MSG_SET_CHUNK_SIZE, MSG_ABORT, MSG_ACK]

theorem finishAttempt_crash_iff (data rest : Bytes) : finishAttempt c h data rest = .crash ↔
    h.state.msgTypeId = MSG_USER_CONTROL ∧
      h.state.msgLength.toNat ≤ (h.state.buffer ++ data).length ∧
      (h.state.buffer ++ data).length < 2 := by
  unfold finishAttempt
  simp only
  split
  next hlen =>
    cases hm : makeMessage h.messageTs h.state.msgTypeId h.state.msgStreamId
      (h.state.buffer ++ data) with
    | none =>
      obtain ⟨hty, hlt⟩ := makeMessage_eq_none_iff.mp hm
      exact iff_of_true rfl ⟨hty, hlen, hlt⟩
    | some msg =>
      refine iff_of_false nofun fun ⟨hty, _, hlt⟩ => ?_
      rw [makeMessage_eq_none_iff.mpr ⟨hty, hlt⟩] at hm
      cases hm
  next hlen => exact iff_of_false nofun fun ⟨_, hle, _⟩ => hlen hle

/-- The one chunk that ends the parser. -/
theorem attempt_crash_iff : attempt c b = .crash ↔ ShortControl c b := by
  unfold ShortControl
  cases hp : parseHeader c.chunkStates b with
  | none =>
    rw [attempt_of_none hp]
    exact iff_of_false (fun h => by cases h) (by rintro ⟨_, h, -⟩; cases h)
  | some h =>
    rw [attempt_of_header hp]
    simp only [chunkAttempt, Option.some.injEq, exists_eq_left']
    split
    next h0 =>
      have hn : ¬ (h.state.msgLength.toNat = 1 ∧ h.state.buffer = [] ∧ h.pos < b.length ∧
          c.chunkSize % 2 ^ 32 ≠ 0) := by
        rintro ⟨hlen, hb, hlt, hs⟩
        simp only [chunkToRead, remaining, hb, length_nil] at h0
        omega
      split <;> exact iff_of_false (fun h => by cases h) fun h => hn h.2
    next h0 =>
      rw [finishAttempt_crash_iff]
      simp only [length_append, length_take, length_drop]
      constructor
      · rintro ⟨hty, hle, hlt⟩
        have hb : h.state.buffer.length = 0 := by omega
        simp only [chunkToRead, remaining] at h0 hle hlt
        exact ⟨hty, by omega, length_eq_zero_iff.mp hb, by omega, by omega⟩
      · rintro ⟨hty, hlen, hb, hlt, hs⟩
        simp only [chunkToRead, remaining, hb, length_nil]
        exact ⟨hty, by omega, by omega⟩

/-- What is called on a parser from outside. -/
inductive ParserCall where
  | feed (data : Bytes)
  | setChunkSize (size : UInt32)

namespace RtmpMessageParser

variable (p : RtmpMessageParser)

def call : ParserCall → Option RtmpMessageParser
  | .feed data => (p.feed data).map (·.1)
  | .setChunkSize size => some (p.setChunkSize size)

/-- No round of the loop in `feed` comes to stand before a user control message of one byte. -/
def Harmless : ParserCall → Prop
  | .feed data => ∀ c b, Reaches attempt p.context (p.buffer ++ data) c b → ¬ ShortControl c b
  | .setChunkSize _ => True

theorem call_isSome_iff (a : ParserCall) : (p.call a).isSome = true ↔ p.Harmless a := by
  cases a with
  | setChunkSize size => exact iff_of_true rfl trivial
  | feed data =>
    have hf : p.feed data = _ := feed_eq_reader p.context p.buffer data
    simp only [call, Harmless, Option.isSome_map, hf, ← attempt_crash_iff]
    rw [← Option.ne_none_iff_isSome, ne_eq, feed_eq_none_iff attempt_shrinks]
    simp only [not_exists, not_and]

/-- **Every `feed` returns exactly as long as no user control message of one byte comes to the front
of the buffer**, and its loop ends in any case: rounds beyond the length of the buffer change
nothing. -/
theorem feed_total_iff (calls : List ParserCall) :
    ((runSchedule call .new calls).isSome = true ↔ Along call Harmless .new calls) ∧
    ∀ (p : RtmpMessageParser) (n : Nat), p.buffer.length < n →
      p.feedLoop n = p.feedLoop (p.buffer.length + 1) := by
  constructor
  · rw [run_isSome_iff]
    simp only [call_isSome_iff]
  · intro p n hn
    have hl := fun n => feedLoop_eq_drain n p.context p.buffer
    exact (hl n).trans
      ((congrArg _ (drain_eq_of_lt attempt_shrinks n _ _ _ hn (Nat.lt_succ_self _))).trans
        (hl _).symm)

/-- A whole user control message, with a payload of one byte. -/
theorem feed_short_control :
    RtmpMessageParser.new.feed [0x02, 0, 0, 0, 0, 0, 1, 4, 0, 0, 0, 0, 0xFF] = none := by
  decide

end RtmpMessageParser

/-! ## Chunk sizes -/

/-- The parser and the encoder of a connection, and what a client has collected in front of an
awaited reply. -/
structure ChunkPeer where
  parser : RtmpMessageParser
  encoder : RtmpMessageEncoder
  all : List RtmpMessage

/-- What is done with the messages of one `read`. -/
inductive ReadKind where
  /-- They are handled one by one; for each, whether the writes of its handler go through. -/
  | loop (handled : List Bool)
  /-- `read_until_result` or `read_until_status`, and `apply_control_messages` behind it. -/
  | reply (isReply : RtmpMessage → Bool)

/-- A chunk size that was stored as a `u32` other than 0. -/
def Sized (n : Nat) : Prop := 1 ≤ n ∧ n < 2 ^ 32

namespace ChunkPeer

def new : ChunkPeer := ⟨.new, .new, []⟩

variable (s : ChunkPeer)

/-- `handle_message`: a `connect` that is answered makes the encoder write chunks of 4096 bytes. -/
def handleMessage (q : RtmpMessage × Bool) : ChunkPeer :=
  match q with
  | (.setChunkSize size, _) => { s with parser := s.parser.setChunkSize size }
  | (msg, ok) =>
    if (commandNamed "connect" msg).isSome ∧
      ok then { s with encoder := s.encoder.setChunkSize 4096 } else s

def useMessages (msgs : List RtmpMessage) : ReadKind → ChunkPeer
  | .loop handled => (msgs.zip handled).foldl handleMessage s
  | .reply isReply =>
    let r := scanReply isReply s.all msgs
    if r.2 then { s with all := [], encoder := applyControlMessages s.encoder r.1 }
      else { s with all := r.1 }

def read (q : Bytes × ReadKind) : Option ChunkPeer :=
  (s.parser.feed q.1).map fun r => { s with parser := r.1 }.useMessages r.2 q.2

/-- The messages whose chunk size is stored as it is. -/
def applied (msgs : List RtmpMessage) : ReadKind → List RtmpMessage
  | .loop handled => (msgs.zip handled).map (·.1)
  | .reply isReply => if (scanReply isReply s.all msgs).2 then (scanReply isReply s.all msgs).1
    else []

def NoZero (q : Bytes × ReadKind) : Prop :=
  ∀ r ∈ s.parser.feed q.1, .setChunkSize 0 ∉ s.applied r.2 q.2

instance (s : ChunkPeer) (q : Bytes × ReadKind) : Decidable (s.NoZero q) :=
  inferInstanceAs (Decidable (∀ r ∈ s.parser.feed q.1, _))

structure Usable (s : ChunkPeer) : Prop where
  parser : Sized s.parser.chunkSize
  encoder : Sized s.encoder.chunkSize

end ChunkPeer

theorem sized_of_ne {size : UInt32} (h : RtmpMessage.setChunkSize size ≠ .setChunkSize 0) :
    Sized size.toNat := by
  have hne : size.toNat ≠ 0 := fun h0 => h (congrArg _ (UInt32.toNat_inj.mp h0))
  exact ⟨by omega, size.toNat_lt⟩

/-- The parser itself never stores a 0. -/
theorem feed_sized {p : RtmpMessageParser} {data : Bytes} {q : RtmpMessageParser × List RtmpMessage}
    (hp : Sized p.chunkSize) (hf : p.feed data = some q) : Sized q.1.chunkSize := by
  obtain ⟨q, hq, rfl⟩ := Option.map_eq_some_iff.mp
    ((feed_eq_reader p.context p.buffer data).symm.trans hf)
  refine feed_invariant attempt_shrinks (I := fun c => Sized c.chunkSize) ?_ _ _ hp hq
  intro c b c' o r hc ht
  obtain ⟨-, ⟨-, rfl⟩ | ⟨h, payload, ⟨-, rfl⟩ | ⟨-, rfl, -⟩⟩⟩ := attempt_take ht
  · exact hc
  · unfold ChunkContext.completed
    simp only
    split
    · have := (payloadU32 payload).toNat_lt
      exact ⟨by omega, by omega⟩
    · exact hc
  · exact hc

theorem encodeChunks_fuel {size : Nat} (hs : 1 ≤ size) (csid : Nat) :
    ∀ (n m : Nat) (payload : Bytes),
    payload.length ≤ n → payload.length ≤ m →
      encodeChunks size csid n payload = encodeChunks size csid m payload := by
  intro n
  induction n with
  | zero =>
    intro m payload hn _
    cases length_eq_zero_iff.mp (Nat.le_zero.mp hn)
    cases m <;> rfl
  | succ n ih =>
    intro m payload hn hm
    cases m with
    | zero =>
      cases length_eq_zero_iff.mp (Nat.le_zero.mp hm)
      rfl
    | succ m =>
      unfold encodeChunks
      rw [ih m (payload.drop size) (by rw [length_drop]; omega) (by rw [length_drop]; omega)]

/-- With a size of at least 1, a whole chunk is taken off the buffer. -/
theorem attempt_ne_wait (hc : Sized c.chunkSize) (hp : parseHeader c.chunkStates b = some h)
    (hwh : h.pos + h.state.chunkToRead c.chunkSize ≤ b.length) : attempt c b ≠ .wait := by
  have hm : c.chunkSize % 2 ^ 32 = c.chunkSize := Nat.mod_eq_of_lt hc.2
  have ho := hc.1
  rw [attempt_of_header hp, chunkAttempt]
  unfold chunkToRead at hwh ⊢
  rw [hm] at hwh ⊢
  by_cases h0 : min (min h.state.remaining c.chunkSize) (b.length - h.pos) = 0
  · rw [if_pos h0, if_pos (by omega)]
    intro hwt
    cases hwt
  · rw [if_neg h0]
    exact finishAttempt_ne_wait _ _ _ _

namespace ChunkPeer

theorem Usable.read {s s' : ChunkPeer} {q : Bytes × ReadKind} (hs : s.Usable) (hok : s.NoZero q)
    (h : s.read q = some s') : s'.Usable := by
  obtain ⟨⟨p, msgs⟩, hf, rfl⟩ := Option.map_eq_some_iff.mp h
  have hp : Sized p.chunkSize := feed_sized hs.parser hf
  have hz := hok _ hf
  obtain ⟨data, kind⟩ := q
  cases kind with
  | loop handled =>
    -- the size that the parser has clamped is overwritten by the messages
    refine foldlRecOn (motive := Usable) _ _ ⟨hp, hs.encoder⟩ ?_
    rintro s hs ⟨msg, ok⟩ hmem
    have hne : msg ≠ .setChunkSize 0 := fun h0 => hz (h0 ▸ mem_map_of_mem hmem)
    unfold handleMessage
    split
    next heq =>
      cases heq
      exact ⟨sized_of_ne hne, hs.encoder⟩
    next =>
      split
      · exact ⟨hs.parser, show Sized 4096 from ⟨by decide, by decide⟩⟩
      · exact hs
  | reply isReply =>
    simp only [useMessages]
    simp only [applied] at hz
    split
    next hfn =>
      rw [if_pos hfn] at hz
      refine ⟨hp, foldlRecOn (motive := fun e : RtmpMessageEncoder => Sized e.chunkSize) _ _
        hs.encoder ?_⟩
      intro e he msg hmem
      cases msg with
      | setChunkSize size => exact sized_of_ne fun h0 => hz (h0 ▸ hmem)
      | _ => exact he
    next => exact ⟨hp, hs.encoder⟩

/-- **The chunk sizes are at least 1 in every run that stores no size of 0**; hence `encode` ends,
for rounds beyond the length of the payload change nothing, and every whole chunk is consumed. -/
theorem chunkSizes_positive (reads : List (Bytes × ReadKind)) (s : ChunkPeer)
    (hreads : Along read NoZero .new reads) (hrun : runSchedule read .new reads = some s) :
    s.Usable ∧
    (∀ (csid n : Nat) (msg : RtmpMessage), msg.payload.length ≤ n →
      encodeChunks s.encoder.chunkSize csid n msg.payload =
      encodeChunks s.encoder.chunkSize csid msg.payload.length msg.payload) ∧
    ∀ b h, parseHeader s.parser.chunkStates b = some h →
    h.pos + h.state.chunkToRead s.parser.chunkSize ≤ b.length →
      attempt s.parser.context b ≠ .wait := by
  have hnw : Usable .new := ⟨show Sized 128 from ⟨by decide, by decide⟩,
    show Sized 128 from ⟨by decide, by decide⟩⟩
  have hs : s.Usable := run_invariant_of (fun _ _ _ hs hok h => hs.read hok h) hnw hreads hrun
  refine ⟨hs, fun csid n msg hn => ?_, fun b h hp hw => ?_⟩
  · exact encodeChunks_fuel hs.encoder.1 csid n _ _ hn le_rfl
  · exact attempt_ne_wait hs.parser hp hw

/-- A whole `SetChunkSize` message. -/
def sizeMessage (size : Nat) : Bytes := [0x02, 0, 0, 0, 0, 0, 4, 1, 0, 0, 0, 0] ++ be32 size

theorem chunkSizes_positive_4096 : ∃ s, runSchedule read .new [(sizeMessage 4096, .loop [true])] =
    some s ∧ s.Usable := by
  obtain ⟨s, hs⟩ := Option.isSome_iff_exists.mp
    (by decide +kernel : (runSchedule read .new [(sizeMessage 4096, .loop [true])]).isSome = true)
  exact ⟨s, hs, (chunkSizes_positive _ s (by decide +kernel) hs).1⟩

/-- A session stores the 0, and then takes no chunk off its buffer any more. -/
theorem chunkSize_zero : ∃ s, runSchedule read .new
    [(sizeMessage 0, .loop [true]), (sizeMessage 128, .loop [true])] = some s ∧
    s.parser.chunkSize = 0 ∧ s.parser.buffer = sizeMessage 128 := by
  decide +kernel

end ChunkPeer

end MediaKit.Rtmp
