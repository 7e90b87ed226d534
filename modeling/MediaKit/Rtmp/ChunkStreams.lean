import Mathlib.Data.List.Basic
import MediaKit.Rtmp.RoundTrip

/-!
# Chunk streams

A sender that follows the chunk format (`Sender`): it cuts messages into chunks, on any number of
chunk streams at once, and chooses for every message one of the four header formats. A header of
format 0 has the timestamp of the message, one of format 1 or 2 the difference to the message
before; format 3 takes the difference (or the timestamp) of the header before it. A time from
`0xFFFFFF` on stands behind the header, and again behind every header of format 3 that takes it.

`decode_interleaved` says what the parser makes of such chunks, however the chunk streams are
interleaved: the messages, in the order in which they are completed, as long as every chunk is
`Clear`. A chunk that is not clear meets one of three defects:
  * the parser forgets between the chunks of a message that its timestamp was absolute, and adds it
    to the last one;
  * it remembers an extended timestamp until the next header of format 0, and then expects it behind
    headers of format 3 that do not take one;
  * it drops a message without a payload, and its header.
-/

namespace MediaKit.Rtmp

open Lib MediaKit.Core List Option Function

/-! ## The sender -/

variable {form : BasicForm} {csid : Nat} {lane : Lane} {st : ChunkState}

/-- The header says what the message says, where it says anything, and can hold its length. -/
structure Message.Valid (m : Message) : Prop where
  media : m.msg.isMedia = true → m.msg.timestamp = m.timestamp ∧ m.msg.streamId = m.streamId
  short : m.msg.payload.length < 2 ^ 24

instance (m : Message) : Decidable m.Valid :=
  decidable_of_iff ((m.msg.isMedia = true → m.msg.timestamp = m.timestamp ∧ m.msg.streamId =
    m.streamId) ∧
    m.msg.payload.length < 2 ^ 24) ⟨fun h => ⟨h.1, h.2⟩, fun h => ⟨h.media, h.short⟩⟩

/-- What the sender knows of a chunk stream: its last message, the timestamp of the one before, the
time in the last header, whether a time was extended since the last header of format 0, and what is
still to be sent. -/
structure Lane where
  message : Message
  base : UInt32
  time : UInt32
  extended : Bool
  left : Bytes

structure Sender where
  chunkSize : Nat
  lanes : Nat → Option Lane

open Sender

/-- What is sent next on a chunk stream: the first chunk of a message, or the next one. -/
inductive Send where
  | start (form : BasicForm) (fmt : Fmt) (m : Message)
  | next (form : BasicForm)

/-- The timestamp of the last message of a chunk stream. -/
def lastTime (lane : Option Lane) : UInt32 := (lane.map fun l => l.message.timestamp).getD 0

/-- The time that a header of a format has. -/
def headerTime (lane : Option Lane) (m : Message) : Fmt → UInt32
  | .full => m.timestamp
  | .sameStream | .sameShape => m.timestamp - lastTime lane
  | .repeated => (lane.map Lane.time).getD 0

/-- The format may be chosen for the message: what the header leaves out is as it was. -/
def mayStart (lane : Option Lane) (m : Message) (fmt : Fmt) : Prop :=
  match lane, fmt with
  | _, .full => True
  | none, _ => False
  | some l, .sameStream => m.streamId = l.message.streamId
  | some l, .sameShape => m.streamId = l.message.streamId ∧ m.msg.typeId = l.message.msg.typeId ∧
      m.msg.payload.length = l.message.msg.payload.length
  | some l, .repeated => m.streamId = l.message.streamId ∧ m.msg.typeId = l.message.msg.typeId ∧
      m.msg.payload.length = l.message.msg.payload.length ∧
        m.timestamp = l.message.timestamp + l.time

instance (lane : Option Lane) (m : Message) (fmt : Fmt) : Decidable (mayStart lane m fmt) := by
  unfold mayStart
  cases lane <;> cases fmt <;> infer_instance

/-- The chunk size behind a message. -/
def sizeAfter (size : Nat) : RtmpMessage → Nat
  | .setChunkSize n => max n.toNat 1
  | _ => size

variable (s : Sender)

/-- The sender behind some chunks, their bytes and the messages that they complete. -/
abbrev Chunked := Sender × Bytes × List (Nat × RtmpMessage)

/-- A chunk is sent from what is left of a message. -/
def Sender.sendFrom (csid : Nat) (lane : Lane) : Chunked :=
  let left := lane.left.drop s.chunkSize
  let lanes := update s.lanes csid (some { lane with left := left })
  if left = [] then (⟨sizeAfter s.chunkSize lane.message.msg, lanes⟩, lane.left.take s.chunkSize,
    [(csid, lane.message.msg)])
  else (⟨s.chunkSize, lanes⟩, lane.left.take s.chunkSize, [])

/-- The lane of a message that is started. -/
def startLane (lane : Option Lane) (fmt : Fmt) (m : Message) : Lane where
  message := m
  base := lastTime lane
  time := headerTime lane m fmt
  extended := isExtended (headerTime lane m fmt) ||
    (fmt ≠ .full && (lane.map Lane.extended).getD false)
  left := m.msg.payload

/-- One chunk; `none` is what the chunk format does not allow. -/
def Sender.send (csid : Nat) : Send → Option Chunked
  | .start form fmt m =>
    let lane := s.lanes csid
    if form.Names csid ∧ (lane.map Lane.left).getD [] = [] ∧ mayStart lane m fmt then
      let out := s.sendFrom csid (startLane lane fmt m)
      some (out.1, basicHeader fmt csid form ++ messageHeader m (headerTime lane m fmt) fmt ++
        extension (headerTime lane m fmt) ++ out.2.1, out.2.2)
    else none
  | .next form =>
    match s.lanes csid with
    | none => none
    | some lane =>
      if form.Names csid ∧ lane.left ≠ [] then
        let out := s.sendFrom csid lane
        some (out.1, basicHeader .repeated csid form ++ extension lane.time ++ out.2.1, out.2.2)
      else none

/-- The chunks of all chunk streams, in any order that the sender takes: their bytes, and the
messages as they are completed. -/
def Sender.sendAll : Sender → List (Nat × Send) → Option Chunked
  | s, [] => some (s, [], [])
  | s, (csid, what) :: rest => do
    let one ← s.send csid what
    let more ← one.1.sendAll rest
    return (more.1, one.2.1 ++ more.2.1, one.2.2 ++ more.2.2)

/-! ## Chunks that the parser reads -/

/-- A header of format 3 takes an extended time, or none was sent since the last header of format
0. -/
def Repeats (lane : Lane) : Prop := lane.extended = true → isExtended lane.time = true

/-- The chunk meets none of the defects. -/
def Clear (csid : Nat) : Send → Prop
  | .start _ fmt m =>
    m.msg.payload ≠ [] ∧ (fmt = .full → s.chunkSize < m.msg.payload.length →
      lastTime (s.lanes csid) = 0) ∧
      (fmt = .repeated → ∀ lane ∈ s.lanes csid, Repeats lane)
  | .next _ => ∀ lane ∈ s.lanes csid, Repeats lane

/-- Every chunk is clear, at the sender that sends it. -/
def AllClear : Sender → List (Nat × Send) → Prop
  | _, [] => True
  | s, (csid, what) :: rest => Clear s csid what ∧ ∀ out, s.send csid what = some out →
    AllClear out.1 rest

instance (lane : Lane) : Decidable (Repeats lane) := inferInstanceAs (Decidable (_ → _))

instance (s : Sender) (csid : Nat) : (what : Send) → Decidable (Clear s csid what)
  | .start _ _ _ => inferInstanceAs (Decidable (_ ∧ _ ∧ _))
  | .next _ => inferInstanceAs (Decidable (∀ lane ∈ s.lanes csid, Repeats lane))

instance decidableAllClear : (s : Sender) → (trace : List (Nat × Send)) →
    Decidable (AllClear s trace)
  | _, [] => .isTrue trivial
  | s, (csid, what) :: rest =>
    match h : s.send csid what with
    | none => decidable_of_iff (Clear s csid what) ⟨fun hc => ⟨hc, by simp [h]⟩, fun hc => hc.1⟩
    | some out =>
      have := decidableAllClear out.1 rest
      decidable_of_iff (Clear s csid what ∧ AllClear out.1 rest)
        ⟨fun hc => ⟨hc.1, by simp [h, hc.2]⟩, fun hc => ⟨hc.1, hc.2 out h⟩⟩

/-! ## The parser follows the sender -/

/-- The parser has the header of the last message of a chunk stream. -/
structure Holds (lane : Lane) (st : ChunkState) : Prop where
  extended : st.hasExtendedTs = lane.extended
  time : st.tsField = lane.time
  length : st.msgLength.toNat = lane.message.msg.payload.length
  type : st.msgTypeId = lane.message.msg.typeId
  stream : st.msgStreamId = lane.message.streamId

theorem Holds.moved (h : Holds lane st) (left : Bytes) (timestamp : UInt32)
    (buffer : Bytes) : Holds { lane with left := left }
    { st with timestamp := timestamp, buffer := buffer } :=
  ⟨h.extended, h.time, h.length, h.type, h.stream⟩

/-- What the sender's own bookkeeping keeps. -/
structure Lane.Sound (lane : Lane) : Prop where
  valid : lane.message.Valid
  marked : isExtended lane.time = true → lane.extended = true
  due : lane.left ≠ [] → lane.message.timestamp = lane.base + lane.time

theorem Lane.Sound.extended_eq (h : lane.Sound) (hr : Repeats lane) :
    lane.extended = isExtended lane.time :=
  Bool.eq_iff_iff.mpr ⟨hr, h.marked⟩

/-- The parser's context of a chunk stream: behind a message it has the timestamp of the message,
within one the timestamp of the message before and the payload that was sent. -/
structure Follows (lane : Lane) (st : ChunkState) : Prop extends Holds lane st, lane.Sound where
  idle : lane.left = [] → st.buffer = [] ∧ st.timestamp = lane.message.timestamp
  busy : lane.left ≠ [] → st.buffer ++ lane.left = lane.message.msg.payload ∧
    st.timestamp = lane.base

/-- The parser is where the sender is. -/
structure Agrees (s : Sender) (c : ChunkContext) : Prop where
  size : c.chunkSize = s.chunkSize
  positive : 1 ≤ s.chunkSize
  small : s.chunkSize < 2 ^ 32
  lanes : ∀ csid, Option.Rel Follows (s.lanes csid) (c.chunkStates csid)

variable {m : Message}

theorem Message.Valid.makeMessage_eq (h : m.Valid) :
    makeMessage m.timestamp m.msg.typeId m.streamId m.msg.payload = some m.msg := by
  have hsl := makeMessage_self m.msg
  cases hm : m.msg.isMedia with
  | true =>
    obtain ⟨hts, hsd⟩ := h.media hm
    rwa [hts, hsd] at hsl
  | false =>
    -- a control message takes neither the timestamp nor the stream id of its header
    generalize m.msg = msg at hm hsl
    cases msg <;> first | exact hsl | cases hm

theorem sizeAfter_eq (size : Nat) (msg : RtmpMessage) :
    (if msg.typeId = MSG_SET_CHUNK_SIZE ∧
      4 ≤ msg.payload.length then max (payloadU32 msg.payload).toNat 1 else size) =
      sizeAfter size msg := by
  cases msg with
  | setChunkSize n =>
    have hr : payloadU32 (be32 n.toNat) = n := payloadU32_be32 n []
    exact congrArg (fun x : UInt32 => max x.toNat 1) hr
  | _ => exact if_neg fun h => absurd h.1 (by simp only [RtmpMessage.typeId]; decide)

theorem sizeAfter_bounds {size : Nat} (hs : 1 ≤ size ∧ size < 2 ^ 32) (msg : RtmpMessage) :
    1 ≤ sizeAfter size msg ∧ sizeAfter size msg < 2 ^ 32 := by
  cases msg with
  | setChunkSize n =>
    have hlt := n.toNat_lt
    simp only [sizeAfter]
    omega
  | _ => exact hs

theorem Agrees.update {s : Sender} {c : ChunkContext} (hag : Agrees s c) {size : Nat}
    (hs : 1 ≤ size ∧ size < 2 ^ 32) (csid : Nat) (h : Follows lane st) :
    Agrees ⟨size, update s.lanes csid (some lane)⟩ ⟨size, update c.chunkStates csid (some st)⟩ := by
  refine ⟨rfl, hs.1, hs.2, fun k => ?_⟩
  by_cases hk : k = csid
  · subst hk
    simp only [update_self]
    exact .some h
  · simp only [update_of_ne hk]
    exact hag.lanes k

/-- One chunk whose header the parser reads as the sender means it. -/
theorem attempt_sendFrom {s : Sender} {c : ChunkContext} (hag : Agrees s c) {h : ChunkHeader}
    {b rest : Bytes} (hp : parseHeader c.chunkStates b = some h) (hcs : h.csid = csid)
    (hb : b.drop h.pos = lane.left.take s.chunkSize ++ rest) (hh : Holds lane h.state)
    (hv : lane.message.Valid)
    (hmk : isExtended lane.time = true → lane.extended = true) (hne : lane.left ≠ [])
    (hbf : h.state.buffer ++ lane.left = lane.message.msg.payload)
    (hls : lane.left.drop s.chunkSize = [] → h.messageTs = lane.message.timestamp)
    (hmr : lane.left.drop s.chunkSize ≠ [] → h.state.timestamp = lane.base ∧
      lane.message.timestamp = lane.base + lane.time) :
    ∃ c', attempt c b = .take c' ((s.sendFrom csid lane).2.2.map Prod.snd) rest ∧
    Agrees (s.sendFrom csid lane).1 c' := by
  subst hcs
  have hs : 1 ≤ c.chunkSize ∧ c.chunkSize < 2 ^ 32 := hag.size ▸ ⟨hag.positive, hag.small⟩
  have ht : h.state.buffer.length + lane.left.length = h.state.msgLength.toNat := by
    rw [← length_append, hbf, hh.length]
  by_cases he : lane.left.drop s.chunkSize = []
  · -- the last chunk: the payload is the whole of the message
    have hle : lane.left.length ≤ s.chunkSize := drop_eq_nil_iff.mp he
    have hal : lane.left.take s.chunkSize = lane.left := take_of_length_le hle
    have hms : makeMessage h.messageTs h.state.msgTypeId h.state.msgStreamId
      lane.message.msg.payload =
        some lane.message.msg := by
      rw [hls he, hh.type, hh.stream]
      exact hv.makeMessage_eq
    rw [hal] at hb
    rw [← hag.size] at hle
    rw [← hbf] at hms
    have ha := attempt_last hp hs ht hb hne hle hms
    rw [hbf] at ha
    refine ⟨c.completed h lane.message.msg.payload, ha.trans ?_, ?_⟩
    · simp only [sendFrom, he, if_true, map_cons, map_nil]
    · have hcn : c.completed h lane.message.msg.payload = ⟨sizeAfter s.chunkSize lane.message.msg,
          update c.chunkStates h.csid (some
            { h.state with timestamp := h.messageTs, buffer := [] })⟩ := by
        rw [ChunkContext.completed, hh.type, sizeAfter_eq, hag.size]
      rw [hcn]
      simp only [sendFrom, he]
      exact hag.update (sizeAfter_bounds ⟨hag.positive, hag.small⟩ _) _
        ⟨hh.moved _ _ _, ⟨hv, hmk, fun hn => absurd rfl hn⟩, fun _ => ⟨rfl, hls he⟩,
          fun hn => absurd rfl hn⟩
  · -- more is to come: the parser keeps what was sent
    have hlt : s.chunkSize < lane.left.length := by
      by_contra hnt
      exact he (drop_eq_nil_iff.mpr (Nat.le_of_not_lt hnt))
    obtain ⟨hbs, hd⟩ := hmr he
    have ha := attempt_more hp hs ht (t := rest) (by rw [hag.size, hb])
      (by rw [hag.size]; exact hlt)
    rw [hag.size] at ha
    refine ⟨c.collected h (h.state.buffer ++ lane.left.take s.chunkSize), ha.trans ?_, ?_⟩
    · simp only [sendFrom, he, if_false, map_nil]
    · simp only [sendFrom, ChunkContext.collected, he, hag.size]
      have hbf' : h.state.buffer ++ lane.left.take s.chunkSize ++ lane.left.drop s.chunkSize =
          lane.message.msg.payload := by
        rw [append_assoc, take_append_drop, hbf]
      exact hag.update ⟨hag.positive, hag.small⟩ _
        ⟨hh.moved _ _ _, ⟨hv, hmk, fun _ => hd⟩, fun hn => absurd hn he, fun _ => ⟨hbf', hbs⟩⟩

/-! ## The two kinds of chunks -/

theorem sendFrom_data (csid : Nat) (lane : Lane) :
    (s.sendFrom csid lane).2.1 = lane.left.take s.chunkSize := by
  simp only [sendFrom]
  split <;> rfl

variable {lane : Option Lane}

/-- The context from which a header is read is that of the last message. -/
theorem restoreState_follows {prev : Option ChunkState} (h : Option.Rel Follows lane prev)
    (hi : (lane.map Lane.left).getD [] = []) (fmt : Fmt) :
    (restoreState prev fmt.code).buffer = [] ∧
      (restoreState prev fmt.code).timestamp = lastTime lane ∧
      (prev.map (·.timestamp)).getD 0 = lastTime lane := by
  cases h with
  | none => exact ⟨rfl, rfl, rfl⟩
  | @some l st hf =>
    obtain ⟨hb, hts⟩ := hf.idle hi
    refine ⟨?_, hts, hts⟩
    simp only [restoreState, hb, ite_self]

theorem length_lt_of_valid (h : m.Valid) :
    (UInt32.ofNat m.msg.payload.length).toNat = m.msg.payload.length := by
  have hs := h.short
  rw [UInt32.toNat_ofNat']
  omega

variable {fmt : Fmt} {out : Chunked} {csid : Nat}
  {c : ChunkContext} {s : Sender} {h : ChunkHeader} {what : Send} {trace : List (Nat × Send)}

theorem readMessageHeader_start {prev : Option ChunkState} (h : Option.Rel Follows lane prev)
    (hv : m.Valid) (hm : mayStart lane m fmt)
    (hr : fmt = .repeated → ∀ l ∈ lane, Repeats l) (r : Bytes)
    (hst : readMessageHeader fmt.code (messageHeader m (headerTime lane m fmt) fmt ++ r) 0
      (restoreState prev fmt.code) = st) :
    (fmt ≠ .repeated → st.tsField = UInt32.ofNat (min (headerTime lane m fmt).toNat 0xFFFFFF)) ∧
    (fmt = .repeated → st.tsField = headerTime lane m fmt ∧ st.hasExtendedTs =
      isExtended (headerTime lane m fmt)) ∧
    Holds (startLane lane fmt m) { st with
      tsField := headerTime lane m fmt
      hasExtendedTs := st.hasExtendedTs || isExtended (headerTime lane m fmt) } ∧
    st.buffer = (restoreState prev fmt.code).buffer ∧
      st.timestamp = (restoreState prev fmt.code).timestamp ∧
    st.isAbsTimestamp = decide (fmt = .full) := by
  have hlen := length_lt_of_valid hv
  rw [readMessageHeader_written hv.short] at hst
  subst hst
  cases fmt with
  | full =>
    refine ⟨fun _ => rfl, (fun h => by cases h), ⟨?_, rfl, hlen, rfl, rfl⟩, rfl, rfl, rfl⟩
    simp [startLane]
  | sameStream =>
    cases h with
    | none => cases hm
    | @some l p hf =>
      refine ⟨fun _ => rfl, (fun h => by cases h), ⟨?_, rfl, hlen, rfl, ?_⟩, rfl, rfl, rfl⟩
      · simp [startLane, restoreState, hf.extended, Bool.or_comm]
      · exact hf.stream.trans (Eq.symm hm)
  | sameShape =>
    cases h with
    | none => cases hm
    | @some l p hf =>
      obtain ⟨hsr, ht, hln⟩ := hm
      refine ⟨fun _ => rfl, (fun h => by cases h), ⟨?_, rfl, ?_, ?_, ?_⟩, rfl, rfl, rfl⟩
      · simp [startLane, restoreState, hf.extended, Bool.or_comm]
      · exact hf.length.trans hln.symm
      · exact hf.type.trans ht.symm
      · exact hf.stream.trans hsr.symm
  | repeated =>
    cases h with
    | none => cases hm
    | @some l p hf =>
      obtain ⟨hsr, ht, hln, -⟩ := hm
      have hfl := hf.extended_eq (hr rfl l rfl)
      refine ⟨fun hne => absurd rfl hne, fun _ => ⟨hf.time, hf.extended.trans hfl⟩,
        ⟨?_, rfl, ?_, ?_, ?_⟩, rfl, rfl, rfl⟩
      · change (p.hasExtendedTs || isExtended l.time) = (isExtended l.time || (true && l.extended))
        rw [hf.extended, Bool.true_and, Bool.or_comm]
      · exact hf.length.trans hln.symm
      · exact hf.type.trans ht.symm
      · exact hf.stream.trans hsr.symm

theorem messageTs_full (ha : h.state.isAbsTimestamp = true) : h.messageTs = h.state.tsField := by
  rw [ChunkHeader.messageTs, ha, if_pos rfl]

theorem messageTs_delta (ha : h.state.isAbsTimestamp = false) :
    h.messageTs = (h.prev.map (·.timestamp)).getD 0 + h.state.tsField := by
  rw [ChunkHeader.messageTs, ha, if_neg Bool.false_ne_true]

/-- The timestamp of a message that does not begin with a header of format 0. -/
theorem timestamp_of_delta (hm : mayStart lane m fmt) (hf : fmt ≠ .full) :
    m.timestamp = lastTime lane + headerTime lane m fmt := by
  cases lane with
  | none => cases fmt <;> first | exact absurd rfl hf | cases hm
  | some l =>
    cases fmt with
    | full => exact absurd rfl hf
    | sameStream | sameShape => exact ((UInt32.add_comm _ _).trans (UInt32.sub_add_cancel _ _)).symm
    | repeated => exact hm.2.2.2

variable {form : BasicForm}

theorem attempt_start (hag : Agrees s c) (hsn : s.send csid (.start form fmt m) = some out)
    (hv : m.Valid) (hc : Clear s csid (.start form fmt m)) (rest : Bytes) :
    ∃ c', attempt c (out.2.1 ++ rest) = .take c' (out.2.2.map Prod.snd) rest ∧ Agrees out.1 c' := by
  obtain ⟨hne, hln, hrp⟩ := hc
  obtain ⟨⟨hnm, hi, hmy⟩, ho⟩ := ite_none_right_eq_some.mp hsn
  cases ho
  have hrl := hag.lanes csid
  obtain ⟨hbf, hbs, hls⟩ := restoreState_follows hrl hi fmt
  obtain ⟨ht, hsm, hh, hbf', hbs', hab⟩ := readMessageHeader_start hrl hv hmy hrp
    (extension (headerTime (s.lanes csid) m fmt) ++ (m.msg.payload.take s.chunkSize ++ rest)) rfl
  have hp := parseHeader_timed c.chunkStates hnm fmt m (headerTime (s.lanes csid) m fmt)
    (m.msg.payload.take s.chunkSize ++ rest) rfl ht hsm
  simp only [sendFrom_data]
  rw [append_assoc]
  refine attempt_sendFrom hag hp rfl drop_left hh hv ?_ hne ?_ ?_ ?_
  · intro he
    simp only [startLane] at he ⊢
    rw [he, Bool.true_or]
  · simp only [hbf', hbf]
    rfl
  · intro _
    by_cases hf : fmt = .full
    · subst hf
      exact messageTs_full hab
    · rw [messageTs_delta (hab.trans (decide_eq_false hf))]
      simp only [hls]
      exact (timestamp_of_delta hmy hf).symm
  · intro hmr
    refine ⟨hbs'.trans hbs, ?_⟩
    by_cases hf : fmt = .full
    · subst hf
      have hlg : s.chunkSize < m.msg.payload.length := by
        by_contra hnt
        exact hmr (drop_eq_nil_iff.mpr (Nat.le_of_not_lt hnt))
      change m.timestamp = lastTime (s.lanes csid) + m.timestamp
      rw [hln rfl hlg, UInt32.zero_add]
    · exact timestamp_of_delta hmy hf

theorem send_next (hs : s.send csid (.next form) = some out) :
    ∃ lane, s.lanes csid = some lane ∧ form.Names csid ∧ lane.left ≠ [] ∧
    out = ((s.sendFrom csid lane).1,
      basicHeader .repeated csid form ++ extension lane.time ++ (s.sendFrom csid lane).2.1,
        (s.sendFrom csid lane).2.2) := by
  simp only [send] at hs
  split at hs
  · cases hs
  case h_2 lane hln =>
    obtain ⟨⟨hn, hlf⟩, ho⟩ := ite_none_right_eq_some.mp hs
    exact ⟨lane, hln, hn, hlf, (some.inj ho).symm⟩

theorem attempt_next (hag : Agrees s c) (hsn : s.send csid (.next form) = some out)
    (hcl : Clear s csid (.next form)) (rest : Bytes) :
    ∃ c', attempt c (out.2.1 ++ rest) = .take c' (out.2.2.map Prod.snd) rest ∧ Agrees out.1 c' := by
  obtain ⟨lane, hl, hnm, hby, rfl⟩ := send_next hsn
  have hr := hag.lanes csid
  rw [hl] at hr
  obtain ⟨st, hst, hf⟩ : ∃ st, c.chunkStates csid = some st ∧ Follows lane st := by
    cases hc : c.chunkStates csid with
    | none => rw [hc] at hr; cases hr
    | some st => rw [hc] at hr; cases hr with | some hf => exact ⟨st, rfl, hf⟩
  have hfl := hf.extended_eq (hcl lane hl)
  have hp := parseHeader_timed c.chunkStates hnm .repeated lane.message lane.time
    (lane.left.take s.chunkSize ++ rest) rfl (fun hne => absurd rfl hne) (fun _ => by
      rw [hst]
      exact ⟨hf.time, hf.extended.trans hfl⟩)
  obtain ⟨hbf, hbs⟩ := hf.busy hby
  simp only [messageHeader, append_nil] at hp
  simp only [sendFrom_data]
  rw [append_assoc]
  refine attempt_sendFrom hag hp rfl drop_left ?_ hf.valid hf.marked hby ?_ ?_ ?_
  · rw [hst]
    refine ⟨?_, rfl, hf.length, hf.type, hf.stream⟩
    change (st.hasExtendedTs || isExtended lane.time) = lane.extended
    rw [hf.extended, ← hfl, Bool.or_self]
  · rw [hst]
    exact hbf
  · intro _
    rw [hst, messageTs_delta rfl, hf.due hby]
    exact congrArg (· + lane.time) hbs
  · intro _
    rw [hst]
    exact ⟨hbs, hf.due hby⟩

/-! ## Whole runs -/

/-- The messages that are started are valid. -/
def Send.Valid : Send → Prop
  | .start _ _ m => m.Valid
  | .next _ => True

instance : (what : Send) → Decidable what.Valid
  | .start _ _ m => inferInstanceAs (Decidable m.Valid)
  | .next _ => .isTrue trivial

theorem attempt_send (hag : Agrees s c) (hs : s.send csid what = some out) (hv : what.Valid)
    (hc : Clear s csid what) (rest : Bytes) :
    ∃ c', attempt c (out.2.1 ++ rest) = .take c' (out.2.2.map Prod.snd) rest ∧ Agrees out.1 c' := by
  cases what with
  | start form fmt m => exact attempt_start hag hs hv hc rest
  | next form => exact attempt_next hag hs hc rest

theorem feed_sendAll : ∀ {s : Sender} {c : ChunkContext}, Agrees s c →
    ∀ {out : Chunked}, s.sendAll trace = some out →
      (∀ sent ∈ trace, sent.2.Valid) → AllClear s trace →
      ∃ c', feed attempt c out.2.1 = some (c', out.2.2.map Prod.snd, []) := by
  induction trace with
  | nil =>
    intro s c _ out hs _ _
    cases hs
    exact ⟨c, feed_of_wait (attempt_nil c)⟩
  | cons sent trace ih =>
    intro s c hag out hs hv hc
    obtain ⟨one, ho, hs⟩ := bind_eq_some_iff.mp hs
    obtain ⟨more, hm, hs⟩ := bind_eq_some_iff.mp hs
    cases hs
    obtain ⟨c', ht, hag'⟩ := attempt_send hag ho (hv sent (mem_cons_self ..)) hc.1 more.2.1
    obtain ⟨c'', hf⟩ := ih hag' hm (fun x hx => hv x (mem_cons_of_mem _ hx)) (hc.2 one ho)
    refine ⟨c'', ?_⟩
    rw [feed_of_take attempt_shrinks ht, hf, Fed.prepend_some, map_append]

/-- A sender that has sent nothing. -/
def Sender.new (size : UInt32) : Sender := ⟨size.toNat, fun _ => none⟩

theorem agrees_new {size : UInt32} (hs : 1 ≤ size.toNat) :
    Agrees (new size) ⟨size.toNat, fun _ => none⟩ :=
  ⟨rfl, hs, size.toNat_lt, fun _ => .none⟩

/-- The message that a chunk starts. -/
def Send.message : Send → List RtmpMessage
  | .start _ _ m => [m.msg]
  | .next _ => []

/-- The messages sent on a chunk stream, in their order. -/
def started (csid : Nat) (trace : List (Nat × Send)) : List RtmpMessage :=
  (trace.filter (·.1 = csid)).flatMap fun sent => sent.2.message

/-- The messages of a chunk stream. -/
def onStream (csid : Nat) (done : List (Nat × RtmpMessage)) : List RtmpMessage :=
  (done.filter (·.1 = csid)).map Prod.snd

/-- The message of a chunk stream that is not yet complete. -/
def Sender.pending (csid : Nat) : List RtmpMessage :=
  match s.lanes csid with
  | none => []
  | some lane => if lane.left = [] then [] else [lane.message.msg]

/-- Each chunk stream by itself: what a chunk starts is complete behind it, or pending. -/
theorem send_pending {k : Nat} (hs : s.send k what = some out) :
    s.pending csid ++ started csid [(k, what)] = onStream csid out.2.2 ++ out.1.pending csid := by
  -- a chunk of the lane that the chunk leaves behind
  have hf : ∀ lane : Lane, onStream csid (s.sendFrom k lane).2.2 ++
    (s.sendFrom k lane).1.pending csid =
      if k = csid then [lane.message.msg] else s.pending csid := by
    intro lane
    by_cases hk : k = csid
    · simp only [sendFrom]
      split <;> simp [onStream, pending, *]
    · have hk' : csid ≠ k := fun h => hk h.symm
      simp only [sendFrom]
      split <;> simp [onStream, pending, update_of_ne hk', hk]
  cases what with
  | start form fmt m =>
    obtain ⟨hlg, ho⟩ := ite_none_right_eq_some.mp hs
    cases ho
    simp only [hf]
    by_cases hk : k = csid
    · subst hk
      have hn : s.pending k = [] := by
        have hi := hlg.2.1
        cases hln : s.lanes k with
        | none => simp only [pending, hln]
        | some lane =>
          rw [hln] at hi
          simp only [pending, hln]
          exact if_pos hi
      simp [hn, started, Send.message, startLane]
    · simp [started, hk]
  | next form =>
    obtain ⟨lane, hln, -, hb, rfl⟩ := send_next hs
    simp only [hf]
    by_cases hk : k = csid
    · subst hk
      simp [started, Send.message, pending, hln, hb]
    · simp [started, hk]

theorem sendAll_pending (csid : Nat) : ∀ {s : Sender}
    {out : Chunked}, s.sendAll trace = some out →
    s.pending csid ++ started csid trace = onStream csid out.2.2 ++ out.1.pending csid := by
  induction trace with
  | nil =>
    intro s out hsn
    cases hsn
    simp [started, onStream]
  | cons sent trace ih =>
    intro s out hsn
    obtain ⟨one, ho, hsn⟩ := bind_eq_some_iff.mp hsn
    obtain ⟨more, hm, hsn⟩ := bind_eq_some_iff.mp hsn
    cases hsn
    have hst : started csid (sent :: trace) = started csid [sent] ++ started csid trace := by
      rw [started, started, started, ← flatMap_append, ← filter_append, singleton_append]
    have hd : onStream csid (one.2.2 ++ more.2.2) = onStream csid one.2.2 ++
        onStream csid more.2.2 := by
      rw [onStream, onStream, onStream, filter_append, map_append]
    rw [hst, ← append_assoc, send_pending ho, append_assoc, ih hm]
    simp only [hd, append_assoc]

/-- The parser returns the messages in the order in which they are completed, and these are, of each
chunk stream, the messages that were sent on it, but for one that is not complete at the end. -/
structure ReadsBack (size : UInt32) (trace : List (Nat × Send)) (out : Chunked) :
    Prop where
  messages : decode size out.2.1 = some (out.2.2.map Prod.snd)
  streams : ∀ csid, onStream csid out.2.2 ++ out.1.pending csid = started csid trace

/-- **Chunk streams are independent**, as long as every chunk is clear: whatever the formats of the
headers and however the chunks are interleaved, the messages come back. -/
theorem decode_interleaved (size : UInt32) (hsize : 1 ≤ size.toNat) (trace : List (Nat × Send))
    (hvalid : ∀ sent ∈ trace, sent.2.Valid) (out : Sender × Bytes × List (Nat × RtmpMessage))
    (hsend : (new size).sendAll trace = some out) (hclear : AllClear (new size) trace) :
    ReadsBack size trace out := by
  obtain ⟨c', hf⟩ := feed_sendAll (agrees_new hsize) hsend hvalid hclear
  refine ⟨?_, fun csid => ?_⟩
  · rw [decode_eq_reader, hf]
    rfl
  · rw [← sendAll_pending csid hsend]
    rfl

section Runs

private def audioAt (timestamp : UInt32) (data : Bytes) : Message :=
  ⟨.audio 1 timestamp data, timestamp, 1⟩
private def videoAt (timestamp : UInt32) (data : Bytes) : Message :=
  ⟨.video 1 timestamp data, timestamp, 1⟩

/-- Audio and video in turns, with all four formats, an extended timestamp and a change of the chunk
size on the way. -/
private def twoStreams : List (Nat × Send) :=
  [(4, .start .one .full (audioAt 0 [1, 2, 3])), (400, .start .three .full (videoAt 0x1000000 [7])),
    (4, .next .one), (2, .start .one .full ⟨.setChunkSize 1, 0, 0⟩),
    (4, .start .one .sameStream (audioAt 20 [4, 5])),
    (2, .next .one), (400, .start .three .repeated (videoAt 0x2000000 [8])),
    (4, .start .one .sameShape (audioAt 40 [6, 7])), (4, .next .one),
    (4, .start .one .repeated (audioAt 60 [8, 9])), (4, .next .one)]

theorem decode_two_streams : ∃ out, (new 2).sendAll twoStreams = some out ∧
    ReadsBack 2 twoStreams out := by
  obtain ⟨out, hs⟩ := isSome_iff_exists.mp
    (by decide +kernel : ((new 2).sendAll twoStreams).isSome = true)
  exact ⟨out, hs, decode_interleaved 2 (by decide) twoStreams (by decide +kernel) out hs
    (by decide +kernel)⟩

/-- The three defects: a second message of two chunks with a header of format 0, a message of two
chunks behind one with an extended timestamp, and a message without a payload. -/
private def misread : List (List (Nat × Send)) :=
  [[(4, .start .one .full (audioAt 5 [1])), (4, .start .one .full (audioAt 7 [2, 3])),
    (4, .next .one)],
   [(4, .start .one .full (audioAt 0x1000000 [1])),
     (4, .start .one .sameStream (audioAt 0x1000001 [2, 3])),
    (4, .next .one)],
   [(4, .start .one .full (audioAt 5 [])), (4, .start .one .repeated (audioAt 10 []))]]

theorem decode_misread : misread.Forall fun trace => (∀ sent ∈ trace, sent.2.Valid) ∧
    ∃ out, (new 1).sendAll trace = some out ∧ ¬ ReadsBack 1 trace out := by
  have hr : ∀ trace ∈ misread, (∀ sent ∈ trace, sent.2.Valid) ∧
    ((new 1).sendAll trace).isSome = true ∧
      ((new 1).sendAll trace).all (fun out => decode 1 out.2.1 ≠ some (out.2.2.map Prod.snd)) =
        true := by
    decide +kernel
  apply forall_iff_forall_mem.mpr
  intro trace ht
  obtain ⟨hv, hsm, hw⟩ := hr trace ht
  obtain ⟨out, hsn⟩ := isSome_iff_exists.mp hsm
  refine ⟨hv, out, hsn, fun hb => ?_⟩
  rw [hsn] at hw
  exact of_decide_eq_true hw hb.messages

end Runs

end MediaKit.Rtmp
