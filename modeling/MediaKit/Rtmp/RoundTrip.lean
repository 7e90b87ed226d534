import MediaKit.Rtmp.ChunkHeaders

/-!
# Decoding what the encoder wrote

`RtmpMessageEncoder::encode` against `RtmpMessageParser::feed`, both at the same
chunk size, for whole lists of messages.

A message that fits in one chunk comes back as it was. A longer one is written
with format 3 headers between its chunks, and there the two sides disagree twice:

- the encoder writes the extended timestamp once, in front of the first chunk,
  while the parser expects it again behind every format 3 header of a message
  that has one, and so takes four payload bytes for it;
- the parser forgets between chunks that the timestamp was absolute
  (`is_abs_timestamp: false` in the restored context), and adds it to the
  timestamp of the previous message on the chunk stream.

`decode_encodeAll_iff` is the exact condition (`Readable`). The first defect is
settled by counting: at chunk size `c` a payload of `n` bytes takes at least
`n + ⌈n / c⌉` bytes from the stream (`chunkCost`), which is what the encoder
wrote, and the parser has lost four of them.
-/

namespace MediaKit.Rtmp

open Lib List Option Function UInt32

/-! ## Headers -/

variable {csid : Nat}

theorem encodeBasicHeader_small (fmt : Fmt) (h : csid < 64) :
    encodeBasicHeader fmt.code csid = basicHeader fmt csid .one := by
  unfold encodeBasicHeader
  rw [if_neg (by omega), if_neg (by omega)]
  rfl

theorem length_encodeBasicHeader (h : csid < 64) : (encodeBasicHeader 3 csid).length = 1 :=
  congrArg List.length (encodeBasicHeader_small .repeated h)

theorem encodeCsid_bounds (typeId : UInt8) : 2 ≤ encodeCsid typeId ∧ encodeCsid typeId < 64 := by
  unfold encodeCsid
  split_ifs <;> omega

/-- The timestamp of the last message on a chunk stream. -/
def prevTimestamp (prev : Option ChunkState) : UInt32 := (prev.map (·.timestamp)).getD 0

/-- What the parser reads from a format 0 header. -/
def freshState (prev : Option ChunkState) (ext : Bool) (ts length : Nat) (typeId : UInt8)
    (streamId : Nat) : ChunkState where
  isAbsTimestamp := true
  hasExtendedTs := ext
  tsField := ofNat ts
  timestamp := prevTimestamp prev
  msgLength := ofNat length
  msgTypeId := typeId
  msgStreamId := ofNat streamId
  buffer := []

variable {h : ChunkHeader} {b payload : Bytes} {c : ChunkContext}
  {st : ChunkState} {msg : RtmpMessage} (cs : Nat → Option ChunkState)

/-- The format 3 header of a continuation chunk. -/
theorem parseHeader_repeated (t : Bytes) (hc : 2 ≤ csid ∧ csid < 64) (hst : cs csid = some st) :
    parseHeader cs (encodeBasicHeader 3 csid ++ t) =
      if st.tsField = 0xFFFFFF then
        if t.length < 4 then none
        else some ⟨csid, some st, { st with
          isAbsTimestamp := false
          tsField := ofNat (ofBe [t.getD 0 0, t.getD 1 0, t.getD 2 0, t.getD 3 0])
          hasExtendedTs := true }, 5⟩
      else if st.hasExtendedTs = true then
        if t.length < 4 then none else some ⟨csid, some st, { st with isAbsTimestamp := false }, 5⟩
      else some ⟨csid, some st, { st with isAbsTimestamp := false }, 1⟩ := by
  have hsm : encodeBasicHeader 3 csid = basicHeader .repeated csid .one :=
    encodeBasicHeader_small .repeated hc.2
  have hn : BasicForm.one.Names csid := hc
  have hp := parseHeader_split cs hn .repeated ⟨.ack 0, 0, 0⟩ 0 t rfl
  rw [hst] at hp
  rw [hsm]
  simpa [messageHeader, restoreState, readMessageHeader, Fmt.code, basicHeader] using hp

/-- It inherits the stored context. -/
theorem parseHeader_continuation (t : Bytes) (hc : 2 ≤ csid ∧ csid < 64) (hst : cs csid = some st)
    (hts : st.tsField ≠ 0xFFFFFF) (he : st.hasExtendedTs = false) :
    parseHeader cs (encodeBasicHeader 3 csid ++ t)
      = some ⟨csid, some st, { st with isAbsTimestamp := false }, 1⟩ := by
  rw [parseHeader_repeated cs t hc hst, if_neg hts, he, if_neg Bool.false_ne_true]

/-- With an extended timestamp the parser takes four more bytes for it. -/
theorem parseHeader_continuation_ext {t : Bytes} (hc : 2 ≤ csid ∧ csid < 64)
    (hst : cs csid = some st) (he : st.hasExtendedTs = true)
    (hp : parseHeader cs (encodeBasicHeader 3 csid ++ t) = some h) : h.pos = 5 := by
  rw [parseHeader_repeated cs t hc hst, he, if_pos rfl] at hp
  split_ifs at hp <;> cases hp <;> rfl

/-! ## Chunks -/

theorem encodeChunks_last {size csid n : Nat} (hne : payload ≠ []) (hn : payload.length ≤ n)
    (hle : payload.length ≤ size) : encodeChunks size csid n payload = payload := by
  cases n with
  | zero => exact absurd (length_eq_zero_iff.mp (Nat.le_zero.mp hn)) hne
  | succ n =>
    simp [encodeChunks, take_of_length_le hle, drop_of_length_le hle]

variable {size : Nat}

theorem encodeChunks_more (csid n : Nat) (hlt : size < payload.length) :
    encodeChunks size csid (n + 1) payload
      = payload.take size ++
        (encodeBasicHeader 3 csid ++ encodeChunks size csid n (payload.drop size)) := by
  have he : payload.isEmpty = false := isEmpty_eq_false_iff.mpr (length_pos_iff.mp (by omega))
  have hd : (payload.drop size).isEmpty = false :=
    isEmpty_eq_false_iff.mpr (drop_eq_nil_iff.not.mpr (by omega))
  simp [encodeChunks, he, hd]

theorem attempt_whole_chunk (data rest : Bytes)
    (hp : parseHeader c.chunkStates b = some h) (hb : b.drop h.pos = data ++ rest)
    (hne : data ≠ []) (hlen : h.state.chunkToRead c.chunkSize = data.length) :
    attempt c b = finishAttempt c h data rest := by
  have hl := congrArg List.length hb
  have hd := length_pos_iff.mpr hne
  simp only [length_drop, length_append] at hl
  have hm : min (h.state.chunkToRead c.chunkSize) (b.length - h.pos) = data.length := by omega
  rw [attempt_of_header hp, chunkAttempt, hm, if_neg (by omega), hb, take_left, ← drop_drop, hb,
    drop_left]

/-- `chunkToRead` where nothing wraps. -/
theorem chunkToRead_eq {s : ChunkState} {left : Bytes} (hsize : size < 2 ^ 32)
    (hlen : s.buffer.length + left.length = s.msgLength.toNat) :
    s.chunkToRead size = min left.length size := by
  have hlt := s.msgLength.toNat_lt
  unfold ChunkState.chunkToRead ChunkState.remaining
  omega

section Chunk

variable {left t : Bytes} (hp : parseHeader c.chunkStates b = some h)
  (hsize : 1 ≤ c.chunkSize ∧ c.chunkSize < 2 ^ 32)
  (hlen : h.state.buffer.length + left.length = h.state.msgLength.toNat)

include hp hsize hlen

/-- The last chunk of a message, of which `left` is still to come. -/
theorem attempt_last (hb : b.drop h.pos = left ++ t) (hne : left ≠ [])
    (hle : left.length ≤ c.chunkSize)
    (hm : makeMessage h.messageTs h.state.msgTypeId h.state.msgStreamId (h.state.buffer ++ left) =
      some msg) :
    attempt c b = .take (c.completed h (h.state.buffer ++ left)) [msg] t := by
  have hal : h.state.msgLength.toNat ≤ (h.state.buffer ++ left).length := by
    rw [length_append]
    omega
  rw [attempt_whole_chunk left t hp hb hne (by rw [chunkToRead_eq hsize.2 hlen]; omega),
    finishAttempt]
  simp only [hal, if_true, hm]

/-- A chunk behind which more is to come. -/
theorem attempt_more (hb : b.drop h.pos = left.take c.chunkSize ++ t)
    (hlt : c.chunkSize < left.length) :
    attempt c b = .take (c.collected h (h.state.buffer ++ left.take c.chunkSize)) [] t := by
  have ht : (left.take c.chunkSize).length = c.chunkSize := by
    rw [length_take]
    omega
  have hpr : ¬ h.state.msgLength.toNat ≤ (h.state.buffer ++ left.take c.chunkSize).length := by
    rw [length_append]
    omega
  rw [attempt_whole_chunk _ t hp hb (length_pos_iff.mp (by omega))
    (by rw [chunkToRead_eq hsize.2 hlen]; omega), finishAttempt]
  simp only [hpr, if_false]

end Chunk

theorem completed_of_type {payload : Bytes} (hty : h.state.msgTypeId ≠ MSG_SET_CHUNK_SIZE) :
    c.completed h payload = ⟨c.chunkSize, update c.chunkStates h.csid
      (some { h.state with timestamp := h.messageTs, buffer := [] })⟩ := by
  rw [ChunkContext.completed, if_neg fun hs => hty hs.1]

/-- The chunks behind the first one, without an extended timestamp: they
complete the message, with the timestamp field added to the stored timestamp. -/
theorem feed_continuation {csid size : Nat} (hcd : 2 ≤ csid ∧ csid < 64)
    (hsize : 1 ≤ size ∧ size < 2 ^ 32) (st : ChunkState) (hts : st.tsField ≠ 0xFFFFFF)
    (he : st.hasExtendedTs = false) (hty : st.msgTypeId ≠ MSG_SET_CHUNK_SIZE) (t : Bytes) :
    ∀ (n : Nat) (rest done : Bytes) (abs : Bool) (cs : Nat → Option ChunkState), rest ≠ [] →
      rest.length ≤ n → done.length + rest.length = st.msgLength.toNat →
      cs csid = some { st with isAbsTimestamp := abs, buffer := done } →
      makeMessage (st.timestamp + st.tsField) st.msgTypeId st.msgStreamId (done ++ rest)
        = some msg →
      ∃ st', st'.buffer = [] ∧ st'.timestamp = st.timestamp + st.tsField ∧
        feed attempt ⟨size, cs⟩ (encodeBasicHeader 3 csid ++ (encodeChunks size csid n rest ++ t))
          = Fed.prepend [msg] (feed attempt ⟨size, update cs csid (some st')⟩ t) := by
  intro n
  induction n with
  | zero =>
    intro rest done abs cs hne hn
    exact absurd (length_eq_zero_iff.mp (Nat.le_zero.mp hn)) hne
  | succ n ih =>
    intro rest done abs cs hne hn hlen hcs hm
    have hp := fun t' => parseHeader_continuation cs t' hcd hcs hts he
    have ho := length_encodeBasicHeader hcd.2
    by_cases hle : rest.length ≤ size
    · -- the last chunk
      rw [encodeChunks_last hne hn hle]
      have ha := attempt_last (c := ⟨size, cs⟩) (hp (rest ++ t)) hsize hlen
        (by rw [← ho, drop_left]) hne hle hm
      rw [completed_of_type hty] at ha
      exact ⟨_, rfl, rfl, feed_of_take attempt_shrinks ha⟩
    · rw [encodeChunks_more csid n (by omega), append_assoc]
      have htk : (rest.take size).length = size := by rw [length_take]; omega
      have ha := attempt_more (c := ⟨size, cs⟩)
        (t := encodeBasicHeader 3 csid ++ encodeChunks size csid n (rest.drop size) ++ t)
        (hp _) hsize hlen (by rw [← ho, drop_left]) (Nat.lt_of_not_le hle)
      rw [feed_of_take attempt_shrinks ha, Fed.prepend_nil, append_assoc]
      have hd : done ++ rest.take size ++ rest.drop size = done ++ rest := by
        rw [append_assoc, take_append_drop]
      obtain ⟨st', hb, htm, hf⟩ :=
        ih (rest.drop size) (done ++ rest.take size) false (update cs csid
          (some { st with isAbsTimestamp := false, buffer := done ++ rest.take size }))
        (drop_eq_nil_iff.not.mpr (by omega)) (by rw [length_drop]; omega)
        (by simp only [length_append, length_drop]; omega)
        (by rw [update_self]) (by rw [hd]; exact hm)
      rw [update_idem] at hf
      exact ⟨st', hb, htm, hf⟩

/-! ## Messages -/

/-- The messages that carry a timestamp, a stream id and a raw payload. -/
def RtmpMessage.isMedia : RtmpMessage → Bool
  | .audio .. | .video .. | .amf0Data .. | .amf0Command .. => true
  | _ => false

open RtmpMessage

/-- What the encoder is given: a payload that the 24-bit length field can hold,
a stream id of 24 bits, and no change of the chunk size. -/
structure Encodable (m : RtmpMessage) : Prop where
  nonempty : m.payload ≠ []
  short : m.payload.length < 2 ^ 24
  streamId : m.streamId.toNat < 2 ^ 24
  noSetChunkSize : m.typeId ≠ MSG_SET_CHUNK_SIZE

theorem makeMessage_self (m : RtmpMessage) :
    makeMessage m.timestamp m.typeId m.streamId m.payload = some m := by
  cases m with
  | setChunkSize n => exact congrArg (fun x => some (setChunkSize x)) (payloadU32_be32 n [])
  | abort n => exact congrArg (fun x => some (abort x)) (payloadU32_be32 n [])
  | ack n => exact congrArg (fun x => some (RtmpMessage.ack x)) (payloadU32_be32 n [])
  | userControl ev data =>
    have h16 : UInt16.ofNat (ofBe (be16 ev.toNat)) = ev := by
      rw [be16, ofBe_two ev.toNat ev.toNat_lt, UInt16.ofNat_toNat]
    exact congrArg (fun x => some (userControl x data)) h16
  | windowAckSize n => exact congrArg (fun x => some (windowAckSize x)) (payloadU32_be32 n [])
  | setPeerBandwidth n limit =>
    exact congrArg (fun x => some (setPeerBandwidth x limit)) (payloadU32_be32 n [limit])
  | audio | video | amf0Data | amf0Command => rfl

variable {m : RtmpMessage}

/-- A media message tells the payload and the timestamp it was made from. -/
theorem makeMessage_media {ts sid : UInt32} {ty : UInt8} (hm : m.isMedia = true)
    (h : makeMessage ts ty sid payload = some m) : m.payload = payload ∧ m.timestamp = ts := by
  unfold makeMessage at h
  -- a control message is no media message, and any other type is taken for data
  split_ifs at h <;> cases h <;> first | exact ⟨rfl, rfl⟩ | cases hm

/-! ## One encoded message -/

section OneMessage

variable {m : RtmpMessage} (hm : Encodable m) {size : Nat} (hsize : 1 ≤ size ∧ size < 2 ^ 32)
  (cs : Nat → Option ChunkState)

/-- The context that the header of `m` leaves behind. -/
def headerState (m : RtmpMessage) (cs : Nat → Option ChunkState) : ChunkState :=
  freshState (cs (encodeCsid m.typeId)) (decide (0xFFFFFF ≤ m.timestamp.toNat)) m.timestamp.toNat
    m.payload.length m.typeId m.streamId.toNat

include hm in
theorem encode_eq (size : Nat) : (RtmpMessageEncoder.mk size).encode m =
    basicHeader .full (encodeCsid m.typeId) .one ++ messageHeader ⟨m, m.timestamp, m.streamId⟩
      m.timestamp .full ++
      extension m.timestamp ++ encodeChunks size (encodeCsid m.typeId) m.payload.length
        m.payload := by
  have hs : encodeBasicHeader 0 (encodeCsid m.typeId) =
      basicHeader .full (encodeCsid m.typeId) .one :=
    encodeBasicHeader_small .full (encodeCsid_bounds m.typeId).2
  have hz : UInt8.ofNat (m.streamId.toNat >>> 24) = 0 := by
    rw [Nat.shiftRight_eq_zero _ _ hm.streamId]
    rfl
  have hmn : (if 0xFFFFFF ≤ m.timestamp.toNat then 0xFFFFFF else m.timestamp.toNat) =
      min m.timestamp.toNat 0xFFFFFF := by
    split <;> omega
  simp only [RtmpMessageEncoder.encode, encodeHeader, hs, hmn, messageHeader, timeField, Core.be24,
    le32, hz, extension, isExtended, decide_eq_true_eq, cons_append, nil_append, append_assoc]

include hm in
theorem parseHeader_encode (size : Nat) (t : Bytes) :
    ∃ pos, parseHeader cs ((RtmpMessageEncoder.mk size).encode m ++ t)
        = some ⟨encodeCsid m.typeId, cs (encodeCsid m.typeId), headerState m cs, pos⟩ ∧
      ((RtmpMessageEncoder.mk size).encode m ++ t).drop pos
        = encodeChunks size (encodeCsid m.typeId) m.payload.length m.payload ++ t := by
  have hn : BasicForm.one.Names (encodeCsid m.typeId) := encodeCsid_bounds m.typeId
  have hr := readMessageHeader_written (m := ⟨m, m.timestamp, m.streamId⟩) hm.short m.timestamp
    (extension m.timestamp ++
    (encodeChunks size (encodeCsid m.typeId) m.payload.length m.payload ++ t))
    (restoreState (cs (encodeCsid m.typeId)) 0) .full
  have hp := parseHeader_timed cs hn .full _ m.timestamp _ hr (fun _ => rfl) nofun
  rw [encode_eq hm, append_assoc _ (encodeChunks ..)]
  refine ⟨_, hp.trans ?_, drop_left⟩
  simp only [headerState, freshState, prevTimestamp, UInt32.ofNat_toNat, Bool.false_or, isExtended]
  cases cs (encodeCsid m.typeId) <;> rfl

include hm in
theorem headerState_msgLength : (headerState m cs).buffer.length + m.payload.length =
    (headerState m cs).msgLength.toNat := by
  have := hm.short
  simp only [headerState, freshState, length_nil, toNat_ofNat']
  omega

include hm hsize in
theorem feed_encode_one (hle : m.payload.length ≤ size) (t : Bytes) :
    ∃ st', st'.buffer = [] ∧ st'.timestamp = m.timestamp ∧
      feed attempt ⟨size, cs⟩ ((RtmpMessageEncoder.mk size).encode m ++ t)
        = Fed.prepend [m]
          (feed attempt ⟨size, update cs (encodeCsid m.typeId) (some st')⟩ t) := by
  obtain ⟨pos, hp, hd⟩ := parseHeader_encode hm cs size t
  rw [encodeChunks_last hm.nonempty le_rfl hle] at hd
  have hts : (headerState m cs).tsField = m.timestamp := UInt32.ofNat_toNat
  have hsd : (headerState m cs).msgStreamId = m.streamId := UInt32.ofNat_toNat
  have hms := makeMessage_self m
  rw [← hts, ← hsd] at hms
  have ha := attempt_last (c := ⟨size, cs⟩) hp hsize (headerState_msgLength hm cs) hd
    hm.nonempty hle hms
  rw [completed_of_type hm.noSetChunkSize] at ha
  exact ⟨_, rfl, hts, feed_of_take attempt_shrinks ha⟩

include hm hsize in
theorem feed_encode_first (hlt : size < m.payload.length) (t : Bytes) :
    feed attempt ⟨size, cs⟩ ((RtmpMessageEncoder.mk size).encode m ++ t)
      = feed attempt ⟨size, update cs (encodeCsid m.typeId)
        (some { headerState m cs with buffer := m.payload.take size })⟩
        (encodeBasicHeader 3 (encodeCsid m.typeId) ++ (encodeChunks size (encodeCsid m.typeId)
          (m.payload.length - 1) (m.payload.drop size) ++ t)) := by
  obtain ⟨pos, hp, hd⟩ := parseHeader_encode hm cs size t
  obtain ⟨n, hn⟩ : ∃ n, m.payload.length = n + 1 := ⟨m.payload.length - 1, by omega⟩
  have hmr := encodeChunks_more (encodeCsid m.typeId) n hlt
  rw [← hn] at hmr
  rw [hmr, append_assoc, append_assoc] at hd
  have ha := attempt_more (c := ⟨size, cs⟩) hp hsize (headerState_msgLength hm cs) hd hlt
  rw [feed_of_take attempt_shrinks ha, Fed.prepend_nil, hn, Nat.add_sub_cancel]
  rfl

include hm hsize in
/-- A longer message without an extended timestamp is returned, with its
timestamp added to that of the previous message on the chunk stream. -/
theorem feed_encode_many (hlt : size < m.payload.length) (hts : m.timestamp.toNat < 0xFFFFFF)
    {msg : RtmpMessage}
    (hms : makeMessage (prevTimestamp (cs (encodeCsid m.typeId)) + m.timestamp) m.typeId m.streamId
      m.payload = some msg)
    (t : Bytes) :
    ∃ st', st'.buffer = [] ∧ st'.timestamp =
      prevTimestamp (cs (encodeCsid m.typeId)) + m.timestamp ∧
      feed attempt ⟨size, cs⟩ ((RtmpMessageEncoder.mk size).encode m ++ t)
        = Fed.prepend [msg]
          (feed attempt ⟨size, update cs (encodeCsid m.typeId) (some st')⟩ t) := by
  have hfl : (headerState m cs).tsField = m.timestamp := UInt32.ofNat_toNat
  have hsd : (headerState m cs).msgStreamId = m.streamId := UInt32.ofNat_toNat
  have hne : (headerState m cs).tsField ≠ 0xFFFFFF := by
    rw [hfl]
    intro h
    rw [h] at hts
    exact absurd hts (by decide)
  have he : (headerState m cs).hasExtendedTs = false := by
    simp only [headerState, freshState, decide_eq_false_iff_not]
    omega
  rw [← hfl, ← hsd] at hms
  obtain ⟨st', hb, htm, hfd⟩ := feed_continuation (encodeCsid_bounds m.typeId) hsize
    (headerState m cs) hne he hm.noSetChunkSize t (m.payload.length - 1)
    (m.payload.drop size) (m.payload.take size) true
    (update cs (encodeCsid m.typeId) (some { headerState m cs with buffer := m.payload.take size }))
    (drop_eq_nil_iff.not.mpr (by omega)) (by rw [length_drop]; omega)
    (by rw [← headerState_msgLength hm, ← length_append,
      take_append_drop]; exact (zero_add _).symm)
    (by rw [update_self]; rfl) (by rw [take_append_drop]; exact hms)
  rw [update_idem] at hfd
  refine ⟨st', hb, ?_, ?_⟩
  · rw [htm, hfl]
    rfl
  · rw [feed_encode_first hm hsize cs hlt, hfd]

end OneMessage

/-! ## Counting bytes -/

variable {b r : Bytes} {K : Nat} {c' : ChunkContext} {ps : List RtmpMessage}

/-- What a payload of `n` bytes takes at least from a stream of chunks of `size`
bytes: itself and one header byte for each chunk. -/
def chunkCost (size n : Nat) : Nat := n + (n + size - 1) / size

theorem chunkCost_add {size d : Nat} (hsize : 1 ≤ size) (n : Nat) (hd : d ≤ size) :
    chunkCost size (n + d) ≤ chunkCost size n + d + 1 := by
  have h : (n + d + size - 1) / size ≤ (n + size - 1 + size) / size :=
    Nat.div_le_div_right (by omega)
  rw [Nat.add_div_right _ hsize] at h
  unfold chunkCost
  omega

theorem chunkCost_full (hsize : 1 ≤ size) (n : Nat) :
    chunkCost size (size + n) = size + 1 + chunkCost size n := by
  unfold chunkCost
  rw [show size + n + size - 1 = n + size - 1 + size by omega, Nat.add_div_right _ hsize]
  omega

theorem chunkCost_zero (hsize : 1 ≤ size) : chunkCost size 0 = 0 := by
  unfold chunkCost
  rw [Nat.div_eq_of_lt (by omega)]

theorem chunkCost_last {size n : Nat} (hn : 1 ≤ n) (hle : n ≤ size) : chunkCost size n = n + 1 := by
  have h : (n + size - 1) / size = 1 := by
    rw [show n + size - 1 =
      n - 1 + size by omega, Nat.add_div_right _ (by omega), Nat.div_eq_of_lt (by omega)]
  rw [chunkCost, h]

theorem chunkCost_lower {size n : Nat} (hsize : 1 ≤ size) (hn : 1 ≤ n) : n + 1 ≤ chunkCost size n :=
  Nat.add_le_add_left (Nat.div_pos (by omega) hsize) n

/-- The encoder writes exactly the cost, with the header byte in front. -/
theorem encodeChunks_length {size csid : Nat} (hcd : csid < 64) (hsize : 1 ≤ size) :
    ∀ (n : Nat) (payload : Bytes), payload ≠ [] → payload.length ≤ n →
      (encodeChunks size csid n payload).length + 1 = chunkCost size payload.length := by
  intro n
  induction n with
  | zero =>
    intro payload hne hn
    exact absurd (length_eq_zero_iff.mp (Nat.le_zero.mp hn)) hne
  | succ n ih =>
    intro payload hne hn
    have hpos := length_pos_iff.mpr hne
    by_cases hle : payload.length ≤ size
    · rw [encodeChunks_last hne hn hle, chunkCost_last hpos hle]
    · have hr := ih (payload.drop size) (drop_eq_nil_iff.not.mpr (by omega))
        (by rw [length_drop]; omega)
      have hcs := chunkCost_full hsize (payload.length - size)
      rw [Nat.add_sub_cancel' (by omega : size ≤ payload.length)] at hcs
      rw [encodeChunks_more csid n (by omega)]
      simp only [length_append, length_take, length_encodeBasicHeader hcd]
      rw [length_drop] at hr
      omega

/-- With `n` bytes to come, no chunk stream can complete a payload that costs
more than `K`. -/
def Within (size K : Nat) (cs : Nat → Option ChunkState) (n : Nat) : Prop :=
  n ≤ K ∧ ∀ k st, cs k = some st → chunkCost size st.buffer.length + n ≤ K

variable {cs : Nat → Option ChunkState}

theorem parseHeader_within (hsize : 1 ≤ size) {h : ChunkHeader} (hK : Within size K cs b.length)
    (hp : parseHeader cs b = some h) : chunkCost size h.state.buffer.length + b.length ≤ K := by
  have hnil : chunkCost size ([] : Bytes).length + b.length ≤ K := by
    rw [length_nil, chunkCost_zero hsize]
    have := hK.1
    omega
  rw [parseHeader_buffer hp]
  unfold restoreState
  cases hk : cs h.csid with
  | none => exact hnil
  | some st =>
    simp only
    split
    · exact hnil
    · exact hK.2 h.csid st hk

/-- A message from a payload that costs at most `K`. -/
def MadeWithin (size K : Nat) (msg : RtmpMessage) : Prop :=
  ∃ ts ty sid payload, makeMessage ts ty sid payload = some msg ∧ chunkCost size payload.length ≤ K

/-- One chunk whose header is `e` bytes longer than the shortest one lowers the
budget by `e`. -/
theorem attempt_within {size e : Nat} (hsize : 1 ≤ size ∧ size < 2 ^ 32) {h : ChunkHeader}
    (hp : parseHeader cs b = some h) (he : e + 1 ≤ h.pos) (hK : Within size (K + e) cs b.length)
    {o : List RtmpMessage} (ha : attempt ⟨size, cs⟩ b = .take c' o r) :
    (o = [] ∧ c'.chunkSize = size ∧ Within size K c'.chunkStates r.length) ∨
    ∃ msg, o = [msg] ∧ MadeWithin size K msg := by
  have hpos := parseHeader_pos hp
  have hc := parseHeader_within hsize.1 hK hp
  obtain ⟨hK₁, hK₂⟩ := hK
  rw [attempt_of_header (c := ⟨size, cs⟩) hp, chunkAttempt] at ha
  split at ha
  · split at ha
    · cases ha
      refine .inl ⟨rfl, rfl, ?_, ?_⟩
      · rw [length_drop]
        omega
      · intro k st hk
        have := hK₂ k st hk
        rw [length_drop]
        omega
    · cases ha
  next h0 =>
    have hr : h.state.chunkToRead size ≤ size :=
      le_trans (min_le_right _ _) (Nat.mod_le _ _)
    obtain ⟨d, hd⟩ : ∃ d, min (h.state.chunkToRead size) (b.length - h.pos) = d := ⟨_, rfl⟩
    rw [hd] at ha
    have hdt : ((b.drop h.pos).take d).length = d := by
      rw [length_take, length_drop]
      omega
    have hg := chunkCost_add hsize.1 h.state.buffer.length (show d ≤ size by omega)
    obtain ⟨rfl, ⟨msg, rfl, -, hm⟩ | ⟨rfl, rfl, -⟩⟩ := finishAttempt_take ha
    · refine .inr ⟨msg, rfl, _, _, _, _, hm, ?_⟩
      rw [length_append, hdt]
      omega
    · refine .inl ⟨rfl, rfl, ?_, ?_⟩
      · rw [length_drop]
        omega
      · intro k st hk
        rw [length_drop]
        rcases of_update hk with ⟨-, ⟨⟩⟩ | ⟨-, hk⟩
        · rw [length_append, hdt]
          omega
        · have := hK₂ k st hk
          omega

/-- **The first message that comes out of a stream** is one the budget allows, where the first
header is `e` bytes longer than the shortest one. -/
theorem feed_first_message (hsize : 1 ≤ size ∧ size < 2 ^ 32) (c : ChunkContext) (b : Bytes)
    {c' : ChunkContext} {msg : RtmpMessage}
    {ms : List RtmpMessage} : ∀ {K e : Nat}, c.chunkSize = size →
    (∀ h, parseHeader c.chunkStates b = some h → e + 1 ≤ h.pos) →
    Within size (K + e) c.chunkStates b.length → feed attempt c b = some (c', msg :: ms, r) →
    MadeWithin size K msg := by
  induction c, b using feed_induction attempt_shrinks with
  | wait c b hw =>
    intro K e _ _ _ hf
    rw [feed_of_wait hw] at hf
    cases hf
  | crash c b hw =>
    intro K e _ _ _ hf
    rw [feed_of_crash hw] at hf
    cases hf
  | take c b c₁ o₁ r₁ ha ih =>
    obtain ⟨size', cs⟩ := c
    rintro K e rfl he hK hf
    cases hp : parseHeader cs b with
    | none =>
      rw [attempt_of_none (c := ⟨size', cs⟩) hp] at ha
      cases ha
    | some h =>
      rw [feed_of_take attempt_shrinks ha] at hf
      rcases attempt_within hsize hp (he h hp) hK ha with ⟨rfl, hsz, hK₁⟩ | ⟨msg₁, rfl, hm⟩
      · -- the headers behind the first one may be the shortest
        rw [Fed.prepend_nil] at hf
        exact ih (e := 0) hsz (fun h hp => (parseHeader_pos hp).1) hK₁ hf
      · rwa [Fed.prepend_head hf] at hm

/-- With an extended timestamp, a longer message does not come back: the parser
takes four bytes of the second chunk for a timestamp. -/
theorem feed_encode_ext (hm : Encodable m) (hsize : 1 ≤ size ∧ size < 2 ^ 32)
    (hcs : ∀ k st, cs k = some st → st.buffer = []) (hlt : size < m.payload.length)
    (hts : 0xFFFFFF ≤ m.timestamp.toNat) (hmd : m.isMedia = true) :
    feed attempt ⟨size, cs⟩ ((RtmpMessageEncoder.mk size).encode m) ≠ some (c', [m], r) := by
  intro hf
  have hcd := encodeCsid_bounds m.typeId
  have hfr := feed_encode_first hm hsize cs hlt []
  rw [append_nil, append_nil] at hfr
  rw [hfr] at hf
  obtain ⟨b, hb⟩ : ∃ b, b = encodeBasicHeader 3 (encodeCsid m.typeId) ++ encodeChunks size
      (encodeCsid m.typeId) (m.payload.length - 1) (m.payload.drop size) := ⟨_, rfl⟩
  rw [← hb] at hf
  -- the bytes left are exactly what the rest of the payload costs
  have hbl : b.length = chunkCost size (m.payload.length - size) := by
    have hl := encodeChunks_length hcd.2 hsize.1 (m.payload.length - 1) (m.payload.drop size)
      (drop_eq_nil_iff.not.mpr (by omega)) (by rw [length_drop]; omega)
    rw [hb, length_append, length_encodeBasicHeader hcd.2]
    rw [length_drop] at hl
    omega
  have hct := chunkCost_full hsize.1 (m.payload.length - size)
  rw [Nat.add_sub_cancel' (by omega : size ≤ m.payload.length)] at hct
  have hw : Within size (chunkCost size m.payload.length) (update cs
      (encodeCsid m.typeId) (some { headerState m cs with buffer := m.payload.take size }))
      b.length := by
    refine ⟨by omega, ?_⟩
    intro k st hk
    rcases of_update hk with ⟨-, ⟨⟩⟩ | ⟨-, hk⟩
    · have hfl := chunkCost_full hsize.1 0
      rw [add_zero, chunkCost_zero hsize.1] at hfl
      rw [length_take, min_eq_left (by omega), hfl]
      omega
    · rw [hcs k st hk, length_nil, chunkCost_zero hsize.1]
      omega
  have h5 : ∀ h, parseHeader (update cs (encodeCsid m.typeId)
      (some { headerState m cs with buffer := m.payload.take size })) b = some h → h.pos = 5 := by
    intro h hp
    rw [hb] at hp
    refine parseHeader_continuation_ext _ hcd (update_self ..) ?_ hp
    simp only [headerState, freshState, decide_eq_true_eq]
    exact hts
  have hr := chunkCost_lower hsize.1 (show 1 ≤ m.payload.length - size by omega)
  rw [show chunkCost size m.payload.length = chunkCost size m.payload.length - 4 + 4 by omega]
    at hw
  obtain ⟨ts, ty, sid, payload, hms, hle⟩ := feed_first_message (e := 4) hsize _ b rfl
    (fun h hp => le_of_eq (h5 h hp).symm) hw hf
  rw [← (makeMessage_media hmd hms).1] at hle
  omega

/-! ## Lists of messages -/

/-- The timestamp of the last message sent on a chunk stream, 0 before the first. -/
def lastTimestamp (csid : Nat) (ps : List RtmpMessage) : UInt32 :=
  ((ps.filter fun m => encodeCsid m.typeId = csid).getLast?.map timestamp).getD 0

theorem lastTimestamp_concat (csid : Nat) (ps : List RtmpMessage) (m : RtmpMessage) :
    lastTimestamp csid (ps ++ [m])
      = if encodeCsid m.typeId = csid then m.timestamp else lastTimestamp csid ps := by
  unfold lastTimestamp
  by_cases h : encodeCsid m.typeId = csid
  · simp [h]
  · simp [h]

theorem control_timestamp (h : m.isMedia = false) : m.timestamp = 0 ∧ encodeCsid m.typeId = 2 := by
  cases m with
  | audio | video | amf0Data | amf0Command => cases h
  | _ => exact ⟨rfl, rfl⟩

theorem media_csid (h : m.isMedia = true) : encodeCsid m.typeId ≠ 2 := by
  cases m with
  | audio _ _ _ => exact (by decide : encodeCsid MSG_AUDIO ≠ 2)
  | video _ _ _ => exact (by decide : encodeCsid MSG_VIDEO ≠ 2)
  | amf0Data _ _ _ => exact (by decide : encodeCsid MSG_AMF0_DATA ≠ 2)
  | amf0Command _ _ _ => exact (by decide : encodeCsid MSG_AMF0_COMMAND ≠ 2)
  | _ => cases h

/-- Chunk stream 2 carries control messages only, all at timestamp 0. -/
theorem lastTimestamp_two (ps : List RtmpMessage) : lastTimestamp 2 ps = 0 := by
  induction ps using reverseRecOn with
  | nil => rfl
  | append_singleton ps m ih =>
    rw [lastTimestamp_concat]
    split
    next h =>
      cases hm : m.isMedia with
      | true => exact absurd h (media_csid hm)
      | false => exact (control_timestamp hm).1
    next => exact ih

/-- The parser after the messages `ps`: nothing half read, and the timestamps
of the last messages remembered. -/
structure Settled (size : Nat) (ps : List RtmpMessage) (c : ChunkContext) : Prop where
  chunkSize : c.chunkSize = size
  buffers : ∀ k st, c.chunkStates k = some st → st.buffer = []
  timestamps : ∀ k, prevTimestamp (c.chunkStates k) = lastTimestamp k ps

theorem settled_concat (h : Settled size ps ⟨size, cs⟩) (m : RtmpMessage) {st : ChunkState}
    (hb : st.buffer = []) (hts : st.timestamp = m.timestamp) :
    Settled size (ps ++ [m]) ⟨size, update cs (encodeCsid m.typeId) (some st)⟩ := by
  refine ⟨rfl, ?_, ?_⟩
  · intro k st' hk
    rcases of_update hk with ⟨-, ⟨⟩⟩ | ⟨-, hk⟩
    · exact hb
    · exact h.buffers k st' hk
  · intro k
    rw [lastTimestamp_concat]
    by_cases hkc : k = encodeCsid m.typeId
    · rw [hkc]
      simp only [update_self]
      exact hts
    · rw [if_neg (fun he => hkc he.symm)]
      simp only [update_of_ne hkc]
      exact h.timestamps k

/-- The messages that come back at chunk size `size` after the messages `ps`:
those that fit in one chunk, and longer ones with a 24-bit timestamp on a chunk
stream whose last timestamp was 0. -/
def Readable (size : Nat) (ps : List RtmpMessage) (m : RtmpMessage) : Prop :=
  m.payload.length ≤ size ∨
    (m.timestamp.toNat < 0xFFFFFF ∧ lastTimestamp (encodeCsid m.typeId) ps = 0)

theorem feed_readable (hsize : 1 ≤ size ∧ size < 2 ^ 32) (hs : Settled size ps ⟨size, cs⟩)
    (hm : Encodable m) (hr : Readable size ps m) (t : Bytes) :
    ∃ cs', Settled size (ps ++ [m]) ⟨size, cs'⟩ ∧
    feed attempt ⟨size, cs⟩ ((RtmpMessageEncoder.mk size).encode m ++ t)
        = Fed.prepend [m] (feed attempt ⟨size, cs'⟩ t) := by
  by_cases hle : m.payload.length ≤ size
  · obtain ⟨st, hb, hts, hf⟩ := feed_encode_one hm hsize cs hle t
    exact ⟨_, settled_concat hs m hb hts, hf⟩
  · rcases hr with hr | ⟨hsh, hls⟩
    · exact absurd hr hle
    · have hz : prevTimestamp (cs (encodeCsid m.typeId)) + m.timestamp = m.timestamp := by
        rw [hs.timestamps, hls, UInt32.zero_add]
      have hms := makeMessage_self m
      rw [← hz] at hms
      obtain ⟨st, hb, hts, hf⟩ := feed_encode_many hm hsize cs (by omega) hsh hms t
      rw [hz] at hts
      exact ⟨_, settled_concat hs m hb hts, hf⟩

theorem makeMessage_retimed (hm : m.isMedia = true) (ts : UInt32) :
    ∃ msg, makeMessage ts m.typeId m.streamId m.payload = some msg ∧ msg.timestamp = ts := by
  cases m with
  | audio | video | amf0Data | amf0Command => exact ⟨_, rfl, rfl⟩
  | _ => cases hm

theorem feed_unreadable (hsize : 1 ≤ size ∧ size < 2 ^ 32) (hs : Settled size ps ⟨size, cs⟩)
    (hm : Encodable m) (hr : ¬ Readable size ps m) (c' : ChunkContext) (r : Bytes) :
    feed attempt ⟨size, cs⟩ ((RtmpMessageEncoder.mk size).encode m) ≠ some (c', [m], r) := by
  have hlt : size < m.payload.length := by
    by_contra hle
    exact hr (.inl (by omega))
  have hmd : m.isMedia = true := by
    by_contra hcn
    obtain ⟨hts, hcs⟩ := control_timestamp (by simpa using hcn)
    refine hr (.inr ⟨?_, ?_⟩)
    · rw [hts]
      decide
    · rw [hcs]
      exact lastTimestamp_two ps
  by_cases hts : 0xFFFFFF ≤ m.timestamp.toNat
  · exact feed_encode_ext hm hsize hs.buffers hlt hts hmd
  · intro hf
    obtain ⟨msg, hms, htm⟩ := makeMessage_retimed hmd
      (prevTimestamp (cs (encodeCsid m.typeId)) + m.timestamp)
    obtain ⟨st, -, -, hfd⟩ := feed_encode_many hm hsize cs hlt (by omega) hms []
    rw [append_nil, hf, feed_of_wait (attempt_nil _)] at hfd
    simp only [Fed.prepend_some, append_nil, some.injEq, Prod.mk.injEq, List.cons.injEq,
      and_true] at hfd
    rw [← hfd.2.1] at htm
    refine hr (.inr ⟨by omega, ?_⟩)
    have hp : prevTimestamp (cs (encodeCsid m.typeId)) = lastTimestamp (encodeCsid m.typeId) ps :=
      hs.timestamps _
    rw [← hp]
    have hn := congrArg toNat htm
    rw [UInt32.toNat_add] at hn
    have h1 := m.timestamp.toNat_lt
    have h2 := (prevTimestamp (cs (encodeCsid m.typeId))).toNat_lt
    refine UInt32.toNat_inj.mp ?_
    rw [UInt32.toNat_zero]
    omega

/-- All messages encoded one after the other. -/
def encodeAll (e : RtmpMessageEncoder) (ms : List RtmpMessage) : Bytes := ms.flatMap e.encode

theorem new_settled (size : Nat) : Settled size [] ⟨size, fun _ => none⟩ :=
  ⟨rfl, nofun, fun _ => rfl⟩

/-- A run of readable messages is returned, and leaves the parser settled. -/
theorem feed_run (hsize : 1 ≤ size ∧ size < 2 ^ 32) (ps : List RtmpMessage) :
    (∀ m ∈ ps, Encodable m) → (∀ qs m, qs ++ [m] <+: ps → Readable size qs m) →
    ∀ t, ∃ cs, Settled size ps ⟨size, cs⟩ ∧
      feed attempt ⟨size, fun _ => none⟩ (encodeAll ⟨size⟩ ps ++ t)
        = Fed.prepend ps (feed attempt ⟨size, cs⟩ t) := by
  induction ps using List.reverseRecOn with
  | nil =>
    intro _ _ t
    exact ⟨_, new_settled size, (Fed.prepend_nil _).symm⟩
  | append_singleton ps m ih =>
    intro he hr t
    obtain ⟨cs, hs, hf⟩ := ih (fun m' hm' => he m' (mem_append_left _ hm'))
      (fun qs m' hq => hr qs m' (hq.trans (prefix_append _ _)))
      ((RtmpMessageEncoder.mk size).encode m ++ t)
    obtain ⟨cs', hs', hf'⟩ := feed_readable hsize hs (he m (by simp))
      (hr ps m (prefix_refl _)) t
    refine ⟨cs', hs', ?_⟩
    have hal : encodeAll ⟨size⟩ (ps ++ [m]) ++ t
        = encodeAll ⟨size⟩ ps ++ ((RtmpMessageEncoder.mk size).encode m ++ t) := by
      simp [encodeAll]
    rw [hal, hf, hf', Fed.prepend_prepend]

/-- The messages a fresh parser of chunk size `size` returns for `b`; `none` is a panic. -/
def decode (size : UInt32) (b : Bytes) : Option (List RtmpMessage) :=
  ((RtmpMessageParser.new.setChunkSize size).feed b).map Prod.snd

theorem decode_eq_reader (size : UInt32) (b : Bytes) :
    decode size b = (feed attempt ⟨size.toNat, fun _ => none⟩ b).map fun q => q.2.1 := by
  have h := feed_eq_reader ⟨size.toNat, fun _ => none⟩ [] b
  change (RtmpMessageParser.new.setChunkSize size).feed b = _ at h
  rw [decode, h, Option.map_map]
  rfl

/-- **When the parser undoes the encoder.** Every part of a run, from its start,
comes back as it was sent if and only if each message is `Readable` after the
messages before it. -/
theorem decode_encodeAll_iff (c : UInt32) (hc : 1 ≤ c.toNat) (ms : List RtmpMessage)
    (hms : ∀ m ∈ ms, Encodable m) :
    (∀ ps, ps <+: ms → decode c (encodeAll (RtmpMessageEncoder.new.setChunkSize c.toNat) ps) =
      some ps) ↔
    ∀ ps m, ps ++ [m] <+: ms → Readable c.toNat ps m := by
  have hsize : 1 ≤ c.toNat ∧ c.toNat < 2 ^ 32 := ⟨hc, c.toNat_lt⟩
  have hen : ∀ ps, ps <+: ms → ∀ m ∈ ps, Encodable m := fun ps hps m hm => hms m (hps.subset hm)
  constructor
  · intro hal
    -- along the run: the first message that is not readable would end a part that fails
    have hpr : ∀ ps, ps <+: ms → ∀ qs m, qs ++ [m] <+: ps → Readable c.toNat qs m := by
      intro ps
      induction ps using reverseRecOn with
      | nil =>
        intro _ qs m hq
        simp at hq
      | append_singleton ps m' ih =>
        intro hps qs m hq
        have hih := ih ((prefix_append _ _).trans hps)
        rcases prefix_concat_iff.mp hq with heq | hq
        · obtain ⟨rfl, rfl⟩ := append_singleton_inj.mp heq
          by_contra hr
          obtain ⟨cs, hs, hfd⟩ := feed_run hsize qs
            (hen qs ((prefix_append _ _).trans hps)) hih ((RtmpMessageEncoder.mk c.toNat).encode m)
          have hd := hal (qs ++ [m]) hps
          rw [decode_eq_reader] at hd
          have hen' : encodeAll (RtmpMessageEncoder.new.setChunkSize c.toNat) (qs ++ [m])
              = encodeAll ⟨c.toNat⟩ qs ++ (RtmpMessageEncoder.mk c.toNat).encode m := by
            simp [encodeAll, RtmpMessageEncoder.setChunkSize]
          rw [hen', hfd] at hd
          cases hf : feed attempt ⟨c.toNat, cs⟩ ((RtmpMessageEncoder.mk c.toNat).encode m) with
          | none => rw [hf] at hd; cases hd
          | some q =>
            obtain ⟨c', o, r⟩ := q
            rw [hf] at hd
            simp only [Fed.prepend_some, map_some, some.injEq, append_cancel_left_eq] at hd
            exact feed_unreadable hsize hs (hms m (hps.subset (by simp))) hr c' r (by rw [hf, hd])
        · exact hih qs m hq
    exact fun ps m hq => hpr ms (prefix_refl _) ps m hq
  · intro hrd ps hps
    obtain ⟨cs, -, hfd⟩ := feed_run hsize ps (hen ps hps)
      (fun qs m hq => hrd qs m (hq.trans hps)) []
    rw [decode_eq_reader]
    rw [append_nil, feed_of_wait (attempt_nil _)] at hfd
    change (feed attempt ⟨c.toNat, fun _ => none⟩ (encodeAll ⟨c.toNat⟩ ps)).map _ = _
    rw [hfd]
    simp

/-- Chunk size 2, a one-chunk message and a two-chunk one behind it. -/
theorem decode_encodeAll_witness :
    (1 ≤ (2 : UInt32).toNat ∧ ∀ m ∈ [audio 1 0 [1, 2], .audio 1 40 [3, 4, 5]],
      Encodable m) ∧
    ((∀ ps, ps <+: [audio 1 0 [1, 2], .audio 1 40 [3, 4, 5]] →
      decode 2 (encodeAll (RtmpMessageEncoder.new.setChunkSize (2 : UInt32).toNat) ps) = some ps) ↔
    ∀ ps m, ps ++ [m] <+: [audio 1 0 [1, 2], .audio 1 40 [3, 4, 5]] →
    Readable (2 : UInt32).toNat ps m) := by
  have he : ∀ m ∈ [audio 1 0 [1, 2], .audio 1 40 [3, 4, 5]], Encodable m := by
    intro m hm
    simp only [mem_cons, not_mem_nil, or_false] at hm
    rcases hm with rfl | rfl
    · exact ⟨by decide, by decide, by decide, by decide⟩
    · exact ⟨by decide, by decide, by decide, by decide⟩
  exact ⟨⟨by decide, he⟩, decode_encodeAll_iff 2 (by decide) _ he⟩

/-- Chunk size 1, two audio messages at timestamp 1: the second one is longer
than a chunk and comes back at timestamp 2. -/
theorem decode_encodeAll_ne : decode 1
    (encodeAll (RtmpMessageEncoder.new.setChunkSize 1) [.audio 1 1 [97], .audio 1 1 [97, 98]])
      ≠ some [.audio 1 1 [97], .audio 1 1 [97, 98]] ∧
    decode 1 (encodeAll (RtmpMessageEncoder.new.setChunkSize 1)
      [.audio 1 1 [97], .audio 1 1 [97, 98]])
      = some [.audio 1 1 [97], .audio 1 2 [97, 98]] := by
  decide

-- An audio message of two chunks at timestamp `0x1000000`: four bytes are skipped
-- and it never completes.
example : decode 8 (encodeAll (RtmpMessageEncoder.new.setChunkSize 8)
    [.audio 1 0x1000000 [1, 2, 3, 4, 5, 6, 7, 8, 9, 10, 11, 12, 13, 14, 15, 16]]) = some [] := by
  decide

end MediaKit.Rtmp
