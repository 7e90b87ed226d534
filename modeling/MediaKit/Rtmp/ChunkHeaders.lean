import MediaKit.Core.FlvPayload
import MediaKit.Rtmp.Segmentation

/-!
# Chunk headers

The headers of the chunk format, as a sender writes them, and what the parser reads from them: a
basic header of one, two or three octets, a message header of one of four formats and an extended
timestamp (`parseHeader_timed`). -/

namespace MediaKit.Rtmp

open Lib MediaKit.Core List Option Function UInt8

/-- The four formats of a message header. -/
inductive Fmt where
  | full
  | sameStream
  | sameShape
  | repeated
  deriving DecidableEq

def Fmt.code : Fmt → UInt8
  | full => 0
  | sameStream => 1
  | sameShape => 2
  | repeated => 3

/-- The three forms of a basic header. -/
inductive BasicForm where
  | one
  | two
  | three
  deriving DecidableEq

/-- The chunk streams that a form can name. -/
def BasicForm.Names (csid : Nat) : BasicForm → Prop
  | one => 2 ≤ csid ∧ csid < 64
  | two => 64 ≤ csid ∧ csid < 64 + 2 ^ 8
  | three => 64 ≤ csid ∧ csid < 64 + 2 ^ 16

instance (csid : Nat) (form : BasicForm) : Decidable (form.Names csid) := by
  unfold BasicForm.Names
  cases form <;> infer_instance

def basicHeader (fmt : Fmt) (csid : Nat) : BasicForm → Bytes
  | .one => [(fmt.code <<< 6) ||| ofNat csid]
  | .two => [fmt.code <<< 6, ofNat (csid - 64)]
  | .three => [(fmt.code <<< 6) ||| 1, ofNat (csid - 64), ofNat ((csid - 64) >>> 8)]

/-- A message with what its header says. -/
structure Message where
  msg : RtmpMessage
  timestamp : UInt32
  streamId : UInt32
  deriving DecidableEq

/-- The time does not fit into a header. -/
def isExtended (time : UInt32) : Bool := decide (0xFFFFFF ≤ time.toNat)

/-- The time behind a header. -/
def extension (time : UInt32) : Bytes := if isExtended time then be32 time.toNat else []

/-- The time in a header. -/
def timeField (time : UInt32) : Bytes := be24 (min time.toNat 0xFFFFFF)

def le32 (n : Nat) : Bytes := [ofNat n, ofNat (n >>> 8), ofNat (n >>> 16), ofNat (n >>> 24)]

def messageHeader (m : Message) (time : UInt32) : Fmt → Bytes
  | .full => timeField time ++ be24 m.msg.payload.length ++ [m.msg.typeId] ++ le32 m.streamId.toNat
  | .sameStream => timeField time ++ be24 m.msg.payload.length ++ [m.msg.typeId]
  | .sameShape => timeField time
  | .repeated => []

/-! ## Reading a header back -/

variable {form : BasicForm} {csid : Nat}

theorem fmt_code_cases (fmt : Fmt) : fmt.code ∈ ([0, 1, 2, 3] : List UInt8) := by
  cases fmt <;> simp [Fmt.code]

/-- The first octet of a basic header: the format, and the chunk stream or the form. -/
theorem basicByte_read : ∀ fmt ∈ ([0, 1, 2, 3] : List UInt8), ∀ low : Fin 64,
    (((fmt <<< 6) ||| ofNat low) >>> 6) &&& 0x03 = fmt ∧
      ((fmt <<< 6) ||| ofNat low) &&& 0x3F = ofNat low := by
  decide +kernel

theorem chunkFmt_basicHeader (h : form.Names csid) (fmt : Fmt) (r : Bytes) :
    chunkFmt (basicHeader fmt csid form ++ r) = fmt.code := by
  cases form with
  | one => exact (basicByte_read _ (fmt_code_cases fmt) ⟨csid, h.2⟩).1
  | two =>
    have hr := (basicByte_read _ (fmt_code_cases fmt) 0).1
    rw [show (fmt.code <<< 6) ||| UInt8.ofNat ((0 : Fin 64) : Nat) =
      fmt.code <<< 6 from UInt8.or_zero] at hr
    exact hr
  | three => exact (basicByte_read _ (fmt_code_cases fmt) 1).1

theorem parseBasicHeader_basicHeader (h : form.Names csid) (fmt : Fmt) (r : Bytes) :
    parseBasicHeader (basicHeader fmt csid form ++ r) =
      some (csid, (basicHeader fmt csid form).length) := by
  unfold parseBasicHeader
  cases form with
  | one =>
    obtain ⟨hl, hh⟩ : 2 ≤ csid ∧ csid < 64 := h
    have hr := (basicByte_read _ (fmt_code_cases fmt) ⟨csid, hh⟩).2
    have hn : (ofNat csid).toNat = csid := by
      rw [toNat_ofNat']
      omega
    have hzr : UInt8.ofNat csid ≠ 0 := fun hz => by
      have := congrArg toNat hz
      rw [UInt8.toNat_zero] at this
      omega
    have ho : ofNat csid ≠ 1 := fun hz => by
      have := congrArg toNat hz
      simp only [reduceToNat] at this
      omega
    simp only [basicHeader, cons_append, getD_cons_zero, hr, hzr, ho, if_false, hn, length_cons,
      length_nil]
  | two =>
    obtain ⟨hl, hh⟩ : 64 ≤ csid ∧ csid < 64 + 2 ^ 8 := h
    have hr : (fmt.code <<< 6) &&& 0x3F = 0 := by
      have hzr := (basicByte_read _ (fmt_code_cases fmt) 0).2
      change ((fmt.code <<< 6) ||| 0) &&& 0x3F = 0 at hzr
      rwa [UInt8.or_zero] at hzr
    have hn : (ofNat (csid - 64)).toNat + 64 = csid := by
      rw [toNat_ofNat']
      omega
    simp only [basicHeader, cons_append, getD_cons_zero, getD_cons_succ, hr, length_cons,
      length_nil, hn, if_true]
    rw [if_neg (by omega)]
  | three =>
    obtain ⟨hl, hh⟩ : 64 ≤ csid ∧ csid < 64 + 2 ^ 16 := h
    have hr := (basicByte_read _ (fmt_code_cases fmt) 1).2
    change ((fmt.code <<< 6) ||| 1) &&& 0x3F = 1 at hr
    have hn : 64 + (ofNat (csid - 64)).toNat + (ofNat ((csid - 64) >>> 8)).toNat * 256 = csid := by
      rw [toNat_ofNat', toNat_ofNat']
      omega
    simp only [basicHeader, cons_append, getD_cons_zero, getD_cons_succ, hr, length_cons,
      length_nil, hn, if_true]
    rw [if_neg (by decide), if_neg (by omega)]

theorem basicHeader_ne_nil (fmt : Fmt) (csid : Nat) (form : BasicForm) :
    basicHeader fmt csid form ≠ [] := by
  cases form <;> simp [basicHeader]

theorem getD_append_add (a b : Bytes) (i : Nat) : (a ++ b).getD (a.length + i) 0 = b.getD i 0 := by
  rw [getD_append_right _ _ _ _ (Nat.le_add_right _ _), Nat.add_sub_cancel_left]

theorem readMessageHeader_shift (fmt : UInt8) (a b : Bytes) (s : ChunkState) :
    readMessageHeader fmt (a ++ b) a.length s = readMessageHeader fmt b 0 s := by
  have hat : ∀ i, (a ++ b).getD (a.length + i) 0 = b.getD i 0 := getD_append_add a b
  have hf := hat 0
  rw [Nat.add_zero] at hf
  simp only [readMessageHeader, field24, Nat.add_assoc, hat, hf]

theorem length_messageHeader (m : Message) (time : UInt32) (fmt : Fmt) :
    (messageHeader m time fmt).length = headerLen fmt.code := by
  cases fmt <;> rfl

variable {st : ChunkState}

/-- The header of a chunk up to its extended timestamp, and what the parser does with the octets
behind it. -/
theorem parseHeader_split (cs : Nat → Option ChunkState) (h : form.Names csid)
    (fmt : Fmt) (m : Message) (time : UInt32) (r : Bytes)
    (hst : readMessageHeader fmt.code (messageHeader m time fmt ++ r) 0
      (restoreState (cs csid) fmt.code) = st) :
    parseHeader cs (basicHeader fmt csid form ++ messageHeader m time fmt ++ r) =
      let pos := (basicHeader fmt csid form ++ messageHeader m time fmt).length
      if st.tsField = 0xFFFFFF then
        if r.length < 4 then none
        else some ⟨csid, cs csid, { st with
          tsField := UInt32.ofNat (ofBe [r.getD 0 0, r.getD 1 0, r.getD 2 0, r.getD 3 0])
          hasExtendedTs := true }, pos + 4⟩
      else if fmt.code = 3 ∧ st.hasExtendedTs = true then
        if r.length < 4 then none else some ⟨csid, cs csid, st, pos + 4⟩
      else some ⟨csid, cs csid, st, pos⟩ := by
  have hb := parseBasicHeader_basicHeader h fmt (messageHeader m time fmt ++ r)
  have hfm := chunkFmt_basicHeader h fmt (messageHeader m time fmt ++ r)
  have hr := readMessageHeader_shift fmt.code (basicHeader fmt csid form)
    (messageHeader m time fmt ++ r) (restoreState (cs csid) fmt.code)
  have hpos : (basicHeader fmt csid form).length + headerLen fmt.code =
      (basicHeader fmt csid form ++ messageHeader m time fmt).length := by
    rw [length_append, length_messageHeader]
  have hne : basicHeader fmt csid form ++ messageHeader m time fmt ≠ [] := by
    simp [basicHeader_ne_nil]
  rw [hst] at hr
  rw [← append_assoc] at hb hfm hr
  generalize basicHeader fmt csid form ++ messageHeader m time fmt = header at *
  have he : (header ++ r).isEmpty = false := by simp [hne]
  have hat := getD_append_add header r
  have hfr := hat 0
  have hlen : ∀ n, (header ++ r).length < header.length + n ↔ r.length < n := fun n => by
    rw [length_append]
    omega
  have hw := hlen 0
  rw [add_zero] at hfr hw
  unfold parseHeader
  rw [he, hb, hfm]
  simp only [Bool.false_eq_true, if_false, hr, hpos, hw, hlen, hat, hfr, Nat.not_lt_zero]

theorem ofNat_min_eq_max {time : UInt32} (h : isExtended time = true) :
    UInt32.ofNat (min time.toNat 0xFFFFFF) = 0xFFFFFF := by
  rw [min_eq_right (of_decide_eq_true h)]
  rfl

theorem ofNat_min_eq_self {time : UInt32} (h : isExtended time = false) :
    UInt32.ofNat (min time.toNat 0xFFFFFF) = time := by
  rw [min_eq_left (le_of_lt (Nat.lt_of_not_le (of_decide_eq_false h))), UInt32.ofNat_toNat]

theorem ne_max_of_not_extended {time : UInt32} (h : isExtended time = false) : time ≠ 0xFFFFFF := by
  rintro rfl
  exact absurd h (by decide)

theorem payloadU32_be32 (n : UInt32) (r : Bytes) : payloadU32 (be32 n.toNat ++ r) = n := by
  unfold payloadU32 be32
  simp only [cons_append, getD_cons_zero, getD_cons_succ]
  rw [ofBe_four n.toNat n.toNat_lt, UInt32.ofNat_toNat]

/-- The header with its extended timestamp: the parser has the time of the sender. -/
theorem parseHeader_timed (cs : Nat → Option ChunkState) (h : form.Names csid) (fmt : Fmt)
    (m : Message) (time : UInt32) (r : Bytes)
    (hst : readMessageHeader fmt.code (messageHeader m time fmt ++ (extension time ++ r)) 0
      (restoreState (cs csid) fmt.code) = st)
    (ht : fmt ≠ .repeated → st.tsField = UInt32.ofNat (min time.toNat 0xFFFFFF))
    (hrp : fmt = .repeated → st.tsField = time ∧ st.hasExtendedTs = isExtended time) :
    parseHeader cs (basicHeader fmt csid form ++ messageHeader m time fmt ++ extension time ++ r) =
      some ⟨csid, cs csid,
        { st with tsField := time, hasExtendedTs := st.hasExtendedTs || isExtended time },
        (basicHeader fmt csid form ++ messageHeader m time fmt ++ extension time).length⟩ := by
  have hpos : (basicHeader fmt csid form ++ messageHeader m time fmt ++ extension time).length =
      (basicHeader fmt csid form ++ messageHeader m time fmt).length + (extension time).length :=
      length_append
  rw [append_assoc _ (extension time) r, parseHeader_split cs h fmt m time _ hst, hpos]
  cases he : isExtended time with
  | true =>
    have hbe : extension time = be32 time.toNat := if_pos he
    have hlen : ¬ (be32 time.toNat ++ r).length < 4 := by
      rw [length_append, length_be32]
      omega
    have hrd : UInt32.ofNat (ofBe [(be32 time.toNat ++ r).getD 0 0, (be32 time.toNat ++ r).getD 1 0,
        (be32 time.toNat ++ r).getD 2 0, (be32 time.toNat ++ r).getD 3 0]) = time :=
        payloadU32_be32 time r
    rw [hbe, hrd]
    by_cases hm : st.tsField = 0xFFFFFF
    · -- the field asks for the octets behind the header
      simp only [hm, if_true, hlen, if_false, Bool.or_true, length_be32]
    · -- only a header of format 3 gets here, and its time is the one it takes
      obtain rfl : fmt = .repeated := by
        by_contra hne
        exact hm ((ht hne).trans (ofNat_min_eq_max he))
      obtain ⟨hfd, hfl⟩ := hrp rfl
      rw [he] at hfl
      have hsm : st = { st with tsField := time, hasExtendedTs := true } := by
        rw [← hfd, ← hfl]
      simp only [hm, if_false, hlen, hfl, Fmt.code, and_self, if_true, Bool.or_true, length_be32]
      rw [← hsm]
  | false =>
    have hnil : extension time = [] := if_neg (by rw [he]; exact Bool.false_ne_true)
    have hfd : st.tsField = time := by
      by_cases hf : fmt = .repeated
      · exact (hrp hf).1
      · exact (ht hf).trans (ofNat_min_eq_self he)
    have hsk : ¬ (fmt.code = 3 ∧ st.hasExtendedTs = true) := by
      rintro ⟨hc, hfl⟩
      have hf : fmt = .repeated := by cases fmt <;> first | rfl | exact absurd hc (by decide)
      rw [(hrp hf).2, he] at hfl
      cases hfl
    have hne : st.tsField ≠ 0xFFFFFF := by
      rw [hfd]
      exact ne_max_of_not_extended he
    simp only [hne, if_false, hsk, hnil, length_nil, add_zero, Bool.or_false]
    rw [← hfd]

/-- What the parser reads in each format of the header. -/
theorem readMessageHeader_written {m : Message} (hsh : m.msg.payload.length < 2 ^ 24)
    (time : UInt32) (r : Bytes) (st : ChunkState) (fmt : Fmt) :
    readMessageHeader fmt.code (messageHeader m time fmt ++ r) 0 st =
      match fmt with
      | .full => { st with
        isAbsTimestamp := true
        hasExtendedTs := false
        msgStreamId := m.streamId
        msgTypeId := m.msg.typeId
        msgLength := UInt32.ofNat m.msg.payload.length
        tsField := UInt32.ofNat (min time.toNat 0xFFFFFF) }
      | .sameStream => { st with
        msgTypeId := m.msg.typeId
        msgLength := UInt32.ofNat m.msg.payload.length
        tsField := UInt32.ofNat (min time.toNat 0xFFFFFF) }
      | .sameShape => { st with tsField := UInt32.ofNat (min time.toNat 0xFFFFFF) }
      | .repeated => st := by
  have ht := ofBe_three _ (show min time.toNat 0xFFFFFF < 2 ^ 24 by omega)
  have hlen := ofBe_three _ hsh
  have hsd := ofLe_four _ m.streamId.toNat_lt
  cases fmt <;> simp only [Fmt.code, messageHeader, timeField, be24, le32, cons_append, nil_append,
    readMessageHeader, field24,
    getD_cons_zero, getD_cons_succ, zero_add, Nat.reduceAdd, ht, hlen, hsd, UInt32.ofNat_toNat,
    if_true] <;> rfl

end MediaKit.Rtmp
