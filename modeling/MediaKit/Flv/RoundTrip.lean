import Mathlib.Data.List.GetD
import MediaKit.Flv.Format
import MediaKit.Lib.Checked

/-!
# From frames to tags and back

Frames are written as the tags of a file, and the file is read. `roundTrips_iff` says when every
frame comes back: timestamps need more than the 24 bits that `write_tag` writes from 4 hours and 40
minutes on, and a frame of G.711 or MP3 with the configuration flag comes back without it. -/

namespace MediaKit.Flv

open MediaKit.Core Lib List Option FlvDemuxer

/-! ## One tag -/

theorem be24_mod (n : Nat) : be24 n = be24 (n % 2 ^ 24) := by
  have ho : ∀ k, k ≤ 16 → UInt8.ofNat (n >>> k) = UInt8.ofNat ((n % 2 ^ 24) >>> k) := by
    intro k hk
    rw [← UInt8.toNat_inj, Nat.shiftRight_eq_div_pow, Nat.shiftRight_eq_div_pow]
    rw [show 2 ^ 24 =
      2 ^ k * 2 ^ (24 - k) by rw [← Nat.pow_add]; congr 1; omega, Nat.mod_mul_right_div_self]
    exact (Nat.mod_mod_of_dvd _ (Nat.pow_dvd_pow 2 (by omega : 8 ≤ 24 - k))).symm
  rw [be24, be24, ho 16 (le_refl 16), ho 8 (by decide)]
  have hl := ho 0 (by decide)
  rw [Nat.shiftRight_zero, Nat.shiftRight_zero] at hl
  rw [hl]

/-- One round over a tag: eleven octets, the payload and the size of the tag. -/
theorem tagStep_of_tag {tagType s2 s1 s0 t2 t1 t0 t3 i2 i1 i0 : UInt8} {payload tail : Bytes}
    (hty : tagType ≠ 0) (hsz : ofBe [s2, s1, s0] = payload.length) (htl : 4 ≤ tail.length) :
    tagStep (tagType :: s2 :: s1 :: s0 :: t2 :: t1 :: t0 :: t3 :: i2 :: i1 :: i0 ::
      (payload ++ tail)) =
      match tagFrame tagType (UInt32.ofNat (ofBe [t3, t2, t1, t0])) payload with
      | some frame => .frame frame (tail.drop 4)
      | none => .skip (tail.drop 4) := by
  have hlen : (tagType :: s2 :: s1 :: s0 :: t2 :: t1 :: t0 :: t3 :: i2 :: i1 :: i0 ::
    (payload ++ tail)).length =
      11 + payload.length + tail.length := by
    simp only [length_cons, length_append]
    omega
  have hr : (tagType :: s2 :: s1 :: s0 :: t2 :: t1 :: t0 :: t3 :: i2 :: i1 :: i0 ::
    (payload ++ tail)).drop
      (11 + payload.length + 4) = tail.drop 4 := by
    rw [← drop_drop, ← drop_drop]
    show ((payload ++ tail).drop payload.length).drop 4 = tail.drop 4
    rw [drop_left]
  have hp : ((tagType :: s2 :: s1 :: s0 :: t2 :: t1 :: t0 :: t3 :: i2 :: i1 :: i0 ::
    (payload ++ tail)).drop
      11).take payload.length = payload := take_left
  generalize hb : tagType :: s2 :: s1 :: s0 :: t2 :: t1 :: t0 :: t3 :: i2 :: i1 :: i0 ::
    (payload ++ tail) = buffer at *
  have htp : buffer.getD 0 0 = tagType := by rw [← hb]; rfl
  have hsA : ofBe [buffer.getD 1 0, buffer.getD 2 0, buffer.getD 3 0] = payload.length := by
    rw [← hb]; exact hsz
  have htA : ofBe [buffer.getD 7 0, buffer.getD 4 0, buffer.getD 5 0, buffer.getD 6 0] =
      ofBe [t3, t2, t1, t0] := by
    rw [← hb]
    rfl
  rw [tagStep, if_neg (by omega)]
  dsimp only
  rewrite [if_neg (fun h => hty (htp.symm.trans h.1)), htp, hsA, htA, if_neg (by omega), hp, hr]
  rfl

/-- **One round over a tag** of the muxer: the timestamp comes back modulo 2²⁴. -/
theorem tagStep_tagBytes {tagType : UInt8} {timestamp : UInt32} {payload : Bytes} (rest : Bytes)
    (hty : tagType ≠ 0) (hsz : payload.length < 2 ^ 24) :
    tagStep (tagBytes tagType timestamp payload ++ rest) =
      match tagFrame tagType (UInt32.ofNat (timestamp.toNat % 2 ^ 24)) payload with
      | some frame => .frame frame rest
      | none => .skip rest := by
  have htm : ofBe (0 :: be24 (timestamp.toNat % 2 ^ 31)) = timestamp.toNat % 2 ^ 24 := by
    have hz : ∀ l : Bytes, ofBe (0 :: l) = ofBe l := fun _ => rfl
    rw [hz, be24_mod, ofBe_be24 (Nat.mod_lt _ (Nat.two_pow_pos 24))]
    omega
  have hl : ofBe (be24 payload.length) = payload.length := ofBe_be24 hsz
  have hb : tagBytes tagType timestamp payload ++ rest = tagType :: (be24 payload.length ++
      (be24 (timestamp.toNat % 2 ^ 31) ++
        (0 :: 0 :: 0 :: 0 :: (payload ++ (be32 (11 + payload.length) ++ rest))))) := by
    simp only [tagBytes, append_assoc, cons_append, nil_append]
  rw [be24] at htm hl
  rw [hb]
  have hst := @tagStep_of_tag tagType _ _ _ (UInt8.ofNat ((timestamp.toNat % 2 ^ 31) >>> 16))
    (UInt8.ofNat ((timestamp.toNat % 2 ^ 31) >>> 8)) (UInt8.ofNat (timestamp.toNat % 2 ^ 31)) 0 0 0
    0 payload
    (be32 (11 + payload.length) ++ rest) hty hl (by rw [length_append, length_be32]; omega)
  rw [htm] at hst
  exact hst

/-! ## The loop -/

/-- A round that takes some bytes, and maybe a frame with them. -/
def TagStep.took (frame : Option MediaFrame) (rest : Bytes) : TagStep :=
  frame.elim (.skip rest) (.frame · rest)

/-- **What a round takes** is some bytes at the front, whatever stands behind them. -/
theorem tagStep_cases (buffer : Bytes) :
    tagStep buffer = .stop ∨ ∃ frame n, 0 < n ∧ n ≤ buffer.length ∧
    ∀ t, tagStep (buffer ++ t) = .took frame ((buffer ++ t).drop n) := by
  by_cases hs : buffer.length < 15
  · exact .inl (if_pos hs)
  have hg : ∀ t, ∀ i < 15, (buffer ++ t).getD i 0 = buffer.getD i 0 := fun t i hi =>
    getD_append _ _ _ _ (by omega)
  have hl : ∀ t, ¬ (buffer ++ t).length < 15 := fun t => by
    rw [length_append]
    omega
  by_cases hz : buffer.getD 0 0 = 0 ∧ buffer.getD 1 0 ||| buffer.getD 2 0 ||| buffer.getD 3 0 = 0
  · refine .inr ⟨none, 4, Nat.succ_pos 3, by omega, fun t => ?_⟩
    simp (disch := decide) only [tagStep, hg, if_neg (hl t), if_pos hz]
    rfl
  by_cases hc : buffer.length < 11 + ofBe [buffer.getD 1 0, buffer.getD 2 0, buffer.getD 3 0] + 4
  · exact .inl ((if_neg hs).trans ((if_neg hz).trans (if_pos hc)))
  refine .inr ⟨tagFrame (buffer.getD 0 0)
    (UInt32.ofNat (ofBe [buffer.getD 7 0, buffer.getD 4 0, buffer.getD 5 0, buffer.getD 6 0]))
    ((buffer.drop 11).take (ofBe [buffer.getD 1 0, buffer.getD 2 0, buffer.getD 3 0])), _,
    Nat.succ_pos _, Nat.le_of_not_lt hc, fun t => ?_⟩
  have hf : ¬ (buffer ++ t).length < 11 + ofBe [buffer.getD 1 0, buffer.getD 2 0,
      buffer.getD 3 0] + 4 := by
    rw [length_append]
    omega
  simp (disch := decide) only [tagStep, hg, if_neg (hl t), if_neg hz, if_neg hf]
  rw [drop_append_of_le_length (by omega), take_append_of_le_length (by rw [length_drop]; omega)]
  split
  next h => rw [h]; rfl
  next h => rw [h]; rfl

theorem tagStep_skip_lt {buffer rest : Bytes} (h : tagStep buffer = .skip rest) :
    rest.length < buffer.length := by
  rcases tagStep_cases buffer with hst | ⟨frame, n, hn, hl, ht⟩
  · rw [hst] at h
    cases h
  · have hsl := ht []
    rw [append_nil, h] at hsl
    cases frame with
    | none =>
      cases hsl
      rw [length_drop]
      omega
    | some frame => cases hsl

theorem parseTagFrom_congr (n : Nat) :
    ∀ {m : Nat} {buffer : Bytes}, buffer.length ≤ n → buffer.length ≤ m →
    parseTagFrom n buffer = parseTagFrom m buffer := by
  have hnil : ∀ m, parseTagFrom m [] = (none, ⟨[]⟩) := fun m => by cases m <;> rfl
  induction n with
  | zero =>
    intro m buffer hn _
    rw [length_eq_zero_iff.mp (Nat.le_zero.mp hn), hnil, hnil]
  | succ n ih =>
    intro m buffer hn hm
    cases m with
    | zero => rw [length_eq_zero_iff.mp (Nat.le_zero.mp hm), hnil, hnil]
    | succ m =>
      rw [parseTagFrom, parseTagFrom]
      cases hs : tagStep buffer with
      | stop | frame => rfl
      | skip rest =>
        have hlt := tagStep_skip_lt hs
        exact ih (by omega) (by omega)

section

variable {buffer rest : Bytes} {frame : MediaFrame}

theorem parseTag_of_stop (h : tagStep buffer = .stop) : parseTag ⟨buffer⟩ = (none, ⟨buffer⟩) := by
  rw [parseTag, parseTagFrom_congr _ le_rfl (Nat.le_succ _), parseTagFrom, h]

theorem parseTag_of_frame (h : tagStep buffer = .frame frame rest) :
    parseTag ⟨buffer⟩ = (some frame, ⟨rest⟩) := by
  rw [parseTag, parseTagFrom_congr _ le_rfl (Nat.le_succ _), parseTagFrom, h]

theorem parseTag_of_skip (h : tagStep buffer = .skip rest) :
    parseTag ⟨buffer⟩ = parseTag ⟨rest⟩ := by
  have hlt := tagStep_skip_lt h
  rw [parseTag, parseTagFrom_congr _ le_rfl (Nat.le_succ _), parseTagFrom, h]
  exact parseTagFrom_congr _ (le_of_lt hlt) le_rfl

end

/-- `parse_tag` returns these frames and then nothing. -/
inductive Yields : FlvDemuxer → List MediaFrame → Prop where
  | done {d : FlvDemuxer} (h : d.parseTag.1 = none) : Yields d []
  | more {d d' : FlvDemuxer} {frame : MediaFrame} {frames : List MediaFrame}
    (h : d.parseTag = (some frame, d'))
      (rest : Yields d' frames) : Yields d (frame :: frames)

theorem Yields.unique {d : FlvDemuxer} {a b : List MediaFrame} (ha : Yields d a) (hb : Yields d b) :
    a = b := by
  induction ha generalizing b with
  | done h =>
    cases hb with
    | done => rfl
    | more h' =>
      rw [h'] at h
      cases h
  | more h _ ih =>
    cases hb with
    | done h' =>
      rw [h] at h'
      cases h'
    | more h' hr' =>
      obtain ⟨hf, rfl⟩ := Prod.mk.inj (h.symm.trans h')
      rw [some.inj hf, ih hr']

/-! ## Frames -/

/-- A frame that the muxer writes as a tag, with its payload. -/
structure Muxable (f : MediaFrame) (p : Bytes) : Prop where
  kind : f.frameType ≠ .metadata
  format : f.payloadFormat ≠ .flv ∧ f.payloadFormat ≠ .unknown
  payload : flvPayload f = .ok p
  size : p.length < 2 ^ 24
  timestamp : f.timestamp.toNat < 2 ^ 31

/-- The frame `g` is what `f` has become. -/
structure Returned (f g : MediaFrame) : Prop where
  frameType : g.frameType = f.frameType
  codec : g.codec = f.codec
  configFrame : g.configFrame = f.configFrame
  timestamp : g.timestamp = f.timestamp
  data : flvPayload f = .ok g.data
  dts : g.dts.toNat = f.timestamp.toNat
  pts : f.frameType = .video → f.configFrame = false → f.dts.toNat = f.timestamp.toNat →
    ((f.pts.toNat : Int) - f.dts.toNat).natAbs < 2 ^ 23 → g.pts = f.pts

/-- **A file comes back**: one frame for each tag, and then no more. -/
def RoundTrips (frames : List MediaFrame) : Prop :=
  ∃ tags out, frames.mapM writeTag = .ok tags ∧
    (new.feed (writeHeader ++ tags.flatten)).parseHeader.1.isSome ∧
    Yields (new.feed (writeHeader ++ tags.flatten)).parseHeader.2 out ∧ Forall₂ Returned frames out

/-- The codecs whose tags say whether they are configurations. -/
def TellsConfig (codec : CodecId) : Prop := codec = .h264 ∨ codec = .h265 ∨ codec = .aac

theorem flvPayload_cases {f : MediaFrame} {p : Bytes} (h : Muxable f p) :
    (f.frameType = .video ∧ ∃ id body, flvVideoCodec f.codec = some id ∧
      p = flvVideoHeader f id ++ body) ∨
      (f.frameType = .audio ∧ f.codec = .aac ∧ ∃ body,
        p = [0xAF, if f.configFrame then 0 else 1] ++ body) ∨
      (f.frameType = .audio ∧ ∃ byte, p = byte :: f.data ∧
        (f.codec = .g711a ∧ byte = 0x72 ∨ f.codec = .g711u ∧ byte = 0x82 ∨ f.codec = .mp3 ∧
          byte = 0x2F)) := by
  have hp := h.payload
  rw [flvPayload, if_neg (not_or.mpr ⟨h.kind, h.format.1⟩)] at hp
  cases hk : f.frameType with
  | metadata => exact absurd hk h.kind
  | video =>
    rw [hk] at hp
    dsimp only at hp
    cases hid : flvVideoCodec f.codec with
    | none =>
      rw [hid] at hp
      cases hp
    | some id =>
      rw [hid] at hp
      obtain ⟨body, -, ho⟩ := of_bind_ok hp
      exact .inl ⟨rfl, id, body, rfl, (Except.ok.inj ho).symm⟩
  | audio =>
    rw [hk] at hp
    dsimp only at hp
    refine .inr ?_
    cases hc : f.codec with
    | aac =>
      rw [hc] at hp
      obtain ⟨body, -, ho⟩ := of_bind_ok hp
      exact .inl ⟨rfl, rfl, body, (Except.ok.inj ho).symm⟩
    | g711a =>
      rw [hc] at hp
      exact .inr ⟨rfl, 0x72, (Except.ok.inj hp).symm, .inl ⟨rfl, rfl⟩⟩
    | g711u =>
      rw [hc] at hp
      exact .inr ⟨rfl, 0x82, (Except.ok.inj hp).symm, .inr (.inl ⟨rfl, rfl⟩)⟩
    | mp3 =>
      rw [hc] at hp
      exact .inr ⟨rfl, 0x2F, (Except.ok.inj hp).symm, .inr (.inr ⟨rfl, rfl⟩)⟩
    | h264 | h265 | opus | l16 | vp8 | vp9 | av1 | jpeg | mp2v | mp2a | unknown =>
      rw [hc] at hp
      cases hp

/-- The frame `g` that the demuxer makes of the tag of `f`, when it reads the timestamp `t`. -/
structure Demuxed (f : MediaFrame) (p : Bytes) (t : UInt32) (g : MediaFrame) : Prop where
  frameType : g.frameType = f.frameType
  codec : g.codec = f.codec
  timestamp : g.timestamp = t
  data : g.data = p
  dts : g.dts = t.toUInt64
  configFrame : g.configFrame = f.configFrame ↔ (f.configFrame = true → TellsConfig f.codec)
  pts : f.frameType = .video → f.configFrame = false →
    g.pts = tagPts t (compositionTime f.pts f.dts)

section

variable {f : MediaFrame} {p : Bytes}

theorem flvVideoHeader_eq (f : MediaFrame) (id : UInt8) : ∃ k a b c : UInt8, (k = 1 ∨ k = 2) ∧
    flvVideoHeader f id = [k <<< 4 ||| id, if f.configFrame then 0 else 1, a, b, c] ∧
    (f.configFrame = false → signedI24 a b c = compositionTime f.pts f.dts) := by
  rw [flvVideoHeader]
  cases f.configFrame with
  | true =>
    rw [Bool.or_true]
    exact ⟨1, _, _, _, .inl rfl, rfl, nofun⟩
  | false =>
    obtain ⟨a, b, c, hs, hb⟩ := signedI24_signed24 (compositionTime_bounds f.pts f.dts).1
      (compositionTime_bounds f.pts f.dts).2
    rw [if_neg Bool.false_ne_true, if_neg Bool.false_ne_true, hs, Bool.or_false]
    cases f.keyFrame with
    | true => exact ⟨1, a, b, c, .inl rfl, rfl, fun _ => hb⟩
    | false => exact ⟨2, a, b, c, .inr rfl, rfl, fun _ => hb⟩

theorem flvVideoCodec_cases {codec : CodecId} {id : UInt8} (h : flvVideoCodec codec = some id) :
    codec = .h264 ∧ id = 7 ∨ codec = .h265 ∧ id = 12 := by
  cases codec with
  | h264 => exact .inl ⟨rfl, (some.inj h).symm⟩
  | h265 => exact .inr ⟨rfl, (some.inj h).symm⟩
  | aac | g711a | g711u | mp3 | opus | l16 | vp8 | vp9 | av1 | jpeg | mp2v | mp2a | unknown =>
    cases h

/-- The low bits of the first octet are the codec, whatever the frame type above them. -/
theorem codec_of_header {codec : CodecId} {id k : UInt8} (h : flvVideoCodec codec = some id)
    (hk : k = 1 ∨ k = 2) : videoCodecOf ((k <<< 4 ||| id) &&& 0x0F) = codec := by
  rcases flvVideoCodec_cases h with ⟨rfl, rfl⟩ | ⟨rfl, rfl⟩
  · rcases hk with rfl | rfl <;> decide
  · rcases hk with rfl | rfl <;> decide

theorem videoTag_header {id : UInt8} (hid : flvVideoCodec f.codec = some id)
    (hkn : f.frameType = .video) (t : UInt32)
    (body : Bytes) : ∃ g, videoTag t (flvVideoHeader f id ++ body) = some g ∧
    Demuxed f (flvVideoHeader f id ++ body) t g := by
  obtain ⟨k, a, b, c, hk, hh, hb⟩ := flvVideoHeader_eq f id
  have ht : TellsConfig f.codec := by
    rcases flvVideoCodec_cases hid with ⟨hc, -⟩ | ⟨hc, -⟩
    · exact .inl hc
    · exact .inr (.inl hc)
  rw [hh]
  refine ⟨_, rfl, hkn.symm, codec_of_header hid hk, rfl, rfl, rfl, ?_, ?_⟩
  · refine iff_of_true ?_ fun _ => ht
    cases f.configFrame <;> rfl
  · intro _ hcn
    rw [← hb hcn]
    show tagPts t (if 5 ≤ ([k <<< 4 ||| id, if f.configFrame then 0 else 1, a, b, c] ++
      body).length ∧
      some ((if f.configFrame then 0 else 1) &&& 0x0F : UInt8) = some 1 then signedI24 a b c
      else 0) = _
    have hl : 5 ≤ ([k <<< 4 ||| id, if f.configFrame then 0 else 1, a, b, c] ++ body).length := by
      rw [length_append]
      exact Nat.le_add_right 5 _
    rw [if_pos ⟨hl, by rw [hcn]; rfl⟩]

theorem audioTag_cons (t : UInt32) (byte : UInt8) (l : Bytes) : audioTag t (byte :: l) =
    some ⟨1, .audio, audioCodecOf ((byte >>> 4) &&& 0x0F), t, t.toUInt64, t.toUInt64,
      byte :: l, .flv, false,
      decide (audioCodecOf ((byte >>> 4) &&& 0x0F) = .aac ∧ (byte :: l)[1]? = some 0)⟩ := rfl

theorem audioTag_payload (h : Muxable f p) (hk : f.frameType = .audio) (t : UInt32) :
    ∃ g, audioTag t p = some g ∧ Demuxed f p t g := by
  have hp : f.frameType = .video → ∀ q : Prop, q := by
    intro hv
    rw [hk] at hv
    cases hv
  rcases flvPayload_cases h with ⟨hv, -⟩ | ⟨-, hcd, body, rfl⟩ | ⟨-, byte, rfl, hcd⟩
  · exact hp hv _
  · have hac : audioCodecOf (((0xAF : UInt8) >>> 4) &&& 0x0F) = .aac := by decide
    refine ⟨_, audioTag_cons t _ _, hk.symm, hac.trans hcd.symm, rfl, rfl, rfl, ?_,
      fun hv => hp hv _⟩
    refine iff_of_true ?_ fun _ => .inr (.inr hcd)
    show decide (CodecId.aac = .aac ∧ some (if f.configFrame then 0 else 1 : UInt8) = some 0) =
      f.configFrame
    cases f.configFrame <;> decide
  · -- there is no octet for the flag: it is read as false
    have hr : audioCodecOf ((byte >>> 4) &&& 0x0F) = f.codec ∧ f.codec ≠ .h264 ∧ f.codec ≠ .h265 ∧
        f.codec ≠ .aac := by
      rcases hcd with ⟨hc, rfl⟩ | ⟨hc, rfl⟩ | ⟨hc, rfl⟩ <;> rw [hc] <;> decide
    obtain ⟨hco, ho⟩ := hr
    refine ⟨_, audioTag_cons t _ _, hk.symm, hco, rfl, rfl, rfl, ?_, fun hv => hp hv _⟩
    rw [hco, decide_eq_false fun hac => ho.2.2 hac.1]
    cases f.configFrame with
    | true =>
      refine iff_of_false nofun fun ht => ?_
      rcases ht rfl with hc | hc | hc
      · exact ho.1 hc
      · exact ho.2.1 hc
      · exact ho.2.2 hc
    | false => exact iff_of_true rfl nofun

/-- **The frame of a tag.** -/
theorem tagFrame_payload (h : Muxable f p) (t : UInt32) :
    tagTypeOf f.frameType ≠ 0 ∧ ∃ g, tagFrame (tagTypeOf f.frameType) t p = some g ∧
    Demuxed f p t g := by
  cases hk : f.frameType with
  | metadata => exact absurd hk h.kind
  | video =>
    rcases flvPayload_cases h with ⟨-, id, body, hid, rfl⟩ | ⟨ha, -⟩ | ⟨ha, -⟩
    · exact ⟨by decide, videoTag_header hid hk t body⟩
    · rw [hk] at ha
      cases ha
    · rw [hk] at ha
      cases ha
  | audio => exact ⟨by decide, audioTag_payload h hk t⟩

theorem Demuxed.returned_iff {g : MediaFrame} (h : Muxable f p)
    (hg : Demuxed f p (UInt32.ofNat (f.timestamp.toNat % 2 ^ 24)) g) :
    Returned f g ↔ f.timestamp.toNat < 2 ^ 24 ∧ (f.configFrame = true → TellsConfig f.codec) := by
  have htN : (UInt32.ofNat (f.timestamp.toNat % 2 ^ 24)).toNat = f.timestamp.toNat % 2 ^ 24 := by
    rw [UInt32.toNat_ofNat']
    omega
  constructor
  · intro hr
    refine ⟨?_, hg.configFrame.mp hr.configFrame⟩
    have htm := hg.timestamp.symm.trans hr.timestamp
    rw [← UInt32.toNat_inj, htN] at htm
    omega
  · rintro ⟨hlt, hcn⟩
    have htm : UInt32.ofNat (f.timestamp.toNat % 2 ^ 24) = f.timestamp := by
      rw [← UInt32.toNat_inj, htN]
      omega
    rw [htm] at hg
    refine ⟨hg.frameType, hg.codec, hg.configFrame.mpr hcn, hg.timestamp, ?_, ?_, ?_⟩
    · rw [hg.data]
      exact h.payload
    · rw [hg.dts, UInt32.toNat_toUInt64]
    · intro hv hno hd hcl
      rw [hg.pts hv hno, compositionTime_eq hcl, tagPts, ← UInt64.toNat_inj]
      have hp := f.pts.toNat_lt
      split
      · rw [UInt64.toNat_ofNat']
        omega
      · rw [UInt64.toNat_ofNat']
        omega

end

/-! ## A file -/

theorem parseHeader_writeHeader (tags : Bytes) :
    (new.feed (writeHeader ++ tags)).parseHeader = (some true, ⟨be32 0 ++ tags⟩) := by
  have hlen : ([] ++ (writeHeader ++ tags)).length = 13 + tags.length := by
    rw [nil_append, length_append]
    rfl
  rw [parseHeader, FlvDemuxer.feed, new]
  dsimp only
  rw [if_neg (by omega), if_neg (by rw [not_not]; rfl)]
  have hs : ofBe (take 4 (drop 5 ([] ++ (writeHeader ++ tags)))) = 9 := rfl
  have hf : getD ([] ++ (writeHeader ++ tags)) 4 0 = 0x05 := rfl
  rw [hs, if_neg (by omega), hf]
  rfl

theorem tagStep_zero {tags : Bytes} (h : 11 ≤ tags.length) :
    tagStep (be32 0 ++ tags) = .skip tags := by
  have hlen : (be32 0 ++ tags).length = 4 + tags.length := length_append
  have hz : (0 : UInt8) ||| 0 ||| 0 = 0 := by decide
  rw [tagStep, if_neg (by omega)]
  exact if_pos ⟨rfl, hz⟩

theorem tagStep_short {buffer : Bytes} (h : buffer.length < 15) : tagStep buffer = .stop := if_pos h

theorem writeTag_muxable {f : MediaFrame} {p : Bytes} (h : Muxable f p) :
    writeTag f = .ok (tagBytes (tagTypeOf f.frameType) f.timestamp p) := by
  rw [writeTag, if_neg h.kind, h.payload]
  rfl

/-- **Every list of tags**: one frame for each of them. -/
theorem yields_tags {frames : List MediaFrame} (h : ∀ f ∈ frames, ∃ p, Muxable f p) :
    ∃ tags out, frames.mapM writeTag = .ok tags ∧ Yields ⟨tags.flatten⟩ out ∧
      Forall₂ (fun f g => ∃ p, Muxable f p ∧ Demuxed f p (UInt32.ofNat (f.timestamp.toNat % 2 ^ 24))
        g) frames out ∧
      (frames ≠ [] → 11 ≤ tags.flatten.length) := by
  induction frames with
  | nil => exact ⟨[], [], rfl, .done rfl, .nil, fun hne => absurd rfl hne⟩
  | cons f frames ih =>
    obtain ⟨p, hp⟩ := h f mem_cons_self
    obtain ⟨tags, out, hm, hy, hal, -⟩ := ih fun g hg => h g (mem_cons_of_mem f hg)
    obtain ⟨ht, g, hf, hg⟩ := tagFrame_payload hp (UInt32.ofNat (f.timestamp.toNat % 2 ^ 24))
    have hs := @tagStep_tagBytes _ f.timestamp _ tags.flatten ht hp.size
    rw [hf] at hs
    refine ⟨tagBytes (tagTypeOf f.frameType) f.timestamp p :: tags, g :: out, ?_,
      ?_, .cons ⟨p, hp, hg⟩ hal, fun _ => ?_⟩
    · rw [mapM_cons, writeTag_muxable hp, ok_bind, hm]
      rfl
    · exact .more (parseTag_of_frame hs) hy
    · rw [flatten_cons, length_append, tagBytes]
      simp only [length_append, length_cons, length_be24, length_nil]
      omega

/-- **A file comes back** just if its timestamps fit into 24 bits and only codecs that can say so
are configurations. -/
theorem roundTrips_iff {frames : List MediaFrame} (h : ∀ f ∈ frames, ∃ p, Muxable f p) :
    RoundTrips frames ↔ ∀ f ∈ frames, f.timestamp.toNat < 2 ^ 24 ∧
    (f.configFrame = true → TellsConfig f.codec) := by
  obtain ⟨tags, out, hm, hy, hal, hl⟩ := yields_tags h
  have hh := parseHeader_writeHeader tags.flatten
  have hrd : Yields ⟨be32 0 ++ tags.flatten⟩ out := by
    cases frames with
    | nil =>
      cases hal
      obtain rfl := Except.ok.inj hm
      exact .done (by rw [parseTag_of_stop (tagStep_short (by decide))])
    | cons f frames =>
      have hs := parseTag_of_skip (tagStep_zero (hl (cons_ne_nil f frames)))
      cases hy with
      | done => cases hal
      | more hpr hrs => exact .more (hs.trans hpr) hrs
  -- the frames that come back are these, so it is a question for each frame
  have hi : RoundTrips frames ↔ Forall₂ Returned frames out := by
    constructor
    · rintro ⟨tags', out', hm', -, hy', hal'⟩
      obtain rfl := Except.ok.inj (hm.symm.trans hm')
      rw [hh] at hy'
      rwa [hrd.unique hy']
    · intro hrt
      refine ⟨tags, out, hm, ?_, ?_, hrt⟩
      · rw [hh]
        rfl
      · rw [hh]
        exact hrd
  rw [hi]
  clear hi hrd hy hm hl h
  induction hal with
  | nil => exact iff_of_true .nil fun f hf => absurd hf not_mem_nil
  | @cons f g frames out ho _ ih =>
    obtain ⟨p, hp, hg⟩ := ho
    rw [forall₂_cons, hg.returned_iff hp, forall_mem_cons]
    exact and_congr_right fun _ => ih

/-- A key frame with two units of Annex-B, 40 ms ahead of its decode time. -/
def annexBPicture (timestamp : UInt32) : MediaFrame :=
  ⟨0, .video, .h264, timestamp, timestamp.toUInt64 + 40, timestamp.toUInt64,
    [0, 0, 0, 1, 0x65, 1, 0, 0, 1, 0x41, 2], .annexB, true, false⟩

/-- An AAC configuration. -/
def aacConfig : MediaFrame :=
  ⟨1, .audio, .aac, 0, 0, 0, [0x12, 0x10], .aacAudioSpecificConfig, false, true⟩

theorem roundTrips_short : RoundTrips [aacConfig, annexBPicture 1000] := by
  refine (roundTrips_iff fun f hf => ?_).mpr fun f hf => ?_
  · simp only [mem_cons, not_mem_nil, or_false] at hf
    rcases hf with rfl | rfl
    · exact ⟨_, by decide, by decide, rfl, by decide, by decide⟩
    · exact ⟨_, by decide, by decide, rfl, by decide, by decide⟩
  · simp only [mem_cons, not_mem_nil, or_false] at hf
    rcases hf with rfl | rfl
    · exact ⟨by decide, fun _ => .inr (.inr rfl)⟩
    · exact ⟨by decide, fun hc => nomatch hc⟩

/-- A picture at four hours and 40 minutes comes back at the beginning. -/
theorem not_roundTrips_late : ¬ RoundTrips [annexBPicture 16777216] := by
  rintro ⟨tags, out, hmp, -, hy, hal⟩
  have hmx : ∀ f ∈ [annexBPicture 16777216], ∃ p, Muxable f p := by
    intro f hf
    rw [mem_singleton.mp hf]
    exact ⟨_, by decide, by decide, rfl, by decide, by decide⟩
  obtain ⟨tags', out', hmp', hy', hal', hln⟩ := yields_tags hmx
  obtain rfl := Except.ok.inj (hmp.symm.trans hmp')
  have hsk := parseTag_of_skip (tagStep_zero (hln (cons_ne_nil _ _)))
  rw [parseHeader_writeHeader] at hy
  cases hy' with
  | done => cases hal'
  | more hpr hr =>
    have hsm := hy.unique (.more (hsk.trans hpr) hr)
    rw [hsm] at hal
    obtain ⟨p, hp, hg⟩ := (forall₂_cons.mp hal').1
    have hlt := ((hg.returned_iff hp).mp (forall₂_cons.mp hal).1).1
    exact absurd hlt (by decide)

end MediaKit.Flv
