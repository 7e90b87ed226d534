import MediaKit.Core.Rtp
import MediaKit.Gb28181.RtpServer

/-!
# Elementary streams

The packets of `RtpPacketizer` at a receiver that was opened for H.264 or H.265. The fragments of
a NAL unit are collected in `fu_buf` (`handleH26x_h264`, `handleH26x_h265`): for H.265 only behind a
first fragment, for H.264 whatever was there before. -/

namespace MediaKit.Gb28181

open Lib MediaKit.Core List RtpPacketizer

variable {P T : Type} (demux : Demuxers P T) (r : RtpStreamReceiver)

/-! ## Packets of a track -/

/-- The receiver takes packets of this source. -/
def Accepts (x : UInt32) : Prop := ∀ expected ∈ r.expectedSsrc, expected = x

instance (x : UInt32) : Decidable (Accepts r x) := r.expectedSsrc.decidableForallMem

section Header

variable (pt : UInt8) (marker : Bool) (sequence : UInt16) (timestamp x : UInt32) (payload : Bytes)

theorem ssrc_rtpHeader : ssrc (rtpHeader pt marker sequence timestamp x ++ payload) = x := by
  show UInt32.ofNat (ofBe (be32 x.toNat)) = x
  rw [be32, ofBe_four _ (UInt32.toNat_lt x), UInt32.ofNat_toNat]

theorem timestamp_rtpHeader :
    UInt32.ofNat (ofBe (((rtpHeader pt marker sequence timestamp x ++ payload).drop 4).take 4)) =
      timestamp := by
  show UInt32.ofNat (ofBe (be32 timestamp.toNat)) = timestamp
  rw [be32, ofBe_four _ (UInt32.toNat_lt timestamp), UInt32.ofNat_toNat]

theorem payloadOf_rtpHeader : payloadOf (rtpHeader pt marker sequence timestamp x ++ payload) =
    payload := by
  have hf : (rtpHeader pt marker sequence timestamp x ++ payload).getD 0 0 = 0x80 := rfl
  rw [payloadOf, hf]
  rfl

theorem handleRtp_rtpHeader (hr : r.payload = .h264 ∨ r.payload = .h265) (hx : Accepts r x)
    (hne : payload ≠ []) (d : Depacketizer P T) :
    handleRtp demux r d (rtpHeader pt marker sequence timestamp x ++ payload) =
      Depacketizer.handleH26x r d payload timestamp r.payload := by
  have hlen : ¬ (rtpHeader pt marker sequence timestamp x ++ payload).length < 12 := by
    rw [length_append]
    exact Nat.not_lt.mpr (Nat.le_add_right 12 _)
  have hf : (rtpHeader pt marker sequence timestamp x ++ payload).getD 0 0 = 0x80 := rfl
  have han : r.expectedSsrc.any (fun expected => expected != x) = false := by
    cases hex : r.expectedSsrc with
    | none => rfl
    | some expected =>
      rw [hx expected hex]
      exact bne_self_eq_false x
  rw [handleRtp, if_neg hlen, hf, if_neg (by decide), ssrc_rtpHeader, han,
    if_neg Bool.false_ne_true, payloadOf_rtpHeader, timestamp_rtpHeader]
  have hem : payload.isEmpty = false := isEmpty_eq_false_iff.mpr hne
  dsimp only
  rw [hem]
  rcases hr with hr | hr
  · rw [hr]
    rfl
  · rw [hr]
    rfl

theorem handleRtp_foreign (hx : ¬ Accepts r x) (d : Depacketizer P T) :
    handleRtp demux r d (rtpHeader pt marker sequence timestamp x ++ payload) = (d, []) := by
  obtain ⟨expected, he, hne⟩ : ∃ expected ∈ r.expectedSsrc, expected ≠ x := by
    rw [Accepts] at hx
    exact by simpa using hx
  rw [handleRtp]
  split
  · rfl
  · split
    · rfl
    · rw [ssrc_rtpHeader, Option.mem_def.mp he,
        if_pos (by rw [Option.any_some]; exact bne_iff_ne.mpr hne)]

end Header

/-! ## Pieces of NAL units -/

/-- The receiver was opened for this codec. -/
def OpenedFor (codec : CodecId) : Prop :=
  codec = .h264 ∧ r.payload = .h264 ∨ codec = .h265 ∧ r.payload = .h265

/-- A piece that the packetizer makes and the receiver takes for what it is. -/
def Legible (codec : CodecId) : Piece UInt8 → Prop
  | .whole u => (formatOf codec).headLen ≤ u.length ∧ ¬ Structured codec u
  | .part head _ _ _ => head.length = (formatOf codec).headLen

/-- What the receiver holds between units. -/
def idle (codec : CodecId) : Option Bytes := if codec = .h265 then none else some []

/-- What the receiver holds. -/
def held (codec : CodecId) (d : Depacketizer P T) : Option Bytes :=
  if codec = .h265 ∧ d.fuBuf = [] then none else some d.fuBuf

theorem getD_held (codec : CodecId) (d : Depacketizer P T) : (held codec d).getD [] = d.fuBuf := by
  rw [held]
  split
  next h => exact h.2.symm
  next => rfl

namespace Depacketizer

/-- **A piece of an H.264 unit.** It is appended to whatever the buffer holds. -/
theorem handleH26x_h264 {piece : Piece UInt8} (h : Legible .h264 piece) (d : Depacketizer P T)
    (timestamp : UInt32) :
    handleH26x r d (h264Format.encode piece) timestamp .h264 =
      let out := collect (idle .h264) (held .h264 d) (piece.behind startCode)
      withVideos { d with fuBuf := out.1.getD [] } (rtpTsToMs r timestamp) out.2 := by
  cases piece with
  | whole u =>
    obtain ⟨hlen, hp⟩ := h
    obtain ⟨b, u, rfl⟩ := exists_cons_of_length_pos hlen
    have hsc : ¬ (b &&& 0x1F = 24 ∨ b &&& 0x1F = 28) := hp
    show handleH26x r d (b :: u) timestamp .h264 = _
    rw [handleH26x, isEmpty_cons, getD_cons_zero]
    rw [if_neg fun h28 => hsc (.inr h28), if_neg fun h24 => hsc (.inl h24)]
    rfl
  | part head start stop body =>
    obtain ⟨b, rfl⟩ := length_eq_one_iff.mp h
    obtain ⟨ht, hh, hlw⟩ := h264_head b
    obtain ⟨hsr, hst, -⟩ := fuHeader_bits start stop _ hlw
    have hfu := fuHeader_type start stop b
    show handleH26x r d (((b &&& 0xE0) ||| 28) :: fuHeader (b &&& 0x1F) start stop :: body)
      timestamp .h264 = _
    rw [handleH26x, isEmpty_cons, if_neg Bool.false_ne_true, if_neg nofun]
    simp only [getD_cons_zero, getD_cons_succ, ht, if_true, length_cons, hfu, hh]
    simp only [hsr, hst]
    cases start <;> cases stop <;> rfl

/-- **A piece of an H.265 unit.** Only a first fragment opens the buffer. -/
theorem handleH26x_h265 {piece : Piece UInt8} (h : Legible .h265 piece) (d : Depacketizer P T)
    (timestamp : UInt32) :
    handleH26x r d (h265Format.encode piece) timestamp .h265 =
      let out := collect (idle .h265) (held .h265 d) (piece.behind startCode)
      withVideos { d with videoCodec := .h265, fuBuf := out.1.getD [] } (rtpTsToMs r timestamp)
        out.2 := by
  cases piece with
  | whole u =>
    obtain ⟨hlen, hp⟩ := h
    match u, hlen, hp with
    | b :: b' :: u, _, hp =>
      have hsc : ¬ ((b >>> 1) &&& 0x3F = 48 ∨ (b >>> 1) &&& 0x3F = 49) := hp
      show handleH26x r d (b :: b' :: u) timestamp .h265 = _
      rw [handleH26x, isEmpty_cons, if_neg Bool.false_ne_true, if_pos rfl, handleH265,
        if_neg (by simp), getD_cons_zero]
      rw [if_neg fun h49 => hsc (.inr h49), if_neg fun h48 => hsc (.inl h48)]
      show _ = withVideos { d with videoCodec := .h265, fuBuf := (held .h265 d).getD [] } _
        [startCode ++ b :: b' :: u]
      rw [getD_held]
  | part head start stop body =>
    obtain ⟨b, b', rfl⟩ := length_eq_two.mp h
    obtain ⟨ht, hh, hlw⟩ := h265_head b
    obtain ⟨hsr, hst, hfu⟩ := fuHeader_bits start stop _ hlw
    show handleH26x r d (((b &&& 0x81) ||| ((49 : UInt8) <<< (1 : UInt8))) :: b' ::
      fuHeader ((b >>> 1) &&& 0x3F) start stop :: body) timestamp .h265 = _
    rw [handleH26x, isEmpty_cons, if_neg Bool.false_ne_true, handleH265]
    simp only [getD_cons_zero, getD_cons_succ, ht, if_true, length_cons, hfu, hh, drop_succ_cons,
      drop_zero]
    simp only [hsr, hst]
    rw [held]
    -- without a first fragment, an empty buffer stays empty
    cases d.fuBuf <;> cases start <;> cases stop <;> rfl

end Depacketizer

variable {r} {codec : CodecId}
  {piece : Piece UInt8} {p : RtpPacketizer} {nalu : Bytes} {nalus : List Bytes}

open Depacketizer

/-- The codec that a packet finds: for H.265 every packet resets it. -/
def entryCodec (codec videoCodec : CodecId) : CodecId := if codec = .h265 then .h265 else videoCodec

theorem encode_ne_nil (hc : IsH26x codec) (h : Legible codec piece) :
    (formatOf codec).encode piece ≠ [] := by
  cases piece with
  | whole u =>
    intro hnil
    have hlen := h.1
    rw [show u = [] from hnil] at hlen
    rcases hc with rfl | rfl
    · exact absurd hlen (by decide)
    · exact absurd hlen (by decide)
  | part head start stop body =>
    rcases hc with rfl | rfl
    · exact cons_ne_nil _ _
    · exact cons_ne_nil _ _

variable {timestamp : UInt32}

/-- **A packet of a track** at a receiver that was opened for its codec. -/
theorem handleRtp_carries (hr : OpenedFor r codec) (hx : Accepts r p.ssrc)
    (hp : Legible codec piece) {marker : Bool} {packet : Bytes}
    (h : p.Carries timestamp marker ((formatOf codec).encode piece) packet) (d : Depacketizer P T) :
    handleRtp demux r d packet =
      let out := collect (idle codec) (held codec d) (piece.behind startCode)
      withVideos { d with videoCodec := entryCodec codec d.videoCodec, fuBuf := out.1.getD [] }
        (rtpTsToMs r timestamp) out.2 := by
  obtain ⟨sequence, rfl⟩ := h
  rcases hr with ⟨rfl, hr⟩ | ⟨rfl, hr⟩
  · rw [handleRtp_rtpHeader demux r _ _ _ _ _ _ (.inl hr) hx (encode_ne_nil (.inl rfl) hp), hr]
    exact handleH26x_h264 r hp d timestamp
  · rw [handleRtp_rtpHeader demux r _ _ _ _ _ _ (.inr hr) hx (encode_ne_nil (.inr rfl) hp), hr]
    exact handleH26x_h265 r hp d timestamp

theorem held_collect (hc : IsH26x codec) (d d' : Depacketizer P T) (piece : Piece UInt8)
    (hd' : d'.fuBuf = (collect (idle codec) (held codec d) (piece.behind startCode)).1.getD []) :
    held codec d' = (collect (idle codec) (held codec d) (piece.behind startCode)).1 := by
  rw [held, hd']
  rcases hc with rfl | rfl
  · cases piece with
    | whole u => rfl
    | part head start stop body => cases start <;> cases stop <;> rfl
  · rw [held]
    cases piece with
    | whole u => cases d.fuBuf <;> rfl
    | part head start stop body => cases d.fuBuf <;> cases start <;> cases stop <;> rfl

/-! ## Without loss -/

/-- The frames of some NAL units with a timestamp, and the codec that they leave. -/
def publishedFrames (codec : CodecId) (ptsMs : UInt64) : CodecId → List Bytes → List MediaFrame
  | _, [] => []
  | videoCodec, u :: us =>
    let one := publishVideo (entryCodec codec videoCodec) ptsMs u
    one.2 ++ publishedFrames codec ptsMs one.1 us

theorem publishedFrames_entryCodec (ptsMs : UInt64) (videoCodec : CodecId) (us : List Bytes) :
    publishedFrames codec ptsMs (entryCodec codec videoCodec) us =
      publishedFrames codec ptsMs videoCodec us := by
  cases us with
  | nil => rfl
  | cons u us =>
    have he : entryCodec codec (entryCodec codec videoCodec) = entryCodec codec videoCodec := by
      rw [entryCodec, entryCodec]
      split <;> rfl
    rw [publishedFrames, publishedFrames, he]

theorem collect_out (buf : Option Bytes) (piece : Piece UInt8) (i : Option Bytes) :
    (collect i buf piece).2 = [] ∨ ∃ u, (collect i buf piece).2 = [u] := by
  cases piece with
  | whole u => exact .inr ⟨u, rfl⟩
  | part head start stop body =>
    rw [collect]
    cases (if start then some head else buf) <;> cases stop
    · exact .inl rfl
    · exact .inl rfl
    · exact .inl rfl
    · exact .inr ⟨_, rfl⟩

theorem frames_of_carries (hr : OpenedFor r codec) (hx : Accepts r p.ssrc)
    {pieces : List (Piece UInt8)} {packets : List Bytes}
    (h : Forall₂ (fun piece packet => Legible codec piece ∧
      ∃ marker, p.Carries timestamp marker ((formatOf codec).encode piece) packet) pieces packets) :
    ∀ d : Depacketizer P T, (handleAll demux r d packets).2 =
      publishedFrames codec (rtpTsToMs r timestamp) d.videoCodec
        (runLog (collect (idle codec)) (held codec d) (pieces.map (Piece.behind startCode))).2 := by
  have hcd : IsH26x codec := hr.imp And.left And.left
  induction h with
  | nil => exact fun _ => rfl
  | @cons piece packet pieces packets hpk _ ih =>
    intro d
    obtain ⟨hpc, marker, hcr⟩ := hpk
    have hs := handleRtp_carries demux hr hx hpc hcr d
    have hh := held_collect hcd d (handleRtp demux r d packet).1 piece (by rw [hs]; rfl)
    rw [handleAll, map_cons, runLog]
    dsimp only
    rw [ih, hh, hs]
    dsimp only
    rcases collect_out (held codec d) (piece.behind startCode) (idle codec) with ho | ⟨u, ho⟩
    · rw [ho, nil_append]
      exact publishedFrames_entryCodec _ _ _
    · rw [ho, singleton_append, publishedFrames]
      simp only [withVideos, publishVideos, append_nil]

/-- The first octet of a NAL unit makes the receiver take the unit for one of the other codec. -/
def Misread (codec : CodecId) (b : UInt8) : Prop :=
  if codec = .h265 then b &&& 0x1F = 7 ∨ b &&& 0x1F = 8 ∨ 1 ≤ b &&& 0x1F ∧ b &&& 0x1F ≤ 5
  else b = 0x40 ∨ b = 0xC0

instance (codec : CodecId) (b : UInt8) : Decidable (Misread codec b) := by
  unfold Misread
  infer_instance

/-- What `publish_video` makes of the codec. -/
def codecAfter (videoCodec : CodecId) (header : UInt8) : CodecId :=
  if header &&& 0x1F = 7 ∨ header &&& 0x1F = 8 ∨ 1 ≤ header &&& 0x1F ∧ header &&& 0x1F ≤
    5 then .h264
  else if (header >>> 1) &&& 0x3F = 32 ∨ (header >>> 1) &&& 0x3F = 33 ∨ (header >>> 1) &&& 0x3F =
    34 then .h265
  else videoCodec

theorem publishVideo_startCode (hne : nalu ≠ []) (videoCodec : CodecId) (ptsMs : UInt64) :
    ∃ f, publishVideo videoCodec ptsMs (startCode ++ nalu) =
      (codecAfter videoCodec (nalu.getD 0 0), [f]) ∧
      f.data = startCode ++ nalu ∧ f.codec = codecAfter videoCodec (nalu.getD 0 0) := by
  obtain ⟨b, rest, rfl⟩ := exists_cons_of_ne_nil hne
  exact ⟨_, rfl, rfl, rfl⟩

theorem codecAfter_eq_iff (hc : IsH26x codec) :
    ∀ b : UInt8, codecAfter codec b = codec ↔ ¬ Misread codec b := by
  refine forall_octet ?_
  rcases hc with rfl | rfl
  · decide +kernel
  · decide +kernel

theorem publishedFrames_iff (hc : IsH26x codec) (ptsMs : UInt64)
    (hne : ∀ n ∈ nalus, n ≠ []) : ∀ videoCodec : CodecId, entryCodec codec videoCodec = codec →
      ((publishedFrames codec ptsMs videoCodec (nalus.map (startCode ++ ·))).map
        (fun f => (f.data, f.codec)) =
          nalus.map (fun n => (startCode ++ n, codec)) ↔ ∀ n ∈ nalus,
            ¬ Misread codec (n.getD 0 0)) := by
  induction nalus with
  | nil => exact fun _ _ => iff_of_true rfl nofun
  | cons n ns ih =>
    intro videoCodec he
    obtain ⟨f, hf, hd, hfc⟩ := publishVideo_startCode (hne n mem_cons_self) codec ptsMs
    rw [map_cons, publishedFrames, he, hf]
    dsimp only
    rw [singleton_append, map_cons, map_cons, hd, hfc, List.cons.injEq, Prod.mk.injEq,
      forall_mem_cons, ← codecAfter_eq_iff hc, and_iff_right rfl]
    refine and_congr_right fun hk => ?_
    rw [hk]
    refine ih (fun m hm => hne m (mem_cons_of_mem n hm)) codec ?_
    rw [entryCodec]
    split
    next h => exact h.symm
    next => rfl

theorem legible_pieces {mtu : Nat} (h : piece ∈ ((formatOf codec).sending mtu nalu).pieces)
    (hp : nalu.length ≤ mtu → ¬ Structured codec nalu) : Legible codec piece := by
  obtain ⟨hlen, ⟨rfl, hf⟩ | ⟨start, stop, body, rfl⟩⟩ := mem_pieces_sending h
  · exact ⟨hlen, hp hf⟩
  · exact length_take_of_le hlen

theorem carries_of_answers (hpl : ∀ n ∈ nalus, ¬ Structured codec n)
    {groups : List (Bytes × List Bytes)}
    (h : Forall₂ (p.Answers (formatOf codec)) (callsOf timestamp nalus) groups) :
    Forall₂ (fun piece packet => Legible codec piece ∧
        ∃ marker, p.Carries timestamp marker ((formatOf codec).encode piece) packet)
      (nalus.flatMap fun n => ((formatOf codec).sending p.mtu n).pieces)
      (groups.flatMap Prod.snd) := by
  induction nalus generalizing groups with
  | nil =>
    cases h
    exact .nil
  | cons n ns ih =>
    obtain ⟨group, groups, hgr, hgp, rfl⟩ := forall₂_cons_left_iff.mp h
    refine rel_append ?_ (ih (fun m hm => hpl m (mem_cons_of_mem n hm)) hgp)
    refine (forall₂_and_left _ _).mpr ⟨fun piece hpc => ?_, hgr.2.2.imp fun _ _ h => ⟨_, h⟩⟩
    exact legible_pieces hpc fun _ => hpl n mem_cons_self

/-- The frame is packetized, and the receiver publishes its NAL units one by one, as units of the
codec. -/
def RoundTrips (r : RtpStreamReceiver) (p : RtpPacketizer) (codec : CodecId) (nalus : List Bytes)
    (frame : MediaFrame) : Prop :=
  ∃ p' packets, p.packetize frame = .ok (p', packets) ∧
    (handleAll demux r (.new demux) packets).2.map (fun f => (f.data, f.codec)) =
      nalus.map fun n => (startCode ++ n, codec)

/-- A NAL unit that stands behind a start code, and alone in a packet, without being taken for
anything else. -/
structure Plain (codec : CodecId) (nalu : Bytes) : Prop where
  length : 2 ≤ nalu.length
  clear : ¬ [0, 0, 1] <:+: nalu
  last : nalu.getLast? ≠ some 0
  single : ¬ Structured codec nalu

/-- **Frames over RTP.** The NAL units of a frame arrive as they are, whatever the size of the
packets; they are published as units of the codec exactly if the first octet of none of them is
misread. -/
theorem roundTrips_iff_codec (hr : OpenedFor r codec) {ssrc : UInt32} (hx : Accepts r ssrc)
    (pt : UInt8) (clock : UInt32) {mtu : Nat} (hmtu : 4 ≤ mtu) (sequence : UInt16)
    {nalus : List Bytes} (hnalus : ∀ n ∈ nalus, Plain codec n) {frame : MediaFrame}
    (hframe : IsAnnexB codec nalus frame) :
    RoundTrips demux r (((new ssrc pt clock).withPayloadMtu mtu).withSequence sequence) codec
      nalus frame ↔
      ∀ n ∈ nalus, ¬ Misread codec (n.getD 0 0) := by
  have hcd : codec = .h264 ∨ codec = .h265 := hr.imp And.left And.left
  have hne : ∀ n ∈ nalus, n ≠ [] := fun n hn hnil =>
    absurd (hnalus n hn).length (by rw [hnil]; decide)
  have hhd : (formatOf codec).headLen ≤ 2 := by rcases hcd with rfl | rfl <;> decide
  generalize hp : ((new ssrc pt clock).withPayloadMtu mtu).withSequence sequence = p
  have hsr : p.ssrc = ssrc := by rw [← hp]; rfl
  have hrm : (formatOf codec).headLen + 2 ≤ p.mtu := by
    have hcm : p.mtu = min (max mtu 1) (65535 - 12) := by rw [← hp]; rfl
    omega
  obtain ⟨⟨p', groups⟩, hcl⟩ := packetizeCalls_isSome
    (callsOf (p.timestamp frame.timestamp) nalus) hrm
  obtain ⟨-, han⟩ := packetizeCalls_spec hcl
  have hpc := packetize_annexB hcd hframe hne (fun n hn => (hnalus n hn).clear) p
  rw [hcl] at hpc
  have hfr := frames_of_carries demux hr (hsr ▸ hx)
    (carries_of_answers (fun n hn => (hnalus n hn).single) han) (.new demux)
  -- what comes out of the buffer are the NAL units
  have hu : (runLog (collect (idle codec)) (idle codec)
      ((nalus.flatMap fun n => ((formatOf codec).sending p.mtu n).pieces).map
        (Piece.behind startCode))).2 = nalus.map (startCode ++ ·) := by
    rw [map_flatMap]
    simp only [← pieces_behind]
    rw [← flatMap_map, runLog_collect_sendings]
    · rw [map_map]
      refine map_congr_left fun n _ => ?_
      rw [Function.comp_apply, unit_behind, unit_sending (.inr (.inr hrm))]
    · intro s hs
      obtain ⟨n, hn, rfl⟩ := mem_map.mp hs
      rw [isSent_behind]
      exact isSent_sending hrm (le_trans hhd (hnalus n hn).length)
  have hhl : held codec (new demux) = idle codec := by rcases hcd with rfl | rfl <;> rfl
  have he : entryCodec codec (new demux).videoCodec = codec := by rcases hcd with rfl | rfl <;> rfl
  rw [hhl, hu] at hfr
  rw [← publishedFrames_iff hcd (rtpTsToMs r (p.timestamp frame.timestamp)) hne _ he, ← hfr,
    RoundTrips, hpc]
  constructor
  · rintro ⟨p'', packets, hok, hmp⟩
    cases hok
    exact hmp
  · exact fun hmp => ⟨p', _, rfl, hmp⟩

/-- Demultiplexers of a receiver that needs none. -/
def noDemuxers : Demuxers Unit Unit :=
  ⟨(), fun _ _ => ((), []), fun _ => [], (), fun _ ts _ => ((), ts, [])⟩

/-- A frame of some NAL units. -/
def annexBFrame (codec : CodecId) (timestamp : UInt32) (nalus : List Bytes) : MediaFrame :=
  (MediaFrame.newVideo 0 codec timestamp timestamp.toUInt64 timestamp.toUInt64 (annexBOf nalus)
    false).withPayloadFormat .annexB

theorem roundTrips_fragments :
    RoundTrips noDemuxers ⟨.h264, some 7⟩
      (((new 7 96 90000).withPayloadMtu 4).withSequence 65535) .h264
      [[0x65, 1, 2, 3, 4, 5]] (annexBFrame .h264 40 [[0x65, 1, 2, 3, 4, 5]]) := by
  refine (roundTrips_iff_codec noDemuxers (.inl ⟨rfl, rfl⟩) (fun _ h => Option.some.inj h.symm) 96
    90000 (by decide) 65535 ?_ ⟨rfl, rfl, rfl, rfl, rfl⟩).mpr ?_
  · intro n hn
    rw [mem_singleton.mp hn]
    exact ⟨by decide, by decide, by decide, by decide⟩
  · decide

/-- A slice of an H.265 picture (type 1) is published as H.264. -/
theorem not_roundTrips_h265_slice :
    ¬ RoundTrips noDemuxers ⟨.h265, none⟩
      (((new 7 96 90000).withPayloadMtu 1400).withSequence 0) .h265
      [[0x02, 0x01, 0xAA]] (annexBFrame .h265 40 [[0x02, 0x01, 0xAA]]) := by
  rintro ⟨p', packets, hok, hm⟩
  cases hok
  exact absurd hm (by decide +kernel)

end MediaKit.Gb28181
