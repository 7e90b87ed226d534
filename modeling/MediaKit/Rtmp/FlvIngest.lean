import MediaKit.Flv.RoundTrip
import MediaKit.Rtmp.Session

/-!
# The same media by RTMP and by FLV

A media packet reaches the server as an RTMP message or as a tag of an FLV stream, and two
classifiers make a frame of it: `handle_message` and `parse_tag`. `ingestsAgree_iff` says for which
packets the frames are the same. Audio always agrees. Video does not when the packet has a
composition time, which only the FLV reader adds to the presentation time, and when it is a single
octet, which the RTMP session does not look at.
-/

namespace MediaKit.Rtmp

open MediaKit.Core Flv Lib List Option

/-- The two kinds of media packets. -/
inductive Media where
  | video | audio
  deriving DecidableEq

/-- The RTMP message with this packet. -/
def Media.message (kind : Media) (streamId timestamp : UInt32) (payload : Bytes) : RtmpMessage :=
  match kind with
  | .video => .video streamId timestamp payload
  | .audio => .audio streamId timestamp payload

def Media.tagType : Media → UInt8
  | .video => 0x09
  | .audio => 0x08

/-- The FLV tag with this packet; the high octet of the timestamp comes last. -/
def Media.tag (kind : Media) (timestamp : UInt32) (payload : Bytes) : Bytes :=
  kind.tagType :: (be24 payload.length ++ (be24 (timestamp.toNat % 2 ^ 24) ++
    (UInt8.ofNat (timestamp.toNat >>> 24) :: 0 :: 0 :: 0 ::
      (payload ++ be32 (11 + payload.length)))))

/-- The first octet of a packet of one of the codecs. -/
def Media.Known (kind : Media) (first : UInt8) : Prop :=
  match kind with
  | .video => first &&& 0x0F = 7 ∨ first &&& 0x0F = 12
  | .audio => (first >>> 4) &&& 0x0F ∈ ([10, 2, 7, 8] : List UInt8)

/-- The frames that reach a source. -/
def published (effects : List SessionEffect) : List MediaFrame :=
  effects.filterMap fun
    | .publishAndCache _ frame => some frame
    | _ => none

/-- The same frame, as far as the two ways can agree. -/
structure Agree (a b : MediaFrame) : Prop where
  frameType : a.frameType = b.frameType
  codec : a.codec = b.codec
  configFrame : a.configFrame = b.configFrame
  pts : a.pts = b.pts
  dts : a.dts = b.dts
  timestamp : a.timestamp = b.timestamp
  data : a.data = b.data
  keyFrame : a.configFrame = false → a.keyFrame = b.keyFrame

/-- **Both ways make the same frame** of a packet, whatever follows the tag. -/
def IngestsAgree (env : SessionEnv) (s : RtmpSession) (kind : Media) (streamId timestamp : UInt32)
    (payload : Bytes) : Prop :=
  ∀ rest, ∃ a b, published (s.handleMessage env (kind.message streamId timestamp payload)).2 = [a] ∧
    (FlvDemuxer.parseTag ⟨kind.tag timestamp payload ++ rest⟩).1 = some b ∧ Agree a b

/-- Video packets that both ways read alike. -/
structure ReadAlike (timestamp : UInt32) (payload : Bytes) : Prop where
  /-- A single octet is a picture of H.264 that is no key frame. -/
  single : payload.length = 1 → payload.getD 0 0 &&& 0x0F = 7 ∧
    (payload.getD 0 0 >>> 4) &&& 0x0F ≠ 1
  /-- The packet is not an enhanced one. -/
  legacy : 5 ≤ payload.length → payload.getD 0 0 &&& 0x80 = 0
  /-- The composition time is zero, or the presentation time would be before zero. -/
  composition : 5 ≤ payload.length → payload.getD 1 0 &&& 0x0F = 1 →
    payload.getD 2 0 = 0 ∧ payload.getD 3 0 = 0 ∧ payload.getD 4 0 = 0 ∨ 0x80 ≤ payload.getD 2 0 ∧
    timestamp = 0

/-! ## Times -/

section

variable {timestamp : UInt32} {a b c : UInt8}

theorem ofBe_triple (a b c : UInt8) : ofBe [a, b, c] =
    a.toNat * 65536 + b.toNat * 256 + c.toNat := by
  show ((0 * 256 + a.toNat) * 256 + b.toNat) * 256 + c.toNat = _
  omega

theorem signedI24_eq_zero_iff : signedI24 a b c = 0 ↔ a = 0 ∧ b = 0 ∧ c = 0 := by
  have ha := a.toNat_lt
  have hb := b.toNat_lt
  have hc := c.toNat_lt
  rw [signedI24, ofBe_triple, ← UInt8.toNat_inj, ← UInt8.toNat_inj, ← UInt8.toNat_inj]
  show _ ↔ a.toNat = 0 ∧ b.toNat = 0 ∧ c.toNat = 0
  split <;> omega

theorem signedI24_neg_iff : signedI24 a b c < 0 ↔ 0x80 ≤ a := by
  have ha := a.toNat_lt
  have hb := b.toNat_lt
  have hc := c.toNat_lt
  rw [signedI24, ofBe_triple]
  show _ ↔ 128 ≤ a.toNat
  split <;> omega

theorem tagPts_eq_iff {n : Int} (hl : -(2 ^ 23) ≤ n) (hh : n < 2 ^ 23) :
    timestamp.toUInt64 = tagPts timestamp n ↔ n = 0 ∨ n < 0 ∧ timestamp = 0 := by
  have ht := timestamp.toNat_lt
  rw [← UInt64.toNat_inj, UInt32.toNat_toUInt64, ← UInt32.toNat_inj, tagPts]
  show _ ↔ n = 0 ∨ n < 0 ∧ timestamp.toNat = 0
  split
  · rw [UInt64.toNat_ofNat']
    omega
  · rw [UInt64.toNat_ofNat']
    omega

theorem signedI24_bounds (a b c : UInt8) :
    -(2 ^ 23) ≤ signedI24 a b c ∧ signedI24 a b c < 2 ^ 23 := by
  have ha := a.toNat_lt
  have hb := b.toNat_lt
  have hc := c.toNat_lt
  rw [signedI24, ofBe_triple]
  split <;> omega

end

/-! ## The tag -/

theorem parseTag_tag {kind : Media} {timestamp : UInt32} {payload : Bytes} {frame : MediaFrame}
    (rest : Bytes)
    (hsz : payload.length < 2 ^ 24) (hf : tagFrame kind.tagType timestamp payload = some frame) :
    (FlvDemuxer.parseTag ⟨kind.tag timestamp payload ++ rest⟩).1 = some frame := by
  have hln : ofBe (be24 payload.length) = payload.length := ofBe_be24 hsz
  have htm : ofBe [UInt8.ofNat (timestamp.toNat >>> 24),
    UInt8.ofNat ((timestamp.toNat % 2 ^ 24) >>> 16),
      UInt8.ofNat ((timestamp.toNat % 2 ^ 24) >>> 8), UInt8.ofNat (timestamp.toNat % 2 ^ 24)] =
        timestamp.toNat := by
    have hlw := be24_mod timestamp.toNat
    rw [be24, be24] at hlw
    rw [← hlw]
    exact ofBe_four timestamp.toNat timestamp.toNat_lt
  have hb : kind.tag timestamp payload ++ rest = kind.tagType :: (be24 payload.length ++
      (be24 (timestamp.toNat % 2 ^ 24) ++ (UInt8.ofNat (timestamp.toNat >>> 24) :: 0 :: 0 :: 0 ::
        (payload ++ (be32 (11 + payload.length) ++ rest))))) := by
    simp only [Media.tag, append_assoc, cons_append]
  have hty : kind.tagType ≠ 0 := by
    cases kind <;> decide
  have hst := @tagStep_of_tag kind.tagType _ _ _ (UInt8.ofNat ((timestamp.toNat % 2 ^ 24) >>> 16))
    (UInt8.ofNat ((timestamp.toNat % 2 ^ 24) >>> 8)) (UInt8.ofNat (timestamp.toNat % 2 ^ 24))
    (UInt8.ofNat (timestamp.toNat >>> 24)) 0 0 0 payload (be32 (11 + payload.length) ++
      rest) hty hln
    (by rw [length_append, length_be32]; omega)
  rw [htm, UInt32.ofNat_toNat, hf] at hst
  rw [hb]
  exact congrArg Prod.fst (parseTag_of_frame hst)

/-! ## Audio -/

section

variable {env : SessionEnv} {s : RtmpSession} {source : SourceHandle} {streamId timestamp : UInt32}
  {first second : UInt8} {l : Bytes}

theorem published_append (xs ys : List SessionEffect) : published (xs ++ ys) = published xs ++
    published ys := filterMap_append

theorem published_track (p : Prop) [Decidable p] (source : SourceHandle) (track : TrackInfo) :
    published (if p then [.pushTrack source track] else []) = [] := by
  split <;> rfl

theorem parseAudioRtmpPacket_eq (h : Media.audio.Known first) (l : Bytes) :
    parseAudioRtmpPacket (first :: l) = audioCodecOf ((first >>> 4) &&& 0x0F) := by
  have hfr : (first >>> 4) &&& 0x0F = 10 ∨ (first >>> 4) &&& 0x0F = 2 ∨ (first >>> 4) &&& 0x0F = 7 ∨
      (first >>> 4) &&& 0x0F = 8 := by
    have hmem : (first >>> 4) &&& 0x0F ∈ ([10, 2, 7, 8] : List UInt8) := h
    simpa only [mem_cons, not_mem_nil, or_false] using hmem
  rw [parseAudioRtmpPacket]
  rcases hfr with hf | hf | hf | hf <;> rw [hf] <;> decide

theorem audioCodecOf_eq_aac_iff {n : UInt8} : audioCodecOf n = .aac ↔ n = 10 := by
  rw [audioCodecOf]
  constructor
  · intro h
    by_contra hne
    rw [if_neg hne] at h
    split at h
    · cases h
    · split at h
      · cases h
      · split at h <;> cases h
  · exact fun h => if_pos h

theorem handleAudio_agrees {first : UInt8} {l : Bytes} (hp : s.isPublisher = true)
    (hsr : s.source = some source)
    (hk : Media.audio.Known first) : ∃ a b,
      published (s.handleAudio env timestamp (first :: l)) = [a] ∧
      audioTag timestamp (first :: l) = some b ∧ Agree a b := by
  rw [RtmpSession.handleAudio, if_pos hp, hsr]
  rw [published_append, published_track]
  refine ⟨_, _, rfl, audioTag_cons timestamp first l, rfl, parseAudioRtmpPacket_eq hk l, ?_, rfl,
    rfl, rfl, rfl, fun _ => rfl⟩
  refine decide_eq_decide.mpr ?_
  rw [audioCodecOf_eq_aac_iff]
  cases l with
  | nil => exact iff_of_false (fun h => absurd h.1 (lt_irrefl 1)) fun h => nomatch h.2
  | cons second l =>
    constructor
    · rintro ⟨-, hf, hsc⟩
      exact ⟨hf, congrArg some hsc⟩
    · rintro ⟨hf, hsc⟩
      refine ⟨?_, hf, some.inj hsc⟩
      rw [length_cons, length_cons]
      omega

/-! ## Video -/

/-- What the session makes of a legacy packet of at least two octets. -/
theorem parseVideoRtmpPacket_legacy (hk : Media.video.Known first)
    (hlg : 5 ≤ (first :: second :: l).length → first &&& 0x80 = 0) :
    normalizeEnhancedVideo (first :: second :: l) = some (first :: second :: l) ∧
      parseVideoRtmpPacket (first :: second :: l) = (videoCodecOf (first &&& 0x0F),
        decide ((first >>> 4) &&& 0x0F = 1) && !decide (second &&& 0x0F = 0),
          decide (second &&& 0x0F = 0)) := by
  constructor
  · refine if_pos ?_
    by_cases hln : 5 ≤ (first :: second :: l).length
    · exact .inr (hlg hln)
    · exact .inl (Nat.lt_of_not_le hln)
  · have hno : ¬ (first &&& 0x80 ≠ 0 ∧ 5 ≤ (first :: second :: l).length) := fun h => h.1 (hlg h.2)
    have hlen : ¬ (first :: second :: l).length < 2 := by
      rw [length_cons, length_cons]
      omega
    have hc : decide ((first &&& 0x0F = 7 ∨ first &&& 0x0F = 12) ∧ second &&& 0x0F = 0) =
        decide (second &&& 0x0F = 0) :=
      decide_eq_decide.mpr (and_iff_right hk)
    have hf : (first :: second :: l).getD 0 0 = first := rfl
    have hs : (first :: second :: l).getD 1 0 = second := rfl
    rw [parseVideoRtmpPacket, if_neg hlen]
    simp only [hf, hs]
    rw [if_neg hno, hc, videoCodecOf]
    rcases hk with h7 | h12
    · rw [if_pos h7, if_pos h7]
    · have h7 : ¬ (first &&& 0x0F = 7) := by
        rw [h12]
        decide
      rw [if_neg h7, if_pos h12, if_neg h7, if_pos h12]

/-- An enhanced packet with the codec id of a legacy one has a packet type that is dropped. -/
theorem normalizeEnhancedVideo_none {payload : Bytes} (hk : Media.video.Known (payload.getD 0 0))
    (hl : 5 ≤ payload.length) (hen : ¬ payload.getD 0 0 &&& 0x80 = 0) :
    normalizeEnhancedVideo payload = none := by
  have hno : ¬ (payload.length < 5 ∨ payload.getD 0 0 &&& 0x80 = 0) :=
    not_or.mpr ⟨Nat.not_lt.mpr hl, hen⟩
  have ht : ∀ n : UInt8, n = 0 ∨ n = 1 ∨ n = 3 → ¬ (payload.getD 0 0 &&& 0x0F = n) := by
    intro n hn heq
    have hk' : n = 7 ∨ n = 12 := by
      rw [← heq]
      exact hk
    rcases hn with rfl | rfl | rfl <;> exact absurd hk' (by decide)
  rw [normalizeEnhancedVideo]
  dsimp only
  rw [if_neg hno]
  split
  · rfl
  · rw [if_neg (ht 0 (.inl rfl)), if_neg (ht 1 (.inr (.inl rfl))), if_neg (ht 3 (.inr (.inr rfl)))]

/-- The composition time that the FLV reader adds. -/
def compositionOf (payload : Bytes) : Int :=
  if 5 ≤ payload.length ∧ payload[1]?.map (fun (value : UInt8) => value &&& 0x0F) = some 1 then
    signedI24 (payload.getD 2 0) (payload.getD 3 0) (payload.getD 4 0)
  else 0

theorem videoTag_cons (t : UInt32) (first : UInt8) (l : Bytes) : videoTag t (first :: l) =
    some ⟨0, .video, videoCodecOf (first &&& 0x0F), t, tagPts t (compositionOf (first :: l)),
      t.toUInt64, first :: l, .flv,
      decide ((first >>> 4) &&& 0x0F = 1),
        decide ((first :: l)[1]?.map (fun (value : UInt8) => value &&& 0x0F) = some 0)⟩ := rfl

theorem tagPts_compositionOf_iff : timestamp.toUInt64 =
    tagPts timestamp (compositionOf (first :: second :: l)) ↔
      (5 ≤ (first :: second :: l).length → second &&& 0x0F = 1 →
        (first :: second :: l).getD 2 0 = 0 ∧ (first :: second :: l).getD 3 0 = 0 ∧
        (first :: second :: l).getD 4 0 = 0 ∨
          0x80 ≤ (first :: second :: l).getD 2 0 ∧ timestamp = 0) := by
  rw [compositionOf]
  by_cases hc : 5 ≤ (first :: second :: l).length ∧ second &&& 0x0F = 1
  · have hpos : 5 ≤ (first :: second :: l).length ∧
        (first :: second :: l)[1]?.map (fun (value : UInt8) => value &&& 0x0F) = some 1 :=
        ⟨hc.1, congrArg some hc.2⟩
    rw [if_pos hpos, tagPts_eq_iff (signedI24_bounds _ _ _).1 (signedI24_bounds _ _ _).2,
      signedI24_eq_zero_iff, signedI24_neg_iff]
    exact ⟨fun h _ _ => h, fun h => h hc.1 hc.2⟩
  · have hn : ¬ (5 ≤ (first :: second :: l).length ∧
        (first :: second :: l)[1]?.map (fun (value : UInt8) => value &&& 0x0F) = some 1) :=
      fun h => hc ⟨h.1, some.inj h.2⟩
    rw [if_neg hn]
    refine iff_of_true ?_ fun hl ho => absurd ⟨hl, ho⟩ hc
    exact (tagPts_eq_iff (by decide) (by decide)).mpr (.inl rfl)

theorem handleVideo_single (hpl : s.isPublisher = true) (hs : s.source = some source) :
    (∃ a b, published (s.handleVideo env timestamp [first]) = [a] ∧ videoTag timestamp [first] =
      some b ∧ Agree a b) ↔
      videoCodecOf (first &&& 0x0F) = .h264 ∧ (first >>> 4) &&& 0x0F ≠ 1 := by
  have hpb : published (s.handleVideo env timestamp [first]) =
      [⟨0, .video, .h264, timestamp, timestamp.toUInt64, timestamp.toUInt64, [first], .flv, false,
        false⟩] := by
    rw [RtmpSession.handleVideo, if_pos hpl, hs]
    rfl
  have hpt : timestamp.toUInt64 = tagPts timestamp (compositionOf [first]) := by
    have hz : compositionOf [first] = 0 := rfl
    rw [hz]
    exact (tagPts_eq_iff (by decide) (by decide)).mpr (.inl rfl)
  rw [hpb, videoTag_cons]
  constructor
  · rintro ⟨a, b, ha, hb, hag⟩
    obtain ⟨rfl, -⟩ := List.cons.inj ha
    obtain rfl := some.inj hb
    exact ⟨hag.codec.symm, of_decide_eq_false (hag.keyFrame rfl).symm⟩
  · rintro ⟨hc, hk⟩
    exact ⟨_, _, rfl, rfl, rfl, hc.symm, rfl, hpt, rfl, rfl, rfl,
      fun _ => (decide_eq_false hk).symm⟩

theorem handleVideo_legacy (hpl : s.isPublisher = true) (hs : s.source = some source)
    (hk : Media.video.Known first) (hl : 5 ≤ (first :: second :: l).length → first &&& 0x80 = 0) :
    (∃ a b, published (s.handleVideo env timestamp (first :: second :: l)) = [a] ∧
      videoTag timestamp (first :: second :: l) = some b ∧ Agree a b) ↔
      timestamp.toUInt64 = tagPts timestamp (compositionOf (first :: second :: l)) := by
  obtain ⟨hnr, hpr⟩ := parseVideoRtmpPacket_legacy hk hl
  have hc : decide (second &&& 0x0F = 0) =
      decide ((first :: second :: l)[1]?.map (fun (value : UInt8) => value &&& 0x0F) = some 0) :=
    decide_eq_decide.mpr ⟨fun h => congrArg some h, fun h => some.inj h⟩
  have hpb : published (s.handleVideo env timestamp (first :: second :: l)) =
      [⟨0, .video, videoCodecOf (first &&& 0x0F), timestamp, timestamp.toUInt64, timestamp.toUInt64,
        first :: second :: l,
        .flv, decide ((first >>> 4) &&& 0x0F = 1) && !decide (second &&& 0x0F = 0),
        decide (second &&& 0x0F = 0)⟩] := by
    rw [RtmpSession.handleVideo, if_pos hpl, hs, hnr]
    dsimp only
    rw [hpr]
    dsimp only
    rw [published_append, published_track]
    rfl
  rw [hpb, videoTag_cons]
  constructor
  · rintro ⟨a, b, ha, hb, hag⟩
    obtain ⟨rfl, -⟩ := List.cons.inj ha
    obtain rfl := some.inj hb
    exact hag.pts
  · intro hpt
    refine ⟨_, _, rfl, rfl, rfl, rfl, hc, hpt, rfl, rfl, rfl, fun hno => ?_⟩
    -- a frame that is no configuration keeps the flag of its first octet
    have hno' : decide (second &&& 0x0F = 0) = false := hno
    show (decide ((first >>> 4) &&& 0x0F = 1) && !decide (second &&& 0x0F = 0)) =
      decide ((first >>> 4) &&& 0x0F = 1)
    rw [hno', Bool.not_false, Bool.and_true]

/-- **Video packets.** -/
theorem handleVideo_agrees_iff {first : UInt8} {l : Bytes} (hp : s.isPublisher = true)
    (hsr : s.source = some source) (hk : Media.video.Known first) :
    (∃ a b, published (s.handleVideo env timestamp (first :: l)) = [a] ∧
      videoTag timestamp (first :: l) = some b ∧ Agree a b) ↔
      ReadAlike timestamp (first :: l) := by
  cases l with
  | nil =>
    rw [handleVideo_single hp hsr]
    have hc : videoCodecOf (first &&& 0x0F) = .h264 ↔ first &&& 0x0F = 7 := by
      rcases hk with h | h <;> rw [h] <;> decide
    have hsh : ¬ 5 ≤ [first].length := by
      rw [length_singleton]
      omega
    rw [hc]
    exact ⟨fun h => ⟨fun _ => h, fun hln => absurd hln hsh, fun hln => absurd hln hsh⟩,
      fun h => h.single rfl⟩
  | cons second l =>
    have hsn : ¬ (first :: second :: l).length = 1 := by
      rw [length_cons, length_cons]
      omega
    by_cases hlg : 5 ≤ (first :: second :: l).length → first &&& 0x80 = 0
    · rw [handleVideo_legacy hp hsr hk hlg, tagPts_compositionOf_iff]
      exact ⟨fun h => ⟨fun ho => absurd ho hsn, hlg, h⟩, fun h => h.composition⟩
    · obtain ⟨hln, he⟩ := Classical.not_imp.mp hlg
      refine iff_of_false ?_ fun h => hlg h.legacy
      rintro ⟨a, b, ha, -⟩
      rw [RtmpSession.handleVideo, if_pos hp, hsr,
        @normalizeEnhancedVideo_none (first :: second :: l) hk hln he] at ha
      cases ha

/-! ## Both -/

theorem ingestsAgree_video_iff {first : UInt8} {l : Bytes} (hp : s.isPublisher = true)
    (hsr : s.source = some source) (hk : Media.video.Known first)
    (hsz : (first :: l).length < 2 ^ 24) :
    IngestsAgree env s .video streamId timestamp (first :: l) ↔
    ReadAlike timestamp (first :: l) := by
  have hi := @handleVideo_agrees_iff env s source timestamp first l hp hsr hk
  have ht : ∀ b, videoTag timestamp (first :: l) = some b → ∀ rest,
      (FlvDemuxer.parseTag ⟨Media.video.tag timestamp (first :: l) ++ rest⟩).1 = some b :=
    fun b hb rest => parseTag_tag rest hsz hb
  constructor
  · intro h
    obtain ⟨a, b, ha, hb, hag⟩ := h []
    refine hi.mp ⟨a, b, ha, ?_, hag⟩
    rw [ht _ (videoTag_cons timestamp first l)] at hb
    rw [videoTag_cons, hb]
  · intro h rest
    obtain ⟨a, b, ha, hb, hag⟩ := hi.mpr h
    exact ⟨a, b, ha, ht b hb rest, hag⟩

/-- **Both ways agree** on all audio, and on video just if the packet reads alike. -/
theorem ingestsAgree_iff {kind : Media} {first : UInt8} {l : Bytes}
    (hpublisher : s.isPublisher = true) (hsource : s.source = some source)
    (hknown : kind.Known first) (hsize : (first :: l).length < 2 ^ 24) :
    IngestsAgree env s kind streamId timestamp (first :: l) ↔
    (kind = .video → ReadAlike timestamp (first :: l)) := by
  cases kind with
  | video =>
    rw [ingestsAgree_video_iff hpublisher hsource hknown hsize]
    exact ⟨fun h _ => h, fun h => h rfl⟩
  | audio =>
    refine iff_of_true (fun rest => ?_) nofun
    obtain ⟨a, b, ha, hb, hag⟩ :=
      @handleAudio_agrees env s source timestamp first l hpublisher hsource hknown
    exact ⟨a, b, ha, parseTag_tag rest hsize hb, hag⟩

end

/-! ## Two packets -/

/-- Surroundings that say yes to everything. -/
def openEnv : SessionEnv :=
  ⟨fun _ _ _ => none, fun _ _ _ => none, fun _ _ _ _ => true, fun _ _ => 0, fun _ _ => none,
    fun _ => [], true⟩

/-- A session that publishes to the source 0. -/
def publishing : RtmpSession := ⟨some 0, [], [], true⟩

theorem ingestsAgree_picture : IngestsAgree openEnv publishing .video 1 1000
    [0x17, 1, 0, 0, 0, 0, 0, 0, 1, 0x65] := by
  refine (@ingestsAgree_iff openEnv publishing 0 1 1000 .video 0x17 _ rfl rfl (.inl (by decide))
    (by decide)).mpr fun _ => ?_
  exact ⟨nofun, fun _ => by decide, fun _ _ => .inl (by decide)⟩

/-- A composition time of 40 ms: the FLV reader presents the picture at 1040 ms, the RTMP session at
1000 ms. -/
theorem not_ingestsAgree_composition :
    ¬ IngestsAgree openEnv publishing .video 1 1000 [0x27, 1, 0, 0, 40, 0, 0, 0, 1, 0x41] := by
  intro h
  have hr := (@ingestsAgree_video_iff openEnv publishing 0 1 1000 0x27 [1, 0, 0, 40, 0, 0, 0, 1,
    0x41] rfl rfl (.inl (by decide)) (by decide)).mp h
  exact absurd (hr.composition (by decide) (by decide)) (by decide)

end MediaKit.Rtmp
