import MediaKit.Core.GopCache
import MediaKit.Flv.Format
import MediaKit.Lib.Select
import MediaKit.Rtmp.PushClient

/-!
# Sessions that forward a source

An RTMP player gets the FLV payload of each frame that has one (`handle_play`,
`media_frame_to_rtmp_message` of `crates/rtmp/src/session.rs`). Two other loops differ from it:

* the push client sends `frame.data` as it is, and nothing of the cache (`pushed_eq_played_iff`);
* the FLV players of `crates/http` pass over a live frame that `is_config_frame` recognises, so that
  they keep the configuration of the moment they joined (`configs_reach_players`).

Mirroring notes vs the Rust source: the stream is received without lag, and every write to a
connection succeeds. -/

namespace MediaKit.Rtmp

open Lib MediaKit.Core Flv List

/-- The flag that older producers do not set. -/
def flagConfig (frame : MediaFrame) : MediaFrame :=
  if isConfigFrame frame then { frame with configFrame := true } else frame

def mediaFrameToRtmpMessage (frame : MediaFrame) (streamId : UInt32) : Option RtmpMessage :=
  match frame.frameType with
  | .metadata => some (.amf0Data streamId frame.timestamp frame.data)
  | .video => (flvPayload (flagConfig frame)).toOption.map (.video streamId frame.timestamp)
  | .audio => (flvPayload (flagConfig frame)).toOption.map (.audio streamId frame.timestamp)

/-! ## The push client -/

/-- The body of an audio or video message. -/
def mediaBody : RtmpMessage → Option Bytes
  | .audio _ _ data | .video _ _ data => some data
  | _ => none

/-- The audio and video bodies that the push client sends for the frames it receives. -/
def pushedBodies (t : PushTarget) (c : PushClient) (frames : List MediaFrame) : List Bytes :=
  (((frames.foldl (fun c f => c.step t (.frame f)) c).sent.drop c.sent.length).map
    (·.msg)).filterMap mediaBody

/-- Those that an RTMP player gets: the cached configurations, then each frame. -/
def playedBodies (streamId : UInt32) (cache : GopCache MediaFrame) (frames : List MediaFrame) :
    List Bytes :=
  ((cache.getConfigFrames ++ frames).filterMap (mediaFrameToRtmpMessage · streamId)).filterMap
  mediaBody

theorem sent_frames (t : PushTarget) (sid : UInt32) (frames : List MediaFrame) :
    ∀ c : PushClient, c.phase = .streaming sid →
    (frames.foldl (fun c f => c.step t (.frame f)) c).sent = c.sent ++ frames.map fun f =>
      ⟨c.encoder, frameMsg sid f⟩ := by
  induction frames with
  | nil => exact fun c _ => (append_nil _).symm
  | cons f frames ih =>
    intro c hp
    have hs : c.step t (.frame f) = c.send (frameMsg sid f) := by
      rw [PushClient.step, hp]
    rw [foldl_cons, hs, ih (c.send (frameMsg sid f)) hp]
    exact append_assoc ..

theorem frameMsg_body (sid : UInt32) (f : MediaFrame) :
    mediaBody (frameMsg sid f) = if f.frameType = .metadata then none else some f.data := by
  rw [frameMsg]
  cases f.frameType <;> rfl

theorem mediaFrameToRtmpMessage_body (sid : UInt32) (f : MediaFrame) :
    (mediaFrameToRtmpMessage f sid).bind mediaBody =
    if f.frameType = .metadata then none else (flvPayload (flagConfig f)).toOption := by
  rw [mediaFrameToRtmpMessage]
  cases f.frameType <;> cases flvPayload (flagConfig f) <;> rfl

/-- **A push sends what a player gets**, at every moment, exactly if no cached configuration has a
payload and every audio or video frame is its own payload. -/
theorem pushed_eq_played_iff (t : PushTarget) (c : PushClient) (sid : UInt32)
    (cache : GopCache MediaFrame) (live : List MediaFrame) :
    (∀ n, pushedBodies t { c with phase := .streaming sid }
      (live.take n) = playedBodies sid cache (live.take n)) ↔
      (∀ f ∈ cache.getConfigFrames, f.frameType ≠ .metadata → ∃ e,
        flvPayload (flagConfig f) = .error e) ∧
        ∀ f ∈ live, f.frameType ≠ .metadata → flvPayload (flagConfig f) = .ok f.data := by
  have hps : ∀ frames, pushedBodies t { c with phase := .streaming sid } frames =
      frames.filterMap fun f => if f.frameType = .metadata then none else some f.data := by
    intro frames
    rw [pushedBodies, sent_frames t sid frames _ rfl, drop_left, map_map, filterMap_map]
    exact filterMap_congr fun f _ => frameMsg_body sid f
  have hpl : ∀ frames, playedBodies sid cache frames =
    (cache.getConfigFrames ++ frames).filterMap fun f =>
      if f.frameType = .metadata then none else (flvPayload (flagConfig f)).toOption := by
    intro frames
    rw [playedBodies, filterMap_filterMap]
    exact filterMap_congr fun f _ => mediaFrameToRtmpMessage_body sid f
  simp only [hps, hpl, filterMap_append]
  rw [filterMap_take_eq_append_iff, filterMap_eq_nil_iff]
  refine and_congr (forall₂_congr fun f _ => ?_) (forall₂_congr fun f _ => ?_)
  · by_cases hm : f.frameType = .metadata
    · simp [hm]
    · cases flvPayload (flagConfig f) <;> simp [Except.toOption]
  · by_cases hm : f.frameType = .metadata
    · simp [hm]
    · cases flvPayload (flagConfig f) <;> simp [hm, Except.toOption, eq_comm]

/-- A picture from an RTSP camera goes out without its FLV header, and without the configuration in
the cache. -/
theorem push_differs : let config : MediaFrame :=
  ⟨0, .video, .h264, 0, 0, 0, [0x17, 0, 0, 0, 0, 1, 0x64, 0, 0x1F, 0xFF, 0xE1], .flv, true, true⟩
    let picture : MediaFrame :=
      ⟨0, .video, .h264, 40, 40, 40, [0, 0, 0, 1, 0x65], .annexB, true, false⟩
    let cache := GopCache.cacheFrame id .new config
    pushedBodies ⟨[], [], []⟩ { PushClient.start ⟨[], [], []⟩ with phase := .streaming 1 }
      [picture] = [picture.data] ∧
      playedBodies 1 cache [picture] = [config.data, [0x17, 1, 0, 0, 0, 0, 0, 0, 1, 0x65]] := by
  decide +kernel

/-! ## Players that have joined -/

inductive FlvPlayer where
  | httpFlv
  | wsFlv
  | rtmp (streamId : UInt32)
  deriving DecidableEq

/-- What the loop of a player does with a frame. -/
inductive Forwarded where
  | written
  | skipped
  | ended
  deriving DecidableEq

/-- The loops over the cached frames (`live` is false) and over those that are received:
`handle_flv_stream`, `run_flv` and `handle_play`. -/
def FlvPlayer.forward (live : Bool) (f : MediaFrame) : FlvPlayer → Forwarded
  | .httpFlv | .wsFlv =>
    if live && isConfigFrame f then .skipped
    -- a tag that cannot be written ends the session
    else if (writeTag f).toOption.isSome then .written else .ended
  | .rtmp streamId => if (mediaFrameToRtmpMessage f streamId).isSome then .written else .skipped

/-- The bytes begin as an FLV sequence header does. -/
def SpellsHeader : FrameType → Bytes → Prop
  | .video, a :: b :: rest => b &&& 0x0F = 0 ∧ (a &&& 0x0F = 7 ∨ a &&& 0x0F = 12 ∧ 3 ≤ rest.length)
  | .audio, a :: b :: _ => b &&& 0x0F = 0 ∧ a >>> 4 = 10
  | _, _ => False

theorem isConfigFrame_iff (f : MediaFrame) :
    isConfigFrame f = true ↔ SpellsHeader f.frameType f.data := by
  have hn : ∀ a : UInt8, (a >>> (4 : UInt8)) &&& (0x0F : UInt8) = a >>> (4 : UInt8) :=
    forall_octet (by decide +kernel)
  unfold isConfigFrame SpellsHeader
  rcases f.data with _ | ⟨a, _ | ⟨b, rest⟩⟩ <;> cases f.frameType <;> simp [hn, and_comm]
  split
  next hav => exact (and_iff_right (.inl hav)).symm
  next ho => rw [or_iff_right ho]

/-- The length in front of the first unit of a sample; octets that are missing count as zero. -/
def firstUnitLength (data : Bytes) : Nat :=
  ofBe [data.getD 0 0, data.getD 1 0, data.getD 2 0, data.getD 3 0]

/-- The length in front of the first unit begins as a sequence header does. Such a unit has at
least `0x07000000` octets. -/
def LengthSpells (data : Bytes) : Prop :=
  2 ≤ data.length ∧ firstUnitLength data / 2 ^ 16 % 16 = 0 ∧
    (firstUnitLength data / 2 ^ 24 % 16 = 7 ∨
      firstUnitLength data / 2 ^ 24 % 16 = 12 ∧ 5 ≤ data.length)

/-- H.264 and H.265 frames that pass: samples with lengths unless their first length spells a
header, and Annex-B units behind a start code. -/
def VideoForwardable (f : MediaFrame) : Prop :=
  match declaredOrDetectedVideoFormat f with
  | .flv => 5 < f.data.length ∧ f.data.getD 1 0 &&& 0x0F = 1
  | .avcc | .hvcc | .unknown => ¬ LengthSpells f.data
  | .annexB => annexBNaluRanges f.data ≠ [] ∧
      (startsWithAnnexB f.data = true ∨ ¬ SpellsHeader .video f.data)
  | _ => False

/-- AAC frames that pass: ADTS frames, and raw frames unless they begin with a program
configuration that spells a header. -/
def AacForwardable (f : MediaFrame) : Prop :=
  match declaredOrDetectedAacFormat f with
  | .flv => 2 < f.data.length ∧ f.data.getD 1 0 = 1
  | .aacRaw | .unknown => ¬ SpellsHeader .audio f.data
  | .adts => isAdts f.data = true ∧
      (if f.data.getD 1 0 &&& 0x01 ≠ 0 then 7 else 9) < f.data.length
  | _ => False

/-- **The media frames that the FLV loops pass on**, by codec and format. G.711 and MP3 data pass
unless their octets happen to spell a header. Of other codecs there is no FLV payload, and the
session ends. -/
def Forwardable (f : MediaFrame) : Prop :=
  match f.frameType, f.codec with
  | .video, .h264 | .video, .h265 => VideoForwardable f
  | .audio, .aac => AacForwardable f
  | .audio, .g711a | .audio, .g711u | .audio, .mp3 => ¬ SpellsHeader .audio f.data
  | .metadata, _ => True
  | _, _ => False

/-- The frame is told from a configuration; a media frame is kept in every cache and written by
both loops. -/
def MediaKept (f : MediaFrame) : Prop :=
  isConfigFrame f = f.configFrame ∧ (f.frameType ≠ .metadata → f.configFrame = false →
    (∀ c, (GopCache.cacheFrame id c f).frames.getLast? = some f) ∧
      FlvPlayer.httpFlv.forward true f = .written ∧ FlvPlayer.wsFlv.forward true f = .written)

section Kept

variable {f : MediaFrame} {data : Bytes}

theorem spellsHeader_video_iff (data : Bytes) : SpellsHeader .video data ↔ LengthSpells data := by
  have han : ∀ a : UInt8, (a &&& 0x0F).toNat = a.toNat % 16 := forall_octet (by decide +kernel)
  have heq (a n : UInt8) : a &&& 0x0F = n ↔ a.toNat % 16 = n.toNat := by
    rw [← han, UInt8.toNat_inj]
  rcases data with _ | ⟨a, _ | ⟨b, rest⟩⟩
  · exact iff_of_false id fun h => absurd h.1 (by decide)
  · exact iff_of_false id fun h => Nat.not_succ_le_self 1 h.1
  · have hln : firstUnitLength (a :: b :: rest) = ((a.toNat * 256 + b.toNat) * 256 +
        (rest.getD 0 0).toNat) * 256 + (rest.getD 1 0).toNat := by
      show (((0 * 256 + a.toNat) * 256 + b.toNat) * 256 + (rest.getD 0 0).toNat) * 256 +
        (rest.getD 1 0).toNat = _
      omega
    have h₀ := (rest.getD 0 0).toNat_lt
    have h₁ := (rest.getD 1 0).toNat_lt
    have hb := b.toNat_lt
    have hlw : firstUnitLength (a :: b :: rest) / 2 ^ 16 % 16 = b.toNat % 16 := by omega
    have hh : firstUnitLength (a :: b :: rest) / 2 ^ 24 = a.toNat := by omega
    rw [SpellsHeader, LengthSpells, hlw, hh, heq, heq, heq]
    simp only [length_cons, UInt8.toNat_zero, UInt8.reduceToNat]
    omega

theorem not_spells_of_startCode (h : startsWithAnnexB data = true) :
    ¬ SpellsHeader .video data := by
  rcases data with _ | ⟨a, _ | ⟨b, rest⟩⟩
  · exact id
  · exact id
  · have ha : a = 0 := by
      simp only [startsWithAnnexB, Bool.or_eq_true, decide_eq_true_eq] at h
      rcases h with h | h <;> exact (List.cons.inj h).1
    rw [ha]
    exact fun h => absurd h.2 (by simp)

theorem not_spells_of_adts (h : isAdts data = true) : ¬ SpellsHeader .audio data := by
  rcases data with _ | ⟨a, _ | ⟨b, rest⟩⟩
  · exact id
  · exact id
  · simp only [isAdts, Bool.and_eq_true, beq_iff_eq] at h
    have ha : a = 0xFF := h.1.2
    rw [ha]
    exact fun h => absurd h.2 (by decide)

/-- A second octet that is no header's. -/
theorem not_spells_of_second {kind : FrameType} (h : data.getD 1 0 &&& 0x0F ≠ 0) :
    ¬ SpellsHeader kind data := by
  rcases data with _ | ⟨a, _ | ⟨b, rest⟩⟩ <;> cases kind <;> try exact id
  · exact fun hs => h hs.1
  · exact fun hs => h hs.1

/-- A video frame has a payload and does not spell a header. -/
theorem forwardable_video_iff (hf : f.configFrame = false)
    (hc : IsH26x f.codec) : VideoForwardable f ↔
      (videoSampleLengthPrefixed f).toOption.isSome = true ∧ ¬ SpellsHeader .video f.data := by
  have hk : ¬ (f.codec ≠ .h264 ∧ f.codec ≠ .h265) := fun h => hc.elim h.1 h.2
  rw [VideoForwardable, videoSampleLengthPrefixed, hf, if_neg Bool.false_ne_true,
    if_neg hk]
  cases declaredOrDetectedVideoFormat f with
  | flv =>
    dsimp only
    split
    next hb =>
      exact iff_of_false (fun h => hb.elim (Nat.not_le.mpr h.1) (· h.2)) fun h => by cases h.1
    next hg =>
      obtain ⟨hlen, hs⟩ := not_or.mp hg
      have hs := not_not.mp hs
      refine iff_of_true ⟨Nat.not_le.mp hlen, hs⟩ ⟨rfl, not_spells_of_second ?_⟩
      rw [hs]
      decide
  | avcc | hvcc | unknown =>
    exact (not_congr (spellsHeader_video_iff _).symm).trans (and_iff_right rfl).symm
  | annexB =>
    dsimp only [annexBToLengthPrefixed]
    refine and_congr ?_ (or_iff_right_of_imp not_spells_of_startCode)
    cases annexBNaluRanges f.data with
    | nil => exact iff_of_false (· rfl) (by rintro ⟨⟩)
    | cons => exact iff_of_true (cons_ne_nil _ _) rfl
  | aacAudioSpecificConfig | aacRaw | adts | opus | raw | amf0 =>
    exact iff_of_false id fun h => by cases h.1

/-- An AAC frame has a payload and does not spell a header. -/
theorem forwardable_aac_iff (hf : f.configFrame = false) (hc : f.codec = .aac) :
    AacForwardable f ↔
      (aacRawPayload f).toOption.isSome = true ∧ ¬ SpellsHeader .audio f.data := by
  have hk : ¬ (f.codec ≠ .aac ∨ f.configFrame = true) := by simp [hc, hf]
  rw [AacForwardable, aacRawPayload, if_neg hk]
  cases declaredOrDetectedAacFormat f with
  | flv =>
    dsimp only
    split
    next hb =>
      exact iff_of_false (fun h => hb.elim (Nat.not_le.mpr h.1) (· h.2)) fun h => by cases h.1
    next hg =>
      obtain ⟨hlen, hsc⟩ := not_or.mp hg
      have hsc := not_not.mp hsc
      refine iff_of_true ⟨Nat.not_le.mp hlen, hsc⟩ ⟨rfl, not_spells_of_second ?_⟩
      rw [hsc]
      decide
  | aacRaw | unknown => exact (and_iff_right rfl).symm
  | adts =>
    dsimp only [stripAdtsHeader, adtsHeaderLen]
    cases had : isAdts f.data with
    | false => exact iff_of_false (fun h => by cases h.1) fun h => by cases h.1
    | true =>
      rw [and_iff_left (not_spells_of_adts had), and_iff_right rfl]
      show _ ↔ Option.isSome (Except.toOption
        (if f.data.length ≤ _ then Except.error _ else .ok _)) = true
      generalize (if f.data.getD 1 0 &&& 0x01 ≠ 0 then 7 else 9) = headerLen
      split
      next hsh => exact iff_of_false (Nat.not_lt.mpr hsh) (by rintro ⟨⟩)
      next hln => exact iff_of_true (Nat.not_le.mp hln) rfl
  | avcc | hvcc | annexB | aacAudioSpecificConfig | opus | raw | amf0 =>
    exact iff_of_false id fun h => by cases h.1

/-- **An unflagged frame** is passed on if it has an FLV payload and does not spell a header. -/
theorem forwardable_iff (hfr : f.payloadFormat ≠ .flv) (hfl : f.configFrame = false) :
    Forwardable f ↔ (writeTag f).toOption.isSome = true ∧ ¬ SpellsHeader f.frameType f.data := by
  have ht (hk : f.frameType ≠ .metadata) :
      (writeTag f).toOption.isSome = (flvPayload f).toOption.isSome := by
    rw [writeTag, if_neg hk]
    cases flvPayload f <;> rfl
  have hp (hk : f.frameType ≠ .metadata) : ¬ (f.frameType = .metadata ∨ f.payloadFormat = .flv) :=
    not_or.mpr ⟨hk, hfr⟩
  rw [Forwardable]
  cases hk : f.frameType with
  | metadata =>
    rw [writeTag, if_pos hk]
    exact iff_of_true trivial ⟨rfl, id⟩
  | video =>
    have hm : f.frameType ≠ .metadata := by rw [hk]; exact nofun
    rw [ht hm, flvPayload, if_neg (hp hm), hk]
    by_cases hcd : IsH26x f.codec
    · have hb : flvVideoBody f = videoSampleLengthPrefixed f := by
        rw [flvVideoBody, hfl, if_neg Bool.false_ne_true]
      have hi := forwardable_video_iff hfl hcd
      rcases hcd with hcd | hcd <;>
      · rw [hcd, hb]
        refine hi.trans (and_congr_left' ?_)
        cases videoSampleLengthPrefixed f <;> exact Iff.rfl
    · obtain ⟨h264, h265⟩ := not_or.mp hcd
      cases hc : f.codec <;> first
        | exact absurd hc h264
        | exact absurd hc h265
        | exact iff_of_false id fun h => nomatch h.1
  | audio =>
    have hm : f.frameType ≠ .metadata := by rw [hk]; exact nofun
    rw [ht hm, flvPayload, if_neg (hp hm), hk]
    cases hcd : f.codec with
    | aac =>
      have hb : flvAacBody f = aacRawPayload f := by
        rw [flvAacBody, hfl, if_neg Bool.false_ne_true]
      dsimp only
      rw [hb]
      refine (forwardable_aac_iff hfl hcd).trans (and_congr_left' ?_)
      cases aacRawPayload f <;> exact Iff.rfl
    | g711a | g711u | mp3 => exact (and_iff_right rfl).symm
    | _ => exact iff_of_false id fun h => nomatch h.1

/-- **Media frames are told from configurations, kept and passed on**, exactly if a flagged frame
spells a sequence header and an unflagged one is forwardable. -/
theorem media_kept_iff (f : MediaFrame) (hformat : f.payloadFormat ≠ .flv) :
    MediaKept f ↔ if f.configFrame then SpellsHeader f.frameType f.data else Forwardable f := by
  rw [MediaKept]
  cases hfl : f.configFrame with
  | true => exact (and_iff_left fun _ h => nomatch h).trans (isConfigFrame_iff f)
  | false =>
    rw [if_neg Bool.false_ne_true, forwardable_iff hformat hfl, ← isConfigFrame_iff,
      Bool.not_eq_true]
    rw [and_comm (a := _ = true)]
    refine and_congr_right fun hc => ?_
    simp only [FlvPlayer.forward, hc, Bool.and_false, Bool.false_eq_true, if_false, and_self]
    constructor
    · intro h
      by_cases hk : f.frameType = .metadata
      · rw [writeTag, if_pos hk]
        rfl
      · have hw := (h hk trivial).2
        split at hw
        next hs => exact hs
        next => cases hw
    · intro hs hk _
      have hm : GopCache.mediaAt id f = true := by
        simp [GopCache.mediaAt, isMedia, hk, hc]
      exact ⟨fun c => by rw [GopCache.cacheFrame_media c hm, getLast?_concat], if_pos hs⟩

end Kept

/-- A picture behind a start code is kept. -/
theorem picture_kept : let picture : MediaFrame :=
  ⟨0, .video, .h264, 40, 40, 40, [0, 0, 0, 1, 0x65], .annexB, true, false⟩
    picture.payloadFormat ≠ .flv ∧ MediaKept picture := by
  exact ⟨by decide, (media_kept_iff _ (by decide)).mpr ⟨by decide +kernel, .inl rfl⟩⟩

/-- An Opus packet is taken for an AAC configuration and passed over; another one has no FLV
payload, and the session ends. -/
theorem opus_taken_for_config :
    let packet := fun data => (MediaFrame.newAudio 1 .opus 0 0 0 data).withPayloadFormat .opus
    (isConfigFrame (packet [0xA0, 0x10]) = true ∧
      FlvPlayer.httpFlv.forward true (packet [0xA0, 0x10]) = .skipped) ∧
      FlvPlayer.httpFlv.forward true (packet [0x78, 0x01]) = .ended := by
  decide +kernel

structure Playback where
  written : List MediaFrame
  ended : Bool

variable (player : FlvPlayer)

namespace Playback

def pass (live : Bool) (s : Playback) (f : MediaFrame) : Playback :=
  if s.ended then s
  else
    match player.forward live f with
    | .written => { s with written := s.written ++ [f] }
    | .skipped => s
    | .ended => { s with ended := true }

/-- A player joins when these frames have been published. -/
def join (history : List MediaFrame) : Playback :=
  ((history.foldl (GopCache.cacheFrame id) .new).getLatestGopFrames id).foldl (pass player false)
  ⟨[], false⟩

/-- It receives the frames published since. -/
def play (history live : List MediaFrame) : Playback :=
  live.foldl (pass player true) (join player history)

end Playback

def isVideoConfig (f : MediaFrame) : Bool :=
  decide (f.frameType = .video) && (f.configFrame || isConfigFrame f)

/-- The data of the last video configuration. -/
def lastConfig (frames : List MediaFrame) : Option Bytes :=
  ((frames.filter isVideoConfig).getLast?).map (·.data)

/-- In front of every video sample that is written, the last configuration written is the last one
published. -/
def ConfigsReach (history live : List MediaFrame) : Prop :=
  ∀ before f after, live = before ++ f :: after → f.frameType = .video → isVideoConfig f = false →
    (Playback.play player history before).ended = false → player.forward true f = .written →
      lastConfig (Playback.play player history before).written = lastConfig (history ++ before)

/-- A configuration that the player passes over is the last one once more. -/
def MissesNone (history live : List MediaFrame) : Prop :=
  ∀ before f after, live = before ++ f :: after → isVideoConfig f = true →
    player.forward true f = .skipped →
    lastConfig (history ++ before) = some f.data

theorem lastConfig_concat (l : List MediaFrame) (f : MediaFrame) :
    lastConfig (l ++ [f]) = if isVideoConfig f then some f.data else lastConfig l := by
  rw [lastConfig, filter_append, filter_singleton]
  cases isVideoConfig f with
  | false => simp [lastConfig]
  | true => simp

theorem pass_lastConfig {player : FlvPlayer} {s : Playback} {f : MediaFrame}
    {history : List MediaFrame} (h : s.ended = false → lastConfig s.written = lastConfig history)
    (hf : isVideoConfig f = true → player.forward true f = .skipped → lastConfig history =
      some f.data)
    (ho : (s.pass player true f).ended = false) :
    lastConfig (s.pass player true f).written = lastConfig (history ++ [f]) := by
  rw [Playback.pass] at ho ⊢
  rw [lastConfig_concat]
  split at ho
  next he =>
    rw [he] at ho
    cases ho
  next he =>
    have hcr := h (Bool.eq_false_of_not_eq_true he)
    rw [if_neg he]
    cases hfr : player.forward true f with
    | written =>
      rw [lastConfig_concat, hcr]
    | ended =>
      rw [hfr] at ho
      cases ho
    | skipped =>
      -- what is passed over repeats the last configuration
      rw [hcr]
      split
      next hcn => exact hf hcn hfr
      next => rfl

theorem play_lastConfig {player : FlvPlayer} {history live : List MediaFrame}
    (hj : lastConfig (Playback.join player history).written = lastConfig history)
    (hl : MissesNone player history live) (ho : (Playback.play player history live).ended = false) :
    lastConfig (Playback.play player history live).written = lastConfig (history ++ live) := by
  induction live using reverseRecOn with
  | nil => rwa [append_nil]
  | append_singleton live f ih =>
    rw [Playback.play, foldl_append] at ho ⊢
    rw [← append_assoc]
    refine pass_lastConfig (fun he => ih (fun before g after hs => ?_) he) (hl live f [] rfl) ho
    exact hl before g (after ++ [f]) (by rw [hs, append_assoc, cons_append])

/-- Every video configuration of the history spells a sequence header, so that the cache keeps the
last one, and the player writes it when it joins. -/
structure Joinable (history : List MediaFrame) : Prop where
  cached : ∀ f ∈ history, isVideoConfig f = true → isConfigFrame f = true
  written : ∀ f ∈ (history.filter isVideoConfig).getLast?, player.forward false f = .written

section Join

variable {player : FlvPlayer} {history : List MediaFrame} {f : MediaFrame}

/-- What is no video configuration leaves the last one that was written. -/
theorem foldl_pass_lastConfig {live : Bool} {frames : List MediaFrame}
    (h : ∀ f ∈ frames, isVideoConfig f = false) (s : Playback) :
    lastConfig (frames.foldl (Playback.pass player live) s).written = lastConfig s.written := by
  induction frames generalizing s with
  | nil => rfl
  | cons f frames ih =>
    obtain ⟨hf, hfr⟩ := forall_mem_cons.mp h
    rw [foldl_cons, ih hfr, Playback.pass]
    split
    next => rfl
    next =>
      split
      next => rw [lastConfig_concat, hf, if_neg Bool.false_ne_true]
      next => rfl
      next => rfl

theorem Joinable.videoHeaders (h : Joinable player history) :
    history.filter (GopCache.headerAt id .video) = history.filter isVideoConfig := by
  refine filter_congr fun f hf => Bool.eq_iff_iff.mpr ?_
  have hc := h.cached f hf
  simp only [GopCache.headerAt, isVideoConfig, id, Bool.and_eq_true, Bool.or_eq_true,
    decide_eq_true_eq] at hc ⊢
  exact ⟨fun hv => ⟨hv.1, .inr (hv.2.resolve_left (by rintro ⟨⟩))⟩, fun hv => ⟨hv.1, .inr (hc hv)⟩⟩

theorem Joinable.media (h : Joinable player history)
    (hf : f ∈ history.filter (GopCache.mediaAt id)) :
    isVideoConfig f = false := by
  obtain ⟨hh, hm⟩ := mem_filter.mp hf
  simp only [GopCache.mediaAt, isMedia, id, Bool.and_eq_true, Bool.not_eq_true'] at hm
  refine Bool.eq_false_iff.mpr fun hc => Bool.false_ne_true ?_
  rw [← hm.2, h.cached f hh hc]

/-- A header of another kind is no video configuration. -/
theorem isVideoConfig_of_header (kind : FrameType) (hk : kind ≠ .video)
    (hf : f ∈ (history.filter (GopCache.headerAt id kind)).getLast?) :
    f.frameType = kind ∧ isVideoConfig f = false := by
  have hh := (mem_filter.mp (mem_of_mem_getLast? hf)).2
  simp only [GopCache.headerAt, id, Bool.and_eq_true, decide_eq_true_eq] at hh
  exact ⟨hh.1, by simp [isVideoConfig, hh.1, hk]⟩

theorem forward_metadata (live : Bool) (hf : f.frameType = .metadata) :
    player.forward live f = .written := by
  have hc : isConfigFrame f = false := by simp [isConfigFrame, hf]
  cases player <;>
    simp [FlvPlayer.forward, hc, writeTag, mediaFrameToRtmpMessage, hf, Except.toOption]

/-- **The last configuration of the history** is the last one that a joining player writes. -/
theorem join_lastConfig (h : Joinable player history) :
    lastConfig (Playback.join player history).written = lastConfig history := by
  obtain ⟨gop, hrp, hg⟩ := GopCache.getLatestGopFrames_cacheAll id history
  have hrs : ∀ f ∈ (history.filter (GopCache.headerAt id .audio)).getLast?.toList ++ gop,
      isVideoConfig f = false := by
    intro f hf
    rcases mem_append.mp hf with had | hm
    · exact (isVideoConfig_of_header .audio nofun (Option.mem_toList.mp had)).2
    · rcases hg with ⟨-, rfl⟩ | ⟨before, k, after, heq, -, -, rfl⟩
      · cases hm
      · exact h.media (heq ▸ mem_append_right before hm)
  have hj : Playback.join player history = _ :=
    congrArg (foldl (Playback.pass player false) ⟨[], false⟩) hrp
  have hh : lastConfig history = ((history.filter isVideoConfig).getLast?).map (·.data) := rfl
  rw [hj, append_assoc, foldl_append, foldl_pass_lastConfig hrs, h.videoHeaders, foldl_append, hh]
  -- the metadata is written, and then the configuration
  obtain ⟨start, hs, ho, hn⟩ : ∃ start, foldl (Playback.pass player false) ⟨[], false⟩
      (history.filter (GopCache.headerAt id .metadata)).getLast?.toList = start ∧
      start.ended = false ∧
      lastConfig start.written = none := by
    cases hl : (history.filter (GopCache.headerAt id .metadata)).getLast? with
    | none => exact ⟨_, rfl, rfl, rfl⟩
    | some f =>
      obtain ⟨hk, hc⟩ := isVideoConfig_of_header .metadata nofun hl
      refine ⟨⟨[f], false⟩, ?_, rfl, by simp [lastConfig, hc]⟩
      simp [Playback.pass, forward_metadata false hk]
  rw [hs]
  cases hl : (history.filter isVideoConfig).getLast? with
  | none => exact hn
  | some f =>
    have hc := (mem_filter.mp (mem_of_mem_getLast? hl)).2
    rw [Option.toList_some, foldl_cons, foldl_nil, Playback.pass, ho, if_neg Bool.false_ne_true,
      h.written f hl, lastConfig_concat, if_pos hc]
    rfl

end Join

/-- **Configurations reach a player** that got the last one when it joined (see `join_lastConfig`),
if it writes every later one that is new. -/
theorem configs_reach_players (player : FlvPlayer) (history live : List MediaFrame)
    (hjoin : lastConfig (Playback.join player history).written = lastConfig history)
    (hlive : MissesNone player history live) : ConfigsReach player history live := by
  intro before f after hs _ _ ho _
  refine play_lastConfig hjoin (fun before' g after' hs' => ?_) ho
  exact hlive before' g (after' ++ f :: after) (by rw [hs, hs', append_assoc, cons_append])

/-- An H.264 sequence header with the given profile. -/
def sequenceHeader (profile : UInt8) : MediaFrame :=
  ⟨0, .video, .h264, 0, 0, 0, [0x17, 0, 0, 0, 0, 1, profile, 0, 0x1F, 0xFF, 0xE1], .flv, true, true⟩

def flvPicture (timestamp : UInt32) : MediaFrame :=
  ⟨0, .video, .h264, timestamp, 0, 0, [0x17, 1, 0, 0, 0, 0, 0, 0, 1, 0x65], .flv, true, false⟩

/-- An RTMP player gets the new sequence header. -/
theorem rtmp_configs_reach : ConfigsReach (.rtmp 1) [sequenceHeader 0x64, flvPicture 0]
    [sequenceHeader 0x42, flvPicture 40] := by
  apply configs_reach_players
  · exact join_lastConfig ⟨by decide +kernel, by decide +kernel⟩
  · intro before f after hsp _ hsk
    have hal : ∀ f ∈ [sequenceHeader 0x42, flvPicture 40],
      (FlvPlayer.rtmp 1).forward true f = .written := by decide +kernel
    have hw := hal f (hsp ▸ mem_append_right before mem_cons_self)
    rw [hsk] at hw
    cases hw

/-- An HTTP-FLV player does not: the picture is behind the sequence header of the old stream. -/
theorem httpFlv_config_lost : ¬ ConfigsReach .httpFlv [sequenceHeader 0x64, flvPicture 0]
    [sequenceHeader 0x42, flvPicture 40] := by
  intro h
  have hl := h [sequenceHeader 0x42] (flvPicture 40) [] rfl rfl (by decide +kernel)
    (by decide +kernel) (by decide +kernel)
  exact absurd hl (by decide +kernel)

end MediaKit.Rtmp
