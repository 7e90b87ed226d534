import MediaKit.Fmp4.Timeline

/-!
# What a fragmented stream preserves

Frames of a video track and of an AAC track go through the muxer, and its segments through the
reader. `presented_iff_presentable` says when configurations, payloads and key frames are all the
same: no sample begins with the octets of a sequence header (`is_config_frame` looks at them
whatever the payload format says, and the sample is then dropped), and the AAC configuration comes
back from its descriptors (`extractAsc_esdsData_iff`).
-/

namespace MediaKit.Fmp4

open MediaKit.Core Lib List

/-! ## Frames -/

open Fmp4Muxer

/-- A frame with the video record. -/
structure VideoConfig (cfg : Bytes) (f : MediaFrame) : Prop where
  kind : f.frameType = .video
  taken : (f.configFrame || isConfigFrame f) = true
  record : videoDecoderConfig f = .ok cfg

/-- A frame with a video sample. -/
structure VideoSample (f : MediaFrame) : Prop where
  kind : f.frameType = .video
  payload : ∃ data, videoSampleLengthPrefixed f = .ok data

/-- A frame with an AAC sample. -/
structure AudioSample (f : MediaFrame) : Prop where
  kind : f.frameType = .audio
  payload : ∃ data, aacRawPayload f = .ok data

abbrev PresentationFrame (cfg asc : Bytes) (f : MediaFrame) : Prop :=
  VideoConfig cfg f ∨ AudioConfig asc f ∨ VideoSample f ∨ AudioSample f

/-- **The frames of a presentation.** -/
structure Presentation (cfg asc : Bytes) (frames : List MediaFrame) : Prop where
  known : ∀ f ∈ frames, VideoConfig cfg f ∨ AudioConfig asc f ∨ VideoSample f ∨ AudioSample f
  video : ∃ f ∈ frames, VideoConfig cfg f
  audio : ∃ f ∈ frames, AudioConfig asc f
  cfgValid : cfg.head? = some 1
  ascValid : 2 ≤ asc.length ∧ asc.length ≤ 64

/-- **Everything comes back**: the configurations in some order, and on each track the samples of
all segments. -/
def Presented (scale : UInt32) (cfg asc : Bytes) (chunks : List (List MediaFrame)) : Prop :=
  ∃ d, fromInitSegment ((new scale).cut chunks).initSegment.data = .ok d ∧
    (d.configFrames.map (·.data)).Perm [cfg, asc] ∧
    ∃ parts, ((new scale).segments chunks).mapM (fun p => d.demuxFragment p.2.data) = .ok parts ∧
      (parts.flatten.filter (·.trackId == 1)).map (fun f => (f.data, f.keyFrame)) =
        chunks.flatten.filterMap pushedVideoOf ∧
      (parts.flatten.filter (·.trackId == 2)).map (·.data) = chunks.flatten.filterMap pushedAudioOf

/-- No sample is taken for a configuration, and the AAC configuration comes back. -/
structure Presentable (asc : Bytes) (frames : List MediaFrame) : Prop where
  samples : ∀ f ∈ frames, VideoSample f ∨ AudioSample f → isConfigFrame f = false
  asc : asc.length ≤ 5 ∧ ¬ (2 < asc.length ∧ asc.head? = some 0xAF)

/-! ## Samples -/

section

variable {cfg asc : Bytes} {f : MediaFrame}
  {α : Type} {c : Bool} {m : Fmp4Muxer}

theorem framesFrom_data (track : FragmentTrack) (samples : List Fmp4Sample) : ∀ decode,
    (framesFrom track decode samples).map (·.data) = samples.map (·.data) := by
  induction samples with
  | nil => exact fun _ => rfl
  | cons s samples ih =>
    intro decode
    rw [framesFrom, map_cons, ih, trackFrame]
    split <;> rfl

theorem framesFrom_key {track : FragmentTrack} (h : isVideo track.codec = true)
    (samples : List Fmp4Sample) : ∀ decode,
    (framesFrom track decode samples).map (fun f => (f.data, f.keyFrame)) = samples.map fun s =>
      (s.data, s.isSync) := by
  induction samples with
  | nil => exact fun _ => rfl
  | cons s samples ih =>
    intro decode
    rw [framesFrom, map_cons, ih, trackFrame, if_pos h]
    rfl

theorem AudioSample.codec (h : AudioSample f) : f.codec = .aac := by
  obtain ⟨data, hok⟩ := h.payload
  by_contra hno
  rw [aacRawPayload, if_pos (.inl hno)] at hok
  cases hok

theorem known_of_presentation (h : PresentationFrame cfg asc f) : Known f := by
  rcases h with h | h | h | h
  · exact .inl h.kind
  · exact .inr ⟨h.kind, h.codec⟩
  · exact .inl h.kind
  · exact .inr ⟨h.kind, h.codec⟩

/-- The payload and the key-frame flag of a video sample that the muxer takes. -/
def takenVideoOf (f : MediaFrame) : Option (Bytes × Bool) :=
  if f.frameType = .video then (sampleOf 0 0 f).map fun s => (s.data, s.isSync) else none

/-- The payload of an audio sample that the muxer takes. -/
def takenAudioOf (f : MediaFrame) : Option Bytes :=
  if f.frameType = .audio then (sampleOf 0 0 f).map (·.data) else none

theorem map_samplesOf (p : Fmp4Sample → α)
    (hp : ∀ data t t' d d' key, p ⟨data, t, d, key⟩ = p ⟨data, t', d', key⟩)
    (kind : FrameType) (b d : Nat) (frames : List MediaFrame) : (samplesOf kind b d frames).map p =
      frames.filterMap fun f => if f.frameType = kind then (sampleOf 0 0 f).map p else none := by
  rw [samplesOf, map_filterMap, filterMap_filter]
  apply filterMap_congr
  intro f _
  by_cases hk : f.frameType = kind
  · rw [if_pos (beq_iff_eq.mpr hk), sampleOf, sampleOf]
    split
    · rfl
    · rw [Option.map_map, Option.map_map]
      exact Option.map_congr fun data _ => hp _ _ _ _ _ _
  · rw [if_neg (by rwa [beq_iff_eq]), if_neg hk]

theorem map_samplesOf_video (b d : Nat) (frames : List MediaFrame) :
    (samplesOf .video b d frames).map (fun s => (s.data, s.isSync)) =
      frames.filterMap takenVideoOf :=
  map_samplesOf _ (fun _ _ _ _ _ _ => rfl) .video b d frames

theorem map_samplesOf_audio (b d : Nat) (frames : List MediaFrame) :
    (samplesOf .audio b d frames).map (·.data) = frames.filterMap takenAudioOf :=
  map_samplesOf _ (fun _ _ _ _ _ _ => rfl) .audio b d frames

/-! ### Taken and pushed -/

theorem takenVideoOf_eq (hk : f.frameType = .video) : takenVideoOf f =
    if f.configFrame || isConfigFrame f then none else (videoSampleLengthPrefixed f).toOption.map
      (·, f.keyFrame) := by
  rw [takenVideoOf, if_pos hk, sampleOf, samplePayload, hk]
  split
  · rfl
  · rw [Option.map_map]
    rfl

theorem takenAudioOf_eq (hk : f.frameType = .audio) (hc : f.codec = .aac) : takenAudioOf f =
    if f.configFrame || isConfigFrame f then none else (aacRawPayload f).toOption := by
  have hp : samplePayload f = aacRawPayload f := by
    rw [samplePayload, hk]
    exact if_pos hc
  rw [takenAudioOf, if_pos hk, sampleOf, hp]
  split
  · rfl
  · rw [Option.map_map]
    exact Option.map_id'

/-- A choice that can only lose an element. -/
theorem ite_none_eq_iff {o : Option α} : (if c then none else o) = o ↔ (o.isSome → c = false) := by
  cases c with
  | false => exact iff_of_true rfl fun _ => rfl
  | true =>
    cases o with
    | none => exact iff_of_true rfl nofun
    | some a => exact iff_of_false nofun fun h => Bool.noConfusion (h rfl)

theorem isSome_of_ite_none {o : Option α} (h : (if c then none else o : Option α).isSome) :
    o.isSome := by
  cases c with
  | false => exact h
  | true => cases h

theorem isSome_toOption_iff {ε : Type} {x : Except ε α} : x.toOption.isSome ↔ ∃ a, x = .ok a := by
  cases x with
  | error e => exact iff_of_false nofun fun ⟨_, h⟩ => nomatch h
  | ok a => exact iff_of_true rfl ⟨a, rfl⟩

/-- A video sample is lost just if it looks like a configuration. -/
theorem takenVideoOf_iff (f : MediaFrame) : ((takenVideoOf f).isSome → (pushedVideoOf f).isSome) ∧
      (takenVideoOf f = pushedVideoOf f ↔ (VideoSample f → isConfigFrame f = false)) := by
  by_cases hk : f.frameType = .video
  · rw [takenVideoOf_eq hk, pushedVideoOf, if_pos hk]
    refine ⟨isSome_of_ite_none, ?_⟩
    rw [ite_none_eq_iff, Option.isSome_map, isSome_toOption_iff, Bool.or_eq_false_iff]
    constructor
    · exact fun h hs => (h hs.payload).2
    · rintro h ⟨data, hok⟩
      exact ⟨(videoDecoderConfig_of_sample hok).1, h ⟨hk, data, hok⟩⟩
  · rw [takenVideoOf, pushedVideoOf, if_neg hk, if_neg hk]
    exact ⟨id, iff_of_true rfl fun hs => absurd hs.kind hk⟩

theorem takenAudioOf_iff (hkw : Known f) : ((takenAudioOf f).isSome → (pushedAudioOf f).isSome) ∧
      (takenAudioOf f = pushedAudioOf f ↔ (AudioSample f → isConfigFrame f = false)) := by
  by_cases hkn : f.frameType = .audio
  · have hc : f.codec = .aac := by
      rcases hkw with hk | hk
      · rw [hk] at hkn
        cases hkn
      · exact hk.2
    rw [takenAudioOf_eq hkn hc, pushedAudioOf, if_pos hkn]
    refine ⟨isSome_of_ite_none, ?_⟩
    rw [ite_none_eq_iff, isSome_toOption_iff, Bool.or_eq_false_iff]
    constructor
    · exact fun h hs => (h hs.payload).2
    · rintro h ⟨data, hok⟩
      exact ⟨(aacAudioSpecificConfig_of_sample hok).1, h ⟨hkn, data, hok⟩⟩
  · rw [takenAudioOf, pushedAudioOf, if_neg hkn, if_neg hkn]
    exact ⟨id, iff_of_true rfl fun hs => absurd hs.kind hkn⟩

/-- **Which samples come back.** -/
theorem taken_eq_pushed_iff {frames : List MediaFrame} (hk : ∀ f ∈ frames, Known f) :
    (frames.filterMap takenVideoOf = frames.filterMap pushedVideoOf ∧
      frames.filterMap takenAudioOf = frames.filterMap pushedAudioOf) ↔
      ∀ f ∈ frames, VideoSample f ∨ AudioSample f → isConfigFrame f = false := by
  rw [filterMap_eq_filterMap_iff fun f _ => (takenVideoOf_iff f).1,
    filterMap_eq_filterMap_iff fun f hf => (takenAudioOf_iff (hk f hf)).1]
  constructor
  · rintro ⟨hv, ha⟩ f hf hs
    rcases hs with hs | hs
    · exact (takenVideoOf_iff f).2.mp (hv f hf) hs
    · exact (takenAudioOf_iff (hk f hf)).2.mp (ha f hf) hs
  · intro h
    constructor
    · exact fun f hf => (takenVideoOf_iff f).2.mpr fun hs => h f hf (.inl hs)
    · exact fun f hf => (takenAudioOf_iff (hk f hf)).2.mpr fun hs => h f hf (.inr hs)

/-! ## Segments -/

theorem mapM_segments {scale base : UInt32} {d : Fmp4Demuxer} {vt at' : FragmentTrack}
    (hv : d.tracks.lookup 1 = some vt) (ha : d.tracks.lookup 2 = some at') (hvi : vt.id = 1)
    (hai : at'.id = 2) (hcd : isVideo vt.codec = true) (chunks : List (List MediaFrame)) :
    ∀ {seen : List MediaFrame} {m : Fmp4Muxer}, Ahead scale base seen m chunks →
      SegmentsFit scale base chunks →
      ∃ parts, (m.segments chunks).mapM (fun p => d.demuxFragment p.2.data) = .ok parts ∧
        (parts.flatten.filter (·.trackId == 1)).map (fun f => (f.data, f.keyFrame)) =
          chunks.flatten.filterMap takenVideoOf ∧
        (parts.flatten.filter (·.trackId == 2)).map (·.data) =
          chunks.flatten.filterMap takenAudioOf := by
  induction chunks with
  | nil => exact fun _ _ => ⟨[], rfl, rfl, rfl⟩
  | cons chunk chunks ih =>
    intro seen m hrun hf
    have h := hrun.boundary
    obtain ⟨hk, hst, hl⟩ := hrun.cons
    rw [flatten_cons]
    obtain ⟨parts, hp, hvd, had⟩ := ih hl fun c hc => hf c (mem_cons_of_mem chunk hc)
    have htV := map_samplesOf_video base.toNat (scale.toNat / 25) chunk
    have htA := map_samplesOf_audio base.toNat (scale.toNat / 25) chunk
    rw [segments, filterMap_append, filterMap_append, ← htV, ← htA]
    cases hsg : (m.pushFrames chunk).flushSegment.1 with
    | none =>
      obtain ⟨hvn, han⟩ := (h.segment_eq_none_iff hk hst).mp hsg
      rw [hvn, han]
      exact ⟨parts, hp, hvd, had⟩
    | some seg =>
      obtain ⟨frames, hd, ho, htw⟩ :=
        h.demux hk hst hsg hvi hai (fun _ => hv) (fun _ => ha) (hf chunk mem_cons_self)
      refine ⟨frames :: parts, ?_, ?_, ?_⟩
      · show ((chunk, seg) :: (m.pushFrames chunk).flushSegment.2.segments chunks).mapM _ = _
        rw [mapM_cons]
        dsimp only
        rw [hd, ok_bind, hp]
        rfl
      · rw [flatten_cons, filter_append, map_append, ho, framesFrom_key hcd, hvd]
      · rw [flatten_cons, filter_append, map_append, htw, framesFrom_data, had]

end

/-! ## The whole presentation -/

section

variable {scale : UInt32} {cfg asc : Bytes} {chunks : List (List MediaFrame)}

/-- A frame that brings a configuration is a configuration frame. -/
theorem configOf_presentation {f : MediaFrame} (h : PresentationFrame cfg asc f) {c : Bytes} :
    (configOf .video f = some c → c = cfg) ∧ (configOf .audio f = some c → c = asc) := by
  rw [configOf, configOf]
  constructor
  · intro hc
    split_ifs at hc with ht
    rcases h with h | h | h | h
    · rw [h.record] at hc
      exact (Option.some.inj hc).symm
    · cases h.kind.symm.trans ht.2
    · obtain ⟨e, he⟩ := (videoDecoderConfig_of_sample h.payload.choose_spec).2
      rw [he] at hc
      cases hc
    · cases h.kind.symm.trans ht.2
  · intro hc
    split_ifs at hc with ht
    rcases h with h | h | h | h
    · cases h.kind.symm.trans ht.2
    · rw [h.record] at hc
      exact (Option.some.inj hc).symm
    · cases h.kind.symm.trans ht.2
    · obtain ⟨e, he⟩ := (aacAudioSpecificConfig_of_sample h.payload.choose_spec).2
      rw [he] at hc
      cases hc

theorem Presentation.final (h : Presentation cfg asc chunks.flatten) :
    ((new scale).cut chunks).Supported ∧ ∃ codec, IsH26x codec ∧
      ((new scale).cut chunks).configs = ((some codec, some cfg), (some .aac, some asc)) := by
  have hk : ∀ f ∈ chunks.flatten, Known f := fun f hf => known_of_presentation (h.known f hf)
  have hrun := @cut_configured chunks hk (.new scale)
  have hsp := hrun.supported hk
  obtain ⟨codec, hvd⟩ : ∃ codec, ((new scale).cut chunks).configs.1 = (some codec, some cfg) := by
    obtain ⟨v, hv, hvc⟩ := h.video
    rcases hrun .video with ⟨-, hno⟩ | ⟨f, hf, c, hc, hst⟩
    · have hnon := hno v hv
      rw [configOf, if_pos ⟨hvc.taken, hvc.kind⟩, hvc.record] at hnon
      cases hnon
    · rw [(configOf_presentation (h.known f hf)).1 hc] at hst
      exact ⟨_, hst⟩
  obtain ⟨acodec, had⟩ : ∃ codec, ((new scale).cut chunks).configs.2 = (some codec, some asc) := by
    obtain ⟨a, ha, hac⟩ := h.audio
    rcases hrun .audio with ⟨-, hno⟩ | ⟨f, hf, c, hc, hst⟩
    · have hnon := hno a ha
      rw [configOf, if_pos ⟨hac.taken, hac.kind⟩, hac.record] at hnon
      cases hnon
    · rw [(configOf_presentation (h.known f hf)).2 hc] at hst
      exact ⟨_, hst⟩
  rw [hsp.audio acodec (congrArg Prod.fst had)] at had
  exact ⟨hsp, codec, hsp.video codec (congrArg Prod.fst hvd), Prod.ext hvd had⟩

theorem recordOf_valid (h : cfg.head? = some 1) : recordOf cfg = cfg := if_pos h

/-- The tracks of the reader and the configurations that it reports. -/
theorem tracks_of_configs {m : Fmp4Muxer} {codec : CodecId} (hcd : IsH26x codec)
    (hcf : cfg.head? = some 1) (h : m.configs = ((some codec, some cfg), (some .aac, some asc))) :
    m.tracks = [(1, configTrack 1 codec cfg m.videoTimescale.toNat),
      (2, configTrack 2 .aac asc audioSampleRate)] ∧
      (⟨m.tracks⟩ : Fmp4Demuxer).configFrames.map (·.data) = cfg ::
        (if (extractAsc (esdsData (aacConfigOf asc))).isEmpty then []
          else [extractAsc (esdsData (aacConfigOf asc))]) := by
  simp only [configs, Prod.mk.injEq] at h
  obtain ⟨⟨hvc, hv⟩, hac, ha⟩ := h
  have ht : m.tracks = [(1, configTrack 1 codec cfg m.videoTimescale.toNat),
      (2, configTrack 2 .aac asc audioSampleRate)] := by
    rw [tracks, traks, hvc, hv, hac, ha]
    rfl
  refine ⟨ht, ?_⟩
  have hvn : (configTrack 1 codec cfg m.videoTimescale.toNat).config = cfg := by
    rw [configTrack, if_neg (by rcases hcd with rfl | rfl <;> decide)]
    exact recordOf_valid hcf
  have han : (configTrack 2 .aac asc audioSampleRate).config =
      extractAsc (esdsData (aacConfigOf asc)) := by
    rw [configTrack, if_pos rfl]
  have hne : (!cfg.isEmpty) = true := by
    cases cfg with
    | nil => cases hcf
    | cons => rfl
  have hd : ∀ t : Nat × FragmentTrack, (if isVideo t.2.codec then
      (MediaFrame.newVideo (UInt32.ofNat t.2.id) t.2.codec 0 0 0 t.2.config false).withPayloadFormat
        (if t.2.codec = .h264 then .avcc else .hvcc)
      else (MediaFrame.newAudio (UInt32.ofNat t.2.id) t.2.codec 0 0 0 t.2.config).withPayloadFormat
        .aacAudioSpecificConfig).data = t.2.config := by
    intro t
    split <;> rfl
  rw [Fmp4Demuxer.configFrames, ht, map_map, filter_cons, hvn, if_pos hne, map_cons,
    filter_cons, han]
  refine congrArg₂ List.cons ((hd _).trans hvn) ?_
  cases he : (extractAsc (esdsData (aacConfigOf asc))).isEmpty with
  | true => rfl
  | false => exact congrArg (· :: []) ((hd _).trans han)

/-- **A presentation comes back** just if its samples and its AAC configuration can. -/
theorem presented_iff_presentable (h : Presentation cfg asc chunks.flatten)
    (hinit : ((new scale).cut chunks).InitFits)
    (hfits : SegmentsFit scale (baseOf chunks.flatten) chunks) :
    Presented scale cfg asc chunks ↔ Presentable asc chunks.flatten := by
  have hk : ∀ f ∈ chunks.flatten, Known f := fun f hf => known_of_presentation (h.known f hf)
  obtain ⟨hs, codec, hcd, hcf⟩ := @Presentation.final scale cfg asc chunks h
  obtain ⟨ht, hfr⟩ := tracks_of_configs hcd h.cfgValid hcf
  have hr := fromInitSegment_buildInitSegment hs hinit (by rw [ht]; exact cons_ne_nil _ _)
  have hvd : isVideo (configTrack 1 codec cfg ((new scale).cut chunks).videoTimescale.toNat).codec =
      true := by
    rcases hcd with rfl | rfl <;> rfl
  obtain ⟨parts, hpt, hv, ha⟩ :=
    @mapM_segments scale (baseOf chunks.flatten) ⟨((new scale).cut chunks).tracks⟩
    _ _ (by rw [ht]; rfl) (by rw [ht]; rfl) rfl rfl hvd chunks [] (.new scale)
    ⟨boundary_new _ _, hk, timestamp_of_head⟩ hfits
  -- the configuration is back when it comes out of the descriptors as it is
  have has : (cfg :: (if (extractAsc (esdsData (aacConfigOf asc))).isEmpty then [] else
      [extractAsc (esdsData (aacConfigOf asc))])).Perm [cfg, asc] ↔
      asc.length ≤ 5 ∧ ¬ (2 < asc.length ∧ asc.head? = some 0xAF) := by
    rw [← extractAsc_esdsData_iff h.ascValid.1 h.ascValid.2, perm_cons]
    generalize extractAsc (esdsData (aacConfigOf asc)) = found
    cases found with
    | nil =>
      refine iff_of_false (fun hpr => ?_) fun heq => ?_
      · cases hpr.length_eq
      · have hl := h.ascValid.1
        rw [← heq] at hl
        exact absurd hl (by decide)
    | cons x l => exact singleton_perm_singleton
  constructor
  · rintro ⟨d, hd, hcn, parts', hpt', hv', ha'⟩
    obtain rfl := Except.ok.inj (hr.symm.trans hd)
    obtain rfl := Except.ok.inj (hpt.symm.trans hpt')
    rw [hfr] at hcn
    exact ⟨(taken_eq_pushed_iff hk).mp ⟨hv.symm.trans hv', ha.symm.trans ha'⟩, has.mp hcn⟩
  · intro hp
    obtain ⟨hvq, haq⟩ := (taken_eq_pushed_iff hk).mpr hp.samples
    exact ⟨_, hr, hfr ▸ has.mpr hp.asc, parts, hpt, hv.trans hvq, ha.trans haq⟩

end

/-! ## Two presentations -/

/-- A presentation of one picture and two AAC frames, cut behind the picture. -/
def shortPresentation (asc : Bytes) : List (List MediaFrame) :=
  [[⟨1, .video, .h264, 0, 0, 0, [1, 0x42, 0, 0x1E, 0xFF, 0xE1, 0, 0], .avcc, true, true⟩,
      ⟨2, .audio, .aac, 0, 0, 0, asc, .aacAudioSpecificConfig, false, true⟩, picture 0],
    [sound 10, sound 33]]

theorem presentation_short {asc : Bytes} (h : 2 ≤ asc.length ∧ asc.length ≤ 64) :
    Presentation [1, 0x42, 0, 0x1E, 0xFF, 0xE1, 0, 0] asc (shortPresentation asc).flatten := by
  refine ⟨?_, ⟨_, mem_cons_self, rfl, rfl, rfl⟩,
    ⟨_, mem_cons_of_mem _ mem_cons_self, rfl, rfl, rfl, rfl⟩, rfl, h⟩
  simp only [shortPresentation, flatten_cons, cons_append, nil_append, forall_mem_cons]
  exact ⟨.inl ⟨rfl, rfl, rfl⟩, .inr (.inl ⟨rfl, rfl, rfl, rfl⟩), .inr (.inr (.inl ⟨rfl, _, rfl⟩)),
    .inr (.inr (.inr ⟨rfl, _, rfl⟩)), .inr (.inr (.inr ⟨rfl, _, rfl⟩)), forall_mem_nil _⟩

theorem presented_short : Presented 90000 [1, 0x42, 0, 0x1E, 0xFF, 0xE1, 0, 0] [0x12, 0x10]
    (shortPresentation [0x12, 0x10]) := by
  refine (presented_iff_presentable (presentation_short (by decide)) ?_ ?_).mpr ⟨?_, by decide⟩
  · rw [InitFits]
    decide +kernel
  · intro chunk hc
    simp only [shortPresentation, mem_cons, not_mem_nil, or_false] at hc
    rcases hc with rfl | rfl <;> exact ⟨by decide +kernel, by decide +kernel⟩
  · have hal : ∀ f ∈ (shortPresentation [0x12, 0x10]).flatten, isConfigFrame f = false := by decide
    exact fun f hf _ => hal f hf

/-- A configuration of six octets is not found inside the descriptor of fixed length. -/
theorem not_presented_six : ¬ Presented 90000 [1, 0x42, 0, 0x1E, 0xFF, 0xE1, 0, 0]
    [0x12, 0x10, 0x56, 0xE5, 0x00, 0x00]
    (shortPresentation [0x12, 0x10, 0x56, 0xE5, 0x00, 0x00]) := by
  rintro ⟨d, hd, hcn, -⟩
  obtain ⟨hs, codec, hcd, hcf⟩ := @Presentation.final 90000 _ _ _
    (@presentation_short [0x12, 0x10, 0x56, 0xE5, 0x00, 0x00] (by decide))
  obtain ⟨ht, hf⟩ := tracks_of_configs hcd rfl hcf
  have hr := fromInitSegment_buildInitSegment hs (by rw [InitFits]; decide +kernel)
    (by rw [ht]; exact cons_ne_nil _ _)
  obtain rfl := Except.ok.inj (hr.symm.trans hd)
  revert hcn
  decide +kernel

end MediaKit.Fmp4
