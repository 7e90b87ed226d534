import MediaKit.Fmp4.InitSegment
import MediaKit.Fmp4.Segments

/-!
# Runs of the fragmented muxer

A run is given by lists of frames: after each of them `flush_segment` is called. `Boundary` says
what the muxer holds after a flush: no samples, and the end of the latest sample as the start of
the next segment. `Boundary.demux` says what the reader then makes of the segment of the next list:
on each track the samples of that list, at a fixed distance from one another.
-/

namespace MediaKit.Fmp4

open MediaKit.Core Lib List Option Fmp4Muxer

/-- Frames pushed one after the other. -/
def Fmp4Muxer.pushFrames (m : Fmp4Muxer) (frames : List MediaFrame) : Fmp4Muxer :=
  frames.foldl pushFrame m

/-- The muxer after a run. -/
def Fmp4Muxer.cut (m : Fmp4Muxer) (chunks : List (List MediaFrame)) : Fmp4Muxer :=
  chunks.foldl (fun m chunk => (m.pushFrames chunk).flushSegment.2) m

/-- The segments of a run, each with the frames pushed since the last flush. -/
def Fmp4Muxer.segments : Fmp4Muxer → List (List MediaFrame) → List (List MediaFrame × Fmp4Segment)
  | _, [] => []
  | m, chunk :: rest =>
    let flushed := (m.pushFrames chunk).flushSegment
    (flushed.1.toList.map fun segment => (chunk, segment)) ++ flushed.2.segments rest

/-! ## Samples -/

/-- The sample that a frame becomes, if it is taken for one and its payload can be had. -/
def sampleOf (base duration : Nat) (f : MediaFrame) : Option Fmp4Sample :=
  if f.configFrame || isConfigFrame f then none
  else (samplePayload f).toOption.map fun data =>
    ⟨data, f.timestamp.toNat - base, duration, f.keyFrame⟩

variable (kind : FrameType)

/-- The samples of a track. -/
def samplesOf (base duration : Nat) (frames : List MediaFrame) : List Fmp4Sample :=
  (frames.filter (·.frameType == kind)).filterMap (sampleOf base duration)

/-- Where the latest sample ends, in ticks of the video track. -/
def latestEnd (timescale base : Nat) (frames : List MediaFrame) : Nat :=
  ((frames.filterMap (sampleOf base 0)).map fun s => s.timestamp * timescale / 1000 + timescale
    / 25).foldr max 0

/-- A frame of one of the two tracks. -/
def Known (f : MediaFrame) : Prop := f.frameType = .video ∨ f.frameType = .audio ∧ f.codec = .aac

theorem latestEnd_append (timescale base : Nat) (a b : List MediaFrame) :
    latestEnd timescale base (a ++ b) = max (latestEnd timescale base a)
      (latestEnd timescale base b) := by
  rw [latestEnd, filterMap_append, map_append, latestEnd, latestEnd]
  induction (a.filterMap (sampleOf base 0)).map _ with
  | nil => exact (Nat.zero_max _).symm
  | cons x l ih => rw [cons_append, foldr_cons, foldr_cons, ih, Nat.max_assoc]

theorem samplesOf_append (base duration : Nat) (a b : List MediaFrame) :
    samplesOf kind base duration (a ++ b) = samplesOf kind base duration a ++
      samplesOf kind base duration b := by
  rw [samplesOf, filter_append, filterMap_append, samplesOf, samplesOf]

/-- The muxer `m'` has got these frames since it was `m`. -/
structure Collected (base : UInt32) (m : Fmp4Muxer) (frames : List MediaFrame) (m' : Fmp4Muxer) :
    Prop where
  timescale : m'.videoTimescale = m.videoTimescale
  startTime : m'.segmentStartTime = m.segmentStartTime
  based : m'.baseTimestamp = if frames.isEmpty then m.baseTimestamp else some base
  video : m'.videoSamples = m.videoSamples ++ samplesOf .video base.toNat m.sampleDuration frames
  audio : m'.audioSamples = m.audioSamples ++ samplesOf .audio base.toNat m.sampleDuration frames
  total : m'.totalDuration = max m.totalDuration
    (latestEnd m.videoTimescale.toNat base.toNat frames)

section

variable {base : UInt32} {m m' m'' : Fmp4Muxer} {f : MediaFrame} {frames a b : List MediaFrame}
  {chunk seen : List MediaFrame} {scale : UInt32} {kind : FrameType}

theorem Collected.trans (h : Collected base m a m') (h' : Collected base m' b m'') :
    Collected base m (a ++ b) m'' := by
  have hd : m'.sampleDuration = m.sampleDuration := by
    rw [sampleDuration, h.timescale, sampleDuration]
  refine ⟨h'.timescale.trans h.timescale, h'.startTime.trans h.startTime, ?_, ?_, ?_, ?_⟩
  · rw [h'.based, h.based]
    cases a <;> cases b <;> rfl
  · rw [h'.video, h.video, hd, samplesOf_append, append_assoc]
  · rw [h'.audio, h.audio, hd, samplesOf_append, append_assoc]
  · rw [h'.total, h.total, h.timescale, latestEnd_append, Nat.max_assoc]

theorem samplesOf_singleton (base duration : Nat) (f : MediaFrame) :
    samplesOf kind base duration [f] =
    if f.frameType = kind then (sampleOf base duration f).toList else [] := by
  rw [samplesOf, filter_cons]
  by_cases hk : f.frameType = kind
  · rw [if_pos hk, if_pos (beq_iff_eq.mpr hk), filterMap_cons_eq_append]
    exact append_nil _
  · rw [if_neg hk, if_neg (by rwa [beq_iff_eq])]
    rfl

theorem latestEnd_singleton (timescale base : Nat) (f : MediaFrame) : latestEnd timescale base [f] =
    (sampleOf base 0 f).elim 0 fun s => s.timestamp * timescale / 1000 + timescale / 25 := by
  rw [latestEnd, filterMap_cons]
  cases sampleOf base 0 f with
  | none => rfl
  | some s => exact Nat.max_zero _

section

variable (hbase : m.baseTimestamp = some base)
include hbase

/-- A frame without a sample changes nothing. -/
theorem collected_of_none (hn : ∀ d, sampleOf base.toNat d f = none) : Collected base m [f] m := by
  refine ⟨rfl, rfl, hbase, ?_, ?_, ?_⟩
  · simp [samplesOf_singleton, hn]
  · simp [samplesOf_singleton, hn]
  · simp [latestEnd_singleton, hn]

theorem pushConfig_collected (hc : (f.configFrame || isConfigFrame f) = true) :
    Collected base m [f] (m.pushConfig f) := by
  have hn : ∀ d, sampleOf base.toNat d f = none := fun d => if_pos hc
  obtain ⟨-, -, -, hv, had, ht⟩ := collected_of_none hbase hn
  -- whichever branch is taken, only codecs and configurations change
  rw [pushConfig]
  split
  · split <;> exact ⟨rfl, rfl, hbase, hv, had, ht⟩
  · split <;> exact ⟨rfl, rfl, hbase, hv, had, ht⟩
  · exact ⟨rfl, rfl, hbase, hv, had, ht⟩

theorem pushSample_collected (hkw : Known f) (hsm : ¬ (f.configFrame || isConfigFrame f) = true) :
    Collected base m [f] (m.pushSample f) := by
  have hsO : ∀ d, sampleOf base.toNat d f =
      (samplePayload f).toOption.map fun data =>
        ⟨data, f.timestamp.toNat - base.toNat, d, f.keyFrame⟩ := fun d => if_neg hsm
  rw [pushSample, hbase]
  cases hp : samplePayload f with
  | error e =>
    rw [hp] at hsO
    exact collected_of_none hbase hsO
  | ok data =>
    rw [hp] at hsO
    rcases hkw with hkn | ⟨hkn, -⟩
    · rw [hkn]
      refine ⟨rfl, rfl, rfl, ?_, ?_, ?_⟩
      · rw [samplesOf_singleton, if_pos hkn, hsO]
        rfl
      · simp [samplesOf_singleton, hkn]
      · rw [latestEnd_singleton, hsO]
        rfl
    · rw [hkn]
      refine ⟨rfl, rfl, rfl, ?_, ?_, ?_⟩
      · simp [samplesOf_singleton, hkn]
      · rw [samplesOf_singleton, if_pos hkn, hsO]
        rfl
      · rw [latestEnd_singleton, hsO]
        rfl

end

/-- **One frame.** -/
theorem pushFrame_collected (hbase : m.baseTimestamp.getD f.timestamp = base) (hk : Known f) :
    Collected base m [f] (m.pushFrame f) := by
  have hse : m.baseTimestamp.or (some f.timestamp) = some base := by
    rw [← hbase]
    cases m.baseTimestamp <;> rfl
  -- the base is set before the frame is looked at
  have hst : Collected base { m with baseTimestamp := some base } [f] (m.pushFrame f) := by
    rw [pushFrame, hse]
    by_cases hc : (f.configFrame || isConfigFrame f) = true
    · rw [if_pos hc]
      exact pushConfig_collected rfl hc
    · rw [if_neg hc]
      exact pushSample_collected rfl hk hc
  exact ⟨hst.timescale, hst.startTime, hst.based, hst.video, hst.audio, hst.total⟩

/-- The first frame sets the base. -/
def StartsAt (base : UInt32) (m : Fmp4Muxer) (frames : List MediaFrame) : Prop :=
  ∀ f ∈ frames.head?, m.baseTimestamp.getD f.timestamp = base

theorem Collected.startsAt (h : Collected base m a m') (hs : StartsAt base m (a ++ b)) :
    StartsAt base m' b := by
  intro f hf
  rw [h.based]
  cases a with
  | nil => exact hs f hf
  | cons => rfl

/-- **Any number of frames.** -/
theorem pushFrames_collected (hk : ∀ f ∈ frames, Known f) :
    ∀ {m : Fmp4Muxer}, StartsAt base m frames →
    Collected base m frames (m.pushFrames frames) := by
  induction frames with
  | nil =>
    intro m _
    refine ⟨rfl, rfl, rfl, ?_, ?_, ?_⟩
    · exact (append_nil _).symm
    · exact (append_nil _).symm
    · exact (Nat.max_zero _).symm
  | cons f frames ih =>
    intro m hs
    have ho := pushFrame_collected (hs f rfl) (hk f mem_cons_self)
    have hs' : StartsAt base (m.pushFrame f) frames := ho.startsAt hs
    exact ho.trans (ih (fun g hg => hk g (mem_cons_of_mem f hg)) hs')

/-! ## Flushes -/

/-- What the muxer holds after a flush, when it has seen these frames. -/
structure Boundary (scale base : UInt32) (seen : List MediaFrame) (m : Fmp4Muxer) : Prop where
  timescale : m.videoTimescale = scale
  startTime : m.segmentStartTime = latestEnd scale.toNat base.toNat seen
  total : m.totalDuration = latestEnd scale.toNat base.toNat seen
  video : m.videoSamples = []
  audio : m.audioSamples = []
  based : m.baseTimestamp = if seen.isEmpty then none else some base

theorem boundary_new (scale base : UInt32) : Boundary scale base [] (.new scale) :=
  ⟨rfl, rfl, rfl, rfl, rfl, rfl⟩

theorem Boundary.startsAt {rest : List MediaFrame} (h : Boundary scale base seen m)
    (hfr : ∀ f ∈ (seen ++ rest).head?, f.timestamp = base) : StartsAt base m rest := by
  intro f hf
  rw [h.based]
  cases seen with
  | nil => exact hfr f hf
  | cons => rfl

theorem samplesOf_eq_nil_iff {kind : FrameType} {b b' d d' : Nat} {frames : List MediaFrame} :
    samplesOf kind b d frames = [] ↔ samplesOf kind b' d' frames = [] := by
  have hn : ∀ f : MediaFrame, sampleOf b d f = none ↔ sampleOf b' d' f = none := by
    intro f
    rw [sampleOf, sampleOf]
    split
    · exact Iff.rfl
    · rw [map_eq_none_iff, map_eq_none_iff]
  rw [samplesOf, samplesOf, filterMap_eq_nil_iff, filterMap_eq_nil_iff]
  exact forall₂_congr fun f _ => hn f

theorem latestEnd_eq_zero {timescale b : Nat} (hkw : ∀ f ∈ frames, Known f) {d : Nat}
    (hv : samplesOf .video b d frames = []) (ha : samplesOf .audio b d frames = []) :
    latestEnd timescale b frames = 0 := by
  have hn : frames.filterMap (sampleOf b 0) = [] := by
    rw [@samplesOf_eq_nil_iff _ b b d 0, samplesOf, filterMap_eq_nil_iff] at hv ha
    rw [filterMap_eq_nil_iff]
    intro f hf
    rcases hkw f hf with hkn | ⟨hkn, -⟩
    · exact hv f (mem_filter.mpr ⟨hf, beq_iff_eq.mpr hkn⟩)
    · exact ha f (mem_filter.mpr ⟨hf, beq_iff_eq.mpr hkn⟩)
  rw [latestEnd, hn]
  rfl

/-- **A list of frames and a flush.** -/
theorem Boundary.step (h : Boundary scale base seen m)
    (hk : ∀ f ∈ chunk, Known f) (hs : StartsAt base m chunk) :
    Boundary scale base (seen ++ chunk) (m.pushFrames chunk).flushSegment.2 := by
  have hc := pushFrames_collected hk hs
  have hv := hc.video
  have had := hc.audio
  have ht := hc.total
  rw [h.video, nil_append] at hv
  rw [h.audio, nil_append] at had
  rw [h.total, h.timescale, ← latestEnd_append] at ht
  have hb : (m.pushFrames chunk).baseTimestamp = if (seen ++ chunk).isEmpty then none
      else some base := by
    rw [hc.based, h.based]
    cases seen <;> cases chunk <;> rfl
  rw [flushSegment]
  split
  next he =>
    -- nothing was pushed that could have moved the end
    rw [hv, had, List.isEmpty_iff, List.isEmpty_iff] at he
    refine ⟨hc.timescale.trans h.timescale, ?_, ht, hv.trans he.1, had.trans he.2, hb⟩
    rw [hc.startTime, h.startTime, latestEnd_append, latestEnd_eq_zero hk he.1 he.2, Nat.max_zero]
  next =>
    exact ⟨hc.timescale.trans h.timescale, ht, ht, rfl, rfl, hb⟩

/-- A run that goes on with these lists of frames. -/
structure Ahead (scale base : UInt32) (seen : List MediaFrame) (m : Fmp4Muxer)
    (chunks : List (List MediaFrame)) : Prop where
  boundary : Boundary scale base seen m
  known : ∀ f ∈ chunks.flatten, Known f
  first : ∀ f ∈ (seen ++ chunks.flatten).head?, f.timestamp = base

theorem Ahead.cons {chunks : List (List MediaFrame)}
    (h : Ahead scale base seen m (chunk :: chunks)) :
    (∀ f ∈ chunk, Known f) ∧ StartsAt base m chunk ∧
      Ahead scale base (seen ++ chunk) (m.pushFrames chunk).flushSegment.2 chunks := by
  obtain ⟨hb, hk, hfr⟩ := h
  rw [flatten_cons] at hk hfr
  rw [← append_assoc] at hfr
  obtain ⟨hk, hl⟩ := forall_mem_append.mp hk
  have hs := hb.startsAt fun f hf => hfr f (mem_head?_append_of_mem_head? hf)
  exact ⟨hk, hs, hb.step hk hs, hl, hfr⟩

theorem Boundary.segment {seg : Fmp4Segment} (h : Boundary scale base seen m)
    (hk : ∀ f ∈ chunk, Known f) (hst : StartsAt base m chunk)
    (hsg : (m.pushFrames chunk).flushSegment.1 = some seg) :
    seg.data = buildMediaSegment (m.pushFrames chunk).segmentSeq
      (latestEnd scale.toNat base.toNat seen) (samplesOf .video base.toNat (scale.toNat / 25) chunk)
      (samplesOf .audio base.toNat (scale.toNat / 25) chunk) := by
  have hc := pushFrames_collected hk hst
  have hd : m.sampleDuration = scale.toNat / 25 := by rw [sampleDuration, h.timescale]
  have hv := hc.video
  have had := hc.audio
  have hf := hc.startTime
  rw [h.video, nil_append, hd] at hv
  rw [h.audio, nil_append, hd] at had
  rw [h.startTime] at hf
  rw [flushSegment] at hsg
  split at hsg
  · cases hsg
  · rw [← some.inj hsg]
    dsimp only
    rw [hv, had, hf]

theorem Boundary.segment_eq_none_iff (h : Boundary scale base seen m)
    (hk : ∀ f ∈ chunk, Known f) (hs : StartsAt base m chunk) :
    (m.pushFrames chunk).flushSegment.1 = none ↔
    samplesOf .video base.toNat (scale.toNat / 25) chunk = [] ∧
      samplesOf .audio base.toNat (scale.toNat / 25) chunk = [] := by
  have hc := pushFrames_collected hk hs
  have hd : m.sampleDuration = scale.toNat / 25 := by rw [sampleDuration, h.timescale]
  have hv := hc.video
  have had := hc.audio
  rw [h.video, nil_append, hd] at hv
  rw [h.audio, nil_append, hd] at had
  rw [← hv, ← had, flushSegment, ← List.isEmpty_iff, ← List.isEmpty_iff]
  split
  next he => exact iff_of_true rfl he
  next he => exact iff_of_false (some_ne_none _) he

/-! ## Numbers -/

theorem latestEnd_lt (scale base : UInt32) (frames : List MediaFrame) :
    latestEnd scale.toNat base.toNat frames < 2 ^ 63 := by
  have ho : ∀ s ∈ frames.filterMap (sampleOf base.toNat 0),
      s.timestamp * scale.toNat / 1000 + scale.toNat / 25 < 2 ^ 63 := by
    intro s hs
    obtain ⟨f, -, hf⟩ := mem_filterMap.mp hs
    have hts : s.timestamp ≤ 2 ^ 32 := by
      rw [sampleOf] at hf
      split at hf
      · cases hf
      · obtain ⟨data, -, rfl⟩ := map_eq_some_iff.mp hf
        have hlt := f.timestamp.toNat_lt
        show f.timestamp.toNat - base.toNat ≤ 2 ^ 32
        omega
    have hsc := scale.toNat_lt
    have hm : s.timestamp * scale.toNat ≤ 2 ^ 32 * 2 ^ 32 := Nat.mul_le_mul hts (Nat.le_of_lt hsc)
    omega
  rw [latestEnd]
  generalize frames.filterMap (sampleOf base.toNat 0) = samples at ho
  induction samples with
  | nil => exact Nat.two_pow_pos 63
  | cons s l ih =>
    rw [map_cons, foldr_cons]
    exact Nat.max_lt.mpr ⟨ho s mem_cons_self, ih fun t ht => ho t (mem_cons_of_mem s ht)⟩

theorem duration_of_mem_samplesOf {b d : Nat} {s : Fmp4Sample}
    (hs : s ∈ samplesOf kind b d frames) : s.duration = d := by
  obtain ⟨f, -, hf⟩ := mem_filterMap.mp hs
  rw [sampleOf] at hf
  split at hf
  · cases hf
  · obtain ⟨data, -, rfl⟩ := map_eq_some_iff.mp hf
    rfl

/-- **What the reader makes of a segment.** -/
theorem Boundary.demux {seg : Fmp4Segment} {d : Fmp4Demuxer}
    {vt at' : FragmentTrack} (h : Boundary scale base seen m) (hk : ∀ f ∈ chunk, Known f)
    (hst : StartsAt base m chunk)
    (hsg : (m.pushFrames chunk).flushSegment.1 = some seg) (hvd : vt.id = 1) (had : at'.id = 2)
    (hv : samplesOf .video base.toNat (scale.toNat / 25) chunk ≠ [] → d.tracks.lookup 1 = some vt)
    (ha : samplesOf .audio base.toNat (scale.toNat / 25) chunk ≠ [] → d.tracks.lookup 2 = some at')
    (hf : SegmentFits (samplesOf .video base.toNat (scale.toNat / 25) chunk)
      (samplesOf .audio base.toNat (scale.toNat / 25) chunk)) :
    ∃ frames, d.demuxFragment seg.data = .ok frames ∧
      frames.filter (·.trackId == 1) = framesFrom vt (latestEnd scale.toNat base.toNat seen)
        (samplesOf .video base.toNat (scale.toNat / 25) chunk) ∧
      frames.filter (·.trackId == 2) = framesFrom at' (latestEnd scale.toNat base.toNat seen)
        (samplesOf .audio base.toNat (scale.toNat / 25) chunk) := by
  have hd : ∀ s ∈ samplesOf .video base.toNat (scale.toNat / 25) chunk ++
      samplesOf .audio base.toNat (scale.toNat / 25) chunk, s.duration < 2 ^ 32 := by
    intro s hs
    have heq : s.duration = scale.toNat / 25 := by
      rcases mem_append.mp hs with hs | hs
      · exact duration_of_mem_samplesOf hs
      · exact duration_of_mem_samplesOf hs
    have hsc := scale.toNat_lt
    omega
  rw [h.segment hk hst hsg]
  exact demuxFragment_buildMediaSegment hvd had hv ha
    (lt_trans (latestEnd_lt scale base seen) (by decide)) hf hd

/-! ## Configurations -/

/-- The frame is taken for a configuration, and it holds one. -/
def GivesConfig (f : MediaFrame) : Prop :=
  (f.configFrame || isConfigFrame f) = true ∧
    ((f.frameType = .video ∧ ∃ c, videoDecoderConfig f = .ok c) ∨
      (f.frameType = .audio ∧ ∃ c, aacAudioSpecificConfig f = .ok c))

/-- The muxer has a configuration for the track. -/
def Fmp4Muxer.Holds (m : Fmp4Muxer) : FrameType → Prop
  | .video => ∃ codec config, m.videoCodec = some codec ∧ m.videoConfig = some config
  | .audio => ∃ codec config, m.audioCodec = some codec ∧ m.audioConfig = some config
  | .metadata => True

/-- The codecs and configurations of the tracks. -/
def Fmp4Muxer.configs (m : Fmp4Muxer) :
    (Option CodecId × Option Bytes) × (Option CodecId × Option Bytes) :=
  ((m.videoCodec, m.videoConfig), (m.audioCodec, m.audioConfig))

/-- The codec and the configuration of one track. -/
def Fmp4Muxer.config (m : Fmp4Muxer) : FrameType → Option CodecId × Option Bytes
  | .video => m.configs.1
  | .audio => m.configs.2
  | .metadata => (none, none)

/-- The configuration that a frame brings for a track. -/
def configOf : FrameType → MediaFrame → Option Bytes
  | .video, f => if (f.configFrame || isConfigFrame f) ∧
      f.frameType = .video then (videoDecoderConfig f).toOption else none
  | .audio, f => if (f.configFrame || isConfigFrame f) ∧
    f.frameType = .audio then (aacAudioSpecificConfig f).toOption else none
  | .metadata, _ => none

/-- **What some frames do to the configurations**: each track has what it had, or what one of the
frames brought. -/
def Configured (frames : List MediaFrame) (m m' : Fmp4Muxer) : Prop :=
  ∀ kind, (m'.config kind = m.config kind ∧ ∀ f ∈ frames, configOf kind f = none) ∨
    ∃ f ∈ frames, ∃ c, configOf kind f = some c ∧ m'.config kind = (some f.codec, some c)

theorem configured_of_configs (h : m'.configs = m.configs) : Configured [] m m' := by
  intro kind
  refine .inl ⟨?_, forall_mem_nil _⟩
  cases kind with
  | video | audio => simp only [config, h]
  | metadata => rfl

theorem Configured.trans (h : Configured a m m') (h' : Configured b m' m'') :
    Configured (a ++ b) m m'' := by
  intro kind
  rcases h' kind with ⟨hsm', hno'⟩ | ⟨f, hf, c, hc, hst⟩
  · rcases h kind with ⟨hsm, hno⟩ | ⟨f, hf, c, hc, hst⟩
    · exact .inl ⟨hsm'.trans hsm, forall_mem_append.mpr ⟨hno, hno'⟩⟩
    · exact .inr ⟨f, mem_append_left _ hf, c, hc, hsm'.trans hst⟩
  · exact .inr ⟨f, mem_append_right _ hf, c, hc, hst⟩

theorem pushFrame_configured (hkw : Known f) : Configured [f] m (m.pushFrame f) := by
  intro kind
  have hs : (m.pushFrame f).config kind =
      ((configOf kind f).map fun c => (some f.codec, some c)).getD (m.config kind) := by
    rw [pushFrame]
    by_cases hcn : (f.configFrame || isConfigFrame f) = true
    · rw [if_pos hcn, pushConfig]
      rcases hkw with hkn | ⟨hkn, hcd⟩
      · cases hok : videoDecoderConfig f <;> cases kind <;>
          simp [configOf, config, configs, hkn, hcn, hok, Except.toOption]
      · cases hok : aacAudioSpecificConfig f <;> cases kind <;>
          simp [configOf, config, configs, hkn, hcd, hcn, hok, Except.toOption]
    · -- a sample leaves the configurations as they are
      have hn : configOf kind f = none := by cases kind <;> simp [configOf, hcn]
      rw [if_neg hcn, hn, pushSample]
      cases samplePayload f with
      | error e => cases kind <;> rfl
      | ok data => cases f.frameType <;> cases kind <;> rfl
  cases hc : configOf kind f with
  | none =>
    rw [hc] at hs
    exact .inl ⟨hs, fun g hg => mem_singleton.mp hg ▸ hc⟩
  | some c =>
    rw [hc] at hs
    exact .inr ⟨f, mem_singleton_self f, c, hc, hs⟩

theorem pushFrames_configured (hk : ∀ f ∈ frames, Known f) :
    ∀ {m : Fmp4Muxer}, Configured frames m (m.pushFrames frames) := by
  induction frames with
  | nil => exact configured_of_configs rfl
  | cons f frames ih =>
    exact (pushFrame_configured (hk f mem_cons_self)).trans
      (ih fun g hg => hk g (mem_cons_of_mem f hg))

/-- **The configurations after a run.** -/
theorem cut_configured {chunks : List (List MediaFrame)} (hk : ∀ f ∈ chunks.flatten, Known f) :
    ∀ {m : Fmp4Muxer}, Configured chunks.flatten m (m.cut chunks) := by
  induction chunks with
  | nil => exact configured_of_configs rfl
  | cons chunk chunks ih =>
    intro m
    obtain ⟨hc, hl⟩ := forall_mem_append.mp hk
    have hf : (m.pushFrames chunk).flushSegment.2.configs = (m.pushFrames chunk).configs := by
      rw [flushSegment]
      split <;> rfl
    have ho := (pushFrames_configured hc).trans (configured_of_configs hf)
    rw [append_nil] at ho
    exact ho.trans (ih hl)

theorem Configured.supported (h : Configured frames (.new scale) m) (hkw : ∀ f ∈ frames, Known f) :
    m.Supported := by
  constructor
  · intro c hc
    rcases h .video with ⟨hsm, -⟩ | ⟨f, hf, config, hcn, hst⟩
    · cases (congrArg Prod.fst hsm).symm.trans hc
    · obtain rfl := some.inj ((congrArg Prod.fst hst).symm.trans hc)
      by_contra hno
      rw [configOf, videoDecoderConfig, if_pos (not_or.mp hno)] at hcn
      split at hcn <;> cases hcn
  · intro c hc
    rcases h .audio with ⟨hsm, -⟩ | ⟨f, hf, config, hcn, hst⟩
    · cases (congrArg Prod.fst hsm).symm.trans hc
    · obtain rfl := some.inj ((congrArg Prod.fst hst).symm.trans hc)
      rw [configOf] at hcn
      split at hcn
      next ht => exact (hkw f hf).elim (fun hkn => by cases hkn.symm.trans ht.2) And.right
      next => cases hcn

theorem Configured.holds (h : Configured frames m m') (hf : f ∈ frames) (hg : GivesConfig f) :
    m'.Holds f.frameType := by
  obtain ⟨ht, hcn⟩ := hg
  rcases h f.frameType with ⟨-, hno⟩ | ⟨g, -, c, -, hs⟩
  · have hnon := hno f hf
    rcases hcn with ⟨hk, c, hc⟩ | ⟨hk, c, hc⟩
    · rw [hk, configOf, if_pos ⟨ht, hk⟩, hc] at hnon
      cases hnon
    · rw [hk, configOf, if_pos ⟨ht, hk⟩, hc] at hnon
      cases hnon
  · cases hk : f.frameType with
    | video | audio =>
      rw [hk] at hs
      exact ⟨_, _, congrArg Prod.fst hs, congrArg Prod.snd hs⟩
    | metadata => trivial

/-! ## The reader of a run -/

theorem lookup_video (h : m.Holds .video) : ∃ track, m.tracks.lookup 1 = some track ∧ track.id = 1 ∧
    track.timescale = max m.videoTimescale.toNat 1 := by
  obtain ⟨codec, config, hcd, hcn⟩ := h
  refine ⟨configTrack 1 codec config m.videoTimescale.toNat, ?_, rfl, rfl⟩
  rw [tracks, traks, hcd, hcn]
  rfl

theorem lookup_audio (h : m.Holds .audio) : ∃ track, m.tracks.lookup 2 = some track ∧ track.id = 2 ∧
    track.timescale = 44100 := by
  obtain ⟨codec, config, hcd, hcn⟩ := h
  refine ⟨configTrack 2 codec config audioSampleRate, ?_, rfl, rfl⟩
  rw [tracks, traks, hcd, hcn]
  split <;> rfl

theorem tracks_ne_nil (hk : kind ≠ .metadata) (h : m.Holds kind) : m.tracks ≠ [] := by
  intro hnil
  cases kind with
  | video =>
    obtain ⟨track, hl, -⟩ := lookup_video h
    rw [hnil] at hl
    cases hl
  | audio =>
    obtain ⟨track, hl, -⟩ := lookup_audio h
    rw [hnil] at hl
    cases hl
  | metadata => exact hk rfl

end

end MediaKit.Fmp4
