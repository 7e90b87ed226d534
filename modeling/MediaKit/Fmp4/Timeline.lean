import MediaKit.Fmp4.Stream

/-!
# The clock of a fragmented stream

A segment holds one start time for both tracks, in ticks of the video track, and every sample has
the duration of a picture at 25 pictures a second, in the same ticks. The reader divides the
ticks of the audio track by 44100. `onTime_iff_keepsPace` says when the times come back: when
the timestamps of each list of frames follow that clock, which begins anew where the latest sample
of the earlier segments ends.
-/

namespace MediaKit.Fmp4

open MediaKit.Core Lib List Option Fmp4Muxer

/-- The frames of a track that become samples. -/
def taken (kind : FrameType) (frames : List MediaFrame) : List MediaFrame :=
  frames.filter fun f => f.frameType == kind && (sampleOf 0 0 f).isSome

/-- The reported frame is off by at most a millisecond. -/
def Close (base : UInt32) (reported pushed : MediaFrame) : Prop :=
  ((reported.dts.toNat : Int) - ((pushed.timestamp.toNat : Int) - base.toNat)).natAbs ≤ 1

/-- **The times come back**: on both tracks of every segment, as read with the init segment. -/
def OnTime (scale : UInt32) (chunks : List (List MediaFrame)) (tail : List MediaFrame) : Prop :=
  let muxer := ((new scale).cut chunks).pushFrames tail
  let base := muxer.baseTimestamp.getD 0
  ∀ p ∈ (new scale).segments chunks, ∃ d frames,
    fromInitSegment muxer.initSegment.data = .ok d ∧ d.demuxFragment p.2.data = .ok frames ∧
    Forall₂ (Close base) (frames.filter (·.trackId == 1)) (taken .video p.1) ∧
    Forall₂ (Close base) (frames.filter (·.trackId == 2)) (taken .audio p.1)

/-- Frames of the two tracks, each sample behind a configuration of its track. -/
structure Stream (frames : List MediaFrame) : Prop where
  known : ∀ f ∈ frames, Known f
  configured : ∀ before f after, frames = before ++ f :: after → (sampleOf 0 0 f).isSome →
    ∃ g ∈ before, GivesConfig g ∧ g.frameType = f.frameType

/-- The frames follow a clock that shows `start` at the first of them and goes on by `duration`. -/
def Paced (start duration timescale : Nat) (base : UInt32) (frames : List MediaFrame) : Prop :=
  ∀ p ∈ frames.zipIdx, ((ticksToMs (start + p.2 * duration) timescale : Int) -
    ((p.1.timestamp.toNat : Int) - base.toNat)).natAbs ≤ 1

/-- Both tracks of every list follow the clock. -/
def KeepsPace (scale base : UInt32) : List MediaFrame → List (List MediaFrame) → Prop
  | _, [] => True
  | seen, chunk :: rest =>
    Paced (latestEnd scale.toNat base.toNat seen) (scale.toNat / 25) (max scale.toNat 1) base
      (taken .video chunk) ∧
      Paced (latestEnd scale.toNat base.toNat seen) (scale.toNat / 25) 44100 base
        (taken .audio chunk) ∧
      KeepsPace scale base (seen ++ chunk) rest

/-- Every segment fits into its fields. -/
def SegmentsFit (scale base : UInt32) (chunks : List (List MediaFrame)) : Prop :=
  ∀ chunk ∈ chunks, SegmentFits (samplesOf .video base.toNat (scale.toNat / 25) chunk)
    (samplesOf .audio base.toNat (scale.toNat / 25) chunk)

/-! ## One segment -/

section

variable {scale base : UInt32} {m : Fmp4Muxer} {seen chunk : List MediaFrame}
  {chunks : List (List MediaFrame)} {frames : List MediaFrame} {d : Fmp4Demuxer}

theorem isSome_sampleOf (b d : Nat) (f : MediaFrame) :
    (sampleOf b d f).isSome = (sampleOf 0 0 f).isSome := by
  rw [sampleOf, sampleOf]
  split
  · rfl
  · rw [isSome_map, isSome_map]

theorem length_taken (kind : FrameType) (b d : Nat) (frames : List MediaFrame) :
    (taken kind frames).length = (samplesOf kind b d frames).length := by
  rw [taken, samplesOf, length_filterMap_eq_countP, ← countP_eq_length_filter, countP_filter]
  apply countP_congr
  intro f _
  rw [isSome_sampleOf b d f, Bool.and_comm]

theorem forall₂_framesFrom_iff {track : FragmentTrack} {start duration : Nat}
    (samples : List Fmp4Sample) :
    ∀ {frames : List MediaFrame} {k : Nat}, frames.length = samples.length →
    (∀ s ∈ samples, s.duration = duration) →
      start + (k + samples.length) * duration < 2 ^ 64 →
      (Forall₂ (Close base) (framesFrom track (start + k * duration) samples) frames ↔
        ∀ p ∈ frames.zipIdx k, ((ticksToMs (start + p.2 * duration) track.timescale : Int) -
          ((p.1.timestamp.toNat : Int) - base.toNat)).natAbs ≤ 1) := by
  induction samples with
  | nil =>
    intro frames k hlen _ _
    obtain rfl := length_eq_zero_iff.mp hlen
    exact iff_of_true Forall₂.nil fun p hp => absurd hp not_mem_nil
  | cons s samples ih =>
    intro frames k hlen hd hlt
    cases frames with
    | nil => cases hlen
    | cons g frames =>
      have hs := hd s mem_cons_self
      rw [length_cons, show k + (samples.length + 1) = (k + 1) + samples.length by omega] at hlt
      have hr := @ih frames (k + 1) (Nat.succ.inj hlen)
        (fun t ht => hd t (mem_cons_of_mem s ht)) hlt
      have hn : min (start + k * duration + s.duration) (2 ^ 64 - 1) =
          start + (k + 1) * duration := by
        rw [hs, add_assoc, ← Nat.add_one_mul]
        have hle : (k + 1) * duration ≤ (k + 1 + samples.length) * duration :=
          Nat.mul_le_mul_right _ (Nat.le_add_right _ _)
        exact min_eq_left (by omega)
      rw [framesFrom, forall₂_cons, hn, hr, zipIdx_cons, forall_mem_cons, Close,
        (trackFrame_dts _ _ _ _ _).1, UInt64.toNat_ofNat_of_lt' (ticksToMs_lt _ _)]

/-- There are fewer samples than octets of `moof`. -/
theorem SegmentFits.length_lt {video audio : List Fmp4Sample} (h : SegmentFits video audio) :
    video.length < 2 ^ 31 ∧ audio.length < 2 ^ 31 := by
  have ho := h.offset
  rw [buildMoof, length_box rfl] at ho
  have hle : ∀ {id o : Nat} {samples : List Fmp4Sample}, buildTraf id 0 samples o ∈
    moofBoxes 0 0 video audio 0 →
      samples.length < 2 ^ 31 := by
    intro id o samples hin
    have hb := length_body_le hin
    rw [buildTraf, length_boxes_trafBoxes] at hb
    omega
  constructor
  · cases hv : video with
    | nil => exact Nat.two_pow_pos 31
    | cons s l =>
      apply @hle 1 0 (s :: l)
      rw [hv]
      exact mem_append_left _ (mem_append_right _ mem_cons_self)
  · cases ha : audio with
    | nil => exact Nat.two_pow_pos 31
    | cons s l =>
      apply @hle 2 (0 + (video.map (·.data.length)).sum) (s :: l)
      rw [ha]
      exact mem_append_right _ mem_cons_self

theorem forall₂_track_iff {track : FragmentTrack} {kind : FrameType}
    (hc : (samplesOf kind base.toNat (scale.toNat / 25) chunk).length < 2 ^ 31) :
    Forall₂ (Close base) (framesFrom track (latestEnd scale.toNat base.toNat seen)
      (samplesOf kind base.toNat (scale.toNat / 25) chunk)) (taken kind chunk) ↔
      Paced (latestEnd scale.toNat base.toNat seen)
        (scale.toNat / 25) track.timescale base (taken kind chunk) := by
  have hst := latestEnd_lt scale base seen
  have hsc := scale.toNat_lt
  have hlt : (samplesOf kind base.toNat (scale.toNat / 25) chunk).length * (scale.toNat / 25) ≤
      2 ^ 31 * 2 ^ 31 :=
    Nat.mul_le_mul (Nat.le_of_lt hc) (by omega)
  have hi := @forall₂_framesFrom_iff base track (latestEnd scale.toNat base.toNat seen)
    (scale.toNat / 25) (samplesOf kind base.toNat (scale.toNat / 25) chunk)
    (taken kind chunk) 0 (length_taken kind _ _ chunk)
    (fun s hs => duration_of_mem_samplesOf hs) (by rw [zero_add]; omega)
  rwa [zero_mul, add_zero] at hi

/-- The reader has the tracks of these frames. -/
structure ReadsTracks (scale : UInt32) (d : Fmp4Demuxer) (frames : List MediaFrame) : Prop where
  video : taken .video frames ≠ [] → ∃ track, d.tracks.lookup 1 = some track ∧ track.id = 1 ∧
    track.timescale = max scale.toNat 1
  audio : taken .audio frames ≠ [] → ∃ track, d.tracks.lookup 2 = some track ∧ track.id = 2 ∧
    track.timescale = 44100

theorem samplesOf_ne_nil_iff {kind : FrameType} {b d : Nat} :
    samplesOf kind b d frames ≠ [] ↔ taken kind frames ≠ [] := by
  rw [← length_pos_iff, ← length_pos_iff, length_taken kind b d]

theorem exists_track {P : Prop} {id timescale : Nat}
    (h : P → ∃ track, d.tracks.lookup id = some track ∧ track.id = id ∧ track.timescale =
      timescale) :
    ∃ track, (P → d.tracks.lookup id = some track) ∧ track.id = id ∧ track.timescale =
      timescale := by
  by_cases hp : P
  · obtain ⟨track, hl, hid, hs⟩ := h hp
    exact ⟨track, fun _ => hl, hid, hs⟩
  · exact ⟨⟨id, .h264, timescale, []⟩, fun hp' => absurd hp' hp, rfl, rfl⟩

/-- **One segment is on time** just if both tracks follow the clock. -/
theorem segment_onTime_iff {seg : Fmp4Segment} (h : Boundary scale base seen m)
    (hk : ∀ f ∈ chunk, Known f) (hst : StartsAt base m chunk)
    (hsg : (m.pushFrames chunk).flushSegment.1 = some seg) (htr : ReadsTracks scale d chunk)
    (hf : SegmentFits (samplesOf .video base.toNat (scale.toNat / 25) chunk)
      (samplesOf .audio base.toNat (scale.toNat / 25) chunk)) :
    (∃ frames, d.demuxFragment seg.data = .ok frames ∧
      Forall₂ (Close base) (frames.filter (·.trackId == 1)) (taken .video chunk) ∧
      Forall₂ (Close base) (frames.filter (·.trackId == 2)) (taken .audio chunk)) ↔
      Paced (latestEnd scale.toNat base.toNat seen) (scale.toNat / 25)
        (max scale.toNat 1) base (taken .video chunk) ∧
      Paced (latestEnd scale.toNat base.toNat seen)
        (scale.toNat / 25) 44100 base (taken .audio chunk) := by
  obtain ⟨vt, hv, hvi, hvs⟩ := exists_track htr.video
  obtain ⟨at', ha, hai, has⟩ := exists_track htr.audio
  obtain ⟨frames, hd, ho, htw⟩ := h.demux hk hst hsg hvi hai
    (fun hne => hv (samplesOf_ne_nil_iff.mp hne)) (fun hne => ha (samplesOf_ne_nil_iff.mp hne)) hf
  have hvd := @forall₂_track_iff scale base seen chunk vt .video hf.length_lt.1
  have had := @forall₂_track_iff scale base seen chunk at' .audio hf.length_lt.2
  rw [hvs] at hvd
  rw [has] at had
  constructor
  · rintro ⟨frames', hd', hv', ha'⟩
    obtain rfl := Except.ok.inj (hd.symm.trans hd')
    rw [ho] at hv'
    rw [htw] at ha'
    exact ⟨hvd.mp hv', had.mp ha'⟩
  · rintro ⟨hv', ha'⟩
    refine ⟨frames, hd, ?_, ?_⟩
    · rw [ho]
      exact hvd.mpr hv'
    · rw [htw]
      exact had.mpr ha'

/-! ## A run -/

theorem paced_nil (start duration timescale : Nat) : Paced start duration timescale base [] :=
  fun _ hp => absurd hp not_mem_nil

/-- What is on time of a run of segments. -/
def RunOnTime (base : UInt32) (d : Fmp4Demuxer) (m : Fmp4Muxer) (chunks : List (List MediaFrame)) :
    Prop :=
  ∀ p ∈ m.segments chunks, ∃ frames, d.demuxFragment p.2.data = .ok frames ∧
    Forall₂ (Close base) (frames.filter (·.trackId == 1)) (taken .video p.1) ∧
    Forall₂ (Close base) (frames.filter (·.trackId == 2)) (taken .audio p.1)

theorem ReadsTracks.mono {part : List MediaFrame} (h : ReadsTracks scale d frames)
    (hs : ∀ f ∈ part, f ∈ frames) : ReadsTracks scale d part := by
  have hne : ∀ kind, taken kind part ≠ [] → taken kind frames ≠ [] := by
    intro kind hp
    obtain ⟨f, hf⟩ := exists_mem_of_ne_nil _ hp
    obtain ⟨hmem, ht⟩ := mem_filter.mp hf
    exact ne_nil_of_mem (mem_filter.mpr ⟨hs f hmem, ht⟩)
  exact ⟨fun hp => h.video (hne .video hp), fun hp => h.audio (hne .audio hp)⟩

theorem runOnTime_iff (chunks : List (List MediaFrame)) :
    ∀ {seen : List MediaFrame} {m : Fmp4Muxer},
    Ahead scale base seen m chunks → ReadsTracks scale d chunks.flatten →
    SegmentsFit scale base chunks →
      (RunOnTime base d m chunks ↔ KeepsPace scale base seen chunks) := by
  induction chunks with
  | nil => exact fun _ _ _ => iff_of_true (fun p hp => absurd hp not_mem_nil) trivial
  | cons chunk chunks ih =>
    intro seen m hrun ht hft
    have h := hrun.boundary
    obtain ⟨hk, hst, hl⟩ := hrun.cons
    have hrs := ih hl (ht.mono fun f hf => mem_append_right _ hf) fun c hc =>
      hft c (mem_cons_of_mem chunk hc)
    have hfi := hft chunk mem_cons_self
    rw [KeepsPace, ← hrs, ← and_assoc, RunOnTime, segments]
    cases hsg : (m.pushFrames chunk).flushSegment.1 with
    | none =>
      -- no sample, no segment, nothing to keep pace with
      obtain ⟨hv, ha⟩ := (h.segment_eq_none_iff hk hst).mp hsg
      have hvn : taken .video chunk = [] := by
        by_contra hne
        exact samplesOf_ne_nil_iff.mpr hne hv
      have han : taken .audio chunk = [] := by
        by_contra hne
        exact samplesOf_ne_nil_iff.mpr hne ha
      rw [hvn, han, and_iff_right ⟨paced_nil _ _ _, paced_nil _ _ _⟩]
      rfl
    | some seg =>
      have ho := segment_onTime_iff h hk hst hsg (ht.mono fun f hf => mem_append_left _ hf) hfi
      rw [← ho]
      exact forall_mem_cons

theorem exists_sample_of_segments (chunks : List (List MediaFrame)) :
    ∀ {seen : List MediaFrame} {m : Fmp4Muxer}
    {p : List MediaFrame × Fmp4Segment}, Ahead scale base seen m chunks → p ∈ m.segments chunks →
      ∃ f ∈ chunks.flatten, (sampleOf 0 0 f).isSome := by
  induction chunks with
  | nil => exact fun _ hp => absurd hp not_mem_nil
  | cons chunk chunks ih =>
    intro seen m p h hp
    obtain ⟨hkC, hst, hl⟩ := h.cons
    rw [segments, mem_append] at hp
    rcases hp with hp | hp
    · have hne : ¬ (m.pushFrames chunk).flushSegment.1 = none := by
        intro hno
        rw [hno] at hp
        exact absurd hp not_mem_nil
      rw [h.boundary.segment_eq_none_iff hkC hst, not_and_or] at hne
      have hex : ∃ kind, taken kind chunk ≠ [] := by
        rcases hne with hne | hne
        · exact ⟨_, samplesOf_ne_nil_iff.mp hne⟩
        · exact ⟨_, samplesOf_ne_nil_iff.mp hne⟩
      obtain ⟨kind, hkn⟩ := hex
      obtain ⟨f, hf⟩ := exists_mem_of_ne_nil _ hkn
      obtain ⟨hmem, ht⟩ := mem_filter.mp hf
      exact ⟨f, mem_append_left _ hmem, (Bool.and_eq_true _ _ ▸ ht).2⟩
    · obtain ⟨f, hf, hsm⟩ := ih hl hp
      exact ⟨f, mem_append_right _ hf, hsm⟩

end

/-! ## The whole stream -/

section

variable {scale : UInt32} {chunks : List (List MediaFrame)} {tail : List MediaFrame}

theorem cut_boundary {base : UInt32} (chunks : List (List MediaFrame)) :
    ∀ {seen : List MediaFrame} {m : Fmp4Muxer},
    Ahead scale base seen m chunks → Boundary scale base (seen ++ chunks.flatten)
      (m.cut chunks) := by
  induction chunks with
  | nil =>
    intro seen m h
    rw [flatten_nil, append_nil]
    exact h.boundary
  | cons chunk chunks ih =>
    intro seen m h
    rw [flatten_cons, ← append_assoc]
    exact ih h.cons.2.2

theorem timestamp_of_head {frames : List MediaFrame} :
    ∀ f ∈ frames.head?, f.timestamp = baseOf frames := by
  intro f hf
  rw [baseOf, mem_def.mp hf]
  rfl

theorem final_state (hk : ∀ f ∈ chunks.flatten ++ tail, Known f) :
    (((new scale).cut chunks).pushFrames tail).videoTimescale = scale ∧
      (((new scale).cut chunks).pushFrames tail).baseTimestamp.getD 0 =
        baseOf (chunks.flatten ++ tail) := by
  have hfr := @timestamp_of_head (chunks.flatten ++ tail)
  have hch : ∀ f ∈ ([] ++ chunks.flatten).head?, f.timestamp = baseOf (chunks.flatten ++ tail) := by
    intro f hf
    exact hfr f (mem_head?_append_of_mem_head? hf)
  have hct := cut_boundary chunks
    ⟨boundary_new scale (baseOf (chunks.flatten ++ tail)), fun f hf => hk f (mem_append_left _ hf),
      hch⟩
  have hp := pushFrames_collected (fun f hf => hk f (mem_append_right _ hf)) (hct.startsAt hfr)
  refine ⟨hp.timescale.trans hct.timescale, ?_⟩
  rw [hp.based, hct.based]
  cases hc : chunks.flatten with
  | nil =>
    cases tail with
    | nil | cons => rfl
  | cons g l =>
    cases tail <;> rfl

section

variable (h : Stream (chunks.flatten ++ tail))
include h

theorem Stream.configured_run : Configured (chunks.flatten ++ tail) (.new scale)
    (((new scale).cut chunks).pushFrames tail) :=
  (cut_configured fun f hf => h.known f (mem_append_left _ hf)).trans
    (pushFrames_configured fun f hf => h.known f (mem_append_right _ hf))

/-- A sample among the frames has a configuration in front of it. -/
theorem Stream.holds {f : MediaFrame} (hf : f ∈ chunks.flatten) (hsm : (sampleOf 0 0 f).isSome) :
    (((new scale).cut chunks).pushFrames tail).Holds f.frameType := by
  obtain ⟨before, after, hsp⟩ := append_of_mem (mem_append_left tail hf)
  obtain ⟨g, hg, hgv⟩ := h.configured before f after hsp hsm
  have hmem : g ∈ chunks.flatten ++ tail := by
    rw [hsp]
    exact mem_append_left _ hg
  rw [← hgv.2]
  exact h.configured_run.holds hmem hgv.1

theorem Stream.readsTracks :
    ReadsTracks scale ⟨(((new scale).cut chunks).pushFrames tail).tracks⟩ chunks.flatten := by
  have hs := (@final_state scale chunks tail h.known).1
  have hh : ∀ kind, taken kind chunks.flatten ≠ [] →
      (((new scale).cut chunks).pushFrames tail).Holds kind := by
    intro kind hne
    obtain ⟨f, hf⟩ := exists_mem_of_ne_nil _ hne
    obtain ⟨hmem, htk⟩ := mem_filter.mp hf
    rw [Bool.and_eq_true, beq_iff_eq] at htk
    rw [← htk.1]
    exact h.holds hmem htk.2
  constructor
  · intro hne
    obtain ⟨track, hl, hid, htm⟩ := lookup_video (hh .video hne)
    rw [hs] at htm
    exact ⟨track, hl, hid, htm⟩
  · exact fun hne => lookup_audio (hh .audio hne)

theorem onTime_iff_run (hi : (((new scale).cut chunks).pushFrames tail).InitFits) :
    OnTime scale chunks tail ↔ RunOnTime (baseOf (chunks.flatten ++ tail))
      ⟨(((new scale).cut chunks).pushFrames tail).tracks⟩ (.new scale) chunks := by
  have hkw : ∀ f ∈ chunks.flatten, Known f := fun f hf => h.known f (mem_append_left _ hf)
  rw [OnTime, (final_state h.known).2]
  refine forall₂_congr fun p hp => ?_
  obtain ⟨f, hf, hsm⟩ := exists_sample_of_segments chunks
    ⟨boundary_new scale (baseOf chunks.flatten), hkw, timestamp_of_head⟩ hp
  have hkn : f.frameType ≠ .metadata := by
    rcases hkw f hf with hk | ⟨hk, -⟩
    · rw [hk]
      decide
    · rw [hk]
      decide
  have hsp : (((new scale).cut chunks).pushFrames tail).Supported :=
    h.configured_run.supported h.known
  have hrd := fromInitSegment_buildInitSegment hsp hi (tracks_ne_nil hkn (h.holds hf hsm))
  constructor
  · rintro ⟨d, frames, hd, hrs⟩
    obtain rfl := Except.ok.inj (hrd.symm.trans hd)
    exact ⟨frames, hrs⟩
  · rintro ⟨frames, hrs⟩
    exact ⟨_, frames, hrd, hrs⟩

end

/-- **A stream is on time** just if its timestamps follow the clock of 25 samples a second that
begins anew with each segment. -/
theorem onTime_iff_keepsPace (h : Stream (chunks.flatten ++ tail))
    (hinit : (((new scale).cut chunks).pushFrames tail).InitFits)
    (hfits : SegmentsFit scale (baseOf (chunks.flatten ++ tail)) chunks) :
    OnTime scale chunks tail ↔ KeepsPace scale (baseOf (chunks.flatten ++ tail)) [] chunks := by
  rw [onTime_iff_run h hinit]
  refine runOnTime_iff chunks ⟨boundary_new _ _, fun f hf => h.known f (mem_append_left _ hf), ?_⟩
    h.readsTracks hfits
  intro f hf
  exact timestamp_of_head f (mem_head?_append_of_mem_head? hf)

end

/-! ## Two streams -/

theorem stream_of_configs {v a : MediaFrame} {rest : List MediaFrame}
    (hv : GivesConfig v ∧ v.frameType = .video)
    (ha : GivesConfig a ∧ a.frameType = .audio ∧ a.codec = .aac) (hr : ∀ f ∈ rest, Known f) :
    Stream (v :: a :: rest) := by
  have hno : ∀ {f : MediaFrame}, GivesConfig f → ¬ (sampleOf 0 0 f).isSome = true := by
    intro f hf hsm
    rw [sampleOf, if_pos hf.1] at hsm
    cases hsm
  refine ⟨?_, ?_⟩
  · intro f hf
    rcases mem_cons.mp hf with rfl | hf
    · exact .inl hv.2
    · rcases mem_cons.mp hf with rfl | hf
      · exact .inr ha.2
      · exact hr f hf
  · intro before f after hsp hsl
    -- neither of the first two frames is a sample
    rcases before with _ | ⟨x, _ | ⟨y, before⟩⟩
    · obtain ⟨rfl, -⟩ := List.cons.inj hsp
      exact absurd hsl (hno hv.1)
    · obtain ⟨-, ht⟩ := List.cons.inj hsp
      obtain ⟨rfl, -⟩ := List.cons.inj ht
      exact absurd hsl (hno ha.1)
    · obtain ⟨rfl, ht⟩ := List.cons.inj hsp
      obtain ⟨rfl, hr'⟩ := List.cons.inj ht
      have hmem : f ∈ rest := by
        rw [hr']
        exact mem_append_right _ mem_cons_self
      rcases hr f hmem with hk | ⟨hk, -⟩
      · exact ⟨v, mem_cons_self, hv.1, hv.2.trans hk.symm⟩
      · exact ⟨a, mem_cons_of_mem _ mem_cons_self, ha.1, ha.2.1.trans hk.symm⟩

/-- An H.264 record and an AAC configuration, at the time zero. -/
def streamConfigs : List MediaFrame :=
  [⟨1, .video, .h264, 0, 0, 0, [1, 0x42, 0, 0x1E, 0xFF, 0xE1, 0, 0], .avcc, true, true⟩,
    ⟨2, .audio, .aac, 0, 0, 0, [0x12, 0x10], .aacAudioSpecificConfig, false, true⟩]

def picture (timestamp : UInt32) : MediaFrame :=
  ⟨1, .video, .h264, timestamp, 0, 0, [0, 0, 0, 1, 0x65], .avcc, true, false⟩

def sound (timestamp : UInt32) : MediaFrame :=
  ⟨2, .audio, .aac, timestamp, 0, 0, [0x21], .aacRaw, false, false⟩

theorem stream_short {rest : List MediaFrame} (h : ∀ f ∈ rest, ∃ t, f = picture t ∨ f = sound t) :
    Stream (streamConfigs ++ rest) := by
  refine stream_of_configs ⟨⟨rfl, .inl ⟨rfl, _, rfl⟩⟩, rfl⟩ ⟨⟨rfl, .inr ⟨rfl, _, rfl⟩⟩, rfl, rfl⟩
    fun f hf => ?_
  obtain ⟨t, rfl | rfl⟩ := h f hf
  · exact .inl rfl
  · exact .inr ⟨rfl, rfl⟩

/-- Pictures 40 ms apart; the second segment begins at 7200 ticks, which are 80 ms on one track and
163 ms on the other. -/
theorem onTime_at_25 : OnTime 90000
    [streamConfigs ++ [picture 0, sound 0, picture 40], [picture 80, picture 120, sound 163]]
    [] := by
  refine (onTime_iff_keepsPace ?_ ?_ ?_).mpr ?_
  · refine @stream_short [picture 0, sound 0, picture 40, picture 80, picture 120, sound 163] ?_
    simp only [forall_mem_cons]
    exact ⟨⟨_, .inl rfl⟩, ⟨_, .inr rfl⟩, ⟨_, .inl rfl⟩, ⟨_, .inl rfl⟩, ⟨_, .inl rfl⟩, ⟨_, .inr rfl⟩,
      forall_mem_nil _⟩
  · rw [InitFits]
    decide +kernel
  · intro chunk hc
    simp only [mem_cons, not_mem_nil, or_false] at hc
    rcases hc with rfl | rfl <;> exact ⟨by decide +kernel, by decide +kernel⟩
  · rw [KeepsPace, KeepsPace, KeepsPace]
    simp only [Paced]
    decide +kernel

/-- AAC frames of 23 ms: the second one is reported at 81 ms. -/
theorem not_onTime_sound : ¬ OnTime 90000 [streamConfigs ++ [sound 0, sound 23]] [] := by
  have hs : Stream ([streamConfigs ++ [sound 0, sound 23]].flatten ++ []) := by
    refine @stream_short [sound 0, sound 23] ?_
    simp only [forall_mem_cons]
    exact ⟨⟨_, .inr rfl⟩, ⟨_, .inr rfl⟩, forall_mem_nil _⟩
  rw [onTime_iff_run hs (by rw [InitFits]; decide +kernel)]
  rw [runOnTime_iff _ ⟨boundary_new _ _, fun f hf => hs.known f (mem_append_left _ hf), ?_⟩
    hs.readsTracks ?_]
  · rw [KeepsPace, KeepsPace]
    simp only [Paced]
    decide +kernel
  · intro f hf
    exact timestamp_of_head f (mem_head?_append_of_mem_head? hf)
  · intro chunk hc
    rw [mem_singleton.mp hc]
    exact ⟨by decide +kernel, by decide +kernel⟩

end MediaKit.Fmp4
