import MediaKit.Lib.Select
import MediaKit.Mp4.RoundTrip

/-!
# Runs of the recorder

`record frames` is the recorder after any frames. Its samples are those of the frames that carry
one, relative to the timestamp of the first frame (`record_samples`), and what the writer puts
into fixed fields stays in range (`record_sound`): one frame preserves both, the run follows by
induction.

The file of such a recorder is then a file of written tracks, if its two long boxes fit into
their size fields: `fromBytes_finalize` says that it is read track by track.
-/

namespace MediaKit.Mp4

open MediaKit.Core Lib List Option Mp4Muxer

/-! ## Samples of a run -/

variable {α : Type} {defaultDuration timescale : Nat} {s : SampleEntry} {f : MediaFrame}
  {base : UInt32}

/-- The recorder after some frames. -/
def record (frames : List MediaFrame) : Mp4Muxer := frames.foldl pushFrame new

/-- The sample that a frame adds, if the recording began at `base`. -/
def sampleOf (base : UInt32) (frame : MediaFrame) : Option SampleEntry :=
  if frame.configFrame || isConfigFrame frame then none
  else if frame.frameType = .metadata then none
  else (samplePayload frame).toOption.map fun data =>
    { trackId := if frame.frameType = .video then 0 else 1
      data
      timestamp := frame.timestamp.toNat - base.toNat
      duration := 0
      isSync := decide (frame.frameType = .video) && frame.keyFrame }

/-- The frame is taken for a configuration. -/
def isTaken (f : MediaFrame) : Bool := f.configFrame || isConfigFrame f

/-- The record that a frame brings for the video track. -/
def videoConfigOf (f : MediaFrame) : Option Bytes :=
  if isTaken f ∧ f.frameType = .video then (videoDecoderConfig f).toOption else none

/-- The configuration that a frame brings for the audio track. -/
def audioConfigOf (f : MediaFrame) : Option Bytes :=
  if isTaken f ∧ f.frameType = .audio then
    (if f.codec = .aac then aacAudioSpecificConfig f else .ok f.data).toOption
  else none

/-- **What one frame does to the recorder.** -/
theorem pushFrame_eq (m : Mp4Muxer) (f : MediaFrame) :
    let picture := ((videoConfigOf f).bind (extractVideoInfo f.codec)).getD (m.width, m.height)
    m.pushFrame f =
      { videoCodec :=
          if (videoConfigOf f).isSome then some f.codec
          else if isTaken f = false ∧ f.frameType = .video then m.videoCodec.or (some f.codec)
            else m.videoCodec
        audioCodec :=
          if (audioConfigOf f).isSome then some f.codec
          else if isTaken f = false ∧ f.frameType = .audio then m.audioCodec.or (some f.codec)
            else m.audioCodec
        width := picture.1
        height := picture.2
        sampleRate := ((audioConfigOf f).map configToSampleRate).getD m.sampleRate
        videoConfig := (videoConfigOf f).or m.videoConfig
        audioConfig := (audioConfigOf f).or
          (if isTaken f = false ∧ f.frameType = .audio then m.audioConfig.or (some [])
            else m.audioConfig)
        samples := m.samples ++ (sampleOf (m.baseTime.getD f.timestamp) f).toList
        baseTime := some (m.baseTime.getD f.timestamp) } := by
  have hf : (f.configFrame || isConfigFrame f) = isTaken f := rfl
  rw [pushFrame, sampleOf, videoConfigOf, audioConfigOf, hf]
  cases isTaken f with
  | true =>
    cases hk : f.frameType with
    | video =>
      cases hc : videoDecoderConfig f with
      | error e => simp [pushConfig, hk, hc, Except.toOption]
      | ok config =>
        cases hi : extractVideoInfo f.codec config with
        | none | some => simp [pushConfig, hk, hc, hi, Except.toOption]
    | audio =>
      cases hc : (if f.codec = .aac then aacAudioSpecificConfig f else .ok f.data) with
      | error | ok => simp [pushConfig, hk, hc, Except.toOption]
    | metadata => simp [pushConfig, hk]
  | false =>
    cases hk : f.frameType with
    | video | audio =>
      cases hp : samplePayload f with
      | error | ok => simp [pushSample, hk, hp, Except.toOption]
    | metadata => simp

variable (frames : List MediaFrame)

theorem foldl_pushFrame_samples : ∀ (m : Mp4Muxer) (base : UInt32), m.baseTime = some base →
    (frames.foldl pushFrame m).samples = m.samples ++ frames.filterMap (sampleOf base) := by
  induction frames with
  | nil => exact fun m base _ => (append_nil _).symm
  | cons frame frames ih =>
    intro m base hb
    have hs := pushFrame_eq m frame
    rw [hb, getD_some] at hs
    rw [foldl_cons, ih _ base (by rw [hs]), hs, append_assoc, filterMap_cons_eq_append]

/-- **The samples of a recording.** -/
theorem record_samples : (record frames).samples = frames.filterMap (sampleOf (baseOf frames)) := by
  cases frames with
  | nil => rfl
  | cons frame frames =>
    rw [record, foldl_cons, foldl_pushFrame_samples frames _ frame.timestamp
      (by rw [pushFrame_eq]; rfl), pushFrame_eq, filterMap_cons_eq_append]
    rfl

/-! ## Fields in range -/

/-- What the writer relies on. -/
structure Mp4Muxer.Sound (m : Mp4Muxer) : Prop where
  width : m.width < 2 ^ 16
  height : m.height < 2 ^ 16
  rate : m.sampleRate ≤ 96000

theorem ofBe_pair_lt (a b : UInt8) : ofBe [a, b] < 2 ^ 16 := by
  have ha := a.toNat_lt
  have hb := b.toNat_lt
  show (0 * 256 + a.toNat) * 256 + b.toNat < 2 ^ 16
  omega

theorem extractVideoInfo_lt {codec : CodecId} {data : Bytes} {info : Nat × Nat}
    (h : extractVideoInfo codec data = some info) : info.1 < 2 ^ 16 ∧ info.2 < 2 ^ 16 := by
  have hp : ∀ (c : Prop) [Decidable c] (a b : UInt8), (if c then ofBe [a, b] else 0) < 2 ^ 16 := by
    intro c _ a b
    by_cases hc : c
    · rw [if_pos hc]
      exact ofBe_pair_lt a b
    · rw [if_neg hc]
      exact Nat.two_pow_pos 16
  by_cases h264 : codec = .h264
  · subst h264
    obtain ⟨nal, -, rfl⟩ := map_eq_some_iff.mp h
    exact ⟨ofBe_pair_lt _ _, hp _ _ _⟩
  by_cases h265 : codec = .h265
  · subst h265
    obtain ⟨nal, -, rfl⟩ := map_eq_some_iff.mp h
    exact ⟨ofBe_pair_lt _ _, hp _ _ _⟩
  · rw [extractVideoInfo] at h
    · cases h
    · exact h264
    · exact h265

theorem configToSampleRate_le (config : Bytes) :
    0 < configToSampleRate config ∧ configToSampleRate config ≤ 96000 := by
  rw [configToSampleRate]
  split
  · split <;> decide
  · decide

variable {m : Mp4Muxer}

theorem pushFrame_sound (h : m.Sound) (f : MediaFrame) : (m.pushFrame f).Sound := by
  have hp : ∀ p, ((videoConfigOf f).bind (extractVideoInfo f.codec)).getD (m.width, m.height) = p →
      p.1 < 2 ^ 16 ∧ p.2 < 2 ^ 16 := by
    rintro p rfl
    cases hi : (videoConfigOf f).bind (extractVideoInfo f.codec) with
    | none => exact ⟨h.width, h.height⟩
    | some info =>
      obtain ⟨config, -, hi⟩ := bind_eq_some_iff.mp hi
      exact extractVideoInfo_lt hi
  rw [pushFrame_eq]
  refine ⟨(hp _ rfl).1, (hp _ rfl).2, ?_⟩
  cases audioConfigOf f with
  | none => exact h.rate
  | some config => exact (configToSampleRate_le config).2

theorem of_or_some {P : α → Prop} {o : Option α} {a : α} (ho : ∀ x, o = some x → P x) (ha : P a) :
    ∀ x, o.or (some a) = some x → P x := by
  cases o with
  | none => exact fun x hx => some.inj hx ▸ ha
  | some y => exact ho

/-- The codecs of the tracks are codecs of the frames. -/
theorem pushFrame_codecs {P Q : CodecId → Prop} (hv : ∀ c, m.videoCodec = some c → P c)
    (ha : ∀ c, m.audioCodec = some c → Q c)
    (hp : f.frameType = .video → P f.codec) (hq : f.frameType = .audio → Q f.codec) :
    (∀ c, (m.pushFrame f).videoCodec = some c → P c) ∧ ∀ c, (m.pushFrame f).audioCodec = some c →
    Q c := by
  rw [pushFrame_eq]
  constructor
  · dsimp only
    split_ifs with hcn hs
    · have hk : f.frameType = .video := by
        by_contra hne
        rw [videoConfigOf, if_neg fun hc => hne hc.2] at hcn
        cases hcn
      exact fun c hc => some.inj hc ▸ hp hk
    · exact of_or_some hv (hp hs.2)
    · exact hv
  · dsimp only
    split_ifs with hcn hs
    · have hk : f.frameType = .audio := by
        by_contra hne
        rw [audioConfigOf, if_neg fun hc => hne hc.2] at hcn
        cases hcn
      exact fun c hc => some.inj hc ▸ hq hk
    · exact of_or_some ha (hq hs.2)
    · exact ha

theorem record_codecs {P Q : CodecId → Prop} {frames : List MediaFrame}
    (hp : ∀ f ∈ frames, f.frameType = .video → P f.codec)
    (hq : ∀ f ∈ frames, f.frameType = .audio → Q f.codec) :
    (∀ c, (record frames).videoCodec = some c → P c) ∧ ∀ c, (record frames).audioCodec = some c →
    Q c := by
  induction frames using reverseRecOn with
  | nil => exact ⟨nofun, nofun⟩
  | append_singleton frames f ih =>
    obtain ⟨hv, ha⟩ := ih (fun g hg => hp g (mem_append_left _ hg)) fun g hg =>
      hq g (mem_append_left _ hg)
    have hl : f ∈ frames ++ [f] := mem_append_right _ (mem_singleton_self f)
    rw [record, foldl_append]
    exact pushFrame_codecs hv ha (hp f hl) (hq f hl)

theorem getD_of_forall {o : Option α} {a : α} (h : ∀ x, o = some x → x = a) : o.getD a = a := by
  cases o with
  | none => rfl
  | some x => exact h x rfl

/-- **Every recording is sound.** -/
theorem record_sound : (record frames).Sound := by
  induction frames using reverseRecOn with
  | nil => exact ⟨Nat.two_pow_pos 16, Nat.two_pow_pos 16, Nat.zero_le _⟩
  | append_singleton frames frame ih =>
    rw [record, foldl_append]
    exact pushFrame_sound ih frame

theorem audioTimescale_bounds (h : m.Sound) : 0 < m.audioTimescale ∧ m.audioTimescale ≤ 96000 := by
  have hr := h.rate
  rw [audioTimescale]
  split
  next hpos => exact ⟨hpos, hr⟩
  next => exact ⟨by decide, by decide⟩

/-! ## Durations -/

theorem sampleDuration_bounds {timescale defaultDuration : Nat} (h : defaultDuration < 2 ^ 32)
    (delta : Option Nat) :
    1 ≤ sampleDuration timescale defaultDuration delta ∧
    sampleDuration timescale defaultDuration delta < 2 ^ 32 := by
  cases delta with
  | none =>
    show 1 ≤ max 1 defaultDuration ∧ max 1 defaultDuration < 2 ^ 32
    omega
  | some delta =>
    show 1 ≤ max 1 (min (max delta 1 * timescale / 1000) (2 ^ 32 - 1)) ∧
      max 1 (min (max delta 1 * timescale / 1000) (2 ^ 32 - 1)) < 2 ^ 32
    omega

variable (g : SampleEntry → α)

/-- Durations are set without touching anything else of a sample. -/
theorem map_setTrackDurations (hg : ∀ s d, g { s with duration := d } = g s)
    (timescale defaultDuration : Nat) (samples : List SampleEntry) : ∀ previous : Option Nat,
      (setTrackDurations timescale defaultDuration previous samples).map g = samples.map g := by
  induction samples with
  | nil => exact fun _ => rfl
  | cons s rest ih =>
    intro previous
    cases rest with
    | nil =>
      rw [setTrackDurations, map_cons, hg]
      rfl
    | cons next rest =>
      rw [setTrackDurations, map_cons, hg, ih, ← map_cons]

theorem setTrackDurations_bounds (h : defaultDuration < 2 ^ 32)
    (samples : List SampleEntry) : ∀ previous : Option Nat,
      ∀ s ∈ setTrackDurations timescale defaultDuration previous samples, 1 ≤ s.duration ∧
      s.duration < 2 ^ 32 := by
  induction samples with
  | nil => exact fun _ s hs => nomatch hs
  | cons s rest ih =>
    intro previous x hx
    cases rest with
    | nil =>
      rw [setTrackDurations, mem_singleton] at hx
      rw [hx]
      exact sampleDuration_bounds h _
    | cons next rest =>
      rcases mem_cons.mp hx with heq | hin
      · rw [heq]
        exact sampleDuration_bounds h (some (next.timestamp - s.timestamp))
      · exact ih _ x hin

theorem sampleDuration_le {timescale defaultDuration delta : Nat} (h : timescale ≤ 96000) :
    sampleDuration timescale defaultDuration (some delta) ≤ 97 * (delta + 1) := by
  have hs : max delta 1 * timescale / 1000 ≤ max delta 1 * 96 := by
    have hm : max delta 1 * timescale ≤ max delta 1 * 96000 := Nat.mul_le_mul_left _ h
    omega
  show max 1 (min (max delta 1 * timescale / 1000) (2 ^ 32 - 1)) ≤ 97 * (delta + 1)
  omega

/-- In order, the durations add up to no more than the time that passes. -/
theorem sum_setTrackDurations_le (hsc : timescale ≤ 96000)
    (hdf : defaultDuration < 2 ^ 32) (rest : List SampleEntry) :
    ∀ (s : SampleEntry) (previous : Option Nat),
      (∀ x ∈ s :: rest, x.timestamp < 2 ^ 32) →
      (s :: rest).Pairwise (fun x y => x.timestamp ≤ y.timestamp) →
      ((setTrackDurations timescale defaultDuration previous (s :: rest)).map (·.duration)).sum ≤
        97 * (2 ^ 32 - s.timestamp) + 97 * rest.length + 2 ^ 32 := by
  induction rest with
  | nil =>
    intro s previous _ _
    have hls := (@sampleDuration_bounds timescale _ hdf (previous.map (s.timestamp - ·))).2
    exact le_trans (le_of_lt hls) (Nat.le_add_left _ _)
  | cons next rest ih =>
    intro s previous ht hsr
    obtain ⟨hf, hsr⟩ := pairwise_cons.mp hsr
    have hle : s.timestamp ≤ next.timestamp := hf next mem_cons_self
    have hr := ih next (some s.timestamp) (fun x hx => ht x (mem_cons_of_mem _ hx)) hsr
    have hdr := @sampleDuration_le timescale defaultDuration (next.timestamp - s.timestamp) hsc
    have hlt := ht next (mem_cons_of_mem _ mem_cons_self)
    rw [setTrackDurations, map_cons, sum_cons, length_cons]
    dsimp only
    omega

theorem map_videoSamples (hg : ∀ s d, g { s with duration := d } = g s) (m : Mp4Muxer) :
    m.videoSamples.map g = (m.samples.filter (·.trackId == 0)).map g :=
  map_setTrackDurations g hg _ _ _ _

theorem map_audioSamples (hg : ∀ s d, g { s with duration := d } = g s) (m : Mp4Muxer) :
    m.audioSamples.map g = (m.samples.filter (·.trackId == 1)).map g :=
  map_setTrackDurations g hg _ _ _ _

theorem sampleOf_fields (h : sampleOf base f = some s) :
    s.timestamp = f.timestamp.toNat - base.toNat ∧
    s.timestamp < 2 ^ 32 ∧ (s.trackId = 0 ∨ s.trackId = 1) := by
  have hlt := f.timestamp.toNat_lt
  rw [sampleOf] at h
  split at h
  · cases h
  · split at h
    · cases h
    · obtain ⟨data, -, rfl⟩ := map_eq_some_iff.mp h
      refine ⟨rfl, lt_of_le_of_lt (Nat.sub_le _ _) hlt, ?_⟩
      split
      · exact .inl rfl
      · exact .inr rfl

theorem timestamp_lt : ∀ s ∈ (record frames).samples, s.timestamp < 2 ^ 32 := by
  intro s hs
  rw [record_samples] at hs
  obtain ⟨f, -, hf⟩ := mem_filterMap.mp hs
  exact (sampleOf_fields hf).2.1

theorem samples_eq_nil_iff :
    (record frames).samples = [] ↔ (record frames).videoSamples = [] ∧
    (record frames).audioSamples = [] := by
  rw [← @map_eq_nil_iff _ _ SampleEntry.data (record frames).videoSamples,
    ← @map_eq_nil_iff _ _ SampleEntry.data (record frames).audioSamples,
    map_videoSamples _ (fun _ _ => rfl),
    map_audioSamples _ (fun _ _ => rfl), map_eq_nil_iff, map_eq_nil_iff, filter_eq_nil_iff,
      filter_eq_nil_iff]
  constructor
  · intro hnil
    rw [hnil]
    exact ⟨nofun, nofun⟩
  · rintro ⟨hv, ha⟩
    refine eq_nil_iff_forall_not_mem.mpr fun s hs => ?_
    have hin := hs
    rw [record_samples] at hin
    obtain ⟨f, -, hf⟩ := mem_filterMap.mp hin
    rcases (sampleOf_fields hf).2.2 with hid | hid
    · exact hv s hs (by rw [hid]; rfl)
    · exact ha s hs (by rw [hid]; rfl)

theorem videoSamples_bounds (m : Mp4Muxer) :
    ∀ s ∈ m.videoSamples, 1 ≤ s.duration ∧ s.duration < 2 ^ 32 :=
  setTrackDurations_bounds (by decide) _ _

theorem audioSamples_bounds (h : m.Sound) :
    ∀ s ∈ m.audioSamples, 1 ≤ s.duration ∧ s.duration < 2 ^ 32 := by
  have hs := (audioTimescale_bounds h).2
  exact setTrackDurations_bounds (by omega) _ _

/-! ## The tracks of the file -/

variable {w : TrackInFile}

section Tracks

variable {m : Mp4Muxer}
  {audioEntry moov videoEntry : Bytes} {audioDuration videoDuration : Nat}

/-- Where the samples begin in the file. -/
def mdatStart : Nat := writeFtyp.length + 8

/-- The video track and the audio track, as far as they have samples. -/
def Mp4Muxer.tracksInFile (m : Mp4Muxer) (videoDuration audioDuration : Nat)
    (videoEntry audioEntry : Bytes) : List TrackInFile :=
  (if m.videoSamples.isEmpty then [] else [⟨m.videoParams videoDuration, .video, videoEntry,
    mdatStart⟩]) ++ (if m.audioSamples.isEmpty then []
      else [⟨m.audioParams audioDuration, .audio, audioEntry,
        mdatStart + (m.videoSamples.flatMap (·.data)).length % 2 ^ 32⟩])

theorem mem_tracksInFile : w ∈ m.tracksInFile videoDuration audioDuration videoEntry audioEntry ↔
      (m.videoSamples ≠ [] ∧ w = ⟨m.videoParams videoDuration, .video, videoEntry, mdatStart⟩) ∨
      (m.audioSamples ≠ [] ∧ w = ⟨m.audioParams audioDuration, .audio, audioEntry,
        mdatStart + (m.videoSamples.flatMap (·.data)).length % 2 ^ 32⟩) := by
  have ho : ∀ (l : List SampleEntry) (x : TrackInFile), w ∈ (if l.isEmpty then [] else [x]) ↔
      l ≠ [] ∧ w = x := by
    intro l x
    cases l with
    | nil => exact iff_of_false not_mem_nil fun h => h.1 rfl
    | cons s l => exact mem_singleton.trans (and_iff_right (cons_ne_nil s l)).symm
  rw [tracksInFile, mem_append, ho, ho]

/-- The sample entry of a track and what the writer has checked of it. -/
def Checked (t : TrackParams) (entry : Bytes) : Prop :=
  t.samples ≠ [] → sampleEntry t.codec t.config t.width t.height = some entry ∧
    (t.samples.map (·.duration)).sum * 1000 < 2 ^ 64 ∧ mdatStart + t.mdatOffset % 2 ^ 32 < 2 ^ 32

theorem writeTrakIfAny_eq_some {t : TrackParams} {kind : TrackKind} {out : Bytes}
    {ms timescale : Nat} (hd : t.duration = (t.samples.map (·.duration)).sum)
    (hms : durationMs t.samples t.duration timescale = some ms)
    (h : writeTrakIfAny t writeFtyp.length = some out) :
    ∃ entry, Checked t entry ∧ out = boxes ((if t.samples.isEmpty then []
        else [(⟨t, kind, entry, mdatStart + t.mdatOffset % 2 ^ 32⟩ : TrackInFile)]).map
          fun w => (tag 't' 'r' 'a' 'k', w.body)) := by
  rw [writeTrakIfAny] at h
  rw [durationMs] at hms
  by_cases hem : t.samples.isEmpty = true
  · rw [if_pos hem] at h
    refine ⟨[], fun hne => absurd (isEmpty_iff.mp hem) hne, ?_⟩
    rw [if_pos hem, ← some.inj h]
    rfl
  · rw [if_neg hem] at h hms
    have hne : t.samples ≠ [] := fun hnil => hem (isEmpty_iff.mpr hnil)
    obtain ⟨entry, hen, ho, rfl⟩ := writeTrak_eq_some hne h
    obtain ⟨scaled, hs, -⟩ := map_eq_some_iff.mp hms
    refine ⟨entry, fun _ => ⟨hen, hd ▸ (of_mulU64 hs).2, ho⟩, ?_⟩
    rw [if_neg hem, map_singleton, boxes_cons, boxes_nil, append_nil]
    rfl

/-- **The body of `moov`**, when it is written. -/
theorem moovData_eq_some (h : m.moovData = some moov) :
    ∃ mvhd videoDuration audioDuration videoEntry audioEntry,
      moov = boxes
        (moovBoxes mvhd (m.tracksInFile videoDuration audioDuration videoEntry audioEntry)) ∧
      Checked (m.videoParams videoDuration) videoEntry ∧
      Checked (m.audioParams audioDuration) audioEntry := by
  obtain ⟨videoDuration, hvd, h⟩ := bind_eq_some_iff.mp h
  obtain ⟨audioDuration, had, h⟩ := bind_eq_some_iff.mp h
  obtain ⟨videoMs, hvm, h⟩ := bind_eq_some_iff.mp h
  obtain ⟨audioMs, ham, h⟩ := bind_eq_some_iff.mp h
  obtain ⟨videoTrak, hvt, h⟩ := bind_eq_some_iff.mp h
  obtain ⟨audioTrak, hat, h⟩ := bind_eq_some_iff.mp h
  obtain ⟨videoEntry, hvi, rfl⟩ :=
    @writeTrakIfAny_eq_some (m.videoParams videoDuration) .video _ _ _ (of_sumU64 hvd) hvm hvt
  obtain ⟨audioEntry, hau, rfl⟩ :=
    @writeTrakIfAny_eq_some (m.audioParams audioDuration) .audio _ _ _ (of_sumU64 had) ham hat
  refine ⟨fullHeader 0 ++ mvhdData (max videoMs audioMs)
    (if !m.videoSamples.isEmpty && !m.audioSamples.isEmpty then 3 else 2),
    videoDuration, audioDuration, videoEntry, audioEntry, ?_, hvi, hau⟩
  rw [← some.inj h, writeMvhd, writeFullBox_eq_box _ _ 0 (by decide), moovBoxes, boxes_cons,
    tracksInFile, map_append, append_assoc]
  congr 1
  exact (boxes_append _ _).symm

/-- Tables are written for fewer than 2³² samples in order, if there are sample entries for them. -/
theorem exists_moovData (hs : m.Sound) (hcn : m.samples.length < 2 ^ 32)
    (htm : ∀ s ∈ m.samples, s.timestamp < 2 ^ 32)
    (hor : ∀ id, (m.samples.filter (·.trackId == id)).Pairwise fun x y => x.timestamp ≤ y.timestamp)
    (hmd : m.mdatData.length < 2 ^ 31) (hvd : m.videoSamples ≠ [] →
      ∃ e, sampleEntry (m.videoCodec.getD .h264) (m.videoConfig.getD []) m.width m.height = some e)
    (had : m.audioSamples ≠ [] →
      ∃ e, sampleEntry (m.audioCodec.getD .aac) (m.audioConfig.getD []) 0 0 = some e) :
    ∃ moov, m.moovData = some moov := by
  have hsc := (audioTimescale_bounds hs).2
  -- the ticks of a track, in milliseconds
  have htc : ∀ (timescale defaultDuration id : Nat), timescale ≤ 96000 → defaultDuration < 2 ^ 32 →
      ((setTrackDurations timescale defaultDuration none (m.samples.filter (·.trackId == id))).map
        (·.duration)).sum * 1000
        < 2 ^ 64 := by
    intro timescale defaultDuration id hts hdd
    have hlen : (m.samples.filter (·.trackId == id)).length ≤ m.samples.length :=
      length_filter_le _ _
    have hsr := hor id
    have hin : ∀ x ∈ m.samples.filter (·.trackId == id), x.timestamp < 2 ^ 32 :=
      fun x hx => htm x (mem_of_mem_filter hx)
    cases hl : m.samples.filter (·.trackId == id) with
    | nil =>
      rw [setTrackDurations, map_nil, sum_nil, zero_mul]
      exact Nat.two_pow_pos 64
    | cons s rest =>
      rw [hl] at hlen hsr hin
      have hsm := sum_setTrackDurations_le hts hdd rest s none hin hsr
      rw [length_cons] at hlen
      omega
  have hvc : (m.videoSamples.map (·.duration)).sum * 1000 < 2 ^ 64 :=
    htc _ _ 0 (by decide) (by decide)
  have hac : (m.audioSamples.map (·.duration)).sum * 1000 < 2 ^ 64 := htc _ _ 1 hsc (by omega)
  have hms : ∀ (samples : List SampleEntry) (total timescale : Nat), total * 1000 < 2 ^ 64 →
      ∃ ms, durationMs samples total timescale = some ms := by
    intro samples total timescale htl
    rw [durationMs, mulU64_of_lt htl]
    split
    · exact ⟨_, rfl⟩
    · exact ⟨_, rfl⟩
  have htr : ∀ t : TrackParams, t.mdatOffset < 2 ^ 31 →
      (t.samples ≠ [] → ∃ e, sampleEntry t.codec t.config t.width t.height = some e) →
      ∃ out, writeTrakIfAny t writeFtyp.length = some out := by
    intro t hof hen
    rw [writeTrakIfAny]
    split
    next => exact ⟨_, rfl⟩
    next hem =>
    obtain ⟨e, he⟩ := hen fun hnil => hem (isEmpty_iff.mpr hnil)
    have hmo : t.mdatOffset % 2 ^ 32 = t.mdatOffset := Nat.mod_eq_of_lt (by omega)
    have hch : addU32 40 (t.mdatOffset % 2 ^ 32) = some (40 + t.mdatOffset) := by
      rw [hmo]
      exact addU32_of_lt (by omega)
    have hst : ∃ stbl, writeStbl t writeFtyp.length = some stbl := by
      rw [writeStbl, he]
      show ∃ stbl, ((addU32 32 8).bind fun behindHeader =>
        (addU32 behindHeader (t.mdatOffset % 2 ^ 32)).bind _) = some stbl
      rw [addU32_of_lt (show 32 + 8 < 2 ^ 32 by decide), bind_some, hch]
      exact ⟨_, rfl⟩
    obtain ⟨stbl, hst⟩ := hst
    rw [writeTrak, hst]
    exact ⟨_, rfl⟩
  have hsp : m.mdatData.length = (m.videoSamples.flatMap (·.data)).length +
      (m.audioSamples.flatMap (·.data)).length :=
    length_append
  obtain ⟨videoMs, hvm⟩ := hms m.videoSamples _ videoTimescale hvc
  obtain ⟨audioMs, ham⟩ := hms m.audioSamples _ m.audioTimescale hac
  obtain ⟨videoTrak, hvt⟩ :=
    htr (m.videoParams (m.videoSamples.map (·.duration)).sum) (Nat.two_pow_pos 31) hvd
  obtain ⟨audioTrak, hat⟩ := htr (m.audioParams (m.audioSamples.map (·.duration)).sum)
    (show (m.videoSamples.flatMap (·.data)).length < 2 ^ 31 by omega) had
  rw [moovData, sumU64_of_lt (by omega), sumU64_of_lt (by omega)]
  simp only [bind_eq_bind, bind_some, hvm, ham, hvt, hat]
  exact ⟨_, rfl⟩

/-! ## The file -/

/-- The body of `ftyp`. -/
def ftypData : Bytes := writeFtyp.drop 8

/-- The two long boxes fit into their size fields. -/
structure Mp4Muxer.Fits (m : Mp4Muxer) : Prop where
  mdat : 8 + m.mdatData.length < 2 ^ 32
  moov : ∀ moov, m.moovData = some moov → 8 + moov.length < 2 ^ 32

/-- The tables of a recording fit into the size field of their box. -/
structure TablesFit (frames : List MediaFrame) : Prop where
  count : (record frames).samples.length < 2 ^ 32
  moov : ∀ moov, (record frames).moovData = some moov → 8 + moov.length < 2 ^ 32

theorem moovData_lt_of_length {n : Nat} (h : m.moovData.map List.length = some n)
    (hn : 8 + n < 2 ^ 32) : ∀ moov, m.moovData = some moov → 8 + moov.length < 2 ^ 32 := by
  intro moov hm
  rw [hm, map_some, some.injEq] at h
  rwa [h]

/-- The file, when its tables are written. -/
def Mp4Muxer.file (m : Mp4Muxer) (moov : Bytes) : Bytes :=
  boxes (fileBoxes ftypData m.mdatData moov)

theorem finalize_of_moovData (hne : m.samples ≠ []) (h : m.moovData = some moov) :
    m.finalize = some (m.file moov) := by
  have he : ¬ m.samples.isEmpty = true := fun he => hne (isEmpty_iff.mp he)
  rw [finalize, if_neg he, h]
  show some (writeFtyp ++ box (tag 'm' 'd' 'a' 't') m.mdatData ++ box (tag 'm' 'o' 'o' 'v') moov) =
    _
  rw [file, fileBoxes, boxes_cons, boxes_cons, boxes_cons, boxes_nil, append_nil, append_assoc]
  rfl

theorem behind_file (moov : Bytes) :
    Behind (m.file moov) mdatStart m.mdatData (box (tag 'm' 'o' 'o' 'v') moov) := by
  have hat : Behind (m.file moov) writeFtyp.length (box (tag 'm' 'd' 'a' 't') m.mdatData)
      (box (tag 'm' 'o' 'o' 'v') moov) := by
    rw [file, fileBoxes, boxes_cons, boxes_cons, boxes_cons, boxes_nil, append_nil]
    exact behind_append writeFtyp _ _
  exact (hat.box rfl).bodyAt

/-- **The tracks are written** as the reader needs them. -/
theorem written_tracksInFile (hs : m.Sound) (hft : m.Fits) {mvhd : Bytes}
    (h : m.moovData = some moov)
    (hmv : moov =
      boxes (moovBoxes mvhd (m.tracksInFile videoDuration audioDuration videoEntry audioEntry)))
    (hv : Checked (m.videoParams videoDuration) videoEntry)
    (had : Checked (m.audioParams audioDuration) audioEntry) :
    ∀ w ∈ m.tracksInFile videoDuration audioDuration videoEntry audioEntry,
      Written w.params w.kind w.entry w.offset (m.file moov) := by
  intro w hw
  have hb : w.body.length ≤ moov.length := by
    have hin : (tag 't' 'r' 'a' 'k', w.body) ∈
        moovBoxes mvhd (m.tracksInFile videoDuration audioDuration videoEntry audioEntry) :=
      mem_cons_of_mem _ (mem_map.mpr ⟨w, hw, rfl⟩)
    rw [hmv]
    exact length_body_le hin
  have hmd := hft.mdat
  have hlt := hft.moov moov h
  have hat := behind_file (m := m) moov
  have hfl := hat.length
  rw [length_box rfl] at hfl
  have hst : mdatStart = 40 := rfl
  have hsp : m.mdatData.length = (m.videoSamples.flatMap (·.data)).length +
      (m.audioSamples.flatMap (·.data)).length :=
    length_append
  rcases mem_tracksInFile.mp hw with ⟨hne, rfl⟩ | ⟨hne, rfl⟩
  · obtain ⟨-, ht, -⟩ := hv hne
    exact
      { handler := .inl ⟨rfl, rfl⟩
        trackId := show 1 < 2 ^ 32 by decide
        timescale := ⟨show 0 < videoTimescale by decide, show videoTimescale < 2 ^ 32 by decide⟩
        nonempty := hne
        durations := videoSamples_bounds m
        ticks := ht
        tables := lt_of_le_of_lt hb (by omega)
        bytes := show (m.videoSamples.flatMap (·.data)).length < 2 ^ 32 by omega
        offsetLt := show mdatStart < 2 ^ 32 by omega
        fileLt := by omega
        inFile := ⟨_, Behind.fst hat⟩ }
  · obtain ⟨-, ht, ho⟩ := had hne
    have hsc := audioTimescale_bounds hs
    have hid : (m.audioParams audioDuration).trackId ≤ 2 := by
      show (if m.videoSamples.isEmpty then 1 else 2) ≤ 2
      split <;> decide
    have hmo : (m.videoSamples.flatMap (·.data)).length % 2 ^ 32 =
        (m.videoSamples.flatMap (·.data)).length :=
      Nat.mod_eq_of_lt (by omega)
    exact
      { handler := .inr ⟨rfl, rfl⟩
        trackId := lt_of_le_of_lt hid (by decide)
        timescale := ⟨hsc.1, lt_of_le_of_lt hsc.2 (by decide)⟩
        nonempty := hne
        durations := audioSamples_bounds hs
        ticks := ht
        tables := lt_of_le_of_lt hb (by omega)
        bytes := show (m.audioSamples.flatMap (·.data)).length < 2 ^ 32 by omega
        offsetLt := ho
        fileLt := by omega
        inFile := ⟨box (tag 'm' 'o' 'o' 'v') moov, by
          show Behind _ (mdatStart + (m.videoSamples.flatMap (·.data)).length % 2 ^ 32) _ _
          rw [hmo]
          exact Behind.snd hat⟩ }

end Tracks

/-! ## Sample entries -/

theorem parseStsd_box {kind body : Bytes} (hk : kind.length = 4) (h : 8 + body.length < 2 ^ 32) :
    walkTopBoxes ((stsdData (box kind body)).drop 8) = .ok [(Utf8.lossy kind, body)] ∧
      ¬ (stsdData (box kind body)).length < 8 ∧
        ofBe (((stsdData (box kind body)).drop 4).take 4) = 1 := by
  have hbx : Boxed [(kind, body)] := by
    intro b hb
    rw [mem_singleton.mp hb]
    exact ⟨hk, h⟩
  have hbo : boxes [(kind, body)] = box kind body := by
    rw [boxes_cons, boxes_nil, append_nil]
  have hlen := length_box hk body
  refine ⟨?_, ?_, ofBe_be32 (by decide)⟩
  · have hw := walkTopBoxes_boxes hbx (by rw [hbo]; omega)
    rw [hbo] at hw
    exact hw
  · rw [stsdData, length_append]
    show ¬ 8 + _ < 8
    omega

theorem parseStsd_avc1 {body : Bytes} (h : 8 + body.length < 2 ^ 32) :
    parseStsd (stsdData (box (tag 'a' 'v' 'c' '1') body)) .video = .ok
      (.h264, extractAvcc body) := by
  obtain ⟨hw, hlen, hc⟩ := @parseStsd_box (tag 'a' 'v' 'c' '1') body rfl h
  rw [parseStsd, if_neg hlen, hc, hw]
  rfl

theorem parseStsd_hev1 {body : Bytes} (h : 8 + body.length < 2 ^ 32) :
    parseStsd (stsdData (box (tag 'h' 'e' 'v' '1') body)) .video = .ok
      (.h265, extractHvcc body) := by
  obtain ⟨hw, hlen, hc⟩ := @parseStsd_box (tag 'h' 'e' 'v' '1') body rfl h
  rw [parseStsd, if_neg hlen, hc, hw]
  rfl

theorem parseStsd_mp4a {body : Bytes} (h : 8 + body.length < 2 ^ 32) :
    parseStsd (stsdData (box (tag 'm' 'p' '4' 'a') body)) .audio =
      extractAacConfig body >>= fun config => pure (.aac, config) := by
  obtain ⟨hw, hlen, hc⟩ := @parseStsd_box (tag 'm' 'p' '4' 'a') body rfl h
  rw [parseStsd, if_neg hlen, hc, hw]
  rfl

/-- The sample entry of the audio track, without its header. -/
def audioEntryBody (asc : Bytes) : Bytes :=
  audioSampleEntry (configToSampleRate asc) ++ box (tag 'e' 's' 'd' 's') (esdsData asc)

/-- The parameters of an H.264 track: the eighth octet of a record with units is read, whether
it is there or not. -/
theorem deriveTrackParams_h264_iff (avcc : Bytes) :
    (∃ p, deriveTrackParams .video .h264 avcc = .ok p) ↔
    ¬ (avcc.length = 7 ∧ avcc.getD 5 0 &&& 0x1F ≠ 0) := by
  have hd : (∃ d, extractVideoDimensions .h264 avcc = .ok d) ↔
      ¬ (avcc.length = 7 ∧ avcc.getD 5 0 &&& 0x1F ≠ 0) := by
    rw [extractVideoDimensions, if_neg (not_not_intro rfl)]
    split
    next hsh => exact iff_of_true ⟨_, rfl⟩ fun h => by omega
    next =>
    split
    next hn => exact iff_of_true ⟨_, rfl⟩ fun h => hn.elim h.2 (by omega)
    next hsm =>
    obtain ⟨hu, hlen⟩ := not_or.mp hsm
    by_cases hsv : avcc.length = 7
    · rw [getElem?_eq_none (by omega)]
      exact iff_of_false nofun (not_not_intro ⟨hsv, hu⟩)
    · refine iff_of_true ?_ fun h => hsv h.1
      rw [getElem?_eq_getElem (by omega), checked_some, ok_bind]
      dsimp only
      split
      · exact ⟨_, rfl⟩
      · rw [slice_of_le (by omega) (by omega), checked_some, ok_bind]
        exact ⟨_, rfl⟩
  rw [deriveTrackParams, if_pos (.inl rfl), ← hd]
  cases extractVideoDimensions .h264 avcc with
  | error => exact iff_of_false nofun nofun
  | ok d => exact iff_of_true (by cases d <;> exact ⟨_, rfl⟩) ⟨_, rfl⟩

theorem deriveTrackParams_aac (config : Bytes) :
    ∃ p, deriveTrackParams .audio .aac config = .ok p := by
  rw [deriveTrackParams, if_pos rfl]
  split
  · exact ⟨_, rfl⟩
  · exact ⟨_, rfl⟩

/-! ## Reading the file -/

variable {file : Bytes}

namespace TrackInFile

theorem read_eq_ok {r : DemuxedTrack × List DemuxedSample} (h : w.read file = .ok r) :
    ∃ e params, parseStsd (stsdData w.entry) w.kind = .ok e ∧
    deriveTrackParams w.kind e.1 e.2 = .ok params ∧
      r = (trackOf w.params w.kind e params,
        playedFrom ⟨w.params.trackId, e.1, w.params.timescale, [], file⟩ 0 w.params.samples) := by
  obtain ⟨e, he, h⟩ := of_bind_ok h
  obtain ⟨params, hp, h⟩ := of_bind_ok h
  exact ⟨e, params, he, hp, (Except.ok.inj h).symm⟩

end TrackInFile

/-- **A recording is read track by track.** -/
theorem fromBytes_finalize (hs : m.Sound) (hft : m.Fits) {moov : Bytes}
    (h : m.moovData = some moov) : ∃ videoDuration audioDuration videoEntry audioEntry,
      Checked (m.videoParams videoDuration) videoEntry ∧
      Checked (m.audioParams audioDuration) audioEntry ∧
      (∀ w ∈ m.tracksInFile videoDuration audioDuration videoEntry audioEntry,
        8 + w.entry.length < 2 ^ 32) ∧
      ∀ d, fromBytes (m.file moov) = .ok d ↔ readTracks (m.file moov)
        (m.tracksInFile videoDuration audioDuration videoEntry audioEntry) ⟨[], []⟩ = .ok d ∧
          d.tracks ≠ [] := by
  obtain ⟨mvhd, videoDuration, audioDuration, videoEntry, audioEntry, hmv, hv, had⟩ :=
    moovData_eq_some h
  let ws := m.tracksInFile videoDuration audioDuration videoEntry audioEntry
  have hwr := written_tracksInFile hs hft h hmv hv had
  refine ⟨videoDuration, audioDuration, videoEntry, audioEntry, hv, had,
    fun w hw => (hwr w hw).entryLt, ?_⟩
  have hmd := hft.mdat
  have hlt := hft.moov moov h
  have hfl := (behind_file (m := m) moov).length
  rw [length_box rfl, show mdatStart = 40 from rfl] at hfl
  have hbx : Boxed (fileBoxes ftypData m.mdatData (boxes (moovBoxes mvhd ws))) := by
    rw [← hmv]
    intro b hb
    simp only [fileBoxes, mem_cons, not_mem_nil, or_false] at hb
    rcases hb with rfl | rfl | rfl
    · exact ⟨rfl, by decide⟩
    · exact ⟨rfl, hmd⟩
    · exact ⟨rfl, hlt⟩
  exact fromBytes_fileBoxes (by rw [← hmv]; rfl) (by omega) hbx hwr

/-! ## What the reader reports -/

/-- The reader has a track of this kind, with these samples. -/
def Mp4Demuxer.Reports (d : Mp4Demuxer) (kind : TrackKind) (track : DemuxedTrack)
    (played : List DemuxedSample) : Prop :=
  ∃ id, d.tracks.lookup id = some track ∧ d.samples.lookup id = some played ∧ track.handler = kind

variable {ws : List TrackInFile}

theorem readTracks_ok : ∀ {d : Mp4Demuxer},
    (∀ w ∈ ws, ∃ r, w.read file = .ok r) → ∃ d', readTracks file ws d = .ok d' := by
  induction ws with
  | nil => exact fun _ => ⟨_, rfl⟩
  | cons w ws ih =>
    intro d h
    obtain ⟨r, hr⟩ := h w mem_cons_self
    rw [readTracks, foldlM_cons, TrackInFile.add, hr]
    exact ih fun w hw => h w (mem_cons_of_mem _ hw)

/-- After the run a track is found under its id if it was read; nothing else has changed. -/
theorem readTracks_lookup {d' : Mp4Demuxer} : ∀ {d : Mp4Demuxer},
    (ws.map (·.params.trackId)).Nodup → readTracks file ws d = .ok d' →
      (∀ w ∈ ws, ∀ r, w.read file = .ok r → d'.tracks.lookup w.params.trackId = some r.1 ∧
        d'.samples.lookup w.params.trackId = some r.2) ∧
      ∀ id, (∀ w ∈ ws, w.params.trackId = id → ∀ r, w.read file ≠ .ok r) →
        d'.tracks.lookup id = d.tracks.lookup id ∧ d'.samples.lookup id = d.samples.lookup id := by
  induction ws with
  | nil =>
    intro d _ h
    rw [← Except.ok.inj (show Except.ok d = Except.ok d' from h)]
    exact ⟨fun w hw => absurd hw not_mem_nil, fun _ _ => ⟨rfl, rfl⟩⟩
  | cons w ws ih =>
    intro d hnd h
    obtain ⟨hf, hnd⟩ := nodup_cons.mp hnd
    rw [readTracks, foldlM_cons, TrackInFile.add] at h
    cases hr : w.read file with
    | error e =>
      rw [hr] at h
      cases e with
      | fault => cases h
      | error e =>
        obtain ⟨hl, hk⟩ := ih hnd h
        refine ⟨forall_mem_cons.mpr ⟨fun r hrd => (by cases hr.symm.trans hrd), hl⟩, ?_⟩
        exact fun id hid => hk id fun w' hw' => hid w' (mem_cons_of_mem _ hw')
    | ok r =>
      rw [hr] at h
      obtain ⟨hl, hk⟩ := ih hnd h
      have hid : r.1.trackId = w.params.trackId := by
        obtain ⟨e, params, -, -, rfl⟩ := TrackInFile.read_eq_ok hr
        rfl
      refine ⟨forall_mem_cons.mpr ⟨fun r' hrd => ?_, hl⟩, fun id hid' => ?_⟩
      · obtain ⟨ht, hs⟩ := hk w.params.trackId fun w' hw' heq =>
          absurd (List.mem_map.mpr ⟨w', hw', heq⟩) hf
        rw [ht, hs, ← hid, ← Except.ok.inj (hr.symm.trans hrd)]
        exact ⟨lookup_assocInsert_self _ _ _, lookup_assocInsert_self _ _ _⟩
      · obtain ⟨ht, hs⟩ := hk id fun w' hw' => hid' w' (mem_cons_of_mem _ hw')
        have hne : id ≠ r.1.trackId := fun heq =>
          hid' w mem_cons_self (hid.symm.trans heq.symm) r hr
        rw [ht, hs]
        exact ⟨lookup_assocInsert_of_ne hne _ _, lookup_assocInsert_of_ne hne _ _⟩

/-- **What is reported** is what was read. -/
theorem reports_iff {d : Mp4Demuxer} {kind : TrackKind} {track : DemuxedTrack}
    {played : List DemuxedSample} (hn : (ws.map (·.params.trackId)).Nodup)
    (h : readTracks file ws ⟨[], []⟩ = .ok d) :
    d.Reports kind track played ↔ ∃ w ∈ ws, w.kind = kind ∧ w.read file = .ok (track, played) := by
  obtain ⟨hfn, hkp⟩ := readTracks_lookup hn h
  have hkn : ∀ {w : TrackInFile} {r}, w.read file = .ok r → r.1.handler = w.kind := by
    intro w r hr
    obtain ⟨e, params, -, -, rfl⟩ := TrackInFile.read_eq_ok hr
    rfl
  constructor
  · rintro ⟨id, htr, hp, hh⟩
    by_cases hrd : ∃ w ∈ ws, w.params.trackId = id ∧ ∃ r, w.read file = .ok r
    · obtain ⟨w, hw, rfl, r, hr⟩ := hrd
      obtain ⟨htc, hsm⟩ := hfn w hw r hr
      have hfs : r.1 = track := some.inj (htc.symm.trans htr)
      have hsn : r.2 = played := some.inj (hsm.symm.trans hp)
      refine ⟨w, hw, ?_, ?_⟩
      · rw [← hkn hr, hfs, hh]
      · rw [hr, ← hfs, ← hsn]
    · rw [(hkp id fun w hw hid r hr => hrd ⟨w, hw, hid, r, hr⟩).1] at htr
      cases htr
  · rintro ⟨w, hw, rfl, hrd⟩
    obtain ⟨htc, hsm⟩ := hfn w hw _ hrd
    exact ⟨w.params.trackId, htc, hsm, hkn hrd⟩

theorem tracks_ne_nil_of_reports {d : Mp4Demuxer} {kind : TrackKind} {track : DemuxedTrack}
    {played : List DemuxedSample} (h : d.Reports kind track played) : d.tracks ≠ [] := by
  obtain ⟨id, ht, -⟩ := h
  intro hnil
  rw [hnil] at ht
  cases ht

theorem nodup_tracksInFile (m : Mp4Muxer) (videoDuration audioDuration : Nat)
    (videoEntry audioEntry : Bytes) :
    ((m.tracksInFile videoDuration audioDuration videoEntry audioEntry).map
      (·.params.trackId)).Nodup := by
  rw [tracksInFile]
  by_cases hv : m.videoSamples.isEmpty = true
  · rw [if_pos hv]
    split
    · exact nodup_nil
    · exact nodup_cons.mpr ⟨not_mem_nil, nodup_nil⟩
  · rw [if_neg hv]
    split
    · exact nodup_cons.mpr ⟨not_mem_nil, nodup_nil⟩
    · have hid : (m.audioParams audioDuration).trackId = 2 := if_neg hv
      show [1, (m.audioParams audioDuration).trackId].Nodup
      rw [hid]
      decide

end MediaKit.Mp4
