import MediaKit.Mp4.Recording
import MediaKit.Mp4.Esds

/-!
# What a recording preserves

Frames of an H.264 track and of an AAC track go through the recorder and come back from the
reader. `preserved_iff_recordable` says when payloads, key frames and configurations are all the
same:

* no sample begins with the octets of a sequence header: `is_config_frame` looks at them
  whatever the payload format says, and the sample is then dropped;
* both tracks have a sample: a track without samples is not written;
* every video sample is a key frame: no sync table is written, and without one the reader
  takes every sample for a key frame;
* the AAC configuration is one that comes back from its descriptors (`extractAacConfig_iff`);
* the letters `avcC` do not stand in front of the H.264 record (`extractAvcc_iff`).
-/

namespace MediaKit.Mp4

open MediaKit.Core Lib List

/-! ## Frames -/

variable {data : Bytes} {m : Mp4Muxer} {seen : List MediaFrame}

/-- A frame with the H.264 record. -/
structure VideoConfig (avcc : Bytes) (f : MediaFrame) : Prop where
  kind : f.frameType = .video
  codec : f.codec = .h264
  taken : (f.configFrame || isConfigFrame f) = true
  record : videoDecoderConfig f = .ok avcc

/-- A frame with an H.264 sample. -/
structure VideoSample (f : MediaFrame) : Prop where
  kind : f.frameType = .video
  codec : f.codec = .h264
  payload : ∃ data, videoSampleLengthPrefixed f = .ok data

/-- A frame with an AAC sample. -/
structure AudioSample (f : MediaFrame) : Prop where
  kind : f.frameType = .audio
  codec : f.codec = .aac
  payload : ∃ data, aacRawPayload f = .ok data

variable (avcc asc : Bytes)

abbrev RecordingFrame (f : MediaFrame) : Prop :=
  VideoConfig avcc f ∨ AudioConfig asc f ∨ VideoSample f ∨ AudioSample f

variable (frames : List MediaFrame)

/-- The video samples that the caller pushed. -/
def pushedVideo : List (Bytes × Bool) := frames.filterMap pushedVideoOf

/-- The audio samples that the caller pushed. -/
def pushedAudio : List Bytes := frames.filterMap pushedAudioOf

/-- **The frames of a recording.** -/
structure Recording (avcc asc : Bytes) (frames : List MediaFrame) : Prop where
  known : ∀ f ∈ frames, VideoConfig avcc f ∨ AudioConfig asc f ∨ VideoSample f ∨ AudioSample f
  video : ∃ f ∈ frames, VideoConfig avcc f
  audio : ∃ f ∈ frames, AudioConfig asc f
  avccValid : avcc.head? = some 1 ∧ 8 ≤ avcc.length
  ascValid : 2 ≤ asc.length
  order : frames.Pairwise fun f g => VideoSample f ∧ VideoSample g ∨ AudioSample f ∧ AudioSample g →
    f.timestamp ≤ g.timestamp
  size : ((pushedVideo frames).map (·.1.length)).sum + ((pushedAudio frames).map (·.length)).sum <
    2 ^ 31

/-! ## Configurations in a run -/

/-- The size of the picture in the record. -/
def pictureSize (avcc : Bytes) : Nat × Nat := (extractVideoInfo .h264 avcc).getD (0, 0)

section Frame

variable {avcc asc : Bytes} {f : MediaFrame}

theorem codec_of_recordingFrame (hf : RecordingFrame avcc asc f) :
    f.frameType = .video ∧ f.codec = .h264 ∨ f.frameType = .audio ∧ f.codec = .aac := by
  rcases hf with h | h | h | h
  · exact .inl ⟨h.kind, h.codec⟩
  · exact .inr ⟨h.kind, h.codec⟩
  · exact .inl ⟨h.kind, h.codec⟩
  · exact .inr ⟨h.kind, h.codec⟩

/-- What the frames bring as a record. -/
theorem videoConfigOf_cases (hf : RecordingFrame avcc asc f) :
    videoConfigOf f = none ∨ videoConfigOf f = some avcc ∧ f.codec = .h264 := by
  rw [videoConfigOf]
  split_ifs with hv
  · rcases hf with h | h | h | h
    · exact .inr ⟨by rw [h.record]; rfl, h.codec⟩
    · cases h.kind.symm.trans hv.2
    · obtain ⟨-, e, he⟩ := videoDecoderConfig_of_sample h.payload.choose_spec
      exact .inl (by rw [he]; rfl)
    · cases h.kind.symm.trans hv.2
  · exact .inl rfl

/-- What the frames bring as an AAC configuration. -/
theorem audioConfigOf_cases (hf : RecordingFrame avcc asc f) :
    audioConfigOf f = none ∨ audioConfigOf f = some asc := by
  rw [audioConfigOf]
  split_ifs with had hc
  · rcases hf with h | h | h | h
    · cases h.kind.symm.trans had.2
    · exact .inr (by rw [h.record]; rfl)
    · cases h.kind.symm.trans had.2
    · obtain ⟨-, e, he⟩ := aacAudioSpecificConfig_of_sample h.payload.choose_spec
      exact .inl (by rw [he]; rfl)
  · rcases codec_of_recordingFrame hf with ⟨hk, -⟩ | ⟨-, hac⟩
    · cases hk.symm.trans had.2
    · exact absurd hac hc
  · exact .inl rfl

theorem videoConfigOf_of_config (h : VideoConfig avcc f) : videoConfigOf f = some avcc := by
  rw [videoConfigOf, if_pos ⟨h.taken, h.kind⟩, h.record]
  rfl

theorem audioConfigOf_of_config (h : AudioConfig asc f) : audioConfigOf f = some asc := by
  rw [audioConfigOf, if_pos ⟨h.taken, h.kind⟩, if_pos h.codec, h.record]
  rfl

end Frame

section Run

variable {avcc asc : Bytes} {frames : List MediaFrame}

/-- What the recorder knows after the frames it has seen. -/
structure Configured (avcc asc : Bytes) (seen : List MediaFrame) (m : Mp4Muxer) : Prop where
  video : m.videoConfig = some avcc ∧ (m.width, m.height) = pictureSize avcc ∨
    (∀ f ∈ seen, videoConfigOf f = none) ∧ (m.width, m.height) = (0, 0)
  audio : m.audioConfig = some asc ∨ ∀ f ∈ seen, audioConfigOf f = none

/-- **One frame** keeps what is known. -/
theorem pushFrame_configured {f : MediaFrame} (hf : RecordingFrame avcc asc f)
    (h : Configured avcc asc seen m) : Configured avcc asc (seen ++ [f]) (m.pushFrame f) := by
  rw [pushFrame_eq]
  constructor
  · rcases videoConfigOf_cases hf with hv | ⟨hv, hc⟩
    · rw [hv]
      refine h.video.imp id (And.imp_left fun hal => forall_mem_append.mpr ⟨hal, ?_⟩)
      exact forall_mem_singleton.mpr hv
    · -- the picture has the size that the record gives, or the old one if it gives none
      have hold : extractVideoInfo .h264 avcc = none → (m.width, m.height) = (0, 0) := by
        intro hn
        refine h.video.elim (fun hk => hk.2.trans ?_) And.right
        rw [pictureSize, hn]
        rfl
      rw [hv, hc]
      refine .inl ⟨rfl, ?_⟩
      rw [pictureSize, Option.bind_some]
      cases hi : extractVideoInfo .h264 avcc with
      | none => exact hold hi
      | some info => rfl
  · rcases audioConfigOf_cases hf with ha | ha
    · rcases h.audio with hk | hal
      · rw [ha, hk]
        exact .inl (by dsimp only; split <;> rfl)
      · exact .inr (forall_mem_append.mpr ⟨hal, forall_mem_singleton.mpr ha⟩)
    · rw [ha]
      exact .inl rfl

/-- **What the recorder knows in the end.** -/
theorem record_configured (h : ∀ f ∈ frames, RecordingFrame avcc asc f) :
    Configured avcc asc frames (record frames) := by
  induction frames using reverseRecOn with
  | nil => exact ⟨.inr ⟨forall_mem_nil _, rfl⟩, .inr (forall_mem_nil _)⟩
  | append_singleton frames f ih =>
    rw [record, foldl_append]
    exact pushFrame_configured (h f (mem_append_right _ (mem_singleton_self f)))
      (ih fun g hg => h g (mem_append_left _ hg))

end Run

/-! ## Samples in a run -/

section Samples

variable {avcc asc : Bytes} {f : MediaFrame} {base : UInt32}

/-- What the reader reports of a frame in the video track: every sample as a key frame. -/
def reportedVideo (base : UInt32) (f : MediaFrame) : Option (Bytes × Bool) :=
  ((sampleOf base f).filter (·.trackId == 0)).map fun s => (s.data, true)

/-- What the reader reports of a frame in the audio track. -/
def reportedAudio (base : UInt32) (f : MediaFrame) : Option Bytes :=
  ((sampleOf base f).filter (·.trackId == 1)).map (·.data)

theorem videoSamples_eq : (record frames).videoSamples.map (fun s => (s.data, true)) =
      frames.filterMap (reportedVideo (baseOf frames)) := by
  rw [map_videoSamples _ (fun _ _ => rfl), record_samples, filter_filterMap, map_filterMap]
  rfl

theorem audioSamples_eq :
    (record frames).audioSamples.map (·.data) =
      frames.filterMap (reportedAudio (baseOf frames)) := by
  rw [map_audioSamples _ (fun _ _ => rfl), record_samples, filter_filterMap, map_filterMap]
  rfl

/-- How a frame shows in a track: a sample is reported as `mark` has it, unless it is taken for a
configuration, and nothing else is. -/
def Shows {α : Type} (mark : α → α) (sample : Prop) (f : MediaFrame) (pushed reported : Option α) :
    Prop :=
  (sample ∧ ∃ x, pushed = some x ∧ reported = if isConfigFrame f then none else some (mark x)) ∨
    ¬ sample ∧ pushed = none ∧ reported = none

theorem shows_of {α : Type} {mark : α → α} {sample : Prop} {pushed reported : Option α}
    (hsm : sample ↔ pushed.isSome) (hf : pushed.isSome → f.configFrame = false)
    (hr : reported = if isTaken f then none else pushed.map mark) :
    Shows mark sample f pushed reported := by
  rw [hr, isTaken]
  cases pushed with
  | none => exact .inr ⟨fun hs => absurd (hsm.mp hs) nofun, rfl, ite_self none⟩
  | some x =>
    rw [hf rfl]
    exact .inl ⟨hsm.mpr rfl, x, rfl, rfl⟩

theorem sampleOf_video (hk : f.frameType = .video) : sampleOf base f = if isTaken f then none else
    (videoSampleLengthPrefixed f).toOption.map fun data =>
      { trackId := 0, data, timestamp := f.timestamp.toNat - base.toNat, duration := 0,
        isSync := f.keyFrame } := by
  rw [sampleOf, samplePayload, hk]
  rfl

theorem sampleOf_audio (hk : f.frameType = .audio) (hc : f.codec = .aac) :
    sampleOf base f = if isTaken f then none else
    (aacRawPayload f).toOption.map fun data =>
      { trackId := 1, data, timestamp := f.timestamp.toNat - base.toNat, duration := 0,
        isSync := false } := by
  rw [sampleOf, samplePayload, hk, hc]
  rfl

/-- A frame in the video track, as it was pushed and as it is reported. -/
theorem shows_video (base : UInt32) (hf : RecordingFrame avcc asc f) :
    Shows (fun x => (x.1, true)) (VideoSample f) f (pushedVideoOf f) (reportedVideo base f) := by
  rcases codec_of_recordingFrame hf with ⟨hk, hc⟩ | ⟨hk, hc⟩
  · rw [pushedVideoOf, if_pos hk, reportedVideo, sampleOf_video hk]
    cases hd : videoSampleLengthPrefixed f with
    | error e =>
      refine shows_of (iff_of_false (fun hs => ?_) nofun) nofun (by cases isTaken f <;> rfl)
      obtain ⟨data, hok⟩ := hs.payload
      cases hd.symm.trans hok
    | ok data =>
      exact shows_of (iff_of_true ⟨hk, hc, data, hd⟩ rfl)
        (fun _ => (videoDecoderConfig_of_sample hd).1) (by cases isTaken f <;> rfl)
  · have hv : ¬ f.frameType = .video := fun h => nomatch hk.symm.trans h
    rw [pushedVideoOf, if_neg hv, reportedVideo, sampleOf_audio hk hc]
    refine shows_of (iff_of_false (fun hs => hv hs.kind) nofun) nofun ?_
    cases isTaken f <;> cases aacRawPayload f <;> rfl

/-- A frame in the audio track, as it was pushed and as it is reported. -/
theorem shows_audio (base : UInt32) (hf : RecordingFrame avcc asc f) :
    Shows id (AudioSample f) f (pushedAudioOf f) (reportedAudio base f) := by
  rcases codec_of_recordingFrame hf with ⟨hk, hc⟩ | ⟨hk, hc⟩
  · have had : ¬ f.frameType = .audio := fun h => nomatch hk.symm.trans h
    rw [pushedAudioOf, if_neg had, reportedAudio, sampleOf_video hk]
    refine shows_of (iff_of_false (fun hs => had hs.kind) nofun) nofun ?_
    cases isTaken f <;> cases videoSampleLengthPrefixed f <;> rfl
  · rw [pushedAudioOf, if_pos hk, reportedAudio, sampleOf_audio hk hc]
    cases hd : aacRawPayload f with
    | error e =>
      refine shows_of (iff_of_false (fun hs => ?_) nofun) nofun (by cases isTaken f <;> rfl)
      obtain ⟨data, hok⟩ := hs.payload
      cases hd.symm.trans hok
    | ok data =>
      exact shows_of (iff_of_true ⟨hk, hc, data, hd⟩ rfl)
        (fun _ => (aacAudioSpecificConfig_of_sample hd).1) (by cases isTaken f <;> rfl)

section Track

variable {α : Type} {mark : α → α} {Sample : MediaFrame → Prop}
  {pushed reported : MediaFrame → Option α}
  {frames : List MediaFrame} (hshows : ∀ f ∈ frames, Shows mark (Sample f) f (pushed f)
    (reported f))

include hshows

/-- The samples come back if all of them are kept, and none is marked. -/
theorem reported_eq_pushed_iff : frames.filterMap reported = frames.filterMap pushed ↔
    ∀ f ∈ frames, Sample f → isConfigFrame f = false ∧ ∀ x, pushed f = some x → mark x = x := by
  rw [filterMap_eq_filterMap_iff]
  · refine forall₂_congr fun f hf => ?_
    rcases hshows f hf with ⟨hs, x, hp, hr⟩ | ⟨hns, hp, hr⟩
    · rw [hp, hr]
      cases hc : isConfigFrame f with
      | true => exact iff_of_false nofun fun h => nomatch (h hs).1
      | false => simp [hs]
    · rw [hp, hr]
      exact iff_of_true rfl fun hs => absurd hs hns
  · intro f hf hsm
    rcases hshows f hf with ⟨-, x, hp, -⟩ | ⟨-, -, hr⟩
    · rw [hp]
      rfl
    · rw [hr] at hsm
      cases hsm

theorem sum_reported_le {size : α → Nat} (hsz : ∀ x, size (mark x) = size x) :
    ((frames.filterMap reported).map size).sum ≤ ((frames.filterMap pushed).map size).sum := by
  refine sum_filterMap_le fun f hf b hb => ?_
  rcases hshows f hf with ⟨-, x, hp, hr⟩ | ⟨-, -, hr⟩
  · rw [hr] at hb
    split at hb
    · cases hb
    · exact ⟨x, hp, by rw [← Option.some.inj hb, hsz]⟩
  · rw [hr] at hb
    cases hb

theorem exists_sample_of_pushed : frames.filterMap pushed ≠ [] ↔ ∃ f ∈ frames, Sample f := by
  constructor
  · intro hne
    obtain ⟨x, hx⟩ := exists_mem_of_ne_nil _ hne
    obtain ⟨f, hf, hp⟩ := mem_filterMap.mp hx
    rcases hshows f hf with ⟨hs, -⟩ | ⟨-, hno, -⟩
    · exact ⟨f, hf, hs⟩
    · rw [hno] at hp
      cases hp
  · rintro ⟨f, hf, hs⟩
    rcases hshows f hf with ⟨-, x, hp, -⟩ | ⟨hns, -⟩
    · exact ne_nil_of_mem (mem_filterMap.mpr ⟨f, hf, hp⟩)
    · exact absurd hs hns

end Track

end Samples

section Run

variable {avcc asc : Bytes} {frames : List MediaFrame}

/-- The video samples come back if all of them are kept and are key frames. -/
theorem videoSamples_eq_pushed_iff (hk : ∀ f ∈ frames, RecordingFrame avcc asc f) :
    (record frames).videoSamples.map (fun s => (s.data, true)) = pushedVideo frames ↔
      ∀ f ∈ frames, VideoSample f → isConfigFrame f = false ∧ f.keyFrame = true := by
  rw [videoSamples_eq, pushedVideo, reported_eq_pushed_iff fun f hf => shows_video _ (hk f hf)]
  refine forall₃_congr fun f hf hs => and_congr_right fun _ => ?_
  obtain ⟨data, hd⟩ := hs.payload
  rw [pushedVideoOf, if_pos hs.kind, hd]
  simp only [Except.toOption, Option.map_some, Option.some.injEq, forall_eq', Prod.mk.injEq,
    true_and]
  exact eq_comm

theorem audioSamples_eq_pushed_iff (hk : ∀ f ∈ frames, RecordingFrame avcc asc f) :
    (record frames).audioSamples.map (·.data) = pushedAudio frames ↔ ∀ f ∈ frames, AudioSample f →
    isConfigFrame f = false := by
  rw [audioSamples_eq, pushedAudio, reported_eq_pushed_iff fun f hf => shows_audio _ (hk f hf)]
  exact forall₃_congr fun f hf hs => and_iff_left fun _ _ => rfl

theorem length_flatMap_data (samples : List SampleEntry) :
    (samples.flatMap (·.data)).length = ((samples.map (·.data)).map List.length).sum := by
  rw [length_flatMap, map_map]
  rfl

/-- The samples in the file are not longer than those that were pushed. -/
theorem length_mdatData_le (hk : ∀ f ∈ frames, RecordingFrame avcc asc f) :
    (record frames).mdatData.length ≤
      ((pushedVideo frames).map (·.1.length)).sum + ((pushedAudio frames).map (·.length)).sum := by
  have hv : ((record frames).videoSamples.flatMap (·.data)).length ≤
      ((pushedVideo frames).map (·.1.length)).sum := by
    have hm : ((record frames).videoSamples.map (·.data)).map List.length =
        ((record frames).videoSamples.map (fun s => (s.data, true))).map (·.1.length) := by
      rw [map_map, map_map]
      rfl
    rw [length_flatMap_data, hm, videoSamples_eq]
    exact sum_reported_le (fun f hf => shows_video _ (hk f hf)) fun _ => rfl
  have had : ((record frames).audioSamples.flatMap (·.data)).length ≤
      ((pushedAudio frames).map (·.length)).sum := by
    rw [length_flatMap_data, audioSamples_eq]
    exact sum_reported_le (fun f hf => shows_audio _ (hk f hf)) fun _ => rfl
  rw [Mp4Muxer.mdatData, length_append]
  exact Nat.add_le_add hv had

end Run

/-! ## The recording as a whole -/

/-- **The recording comes back**: the reader reports the samples of both tracks and their
configurations. -/
def Preserved (frames : List MediaFrame) : Prop :=
  ∃ file d, (record frames).finalize = some file ∧ fromBytes file = .ok d ∧
    (∃ track played, d.Reports .video track played ∧ track.config = avcc ∧
      played.map (fun s => (s.data, s.isSync)) = pushedVideo frames) ∧
    ∃ track played, d.Reports .audio track played ∧ track.config = asc ∧
      played.map (·.data) = pushedAudio frames

theorem map_playedFrom {α : Type} (g : DemuxedSample → α) (k : SampleEntry → α) (c : SampleContext)
    (hg : ∀ s : DemuxedSample, ∀ e : SampleEntry, s.data = e.data → s.isSync = true → g s = k e)
    (samples : List SampleEntry) : ∀ tick, (playedFrom c tick samples).map g = samples.map k := by
  induction samples with
  | nil => exact fun _ => rfl
  | cons e samples ih =>
    intro tick
    rw [playedFrom, map_cons, map_cons, ih, hg _ e rfl rfl]

/-- The sample entry of the video track, without its header. -/
def videoEntryBody (avcc : Bytes) : Bytes :=
  visualSampleEntry (pictureSize avcc).1 (pictureSize avcc).2 ++ box (tag 'a' 'v' 'c' 'C') avcc

def recordedTracks (frames : List MediaFrame) (videoDuration audioDuration : Nat) :
    List TrackInFile :=
  (record frames).tracksInFile videoDuration audioDuration
  (box (tag 'a' 'v' 'c' '1') (videoEntryBody avcc))
    (box (tag 'm' 'p' '4' 'a') (audioEntryBody asc))

def recordedVideo (avcc : Bytes) (frames : List MediaFrame) (duration : Nat) : TrackInFile :=
  ⟨(record frames).videoParams duration, .video, box (tag 'a' 'v' 'c' '1') (videoEntryBody avcc),
    mdatStart⟩

def recordedAudio (asc : Bytes) (frames : List MediaFrame) (duration : Nat) : TrackInFile :=
  ⟨(record frames).audioParams duration, .audio, box (tag 'm' 'p' '4' 'a') (audioEntryBody asc),
    mdatStart + ((record frames).videoSamples.flatMap (·.data)).length % 2 ^ 32⟩

section Track

variable {avcc asc file : Bytes} {w : TrackInFile} {r : DemuxedTrack × List DemuxedSample}

theorem read_video (hk : w.kind = .video)
    (he : w.entry = box (tag 'a' 'v' 'c' '1') (videoEntryBody avcc))
    (hlen : 8 + w.entry.length < 2 ^ 32) (h : w.read file = .ok r) :
    r.1.config = extractAvcc (videoEntryBody avcc) ∧
      r.2.map (fun s => (s.data, s.isSync)) = w.params.samples.map fun s => (s.data, true) := by
  obtain ⟨⟨codec, config⟩, params, hst, -, rfl⟩ := TrackInFile.read_eq_ok h
  rw [he, length_box rfl] at hlen
  rw [he, hk, parseStsd_avc1 (by omega)] at hst
  have hc : extractAvcc (videoEntryBody avcc) = config := (Prod.mk.inj (Except.ok.inj hst)).2
  have hp := map_playedFrom (fun s => (s.data, s.isSync)) (fun e => (e.data, true))
    ⟨w.params.trackId, codec, w.params.timescale, [], file⟩ (fun s e hd hsy => by rw [hd, hsy])
    w.params.samples 0
  exact ⟨hc.symm, hp⟩

theorem exists_read_video (file : Bytes) (hk : w.kind = .video)
    (he : w.entry = box (tag 'a' 'v' 'c' '1') (videoEntryBody avcc))
    (hlen : 8 + w.entry.length < 2 ^ 32) (ha : 8 ≤ avcc.length)
    (hb : extractAvcc (videoEntryBody avcc) = avcc) : ∃ r, w.read file = .ok r := by
  rw [he, length_box rfl] at hlen
  obtain ⟨p, hp⟩ := (deriveTrackParams_h264_iff avcc).mpr fun h => by omega
  rw [TrackInFile.read, he, hk, parseStsd_avc1 (by omega), ok_bind, hb, hp]
  exact ⟨_, rfl⟩

theorem read_audio (hk : w.kind = .audio)
    (he : w.entry = box (tag 'm' 'p' '4' 'a') (audioEntryBody asc))
    (hlen : 8 + w.entry.length < 2 ^ 32) (h : w.read file = .ok r) :
    extractAacConfig (audioEntryBody asc) = .ok r.1.config ∧
      r.2.map (·.data) = w.params.samples.map (·.data) := by
  obtain ⟨e, params, hs, -, rfl⟩ := TrackInFile.read_eq_ok h
  rw [he, length_box rfl] at hlen
  rw [he, hk, parseStsd_mp4a (by omega)] at hs
  refine ⟨?_, map_playedFrom _ _ _ (fun s e hd _ => hd) _ 0⟩
  obtain ⟨config, hc, hs⟩ := of_bind_ok hs
  obtain rfl := Except.ok.inj hs
  exact hc

theorem exists_read_audio (file : Bytes) (hk : w.kind = .audio)
    (he : w.entry = box (tag 'm' 'p' '4' 'a') (audioEntryBody asc))
    (hlen : 8 + w.entry.length < 2 ^ 32)
    (hb : extractAacConfig (audioEntryBody asc) = .ok asc) : ∃ r, w.read file = .ok r := by
  rw [he, length_box rfl] at hlen
  obtain ⟨p, hp⟩ := deriveTrackParams_aac asc
  rw [TrackInFile.read, he, hk, parseStsd_mp4a (by omega), hb, ok_bind, pure_bind, hp]
  exact ⟨_, rfl⟩

end Track

section Whole

variable {avcc asc : Bytes} {frames : List MediaFrame}

section

variable (h : Recording avcc asc frames)
include h

theorem Recording.codecs : (∀ c, (record frames).videoCodec = some c → c = .h264) ∧
    ∀ c, (record frames).audioCodec = some c → c = .aac := by
  have hc := fun f hf => codec_of_recordingFrame (h.known f hf)
  exact record_codecs (P := (· = .h264)) (Q := (· = .aac))
    (fun f hf hk => (hc f hf).elim And.right fun ha => nomatch ha.1.symm.trans hk)
    (fun f hf hk => (hc f hf).elim (fun hv => nomatch hv.1.symm.trans hk) And.right)

theorem Recording.videoEntry :
    sampleEntry ((record frames).videoCodec.getD .h264) ((record frames).videoConfig.getD [])
      (record frames).width (record frames).height =
      some (box (tag 'a' 'v' 'c' '1') (videoEntryBody avcc)) := by
  obtain ⟨f, hf, hc⟩ := h.video
  obtain ⟨hc, hpc⟩ := (record_configured h.known).video.resolve_right
    fun hn => nomatch (hn.1 f hf).symm.trans (videoConfigOf_of_config hc)
  have hpr : parseAvccConfig avcc = some avcc :=
    if_pos ⟨h.avccValid.1, Nat.le_of_succ_le h.avccValid.2⟩
  obtain ⟨hw, hh⟩ := Prod.mk.inj hpc
  rw [getD_of_forall h.codecs.1, hc, hw, hh]
  show (parseAvccConfig avcc).bind _ = _
  rw [hpr]
  rfl

theorem Recording.audioEntry : sampleEntry ((record frames).audioCodec.getD .aac)
    ((record frames).audioConfig.getD []) 0 0 =
      some (box (tag 'm' 'p' '4' 'a') (audioEntryBody asc)) := by
  obtain ⟨f, hf, hc⟩ := h.audio
  rw [getD_of_forall h.codecs.2, (record_configured h.known).audio.resolve_right
    fun hn => nomatch (hn f hf).symm.trans (audioConfigOf_of_config hc)]
  rfl

end

theorem role_of_sampleOf {base : UInt32} {f : MediaFrame} {s : SampleEntry}
    (hf : RecordingFrame avcc asc f) (h : sampleOf base f = some s) :
    s.trackId = 0 ∧ VideoSample f ∨ s.trackId = 1 ∧ AudioSample f := by
  rcases codec_of_recordingFrame hf with ⟨hk, hc⟩ | ⟨hk, hc⟩
  · rw [sampleOf_video hk] at h
    cases hd : videoSampleLengthPrefixed f <;> cases ht : isTaken f <;> rw [hd, ht] at h <;> cases h
    exact .inl ⟨rfl, hk, hc, _, hd⟩
  · rw [sampleOf_audio hk hc] at h
    cases hd : aacRawPayload f <;> cases ht : isTaken f <;> rw [hd, ht] at h <;> cases h
    exact .inr ⟨rfl, hk, hc, _, hd⟩

section

variable (h : Recording avcc asc frames)
include h

theorem Recording.sorted (id : Nat) :
    ((record frames).samples.filter (·.trackId == id)).Pairwise fun x y =>
      x.timestamp ≤ y.timestamp := by
  rw [record_samples, pairwise_filter, pairwise_filterMap]
  refine h.order.imp_of_mem ?_
  intro f g hf hg hle x hx y hy hxd hyd
  have hs : x.trackId = y.trackId := (beq_iff_eq.mp hxd).trans (beq_iff_eq.mp hyd).symm
  rw [(sampleOf_fields hx).1, (sampleOf_fields hy).1]
  have hc : f.timestamp ≤ g.timestamp := by
    apply hle
    rcases role_of_sampleOf (h.known f hf) hx with ⟨hxv, hfs⟩ | ⟨hxa, hfs⟩
    · rcases role_of_sampleOf (h.known g hg) hy with ⟨-, hgs⟩ | ⟨hya, -⟩
      · exact .inl ⟨hfs, hgs⟩
      · omega
    · rcases role_of_sampleOf (h.known g hg) hy with ⟨hyv, -⟩ | ⟨-, hgs⟩
      · omega
      · exact .inr ⟨hfs, hgs⟩
  have hn : f.timestamp.toNat ≤ g.timestamp.toNat := UInt32.le_iff_toNat_le.mp hc
  omega

theorem Recording.mdat : (record frames).mdatData.length < 2 ^ 31 :=
  lt_of_le_of_lt (length_mdatData_le h.known) h.size

/-- **The file of a recording**: its two tracks under their sample entries. -/
theorem Recording.fromBytes_finalize (hf : TablesFit frames)
    (hne : (record frames).samples ≠ []) : ∃ moov videoDuration audioDuration,
      (record frames).finalize = some ((record frames).file moov) ∧
      (∀ w ∈ recordedTracks avcc asc frames videoDuration audioDuration, 8 + w.entry.length <
        2 ^ 32) ∧
      ∀ d, fromBytes ((record frames).file moov) = .ok d ↔ readTracks ((record frames).file moov)
        (recordedTracks avcc asc frames videoDuration audioDuration) ⟨[], []⟩ = .ok d ∧
          d.tracks ≠ [] := by
  obtain ⟨moov, hmv⟩ := exists_moovData (record_sound frames) hf.count (timestamp_lt frames)
    h.sorted h.mdat (fun _ => ⟨_, h.videoEntry⟩) fun _ => ⟨_, h.audioEntry⟩
  have hmd := h.mdat
  obtain ⟨vd, ad, ve, ae, hv, had, het, hr⟩ :=
    Mp4.fromBytes_finalize (record_sound frames) ⟨by omega, hf.moov⟩ hmv
  -- an entry matters only for a track that is written
  have hs : (record frames).tracksInFile vd ad ve ae = recordedTracks avcc asc frames vd ad := by
    refine congrArg₂ (· ++ ·) ?_ ?_
    · by_cases hem : (record frames).videoSamples.isEmpty = true
      · rw [if_pos hem, if_pos hem]
      · have hen := (hv fun hnil => hem (isEmpty_iff.mpr hnil)).1
        rw [← Option.some.inj (hen.symm.trans h.videoEntry)]
    · by_cases hem : (record frames).audioSamples.isEmpty = true
      · rw [if_pos hem, if_pos hem]
      · have hen := (had fun hnil => hem (isEmpty_iff.mpr hnil)).1
        rw [← Option.some.inj (hen.symm.trans h.audioEntry)]
  rw [hs] at het hr
  exact ⟨moov, vd, ad, finalize_of_moovData hne hmv, het, hr⟩

end

/-- A track is reported as it is read, if it has samples. -/
theorem reports_iff_read {file : Bytes} {d : Mp4Demuxer} {t : DemuxedTrack} {p : List DemuxedSample}
    {vd ad : Nat} (hok : readTracks file (recordedTracks avcc asc frames vd ad) ⟨[], []⟩ = .ok d) :
    (d.Reports .video t p ↔ (record frames).videoSamples ≠ [] ∧
      (recordedVideo avcc frames vd).read file = .ok (t, p)) ∧
    (d.Reports .audio t p ↔ (record frames).audioSamples ≠ [] ∧
      (recordedAudio asc frames ad).read file = .ok (t, p)) := by
  rw [reports_iff (nodup_tracksInFile _ _ _ _ _) hok,
    reports_iff (nodup_tracksInFile _ _ _ _ _) hok]
  refine ⟨⟨?_, ?_⟩, ⟨?_, ?_⟩⟩
  · rintro ⟨w, hw, hk, hr⟩
    rcases mem_tracksInFile.mp hw with ⟨hv, rfl⟩ | ⟨-, rfl⟩
    · exact ⟨hv, hr⟩
    · cases hk
  · exact fun ⟨hv, hr⟩ => ⟨_, mem_tracksInFile.mpr (.inl ⟨hv, rfl⟩), rfl, hr⟩
  · rintro ⟨w, hw, hk, hr⟩
    rcases mem_tracksInFile.mp hw with ⟨-, rfl⟩ | ⟨ha, rfl⟩
    · cases hk
    · exact ⟨ha, hr⟩
  · exact fun ⟨ha, hr⟩ => ⟨_, mem_tracksInFile.mpr (.inr ⟨ha, rfl⟩), rfl, hr⟩

/-- What must hold of frames and configurations for a recording to come back. -/
structure Recordable (avcc asc : Bytes) (frames : List MediaFrame) : Prop where
  video : ∃ f ∈ frames, VideoSample f
  audio : ∃ f ∈ frames, AudioSample f
  videoSamples : ∀ f ∈ frames, VideoSample f → isConfigFrame f = false ∧ f.keyFrame = true
  audioSamples : ∀ f ∈ frames, AudioSample f → isConfigFrame f = false
  avcc : extractVideoInfo .h264 avcc ≠ some (0x6176, 0x6343) ∧ 8 + avcc.length ≠ 0x61766343
  asc : asc = [0x12, 0x10] ∨ asc.length = 123

theorem extractAvcc_videoEntryBody_iff
    (hlen : 8 + (box (tag 'a' 'v' 'c' '1') (videoEntryBody avcc)).length < 2 ^ 32) :
    extractAvcc (videoEntryBody avcc) = avcc ↔
      extractVideoInfo .h264 avcc ≠ some (0x6176, 0x6343) ∧ 8 + avcc.length ≠ 0x61766343 := by
  have hp : (pictureSize avcc).1 < 2 ^ 16 ∧ (pictureSize avcc).2 < 2 ^ 16 := by
    rw [pictureSize]
    cases hi : extractVideoInfo .h264 avcc with
    | none => exact ⟨Nat.two_pow_pos 16, Nat.two_pow_pos 16⟩
    | some info => exact extractVideoInfo_lt hi
  have hlt : ¬ ((pictureSize avcc).1 = 0x6176 ∧ (pictureSize avcc).2 = 0x6343) ↔
      extractVideoInfo .h264 avcc ≠ some (0x6176, 0x6343) := by
    rw [pictureSize]
    cases extractVideoInfo .h264 avcc with
    | none => exact iff_of_true (fun h => absurd h.1 (by decide)) nofun
    | some info =>
      rw [Option.getD_some]
      refine not_congr ?_
      rw [Option.some.injEq, Prod.ext_iff]
  have hb : (videoEntryBody avcc).length =
      (visualSampleEntry (pictureSize avcc).1 (pictureSize avcc).2).length + (8 + avcc.length) := by
    rw [videoEntryBody, length_append, length_box rfl]
  rw [length_box rfl] at hlen
  rw [videoEntryBody, extractAvcc_iff hp.1 hp.2 (by omega), hlt]

theorem extractAacConfig_audioEntryBody_iff (has : 2 ≤ asc.length)
    (hlen : 8 + (box (tag 'm' 'p' '4' 'a') (audioEntryBody asc)).length < 2 ^ 32) :
    extractAacConfig (audioEntryBody asc) = .ok asc ↔ asc = [0x12, 0x10] ∨ asc.length = 123 := by
  have hb : (audioEntryBody asc).length = (audioSampleEntry (configToSampleRate asc)).length +
      (8 + (esdsData asc).length) := by
    rw [audioEntryBody, length_append, length_box rfl]
  rw [length_box rfl] at hlen
  rw [audioEntryBody, extractAacConfig_iff has (by omega)]

theorem Preserved.recordable (hp : Preserved avcc asc frames) (h : Recording avcc asc frames)
    (hft : TablesFit frames) : Recordable avcc asc frames := by
  obtain ⟨file, d, hfn, hfr, ⟨vt, vp, hvr, hvc, hvs⟩, at', ap, har, hac, has⟩ := hp
  have hne : (record frames).samples ≠ [] := by
    -- an empty recording is an empty file, which the reader rejects
    intro hnil
    rw [Mp4Muxer.finalize, hnil] at hfn
    rw [← Option.some.inj (show some [] = some file from hfn)] at hfr
    cases hfr
  obtain ⟨moov, vd, ad, hfl, he, hr⟩ := h.fromBytes_finalize hft hne
  obtain rfl := Option.some.inj (hfl.symm.trans hfn)
  have hok := ((hr d).mp hfr).1
  obtain ⟨hv, hvd⟩ := (reports_iff_read hok).1.mp hvr
  obtain ⟨ha, had⟩ := (reports_iff_read hok).2.mp har
  have hvl := he _ (mem_tracksInFile.mpr (.inl ⟨hv, rfl⟩))
  have hal := he _ (mem_tracksInFile.mpr (.inr ⟨ha, rfl⟩))
  obtain ⟨hvb, hvm⟩ := read_video rfl rfl hvl hvd
  obtain ⟨hab, ham⟩ := read_audio rfl rfl hal had
  have hvs : _ = pushedVideo frames := hvm.symm.trans hvs
  have has : _ = pushedAudio frames := ham.symm.trans has
  exact
    { video := (exists_sample_of_pushed fun f hf => shows_video 0 (h.known f hf)).mp fun hnil =>
      hv (map_eq_nil_iff.mp (hvs.trans hnil))
      audio := (exists_sample_of_pushed fun f hf => shows_audio 0 (h.known f hf)).mp fun hnil =>
        ha (map_eq_nil_iff.mp (has.trans hnil))
      videoSamples := (videoSamples_eq_pushed_iff h.known).mp hvs
      audioSamples := (audioSamples_eq_pushed_iff h.known).mp has
      avcc := (extractAvcc_videoEntryBody_iff hvl).mp (hvb.symm.trans hvc)
      asc := (extractAacConfig_audioEntryBody_iff h.ascValid hal).mp
        (hab.trans (congrArg Except.ok hac)) }

theorem Recordable.preserved (hr : Recordable avcc asc frames) (h : Recording avcc asc frames)
    (hft : TablesFit frames) : Preserved avcc asc frames := by
  have hvs := (videoSamples_eq_pushed_iff h.known).mpr hr.videoSamples
  have has := (audioSamples_eq_pushed_iff h.known).mpr hr.audioSamples
  have hv : (record frames).videoSamples ≠ [] := by
    intro hnil
    rw [hnil] at hvs
    exact (exists_sample_of_pushed fun f hf => shows_video 0 (h.known f hf)).mpr hr.video hvs.symm
  have ha : (record frames).audioSamples ≠ [] := by
    intro hnil
    rw [hnil] at has
    exact (exists_sample_of_pushed fun f hf => shows_audio 0 (h.known f hf)).mpr hr.audio has.symm
  obtain ⟨moov, vd, ad, hfl, he, hrd⟩ :=
    h.fromBytes_finalize hft fun hnil => hv ((samples_eq_nil_iff frames).mp hnil).1
  have hvl := he _ (mem_tracksInFile.mpr (.inl ⟨hv, rfl⟩))
  have hal := he _ (mem_tracksInFile.mpr (.inr ⟨ha, rfl⟩))
  have hvb := (extractAvcc_videoEntryBody_iff hvl).mpr hr.avcc
  have hab := (extractAacConfig_audioEntryBody_iff h.ascValid hal).mpr hr.asc
  obtain ⟨⟨vt, vp⟩, hvr⟩ :=
    exists_read_video (w := recordedVideo avcc frames vd) ((record frames).file moov) rfl rfl hvl
    h.avccValid.2 hvb
  obtain ⟨⟨at', ap⟩, har⟩ := exists_read_audio (w := recordedAudio asc frames ad)
    ((record frames).file moov) rfl rfl hal hab
  have hrs : ∀ w ∈ recordedTracks avcc asc frames vd ad, ∃ r,
      w.read ((record frames).file moov) = .ok r := by
    intro w hw
    rcases mem_tracksInFile.mp hw with ⟨-, rfl⟩ | ⟨-, rfl⟩
    · exact ⟨_, hvr⟩
    · exact ⟨_, har⟩
  obtain ⟨d, hd⟩ := readTracks_ok (d := ⟨[], []⟩) hrs
  obtain ⟨hvc, hvm⟩ := read_video rfl rfl hvl hvr
  obtain ⟨hac, ham⟩ := read_audio rfl rfl hal har
  have hvp := (reports_iff_read hd).1.mpr ⟨hv, hvr⟩
  refine ⟨_, d, hfl, (hrd d).mpr ⟨hd, tracks_ne_nil_of_reports hvp⟩,
    ⟨vt, vp, hvp, hvc.trans hvb, hvm.trans hvs⟩, at', ap, ?_, ?_, ham.trans has⟩
  · exact (reports_iff_read hd).2.mpr ⟨ha, har⟩
  · exact Except.ok.inj (hac.symm.trans hab)

/-- **A recording comes back** just if its frames and configurations are recordable. -/
theorem preserved_iff_recordable (h : Recording avcc asc frames) (hfit : TablesFit frames) :
    Preserved avcc asc frames ↔ Recordable avcc asc frames :=
  ⟨fun hp => hp.recordable h hfit, fun hr => hr.preserved h hfit⟩

end Whole

/-! ## Two recordings -/

/-- A recording of one picture and one AAC frame, with the configuration of 44.1 kHz stereo or
another one. -/
def shortRecording (asc : Bytes) : List MediaFrame :=
  [⟨0, .video, .h264, 0, 0, 0, [1, 0x42, 0, 0x1E, 0xFF, 0xE1, 0, 0], .avcc, true, true⟩,
    ⟨1, .audio, .aac, 0, 0, 0, asc, .aacAudioSpecificConfig, false, true⟩,
    ⟨0, .video, .h264, 0, 0, 0, [0, 0, 0, 1, 0x65], .avcc, true, false⟩,
    ⟨1, .audio, .aac, 10, 0, 0, [0x21], .aacRaw, false, false⟩]

theorem recording_shortRecording {asc : Bytes} (h : 2 ≤ asc.length) :
    Recording [1, 0x42, 0, 0x1E, 0xFF, 0xE1, 0, 0] asc (shortRecording asc) := by
  refine ⟨?_, ?_, ?_, by decide, h, ?_, ?_⟩
  · simp only [shortRecording, forall_mem_cons]
    exact ⟨.inl ⟨rfl, rfl, rfl, rfl⟩, .inr (.inl ⟨rfl, rfl, rfl, rfl⟩),
      .inr (.inr (.inl ⟨rfl, rfl, _, rfl⟩)), .inr (.inr (.inr ⟨rfl, rfl, _, rfl⟩)),
      forall_mem_nil _⟩
  · exact ⟨_, mem_cons_self, rfl, rfl, rfl, rfl⟩
  · exact ⟨_, mem_cons_of_mem _ mem_cons_self, rfl, rfl, rfl, rfl⟩
  · have hc : (shortRecording asc).Pairwise fun f g => f.timestamp ≤ g.timestamp := by
      rw [← pairwise_map]
      show ([0, 0, 0, 10] : List UInt32).Pairwise (· ≤ ·)
      decide
    refine hc.imp ?_
    intro f g hle _
    exact hle
  · show 6 < 2 ^ 31
    decide

theorem tablesFit_short : TablesFit (shortRecording [0x12, 0x10]) :=
  ⟨by decide +kernel, moovData_lt_of_length (n := 995) (by decide +kernel) (by decide)⟩

theorem tablesFit_48k : TablesFit (shortRecording [0x11, 0x90]) :=
  ⟨by decide +kernel, moovData_lt_of_length (n := 995) (by decide +kernel) (by decide)⟩

/-- The recording at 44.1 kHz comes back. -/
theorem preserved_short : Recording [1, 0x42, 0, 0x1E, 0xFF, 0xE1, 0, 0] [0x12, 0x10]
    (shortRecording [0x12, 0x10]) ∧
    TablesFit (shortRecording [0x12, 0x10]) ∧
    Preserved [1, 0x42, 0, 0x1E, 0xFF, 0xE1, 0, 0] [0x12, 0x10] (shortRecording [0x12, 0x10]) := by
  have hr := @recording_shortRecording [0x12, 0x10] (by decide)
  refine ⟨hr, tablesFit_short, (preserved_iff_recordable hr tablesFit_short).mpr ?_⟩
  refine ⟨⟨_, mem_cons_of_mem _ (mem_cons_of_mem _ mem_cons_self), rfl, rfl, _, rfl⟩, ?_, ?_, ?_,
    ?_, .inl rfl⟩
  · exact ⟨_, mem_cons_of_mem _ (mem_cons_of_mem _ (mem_cons_of_mem _ mem_cons_self)), rfl,
      rfl, _, rfl⟩
  · intro f hf hs
    simp only [shortRecording, mem_cons, not_mem_nil, or_false] at hf
    rcases hf with rfl | rfl | rfl | rfl
    · obtain ⟨data, hd⟩ := hs.payload
      cases hd
    · cases hs.kind
    · exact ⟨by decide, rfl⟩
    · cases hs.kind
  · intro f hf hs
    simp only [shortRecording, mem_cons, not_mem_nil, or_false] at hf
    rcases hf with rfl | rfl | rfl | rfl
    · cases hs.kind
    · obtain ⟨data, hd⟩ := hs.payload
      cases hd
    · cases hs.kind
    · decide
  · exact ⟨by decide, by decide⟩

/-- The same recording at 48 kHz does not: the reader reports 44.1 kHz. -/
theorem not_preserved_48k : Recording [1, 0x42, 0, 0x1E, 0xFF, 0xE1, 0, 0] [0x11, 0x90]
    (shortRecording [0x11, 0x90]) ∧
    TablesFit (shortRecording [0x11, 0x90]) ∧
    ¬ Preserved [1, 0x42, 0, 0x1E, 0xFF, 0xE1, 0, 0] [0x11, 0x90]
      (shortRecording [0x11, 0x90]) := by
  have hr := @recording_shortRecording [0x11, 0x90] (by decide)
  refine ⟨hr, tablesFit_48k, fun hp => ?_⟩
  rcases (hp.recordable hr tablesFit_48k).asc with has | has
  · exact absurd has (by decide)
  · exact absurd has (by decide)

end MediaKit.Mp4
