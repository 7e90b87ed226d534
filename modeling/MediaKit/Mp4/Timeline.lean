import MediaKit.Mp4.Descriptors
import MediaKit.Mp4.Recording

/-!
# The timeline of a recording

A sample is pushed with a timestamp in milliseconds. The recorder keeps how long each sample
lasts, in ticks of its track, and the reader adds the durations up again. `onTime_iff` says
what is left of the timestamps: the reader's clock starts at zero with the first sample of
each track, wherever that sample stood, and every gap that is no whole number of ticks loses
the rest, so that the losses add up. The reader must also get that far: it leaves out a track
under a codec that the writer has no entry for, and stops with a fault at some configurations
(`Mp4Muxer.Reads`).

The clock is a matter of numbers only (`ptsList`, `losses`). One step of it keeps
`1000 * tick + lost = rate * (t - t₀)`, and `close_iff` reads the distance to the true time
off that equation.
-/

namespace MediaKit.Mp4

open MediaKit.Core Lib List Option

/-! ## The clock -/

variable {base dd rate : Nat} {f : MediaFrame} {m : Mp4Muxer}

/-- The times that the reader reports, from `tick` on, when samples are stored at these times. -/
def ptsList (rate defaultDuration : Nat) : Nat → List Nat → List Nat
  | _, [] => []
  | tick, [_] => [tick * 1000 / rate % 2 ^ 32]
  | tick, s :: s' :: rest =>
    (tick * 1000 / rate % 2 ^ 32) ::
      ptsList rate defaultDuration (tick + sampleDuration rate defaultDuration (some (s' - s)))
        (s' :: rest)

/-- What a gap loses, in thousandths of a tick: times before the base are stored as zero, and the
duration is rounded down. -/
def lost (rate base t t' : Nat) : Nat :=
  rate * (t' - t) - 1000 * sampleDuration rate 0 (some ((t' - base) - (t - base)))

/-- What is lost up to each sample. -/
def losses (rate base : Nat) : Nat → List Nat → List Nat
  | _, [] => []
  | acc, [_] => [acc]
  | acc, t :: t' :: rest => acc :: losses rate base (acc + lost rate base t t') (t' :: rest)

/-- `x / y`, rounded up. -/
def ceilDiv (x y : Nat) : Nat := (x + y - 1) / y

/-- **The clock of a track keeps time**: at every sample, the offset of the first sample and the
losses so far are no more than a millisecond together. -/
def KeepsTime (rate base : Nat) (times : List Nat) : Prop :=
  ∀ t₀ ∈ times.head?, ∀ x ∈ losses rate base 0 times,
    (((t₀ : Int) - base) + ceilDiv x rate).natAbs ≤ 1

/-- A reported time is within a millisecond of the time since the base. -/
def Close (base : Nat) (pts t : Nat) : Prop := ((pts : Int) - ((t : Int) - base)).natAbs ≤ 1

theorem sub_div_eq {d acc : Nat} (hr : 0 < rate) (hle : acc ≤ rate * d) :
    (rate * d - acc) / rate = d - ceilDiv acc rate ∧ ceilDiv acc rate ≤ d := by
  have hlw : rate * ((acc + rate - 1) / rate) ≤ acc + rate - 1 := Nat.mul_div_le _ _
  have hh : acc + rate - 1 < rate * ((acc + rate - 1) / rate) + rate := Nat.lt_mul_div_succ _ hr
  have hc : ceilDiv acc rate ≤ d := by
    have hlt : (acc + rate - 1) / rate < d + 1 := by
      rw [Nat.div_lt_iff_lt_mul hr, Nat.add_mul, mul_comm d rate]
      omega
    exact Nat.le_of_lt_succ hlt
  refine ⟨?_, hc⟩
  rw [ceilDiv] at hc ⊢
  generalize (acc + rate - 1) / rate = k at hlw hh hc ⊢
  have hm : (d - k) * rate = rate * d - rate * k := by
    rw [mul_comm, Nat.mul_sub]
  refine Nat.div_eq_of_lt_le ?_ ?_
  · omega
  · rw [Nat.add_mul]
    omega

/-- **The distance to the true time**, when `acc` is lost. -/
theorem close_iff {rate base t₀ t tick acc : Nat} (hr : 0 < rate) (ht : t₀ ≤ t) (hlt : t < 2 ^ 32)
    (hc : 1000 * tick + acc = rate * (t - t₀)) :
    Close base (tick * 1000 / rate % 2 ^ 32) t ↔
      (((t₀ : Int) - base) + ceilDiv acc rate).natAbs ≤ 1 := by
  have htc : tick * 1000 = rate * (t - t₀) - acc := by omega
  obtain ⟨hd, hle⟩ := sub_div_eq hr (show acc ≤ rate * (t - t₀) by omega)
  have hp : tick * 1000 / rate % 2 ^ 32 = t - t₀ - ceilDiv acc rate := by
    rw [htc, hd]
    exact Nat.mod_eq_of_lt (by omega)
  rw [Close, hp]
  omega

theorem lost_add {rate base t t' : Nat} (hr : 1000 ≤ rate) (ht : t < t') :
    1000 * sampleDuration rate 0 (some ((t' - base) - (t - base))) + lost rate base t t' =
      rate * (t' - t) := by
  have hg : max ((t' - base) - (t - base)) 1 ≤ t' - t := by omega
  have hs : max ((t' - base) - (t - base)) 1 * rate ≤ rate * (t' - t) := by
    rw [mul_comm rate]
    exact Nat.mul_le_mul_right _ hg
  have ho : 1000 * 1 ≤ rate * (t' - t) := Nat.mul_le_mul hr (by omega)
  have hd : 1000 * sampleDuration rate 0 (some ((t' - base) - (t - base))) ≤ rate * (t' - t) := by
    show 1000 * max 1 (min (max ((t' - base) - (t - base)) 1 * rate / 1000) (2 ^ 32 - 1)) ≤ _
    omega
  rw [lost]
  omega

/-- **The clock from a sample on.** The induction is over the samples; `1000 * tick + acc` stays the
time since the first sample. -/
theorem forall₂_ptsList_iff {t₀ : Nat} (hrt : 1000 ≤ rate) (times : List Nat) :
    ∀ {t tick acc : Nat},
    (t :: times).Pairwise (· < ·) → (∀ x ∈ t :: times, x < 2 ^ 32) → t₀ ≤ t →
      1000 * tick + acc = rate * (t - t₀) →
      (Forall₂ (Close base) (ptsList rate dd tick ((t :: times).map (· - base))) (t :: times) ↔
        ∀ x ∈ losses rate base acc (t :: times),
          (((t₀ : Int) - base) + ceilDiv x rate).natAbs ≤ 1) := by
  induction times with
  | nil =>
    intro t tick acc _ hlt ht hc
    have ho := @close_iff rate base t₀ t tick acc (by omega) ht (hlt t mem_cons_self) hc
    rw [losses, forall_mem_singleton, ← ho]
    exact ⟨fun h => (forall₂_cons.mp h).1, fun h => Forall₂.cons h Forall₂.nil⟩
  | cons t' times ih =>
    intro t tick acc hsr hlt ht hc
    obtain ⟨hf, hsr⟩ := pairwise_cons.mp hsr
    have hn : t < t' := hf t' mem_cons_self
    have ho := @close_iff rate base t₀ t tick acc (by omega) ht (hlt t mem_cons_self) hc
    have hst : 1000 * (tick + sampleDuration rate dd (some ((t' - base) - (t - base)))) +
      (acc + lost rate base t t') =
        rate * (t' - t₀) := by
      have hls := @lost_add rate base t t' hrt hn
      have hsp : rate * (t' - t₀) = rate * (t - t₀) + rate * (t' - t) := by
        rw [← Nat.mul_add]
        congr 1
        omega
      have hsm : sampleDuration rate dd (some ((t' - base) - (t - base))) =
          sampleDuration rate 0 (some ((t' - base) - (t - base))) := rfl
      omega
    have hrs := ih hsr (fun x hx => hlt x (mem_cons_of_mem _ hx)) (by omega) hst
    rw [losses, forall_mem_cons, ← ho, ← hrs]
    exact forall₂_cons

/-- **The clock of a track.** -/
theorem keepsTime_iff {times : List Nat} (hr : 1000 ≤ rate) (hsr : times.Pairwise (· < ·))
    (hlt : ∀ x ∈ times, x < 2 ^ 32) :
    Forall₂ (Close base) (ptsList rate dd 0 (times.map (· - base))) times ↔
    KeepsTime rate base times := by
  cases times with
  | nil => exact iff_of_true Forall₂.nil nofun
  | cons t times =>
    have hst : 1000 * 0 + 0 = rate * (t - t) := by
      rw [Nat.sub_self, Nat.mul_zero, Nat.mul_zero]
    rw [forall₂_ptsList_iff hr times hsr hlt (Nat.le_refl t) hst]
    constructor
    · intro h t₀ ht₀ x hx
      rw [← some.inj (show some t = some t₀ from ht₀)]
      exact h x hx
    · exact fun h => h t rfl

/-! ## The samples of a track -/

theorem ptsMs_playedFrom (c : SampleContext) (dd : Nat) (samples : List SampleEntry) :
    ∀ (previous : Option Nat) (tick : Nat),
      (playedFrom c tick (setTrackDurations c.timescale dd previous samples)).map (·.ptsMs) =
        ptsList c.timescale dd tick (samples.map (·.timestamp)) := by
  induction samples with
  | nil => exact fun _ _ => rfl
  | cons s rest ih =>
    intro previous tick
    cases rest with
    | nil => rfl
    | cons next rest =>
      rw [setTrackDurations, playedFrom, map_cons, ih]
      rfl

/-- The frames that become samples of a track. -/
def trackFrames (id : Nat) (frames : List MediaFrame) : List MediaFrame :=
  frames.filter fun f => (sampleOf 0 f).any (·.trackId == id)

/-- Their timestamps. -/
def trackTimes (id : Nat) (frames : List MediaFrame) : List Nat :=
  (trackFrames id frames).map (·.timestamp.toNat)

theorem sampleOf_base (base : UInt32) (f : MediaFrame) :
    sampleOf base f = (sampleOf 0 f).map fun s =>
      { s with timestamp := f.timestamp.toNat - base.toNat } := by
  rw [sampleOf, sampleOf]
  split
  · rfl
  · split
    · rfl
    · rw [Option.map_map]
      rfl

theorem timestamps_of_track (id : Nat) (base : UInt32) (frames : List MediaFrame) :
    ((frames.filterMap (sampleOf base)).filter (·.trackId == id)).map (·.timestamp) =
      (trackTimes id frames).map (· - base.toNat) := by
  rw [trackTimes, trackFrames]
  induction frames with
  | nil => rfl
  | cons f frames ih =>
    cases hs : sampleOf 0 f with
    | none =>
      have hn : sampleOf base f = none := by
        rw [sampleOf_base, hs]
        rfl
      rw [filterMap_cons_none hn, filter_cons_of_neg (by rw [hs]; exact Bool.false_ne_true)]
      exact ih
    | some s =>
      have hsm : sampleOf base f = some { s with timestamp := f.timestamp.toNat - base.toNat } := by
        rw [sampleOf_base, hs]
        rfl
      rw [filterMap_cons_some hsm]
      by_cases hid : (s.trackId == id) = true
      · rw [filter_cons_of_pos (by exact hid), filter_cons_of_pos (by rw [hs]; exact hid), map_cons,
          map_cons, map_cons, ih]
      · rw [filter_cons_of_neg (by exact hid), filter_cons_of_neg (by rw [hs]; exact hid)]
        exact ih

/-! ## The rate of the audio track -/

/-- The rate that an audio configuration announces. -/
def audioConfigRate (f : MediaFrame) : Option Nat :=
  if (f.configFrame || isConfigFrame f) ∧ f.frameType = .audio then
    (if f.codec = .aac then aacAudioSpecificConfig f else .ok f.data).toOption.map
    configToSampleRate
  else none

/-- The rate of the last audio configuration, or 44100. -/
def audioRate (frames : List MediaFrame) : Nat :=
  (frames.reverse.findSome? audioConfigRate).getD 44100

theorem audioConfigRate_eq (f : MediaFrame) :
    audioConfigRate f = (audioConfigOf f).map configToSampleRate := by
  rw [audioConfigRate, audioConfigOf, isTaken]
  split <;> rfl

theorem record_sampleRate (frames : List MediaFrame) :
    (record frames).sampleRate = (frames.reverse.findSome? audioConfigRate).getD 0 := by
  induction frames using reverseRecOn with
  | nil => rfl
  | append_singleton frames f ih =>
    have hs : (record (frames ++ [f])).sampleRate =
        (audioConfigRate f).getD (record frames).sampleRate := by
      rw [record, foldl_append, audioConfigRate_eq]
      exact congrArg Mp4Muxer.sampleRate (pushFrame_eq _ f)
    rw [hs, ih, reverse_append, reverse_singleton, singleton_append, findSome?_cons]
    cases audioConfigRate f with
    | none | some => rfl

theorem audioConfigRate_ge (h : audioConfigRate f = some rate) : 7350 ≤ rate := by
  rw [audioConfigRate_eq] at h
  obtain ⟨config, -, rfl⟩ := map_eq_some_iff.mp h
  rw [configToSampleRate]
  split
  · split <;> decide
  · decide

theorem record_audioTimescale (frames : List MediaFrame) :
    (record frames).audioTimescale = audioRate frames ∧ 7350 ≤ audioRate frames := by
  rw [Mp4Muxer.audioTimescale, record_sampleRate, audioRate]
  cases hr : frames.reverse.findSome? audioConfigRate with
  | none => exact ⟨rfl, by decide⟩
  | some rate =>
    obtain ⟨f, -, hf⟩ := exists_of_findSome?_eq_some hr
    have hge := audioConfigRate_ge hf
    rw [getD_some, getD_some]
    exact ⟨if_pos (by omega), hge⟩

/-! ## Configurations that are read -/

/-- **The reader accepts a track** under the codec and the configuration that the recorder has
for it. A record of seven octets that announces units is one octet too short for the reader;
it does not see it if the size of the picture spells the letters that it looks for. -/
def Mp4Muxer.Reads (m : Mp4Muxer) : TrackKind → Prop
  | .video =>
    match m.videoCodec.getD .h264 with
    | .h264 => ∃ avcc, parseAvccConfig (m.videoConfig.getD []) = some avcc ∧
        ¬ (avcc.length = 7 ∧ avcc.getD 5 0 &&& 0x1F ≠ 0 ∧ ¬ (m.width = 0x6176 ∧ m.height = 0x6343))
    | .h265 => ∃ hvcc, parseHvccConfig (m.videoConfig.getD []) = some hvcc
    | _ => False
  | .audio => ∃ asc, extractAacConfig (audioEntryBody (m.audioConfig.getD [])) = .ok asc
  | .other => False

section Reads

variable {entry file : Bytes} {w : TrackInFile}

theorem exists_read_iff : (∃ r, w.read file = .ok r) ↔ ∃ e p,
    parseStsd (stsdData w.entry) w.kind = .ok e ∧ deriveTrackParams w.kind e.1 e.2 = .ok p := by
  constructor
  · rintro ⟨r, hr⟩
    obtain ⟨e, p, he, hp, -⟩ := TrackInFile.read_eq_ok hr
    exact ⟨e, p, he, hp⟩
  · rintro ⟨e, p, he, hp⟩
    rw [TrackInFile.read, he, ok_bind, hp]
    exact ⟨_, rfl⟩

/-- The codecs without an entry for a video track. -/
theorem parseStsd_other {codec : CodecId} {config : Bytes} {width height : Nat}
    {e : CodecId × Bytes} (h264 : codec ≠ .h264) (h265 : codec ≠ .h265)
    (he : sampleEntry codec config width height = some entry) (hlen : 8 + entry.length < 2 ^ 32) :
    parseStsd (stsdData entry) .video ≠ .ok e := by
  by_cases hac : codec = .aac
  · subst hac
    obtain rfl : box (tag 'm' 'p' '4' 'a') (audioEntryBody config) = entry := some.inj he
    rw [length_box rfl] at hlen
    obtain ⟨hw, hs, hc⟩ :=
      @parseStsd_box (tag 'm' 'p' '4' 'a') (audioEntryBody config) rfl (by omega)
    rw [parseStsd, if_neg hs, hc, hw]
    rintro ⟨⟩
  · have hw : walkTopBoxes ((stsdData []).drop 8) = .ok [] := rfl
    have hnil : sampleEntry codec config width height = some [] := by
      rw [sampleEntry]
      · exact h264
      · exact h265
      · exact hac
    rw [← some.inj (hnil.symm.trans he), parseStsd, if_neg (by decide),
      show ofBe (((stsdData []).drop 4).take 4) = 1 from rfl, hw]
    rintro ⟨⟩

theorem reads_video_iff {m : Mp4Muxer} (hs : m.Sound) (hk : w.kind = .video)
    (hen : sampleEntry (m.videoCodec.getD .h264) (m.videoConfig.getD []) m.width m.height =
      some w.entry)
    (hlen : 8 + w.entry.length < 2 ^ 32) : (∃ r, w.read file = .ok r) ↔ m.Reads .video := by
  rw [exists_read_iff, hk, Mp4Muxer.Reads]
  by_cases h264 : m.videoCodec.getD .h264 = .h264
  · rw [h264] at hen ⊢
    obtain ⟨avcc, hav, hbx⟩ := bind_eq_some_iff.mp hen
    rw [← some.inj hbx, makeBox, length_box rfl] at hlen
    have hbd : 8 + avcc.length < 2 ^ 32 := by
      rw [length_append, makeBox, length_box rfl] at hlen
      omega
    rw [← some.inj hbx, makeBox, parseStsd_avc1 (by omega)]
    simp only [Except.ok.injEq, exists_eq_left', hav, some.injEq, exists_and_left]
    rw [deriveTrackParams_h264_iff, makeBox]
    rcases extractAvcc_cases hs.width hs.height hbd with ⟨hp, hl⟩ | ⟨hb, hl⟩ | ⟨hc, heq⟩
    · rw [hl]
      exact iff_of_true (fun h => absurd h.1 (by omega)) fun h => h.2.2 hp
    · rw [hl]
      exact iff_of_true (fun h => absurd h.1 (by omega)) fun h => absurd h.1 (by omega)
    · rw [heq]
      exact not_congr (and_congr_right fun _ => (and_iff_left hc.1).symm)
  by_cases h265 : m.videoCodec.getD .h264 = .h265
  · rw [h265] at hen ⊢
    obtain ⟨hvcc, hh, hbx⟩ := bind_eq_some_iff.mp hen
    rw [← some.inj hbx, makeBox, length_box rfl] at hlen
    rw [← some.inj hbx, makeBox, parseStsd_hev1 (by omega)]
    exact iff_of_true ⟨_, _, rfl, rfl⟩ ⟨hvcc, hh⟩
  · refine iff_of_false ?_ ?_
    · rintro ⟨e, -, he, -⟩
      exact parseStsd_other h264 h265 hen hlen he
    · split
      next h => exact absurd h h264
      next h => exact absurd h h265
      next => exact id

theorem reads_audio_iff {m : Mp4Muxer} (hc : m.audioCodec.getD .aac = .aac) (hk : w.kind = .audio)
    (he : sampleEntry (m.audioCodec.getD .aac) (m.audioConfig.getD []) 0 0 = some w.entry)
    (hlen : 8 + w.entry.length < 2 ^ 32) : (∃ r, w.read file = .ok r) ↔ m.Reads .audio := by
  rw [hc] at he
  have hb : box (tag 'm' 'p' '4' 'a') (audioEntryBody (m.audioConfig.getD [])) = w.entry :=
    some.inj he
  rw [← hb, length_box rfl] at hlen
  rw [exists_read_iff, hk, ← hb, parseStsd_mp4a (by omega), Mp4Muxer.Reads]
  cases extractAacConfig (audioEntryBody (m.audioConfig.getD [])) with
  | error => exact iff_of_false (fun ⟨_, _, h, _⟩ => nomatch h) nofun
  | ok asc =>
    obtain ⟨p, hp⟩ := deriveTrackParams_aac asc
    exact iff_of_true ⟨_, p, rfl, hp⟩ ⟨asc, rfl⟩

end Reads

/-! ## The recording as a whole -/

/-- The number under which the recorder keeps the samples of a track. -/
def indexOf : TrackKind → Nat
  | .video => 0
  | _ => 1

variable (frames : List MediaFrame)

/-- The ticks of a second in a track. -/
def clockRate : TrackKind → Nat
  | .video => 90000
  | _ => audioRate frames

/-- AAC frames beside those of a video track, in order. -/
structure TimedFrames : Prop where
  audio : ∀ f ∈ frames, f.frameType = .audio → f.codec = .aac
  order : ∀ id, (trackTimes id frames).Pairwise (· < ·)

/-- **The reader reports the times of the frames**: the file is written and read, and each track
that has frames is reported with their times, relative to the first frame and up to a
millisecond. -/
def OnTime : Prop :=
  ∀ kind ∈ [TrackKind.video, .audio], trackTimes (indexOf kind) frames ≠ [] →
    ∃ file d track played, (record frames).finalize = some file ∧ fromBytes file = .ok d ∧
      d.Reports kind track played ∧
      Forall₂ (Close (baseOf frames).toNat) (played.map (·.ptsMs))
        (trackTimes (indexOf kind) frames)

variable {frames} {file moov : Bytes}

theorem trackTimes_lt (id : Nat) (frames : List MediaFrame) :
    ∀ x ∈ trackTimes id frames, x < 2 ^ 32 := by
  intro x hx
  obtain ⟨f, -, rfl⟩ := mem_map.mp hx
  exact f.timestamp.toNat_lt

theorem clockRate_ge (kind : TrackKind) : 1000 ≤ clockRate frames kind := by
  have hr := (record_audioTimescale frames).2
  cases kind with
  | video => exact (by decide : 1000 ≤ 90000)
  | audio | other => exact le_trans (by decide) hr

/-- A track has samples in the recorder if frames become samples of it. -/
theorem samples_eq_nil_iff_times (frames : List MediaFrame) :
    ((record frames).videoSamples = [] ↔ trackTimes 0 frames = []) ∧
      ((record frames).audioSamples = [] ↔ trackTimes 1 frames = []) := by
  have ht (id : Nat) : (record frames).samples.filter (·.trackId == id) = [] ↔
      trackTimes id frames = [] := by
    have hm := timestamps_of_track id (baseOf frames) frames
    rw [← record_samples] at hm
    rw [← map_eq_nil_iff (f := (·.timestamp)), hm, map_eq_nil_iff]
  constructor
  · rw [← ht, ← map_eq_nil_iff (f := SampleEntry.data), map_videoSamples _ (fun _ _ => rfl),
      map_eq_nil_iff]
  · rw [← ht, ← map_eq_nil_iff (f := SampleEntry.data), map_audioSamples _ (fun _ _ => rfl),
      map_eq_nil_iff]

theorem moovData_of_read {file : Bytes} {d : Mp4Demuxer} (hf : m.finalize = some file)
    (hr : fromBytes file = .ok d) : m.samples ≠ [] ∧ ∃ moov, m.moovData = some moov ∧
    file = m.file moov := by
  have hne : m.samples ≠ [] := by
    intro hnil
    rw [Mp4Muxer.finalize, hnil] at hf
    rw [← some.inj (show some [] = some file from hf)] at hr
    cases hr
  refine ⟨hne, ?_⟩
  cases hm : m.moovData with
  | none =>
    rw [Mp4Muxer.finalize, if_neg (fun he => hne (isEmpty_iff.mp he)), hm] at hf
    cases hf
  | some moov => exact ⟨moov, rfl, some.inj (hf.symm.trans (finalize_of_moovData hne hm))⟩

section Track

variable {vd ad : Nat} {ve ae : Bytes} {w : TrackInFile}

theorem exists_mem_tracksInFile (vd ad : Nat) (ve ae : Bytes) {kind : TrackKind}
    (hk : kind ∈ [TrackKind.video, .audio]) (hne : trackTimes (indexOf kind) frames ≠ []) :
    ∃ w ∈ (record frames).tracksInFile vd ad ve ae, w.kind = kind := by
  obtain ⟨hv, ha⟩ := samples_eq_nil_iff_times frames
  simp only [mem_cons, not_mem_nil, or_false] at hk
  rcases hk with rfl | rfl
  · exact ⟨_, mem_tracksInFile.mpr (.inl ⟨fun hnil => hne (hv.mp hnil), rfl⟩), rfl⟩
  · exact ⟨_, mem_tracksInFile.mpr (.inr ⟨fun hnil => hne (ha.mp hnil), rfl⟩), rfl⟩

variable (hw : w ∈ (record frames).tracksInFile vd ad ve ae)
include hw

theorem kind_of_mem_tracksInFile :
    w.kind ∈ [TrackKind.video, .audio] ∧ trackTimes (indexOf w.kind) frames ≠ [] := by
  obtain ⟨hv, ha⟩ := samples_eq_nil_iff_times frames
  rcases mem_tracksInFile.mp hw with ⟨hne, rfl⟩ | ⟨hne, rfl⟩
  · exact ⟨mem_cons_self, fun hnil => hne (hv.mpr hnil)⟩
  · exact ⟨mem_cons_of_mem _ mem_cons_self, fun hnil => hne (ha.mpr hnil)⟩

/-- **A track of the file is read** if the reader accepts its configuration. -/
theorem read_iff_reads (h : TimedFrames frames) (hv : Checked ((record frames).videoParams vd) ve)
    (had : Checked ((record frames).audioParams ad) ae) (hlen : 8 + w.entry.length < 2 ^ 32) :
    (∃ r, w.read file = .ok r) ↔ (record frames).Reads w.kind := by
  rcases mem_tracksInFile.mp hw with ⟨hne, rfl⟩ | ⟨hne, rfl⟩
  · exact reads_video_iff (record_sound frames) rfl (hv hne).1 hlen
  · have hc := (record_codecs (P := fun _ => True) (Q := (· = .aac))
      (fun _ _ _ => trivial) h.audio).2
    exact reads_audio_iff (getD_of_forall hc) rfl (had hne).1 hlen

/-- **The times that are read of a track.** -/
theorem ptsMs_of_read {r : DemuxedTrack × List DemuxedSample} (hr : w.read file = .ok r) :
    ∃ dd, r.2.map (·.ptsMs) = ptsList (clockRate frames w.kind) dd 0
      ((trackTimes (indexOf w.kind) frames).map (· - (baseOf frames).toNat)) := by
  obtain ⟨e, params, -, -, rfl⟩ := TrackInFile.read_eq_ok hr
  rw [← timestamps_of_track, ← record_samples]
  rcases mem_tracksInFile.mp hw with ⟨-, rfl⟩ | ⟨-, rfl⟩
  · exact ⟨3000, ptsMs_playedFrom ⟨1, e.1, videoTimescale, [], _⟩ 3000 _ none 0⟩
  · refine ⟨max ((record frames).audioTimescale / 44) 1, ?_⟩
    rw [show clockRate frames .audio = _ from (record_audioTimescale frames).1.symm]
    exact ptsMs_playedFrom ⟨_, e.1, (record frames).audioTimescale, [], _⟩ _ _ none 0

end Track

section Whole

variable (h : TimedFrames frames) (hfit : TablesFit frames)
  (hmdat : (record frames).mdatData.length < 2 ^ 31)
include h hfit hmdat

/-- Tables are written if the configurations of all tracks with samples can be. -/
theorem exists_moovData_of_reads (hrs : ∀ kind ∈ [TrackKind.video, .audio],
    trackTimes (indexOf kind) frames ≠ [] → (record frames).Reads kind) :
    ∃ moov, (record frames).moovData = some moov := by
  obtain ⟨hv, ha⟩ := samples_eq_nil_iff_times frames
  refine exists_moovData (record_sound frames) hfit.count (timestamp_lt frames) ?_ hmdat ?_ ?_
  · intro id
    have ht := timestamps_of_track id (baseOf frames) frames
    rw [← record_samples] at ht
    rw [← pairwise_map, ht, pairwise_map]
    exact (h.order id).imp fun hlt => by omega
  · intro hne
    have hrd := hrs .video (by decide) fun hnil => hne (hv.mpr hnil)
    rw [Mp4Muxer.Reads] at hrd
    split at hrd
    next hc =>
      obtain ⟨avcc, hav, -⟩ := hrd
      exact ⟨_, by rw [hc, sampleEntry, hav]; rfl⟩
    next hc =>
      obtain ⟨hvcc, hh⟩ := hrd
      exact ⟨_, by rw [hc, sampleEntry, hh]; rfl⟩
    next => exact hrd.elim
  · have hc := (record_codecs (P := fun _ => True) (Q := (· = .aac))
      (fun _ _ _ => trivial) h.audio).2
    exact fun _ => ⟨_, by rw [getD_of_forall hc]; rfl⟩

theorem OnTime.keepsTime (hon : OnTime frames) (kind : TrackKind)
    (hk : kind ∈ [TrackKind.video, .audio]) (hne : trackTimes (indexOf kind) frames ≠ []) :
    (record frames).Reads kind ∧
      KeepsTime (clockRate frames kind)
        (baseOf frames).toNat (trackTimes (indexOf kind) frames) := by
  obtain ⟨file, d, track, played, hfl, hrd, hrp, hc⟩ := hon kind hk hne
  obtain ⟨hs, moov, hm, rfl⟩ := moovData_of_read hfl hrd
  obtain ⟨vd, ad, ve, ae, hv, ha, he, hfr⟩ :=
    fromBytes_finalize (record_sound frames) ⟨by omega, hfit.moov⟩ hm
  obtain ⟨w, hw, rfl, hwr⟩ :=
    (reports_iff (nodup_tracksInFile _ vd ad ve ae) ((hfr d).mp hrd).1).mp hrp
  refine ⟨(read_iff_reads hw h hv ha (he w hw)).mp ⟨_, hwr⟩, ?_⟩
  obtain ⟨dd, hp⟩ := ptsMs_of_read hw hwr
  rw [hp] at hc
  exact (keepsTime_iff (clockRate_ge _) (h.order _) (trackTimes_lt _ _)).mp hc

end Whole

/-! ## Two recordings -/

/-- Two pictures 40 ms apart, and two AAC frames 50 ms apart, the first one at `start`. -/
def timedRecording (start : UInt32) : List MediaFrame :=
  [⟨0, .video, .h264, 0, 0, 0, [0, 0, 0, 1, 0x65], .avcc, true, false⟩,
    ⟨1, .audio, .aac, start, 0, 0, [0x21], .aacRaw, false, false⟩,
    ⟨0, .video, .h264, 40, 0, 0, [0, 0, 0, 1, 0x65], .avcc, true, false⟩,
    ⟨1, .audio, .aac, start + 50, 0, 0, [0x21], .aacRaw, false, false⟩]

theorem timedFrames_timedRecording {start : UInt32}
    (h0 : (trackTimes 0 (timedRecording start)).Pairwise (· < ·))
    (h1 : (trackTimes 1 (timedRecording start)).Pairwise (· < ·)) :
    TimedFrames (timedRecording start) where
  audio := by
    intro f hf hk
    simp only [timedRecording, mem_cons, not_mem_nil, or_false] at hf
    rcases hf with rfl | rfl | rfl | rfl
    · cases hk
    · rfl
    · cases hk
    · rfl
  order
    | 0 => h0
    | 1 => h1
    | id + 2 => List.Pairwise.nil

theorem tablesFit_timedRecording : TablesFit (timedRecording 0) ∧ TablesFit (timedRecording 100) :=
  ⟨⟨by decide +kernel, moovData_lt_of_length (n := 995) (by decide +kernel) (by decide)⟩,
    ⟨by decide +kernel, moovData_lt_of_length (n := 995) (by decide +kernel) (by decide)⟩⟩

end MediaKit.Mp4
