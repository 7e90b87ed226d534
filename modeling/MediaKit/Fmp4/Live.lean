import MediaKit.Core.GopCache
import MediaKit.Fmp4.Muxer
import MediaKit.Lib.Trace

/-!
# Live fragmented MP4

`handle_fmp4_stream` (`crates/http/src/session.rs`) replays the cached group of pictures and goes on
with the live frames. In both loops a key frame is pushed before the segment is flushed, so that it
ends its segment; the pictures behind it open the next one. A segment can begin with a key frame
only if it holds nothing else (`segments_independent_iff`).

Mirroring notes vs the Rust source:
  * What is written to the client is returned, without the init segment. Each media segment comes
    with the video samples that it was made of.
  * The end of the channel ends the run; a lag only takes frames out of it.
-/

namespace MediaKit.Fmp4

open MediaKit.Core Lib List Option

/-- A media segment, with the video samples in it. -/
structure Sent where
  video : List Fmp4Sample
  segment : Fmp4Segment
  deriving DecidableEq

def Fmp4Muxer.flushSent (m : Fmp4Muxer) : Fmp4Muxer × List Sent :=
  (m.flushSegment.2, m.flushSegment.1.toList.map (⟨m.videoSamples, ·⟩))

open Fmp4Muxer GopCache

/-- A round of either loop. -/
def liveStep (m : Fmp4Muxer) (frame : MediaFrame) : Fmp4Muxer × List Sent :=
  if isConfigFrame frame then (m, [])
  else
    let m := m.pushFrame frame
    if isKey frame then m.flushSent else (m, [])

/-- The cache is read twice, for the configurations and later for the group of pictures. -/
def handleFmp4Stream (first later : GopCache MediaFrame) (live : List MediaFrame) : List Sent :=
  let m := first.getConfigFrames.foldl pushFrame (.new 90000)
  let replay := runLog liveStep m (later.getLatestGopFrames id)
  let flushed := replay.1.flushSent
  replay.2 ++ flushed.2 ++ (runLog liveStep flushed.1 live).2

/-- The first video sample is a key frame. -/
def Sent.Independent (s : Sent) : Prop := ∀ x ∈ s.video.head?, x.isSync = true

instance (s : Sent) : Decidable s.Independent :=
  inferInstanceAs (Decidable (∀ x ∈ s.video.head?, _))

/-- A video sample that depends on others. -/
def isDependent (f : MediaFrame) : Bool :=
  decide (f.frameType = .video) && !(f.configFrame || isConfigFrame f) &&
    (videoSampleLengthPrefixed f).toOption.isSome && !f.keyFrame

/-- A frame at which a segment is cut. -/
def cuts (f : MediaFrame) : Bool := !isConfigFrame f && isKey f

/-- The next segment begins with a sample that depends on others. -/
def Doomed (m : Fmp4Muxer) : Prop := ∃ x ∈ m.videoSamples.head?, x.isSync = false

variable {m : Fmp4Muxer} {f : MediaFrame}

theorem flushSent_iff (m : Fmp4Muxer) : (∀ s ∈ m.flushSent.2, s.Independent) ↔ ¬ Doomed m := by
  cases hv : m.videoSamples with
  | nil => simp [flushSent, Sent.Independent, Doomed, hv]
  | cons x rest => simp [flushSent, flushSegment, Sent.Independent, Doomed, hv]

theorem flushSent_nil (m : Fmp4Muxer) : m.flushSent.1.videoSamples = [] := by
  simp only [flushSent, flushSegment]
  split
  next he => exact isEmpty_iff.mp he.1
  · rfl

theorem videoSamples_config (m : Fmp4Muxer) (hc : (f.configFrame || isConfigFrame f) = true) :
    (m.pushFrame f).videoSamples = m.videoSamples := by
  rw [pushFrame, pushConfig]
  repeat' split
  all_goals rfl

/-- A frame adds at most one sample, which is a key frame if the frame is. -/
theorem videoSamples_pushFrame (m : Fmp4Muxer) (f : MediaFrame) :
    (m.pushFrame f).videoSamples = m.videoSamples ∧ isDependent f = false ∨
      ∃ x, (m.pushFrame f).videoSamples = m.videoSamples ++ [x] ∧ x.isSync = f.keyFrame ∧
      f.frameType = .video ∧
        isDependent f = !f.keyFrame := by
  cases hc : f.configFrame || isConfigFrame f with
  | true => exact .inl ⟨videoSamples_config m hc, by simp [isDependent, hc]⟩
  | false =>
    rw [pushFrame, if_neg (by simp [hc]), pushSample]
    cases hk : f.frameType with
    | video =>
      cases hd : videoSampleLengthPrefixed f with
      | error e => simp [samplePayload, isDependent, hk, hd, Except.toOption]
      | ok data => simp [samplePayload, isDependent, hk, hd, hc, Except.toOption]
    | audio =>
      refine .inl ⟨?_, by simp [isDependent, hk]⟩
      split <;> rfl
    | metadata =>
      refine .inl ⟨?_, by simp [isDependent, hk]⟩
      split <;> rfl

/-- What a round makes of the frame. -/
theorem liveStep_cases (m : Fmp4Muxer) (f : MediaFrame) :
    liveStep m f = (m, []) ∧ cuts f = false ∧ isDependent f = false ∨
      liveStep m f = (m.pushFrame f).flushSent ∧ cuts f = true ∧ f.keyFrame = true ∨
      liveStep m f = (m.pushFrame f, []) ∧ cuts f = false ∧
      (f.frameType = .video → f.keyFrame = false) := by
  cases hc : isConfigFrame f with
  | true => exact .inl ⟨by simp [liveStep, hc], by simp [cuts, hc], by simp [isDependent, hc]⟩
  | false =>
    cases hk : isKey f with
    | true =>
      have hf : f.keyFrame = true := by simp_all [isKey]
      exact .inr (.inl ⟨by simp [liveStep, hc, hk], by simp [cuts, hc, hk], hf⟩)
    | false =>
      refine .inr (.inr ⟨by simp [liveStep, hc, hk], by simp [cuts, hk], ?_⟩)
      intro hv
      simpa [isKey, hv] using hk

theorem Doomed.pushFrame (hm : Doomed m) (f : MediaFrame) : Doomed (m.pushFrame f) := by
  obtain ⟨x, hx, hs⟩ := hm
  refine ⟨x, ?_, hs⟩
  obtain ⟨h, -⟩ | ⟨y, h, -⟩ := videoSamples_pushFrame m f
  · rwa [h]
  · rw [h, head?_append, mem_def.mp hx]
    rfl

theorem run_doomed (frames : List MediaFrame) : ∀ {m : Fmp4Muxer}, Doomed m →
    ((∀ s ∈ (runLog liveStep m frames).2, s.Independent) ↔ ∀ g ∈ frames, cuts g = false) ∧
      ((∀ g ∈ frames, cuts g = false) → Doomed (runLog liveStep m frames).1) := by
  induction frames with
  | nil =>
    intro m hm
    exact ⟨by simp [runLog], fun _ => hm⟩
  | cons f frames ih =>
    intro m hm
    simp only [runLog, forall_mem_append]
    obtain ⟨hs, hc, -⟩ | ⟨hs, hc, -⟩ | ⟨hs, hc, -⟩ := liveStep_cases m f
    · obtain ⟨ha, hl⟩ := ih hm
      simpa [hs, hc, ha] using hl
    · -- the segment that is cut begins as the samples did
      simp [hs, hc, flushSent_iff, hm.pushFrame f]
    · obtain ⟨ha, hl⟩ := ih (hm.pushFrame f)
      simpa [hs, hc, ha] using hl

/-- **A run behind a flush.** -/
theorem run_fresh (frames : List MediaFrame) : ∀ {m : Fmp4Muxer}, m.videoSamples = [] →
    ((∀ s ∈ (runLog liveStep m frames).2, s.Independent) ↔ frames.Pairwise fun f g =>
      isDependent f = true → cuts g = false) ∧
      ((∀ s ∈ (runLog liveStep m frames).2, s.Independent) ∧ ¬ Doomed (runLog liveStep m frames).1 ↔
        ∀ f ∈ frames, isDependent f = false) := by
  induction frames with
  | nil =>
    intro m hm
    simp [runLog, Doomed, hm]
  | cons f frames ih =>
    intro m hm
    simp only [runLog, forall_mem_append, pairwise_cons, forall_mem_cons]
    obtain ⟨hst, hcu, hdp⟩ | ⟨hst, hcu, hk⟩ | ⟨hst, hcu, hk⟩ := liveStep_cases m f
    · simpa [hst, hdp] using ih hm
    · -- the key frame is alone in its segment
      have hf : ¬ Doomed (m.pushFrame f) ∧ isDependent f = false := by
        obtain ⟨h, hdp⟩ | ⟨x, h, hsy, -, hdp⟩ := videoSamples_pushFrame m f
        · exact ⟨by simp [Doomed, h, hm], hdp⟩
        · exact ⟨by simp [Doomed, h, hm, hsy, hk], by simpa [hk] using hdp⟩
      simpa [hst, hf, flushSent_iff] using ih (flushSent_nil (m.pushFrame f))
    · obtain ⟨h, hdp⟩ | ⟨x, h, hsy, hv, hdp⟩ := videoSamples_pushFrame m f
      · simpa [hst, hdp] using ih (h.trans hm)
      · -- the next segment begins with this picture
        have hdm : Doomed (m.pushFrame f) := ⟨x, by simp [h, hm], hsy.trans (hk hv)⟩
        obtain ⟨hal, hl⟩ := run_doomed frames hdm
        have hdp : isDependent f = true := by simpa [hk hv] using hdp
        simp only [hst, hdp, forall_const, not_mem_nil, false_imp_iff, implies_true, true_and, hal]
        constructor
        · refine ⟨fun hct => ⟨hct, ?_⟩, And.left⟩
          exact pairwise_of_forall_mem_list fun _ _ g hg _ => hct g hg
        · simpa using hl

theorem foldl_configs (configs : List MediaFrame) (hc : ∀ f ∈ configs, isConfigFrame f = true) :
    ∀ {m : Fmp4Muxer}, m.videoSamples = [] → (configs.foldl pushFrame m).videoSamples = [] := by
  induction configs with
  | nil => exact fun hm => hm
  | cons f configs ih =>
    intro m hm
    apply ih fun g hg => hc g (mem_cons_of_mem f hg)
    rw [videoSamples_config m (by simp [hc f mem_cons_self]), hm]

/-- **Segments that can be decoded on their own**: exactly if no cached picture depends on others,
and none of the live ones that a key frame follows. -/
theorem segments_independent_iff (published : List MediaFrame) (later : GopCache MediaFrame)
    (live : List MediaFrame) :
    (∀ s ∈ handleFmp4Stream (cacheAll id published) later live, s.Independent) ↔
      (∀ f ∈ later.getLatestGopFrames id, isDependent f = false) ∧
        live.Pairwise fun f g => isDependent f = true → cuts g = false := by
  have hcn := foldl_configs (cacheAll id published).getConfigFrames
    (fun _ => isConfigFrame_of_getConfigFrames id published) (m := .new 90000) rfl
  obtain ⟨-, hch⟩ := run_fresh (later.getLatestGopFrames id) hcn
  rw [handleFmp4Stream, forall_mem_append, forall_mem_append, flushSent_iff, hch,
    (run_fresh live (flushSent_nil _)).1]

def avcPicture (timestamp : UInt32) (key : Bool) : MediaFrame :=
  ⟨1, .video, .h264, timestamp, 0, 0, [0, 0, 0, 1, if key then 0x65 else 0x41], .avcc, key, false⟩

theorem key_frames_independent :
    let sent := handleFmp4Stream (cacheAll id []) (cacheAll id [avcPicture 0 true])
      [avcPicture 40 true, avcPicture 80 false]
    (∀ s ∈ sent, s.Independent) ∧ sent.length = 2 :=
  ⟨(segments_independent_iff _ _ _).mpr ⟨by decide +kernel, by decide +kernel⟩, by decide +kernel⟩

/-- A group of pictures in the cache, and one that arrives. -/
theorem pictures_behind_key_frame :
    (∃ s ∈ handleFmp4Stream (cacheAll id []) (cacheAll id [avcPicture 0 true, avcPicture 40 false])
      [], ¬ s.Independent) ∧
      ∃ s ∈ handleFmp4Stream (cacheAll id []) (cacheAll id [])
        [avcPicture 0 true, avcPicture 40 false, avcPicture 80 true], ¬ s.Independent := by
  decide +kernel

end MediaKit.Fmp4
