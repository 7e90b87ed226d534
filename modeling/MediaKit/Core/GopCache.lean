import Mathlib.Data.List.Induction
import MediaKit.Core.Frame

/-!
# The GOP cache

`crates/core/src/gop_cache.rs`: what a source keeps for players that join late. The
cache holds the last metadata and configuration frames and a queue of media frames;
`get_latest_gop_frames` hands them out from the last video key frame on.

A cached element may carry more than its frame (`frame : φ → MediaFrame`), so that
equal frames can be told apart; the source's cache is the instance `frame = id`.

`Holds c M`: the cache `c` has seen the media frames `M`. It may have dropped some of
them, but never one of the last GOP (`holds_cacheFrame`), so what it hands out is
exactly that (`filter_getLatestGopFrames`).
-/

namespace MediaKit.Core

open List Option

def isKey (f : MediaFrame) : Bool := decide (f.frameType = .video) && f.keyFrame

/-- Neither metadata nor configuration. -/
def isMedia (f : MediaFrame) : Bool := decide (f.frameType ≠ .metadata) && !isConfigFrame f

structure GopCache (φ : Type) where
  metadata : Option (List φ)
  videoConfig : Option φ
  audioConfig : Option φ
  frames : List φ
  maxGopCount : Nat
  deriving DecidableEq

variable {φ : Type}

namespace GopCache

def new : GopCache φ := ⟨none, none, none, [], 1⟩

end GopCache

/-! ## The last GOP of a list -/

section LatestGop

variable (key : φ → Bool)

/-- The loop of `get_latest_gop_frames` over the queue, from index `i` on. -/
def latestStart (i start : Nat) : List φ → Nat
  | [] => start
  | f :: fs => latestStart (i + 1) (if key f then i else start) fs

/-- The elements from the last key on, none when there is no key. -/
def latestGop (fs : List φ) : List φ := fs.drop (latestStart key 0 fs.length fs)

theorem latestStart_of_not_any : ∀ (fs : List φ) (i start : Nat), fs.any key = false →
    latestStart key i start fs = start := by
  intro fs
  induction fs with
  | nil => intro i start _; rfl
  | cons f fs ih =>
    intro i start h
    rw [any_cons, Bool.or_eq_false_iff] at h
    rw [latestStart, h.1]
    exact ih _ _ h.2

theorem latestStart_last {k : φ} {after : List φ} (hk : key k = true) (ha : after.any key = false) :
    ∀ (before : List φ) (i start : Nat), latestStart key i start (before ++ k :: after) =
      i + before.length
  | [], i, start => by
    rw [nil_append, latestStart, if_pos hk, latestStart_of_not_any key after _ _ ha]
    rfl
  | f :: before, i, start => by
    rw [cons_append, latestStart, latestStart_last hk ha before, length_cons]
    omega

theorem latestGop_last (before : List φ) {k : φ} {after : List φ} (hk : key k = true)
    (ha : after.any key = false) : latestGop key (before ++ k :: after) = k :: after := by
  rw [latestGop, latestStart_last key hk ha, zero_add, drop_left]

theorem latestGop_of_not_any {fs : List φ} (h : fs.any key = false) : latestGop key fs = [] := by
  rw [latestGop, latestStart_of_not_any key fs _ _ h, drop_length]

/-- The last key and what follows it. -/
theorem latestGop_cases (fs : List φ) : fs.any key = false ∧ latestGop key fs = [] ∨
    ∃ before k after, fs = before ++ k :: after ∧ key k = true ∧ after.any key = false ∧
    latestGop key fs = k :: after := by
  induction fs with
  | nil => exact .inl ⟨rfl, rfl⟩
  | cons f fs ih =>
    rcases ih with ⟨hn, -⟩ | ⟨before, k, after, rfl, hk, haf, -⟩
    · cases hf : key f with
      | true => exact .inr ⟨[], f, fs, rfl, hf, hn, latestGop_last key [] hf hn⟩
      | false =>
        have hal : (f :: fs).any key = false := by rw [any_cons, hf, hn, Bool.or_false]
        exact .inl ⟨hal, latestGop_of_not_any key hal⟩
    · exact .inr ⟨f :: before, k, after, rfl, hk, haf, latestGop_last key (f :: before) hk haf⟩

theorem latestGop_concat {fs : List φ} {x : φ} (hx : key x = false) (h : fs.any key = true) :
    latestGop key (fs ++ [x]) = latestGop key fs ++ [x] := by
  rcases latestGop_cases key fs with ⟨hn, -⟩ | ⟨before, k, after, rfl, hk, ha, hg⟩
  · exact absurd (hn.symm.trans h) Bool.false_ne_true
  · rw [hg, append_assoc, cons_append,
      latestGop_last key before hk (by rw [any_append, ha]; simp [hx])]

end LatestGop

/-! ## The cache -/

namespace GopCache

variable (frame : φ → MediaFrame)

def keyAt (f : φ) : Bool := isKey (frame f)

def mediaAt (f : φ) : Bool := isMedia (frame f)

variable (c : GopCache φ)

/-- `cache_frame`. A key frame makes room first: the queue is cut to fewer than
`max_gop_count * 30` elements, from the front. -/
def cacheFrame (f : φ) : GopCache φ :=
  if (frame f).frameType = .metadata then { c with metadata := some [f] }
  else if (frame f).frameType = .video ∧ isConfigFrame (frame f) then
    { c with videoConfig := some f }
  else if (frame f).frameType = .audio ∧ isConfigFrame (frame f) then
    { c with audioConfig := some f }
  else
    let frames :=
      if keyAt frame f then c.frames.drop (c.frames.length + 1 - c.maxGopCount * 30)
      else c.frames
    { c with frames := frames ++ [f] }

def getLatestGopFrames : List φ :=
  c.metadata.getD [] ++ c.videoConfig.toList ++ c.audioConfig.toList ++
    latestGop (keyAt frame) c.frames

def getAllFrames : List φ :=
  c.metadata.getD [] ++ c.videoConfig.toList ++ c.audioConfig.toList ++ c.frames

def getConfigFrames : List φ := c.videoConfig.toList ++ c.audioConfig.toList

/-- The cache has seen the media frames `M`, and some metadata and configuration. -/
structure Holds (c : GopCache φ) (M : List φ) : Prop where
  headers : ∀ f ∈ c.metadata.getD [] ++ c.videoConfig.toList ++ c.audioConfig.toList,
    mediaAt frame f = false
  media : ∀ f ∈ c.frames, mediaAt frame f = true
  any : c.frames.any (keyAt frame) = M.any (keyAt frame)
  gop : latestGop (keyAt frame) c.frames = latestGop (keyAt frame) M

theorem holds_new : Holds frame (new : GopCache φ) [] where
  headers f h := by simp [new] at h
  media f h := by cases h
  any := rfl
  gop := rfl

variable {frame}

theorem cacheFrame_media {f : φ} (hf : mediaAt frame f = true) :
    cacheFrame frame c f = { c with frames :=
    (if keyAt frame f then c.frames.drop (c.frames.length + 1 - c.maxGopCount * 30) else c.frames)
    ++ [f] } := by
  simp only [mediaAt, isMedia, Bool.and_eq_true, decide_eq_true_eq, Bool.not_eq_true'] at hf
  rw [cacheFrame, if_neg hf.1, if_neg (by simp [hf.2]), if_neg (by simp [hf.2])]

theorem cacheFrame_header {f : φ} (hf : mediaAt frame f = false) :
    (cacheFrame frame c f).frames = c.frames ∧
      ∀ g ∈ (cacheFrame frame c f).metadata.getD [] ++ (cacheFrame frame c f).videoConfig.toList ++
        (cacheFrame frame c f).audioConfig.toList, g = f ∨ g ∈ c.metadata.getD [] ++
          c.videoConfig.toList ++ c.audioConfig.toList := by
  rw [mediaAt, isMedia] at hf
  unfold cacheFrame
  cases hk : (frame f).frameType <;> cases hc : isConfigFrame (frame f) <;>
    simp [hk, hc] at hf ⊢ <;> tauto

variable {c : GopCache φ}

/-- The queue grows by a media frame, and loses only what a key frame makes obsolete. -/
theorem Holds.push {M : List φ} (h : Holds frame c M) {f : φ} (hf : mediaAt frame f = true)
    (n : Nat) : Holds frame { c with frames :=
      (if keyAt frame f then c.frames.drop n else c.frames) ++ [f] } (M ++ [f]) := by
  by_cases hk : keyAt frame f = true
  · refine ⟨h.headers, fun g hg => ?_, ?_, ?_⟩
    · rw [if_pos hk, mem_append, mem_singleton] at hg
      rcases hg with hg | rfl
      · exact h.media g (mem_of_mem_drop hg)
      · exact hf
    · simp [hk]
    · rw [latestGop_last _ _ hk rfl, latestGop_last _ _ hk rfl]
  · rw [if_neg hk]
    rw [Bool.not_eq_true] at hk
    refine ⟨h.headers, fun g hg => ?_, ?_, ?_⟩
    · rw [mem_append, mem_singleton] at hg
      rcases hg with hg | rfl
      · exact h.media g hg
      · exact hf
    · rw [any_append, any_append, h.any]
    · by_cases han : M.any (keyAt frame) = true
      · rw [latestGop_concat _ hk (h.any.trans han), latestGop_concat _ hk han, h.gop]
      · have hM : (M ++ [f]).any (keyAt frame) = false := by simpa [hk] using han
        have hc : (c.frames ++ [f]).any (keyAt frame) = false := by
          rw [any_append, h.any, ← any_append, hM]
        rw [latestGop_of_not_any _ hM, latestGop_of_not_any _ hc]

/-- **The cache never loses a frame of the last GOP.** -/
theorem holds_cacheFrame {M : List φ} (h : Holds frame c M) (f : φ) :
    Holds frame (cacheFrame frame c f) (M ++ [f].filter (mediaAt frame)) := by
  cases hf : mediaAt frame f with
  | true =>
    rw [cacheFrame_media c hf, filter_cons_of_pos hf]
    exact h.push hf _
  | false =>
    obtain ⟨hfr, hh⟩ := cacheFrame_header c hf
    rw [filter_cons_of_neg (by simp [hf]), filter_nil, append_nil]
    refine ⟨fun g hg => ?_, hfr ▸ h.media, hfr ▸ h.any, hfr ▸ h.gop⟩
    rcases hh g hg with rfl | hg
    · exact hf
    · exact h.headers g hg

/-- What the cache hands out: the last GOP, behind metadata and configuration. -/
theorem filter_getLatestGopFrames {M : List φ} (h : Holds frame c M) :
    (getLatestGopFrames frame c).filter (mediaAt frame) = latestGop (keyAt frame) M := by
  have hh : (c.metadata.getD [] ++ c.videoConfig.toList ++ c.audioConfig.toList).filter
      (mediaAt frame) = [] :=
    filter_eq_nil_iff.mpr fun f hf => by simp [h.headers f hf]
  have hg : ∀ f ∈ latestGop (keyAt frame) c.frames, mediaAt frame f = true :=
    fun f hf => h.media f (mem_of_mem_drop hf)
  rw [getLatestGopFrames, filter_append, hh, filter_eq_self.mpr hg, h.gop, nil_append]

/-! ## Whole runs -/

variable (frame)
  (fs : List φ)

/-- What a fresh cache is after some frames. -/
def cacheAll : GopCache φ := fs.foldl (cacheFrame frame) new

/-- A frame that goes to `metadata`, or to `video_config` or `audio_config`. -/
def headerAt (kind : FrameType) (f : φ) : Bool :=
  decide ((frame f).frameType = kind) && (decide (kind = .metadata) || isConfigFrame (frame f))

theorem cacheAll_concat (f : φ) : cacheAll frame (fs ++ [f]) =
    cacheFrame frame (cacheAll frame fs) f := by
  rw [cacheAll, foldl_append]
  rfl

theorem holds_cacheAll : Holds frame (cacheAll frame fs) (fs.filter (mediaAt frame)) := by
  induction fs using reverseRecOn with
  | nil => exact holds_new frame
  | append_singleton fs f ih =>
    rw [cacheAll_concat, filter_append]
    exact holds_cacheFrame ih f

/-- The last frame of each kind of header is kept. -/
theorem headers_cacheAll : (cacheAll frame fs).metadata =
    ((fs.filter (headerAt frame .metadata)).getLast?).map ([·]) ∧
    (cacheAll frame fs).videoConfig = (fs.filter (headerAt frame .video)).getLast? ∧
    (cacheAll frame fs).audioConfig = (fs.filter (headerAt frame .audio)).getLast? ∧
    (cacheAll frame fs).maxGopCount = 1 := by
  induction fs using reverseRecOn with
  | nil => exact ⟨rfl, rfl, rfl, rfl⟩
  | append_singleton fs f ih =>
    obtain ⟨hm, hv, ha, hcn⟩ := ih
    rw [cacheAll_concat, cacheFrame]
    cases hk : (frame f).frameType <;> cases hcf : isConfigFrame (frame f) <;>
      simp [headerAt, hk, hcf, hm, hv, ha, hcn]

theorem isConfigFrame_of_getConfigFrames {f : φ} (hf : f ∈ (cacheAll frame fs).getConfigFrames) :
    isConfigFrame (frame f) = true := by
  obtain ⟨-, hv, had, -⟩ := headers_cacheAll frame fs
  have hl : ∀ kind, kind ≠ .metadata → f ∈ (fs.filter (headerAt frame kind)).getLast? →
      isConfigFrame (frame f) = true := by
    intro kind hk hf
    have hh := (mem_filter.mp (mem_of_mem_getLast? hf)).2
    simpa [headerAt, hk] using (Bool.and_eq_true_iff.mp hh).2
  rw [getConfigFrames, hv, had, mem_append, mem_toList, mem_toList] at hf
  exact hf.elim (hl .video nofun) (hl .audio nofun)

/-- **The replay is exact**: the last header of each kind, and the media frames from the last key
frame on. -/
theorem getLatestGopFrames_cacheAll (fs : List φ) : ∃ gop,
    getLatestGopFrames frame (cacheAll frame fs) =
      (fs.filter (headerAt frame .metadata)).getLast?.toList ++
      (fs.filter (headerAt frame .video)).getLast?.toList ++
        (fs.filter (headerAt frame .audio)).getLast?.toList ++ gop ∧
    ((fs.filter (mediaAt frame)).any (keyAt frame) = false ∧ gop = [] ∨
      ∃ before k after, fs.filter (mediaAt frame) = before ++ k :: after ∧ keyAt frame k = true ∧
        after.any (keyAt frame) = false ∧ gop = k :: after) := by
  obtain ⟨hm, hv, ha, -⟩ := headers_cacheAll frame fs
  refine ⟨latestGop (keyAt frame) (fs.filter (mediaAt frame)), ?_, latestGop_cases _ _⟩
  rw [getLatestGopFrames, (holds_cacheAll frame fs).gop, hm, hv, ha]
  cases (fs.filter (headerAt frame .metadata)).getLast? <;> rfl

/-! ## Size -/

/-- How many media frames there are from the last key frame on, or at all without one. -/
def sinceKey : Nat :=
  (fs.filter (mediaAt frame)).foldl (fun n f => if keyAt frame f then 1 else n + 1) 0

theorem sinceKey_concat (f : φ) : sinceKey frame (fs ++ [f]) =
    if mediaAt frame f then if keyAt frame f then 1 else sinceKey frame fs + 1
      else sinceKey frame fs := by
  cases hf : mediaAt frame f <;> simp [hf, sinceKey]

theorem length_cacheAll : sinceKey frame fs ≤ (cacheAll frame fs).frames.length ∧
    (cacheAll frame fs).frames.length ≤ sinceKey frame fs + 29 := by
  induction fs using reverseRecOn with
  | nil => exact ⟨le_rfl, Nat.zero_le _⟩
  | append_singleton fs f ih =>
    obtain ⟨-, -, -, hc⟩ := headers_cacheAll frame fs
    rw [cacheAll_concat, sinceKey_concat]
    by_cases hf : mediaAt frame f = true
    · rw [cacheFrame_media _ hf, if_pos hf, hc]
      by_cases hk : keyAt frame f = true
      · simp only [if_pos hk, length_append, length_drop, length_singleton]
        omega
      · simp only [if_neg hk, length_append, length_singleton]
        omega
    · rw [(cacheFrame_header _ (Bool.eq_false_of_not_eq_true hf)).1, if_neg hf]
      exact ih

theorem length_getAllFrames : sinceKey frame fs ≤ (cacheAll frame fs).getAllFrames.length ∧
    (cacheAll frame fs).getAllFrames.length ≤ sinceKey frame fs + 32 := by
  obtain ⟨hm, -, -, -⟩ := headers_cacheAll frame fs
  obtain ⟨hl, hh⟩ := length_cacheAll frame fs
  have ho : ((cacheAll frame fs).metadata.getD []).length ≤ 1 := by
    rw [hm]
    cases (fs.filter (headerAt frame .metadata)).getLast? <;> simp
  have hv := (cacheAll frame fs).videoConfig.length_toList_le
  have had := (cacheAll frame fs).audioConfig.length_toList_le
  simp only [getAllFrames, length_append]
  omega

/-- **The size of the cache** is bounded over some runs exactly if the number of media frames from
the last key frame on is. -/
theorem bounded_iff (runs : Set (List φ)) :
    (∃ bound, ∀ fs ∈ runs, ∀ n, (cacheAll frame (fs.take n)).getAllFrames.length ≤ bound) ↔
    ∃ bound, ∀ fs ∈ runs, ∀ n, sinceKey frame (fs.take n) ≤ bound := by
  constructor
  · rintro ⟨bound, hb⟩
    exact ⟨bound, fun fs hfs n => (length_getAllFrames frame _).1.trans (hb fs hfs n)⟩
  · rintro ⟨bound, hb⟩
    refine ⟨bound + 32, fun fs hfs n => (length_getAllFrames frame _).2.trans ?_⟩
    exact Nat.add_le_add_right (hb fs hfs n) 32

/-- Audio alone makes the cache grow with every frame. -/
theorem audio_unbounded : ¬ ∃ bound, ∀ fs : List MediaFrame, ∀ n,
    (cacheAll id (fs.take n)).getAllFrames.length ≤ bound := by
  rintro ⟨bound, hb⟩
  have hs : ∀ n, sinceKey id (replicate n (.newAudio 1 .opus 0 0 0 [])) = n := by
    intro n
    induction n with
    | zero => rfl
    | succ n ih =>
      rw [replicate_succ', sinceKey_concat, ih]
      rfl
  have hal := (length_getAllFrames id _).1.trans
    (hb (replicate (bound + 1) (.newAudio 1 .opus 0 0 0 [])) (bound + 1))
  rw [take_of_length_le (by simp), hs] at hal
  omega

end GopCache

end MediaKit.Core
