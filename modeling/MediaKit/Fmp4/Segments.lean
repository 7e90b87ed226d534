import Mathlib.Algebra.Order.BigOperators.Group.List
import MediaKit.Lib.Select
import MediaKit.Fmp4.Muxer
import MediaKit.Fmp4.Views

/-!
# Reading a media segment

What the reader makes of a segment that the muxer wrote: for each track the frames of its samples
(`framesFrom`), at decode times that begin at the start of the segment and go on by the durations.
The reader sorts the frames of both tracks; restricted to one track they keep their order
(`demuxFragment_buildMediaSegment`).

The offset of the samples is a signed number of 32 bits, which is why `SegmentFits` asks for less
than 2³¹ octets in front of the samples of a track.
-/

namespace MediaKit.Fmp4

open MediaKit.Core Lib List UInt64

/-! ## Samples -/

/-- The frames of the samples of a track, the first of them at `decode`. -/
def framesFrom (track : FragmentTrack) : Nat → List Fmp4Sample → List MediaFrame
  | _, [] => []
  | decode, s :: l =>
    trackFrame track (ticksToMs decode track.timescale) (ticksToMs decode track.timescale) s.data
      s.isSync :: framesFrom track (min (decode + s.duration) (2 ^ 64 - 1)) l

/-- A sample whose numbers fit into their fields. -/
structure Fmp4Sample.Fits (s : Fmp4Sample) : Prop where
  duration : s.duration < 2 ^ 32
  size : s.data.length < 2 ^ 32

variable (samples : List Fmp4Sample)

section

variable {data trunData rest restT : Bytes} {track : FragmentTrack} {d : FragmentDefaults}
  {h : TrunHeader}

theorem optionalU32_be32 {pos n : Nat} (hat : Behind data pos (be32 n) rest) (hn : n < 2 ^ 32) :
    optionalU32 data true pos = .ok (some n, pos + 4) := by
  rw [optionalU32, readU32_be32 hat hn]
  rfl

theorem ptsTicks_zero {decode : Nat} (hd : decode < 2 ^ 64) : ptsTicks decode 0 = decode := by
  exact min_eq_left (Nat.le_sub_one_of_lt hd)

theorem flagSet_isSync (sync : Bool) :
    (!flagSet (if sync then 0x02000000 else 0x01010000) 16) = sync := by
  cases sync <;> decide

/-- **The samples of a `trun`.** -/
theorem trunSamples_entries (hdt : data.length < 2 ^ 64) (hfl : h.flags = 0x701)
    (samples : List Fmp4Sample) :
    ∀ {index offset sampleOffset decode : Nat}, (∀ s ∈ samples, s.Fits) → decode < 2 ^ 64 →
      Behind trunData offset (samples.flatMap trunEntry) restT →
      Behind data sampleOffset (samples.flatMap (·.data)) rest →
      ∃ last, trunSamples data trunData track d h samples.length index offset sampleOffset decode =
        .ok (framesFrom track decode samples, last) := by
  induction samples with
  | nil => exact fun _ _ _ _ => ⟨_, rfl⟩
  | cons s samples ih =>
    intro index offset sampleOffset decode hft hdc het hsm
    have hs := hft s mem_cons_self
    rw [flatMap_cons] at het hsm
    have hen := het.fst
    have hfL : (if s.isSync then 0x02000000 else 0x01010000) < 2 ^ 32 := by
      split <;> decide
    have hn : Behind trunData (offset + 4 + 4 + 4) (samples.flatMap trunEntry) restT := het.snd
    have hsl := hsm.fst.slice
    have hed := hsm.fst.length
    obtain ⟨last, hl⟩ := ih (fun t ht => hft t (mem_cons_of_mem s ht))
      (show min (decode + s.duration) (2 ^ 64 - 1) < 2 ^ 64 by omega) hn hsm.snd
    have hrS : optionalU32 trunData true (offset + 4) = .ok (some s.data.length, offset + 4 + 4) :=
      optionalU32_be32 hen.snd.fst hs.size
    have hrF : optionalU32 trunData true (offset + 4 + 4) =
        .ok (some (if s.isSync then 0x02000000 else 0x01010000), offset + 4 + 4 + 4) :=
      optionalU32_be32 hen.snd.snd hfL
    refine ⟨last, ?_⟩
    rw [length_cons, trunSamples, hfl]
    rw [show flagSet 0x701 8 = true by decide, show flagSet 0x701 9 = true by decide,
      show flagSet 0x701 10 = true by decide, show flagSet 0x701 11 = false by decide]
    rw [optionalU32_be32 hen.fst hs.duration, ok_bind]
    dsimp only
    rw [hrS, ok_bind]
    rw [hrF, ok_bind]
    dsimp only [optionalU32, Option.getD_some]
    rw [if_neg Bool.false_ne_true, ok_bind]
    rw [addUsize_of_lt (by omega), orError_some, ok_bind, hsl, orError_some, ok_bind,
      ptsTicks_zero hdc, flagSet_isSync, hl]
    rfl

theorem relativeOffset_ofNat {base n : Nat} (h : base + n < 2 ^ 63) (hn : n < 2 ^ 31) :
    relativeOffset base (toI32 n) = .ok (base + n) := by
  have hw : ((base : Int) + n + 2 ^ 63) % 2 ^ 64 - 2 ^ 63 = ((base + n : Nat) : Int) := by omega
  rw [toI32, if_pos hn, relativeOffset, hw, if_pos (by omega), Int.toNat_natCast]

theorem length_flatMap_trunEntry : (samples.flatMap trunEntry).length = 12 * samples.length := by
  induction samples with
  | nil => rfl
  | cons s l ih =>
    rw [flatMap_cons, length_append, ih, length_cons]
    show 12 + 12 * l.length = _
    omega

/-! ## A `traf` -/

/-- The body of the `trun` box. -/
abbrev trunBody (dataOffset : Nat) : Bytes :=
  be32 0x000701 ++ (be32 samples.length ++ (be32 dataOffset ++ samples.flatMap trunEntry))

theorem readTrunHeader_trunBody {samples : List Fmp4Sample} {dataOffset implicitDataOffset : Nat}
    (hc : samples.length < 2 ^ 32) (ho : dataOffset < 2 ^ 31)
    (hb : d.baseDataOffset + dataOffset < 2 ^ 63) :
    readTrunHeader data (trunBody samples dataOffset) d implicitDataOffset =
      .ok ⟨0, 0x701, samples.length, d.baseDataOffset + dataOffset, none, 12⟩ := by
  have hat := behind_self (trunBody samples dataOffset)
  have hlen : (trunBody samples dataOffset).length = 12 + 12 * samples.length := by
    rw [← length_flatMap_trunEntry samples]
    simp only [length_append, length_be32]
    omega
  have hd : (trunBody samples dataOffset).length - 12 = 12 * samples.length := by omega
  have hrC : readU32 (trunBody samples dataOffset) 4 = .ok samples.length :=
    readU32_be32 hat.snd.fst hc
  have hrO : readU32 (trunBody samples dataOffset) 8 = .ok dataOffset :=
    readU32_be32 hat.snd.snd.fst (lt_trans ho (by decide))
  rw [readTrunHeader, readU32_be32 hat.fst (by decide), ok_bind, hrC, ok_bind]
  rw [show flagSet (0x000701 % 2 ^ 24) 0 =
    true by decide, show flagSet (0x000701 % 2 ^ 24) 2 = false by decide,
    show perSampleBytes (0x000701 % 2 ^ 24) = 12 by decide, if_pos rfl,
    hrO, ok_bind, relativeOffset_ofNat hb ho, ok_bind]
  dsimp only [pure, Except.pure]
  rw [ok_bind]
  dsimp only [optionalU32]
  rw [if_neg Bool.false_ne_true, ok_bind]
  rw [if_pos (by decide), hd, Nat.mul_div_cancel_left _ (by decide), if_neg (lt_irrefl _)]
  rfl

theorem readTfhd_written {trackId moofStart : Nat} (hid : trackId < 2 ^ 32) :
    readTfhd (be32 0x020000 ++ be32 trackId) moofStart = .ok ⟨trackId, moofStart, 0, 0, 0⟩ := by
  have hat := behind_self (be32 0x020000 ++ be32 trackId)
  have hr : readU32 (be32 0x020000 ++ be32 trackId) 4 = .ok trackId := readU32_be32 hat.snd hid
  rw [readTfhd, readU32_be32 hat.fst (by decide), hr]
  rfl

theorem kinds_trafBoxes (trackId startTime : Nat) (samples : List Fmp4Sample) (dataOffset : Nat) :
    ∀ b ∈ trafBoxes trackId startTime samples dataOffset, b.1.length = 4 := by
  simp [trafBoxes]

/-- **The fragment of a track.** -/
theorem demuxTraf_trafBoxes {demuxer : Fmp4Demuxer} {moof mdat traf : BoxView} {k : Bytes}
    {samples : List Fmp4Sample} {id startTime dataOffset : Nat} (hd : data.length < 2 ^ 63)
    (hid : id < 2 ^ 32) (hst : startTime < 2 ^ 64) (ho : dataOffset < 2 ^ 31)
    (hft : ∀ s ∈ samples, s.Fits) (htc : demuxer.tracks.lookup id = some track)
    (hsz : (boxes (trafBoxes id startTime samples dataOffset)).length < 2 ^ 32)
    (hvw : View data traf k (boxes (trafBoxes id startTime samples dataOffset)))
    (hsm : Behind data (moof.start + dataOffset) (samples.flatMap (·.data)) rest) :
    demuxer.demuxTraf data moof mdat traf = .ok (framesFrom track startTime samples) := by
  have hd' : data.length < 2 ^ 64 := lt_trans hd (by decide)
  have htI : (tag 't' 'r' 'u' 'n', trunBody samples dataOffset) ∈
      trafBoxes id startTime samples dataOffset :=
    mem_cons_of_mem _ (mem_cons_of_mem _ mem_cons_self)
  have hc : samples.length < 2 ^ 32 := by
    have hle := length_body_le htI
    have hlen := length_flatMap_trunEntry samples
    simp only [length_append] at hle
    omega
  have hk := kinds_trafBoxes id startTime samples dataOffset
  obtain ⟨tfhd, hth, htv, -⟩ := hvw.inner (tag 't' 'f' 'h' 'd') hd' hk hsz rfl
  obtain ⟨tfdt, htf, htV, -⟩ := hvw.inner (tag 't' 'f' 'd' 't') hd' hk hsz rfl
  have htd : tfhd.body data = .ok (be32 0x020000 ++ be32 id) := htv.body
  have htB : tfdt.body data = .ok (be32 0x01000000 ++ be64 startTime) := htV.body
  have haT := behind_self (be32 0x020000 ++ be32 id)
  have hrI : readU32 (be32 0x020000 ++ be32 id) 4 = .ok id := readU32_be32 haT.snd hid
  have hrT : readTfdt data (some tfdt) = .ok startTime := by
    have hat := behind_self (be32 0x01000000 ++ be64 startTime)
    rw [readTfdt, htB, ok_bind, readU64]
    rw [show u64At (be32 0x01000000 ++ be64 startTime) 4 = some startTime from hat.snd.u64At hst]
    rfl
  obtain ⟨vs, hvs, hvi⟩ := hvw.boxViews hd' (boxed_of_length hk hsz)
  have hfl := filter_views (tag 't' 'r' 'u' 'n') hvi
  generalize hfn : vs.filter (·.kind == tag 't' 'r' 'u' 'n') = found at hfl
  cases hfl with
  | @cons trun _ _ _ htr hnil =>
    cases hnil
    have htn : trun.body data = .ok (trunBody samples dataOffset) := htr.body
    have he := hsm.length
    have hh := @readTrunHeader_trunBody data ⟨id, moof.start, 0, 0, 0⟩ samples dataOffset
      mdat.dataStart hc ho (show moof.start + dataOffset < 2 ^ 63 by omega)
    have haE : Behind (trunBody samples dataOffset) 12 (samples.flatMap trunEntry) [] :=
      (behind_self (trunBody samples dataOffset)).snd.snd.snd
    obtain ⟨last, hrd⟩ := @trunSamples_entries data (trunBody samples dataOffset) rest [] track
      ⟨id, moof.start, 0, 0, 0⟩ ⟨0, 0x701, samples.length, moof.start + dataOffset, none, 12⟩ hd'
      rfl samples 0 12
      (moof.start + dataOffset) startTime hft hst haE hsm
    rw [Fmp4Demuxer.demuxTraf, hth, ok_bind, orError_some, ok_bind, htd, ok_bind,
      readU32_be32 haT.fst (by decide), ok_bind, hrI, ok_bind, htc, orError_some, ok_bind,
      readTfhd_written hid, ok_bind, htf, ok_bind,
      hrT, ok_bind, hvs, ok_bind, hfn, truns, htn, ok_bind, hh, ok_bind]
    rw [hrd, ok_bind]
    dsimp only [truns]
    rw [ok_bind, append_nil]
    rfl

end

/-! ## A segment -/

/-- The octets in front of the samples that an offset counts, and the octets of `mdat`, fit into
their fields. -/
structure SegmentFits (video audio : List Fmp4Sample) : Prop where
  offset : (buildMoof 0 0 video audio 0).length + 8 +
    (if audio.isEmpty then 0 else (video.map (·.data.length)).sum) < 2 ^ 31
  mdat : 8 + (buildMdat video audio).length < 2 ^ 32

theorem length_boxes_trafBoxes (id startTime : Nat) (samples : List Fmp4Sample) (dataOffset : Nat) :
    (boxes (trafBoxes id startTime samples dataOffset)).length = 56 + 12 * samples.length := by
  simp only [trafBoxes, boxes_cons, boxes_nil, length_append, length_box (length_tag _ _ _ _),
    length_be32, length_be64, length_flatMap_trunEntry, length_nil]
  omega

/-- The length of `moof` does not depend on the numbers in it. -/
theorem length_boxes_moofBoxes (seq startTime : Nat) (video audio : List Fmp4Sample)
    (dataOffset : Nat) :
    (boxes (moofBoxes seq startTime video audio dataOffset)).length =
      (boxes (moofBoxes 0 0 video audio 0)).length := by
  have ho : ∀ id startTime samples offset,
      (boxes [buildTraf id startTime samples offset]).length = 64 + 12 * samples.length := by
    intro id startTime samples offset
    rw [buildTraf, boxes_cons, boxes_nil, append_nil, length_box rfl, length_boxes_trafBoxes]
    omega
  rw [moofBoxes, moofBoxes]
  cases video.isEmpty <;> cases audio.isEmpty <;>
    simp only [if_true, Bool.false_eq_true, if_false, boxes_append, length_append, ho] <;> rfl

theorem kinds_moofBoxes (seq startTime : Nat) (video audio : List Fmp4Sample) (dataOffset : Nat) :
    ∀ b ∈ moofBoxes seq startTime video audio dataOffset, b.1.length = 4 := by
  rw [moofBoxes]
  cases video.isEmpty <;> cases audio.isEmpty <;> simp [buildTraf]

theorem mapM_of_forall₂ {α β ε : Type} {f : α → Except ε β} {as : List α} {bs : List β}
    (h : Forall₂ (fun a b => f a = .ok b) as bs) : as.mapM f = .ok bs := by
  induction h with
  | nil => rfl
  | cons ho _ ih =>
    rw [mapM_cons, ho, ih]
    rfl

variable {samples : List Fmp4Sample}
  {track : FragmentTrack}

/-- The samples of a track are missing from the segment, or one `traf` holds them. -/
theorem mapM_traf {data rest : Bytes} {demuxer : Fmp4Demuxer} {moof : BoxView} {vs : List BoxView}
    (mdat : BoxView) {id startTime offset : Nat} (hd : data.length < 2 ^ 63) (hid : id < 2 ^ 32)
    (hst : startTime < 2 ^ 64) (ho : samples ≠ [] → offset < 2 ^ 31) (hf : ∀ s ∈ samples, s.Fits)
    (ht : samples ≠ [] → demuxer.tracks.lookup id = some track)
    (h : Forall₂ (fun v b => View data v b.1 b.2) vs
      (if samples.isEmpty then [] else [buildTraf id startTime samples offset]))
    (hsz : ∀ b ∈ (if samples.isEmpty then [] else [buildTraf id startTime samples offset]),
      b.2.length < 2 ^ 32)
    (hsm : Behind data (moof.start + offset) (samples.flatMap (·.data)) rest) :
    ∃ parts, vs.mapM (demuxer.demuxTraf data moof mdat) = .ok parts ∧
      parts.flatten = framesFrom track startTime samples := by
  cases samples with
  | nil =>
    cases h
    exact ⟨[], rfl, rfl⟩
  | cons s l =>
    cases h with
    | cons hv hrs =>
      cases hrs
      have hne := cons_ne_nil s l
      have hrd := @demuxTraf_trafBoxes data rest track demuxer moof mdat _ _ (s :: l) id startTime
        offset hd hid hst (ho hne) hf (ht hne) (hsz _ mem_cons_self) hv hsm
      refine ⟨_, mapM_of_forall₂ (.cons hrd .nil), ?_⟩
      rw [flatten_cons, flatten_nil, append_nil]

theorem length_flatMap_data :
    (samples.flatMap (·.data)).length = (samples.map (·.data.length)).sum := length_flatMap

theorem fits_of_mdat {video audio : List Fmp4Sample} (h : SegmentFits video audio)
    (hd : ∀ s ∈ video ++ audio, s.duration < 2 ^ 32) : ∀ s ∈ video ++ audio, s.Fits := by
  intro s hs
  refine ⟨hd s hs, ?_⟩
  have hm := h.mdat
  have hle : s.data.length ≤ ((video ++ audio).map (·.data.length)).sum :=
    single_le_sum (fun _ _ => Nat.zero_le _) _ (mem_map_of_mem hs)
  rw [buildMdat, length_append, length_flatMap_data, length_flatMap_data] at hm
  rw [map_append, sum_append] at hle
  omega

/-! ### The three boxes -/

section

variable (seq startTime : Nat) (video audio : List Fmp4Sample)

/-- Where the samples begin, counted from the start of `moof`. -/
def mdatDataOffset : Nat := 8 + (boxes (moofBoxes 0 0 video audio 0)).length + 8

def moofBody : Bytes := boxes (moofBoxes seq startTime video audio (mdatDataOffset video audio))

def segmentBoxes : List (Bytes × Bytes) :=
  [(tag 's' 't' 'y' 'p', stypData), (tag 'm' 'o' 'o' 'f', moofBody seq startTime video audio),
    (tag 'm' 'd' 'a' 't', buildMdat video audio)]

theorem length_moofBody : 8 + (moofBody seq startTime video audio).length + 8 =
    mdatDataOffset video audio := by
  rw [moofBody, length_boxes_moofBoxes, mdatDataOffset]

theorem buildMediaSegment_eq_boxes :
    buildMediaSegment seq startTime video audio =
      boxes (segmentBoxes seq startTime video audio) := by
  have ho : (buildMoof seq startTime video audio 0).length + 8 = mdatDataOffset video audio := by
    rw [buildMoof, length_box rfl, length_boxes_moofBoxes, mdatDataOffset]
  rw [buildMediaSegment, ho, segmentBoxes, boxes_cons, boxes_cons, boxes_cons, boxes_nil,
    append_nil]
  rfl

/-- The place of `moof`. -/
def moofView : BoxView :=
  ⟨tag 'm' 'o' 'o' 'f', 24, 32, 24 + (8 + (moofBody seq startTime video audio).length)⟩

/-- The place of `mdat`. -/
def mdatView : BoxView :=
  let start := 24 + (8 + (moofBody seq startTime video audio).length)
  ⟨tag 'm' 'd' 'a' 't', start, start + 8, start + (8 + (buildMdat video audio).length)⟩

theorem viewsFrom_segmentBoxes : viewsFrom 0 (segmentBoxes seq startTime video audio) =
    [⟨tag 's' 't' 'y' 'p', 0, 8, 24⟩, moofView seq startTime video audio,
      mdatView seq startTime video audio] := rfl

theorem length_segmentBoxes : (boxes (segmentBoxes seq startTime video audio)).length =
    24 + (8 + (moofBody seq startTime video audio).length + (8 + (buildMdat video audio).length)) :=
  by
  simp only [segmentBoxes, boxes_cons, boxes_nil, length_append, length_box (length_tag _ _ _ _),
    length_nil]
  have hs : stypData.length = 16 := rfl
  omega

theorem moofBoxes_filter_traf (offset : Nat) :
    (moofBoxes seq startTime video audio offset).filter (·.1 == tag 't' 'r' 'a' 'f') =
      (if video.isEmpty then [] else [buildTraf 1 startTime video offset]) ++
        (if audio.isEmpty then [] else [buildTraf 2 startTime audio
          (offset + (video.map (·.data.length)).sum)]) := by
  rw [moofBoxes]
  cases video.isEmpty <;> cases audio.isEmpty <;> rfl

variable {seq startTime video audio}

theorem SegmentFits.offset_lt (h : SegmentFits video audio) :
    mdatDataOffset video audio + (if audio.isEmpty then 0 else (video.map (·.data.length)).sum) <
      2 ^ 31 := by
  have hlt := h.offset
  rwa [buildMoof, length_box rfl] at hlt

theorem boxed_segmentBoxes (h : SegmentFits video audio) :
    Boxed (segmentBoxes seq startTime video audio) := by
  have ho := h.offset_lt
  have hlen := length_moofBody seq startTime video audio
  intro b hb
  simp only [segmentBoxes, mem_cons, not_mem_nil, or_false] at hb
  rcases hb with rfl | rfl | rfl
  · exact ⟨rfl, by decide⟩
  · refine ⟨rfl, ?_⟩
    show 8 + (moofBody seq startTime video audio).length < 2 ^ 32
    omega
  · exact ⟨rfl, h.mdat⟩

theorem boxViews_segment (h : SegmentFits video audio) :
    (boxes (segmentBoxes seq startTime video audio)).length < 2 ^ 63 ∧
      boxViews (boxes (segmentBoxes seq startTime video audio)) 0
        (boxes (segmentBoxes seq startTime video audio)).length =
        .ok (viewsFrom 0 (segmentBoxes seq startTime video audio)) := by
  have ho := h.offset_lt
  have hmd := h.mdat
  have hmf := length_moofBody seq startTime video audio
  have hlen := length_segmentBoxes seq startTime video audio
  have hlt : (boxes (segmentBoxes seq startTime video audio)).length < 2 ^ 63 := by omega
  have hw := boxViewsFrom_boxes (lt_trans hlt (by decide))
    (segmentBoxes seq startTime video audio)
    ((boxes (segmentBoxes seq startTime video audio)).length + 1) 0 (boxed_segmentBoxes h)
    (by rw [hlen]; show 3 < _; omega) (behind_self _)
  rw [zero_add] at hw
  exact ⟨hlt, hw⟩

/-- **A media segment** of the muxer. -/
theorem demuxFragment_eq {demuxer : Fmp4Demuxer} {vt at' : FragmentTrack}
    (hv : video ≠ [] → demuxer.tracks.lookup 1 = some vt)
    (ha : audio ≠ [] → demuxer.tracks.lookup 2 = some at') (hst : startTime < 2 ^ 64)
    (hf : SegmentFits video audio) (hd : ∀ s ∈ video ++ audio, s.duration < 2 ^ 32) :
    demuxer.demuxFragment (buildMediaSegment seq startTime video audio) =
      .ok ((framesFrom vt startTime video ++ framesFrom at' startTime audio).mergeSort
        frameLe) := by
  obtain ⟨hlt, htp⟩ := @boxViews_segment seq startTime video audio hf
  have hlt' := lt_trans hlt (show 2 ^ 63 < 2 ^ 64 by decide)
  have ho := hf.offset_lt
  have hmL := length_moofBody seq startTime video audio
  have hal := forall₂_viewsFrom (segmentBoxes seq startTime video audio) 0 (boxed_segmentBoxes hf)
    (behind_self _)
  rw [viewsFrom_segmentBoxes, segmentBoxes, forall₂_cons, forall₂_cons, forall₂_cons] at hal
  obtain ⟨-, hmv, hmV, -⟩ := hal
  rw [← segmentBoxes] at hmv hmV
  rw [buildMediaSegment_eq_boxes]
  generalize boxes (segmentBoxes seq startTime video audio) = data at *
  -- the samples of both tracks lie one behind the other
  obtain ⟨rest, hmA⟩ := hmV.inData
  have hp : (mdatView seq startTime video audio).dataStart =
      (moofView seq startTime video audio).start + mdatDataOffset video audio := by
    show 24 + (8 + (moofBody seq startTime video audio).length) + 8 =
      24 + mdatDataOffset video audio
    omega
  rw [hp] at hmA
  have hvA := Behind.fst (a := video.flatMap (·.data)) hmA
  have haA := Behind.snd (a := video.flatMap (·.data)) hmA
  rw [length_flatMap_data, add_assoc] at haA
  have hsm := fits_of_mdat hf hd
  have hmB := boxed_of_length
    (kinds_moofBoxes seq startTime video audio (mdatDataOffset video audio))
    (show (moofBody seq startTime video audio).length < 2 ^ 32 by omega)
  obtain ⟨inner, hir, hvw⟩ := View.boxViews
    (l := moofBoxes seq startTime video audio (mdatDataOffset video audio))
    hmv hlt' hmB
  have htr := filter_views (tag 't' 'r' 'a' 'f') hvw
  have hsz : ∀ traf ∈ (moofBoxes seq startTime video audio (mdatDataOffset video audio)).filter
      (·.1 == tag 't' 'r' 'a' 'f'), traf.2.length < 2 ^ 32 := by
    intro traf hin
    have hb := (hmB traf (mem_of_mem_filter hin)).2
    omega
  rw [moofBoxes_filter_traf] at htr hsz
  have has : audio ≠ [] → mdatDataOffset video audio + (video.map (·.data.length)).sum <
      2 ^ 31 := by
    intro hne
    rwa [if_neg (by rwa [List.isEmpty_iff])] at ho
  rw [forall_mem_append] at hsz hsm
  obtain ⟨vparts, hvp, hvf⟩ := mapM_traf (mdatView seq startTime video audio) hlt (by decide) hst
    (fun _ => by omega) hsm.1 hv (forall₂_take_append _ _ _ htr) hsz.1 hvA
  obtain ⟨aparts, hap, haf⟩ := mapM_traf (mdatView seq startTime video audio) hlt (by decide) hst
    has hsm.2 ha (forall₂_drop_append _ _ _ htr) hsz.2 haA
  have hmM : (inner.filter (·.kind == tag 't' 'r' 'a' 'f')).mapM (demuxer.demuxTraf data
      (moofView seq startTime video audio) (mdatView seq startTime video audio)) = .ok
      (vparts ++ aparts) := by
    rw [← take_append_drop _ (inner.filter (·.kind == tag 't' 'r' 'a' 'f')), mapM_append, hvp,
      ok_bind, hap]
    rfl
  have hmf : (viewsFrom 0 (segmentBoxes seq startTime video audio)).find?
    (·.kind == tag 'm' 'o' 'o' 'f') =
      some (moofView seq startTime video audio) := rfl
  have hmd : (viewsFrom 0 (segmentBoxes seq startTime video audio)).find?
    (·.kind == tag 'm' 'd' 'a' 't') =
      some (mdatView seq startTime video audio) := rfl
  rw [Fmp4Demuxer.demuxFragment, htp, ok_bind, hmf, orError_some, ok_bind, hmd, orError_some,
    ok_bind, hir, ok_bind, hmM, ok_bind, flatten_append, hvf, haf]
  rfl

end

/-! ## One track of a segment -/

theorem ticksToMs_lt (ticks timescale : Nat) : ticksToMs ticks timescale < 2 ^ 64 := by
  have hle : ticksToMs ticks timescale ≤ min (ticks * 1000) (2 ^ 64 - 1) := Nat.div_le_self _ _
  omega

theorem ticksToMs_mono {a b : Nat} (h : a ≤ b) (timescale : Nat) :
    ticksToMs a timescale ≤ ticksToMs b timescale := by
  apply Nat.div_le_div_right
  omega

theorem trackFrame_dts (track : FragmentTrack) (dtsMs ptsMs : Nat) (data : Bytes) (key : Bool) :
    (trackFrame track dtsMs ptsMs data key).dts = ofNat dtsMs ∧
      (trackFrame track dtsMs ptsMs data key).trackId = UInt32.ofNat track.id := by
  rw [trackFrame]
  split <;> exact ⟨rfl, rfl⟩

theorem dts_of_mem_framesFrom {f : MediaFrame} : ∀ {decode : Nat},
    decode < 2 ^ 64 → f ∈ framesFrom track decode samples →
      ofNat (ticksToMs decode track.timescale) ≤ f.dts ∧ f.trackId = UInt32.ofNat track.id := by
  induction samples with
  | nil => exact fun _ h => absurd h not_mem_nil
  | cons s samples ih =>
    intro decode hdc hmem
    rcases mem_cons.mp hmem with rfl | hlt
    · obtain ⟨hdt, hid⟩ := trackFrame_dts track (ticksToMs decode track.timescale)
        (ticksToMs decode track.timescale) s.data s.isSync
      exact ⟨by rw [hdt]; exact UInt64.le_refl _, hid⟩
    · obtain ⟨hle, hid⟩ := ih (by omega) hlt
      refine ⟨UInt64.le_trans ?_ hle, hid⟩
      rw [le_iff_toNat_le, toNat_ofNat_of_lt' (ticksToMs_lt _ _),
        toNat_ofNat_of_lt' (ticksToMs_lt _ _)]
      exact ticksToMs_mono (by omega) _

theorem pairwise_framesFrom : ∀ {decode : Nat}, decode < 2 ^ 64 →
    (framesFrom track decode samples).Pairwise fun a b => frameLe a b = true := by
  induction samples with
  | nil => exact fun _ => List.Pairwise.nil
  | cons s samples ih =>
    intro decode hdc
    refine List.Pairwise.cons (fun f hf => ?_) (ih (by omega))
    have hmem : f ∈ framesFrom track decode (s :: samples) := mem_cons_of_mem _ hf
    obtain ⟨hle, hid⟩ := dts_of_mem_framesFrom hdc hmem
    obtain ⟨hdt, hid'⟩ := trackFrame_dts track (ticksToMs decode track.timescale)
      (ticksToMs decode track.timescale) s.data s.isSync
    rw [frameLe, decide_eq_true_iff, hdt, hid, hid']
    rcases UInt64.lt_or_eq_of_le hle with hlt | heq
    · exact .inl hlt
    · exact .inr ⟨heq, UInt32.le_refl _⟩

theorem frameLe_trans (a b c : MediaFrame) (hab : frameLe a b = true) (hbc : frameLe b c = true) :
    frameLe a c = true := by
  rw [frameLe, decide_eq_true_iff] at *
  rw [UInt64.lt_iff_toNat_lt, UInt32.le_iff_toNat_le, ← UInt64.toNat_inj] at *
  omega

theorem frameLe_total (a b : MediaFrame) : (frameLe a b || frameLe b a) = true := by
  rw [Bool.or_eq_true, frameLe, frameLe, decide_eq_true_iff, decide_eq_true_iff]
  rw [UInt64.lt_iff_toNat_lt, UInt64.lt_iff_toNat_lt, UInt32.le_iff_toNat_le,
    UInt32.le_iff_toNat_le, ← UInt64.toNat_inj, ← UInt64.toNat_inj]
  omega

/-- **The frames of each track** in a segment of the muxer. -/
theorem demuxFragment_buildMediaSegment {demuxer : Fmp4Demuxer} {vt at' : FragmentTrack}
    {seq startTime : Nat} {video audio : List Fmp4Sample} (hvd : vt.id = 1) (had : at'.id = 2)
    (hv : video ≠ [] → demuxer.tracks.lookup 1 = some vt)
    (ha : audio ≠ [] → demuxer.tracks.lookup 2 = some at') (hs : startTime < 2 ^ 64)
    (hft : SegmentFits video audio) (hd : ∀ s ∈ video ++ audio, s.duration < 2 ^ 32) :
    ∃ frames, demuxer.demuxFragment (buildMediaSegment seq startTime video audio) = .ok frames ∧
      frames.filter (·.trackId == 1) = framesFrom vt startTime video ∧
      frames.filter (·.trackId == 2) = framesFrom at' startTime audio := by
  refine ⟨_, demuxFragment_eq hv ha hs hft hd, ?_⟩
  have hvl : ∀ f ∈ framesFrom vt startTime video, f.trackId = 1 := by
    intro f hf
    rw [(dts_of_mem_framesFrom hs hf).2, hvd]
    rfl
  have hal : ∀ f ∈ framesFrom at' startTime audio, f.trackId = 2 := by
    intro f hf
    rw [(dts_of_mem_framesFrom hs hf).2, had]
    rfl
  have ho : (framesFrom vt startTime video ++ framesFrom at' startTime audio).filter
    (·.trackId == 1) =
      framesFrom vt startTime video := by
    rw [filter_append, filter_eq_self.mpr fun f hf => by rw [hvl f hf]; rfl,
      filter_eq_nil_iff.mpr fun f hf => by rw [hal f hf]; decide, append_nil]
  have ht : (framesFrom vt startTime video ++ framesFrom at' startTime audio).filter
    (·.trackId == 2) =
      framesFrom at' startTime audio := by
    rw [filter_append, filter_eq_nil_iff.mpr fun f hf => by rw [hvl f hf]; decide,
      filter_eq_self.mpr fun f hf => by rw [hal f hf]; rfl, nil_append]
  constructor
  · rw [filter_mergeSort frameLe_trans frameLe_total _ (by rw [ho]; exact pairwise_framesFrom hs),
      ho]
  · rw [filter_mergeSort frameLe_trans frameLe_total _ (by rw [ht]; exact pairwise_framesFrom hs),
      ht]

end MediaKit.Fmp4
