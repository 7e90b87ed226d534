import MediaKit.Fmp4.Muxer
import MediaKit.Fmp4.Views

/-!
# Reading an init segment

What the reader makes of the init segment of a muxer: a track for each configuration that the
muxer has (`fromInitSegment_buildInitSegment`). A video record comes back as it was written.
`extractAsc_esdsData_iff` says which AAC configurations do: the writer puts a fixed length into
the outer descriptor, and the reader looks for the inner one only inside that length.
-/

namespace MediaKit.Fmp4

open MediaKit.Core Lib List Option

/-! ## Tracks -/

section

variable {data : Bytes}
  {codec : CodecId} {config k : Bytes} {stsd : BoxView} {height timescale width : Nat}

theorem readStsd_entry {kind fixed ck raw : Bytes} (hd : data.length < 2 ^ 64)
    (h : View data stsd k (be32 0 ++ be32 1 ++ box kind (fixed ++ box ck raw)))
    (hk : kind.length = 4) (hck : ck.length = 4) (hs : 8 + (fixed ++ box ck raw).length < 2 ^ 32)
    (hcd : entryCodec kind = .ok (codec, 16 + fixed.length)) (hcn : configKind codec = ck) :
    readStsd data stsd = .ok (codec, if codec = .aac then extractAsc raw else raw) := by
  obtain ⟨rest, hat⟩ := h.inData
  have he : Behind data (stsd.dataStart + 8) (box kind (fixed ++ box ck raw)) rest := hat.snd
  have hi : Behind data (stsd.dataStart + 8 + 8 + fixed.length) (box ck raw) rest :=
    (he.box hk).bodyAt.snd
  have hlB := length_box hk (fixed ++ box ck raw)
  have hlI := length_box hck raw
  rw [length_append] at hlB hs
  have hbA : Behind (be32 0 ++ be32 1 ++ box kind (fixed ++ box ck raw)) 8
      (box kind (fixed ++ box ck raw)) [] := by
    have hap := behind_append (be32 0 ++ be32 1) (box kind (fixed ++ box ck raw)) []
    rwa [append_nil] at hap
  have hrd : readU32 (be32 0 ++ be32 1 ++ box kind (fixed ++ box ck raw)) 8 = .ok
      (8 + (fixed ++ box ck raw).length) := by
    rw [readU32, (hbA.box hk).sizeAt.u32At (by rw [length_append]; exact hs)]
    rfl
  have hkn : ((be32 0 ++ be32 1 ++ box kind (fixed ++ box ck raw)).drop 12).take 4 = kind := by
    have ht := (hbA.box hk).kindAt.take
    rwa [hk] at ht
  have hlen : (be32 0 ++ be32 1 ++ box kind (fixed ++ box ck raw)).length =
      8 + (8 + (fixed.length + (box ck raw).length)) := by
    rw [length_append, hlB]
    rfl
  have hbx : Boxed [(ck, raw)] := by
    intro b hb
    rw [mem_singleton.mp hb]
    refine ⟨hck, ?_⟩
    show 8 + raw.length < 2 ^ 32
    omega
  have ho : boxes [(ck, raw)] = box ck raw := by
    rw [boxes_cons, boxes_nil, append_nil]
  obtain ⟨vs, hvs, hvi⟩ := @boxViews_boxes data rest [(ck, raw)] _ hd hbx (by rw [ho]; exact hi)
  obtain ⟨w, hw, hvw⟩ := find_views (b := (ck, raw)) hvi (by rw [find?_cons, beq_self_eq_true])
  have hrg : boxViews data (stsd.dataStart + (16 + fixed.length))
      (stsd.dataStart + 8 + (8 + (fixed ++ box ck raw).length)) = .ok vs := by
    rw [ho] at hvs
    rw [length_append]
    convert hvs using 2
    · omega
    · omega
  rw [readStsd, h.body, ok_bind, if_neg (by omega), hrd, ok_bind,
    if_neg (by rw [length_append]; omega), hkn, hcd, ok_bind]
  dsimp only
  rw [hrg, ok_bind, hcn, hw, orError_some, ok_bind, hvw.body]
  rfl

/-! ### Codecs -/

/-- The track that the reader makes of a configuration. -/
def configTrack (id : Nat) (codec : CodecId) (config : Bytes) (timescale : Nat) : FragmentTrack :=
  ⟨id, codec, max timescale 1, if codec = .aac then extractAsc (esdsData (aacConfigOf config))
    else recordOf config⟩

theorem readStsd_sampleEntry
    (hd : data.length < 2 ^ 64) (hc : codec = .h264 ∨ codec = .h265 ∨ codec = .aac)
    (h : View data stsd k (be32 0 ++ be32 1 ++ sampleEntry codec config width height timescale))
    (hs : (sampleEntry codec config width height timescale).length < 2 ^ 32) :
    readStsd data stsd = .ok (codec, if codec = .aac then extractAsc (esdsData (aacConfigOf config))
      else recordOf config) := by
  rcases hc with rfl | rfl | rfl
  · rw [sampleEntry, buildAvc1Entry, length_box rfl] at hs
    exact readStsd_entry hd h rfl rfl hs rfl rfl
  · rw [sampleEntry, buildHvc1Entry, length_box rfl] at hs
    exact readStsd_entry hd h rfl rfl hs rfl rfl
  · rw [sampleEntry, buildMp4aEntry, length_box rfl] at hs
    exact readStsd_entry hd h rfl rfl hs rfl rfl

theorem kinds_stblBoxes (entry : Bytes) : ∀ b ∈ stblBoxes entry, b.1.length = 4 := by
  simp [stblBoxes]

theorem kinds_minfBoxes (isVideo : Bool) (entry : Bytes) :
    ∀ b ∈ minfBoxes isVideo entry, b.1.length = 4 := by
  cases isVideo <;> simp [minfBoxes]

theorem kinds_mdiaBoxes (isVideo : Bool) (timescale : Nat) (entry : Bytes) :
    ∀ b ∈ mdiaBoxes isVideo timescale entry, b.1.length = 4 := by
  simp [mdiaBoxes]

theorem kinds_trakBoxes (trackId : Nat) (codec : CodecId) (config : Bytes)
    (width height timescale : Nat) :
    ∀ b ∈ trakBoxes trackId codec config width height timescale, b.1.length = 4 := by
  simp [trakBoxes]

/-- **A track** that the muxer wrote. -/
theorem readTrak_trakBoxes {trak : BoxView} {id : Nat} (hdt : data.length < 2 ^ 64)
    (hc : codec = .h264 ∨ codec = .h265 ∨ codec = .aac) (hid : id < 2 ^ 32)
    (htm : timescale < 2 ^ 32)
    (h : View data trak k (boxes (trakBoxes id codec config width height timescale)))
    (hsz : (boxes (trakBoxes id codec config width height timescale)).length < 2 ^ 32) :
    readTrak data trak = .ok (configTrack id codec config timescale) := by
  let isVideo := decide (codec = .h264 ∨ codec = .h265)
  let entry := sampleEntry codec config width height timescale
  have hkn := kinds_trakBoxes id codec config width height timescale
  obtain ⟨tkhd, htk, htV, -⟩ := h.inner (tag 't' 'k' 'h' 'd') hdt hkn hsz rfl
  obtain ⟨mdia, hmdi, hmv, hmL⟩ := h.inner (tag 'm' 'd' 'i' 'a') hdt hkn hsz rfl
  have hkM := kinds_mdiaBoxes isVideo timescale entry
  obtain ⟨mdhd, hmd, hmV, -⟩ := View.inner hmv (tag 'm' 'd' 'h' 'd') hdt hkM hmL rfl
  obtain ⟨minf, hmn, hmw, hmf⟩ := View.inner hmv (tag 'm' 'i' 'n' 'f') hdt hkM hmL rfl
  have hf : (minfBoxes isVideo entry).find? (·.1 == tag 's' 't' 'b' 'l') =
      some (tag 's' 't' 'b' 'l', boxes (stblBoxes entry)) := by
    cases isVideo <;> rfl
  obtain ⟨stbl, hst, hsV, hsL⟩ :=
    View.inner hmw (tag 's' 't' 'b' 'l') hdt (kinds_minfBoxes isVideo entry) hmf hf
  obtain ⟨stsd, hsd, hsv, hsl⟩ :=
    View.inner hsV (tag 's' 't' 's' 'd') hdt (kinds_stblBoxes entry) hsL rfl
  rw [length_append] at hsl
  have hrS := readStsd_sampleEntry hdt hc hsv (lt_of_le_of_lt (Nat.le_add_left _ _) hsl)
  have hrI : readU32 (tkhdData id width height isVideo) 12 = .ok id :=
    readU32_be32 ⟨by simp only [tkhdData, length_append, length_be32]; omega, rfl⟩ hid
  have hrd : readU32 (mdhdData timescale) 12 = .ok timescale :=
    readU32_be32 ⟨by simp only [mdhdData, length_append, length_be32]; omega, rfl⟩ htm
  have hds : descendant data mdia [tag 'm' 'i' 'n' 'f', tag 's' 't' 'b' 'l', tag 's' 't' 's' 'd'] =
      .ok (some stsd) := by
    rw [descendant, hmn, ok_bind]
    dsimp only
    rw [descendant, hst, ok_bind]
    dsimp only
    rw [descendant, hsd, ok_bind]
    rfl
  have htB : tkhd.body data = .ok (tkhdData id width height isVideo) := htV.body
  have hmB : mdhd.body data = .ok (mdhdData timescale) := hmV.body
  have hvT : versionOf (tkhdData id width height isVideo) = 0 := rfl
  have hvM : versionOf (mdhdData timescale) = 0 := rfl
  rw [readTrak, htk, ok_bind, orError_some, ok_bind, htB, ok_bind, hvT, if_neg (by decide), hrI,
    ok_bind, hmdi, ok_bind, orError_some, ok_bind, hmd, ok_bind, orError_some, ok_bind, hmB,
    ok_bind,
    hvM, if_neg (by decide), hrd, ok_bind, hds, ok_bind, orError_some, ok_bind, hrS, ok_bind]
  rfl

end

/-! ## The segment -/

/-- What `write_trak` is told of a track. -/
structure TrakParams where
  id : Nat
  codec : CodecId
  config : Bytes
  width : Nat
  height : Nat
  timescale : Nat

/-- The box of the track. -/
def TrakParams.box (t : TrakParams) : Bytes × Bytes :=
  writeTrak t.id t.codec t.config t.width t.height t.timescale

/-- What the reader makes of it. -/
def TrakParams.track (t : TrakParams) : FragmentTrack :=
  configTrack t.id t.codec t.config t.timescale

variable (m : Fmp4Muxer)

/-- The tracks of the init segment. -/
def Fmp4Muxer.traks : List TrakParams :=
  (match m.videoCodec, m.videoConfig with
    | some codec, some config => [⟨1, codec, config, width, height, m.videoTimescale.toNat⟩]
    | _, _ => []) ++
    (match m.audioCodec, m.audioConfig with
      | some codec, some config => [⟨2, codec, config, 0, 0, audioSampleRate⟩]
      | _, _ => [])

open Fmp4Muxer

theorem moovBoxes_filter : m.moovBoxes.filter (·.1 == tag 't' 'r' 'a' 'k') =
    m.traks.map TrakParams.box := by
  rw [moovBoxes, traks]
  cases m.videoCodec <;> cases m.videoConfig <;> cases m.audioCodec <;> cases m.audioConfig <;> rfl

theorem kinds_moovBoxes : ∀ b ∈ m.moovBoxes, b.1.length = 4 := by
  rw [moovBoxes]
  cases m.videoCodec <;> cases m.videoConfig <;> cases m.audioCodec <;> cases m.audioConfig <;>
    simp [writeTrak]

/-- A track that the reader can read. -/
structure TrakParams.Readable (t : TrakParams) : Prop where
  codec : t.codec = .h264 ∨ t.codec = .h265 ∨ t.codec = .aac
  id : t.id < 2 ^ 32
  timescale : t.timescale < 2 ^ 32
  size : t.box.2.length < 2 ^ 32

theorem foldlM_readTrak {data : Bytes} (hd : data.length < 2 ^ 64) {vs : List BoxView}
    {traks : List TrakParams}
    (hvw : Forall₂ (fun v b => View data v b.1 b.2) vs (traks.map TrakParams.box))
    (hrd : ∀ t ∈ traks, t.Readable) : ∀ tracks : List (Nat × FragmentTrack),
      vs.foldlM (fun tracks trak => (readTrak data trak >>= fun track =>
        pure (assocInsert track.id track tracks) : Parse (List (Nat × FragmentTrack)))) tracks =
        .ok (traks.foldl (fun tracks t => assocInsert t.id t.track tracks) tracks) := by
  induction traks generalizing vs with
  | nil =>
    cases hvw
    exact fun _ => rfl
  | cons t traks ih =>
    intro tracks
    cases hvw with
    | cons hv hrs =>
      have ht := hrd t mem_cons_self
      have ho := readTrak_trakBoxes hd ht.codec ht.id ht.timescale hv ht.size
      rw [foldlM_cons, ho]
      exact ih hrs (fun t' ht' => hrd t' (mem_cons_of_mem _ ht')) _

/-- The tracks of the reader. -/
def Fmp4Muxer.tracks : List (Nat × FragmentTrack) := m.traks.map fun t => (t.id, t.track)

theorem foldl_assocInsert_traks :
    m.traks.foldl (fun tracks t => assocInsert t.id t.track tracks) [] = m.tracks := by
  rw [tracks, traks]
  split
  · split <;> rfl
  · split <;> rfl

/-- What the muxer knows of its tracks when the reader can read them. -/
structure Fmp4Muxer.Supported (m : Fmp4Muxer) : Prop where
  video : ∀ c, m.videoCodec = some c → c = .h264 ∨ c = .h265
  audio : ∀ c, m.audioCodec = some c → c = .aac

/-- The init segment fits into its size field. -/
def Fmp4Muxer.InitFits : Prop := 8 + (boxes m.moovBoxes).length < 2 ^ 32

theorem traks_readable {m : Fmp4Muxer} (hcs : m.Supported) (hft : m.InitFits) :
    ∀ t ∈ m.traks, t.Readable := by
  intro t ht
  have hs : t.box.2.length < 2 ^ 32 := by
    have hin : t.box ∈ m.moovBoxes := by
      have hfl : t.box ∈ m.moovBoxes.filter (·.1 == tag 't' 'r' 'a' 'k') := by
        rw [moovBoxes_filter]
        exact mem_map_of_mem ht
      exact mem_of_mem_filter hfl
    have hle := length_body_le hin
    rw [InitFits] at hft
    omega
  rw [traks, mem_append] at ht
  rcases ht with ht | ht
  · split at ht
    next codec config hcd _ =>
      rw [mem_singleton] at ht
      subst ht
      exact ⟨(hcs.video codec hcd).imp_right .inl,
        show 1 < 2 ^ 32 by decide, m.videoTimescale.toNat_lt, hs⟩
    next => exact absurd ht not_mem_nil
  · split at ht
    next codec config hcd _ =>
      rw [mem_singleton] at ht
      subst ht
      exact ⟨.inr (.inr (hcs.audio codec hcd)),
        show 2 < 2 ^ 32 by decide, show 44100 < 2 ^ 32 by decide, hs⟩
    next => exact absurd ht not_mem_nil

/-- **The init segment** of a muxer. -/
theorem fromInitSegment_buildInitSegment {m : Fmp4Muxer} (hc : m.Supported) (hft : m.InitFits)
    (hne : m.tracks ≠ []) : fromInitSegment m.buildInitSegment = .ok ⟨m.tracks⟩ := by
  let ftyp := ftypData m.videoCodec
  let top : List (Bytes × Bytes) := [(tag 'f' 't' 'y' 'p', ftyp),
    (tag 'm' 'o' 'o' 'v', boxes m.moovBoxes)]
  have hfy : ftyp.length = 20 := by
    show (ftypData m.videoCodec).length = 20
    rw [ftypData]
    split <;> rfl
  have hbx : Boxed top := by
    intro b hb
    simp only [top, mem_cons, not_mem_nil, or_false] at hb
    rcases hb with rfl | rfl
    · refine ⟨rfl, ?_⟩
      show 8 + ftyp.length < 2 ^ 32
      omega
    · exact ⟨rfl, hft⟩
  have hd : (boxes top).length < 2 ^ 64 := by
    rw [InitFits] at hft
    simp only [top, boxes_cons, boxes_nil, length_append, length_box (length_tag _ _ _ _),
      length_nil]
    omega
  obtain ⟨vs, hvs, hvw⟩ := boxViews_boxes hd hbx (behind_self (boxes top))
  rw [zero_add] at hvs
  obtain ⟨moov, hmv, hmV⟩ := find_views hvw
    (show top.find? (·.1 == tag 'm' 'o' 'o' 'v') = some (tag 'm' 'o' 'o' 'v', boxes m.moovBoxes)
      from rfl)
  have hmB : Boxed m.moovBoxes := by
    rw [InitFits] at hft
    exact boxed_of_length (kinds_moovBoxes m) (by omega)
  obtain ⟨inner, hin, hiV⟩ := hmV.boxViews hd hmB
  have hfr := filter_views (tag 't' 'r' 'a' 'k') hiV
  rw [moovBoxes_filter] at hfr
  have hfl := foldlM_readTrak hd hfr (traks_readable hc hft) []
  rw [foldl_assocInsert_traks] at hfl
  show fromInitSegment (boxes top) = _
  rw [fromInitSegment, hvs, ok_bind, hmv, orError_some, ok_bind, hin, ok_bind, hfl, ok_bind,
    if_neg (fun he => hne (isEmpty_iff.mp he))]
  rfl

/-! ## AAC configurations -/

theorem descriptorLengthFrom_lt {data : Bytes} (n : Nat) : ∀ {length offset : Nat} {r : Nat × Nat},
    descriptorLengthFrom data n length offset = some r → offset < r.2 := by
  induction n with
  | zero => exact fun h => nomatch h
  | succ n ih =>
    intro length offset r h
    obtain ⟨byte, -, h⟩ := bind_eq_some_iff.mp h
    split at h
    · rw [← some.inj h]
      exact Nat.lt_succ_self offset
    · exact Nat.lt_of_succ_lt (ih h)

theorem length_extractAscFrom_le (esds : Bytes) (fuel : Nat) : ∀ offset,
    (extractAscFrom esds fuel offset).length ≤ esds.length - (offset + 2) := by
  induction fuel with
  | zero => exact fun _ => Nat.zero_le _
  | succ fuel ih =>
    intro offset
    have hp : ∀ from' len, offset + 2 ≤ from' →
        ((esds.drop from').take len).length ≤ esds.length - (offset + 2) := by
      intro from' len hle
      rw [length_take, length_drop]
      omega
    rw [extractAscFrom]
    split
    · exact Nat.zero_le _
    · split
      · exact Nat.zero_le _
      next length next hln =>
        have hn : offset + 1 < next := descriptorLengthFrom_lt 4 hln
        split
        · exact Nat.zero_le _
        · split
          · exact hp _ _ hn
          · split
            next config hc =>
              rw [scannedChild] at hc
              obtain ⟨relative, -, hc⟩ := bind_eq_some_iff.mp hc
              obtain ⟨⟨childLength, childOffset⟩, hd, hc⟩ := bind_eq_some_iff.mp hc
              have hlt : next + relative + 1 < childOffset := descriptorLengthFrom_lt 4 hd
              dsimp only at hc
              split at hc
              · rw [← some.inj hc]
                exact hp _ _ (by omega)
              · cases hc
            · exact le_trans (ih _) (by omega)

theorem length_esdsData (c : Bytes) : (esdsData c).length = 29 + c.length := by
  rw [esdsData]
  simp only [length_append, length_be32, length_be16, length_replicate, length_cons, length_nil]
  omega

/-- A configuration of two to five octets lies inside the outer descriptor. -/
theorem extractAsc_short {c : Bytes} (hl : 2 ≤ c.length) (hh : c.length ≤ 5) :
    extractAsc (esdsData c) = c := by
  match c, hl, hh with
  | [x, y], _, _ => rfl
  | [x, y, z], _, _ => rfl
  | [x, y, z, u], _, _ => rfl
  | [x, y, z, u, w], _, _ => rfl

theorem length_extractAsc_lt {c : Bytes} (hne : c ≠ []) (h : c.length < 2 ∨ 5 < c.length)
    (hh : c.length < 128) : (extractAsc (esdsData c)).length < c.length := by
  have hlen := length_esdsData c
  have hpos : 0 < c.length := length_pos_iff.mpr hne
  have hf : (esdsData c).length = (28 + c.length) + 1 := by omega
  have hd : descriptorLength (esdsData c) (4 + 1) = some (25, 6) := rfl
  have hst : extractAsc (esdsData c) =
      if (esdsData c).length < 6 + 25 then []
      else (scannedChild (esdsData c) 6 25).getD (extractAscFrom (esdsData c) (28 + c.length)
        (6 + 25)) := by
    rw [extractAsc, Nat.min_eq_left (by omega), hf, extractAscFrom]
    have hk : (esdsData c)[4]? = some 0x03 := rfl
    rw [hk]
    dsimp only
    rw [hd]
    dsimp only
    rewrite [if_neg (show ¬ ((0x03 : UInt8) = 0x05) by decide), hf]
    cases scannedChild (esdsData c) 6 25 <;> rfl
  rw [hst]
  rcases h with hsh | hln
  · rw [if_pos (by omega)]
    exact hpos
  · rw [if_neg (by omega)]
    have hb : (UInt8.ofNat c.length).toNat = c.length := by
      rw [UInt8.toNat_ofNat']
      exact Nat.mod_eq_of_lt (by omega)
    have hc : scannedChild (esdsData c) 6 25 = none := by
      have hid : (((esdsData c).drop 6).take 25).findIdx? (· == 0x05) = some 18 := rfl
      have hin : descriptorLength (esdsData c) (6 + 18 + 1) = some (c.length, 26) := by
        have hg : (esdsData c)[25]? = some (UInt8.ofNat c.length) := rfl
        rw [descriptorLength, descriptorLengthFrom]
        show ((esdsData c)[25]?).bind _ = _
        rw [hg, bind_some, hb]
        dsimp only
        rw [if_pos hh, zero_mul, zero_add, Nat.mod_eq_of_lt hh]
      rw [scannedChild, hid, bind_eq_bind, bind_some, hin, bind_eq_bind, bind_some]
      exact if_neg (by omega)
    rw [hc, getD_none]
    have hle := length_extractAscFrom_le (esdsData c) (28 + c.length) (6 + 25)
    omega

/-- **An AAC configuration comes back** if it has at most five octets and does not look like an FLV
tag. -/
theorem extractAsc_esdsData_iff {asc : Bytes} (hlw : 2 ≤ asc.length) (hh : asc.length ≤ 64) :
    extractAsc (esdsData (aacConfigOf asc)) = asc ↔ asc.length ≤ 5 ∧
    ¬ (2 < asc.length ∧ asc.head? = some 0xAF) := by
  by_cases hf : 2 < asc.length ∧ asc.head? = some 0xAF
  · -- two octets are cut off, and what is found is no longer than what is left
    refine iff_of_false (fun heq => ?_) fun h => h.2 hf
    have hc : aacConfigOf asc = asc.drop 2 := if_pos hf
    have hlen : (asc.drop 2).length = asc.length - 2 := length_drop
    rw [hc] at heq
    by_cases hi : 2 ≤ (asc.drop 2).length ∧ (asc.drop 2).length ≤ 5
    · rw [extractAsc_short hi.1 hi.2] at heq
      rw [heq] at hlen
      omega
    · have hne : asc.drop 2 ≠ [] := length_pos_iff.mp (by omega)
      have hlt := length_extractAsc_lt hne (by omega) (by omega)
      rw [heq] at hlt
      omega
  · have hk : aacConfigOf asc = asc := if_neg hf
    rw [hk, and_iff_left hf]
    constructor
    · intro heq
      by_contra hln
      have hlt := length_extractAsc_lt (length_pos_iff.mp (by omega)) (.inr (by omega))
        (by omega : asc.length < 128)
      rw [heq] at hlt
      exact lt_irrefl _ hlt
    · exact extractAsc_short hlw

end MediaKit.Fmp4
