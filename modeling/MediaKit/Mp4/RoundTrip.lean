import MediaKit.Mp4.Tables

/-!
# Reading a recording

What the reader makes of a track and of a file that the recorder wrote. A track is described by
what the reader needs of it (`Written`); it is then read up to its sample entry
(`parseTrak_trakBoxes`), and a file of such tracks is read track by track
(`fromBytes_fileBoxes`).
-/

namespace MediaKit.Mp4

open MediaKit.Core Lib List

/-! ## A track -/

/-- The version and the flags in front of a full box. -/
def fullHeader (flags : UInt8) : Bytes := [0, 0, 0, flags]

theorem writeFullBox_eq_box (kind data : Bytes) (flags : Nat) (h : flags < 256) :
    writeFullBox kind 0 flags data = box kind (fullHeader (UInt8.ofNat flags) ++ data) := by
  have h16 : UInt8.ofNat (flags >>> 16) = 0 := by
    rw [Nat.shiftRight_eq_div_pow, Nat.div_eq_of_lt (by omega)]
    rfl
  have h8 : UInt8.ofNat (flags >>> 8) = 0 := by
    rw [Nat.shiftRight_eq_div_pow, Nat.div_eq_of_lt (by omega)]
    rfl
  rw [writeFullBox, box, h16, h8, length_append]
  rw [show 12 + data.length = 8 + (4 + data.length) by omega]
  rfl

/-- The boxes of `minf`, the sample tables among them. -/
def minfBoxes (t : TrackParams) (entry : Bytes) (chunkOffset : Nat) : List (Bytes × Bytes) :=
  [if t.handlerType = tag 'v' 'i' 'd' 'e' then (tag 'v' 'm' 'h' 'd', fullHeader 1 ++ replicate 8 0)
    else (tag 's' 'm' 'h' 'd', fullHeader 0 ++ replicate 4 0),
    (tag 'd' 'i' 'n' 'f', box (tag 'd' 'r' 'e' 'f')
      (fullHeader 0 ++ (be32 1 ++ box (tag 'u' 'r' 'l' ' ') (fullHeader 1)))),
    (tag 's' 't' 's' 'd', stsdData entry), (tag 's' 't' 't' 's', sttsData t.samples),
    (tag 's' 't' 's' 'c', stscData t.samples.length),
    (tag 's' 't' 's' 'z', stszData (t.samples.map (·.data.length))),
    (tag 's' 't' 'c' 'o', stcoData chunkOffset)]

def mdiaBoxes (t : TrackParams) (entry : Bytes) (chunkOffset : Nat) : List (Bytes × Bytes) :=
  [(tag 'm' 'd' 'h' 'd', fullHeader 0 ++ mdhdData t.timescale (t.duration % 2 ^ 32)),
    (tag 'h' 'd' 'l' 'r', fullHeader 0 ++ hdlrData t.handlerType),
    (tag 'm' 'i' 'n' 'f', boxes (minfBoxes t entry chunkOffset))]

def trakBoxes (t : TrackParams) (entry : Bytes) (chunkOffset : Nat) : List (Bytes × Bytes) :=
  [(tag 't' 'k' 'h' 'd', fullHeader 7 ++
      tkhdData t.trackId (t.duration % 2 ^ 32 * 1000 / max t.timescale 1) t.width t.height),
    (tag 'm' 'd' 'i' 'a', boxes (mdiaBoxes t entry chunkOffset))]

theorem writeTrak_eq_some {t : TrackParams} {beforeMdat : Nat} {out : Bytes} (hne : t.samples ≠ [])
    (h : writeTrak t beforeMdat = some out) :
    ∃ entry, sampleEntry t.codec t.config t.width t.height = some entry ∧
      beforeMdat + 8 + t.mdatOffset % 2 ^ 32 < 2 ^ 32 ∧
      out = box (tag 't' 'r' 'a' 'k')
        (boxes (trakBoxes t entry (beforeMdat + 8 + t.mdatOffset % 2 ^ 32))) := by
  obtain ⟨stbl, hst, hot⟩ := Option.bind_eq_some_iff.mp h
  obtain ⟨entry, hen, hst⟩ := Option.bind_eq_some_iff.mp hst
  obtain ⟨behindHeader, hb, hst⟩ := Option.bind_eq_some_iff.mp hst
  obtain ⟨chunkOffset, hof, hst⟩ := Option.bind_eq_some_iff.mp hst
  obtain ⟨rfl, -⟩ := of_addU32 hb
  obtain ⟨rfl, hlt⟩ := of_addU32 hof
  refine ⟨entry, hen, hlt, ?_⟩
  have hstt : writeStts t.samples = box (tag 's' 't' 't' 's') (sttsData t.samples) :=
    if_neg (fun hem => hne (isEmpty_iff.mp hem))
  have hh : (if t.handlerType = tag 'v' 'i' 'd' 'e' then writeVmhd else writeSmhd) =
      boxes ((minfBoxes t entry (beforeMdat + 8 + t.mdatOffset % 2 ^ 32)).take 1) := by
    rw [minfBoxes]
    by_cases hv : t.handlerType = tag 'v' 'i' 'd' 'e'
    · rw [if_pos hv, if_pos hv]
      rfl
    · rw [if_neg hv, if_neg hv]
      rfl
  have hf := fun kind data flags h => writeFullBox_eq_box kind data flags h
  rw [← Option.some.inj hot, ← Option.some.inj hst, hh, hstt, writeMdhd, writeHdlr, writeTkhd,
    hf _ _ 0 (by decide), hf _ _ 0 (by decide), hf _ _ 7 (by decide)]
  simp only [trakBoxes, mdiaBoxes, minfBoxes, boxes_cons, boxes_nil, append_nil, append_assoc,
    makeBox, take_succ_cons, take_zero, writeStsc, writeStsz, writeStco]
  rfl

theorem kinds_minfBoxes (t : TrackParams) (entry : Bytes) (chunkOffset : Nat) :
    ∀ b ∈ minfBoxes t entry chunkOffset, b.1.length = 4 := by
  intro b hb
  rw [minfBoxes] at hb
  split at hb
  all_goals
    simp only [mem_cons, not_mem_nil, or_false] at hb
    rcases hb with rfl | rfl | rfl | rfl | rfl | rfl | rfl <;> rfl

theorem kinds_mdiaBoxes (t : TrackParams) (entry : Bytes) (chunkOffset : Nat) :
    ∀ b ∈ mdiaBoxes t entry chunkOffset, b.1.length = 4 := by
  intro b hb
  simp only [mdiaBoxes, mem_cons, not_mem_nil, or_false] at hb
  rcases hb with rfl | rfl | rfl <;> rfl

theorem kinds_trakBoxes (t : TrackParams) (entry : Bytes) (chunkOffset : Nat) :
    ∀ b ∈ trakBoxes t entry chunkOffset, b.1.length = 4 := by
  intro b hb
  simp only [trakBoxes, mem_cons, not_mem_nil, or_false] at hb
  rcases hb with rfl | rfl <;> rfl

/-- A track as the reader needs it: its numbers fit into their fields, and its samples lie in the
file where its tables say. -/
structure Written (t : TrackParams) (kind : TrackKind) (entry : Bytes) (offset : Nat)
    (file : Bytes) : Prop where
  handler : t.handlerType = tag 'v' 'i' 'd' 'e' ∧ kind = .video ∨
    t.handlerType = tag 's' 'o' 'u' 'n' ∧ kind = .audio
  trackId : t.trackId < 2 ^ 32
  timescale : 0 < t.timescale ∧ t.timescale < 2 ^ 32
  nonempty : t.samples ≠ []
  durations : ∀ s ∈ t.samples, 1 ≤ s.duration ∧ s.duration < 2 ^ 32
  ticks : (t.samples.map (·.duration)).sum * 1000 < 2 ^ 64
  tables : (boxes (trakBoxes t entry offset)).length < 2 ^ 32
  bytes : (t.samples.flatMap (·.data)).length < 2 ^ 32
  offsetLt : offset < 2 ^ 32
  fileLt : file.length < 2 ^ 64
  inFile : ∃ rest, Behind file offset (t.samples.flatMap (·.data)) rest

section

variable {t : TrackParams} {kind : TrackKind} {entry file : Bytes} {offset : Nat}

section

variable (h : Written t kind entry offset file)
include h

theorem Written.mdia : (boxes (mdiaBoxes t entry offset)).length < 2 ^ 32 :=
  lt_of_le_of_lt
    (length_body_le (show (tag 'm' 'd' 'i' 'a', boxes (mdiaBoxes t entry offset)) ∈
      trakBoxes t entry offset by
      simp only [trakBoxes, mem_cons, true_or, or_true])) h.tables

theorem Written.minf : (boxes (minfBoxes t entry offset)).length < 2 ^ 32 :=
  lt_of_le_of_lt
    (length_body_le (show (tag 'm' 'i' 'n' 'f', boxes (minfBoxes t entry offset)) ∈
      mdiaBoxes t entry offset by
      simp only [mdiaBoxes, mem_cons, true_or, or_true])) h.mdia

theorem Written.entryLt : 8 + entry.length < 2 ^ 32 := by
  have hs : (stsdData entry).length ≤ (boxes (minfBoxes t entry offset)).length :=
    length_body_le (show (tag 's' 't' 's' 'd', stsdData entry) ∈ minfBoxes t entry offset by
      simp only [minfBoxes, mem_cons, true_or, or_true])
  have hlen : (stsdData entry).length = 8 + entry.length := length_append
  exact lt_of_le_of_lt (hlen ▸ hs) h.minf

end

theorem sum_sizes (samples : List SampleEntry) :
    (samples.map (·.data.length)).sum = (samples.flatMap (·.data)).length := by
  rw [length_flatMap]

/-- The samples can be counted in 32 bits: each has an entry in the table of sizes, or an octet. -/
theorem Written.count (h : Written t kind entry offset file) : t.samples.length < 2 ^ 32 := by
  let sizes := t.samples.map (·.data.length)
  have hsz : sizes.length = t.samples.length := length_map _
  by_cases hz : sameSize sizes = 0
  · have hst : (stszData sizes).length ≤ (boxes (minfBoxes t entry offset)).length :=
      length_body_le (show (tag 's' 't' 's' 'z', stszData sizes) ∈ minfBoxes t entry offset by
        simp only [minfBoxes, mem_cons, true_or, or_true, sizes])
    have hlen : (stszData sizes).length = 12 + 4 * sizes.length := by
      rw [stszData]
      simp only [if_pos hz, length_append, length_be32, length_flatMap_be32]
    have hm := h.minf
    omega
  · have hsm := sum_sizes t.samples
    have hb := h.bytes
    have hr : sizes.sum = sizes.length * sameSize sizes := by
      have heq := congrArg sum (eq_replicate_of_sameSize hz)
      rwa [sum_replicate_nat] at heq
    have hle : sizes.length ≤ sizes.length * sameSize sizes :=
      Nat.le_mul_of_pos_right _ (Nat.pos_of_ne_zero hz)
    rw [← hr, hsm] at hle
    omega

theorem Written.sizes (h : Written t kind entry offset file) :
    parseStsz (stszData (t.samples.map (·.data.length))) file.length = .ok
      (t.samples.map (·.data.length)) := by
  obtain ⟨rest, hat⟩ := h.inFile
  have hlen := hat.length
  have hb := h.bytes
  have hsm := sum_sizes t.samples
  refine parseStsz_stszData ?_ (by rw [length_map]; exact h.count) (by omega)
  intro n hn
  obtain ⟨s, hs, rfl⟩ := mem_map.mp hn
  obtain ⟨front, back, heq⟩ := append_of_mem hs
  rw [heq, flatMap_append, flatMap_cons, length_append, length_append] at hb
  omega

/-- The track that the reader returns, its codec, configuration and parameters apart. -/
def trackOf (t : TrackParams) (kind : TrackKind) (entry : CodecId × Bytes)
    (params : Nat × Nat × Nat × Nat) : DemuxedTrack :=
  { trackId := t.trackId
    handler := kind
    codec := entry.1
    timescale := t.timescale
    duration := t.duration % 2 ^ 32
    config := entry.2
    sampleCount := t.samples.length
    width := params.1
    height := params.2.1
    fps := params.2.2.1
    sampleRate := params.2.2.2 }

/-- A track with the sample entry and the chunk offset under which it was written. -/
structure TrackInFile where
  params : TrackParams
  kind : TrackKind
  entry : Bytes
  offset : Nat

namespace TrackInFile

/-- The body of its `trak` box. -/
def body (w : TrackInFile) : Bytes := boxes (trakBoxes w.params w.entry w.offset)

/-- What the reader makes of it. -/
def read (w : TrackInFile) (file : Bytes) : Parse (DemuxedTrack × List DemuxedSample) :=
  parseStsd (stsdData w.entry) w.kind >>= fun e =>
    deriveTrackParams w.kind e.1 e.2 >>= fun params =>
    pure (trackOf w.params w.kind e params,
      playedFrom ⟨w.params.trackId, e.1, w.params.timescale, [], file⟩ 0 w.params.samples)

end TrackInFile

/-- The tables behind the media header, which is the only box that depends on the kind of the
track. -/
theorem lookup_minfBoxes (t : TrackParams) (entry : Bytes) (offset : Nat) {name : Str}
    (hv : name ≠ ['v', 'm', 'h', 'd']) (hs : name ≠ ['s', 'm', 'h', 'd']) :
    (assocOf (named (minfBoxes t entry offset))).lookup name =
      (named (minfBoxes t entry offset).tail).reverse.lookup name := by
  have hh : ∀ x : Bytes × Bytes, name ≠ Utf8.lossy x.1 →
      ∀ l, (named (x :: l)).reverse.lookup name = (named l).reverse.lookup name := by
    intro x hx l
    rw [named, map_cons, reverse_cons, lookup_append, lookup_cons, beq_false_of_ne hx]
    exact Option.or_none
  rw [lookup_assocOf, minfBoxes]
  split
  next => exact hh (tag 'v' 'm' 'h' 'd', _) hv _
  next => exact hh (tag 's' 'm' 'h' 'd', _) hs _

/-- **The tables of a track**, in `minf`. -/
theorem parseTables_minfBoxes (h : Written t kind entry offset file) :
    parseTables t.trackId t.timescale (t.duration % 2 ^ 32) kind
      (assocOf (named (minfBoxes t entry offset))) file =
      (TrackInFile.mk t kind entry offset).read file >>= fun r => pure (some r) := by
  obtain ⟨rest, hat⟩ := h.inFile
  have hne : t.samples.length ≠ 0 := fun hz => h.nonempty (length_eq_zero_iff.mp hz)
  have ht := h.ticks
  have hcn := h.count
  let stbl := assocOf (named (minfBoxes t entry offset))
  have hl := fun name hv hs => @lookup_minfBoxes t entry offset name hv hs
  have hsd : stbl.lookup ['s', 't', 's', 'd'] = some (stsdData entry) :=
    hl _ (by decide) (by decide)
  have hsz : stbl.lookup ['s', 't', 's', 'z'] = some (stszData (t.samples.map (·.data.length))) :=
    hl _ (by decide) (by decide)
  have hstt : stbl.lookup ['s', 't', 't', 's'] = some (sttsData t.samples) :=
    hl _ (by decide) (by decide)
  have hsc : stbl.lookup ['s', 't', 's', 'c'] = some (stscData t.samples.length) :=
    hl _ (by decide) (by decide)
  have hc6 : stbl.lookup ['c', 'o', '6', '4'] = none := hl _ (by decide) (by decide)
  have hst : stbl.lookup ['s', 't', 'c', 'o'] = some (stcoData offset) :=
    hl _ (by decide) (by decide)
  have hsts : stbl.lookup ['s', 't', 's', 's'] = none := hl _ (by decide) (by decide)
  have hsm : ∀ codec, chunksFrom ⟨t.trackId, codec, t.timescale, [], file⟩
    [⟨1, t.samples.length, 1⟩] 1 [offset] 0
      (rowsFrom 0 t.samples) = .ok (playedFrom ⟨t.trackId, codec, t.timescale, [], file⟩ 0
        t.samples) := by
    intro codec
    refine chunksFrom_one (length_rowsFrom _ _)
      (chunkSamples_rowsFrom rfl h.fileLt offset rest _ 0 0 0 hat ?_)
    rwa [zero_add]
  rw [parseTables, hsd, hsz, hstt, hsc, hc6, hst, hsts]
  simp only [orError_some, ok_bind, h.sizes, length_map, if_neg hne,
    parseStts_sttsData hcn h.durations,
    parseStsc_stscData hne hcn, parseStco_stcoData h.offsetLt, pure_bind,
    sampleRows_eq_rowsFrom (show (t.samples.map (·.duration)).sum < 2 ^ 64 by omega), hsm,
      Nat.mod_eq_of_lt hcn,
    TrackInFile.read, bind_assoc]
  rfl

theorem readTkhdTrackId_tkhdData {trackId : Nat} (h : trackId < 2 ^ 32) (flags : UInt8)
    (duration width height : Nat) :
    readTkhdTrackId (fullHeader flags ++ tkhdData trackId duration width height) = trackId := by
  have hat : ((fullHeader flags ++ tkhdData trackId duration width height).drop 12).take 4 =
    be32 trackId := rfl
  have hlen : 16 ≤ (fullHeader flags ++ tkhdData trackId duration width height).length := by
    simp only [tkhdData, length_append, length_be32, fullHeader, length_cons]
    omega
  rw [readTkhdTrackId, if_pos hlen, hat, ofBe_be32 h]

theorem readMdhdTimescale_mdhdData {timescale : Nat} (h : timescale < 2 ^ 32) (duration : Nat) :
    readMdhdTimescale (fullHeader 0 ++ mdhdData timescale duration) = timescale := by
  show ofBe (be32 timescale) = timescale
  exact ofBe_be32 h

theorem readMdhdDuration_mdhdData {duration : Nat} (h : duration < 2 ^ 32) (timescale : Nat) :
    readMdhdDuration (fullHeader 0 ++ mdhdData timescale duration) = duration := by
  show ofBe (be32 duration) = duration
  exact ofBe_be32 h

theorem Written.readHdlrType (h : Written t kind entry offset file) :
    readHdlrType (fullHeader 0 ++ hdlrData t.handlerType) = kind := by
  rcases h.handler with ⟨ht, rfl⟩ | ⟨ht, rfl⟩
  · rw [ht]
    rfl
  · rw [ht]
    rfl

/-- **A track** that the recorder wrote. -/
theorem parseTrak_trakBoxes (h : Written t kind entry offset file) :
    parseTrak (boxes (trakBoxes t entry offset)) file =
      (TrackInFile.mk t kind entry offset).read file >>= fun r => pure (some r) := by
  have htb := h.tables
  have hmd := h.mdia
  have hmn := h.minf
  have hwT := walkTopBoxes_boxes (boxed_of_length (kinds_trakBoxes t entry offset) htb) (by omega)
  have hwM := walkTopBoxes_boxes (boxed_of_length (kinds_mdiaBoxes t entry offset) hmd) (by omega)
  have hwl := walkTopBoxes_boxes (boxed_of_length (kinds_minfBoxes t entry offset) hmn) (by omega)
  have hk : kind ≠ .other := by
    rcases h.handler with ⟨-, rfl⟩ | ⟨-, rfl⟩
    · exact nofun
    · exact nofun
  have htm : t.timescale ≠ 0 := Nat.ne_of_gt h.timescale.1
  let mdhd := fullHeader 0 ++ mdhdData t.timescale (t.duration % 2 ^ 32)
  have hlT : (assocOf (named (trakBoxes t entry offset))).lookup ['t', 'k', 'h', 'd'] =
      some (fullHeader 7 ++ tkhdData t.trackId (t.duration % 2 ^ 32 * 1000 / max t.timescale 1)
        t.width t.height) :=
    lookup_assocOf _ _
  have hlk : (assocOf (named (trakBoxes t entry offset))).lookup ['m', 'd', 'i', 'a'] =
      some (boxes (mdiaBoxes t entry offset)) :=
    lookup_assocOf _ _
  have hlM : (assocOf (named (mdiaBoxes t entry offset))).lookup ['m', 'd', 'h', 'd'] = some mdhd :=
    lookup_assocOf _ _
  have hlH : (assocOf (named (mdiaBoxes t entry offset))).lookup ['h', 'd', 'l', 'r'] =
      some (fullHeader 0 ++ hdlrData t.handlerType) :=
    lookup_assocOf _ _
  have hlm : (assocOf (named (mdiaBoxes t entry offset))).lookup ['m', 'i', 'n', 'f'] =
      some (boxes (minfBoxes t entry offset)) :=
    lookup_assocOf _ _
  have hlS : (assocOf (named (minfBoxes t entry offset))).lookup ['s', 't', 'b', 'l'] = none :=
    lookup_minfBoxes t entry offset (by decide) (by decide)
  have hs : readMdhdTimescale mdhd = t.timescale := readMdhdTimescale_mdhdData h.timescale.2 _
  have hd : readMdhdDuration mdhd = t.duration % 2 ^ 32 :=
    readMdhdDuration_mdhdData (Nat.mod_lt _ (Nat.two_pow_pos 32)) _
  rw [parseTrak, hwT, ok_bind, hlT, orError_some, ok_bind, hlk, readTkhdTrackId_tkhdData h.trackId]
  dsimp only
  rw [hwM, ok_bind, hlM, orError_some, ok_bind, hs, if_neg htm, hlH, orError_some,
    ok_bind, h.readHdlrType, if_neg hk, hlm, hd]
  dsimp only
  rw [hwl, ok_bind, hlS]
  exact parseTables_minfBoxes h

end

/-! ## The file -/

namespace TrackInFile

/-- The reader goes over it: a track that is rejected is left out. -/
def add (file : Bytes) (d : Mp4Demuxer) (w : TrackInFile) : Parse Mp4Demuxer :=
  match w.read file with
  | .ok r => .ok (d.insert r)
  | .error .fault => .error .fault
  | .error (.error _) => .ok d

theorem addTrak_body {w : TrackInFile} {file : Bytes}
    (h : Written w.params w.kind w.entry w.offset file) (d : Mp4Demuxer) :
    addTrak file d (['t', 'r', 'a', 'k'], w.body) = add file d w := by
  have hp : parseTrak w.body file = w.read file >>= fun r => pure (some r) := parseTrak_trakBoxes h
  rw [addTrak, if_neg (not_not_intro rfl), hp, add]
  cases w.read file with
  | error e => cases e <;> rfl
  | ok r => rfl

end TrackInFile

def fileBoxes (ftyp mdat moov : Bytes) : List (Bytes × Bytes) :=
  [(tag 'f' 't' 'y' 'p', ftyp), (tag 'm' 'd' 'a' 't', mdat), (tag 'm' 'o' 'o' 'v', moov)]

def moovBoxes (mvhd : Bytes) (ws : List TrackInFile) : List (Bytes × Bytes) :=
  (tag 'm' 'v' 'h' 'd', mvhd) :: ws.map fun w => (tag 't' 'r' 'a' 'k', w.body)

/-- The tracks of a file, read one after the other. -/
def readTracks (file : Bytes) (ws : List TrackInFile) (d : Mp4Demuxer) : Parse Mp4Demuxer :=
  ws.foldlM (TrackInFile.add file) d

theorem foldlM_addTrak {file : Bytes} : ∀ {ws : List TrackInFile},
    (∀ w ∈ ws, Written w.params w.kind w.entry w.offset file) → ∀ d : Mp4Demuxer,
      (ws.map fun w => (['t', 'r', 'a', 'k'], w.body)).foldlM (addTrak file) d =
        readTracks file ws d
  | [], _, _ => rfl
  | w :: ws, hw, d => by
    rw [map_cons, foldlM_cons, TrackInFile.addTrak_body (hw w mem_cons_self)]
    exact bind_congr (foldlM_addTrak fun w hin => hw w (mem_cons_of_mem _ hin))

/-- **A file** that the recorder wrote: it is read if some of its tracks are. -/
theorem fromBytes_fileBoxes {ftyp mdat mvhd : Bytes} {ws : List TrackInFile} {file : Bytes}
    (hfl : file = boxes (fileBoxes ftyp mdat (boxes (moovBoxes mvhd ws))))
    (hlt : file.length < 2 ^ 64) (hbx : Boxed (fileBoxes ftyp mdat (boxes (moovBoxes mvhd ws))))
    (hw : ∀ w ∈ ws, Written w.params w.kind w.entry w.offset file) (d : Mp4Demuxer) :
    fromBytes file = .ok d ↔ readTracks file ws ⟨[], []⟩ = .ok d ∧ d.tracks ≠ [] := by
  let moov := boxes (moovBoxes mvhd ws)
  have ht : walkTopBoxes file = .ok (assocOf (named (fileBoxes ftyp mdat moov))) := by
    rw [hfl] at hlt ⊢
    exact walkTopBoxes_boxes hbx hlt
  have hm : 8 + (boxes (moovBoxes mvhd ws)).length < 2 ^ 32 :=
    (hbx (tag 'm' 'o' 'o' 'v', moov) (by simp only [fileBoxes, mem_cons, true_or, or_true, moov])).2
  have hk : ∀ b ∈ moovBoxes mvhd ws, b.1.length = 4 := by
    intro b hb
    rcases mem_cons.mp hb with rfl | hin
    · rfl
    · obtain ⟨w, -, rfl⟩ := mem_map.mp hin
      rfl
  have hv : walkTopBoxesVec moov = .ok (named (moovBoxes mvhd ws)) :=
    walkTopBoxesVec_boxes (boxed_of_length hk (by omega)) (by omega)
  have hnm : named (moovBoxes mvhd ws) = (['m', 'v', 'h', 'd'], mvhd) :: ws.map fun w =>
    (['t', 'r', 'a', 'k'], w.body) := by
    rw [named, moovBoxes, map_cons, map_map]
    rfl
  have hlk : (assocOf (named (fileBoxes ftyp mdat moov))).lookup ['m', 'o', 'o', 'v'] = some moov :=
    lookup_assocOf _ _
  have hlM : (assocOf (named (fileBoxes ftyp mdat moov))).lookup ['m', 'd', 'a', 't'] = some mdat :=
    lookup_assocOf _ _
  have hfd : (named (moovBoxes mvhd ws)).foldlM (addTrak file) ⟨[], []⟩ =
      readTracks file ws ⟨[], []⟩ := by
    rw [hnm, foldlM_cons]
    exact foldlM_addTrak hw ⟨[], []⟩
  rw [fromBytes, ht, ok_bind, hlk, orError_some, ok_bind, hlM, orError_some, ok_bind, hv, ok_bind,
    hfd, hnm]
  show (readTracks file ws ⟨[], []⟩ >>= fun d => _) = _ ↔ _
  cases readTracks file ws ⟨[], []⟩ with
  | error e => exact iff_of_false nofun fun h => nomatch h.1
  | ok d' =>
    rw [ok_bind]
    by_cases hnil : d'.tracks = []
    · rw [if_pos (isEmpty_iff.mpr hnil)]
      exact iff_of_false nofun fun ⟨heq, hne⟩ => hne (Except.ok.inj heq ▸ hnil)
    · rw [if_neg fun hem => hnil (isEmpty_iff.mp hem)]
      exact ⟨fun heq => ⟨heq, Except.ok.inj heq ▸ hnil⟩, And.left⟩

end MediaKit.Mp4
