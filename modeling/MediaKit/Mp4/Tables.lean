import MediaKit.Mp4.Demuxer
import MediaKit.Mp4.Muxer

/-!
# Reading boxes and sample tables

What the reader makes of what the recorder wrote, in the lower layers: the walk over boxes
(`walkTopBoxes_boxes`), each of the sample tables, and the samples of a chunk that lie one
behind the other in the file (`chunkSamples_rowsFrom`).
-/

namespace MediaKit.Mp4

open MediaKit.Core Lib List

/-! ## The walk over boxes -/

variable {l : List (Bytes × Bytes)} {entries : List (Nat × Nat)}
  {sizes : List Nat} {n offset : Nat} {samples : List SampleEntry} {c : SampleContext}

/-- Boxes with their kinds as the reader names them. -/
def named (l : List (Bytes × Bytes)) : List (Str × Bytes) := l.map fun b => (Utf8.lossy b.1, b.2)

/-- The reader takes the size of a box from its 32 bits. -/
theorem readBoxHeader_box {data kind body rest : Bytes} {pos : Nat}
    (h : BoxAt data pos kind body rest) (hk : kind.length = 4) (hs : 8 + body.length < 2 ^ 32) :
    readBoxHeader (data.drop pos) = .ok (8 + body.length, 8) := by
  have hlen := h.sizeAt.length
  simp only [length_be32, length_append] at hlen
  rw [readBoxHeader, if_neg (by rw [length_drop]; omega), h.sizeAt.ofBe_take hs, if_neg (by omega)]

/-- The walk from a position finds the boxes that are left, one for each round. -/
theorem walkFrom_boxes (data : Bytes) (hd : data.length < 2 ^ 64) :
    ∀ (l : List (Bytes × Bytes)) (fuel pos : Nat), Boxed l → l.length ≤ fuel →
      Behind data pos (boxes l) [] → walkFrom data fuel pos = .ok (named l)
  | [], fuel, pos, _, _, h => by
    have hlen := h.length
    rw [boxes_nil, length_nil] at hlen
    cases fuel with
    | zero => rfl
    | succ fuel =>
      rw [walkFrom, if_neg (by omega)]
      rfl
  | (kind, body) :: l, 0, pos, _, hf, _ => absurd hf (Nat.not_succ_le_zero _)
  | (kind, body) :: l, fuel + 1, pos, hl, hf, h => by
    have hk : kind.length = 4 := hl.head.1
    have hs : 8 + body.length < 2 ^ 32 := hl.head.2
    have hp : Behind data pos (box kind body ++ boxes l) [] := h
    have hlen := hp.length
    rw [length_append, length_box hk] at hlen
    have hbx : BoxAt data pos kind body (boxes l ++ []) := hp.fst.box hk
    have hnx : Behind data (pos + (8 + body.length)) (boxes l) [] := ⟨by omega, by rw [hbx.next]⟩
    have hnm : (data.drop (pos + 4)).take 4 = kind := by
      have ht := hbx.kindAt.take
      rwa [hk] at ht
    have hbd : slice data (pos + 8) (pos + 8 + (8 + body.length - 8)) = some body := by
      rw [Nat.add_sub_cancel_left]
      exact hbx.bodyAt.slice
    have hr := walkFrom_boxes data hd l fuel (pos + (8 + body.length)) hl.tail
      (Nat.le_of_succ_le_succ hf) hnx
    rw [walkFrom, if_pos (by omega), readBoxHeader_box hbx hk hs, ok_bind, if_neg (by omega),
      subUsize_of_le (by omega), addUsize_of_lt (by omega)]
    simp only [checked_some, ok_bind]
    rw [if_neg (by omega), hbd, hr, hnm]
    rfl

/-- The length of the data is fuel enough for its boxes. -/
theorem length_le_length_boxes : l.length ≤ (boxes l).length := by
  induction l with
  | nil => exact le_refl 0
  | cons b l ih =>
    rw [boxes_cons, length_append, length_cons, box, length_append, length_be32]
    omega

/-- **The walk over boxes** returns the boxes that were written, in order. -/
theorem walkTopBoxesVec_boxes (hl : Boxed l) (hlen : (boxes l).length < 2 ^ 64) :
    walkTopBoxesVec (boxes l) = .ok (named l) :=
  walkFrom_boxes (boxes l) hlen l _ 0 hl length_le_length_boxes
    ⟨Nat.zero_le _, by rw [drop_zero, append_nil]⟩

/-- As a map the walk keeps the last box of each kind. -/
theorem walkTopBoxes_boxes (hl : Boxed l) (hlen : (boxes l).length < 2 ^ 64) :
    walkTopBoxes (boxes l) = .ok (assocOf (named l)) := by
  rw [walkTopBoxes, walkTopBoxesVec_boxes hl hlen]
  rfl

/-! ## Sample tables -/

/-- A table that is inside its box passes the check. -/
theorem ensureTableEntries_of_le (boxName : String) {bodyLen headerLen entryCount entrySize : Nat}
    (h : headerLen + entryCount * entrySize ≤ bodyLen) (hlen : bodyLen < 2 ^ 64) :
    ensureTableEntries boxName bodyLen headerLen entryCount entrySize = .ok () := by
  rw [ensureTableEntries, if_neg (by omega), if_neg (by omega)]

theorem length_flatMap_be32 (l : List Nat) : (l.flatMap be32).length = 4 * l.length := by
  induction l with
  | nil => rfl
  | cons x l ih =>
    rw [flatMap_cons, length_append, length_be32, length_cons]
    omega

/-- A common size stands for every sample. -/
theorem eq_replicate_of_sameSize (h : sameSize sizes ≠ 0) :
    sizes = replicate sizes.length (sameSize sizes) := by
  cases sizes with
  | nil => rfl
  | cons first sizes =>
    rw [sameSize] at h ⊢
    by_cases ha : sizes.all (· == first) = true
    · rw [if_pos ha]
      refine eq_replicate_iff.mpr ⟨rfl, ?_⟩
      intro s hs
      rcases mem_cons.mp hs with heq | hin
      · exact heq
      · exact eq_of_beq (all_eq_true.mp ha s hin)
    · rw [if_neg ha] at h
      exact absurd rfl h

/-- **Sizes** come back, with a common size or one by one. -/
theorem parseStsz_stszData {fileLen : Nat} (hsz : ∀ s ∈ sizes, s < 2 ^ 32)
    (hcn : sizes.length < 2 ^ 32) (hf : sizes.sum ≤ fileLen) :
    parseStsz (stszData sizes) fileLen = .ok sizes := by
  have hsm : sameSize sizes < 2 ^ 32 := by
    cases sizes with
    | nil => exact Nat.two_pow_pos 32
    | cons first sizes =>
      rw [sameSize]
      split
      next => exact hsz first mem_cons_self
      next => exact Nat.two_pow_pos 32
  have hsA : ofBe (((stszData sizes).drop 4).take 4) = sameSize sizes := ofBe_be32 hsm
  have hcA : ofBe (((stszData sizes).drop 8).take 4) = sizes.length := ofBe_be32 hcn
  have hlen : (stszData sizes).length =
      12 + (if sameSize sizes = 0 then sizes.flatMap be32 else []).length := by
    simp only [stszData, length_append, length_be32]
  rw [parseStsz, if_neg (by omega), hsA, hcA]
  by_cases hz : sameSize sizes = 0
  · -- the sizes are written one by one
    have ht : (stszData sizes).drop 12 = sizes.flatMap be32 ++ [] := by
      rw [stszData]
      simp only [if_pos hz]
      exact (append_nil _).symm
    rw [if_pos hz, length_flatMap_be32] at hlen
    rw [if_neg (not_not_intro hz), ensureTableEntries_of_le "stsz" (by omega) (by omega), ht,
      u32s_flatMap [] sizes hsz]
    rfl
  · have heq := eq_replicate_of_sameSize hz
    have hsu : sizes.length * sameSize sizes ≤ fileLen := by
      rwa [heq, sum_replicate_nat] at hf
    have hd : sizes.length ≤ fileLen / sameSize sizes :=
      (Nat.le_div_iff_mul_le (Nat.pos_of_ne_zero hz)).mpr hsu
    rw [if_pos hz, if_neg (by omega), ← heq]
    rfl

/-- **The one chunk** comes back with its number of samples. -/
theorem parseStsc_stscData (hpos : n ≠ 0) (hn : n < 2 ^ 32) :
    parseStsc (stscData n) = .ok [⟨1, n, 1⟩] := by
  have hd : stscData n = be32 0 ++ (be32 1 ++ be32 1 ++ be32 n ++ be32 1) := by
    rw [stscData, if_neg hpos]
  have hc : u32At (be32 n ++ be32 1) 0 = some n :=
    Behind.u32At (show Behind _ 0 (be32 n) (be32 1) from ⟨Nat.zero_le _, rfl⟩) hn
  have he : stscEntries 1 (be32 1 ++ be32 n ++ be32 1) = some [⟨1, n, 1⟩] := by
    have hs : u32At (be32 1 ++ be32 n ++ be32 1) 4 = some n := hc
    rw [stscEntries, hs]
    rfl
  have hlen : (stscData n).length = 20 := by rw [hd]; rfl
  have ho : ofBe (((stscData n).drop 4).take 4) = 1 := by rw [hd]; rfl
  have ht : (stscData n).drop 8 = be32 1 ++ be32 n ++ be32 1 := by rw [hd]; rfl
  rw [parseStsc, ho, hlen]
  dsimp only
  rw [ht, he]
  rfl

/-- **The position of the chunk** comes back. -/
theorem parseStco_stcoData (h : offset < 2 ^ 32) : parseStco (stcoData offset) = .ok [offset] := by
  have hr : u32s 1 (be32 offset) = some [offset] := by
    have hal : ∀ x ∈ [offset], x < 2 ^ 32 := fun x hx => by rwa [mem_singleton.mp hx]
    have := u32s_flatMap [] [offset] hal
    rwa [append_nil, flatMap_singleton] at this
  have hlen : (stcoData offset).length = 12 := rfl
  have ho : ofBe (((stcoData offset).drop 4).take 4) = 1 := rfl
  have ht : (stcoData offset).drop 8 = be32 offset := rfl
  rw [parseStco, parseU32Table, if_neg (by omega), ho, hlen]
  dsimp only
  rw [ensureTableEntries_of_le "stco" (by omega) (by omega), ht, hr]
  rfl

/-! ### Runs of durations -/

/-- The durations that runs stand for. -/
def expandRuns (entries : List (Nat × Nat)) : List Nat := entries.flatMap fun e => replicate e.1 e.2

/-- **One more sample** lengthens the last run or begins a new one. -/
theorem expandRuns_pushRun (entries : List (Nat × Nat)) (dur : Nat) :
    expandRuns (pushRun entries dur) = expandRuns entries ++ [dur] := by
  rw [pushRun]
  split
  next last hl =>
    obtain ⟨front, rfl⟩ := getLast?_eq_some_iff.mp hl
    by_cases heq : last.2 = dur
    · rw [if_pos heq, dropLast_concat]
      simp only [expandRuns, flatMap_append, flatMap_singleton, append_assoc]
      rw [replicate_succ', heq]
    · rw [if_neg heq]
      simp only [expandRuns, flatMap_append, flatMap_singleton]
      rfl
  next hn =>
    rw [getLast?_eq_none_iff.mp hn]
    rfl

/-- The runs stand for the durations, with 1 for a duration of 0. -/
theorem expandRuns_sttsEntries (durations : List Nat) :
    expandRuns (sttsEntries durations) = durations.map (max · 1) := by
  induction durations using reverseRecOn with
  | nil => rfl
  | append_singleton ds d ih =>
    rw [sttsEntries, foldl_append, foldl_cons, foldl_nil, expandRuns_pushRun, map_append]
    exact congrArg (· ++ [max d 1]) ih

/-- One more sample leaves no run empty. -/
theorem pos_of_mem_pushRun {dur : Nat} (h : ∀ e ∈ entries, 0 < e.1) :
    ∀ e ∈ pushRun entries dur, 0 < e.1 := by
  intro e he
  rw [pushRun] at he
  split at he
  next last hl =>
    split at he
    next =>
      rcases mem_append.mp he with hin | hin
      · exact h e (dropLast_subset entries hin)
      · rw [mem_singleton.mp hin]
        exact Nat.succ_pos _
    next =>
      rcases mem_append.mp he with hin | hin
      · exact h e hin
      · rw [mem_singleton.mp hin]
        exact Nat.one_pos
  next =>
    rcases mem_append.mp he with hin | hin
    · exact h e hin
    · rw [mem_singleton.mp hin]
      exact Nat.one_pos

/-- No run of a track is empty. -/
theorem pos_of_mem_sttsEntries (durations : List Nat) : ∀ e ∈ sttsEntries durations, 0 < e.1 := by
  induction durations using reverseRecOn with
  | nil => exact fun e he => absurd he not_mem_nil
  | append_singleton ds d ih =>
    rw [sttsEntries, foldl_append]
    exact pos_of_mem_pushRun ih

/-- There are at most as many runs as samples. -/
theorem length_le_expandRuns (h : ∀ e ∈ entries, 0 < e.1) :
    entries.length ≤ (expandRuns entries).length := by
  induction entries with
  | nil => exact le_refl 0
  | cons e entries ih =>
    have hpos := h e mem_cons_self
    have hr := ih fun e he => h e (mem_cons_of_mem _ he)
    rw [expandRuns, flatMap_cons, length_append, length_replicate, length_cons]
    rw [expandRuns] at hr
    omega

/-- No run is longer than the track. -/
theorem le_length_expandRuns {e : Nat × Nat} (h : e ∈ entries) :
    e.1 ≤ (expandRuns entries).length := by
  obtain ⟨front, back, rfl⟩ := append_of_mem h
  rw [expandRuns, flatMap_append, flatMap_cons, length_append, length_append, length_replicate]
  omega

/-- The loop of the reader expands the runs behind what it has already. -/
theorem sttsRuns_expandRuns {expected : Nat} (hep : expected < 2 ^ 64) :
    ∀ (entries : List (Nat × Nat)) (out : List Nat),
    (∀ e ∈ entries, e.1 < 2 ^ 32 ∧ e.2 < 2 ^ 32) →
      out.length + (expandRuns entries).length ≤ expected →
      sttsRuns expected entries.length (entries.flatMap fun e => be32 e.1 ++ be32 e.2) out = .ok
        (out ++ expandRuns entries)
  | [], out, _, _ => by
    show Except.ok out = Except.ok (out ++ [])
    rw [append_nil]
  | (count, delta) :: entries, out, h, hle => by
    obtain ⟨hc, hd⟩ := h (count, delta) mem_cons_self
    let table := entries.flatMap fun e => be32 e.1 ++ be32 e.2
    have hf : u32At (be32 count ++ be32 delta ++ table) 0 = some count :=
      Behind.u32At (show Behind _ 0 (be32 count) (be32 delta ++ table) from ⟨Nat.zero_le _, rfl⟩) hc
    have hs : u32At (be32 count ++ be32 delta ++ table) 4 = some delta := by
      exact (behind_append (be32 count) (be32 delta) table).u32At hd
    have hex : expandRuns ((count, delta) :: entries) = replicate count delta ++
      expandRuns entries := rfl
    rw [hex, length_append, length_replicate] at hle
    have hr := sttsRuns_expandRuns hep entries (out ++ replicate count delta)
      (fun e he => h e (mem_cons_of_mem _ he)) (by rw [length_append, length_replicate]; omega)
    rw [flatMap_cons, length_cons, sttsRuns, hf, hs]
    simp only [checked_some, ok_bind]
    rw [addUsize_of_lt (by omega), orError_some, ok_bind, if_neg (by omega), hex, ← append_assoc]
    exact hr

/-- **Durations** come back through their runs. -/
theorem parseStts_sttsData (hcn : samples.length < 2 ^ 32)
    (hd : ∀ s ∈ samples, 1 ≤ s.duration ∧ s.duration < 2 ^ 32) :
    parseStts (sttsData samples) samples.length = .ok (samples.map (·.duration)) := by
  let entries := sttsEntries (samples.map (·.duration))
  have hex : expandRuns entries = samples.map (·.duration) := by
    rw [expandRuns_sttsEntries, map_map]
    refine map_congr_left fun s hs => ?_
    exact max_eq_left (hd s hs).1
  have hpos := pos_of_mem_sttsEntries (samples.map (·.duration))
  have hlen : (expandRuns entries).length = samples.length := by rw [hex, length_map]
  have hfw : entries.length ≤ samples.length := hlen ▸ length_le_expandRuns hpos
  have hfl : ∀ e ∈ entries, e.1 < 2 ^ 32 ∧ e.2 < 2 ^ 32 := by
    intro e he
    have hle := le_length_expandRuns he
    have hmem : e.2 ∈ expandRuns entries :=
      mem_flatMap.mpr ⟨e, he, mem_replicate.mpr ⟨Nat.ne_of_gt (hpos e he), rfl⟩⟩
    rw [hex] at hmem
    obtain ⟨s, hs, heq⟩ := mem_map.mp hmem
    refine ⟨by omega, ?_⟩
    rw [← heq]
    exact (hd s hs).2
  have ht : (sttsData samples).drop 8 = entries.flatMap fun e => be32 e.1 ++ be32 e.2 := rfl
  have hcA : ofBe (((sttsData samples).drop 4).take 4) = entries.length :=
    ofBe_be32 (show entries.length < 2 ^ 32 by omega)
  have hby : (entries.flatMap fun e => be32 e.1 ++ be32 e.2).length = 8 * entries.length := by
    rw [length_flatMap]
    have hmp : (entries.map fun e => (be32 e.1 ++ be32 e.2).length) = replicate entries.length 8 :=
      eq_replicate_iff.mpr ⟨length_map _, fun n hn => by
        obtain ⟨e, -, rfl⟩ := mem_map.mp hn
        rfl⟩
    rw [hmp, sum_replicate_nat, mul_comm]
  have hbd : (sttsData samples).length = 8 + 8 * entries.length := by
    rw [sttsData, length_append, hby]
    rfl
  have hr := sttsRuns_expandRuns (show samples.length < 2 ^ 64 by omega) entries [] hfl
    (by rw [hlen]; exact le_of_eq (zero_add _))
  rw [nil_append, hex] at hr
  rw [parseStts, if_neg (by omega), hcA]
  dsimp only
  rw [ensureTableEntries_of_le "stts" (by omega) (by omega), ok_bind, ht, hr, ok_bind, length_map,
    if_neg (not_not_intro rfl)]
  rfl

/-! ## Samples -/

/-- The samples of a track as the reader gives them back, the first at `tick`: without a sync table
every one of them counts as a key frame. -/
def playedFrom (c : SampleContext) : Nat → List SampleEntry → List DemuxedSample
  | _, [] => []
  | tick, s :: rest =>
    { trackId := c.trackId
      codec := c.codec
      data := s.data
      ptsMs := tick * 1000 / c.timescale % 2 ^ 32
      dtsMs := tick * 1000 / c.timescale % 2 ^ 32
      durationMs := s.duration * 1000 / c.timescale % 2 ^ 32
      isSync := true } :: playedFrom c (tick + s.duration) rest

/-- The rows of the tables, the first sample at `tick`. -/
def rowsFrom : Nat → List SampleEntry → List SampleRow
  | _, [] => []
  | tick, s :: rest => ⟨s.data.length, s.duration, tick⟩ :: rowsFrom (tick + s.duration) rest

/-- One row for each sample. -/
theorem length_rowsFrom : ∀ (samples : List SampleEntry) (tick : Nat),
    (rowsFrom tick samples).length = samples.length
  | [], _ => rfl
  | s :: rest, tick => congrArg (· + 1) (length_rowsFrom rest (tick + s.duration))

/-- The tables together are the rows: no tick is cut off at 64 bits. -/
theorem sampleRows_eq_rowsFrom (h : (samples.map (·.duration)).sum < 2 ^ 64) :
    sampleRows (samples.map (·.data.length)) (samples.map (·.duration)) = rowsFrom 0 samples := by
  have hf : ∀ (l : List SampleEntry) (tick : Nat), tick + (l.map (·.duration)).sum < 2 ^ 64 →
      ((l.map (·.data.length)).zip ((l.map (·.duration)).zip
        (startTicks tick (l.map (·.duration))))).map
        (fun r => (⟨r.1, r.2.1, r.2.2⟩ : SampleRow)) = rowsFrom tick l := by
    intro l
    induction l with
    | nil => exact fun _ _ => rfl
    | cons s l ih =>
      intro tick ht
      rw [map_cons, sum_cons] at ht
      have hm : min (tick + s.duration) (2 ^ 64 - 1) = tick + s.duration :=
        min_eq_left (by omega)
      rw [map_cons, map_cons, startTicks, hm]
      exact congrArg (_ :: ·) (ih (tick + s.duration) (by omega))
  exact hf samples 0 (by rwa [zero_add])

/-- **The samples of a chunk** that lie one behind the other in the file. -/
theorem chunkSamples_rowsFrom (hsy : c.syncSamples = []) (hf : c.file.length < 2 ^ 64)
    (offset : Nat) (rest : Bytes) (samples : List SampleEntry) : ∀ running idx tick : Nat,
      Behind c.file (offset + running) (samples.flatMap (·.data)) rest →
      (tick + (samples.map (·.duration)).sum) * 1000 < 2 ^ 64 →
      chunkSamples c offset running idx (rowsFrom tick samples) = .ok
        (playedFrom c tick samples) := by
  induction samples with
  | nil => exact fun _ _ _ _ _ => rfl
  | cons s samples ih =>
    intro running idx tick hat ht
    have hp : Behind c.file (offset + running) (s.data ++ samples.flatMap (·.data)) rest := hat
    have hlen := hp.length
    rw [length_append] at hlen
    have hn : Behind c.file (offset + (running + s.data.length)) (samples.flatMap (·.data))
        rest := by
      rw [← add_assoc]
      exact hp.snd
    have hd : (c.file.take (offset + running + s.data.length)).drop (offset + running) =
        s.data := by
      have hsl := hp.fst.slice
      rw [slice_of_le (by omega) (by omega)] at hsl
      exact Option.some.inj hsl
    have hlt : (tick + s.duration + (samples.map (·.duration)).sum) * 1000 < 2 ^ 64 := by
      rwa [add_assoc]
    have hrs := ih (running + s.data.length) (idx + 1) (tick + s.duration) hn hlt
    have ho : addUsize offset running = some (offset + running) := addUsize_of_lt (by omega)
    have hst : addUsize (offset + running) s.data.length =
      some (offset + running + s.data.length) := addUsize_of_lt (by omega)
    have hrn : addUsize running s.data.length = some (running + s.data.length) :=
      addUsize_of_lt (by omega)
    have hsc : mulU64 tick 1000 = some (tick * 1000) :=
      mulU64_of_lt (lt_of_le_of_lt (Nat.mul_le_mul_right 1000 (Nat.le_add_right _ _)) ht)
    have hin : offset + running + s.data.length ≤ c.file.length := by omega
    rw [rowsFrom, chunkSamples, ho, orError_some, ok_bind, hst, orError_some, ok_bind, hrn,
      orError_some, ok_bind, hsc, checked_some, ok_bind]
    rw [hrs, if_pos hin, hd, hsy]
    rfl

/-- A file with one chunk has the samples of that chunk. -/
theorem chunksFrom_one {rows : List SampleRow} {out : List DemuxedSample}
    (hn : rows.length = n) (h : chunkSamples c offset 0 0 rows = .ok out) :
    chunksFrom c [⟨1, n, 1⟩] 1 [offset] 0 rows = .ok out := by
  have ht : rows.take n = rows := take_of_length_le (le_of_eq hn)
  have hf : ([⟨1, n, 1⟩] : List ChunkRun).reverse.find? (fun e => decide (e.firstChunk ≤ 1)) =
    some ⟨1, n, 1⟩ := rfl
  rw [chunksFrom, hf]
  dsimp only
  rw [ht, h]
  show Except.ok (out ++ []) = _
  rw [append_nil]

end MediaKit.Mp4
