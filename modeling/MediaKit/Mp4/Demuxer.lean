import MediaKit.Core.Frame
import MediaKit.Lib.Assoc
import MediaKit.Lib.Box

/-!
# The MP4 reader

`crates/mp4/src/demuxer.rs`: the boxes of a file are walked, each `trak` is read into a track
and its samples, and a track that cannot be read is left out.

Mirroring notes vs the Rust source:
  * A result is a value, an error with its text, or a fault (`Stop.fault`): an index or a
    slice out of range, or an overflow.
  * A `BTreeMap` is the list of its entries in the order of the keys.
  * A loop over the entries of a table is a recursion over the octets that are left, one over
    the samples of a chunk a recursion over the rows of the sample tables.
  * `binary_search` in `stss` is membership; the standard library leaves its result open where
    the table is not sorted.
  * `fps` is a whole number here: the source knows 30.0 and 0.0. `is_config`, which is always
    false, and `read_mvhd_timescale`, whose result is dropped, are left out. So is the conversion
    into frames.
-/

namespace MediaKit.Mp4

open MediaKit.Core Lib

structure DemuxedSample where
  trackId : Nat
  codec : CodecId
  data : Bytes
  ptsMs : Nat
  dtsMs : Nat
  durationMs : Nat
  isSync : Bool
  deriving DecidableEq

inductive TrackKind where
  | video | audio | other
  deriving DecidableEq

structure DemuxedTrack where
  trackId : Nat
  handler : TrackKind
  codec : CodecId
  timescale : Nat
  duration : Nat
  config : Bytes
  sampleCount : Nat
  width : Nat
  height : Nat
  fps : Nat
  sampleRate : Nat
  deriving DecidableEq

structure Mp4Demuxer where
  tracks : List (Nat × DemuxedTrack)
  samples : List (Nat × List DemuxedSample)
  deriving DecidableEq

/-! ## Boxes -/

variable (data : Bytes)

/-- `read_box_header`: the size of the box and of its header. -/
def readBoxHeader : Parse (Nat × Nat) :=
  if data.length < 8 then bail "truncated box header"
  else
    let size32 := ofBe (data.take 4)
    if size32 = 1 then
      if data.length < 16 then bail "truncated 64-bit box header"
      else .ok (ofBe ((data.drop 8).take 8), 16)
    else .ok (size32, 8)

/-- The loop of `walk_top_boxes_vec`; every box has at least eight octets. -/
def walkFrom (data : Bytes) : Nat → Nat → Parse (List (Str × Bytes))
  | 0, _ => .ok []
  | fuel + 1, pos =>
    if pos + 8 ≤ data.length then do
      let header ← readBoxHeader (data.drop pos)
      if header.1 < 8 then return []
      else
        let bodySize ← checked (subUsize header.1 header.2)
        let stop ← checked (addUsize pos header.1)
        if data.length < stop then return []
        else
          let body ← checked (slice data (pos + header.2) (pos + header.2 + bodySize))
          let later ← walkFrom data fuel stop
          return (Utf8.lossy ((data.drop (pos + 4)).take 4), body) :: later
    else .ok []

def walkTopBoxesVec : Parse (List (Str × Bytes)) := walkFrom data data.length 0

def walkTopBoxes : Parse (List (Str × Bytes)) := do
  let all ← walkTopBoxesVec data
  return assocOf all

/-! ## Headers -/

def readTkhdTrackId (tkhd : Bytes) : Nat :=
  if 16 ≤ tkhd.length then ofBe ((tkhd.drop 12).take 4) else 0

def readMdhdTimescale (mdhd : Bytes) : Nat :=
  if 16 ≤ mdhd.length then ofBe ((mdhd.drop 12).take 4) else 90000

def readMdhdDuration (mdhd : Bytes) : Nat :=
  if 20 ≤ mdhd.length then ofBe ((mdhd.drop 16).take 4) else 0

def readHdlrType (hd : Bytes) : TrackKind :=
  if 12 ≤ hd.length then
    if (hd.drop 8).take 4 = tag 'v' 'i' 'd' 'e' then .video
    else if (hd.drop 8).take 4 = tag 's' 'o' 'u' 'n' then .audio
    else .other
  else .other

/-! ## Codec configurations -/

/-- `find_child_box`: the first place where the kind stands. -/
def findChildBox (target : Bytes) : Bytes → Option Bytes
  | [] => none
  | x :: r =>
    let data := x :: r
    if 8 ≤ data.length then
      if (data.drop 4).take 4 = target then
        let size := ofBe (data.take 4)
        let stop := if 8 ≤ size then size else data.length
        if stop ≤ data.length then some ((data.take stop).drop 8) else findChildBox target r
      else findChildBox target r
    else none

/-- `read_ber_len`: a length and the octets it takes. -/
def readBerLen : Bytes → Option (Nat × Nat)
  | [] => none
  | b :: rest =>
    if b &&& 0x80 = 0 then some (b.toNat, 1)
    else
      let num := (b &&& 0x7F).toNat
      if rest.length < num then none
      else some ((rest.take num).foldl (fun len byte => len * 256 % 2 ^ 64 + byte.toNat) 0, 1 + num)

/-- The loop of `parse_esds_asc`; a descriptor takes at least two octets. -/
def esdsAscFrom (esds : Bytes) : Nat → Nat → Parse (Option Bytes)
  | 0, _ => .ok none
  | fuel + 1, i =>
    if i + 2 < esds.length then
      let kind := esds.getD i 0
      if kind = 0x05 then
        match readBerLen (esds.drop (i + 1)) with
        | none => .ok none
        | some (len, n) => do
          let stop ← checked (addUsize (i + 1 + n) len)
          if stop ≤ esds.length then
            let asc ← checked (slice esds (i + 1 + n) stop)
            return some asc
          else return none
      else if kind = 0x03 ∨ kind = 0x04 then
        match readBerLen (esds.drop (i + 1)) with
        | none => .ok none
        | some (len, n) => do
          let next ← checked (addUsize (i + 1 + n) len)
          esdsAscFrom esds fuel next
      else .ok none
    else .ok none

def parseEsdsAsc (esds : Bytes) : Parse (Option Bytes) := esdsAscFrom esds esds.length 4

variable (sampleEntry : Bytes)

def extractAvcc : Bytes := (findChildBox (tag 'a' 'v' 'c' 'C') sampleEntry).getD []

def extractHvcc : Bytes := (findChildBox (tag 'h' 'v' 'c' 'C') sampleEntry).getD []

def extractAacConfig : Parse Bytes := do
  let asc ← match findChildBox (tag 'e' 's' 'd' 's') sampleEntry with
    | some esds => parseEsdsAsc esds
    | none => pure none
  return asc.getD [0x12, 0x10]

/-- The `Debug` text of octets. -/
def debugBytes (b : Bytes) : String :=
  "[" ++ ", ".intercalate (b.map fun x => toString x.toNat) ++ "]"

def parseStsd (stsd : Bytes) (handler : TrackKind) : Parse (CodecId × Bytes) := do
  if stsd.length < 8 then bail "truncated stsd"
  else
    let entryCount := ofBe ((stsd.drop 4).take 4)
    if entryCount = 0 then bail "stsd has no entries"
    else
      let boxes ← walkTopBoxes (stsd.drop 8)
      match boxes.head? with
      | none => bail "stsd missing sample entry"
      | some (name, sampleEntry) =>
        if byteLen name ≠ 4 then bail "bad sample entry name"
        else
          match handler with
          | .video =>
            if name = ['a', 'v', 'c', '1'] ∨ name = ['a', 'v', 'c', '3'] then
              return (.h264, extractAvcc sampleEntry)
            else if name = ['h', 'v', 'c', '1'] ∨ name = ['h', 'e', 'v', '1'] then
              return (.h265, extractHvcc sampleEntry)
            else bail ("unsupported video codec fourcc " ++ debugBytes (Utf8.encode name))
          | .audio =>
            if name = ['m', 'p', '4', 'a'] then do
              let config ← extractAacConfig sampleEntry
              return (.aac, config)
            else bail ("unsupported audio codec fourcc " ++ debugBytes (Utf8.encode name))
          | .other => bail "unknown track kind in stsd"

/-- `H264Parser::parse_sps`: width and height. -/
def parseSps : Option (Nat × Nat) :=
  if data.isEmpty ∨ data.getD 0 0 &&& 0x1F ≠ 7 then none
  else if 7 ≤ data.length then
    some (ofBe [data.getD 3 0, data.getD 4 0], ofBe [data.getD 5 0, data.getD 6 0])
  else some (0, 0)

/-- `extract_video_dimensions`: the eighth octet is read where only seven are known to be there. -/
def extractVideoDimensions (codec : CodecId) (config : Bytes) : Parse (Option (Nat × Nat)) :=
  if codec ≠ .h264 then .ok none
  else if config.length < 6 then .ok none
  else if config.getD 5 0 &&& 0x1F = 0 ∨ config.length < 7 then .ok none
  else do
    let eighth ← checked config[7]?
    let len := ofBe [config.getD 6 0, eighth]
    if config.length < 8 + len then return none
    else
      let spsNalu ← checked (slice config 8 (8 + len))
      return parseSps spsNalu

def sampleRates : List Nat :=
  [96000, 88200, 64000, 48000, 44100, 32000, 24000, 22050, 16000, 12000, 11025, 8000, 7350]

/-- `extract_audio_sample_rate` and the part of `parse_audio_specific_config` that it reads. -/
def extractAudioSampleRate (config : Bytes) : Option Nat :=
  if config.length < 2 then none
  else some (sampleRates.getD ((config.getD 0 0).toNat % 8 * 2 + (config.getD 1 0).toNat / 128)
    44100)

/-- `derive_track_params`: width, height, frame rate and sample rate. -/
def deriveTrackParams (handler : TrackKind) (codec : CodecId) (config : Bytes) :
    Parse (Nat × Nat × Nat × Nat) :=
  match handler with
  | .video =>
    if codec = .h264 ∨ codec = .h265 then do
      match ← extractVideoDimensions codec config with
      | some (w, h) => return (w, h, 30, 0)
      | none => return (0, 0, 0, 0)
    else .ok (0, 0, 0, 0)
  | .audio =>
    if codec = .aac then
      match extractAudioSampleRate config with
      | some rate => .ok (0, 0, 0, rate)
      | none => .ok (0, 0, 0, 0)
    else .ok (0, 0, 0, 0)
  | .other => .ok (0, 0, 0, 0)

/-! ## Sample tables -/

def ensureTableEntries (boxName : String) (bodyLen headerLen entryCount entrySize : Nat) :
    Parse Unit :=
  let required := headerLen + entryCount * entrySize
  if 2 ^ 64 ≤ required then bail "mp4 table size overflow"
  else if bodyLen < required then
    bail ("truncated " ++ boxName ++ ": declares " ++ toString entryCount ++ " entries")
  else .ok ()

/-- The entries of `stts` that are left, behind the durations read so far. -/
def sttsRuns (expectedSamples : Nat) : Nat → Bytes → List Nat → Parse (List Nat)
  | 0, _, out => .ok out
  | n + 1, data, out => do
    let count ← checked (u32At data 0)
    let delta ← checked (u32At data 4)
    let newLen ← orError "stts sample count overflow" (addUsize out.length count)
    if expectedSamples < newLen then bail "stts describes more samples than stsz"
    else sttsRuns expectedSamples n (data.drop 8) (out ++ List.replicate count delta)

def parseStts (stts : Bytes) (expectedSamples : Nat) : Parse (List Nat) := do
  if stts.length < 8 then bail "truncated stts"
  else
    let entryCount := ofBe ((stts.drop 4).take 4)
    ensureTableEntries "stts" stts.length 8 entryCount 8
    let out ← sttsRuns expectedSamples entryCount (stts.drop 8) []
    if out.length ≠ expectedSamples then bail "stts sample count does not match stsz"
      else return out

/-- An entry of `stsc`: first chunk, samples per chunk and sample description. -/
structure ChunkRun where
  firstChunk : Nat
  samplesPerChunk : Nat
  sampleDesc : Nat
  deriving DecidableEq

def stscEntries : Nat → Bytes → Option (List ChunkRun)
  | 0, _ => some []
  | n + 1, data => do
    let firstChunk ← u32At data 0
    let samplesPerChunk ← u32At data 4
    let sampleDesc ← u32At data 8
    let later ← stscEntries n (data.drop 12)
    return ⟨firstChunk, samplesPerChunk, sampleDesc⟩ :: later

def parseStsc (stsc : Bytes) : Parse (List ChunkRun) := do
  if stsc.length < 8 then bail "truncated stsc"
  else
    let entryCount := ofBe ((stsc.drop 4).take 4)
    ensureTableEntries "stsc" stsc.length 8 entryCount 12
    checked (stscEntries entryCount (stsc.drop 8))

def parseStsz (stsz : Bytes) (fileLen : Nat) : Parse (List Nat) := do
  if stsz.length < 12 then bail "truncated stsz"
  else
    let sampleSize := ofBe ((stsz.drop 4).take 4)
    let sampleCount := ofBe ((stsz.drop 8).take 4)
    if sampleSize ≠ 0 then
      if fileLen / sampleSize <
        sampleCount then bail "stsz sample count exceeds the containing file size"
      else return List.replicate sampleCount sampleSize
    else
      ensureTableEntries "stsz" stsz.length 12 sampleCount 4
      checked (u32s sampleCount (stsz.drop 12))

/-- `parse_stco` and `parse_stss`: a table of 32-bit numbers. -/
def parseU32Table (boxName : String) (data : Bytes) : Parse (List Nat) := do
  if data.length < 8 then bail ("truncated " ++ boxName)
  else
    let count := ofBe ((data.drop 4).take 4)
    ensureTableEntries boxName data.length 8 count 4
    checked (u32s count (data.drop 8))

def parseStco (stco : Bytes) : Parse (List Nat) := parseU32Table "stco" stco

def parseStss (stss : Bytes) : Parse (List Nat) := parseU32Table "stss" stss

/-- The 64-bit offsets of `co64`. -/
def co64Entries : Nat → Bytes → Option (List Nat)
  | 0, _ => some []
  | n + 1, data => do
    let high ← u32At data 0
    let low ← u32At data 4
    let later ← co64Entries n (data.drop 8)
    return (high * 2 ^ 32 + low) :: later

def parseCo64 (co64 : Bytes) : Parse (List Nat) := do
  if co64.length < 8 then bail "truncated co64"
  else
    let count := ofBe ((co64.drop 4).take 4)
    ensureTableEntries "co64" co64.length 8 count 8
    checked (co64Entries count (co64.drop 8))

/-! ## Samples -/

/-- The start of every sample in ticks, from the durations; additions saturate. -/
def startTicks : Nat → List Nat → List Nat
  | _, [] => []
  | t, d :: ds => t :: startTicks (min (t + d) (2 ^ 64 - 1)) ds

/-- A sample as the tables describe it. -/
structure SampleRow where
  size : Nat
  duration : Nat
  tick : Nat
  deriving DecidableEq

/-- Size, duration and start of every sample; the tables have equal lengths. -/
def sampleRows (sizes durations : List Nat) : List SampleRow :=
  (sizes.zip (durations.zip (startTicks 0 durations))).map fun r => ⟨r.1, r.2.1, r.2.2⟩

/-- What all samples of a track share. -/
structure SampleContext where
  trackId : Nat
  codec : CodecId
  timescale : Nat
  syncSamples : List Nat
  file : Bytes

/-- The samples of a chunk at `chunkOffset`; `running` octets of it are read, `idx` samples of the
track. -/
def chunkSamples (c : SampleContext) (chunkOffset : Nat) :
    Nat → Nat → List SampleRow → Parse (List DemuxedSample)
  | _, _, [] => .ok []
  | running, idx, row :: rows => do
    let offset ← orError "mp4 sample offset overflow" (addUsize chunkOffset running)
    let stop ← orError "mp4 sample size overflow" (addUsize offset row.size)
    let running' ← orError "mp4 chunk sample sizes overflow" (addUsize running row.size)
    let data := if stop ≤ c.file.length then (c.file.take stop).drop offset else []
    let scaled ← checked (mulU64 row.tick 1000)
    let ptsMs := scaled / c.timescale % 2 ^ 32
    let sample : DemuxedSample :=
      { trackId := c.trackId
        codec := c.codec
        data
        ptsMs
        dtsMs := ptsMs
        durationMs := row.duration * 1000 / c.timescale % 2 ^ 32
        isSync := c.syncSamples.isEmpty || c.syncSamples.contains (idx + 1) }
    let later ← chunkSamples c chunkOffset running' (idx + 1) rows
    return sample :: later

/-- The chunks from number `chunkNumber` on, and the samples that they hold. -/
def chunksFrom (c : SampleContext) (entries : List ChunkRun) :
    Nat → List Nat → Nat → List SampleRow → Parse (List DemuxedSample)
  | _, [], _, _ => .ok []
  | chunkNumber, chunkOffset :: offsets, idx, rows =>
    match entries.reverse.find? fun e => decide (e.firstChunk ≤ chunkNumber) with
    | none => chunksFrom c entries (chunkNumber + 1) offsets idx rows
    | some e => do
      let here := rows.take e.samplesPerChunk
      let samples ← chunkSamples c chunkOffset 0 idx here
      let later ← chunksFrom c entries (chunkNumber + 1) offsets (idx + here.length)
        (rows.drop e.samplesPerChunk)
      return samples ++ later

/-! ## Tracks -/

/-- The part of `parse_trak` that reads the sample tables, when the track's header is known. -/
def parseTables (trackId timescale duration : Nat) (handler : TrackKind) (stbl : List (Str × Bytes))
    (file : Bytes) : Parse (Option (DemuxedTrack × List DemuxedSample)) := do
  let stsd ← orError "missing stsd" (stbl.lookup ['s', 't', 's', 'd'])
  let entry ← parseStsd stsd handler
  let stsz ← orError "missing stsz" (stbl.lookup ['s', 't', 's', 'z'])
  let sizes ← parseStsz stsz file.length
  if sizes.length = 0 then return none
  else
    let stts ← orError "missing stts" (stbl.lookup ['s', 't', 't', 's'])
    let durations ← parseStts stts sizes.length
    let stsc ← orError "missing stsc" (stbl.lookup ['s', 't', 's', 'c'])
    let entries ← parseStsc stsc
    let offsets ← match stbl.lookup ['c', 'o', '6', '4'] with
      | some co64 => parseCo64 co64
      | none => do
        let stco ← orError "missing stco" (stbl.lookup ['s', 't', 'c', 'o'])
        parseStco stco
    let syncSamples ← match stbl.lookup ['s', 't', 's', 's'] with
      | some stss => parseStss stss
      | none => pure []
    let c : SampleContext := ⟨trackId, entry.1, timescale, syncSamples, file⟩
    let samples ← chunksFrom c entries 1 offsets 0 (sampleRows sizes durations)
    let params ← deriveTrackParams handler entry.1 entry.2
    let track : DemuxedTrack :=
      { trackId, handler, codec := entry.1, timescale, duration, config := entry.2,
        sampleCount := sizes.length % 2 ^ 32, width := params.1, height := params.2.1,
        fps := params.2.2.1, sampleRate := params.2.2.2 }
    return some (track, samples)

def parseTrak (trak file : Bytes) : Parse (Option (DemuxedTrack × List DemuxedSample)) := do
  let trakBoxes ← walkTopBoxes trak
  let tkhd ← orError "missing tkhd" (trakBoxes.lookup ['t', 'k', 'h', 'd'])
  let trackId := readTkhdTrackId tkhd
  match trakBoxes.lookup ['m', 'd', 'i', 'a'] with
  | none => return none
  | some mdia => do
    let mdiaBoxes ← walkTopBoxes mdia
    let mdhd ← orError "missing mdhd" (mdiaBoxes.lookup ['m', 'd', 'h', 'd'])
    let timescale := readMdhdTimescale mdhd
    if timescale = 0 then bail "mp4 track timescale must be positive"
    else
      let duration := readMdhdDuration mdhd
      let hd ← orError "missing hdlr" (mdiaBoxes.lookup ['h', 'd', 'l', 'r'])
      let handler := readHdlrType hd
      if handler = .other then return none
      else
        match mdiaBoxes.lookup ['m', 'i', 'n', 'f'] with
        | none => return none
        | some minf => do
          let minfBoxes ← walkTopBoxes minf
          -- the tables stand in `stbl`, or directly in `minf`
          let stblBoxes ← match minfBoxes.lookup ['s', 't', 'b', 'l'] with
            | some stbl => walkTopBoxes stbl
            | none => pure minfBoxes
          parseTables trackId timescale duration handler stblBoxes file

/-! ## The file -/

/-- A track and its samples under the id of the track. -/
def Mp4Demuxer.insert (d : Mp4Demuxer) (r : DemuxedTrack × List DemuxedSample) : Mp4Demuxer :=
  ⟨assocInsert r.1.trackId r.1 d.tracks, assocInsert r.1.trackId r.2 d.samples⟩

/-- One box of `moov`: a track that cannot be read is passed over. -/
def addTrak (file : Bytes) (d : Mp4Demuxer) (b : Str × Bytes) : Parse Mp4Demuxer :=
  if b.1 ≠ ['t', 'r', 'a', 'k'] then .ok d
  else
    match parseTrak b.2 file with
    | .error .fault => .error .fault
    | .error (.error _) => .ok d
    | .ok none => .ok d
    | .ok (some read) => .ok (d.insert read)

def fromBytes : Parse Mp4Demuxer := do
  let top ← walkTopBoxes data
  let moov ← orError "missing moov box" (top.lookup ['m', 'o', 'o', 'v'])
  let _ ← orError "missing mdat box" (top.lookup ['m', 'd', 'a', 't'])
  let moovBoxes ← walkTopBoxesVec moov
  let _ ← orError "missing mvhd" (moovBoxes.find? (·.1 == ['m', 'v', 'h', 'd']))
  let d ← moovBoxes.foldlM (addTrak data) ⟨[], []⟩
  if d.tracks.isEmpty then bail "no supported media tracks found in mp4" else return d

end MediaKit.Mp4
