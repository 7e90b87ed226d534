import MediaKit.Core.Payload
import MediaKit.Lib.Assoc
import MediaKit.Lib.Box

/-!
# The reader of fragmented MP4

`crates/mp4/src/fragmented_demuxer.rs`: tracks come from an init segment, samples from the
fragments that follow it. Boxes are found by their position in the data.

Mirroring notes vs the Rust source:
  * Positions and sizes are `usize` numbers that wrap, as in a release build. `Stop.fault` is a
    panic (a slice out of range), or a walk that does not end.
  * The map of tracks is ordered by track id; a `HashMap` gives them in any order, so nothing is
    said of the order of the configurations. `track_info` is left out, and so are the width, the
    height and the channels, which it alone reads.
  * `sort_by_key` is a stable sort.
-/

namespace MediaKit.Fmp4

open MediaKit.Core Lib

structure FragmentTrack where
  id : Nat
  codec : CodecId
  timescale : Nat
  config : Bytes
  deriving DecidableEq

structure BoxView where
  kind : Bytes
  start : Nat
  dataStart : Nat
  stop : Nat
  deriving DecidableEq

variable (data : Bytes)

def readU32 (offset : Nat) : Parse Nat := orError "truncated ISO BMFF u32" (u32At data offset)

def readU64 (offset : Nat) : Parse Nat := orError "truncated ISO BMFF u64" (u64At data offset)

/-! ## Boxes -/

/-- The sizes of the header and of the whole box at `offset`, in a region that ends at `stop`. -/
def boxSize (stop offset : Nat) : Parse (Nat × Nat) := do
  let size32 ← readU32 data offset
  if size32 = 0 then return (8, stop - offset)
  else if size32 = 1 then
    let size ← readU64 data (offset + 8)
    return (16, size)
  else return (8, size32)

/-- The loop of `boxes`; a round that goes forward takes eight octets, so that a walk with more
rounds has gone back and does not end. -/
def boxViewsFrom (data : Bytes) (stop : Nat) : Nat → Nat → Parse (List BoxView)
  | 0, _ => .error .fault
  | fuel + 1, offset =>
    if offset + 8 ≤ stop then do
      let size ← boxSize data stop offset
      let kind ← checked (slice data (offset + 4) (offset + 8))
      if size.2 < size.1 ∨ stop < (offset + size.2) % 2 ^ 64 then bail "invalid ISO BMFF box size"
      else
        let later ← boxViewsFrom data stop fuel ((offset + size.2) % 2 ^ 64)
        return ⟨kind, offset, offset + size.1, (offset + size.2) % 2 ^ 64⟩ :: later
    else .ok []

/-- `boxes`. -/
def boxViews (start stop : Nat) : Parse (List BoxView) :=
  boxViewsFrom data stop (data.length + 1) start

def child (parent : BoxView) (kind : Bytes) : Parse (Option BoxView) := do
  let all ← boxViews data parent.dataStart parent.stop
  return all.find? (·.kind == kind)

def descendant (data : Bytes) : BoxView → List Bytes → Parse (Option BoxView)
  | parent, [] => .ok (some parent)
  | parent, kind :: path => do
    match ← child data parent kind with
    | none => return none
    | some next => descendant data next path

/-- What lies in a box. -/
def BoxView.body (v : BoxView) : Parse Bytes := checked (slice data v.dataStart v.stop)

/-! ## Codec configurations -/

/-- The rounds of `descriptor_length` that are left: the length and where it ends. -/
def descriptorLengthFrom (data : Bytes) : Nat → Nat → Nat → Option (Nat × Nat)
  | 0, _, _ => none
  | n + 1, length, offset => do
    let byte ← data[offset]?
    let length := length * 128 + byte.toNat % 128
    if byte.toNat < 128 then some (length, offset + 1)
      else descriptorLengthFrom data n length (offset + 1)

def descriptorLength (offset : Nat) : Option (Nat × Nat) := descriptorLengthFrom data 4 0 offset

/-- The child descriptor that the scan finds in a descriptor at `offset`. -/
def scannedChild (esds : Bytes) (offset length : Nat) : Option Bytes := do
  let relative ← ((esds.drop offset).take length).findIdx? (· == 0x05)
  let (childLength, childOffset) ← descriptorLength esds (offset + relative + 1)
  if childOffset + childLength ≤ offset +
    length then some ((esds.drop childOffset).take childLength) else none

/-- The loop of `extract_asc`; a round takes at least two octets. -/
def extractAscFrom (esds : Bytes) : Nat → Nat → Bytes
  | 0, _ => []
  | fuel + 1, offset =>
    match esds[offset]? with
    | none => []
    | some kind =>
      match descriptorLength esds (offset + 1) with
      | none => []
      | some (length, offset) =>
        if esds.length < offset + length then []
        else if kind = 0x05 then (esds.drop offset).take length
        else
          match scannedChild esds offset length with
          | some config => config
          | none => extractAscFrom esds fuel (offset + length)

def extractAsc (esds : Bytes) : Bytes := extractAscFrom esds esds.length (min 4 esds.length)

/-! ## The init segment -/

/-- The codec of a sample entry and where its boxes begin. -/
def entryCodec (kind : Bytes) : Parse (CodecId × Nat) :=
  if kind = tag 'a' 'v' 'c' '1' ∨ kind = tag 'a' 'v' 'c' '3' then .ok (.h264, 8 + 86)
  else if kind = tag 'h' 'v' 'c' '1' ∨ kind = tag 'h' 'e' 'v' '1' then .ok (.h265, 8 + 86)
  else if kind = tag 'm' 'p' '4' 'a' then .ok (.aac, 8 + 36)
  else bail ("unsupported fragmented MP4 sample entry " ++ String.ofList (Utf8.lossy kind))

def configKind : CodecId → Bytes
  | .h264 => tag 'a' 'v' 'c' 'C'
  | .h265 => tag 'h' 'v' 'c' 'C'
  | _ => tag 'e' 's' 'd' 's'

/-- The version octet of a full box. -/
def versionOf (body : Bytes) : UInt8 := body.headD 0

/-- The codec and the configuration of a track, from its `stsd`. -/
def readStsd (stsd : BoxView) : Parse (CodecId × Bytes) := do
  let stsdData ← stsd.body data
  if stsdData.length < 16 then bail "fragmented MP4 stsd is truncated"
  else
    let entrySize ← readU32 stsdData 8
    if entrySize < 8 ∨ stsdData.length <
      8 + entrySize then bail "invalid fragmented MP4 sample entry"
    else
      let (codec, childOffset) ← entryCodec ((stsdData.drop 12).take 4)
      let views ← boxViews data (stsd.dataStart + childOffset) (stsd.dataStart + 8 + entrySize)
      let configBox ← orError "fragmented MP4 sample entry is missing codec config"
        (views.find? (·.kind == configKind codec))
      let rawConfig ← configBox.body data
      return (codec, if codec = .aac then extractAsc rawConfig else rawConfig)

/-- A track, from its `trak`. -/
def readTrak (trak : BoxView) : Parse FragmentTrack := do
  let tkhd ← child data trak (tag 't' 'k' 'h' 'd')
  let tkhd ← orError "fragmented MP4 track is missing tkhd" tkhd
  let tkhdData ← tkhd.body data
  let id ← readU32 tkhdData (if versionOf tkhdData = 1 then 20 else 12)
  let mdia ← child data trak (tag 'm' 'd' 'i' 'a')
  let mdia ← orError "fragmented MP4 track is missing mdia" mdia
  let mdhd ← child data mdia (tag 'm' 'd' 'h' 'd')
  let mdhd ← orError "fragmented MP4 track is missing mdhd" mdhd
  let mdhdData ← mdhd.body data
  let timescale ← readU32 mdhdData (if versionOf mdhdData = 1 then 20 else 12)
  let stsd ← descendant data mdia [tag 'm' 'i' 'n' 'f', tag 's' 't' 'b' 'l', tag 's' 't' 's' 'd']
  let stsd ← orError "fragmented MP4 track is missing stsd" stsd
  let (codec, config) ← readStsd data stsd
  return ⟨id, codec, max timescale 1, config⟩

structure Fmp4Demuxer where
  tracks : List (Nat × FragmentTrack)
  deriving DecidableEq

def fromInitSegment : Parse Fmp4Demuxer := do
  let top ← boxViews data 0 data.length
  let moov ← orError "CMAF init segment is missing moov" (top.find? (·.kind == tag 'm' 'o' 'o' 'v'))
  let inner ← boxViews data moov.dataStart moov.stop
  let tracks ← (inner.filter (·.kind == tag 't' 'r' 'a' 'k')).foldlM (fun tracks trak => do
    let track ← readTrak data trak
    return assocInsert track.id track tracks) []
  if tracks.isEmpty then bail "CMAF init segment contains no supported tracks" else return ⟨tracks⟩

/-- `is_video` for the codecs of a track. -/
def isVideo (codec : CodecId) : Bool := codec = .h264 ∨ codec = .h265

def trackFrame (track : FragmentTrack) (dtsMs ptsMs : Nat) (data : Bytes) (key : Bool) :
    MediaFrame :=
  if isVideo track.codec then
    (MediaFrame.newVideo (UInt32.ofNat track.id) track.codec (UInt32.ofNat dtsMs)
      (UInt64.ofNat ptsMs)
      (UInt64.ofNat dtsMs) data key).withPayloadFormat (if track.codec = .h264 then .avcc
        else .hvcc)
  else
    (MediaFrame.newAudio (UInt32.ofNat track.id) track.codec (UInt32.ofNat dtsMs)
      (UInt64.ofNat ptsMs) (UInt64.ofNat dtsMs) data).withPayloadFormat .aacRaw

def Fmp4Demuxer.configFrames (d : Fmp4Demuxer) : List MediaFrame :=
  (d.tracks.filter fun t => !t.2.config.isEmpty).map fun t =>
    { (if isVideo t.2.codec then
        (MediaFrame.newVideo (UInt32.ofNat t.2.id) t.2.codec 0 0 0 t.2.config
          false).withPayloadFormat (if t.2.codec = .h264 then .avcc else .hvcc)
      else
        (MediaFrame.newAudio (UInt32.ofNat t.2.id) t.2.codec 0 0 0 t.2.config).withPayloadFormat
          .aacAudioSpecificConfig) with configFrame := true }

/-! ## Fragments -/

/-- Whether a bit of the flags is set. -/
def flagSet (flags bit : Nat) : Bool := flags.testBit bit

/-- What `tfhd` sets for all samples of a fragment. -/
structure FragmentDefaults where
  trackId : Nat
  baseDataOffset : Nat
  duration : Nat
  size : Nat
  flags : Nat

/-- The optional number at `offset`, and where the next one stands. -/
def optionalU32 (present : Bool) (offset : Nat) : Parse (Option Nat × Nat) :=
  if present then do
    let value ← readU32 data offset
    return (some value, offset + 4)
  else .ok (none, offset)

def readTfhd (tfhdData : Bytes) (moofStart : Nat) : Parse FragmentDefaults := do
  let word ← readU32 tfhdData 0
  let flags := word % 2 ^ 24
  let trackId ← readU32 tfhdData 4
  let (base, offset) ←
    if flagSet flags 0 then do
      let value ← readU64 tfhdData 8
      pure (value, 16)
    else pure (moofStart, 8)
  let offset := if flagSet flags 1 then offset + 4 else offset
  let (duration, offset) ← optionalU32 tfhdData (flagSet flags 3) offset
  let (size, offset) ← optionalU32 tfhdData (flagSet flags 4) offset
  let (defaultFlags, _) ← optionalU32 tfhdData (flagSet flags 5) offset
  return ⟨trackId, base, duration.getD 0, size.getD 0, defaultFlags.getD 0⟩

/-- The decode time at which a fragment begins. -/
def readTfdt (tfdt : Option BoxView) : Parse Nat :=
  match tfdt with
  | none => .ok 0
  | some tfdt => do
    let tfdtData ← tfdt.body data
    if versionOf tfdtData = 1 then readU64 tfdtData 4 else readU32 tfdtData 4

/-- A number of 32 bits as a signed one. -/
def toI32 (n : Nat) : Int := if n < 2 ^ 31 then n else (n : Int) - 2 ^ 32

/-- `usize::try_from((base as i64) + relative)`, where the addition wraps. -/
def relativeOffset (base : Nat) (relative : Int) : Parse Nat :=
  let sum := ((base : Int) + relative + 2 ^ 63) % 2 ^ 64 - 2 ^ 63
  if 0 ≤ sum then .ok sum.toNat else bail "negative CMAF trun data offset"

/-- What `trun` says of all its samples. -/
structure TrunHeader where
  version : UInt8
  flags : Nat
  sampleCount : Nat
  sampleOffset : Nat
  firstSampleFlags : Option Nat
  offset : Nat

/-- How many octets a sample takes in `trun`. -/
def perSampleBytes (flags : Nat) : Nat := 4 * ([8, 9, 10, 11].filter (flagSet flags)).length

def readTrunHeader (data trunData : Bytes) (d : FragmentDefaults)
    (implicitDataOffset : Nat) : Parse TrunHeader := do
  let word ← readU32 trunData 0
  let flags := word % 2 ^ 24
  let sampleCount ← readU32 trunData 4
  let (sampleOffset, offset) ←
    if flagSet flags 0 then do
      let relative ← readU32 trunData 8
      let sampleOffset ← relativeOffset d.baseDataOffset (toI32 relative)
      pure (sampleOffset, 12)
    else pure (implicitDataOffset, 8)
  let (firstSampleFlags, offset) ← optionalU32 trunData (flagSet flags 2) offset
  let header : TrunHeader := ⟨versionOf trunData, flags, sampleCount, sampleOffset,
    firstSampleFlags, offset⟩
  if 0 < perSampleBytes flags then
    if trunData.length < offset then bail "CMAF trun sample table is truncated"
    else if (trunData.length - offset) / perSampleBytes flags < sampleCount then
      bail "CMAF trun sample count exceeds its table"
    else return header
  else if 0 < sampleCount then
    if d.size = 0 then bail "CMAF trun samples have no size information"
    else if (data.length - sampleOffset) / d.size < sampleCount then
      bail "CMAF trun sample count exceeds available media data"
    else return header
  else return header

/-- The presentation time of a sample, in ticks. -/
def ptsTicks (decodeTime : Nat) (compositionOffset : Int) : Nat :=
  if compositionOffset < 0 then decodeTime - compositionOffset.natAbs
  else min (decodeTime + compositionOffset.natAbs) (2 ^ 64 - 1)

/-- Ticks in milliseconds. -/
def ticksToMs (ticks timescale : Nat) : Nat := min (ticks * 1000) (2 ^ 64 - 1) / timescale

/-- The samples of a `trun` that are left; `offset` is the position in `trun`, `sampleOffset` in the
data. -/
def trunSamples (data trunData : Bytes) (track : FragmentTrack) (d : FragmentDefaults)
    (h : TrunHeader) :
    Nat → Nat → Nat → Nat → Nat → Parse (List MediaFrame × Nat × Nat)
  | 0, _, _, sampleOffset, decodeTime => .ok ([], sampleOffset, decodeTime)
  | left + 1, index, offset, sampleOffset, decodeTime => do
    let (duration, offset) ← optionalU32 trunData (flagSet h.flags 8) offset
    let duration := duration.getD d.duration
    let (size, offset) ← optionalU32 trunData (flagSet h.flags 9) offset
    let size := size.getD d.size
    let (flags, offset) ← optionalU32 trunData (flagSet h.flags 10) offset
    let sampleFlags := flags.getD (if index = 0 then h.firstSampleFlags.getD d.flags else d.flags)
    let (composition, offset) ← optionalU32 trunData (flagSet h.flags 11) offset
    let compositionOffset : Int := match composition with
      | none => 0
      | some raw => if h.version = 1 then toI32 raw else raw
    let sampleEnd ← orError "CMAF sample offset overflow" (addUsize sampleOffset size)
    let sample ← orError "CMAF sample data is truncated" (slice data sampleOffset sampleEnd)
    let dtsMs := ticksToMs decodeTime track.timescale
    let ptsMs := ticksToMs (ptsTicks decodeTime compositionOffset) track.timescale
    let frame := trackFrame track dtsMs ptsMs sample (!flagSet sampleFlags 16)
    let (frames, last) ← trunSamples data trunData track d h left (index + 1) offset sampleEnd
      (min (decodeTime + duration) (2 ^ 64 - 1))
    return (frame :: frames, last)

/-- The `trun` boxes of a fragment, one after the other. -/
def truns (data : Bytes) (track : FragmentTrack) (d : FragmentDefaults) :
    List BoxView → Nat → Nat → Parse (List MediaFrame)
  | [], _, _ => .ok []
  | trun :: rest, implicitDataOffset, decodeTime => do
    let trunData ← trun.body data
    let header ← readTrunHeader data trunData d implicitDataOffset
    let (frames, sampleOffset, decodeTime) ←
      trunSamples data trunData track d header header.sampleCount 0 header.offset
      header.sampleOffset decodeTime
    let later ← truns data track d rest sampleOffset decodeTime
    return frames ++ later

def Fmp4Demuxer.demuxTraf (demuxer : Fmp4Demuxer) (data : Bytes) (moof mdat traf : BoxView) :
    Parse (List MediaFrame) := do
  let tfhd ← child data traf (tag 't' 'f' 'h' 'd')
  let tfhd ← orError "CMAF traf is missing tfhd" tfhd
  let tfhdData ← tfhd.body data
  -- the flags are read before the track is looked up, so a short `tfhd` is reported first
  let trackId ← (readU32 tfhdData 0 >>= fun _ => readU32 tfhdData 4)
  let track ← orError ("CMAF fragment references unknown track " ++ toString trackId)
    (demuxer.tracks.lookup trackId)
  let defaults ← readTfhd tfhdData moof.start
  let tfdt ← child data traf (tag 't' 'f' 'd' 't')
  let baseDecodeTime ← readTfdt data tfdt
  let all ← boxViews data traf.dataStart traf.stop
  truns data track defaults (all.filter (·.kind == tag 't' 'r' 'u' 'n')) mdat.dataStart
    baseDecodeTime

/-- The order of the frames of a fragment. -/
def frameLe (a b : MediaFrame) : Bool :=
  decide (a.dts < b.dts ∨ a.dts = b.dts ∧ a.trackId ≤ b.trackId)

def Fmp4Demuxer.demuxFragment (demuxer : Fmp4Demuxer) (data : Bytes) : Parse (List MediaFrame) := do
  let top ← boxViews data 0 data.length
  let moof ← orError "CMAF media segment is missing moof"
    (top.find? (·.kind == tag 'm' 'o' 'o' 'f'))
  let mdat ← orError "CMAF media segment is missing mdat"
    (top.find? (·.kind == tag 'm' 'd' 'a' 't'))
  let inner ← boxViews data moof.dataStart moof.stop
  let frames ← (inner.filter (·.kind == tag 't' 'r' 'a' 'f')).mapM
    (demuxer.demuxTraf data moof mdat)
  return frames.flatten.mergeSort frameLe

end MediaKit.Fmp4
