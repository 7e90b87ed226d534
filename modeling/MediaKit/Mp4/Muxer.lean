import MediaKit.Core.Payload
import MediaKit.Lib.Box

/-!
# The MP4 recorder

`crates/mp4/src/muxer.rs`: frames are collected as samples of two tracks and written as one
file when the recording ends: `ftyp`, then `mdat` with the samples of the video track and
behind them those of the audio track, then `moov` with the tables that say where each
sample lies and how long it lasts.

Mirroring notes vs the Rust source:
  * `fps` is left out: it is 30.0 in every state, since `extract_video_info` returns no other
    rate, so the duration of a lone video sample is 3000 ticks. `channels` is left out too:
    nothing reads it.
  * `none` is a panic: an index out of range in a configuration record, or an overflow.
  * `set_track_durations` gets the samples of one track; the source hands it their positions
    among all samples. Nothing else changes a sample, so `finalize` takes the tracks first.
  * A function that writes to a buffer returns what it writes.
-/

namespace MediaKit.Mp4

open MediaKit.Core Lib UInt8

structure SampleEntry where
  trackId : Nat
  data : Bytes
  timestamp : Nat
  duration : Nat
  isSync : Bool
  deriving DecidableEq

structure Mp4Muxer where
  videoCodec : Option CodecId
  audioCodec : Option CodecId
  width : Nat
  height : Nat
  sampleRate : Nat
  videoConfig : Option Bytes
  audioConfig : Option Bytes
  samples : List SampleEntry
  baseTime : Option UInt32
  deriving DecidableEq

def Mp4Muxer.new : Mp4Muxer := ⟨none, none, 0, 0, 0, none, none, [], none⟩

/-! ## Configuration records -/

/-- The loop of `split_nalus_avcc`; a round takes at least the four octets of a length. -/
def nalusAvcc : Nat → Bytes → List Bytes
  | 0, _ => []
  | fuel + 1, data =>
    if 4 ≤ data.length then
      let len := ofBe (data.take 4)
      let rest := data.drop 4
      if len ≤ rest.length then rest.take len :: nalusAvcc fuel (rest.drop len) else []
    else []

def splitNalusAvcc (data : Bytes) : List Bytes := nalusAvcc data.length data

/-- `extract_video_info`: width and height. -/
def extractVideoInfo (codec : CodecId) (data : Bytes) : Option (Nat × Nat) :=
  let inner := if 5 < data.length then data.drop 5 else data
  let nals := splitNalusAvcc inner
  match codec with
  | .h264 => (nals.find? fun nal => decide (5 ≤ nal.length ∧ nal.getD 0 0 &&& 0x1F = 7)).map
    fun nal =>
    (ofBe [nal.getD 3 0, nal.getD 4 0],
      if 6 < nal.length then ofBe [nal.getD 5 0, nal.getD 6 0] else 0)
  | .h265 => (nals.find? fun nal => decide (6 ≤ nal.length ∧ nal.getD 0 0 >>> (1 : UInt8) = 17)).map
    fun nal =>
    (ofBe [nal.getD 4 0, nal.getD 5 0],
      if 7 < nal.length then ofBe [nal.getD 6 0, nal.getD 7 0] else 0)
  | _ => none

def configToSampleRate (config : Bytes) : Nat :=
  if 2 ≤ config.length then
    match (config.getD 0 0).toNat % 8 * 2 + (config.getD 1 0).toNat / 128 with
    | 0 => 96000
    | 1 => 88200
    | 2 => 64000
    | 3 => 48000
    | 4 => 44100
    | 5 => 32000
    | 6 => 24000
    | 7 => 22050
    | 8 => 16000
    | 9 => 12000
    | 10 => 11025
    | 11 => 8000
    | 12 => 7350
    | _ => 44100
  else 44100

/-- The units whose first octet is wanted; the source reads it of every unit. -/
def nalusWith (wanted : UInt8 → Bool) (nals : List Bytes) : Option (List Bytes) :=
  if nals.any List.isEmpty then none else some (nals.filter fun n => wanted (n.getD 0 0))

/-- Units behind 16-bit lengths. -/
def lengthPrefixed16 (nals : List Bytes) : Bytes := nals.flatMap fun n => be16 n.length ++ n

def parseAvccConfig (data : Bytes) : Option Bytes :=
  if data.head? = some 1 ∧ 7 ≤ data.length then some data
  else
    let default : Bytes := [1, 0x42, 0, 0x1E, 0xFF, 0xE1, 0, 25]
    let inner := data.drop 5
    if data.length ≤ 5 ∨ inner.isEmpty then some default
    else do
      let second ← inner[1]?
      let third ← inner[2]?
      let nals := splitNalusAvcc inner
      let spsList ← nalusWith (fun b => b &&& 0x1F == 7) nals
      let ppsList ← nalusWith (fun b => b &&& 0x1F == 8) nals
      return [1, inner.getD 0 0, 0, max second third, 0xFF] ++
        [(0xE0 : UInt8) ||| ofNat spsList.length] ++ lengthPrefixed16 spsList ++
        [ofNat ppsList.length] ++ lengthPrefixed16 ppsList

def parseHvccConfig (data : Bytes) : Option Bytes :=
  if data.head? = some 1 ∧ 23 ≤ data.length then some data
  else
    let inner := data.drop 5
    if data.length ≤ 5 ∨ inner.isEmpty then some [1]
    else do
      let nals := splitNalusAvcc inner
      let vpsList ← nalusWith (fun b => b >>> 1 == 16) nals
      let spsList ← nalusWith (fun b => b >>> 1 == 17) nals
      let ppsList ← nalusWith (fun b => b >>> 1 == 18) nals
      let profile : Bytes ← match vpsList.head? with
        | some vps => do
          let third ← vps[2]?
          let fourth ← vps[3]?
          let fifth ← vps[4]?
          pure [third &&& (0xFC : UInt8), 0,
            (fourth &&& (0xE0 : UInt8)) ||| (fifth >>> (3 : UInt8))]
        | none => pure [0, 0, 0]
      return [1] ++ profile ++ [0xFC, 0, 0, 0] ++
        [ofNat vpsList.length &&& (0x0F : UInt8), ofNat spsList.length &&& (0x0F : UInt8),
          ofNat ppsList.length &&& (0x3F : UInt8)] ++
        lengthPrefixed16 vpsList ++ lengthPrefixed16 spsList ++ lengthPrefixed16 ppsList

def putBerLength (len : Nat) : Bytes :=
  if len < 128 then [ofNat len]
  else if len < 16384 then [(0x80 : UInt8) ||| ofNat (len >>> 7), ofNat (len &&& 0x7F)]
  else
    [(0x80 : UInt8) ||| ofNat (len >>> 14), (0x80 : UInt8) ||| ofNat ((len >>> 7) &&& 0x7F),
      ofNat (len &&& 0x7F)]

def buildEsdsDescriptors (audioSpecificConfig : Bytes) : Bytes :=
  let descData : Bytes := be16 1 ++ [0x00, 0x00]
  let dcData : Bytes := [0x40, 0x15, 0x00, 0x00, 0x03, 0x00, 0x00, 0x03, 0x00, 0x00]
  let decSpecific : Bytes := [0x05, ofNat audioSpecificConfig.length] ++ audioSpecificConfig
  let dcLen := dcData.length + decSpecific.length
  let decoderConfig : Bytes := [0x04] ++ putBerLength dcLen ++ dcData ++ decSpecific
  let slConfig : Bytes := [0x06, 1, 0x02]
  let descLen := descData.length + decoderConfig.length + slConfig.length
  [0x03] ++ putBerLength descLen ++ descData ++ decoderConfig ++ slConfig

/-! ## Frames -/

variable (m : Mp4Muxer)
  (frame : MediaFrame)

/-- The configuration that `push_frame` keeps. -/
def Mp4Muxer.pushConfig : Mp4Muxer :=
  match frame.frameType with
  | .video =>
    match videoDecoderConfig frame with
    | .error _ => m
    | .ok config =>
      let m := { m with videoCodec := some frame.codec, videoConfig := some config }
      match extractVideoInfo frame.codec config with
      | some info => { m with width := info.1, height := info.2 }
      | none => m
  | .audio =>
    match if frame.codec = .aac then aacAudioSpecificConfig frame else .ok frame.data with
    | .error _ => m
    | .ok config =>
      { m with
        audioCodec := some frame.codec
        audioConfig := some config
        sampleRate := configToSampleRate config }
  | .metadata => m

/-- What a sample frame carries. -/
def samplePayload : Except Error Bytes :=
  match frame.frameType with
  | .video => videoSampleLengthPrefixed frame
  | .audio => if frame.codec = .aac then aacRawPayload frame else .ok frame.data
  | .metadata => .ok frame.data

def Mp4Muxer.pushSample : Mp4Muxer :=
  let isVideo := decide (frame.frameType = .video)
  let m :=
    if isVideo then { m with videoCodec := m.videoCodec.or (some frame.codec) }
    else
      { m with
        audioCodec := m.audioCodec.or (some frame.codec)
        audioConfig := m.audioConfig.or (some []) }
  let base := m.baseTime.getD 0
  match samplePayload frame with
  | .error _ => m
  | .ok data =>
    let sample : SampleEntry :=
      { trackId := if isVideo then 0 else 1
        data
        timestamp := frame.timestamp.toNat - base.toNat
        duration := 0
        isSync := isVideo && frame.keyFrame }
    { m with samples := m.samples ++ [sample] }

def Mp4Muxer.pushFrame : Mp4Muxer :=
  let m := { m with baseTime := m.baseTime.or (some frame.timestamp) }
  if frame.configFrame || isConfigFrame frame then m.pushConfig frame
  else if frame.frameType = .metadata then m
  else m.pushSample frame

/-! ## Durations -/

/-- The duration of a sample whose distance to its neighbour is `deltaMs`. -/
def sampleDuration (timescale defaultDuration : Nat) (deltaMs : Option Nat) : Nat :=
  max 1 (match deltaMs with
    | some delta => min (max delta 1 * timescale / 1000) (2 ^ 32 - 1)
    | none => defaultDuration)

/-- A sample lasts until the next one; the last sample keeps the distance to the one before it. -/
def setTrackDurations (timescale defaultDuration : Nat) :
    Option Nat → List SampleEntry → List SampleEntry
  | _, [] => []
  | previous, [s] =>
    [{ s with
      duration := sampleDuration timescale defaultDuration (previous.map (s.timestamp - ·)) }]
  | _, s :: next :: rest =>
    { s with
      duration := sampleDuration timescale defaultDuration (some (next.timestamp - s.timestamp)) }
      :: setTrackDurations timescale defaultDuration (some s.timestamp) (next :: rest)

def videoTimescale : Nat := 90000

def Mp4Muxer.audioTimescale : Nat := if 0 < m.sampleRate then m.sampleRate else 44100

/-- `compute_durations`, for the video track. -/
def Mp4Muxer.videoSamples : List SampleEntry :=
  setTrackDurations videoTimescale 3000 none (m.samples.filter (·.trackId == 0))

/-- `compute_durations`, for the audio track. -/
def Mp4Muxer.audioSamples : List SampleEntry :=
  setTrackDurations m.audioTimescale (max (m.audioTimescale / 44) 1) none
    (m.samples.filter (·.trackId == 1))

/-! ## Boxes -/

def makeBox (kind data : Bytes) : Bytes := box kind data

def writeFullBox (kind : Bytes) (version : UInt8) (flags : Nat) (data : Bytes) : Bytes :=
  be32 (12 + data.length) ++ (kind ++
    ([version, ofNat (flags >>> 16), ofNat (flags >>> 8), ofNat flags] ++ data))

def writeFtyp : Bytes :=
  makeBox (tag 'f' 't' 'y' 'p')
    (tag 'i' 's' 'o' 'm' ++ be32 0x200 ++ tag 'i' 's' 'o' 'm' ++ tag 'i' 's' 'o' '2' ++
      tag 'a' 'v' 'c' '1' ++ tag 'm' 'p' '4' '1')

def mvhdData (durationMs nextTrackId : Nat) : Bytes :=
  be32 0 ++ be32 0 ++ be32 1000 ++ be32 durationMs ++ be32 0x00010000 ++ be16 0x0100 ++ be16 0 ++
    be32 0 ++ be32 0 ++ unityMatrix ++ [0, 0, 0, 0, 0, 0].flatMap be32 ++ be32 nextTrackId

def writeMvhd (durationMs nextTrackId : Nat) : Bytes :=
  writeFullBox (tag 'm' 'v' 'h' 'd') 0 0 (mvhdData durationMs nextTrackId)

def tkhdData (trackId duration width height : Nat) : Bytes :=
  be32 0 ++ be32 0 ++ be32 trackId ++ be32 0 ++ be32 duration ++ be32 0 ++ be32 0 ++ be16 0 ++
    be16 0 ++ be16 (if width = 0 then 0x0100 else 0) ++ be16 0 ++ unityMatrix ++
    be32 (width * 65536) ++ be32 (height * 65536)

def writeTkhd (trackId duration width height : Nat) : Bytes :=
  writeFullBox (tag 't' 'k' 'h' 'd') 0 0x0007 (tkhdData trackId duration width height)

def mdhdData (timescale duration : Nat) : Bytes :=
  be32 0 ++ be32 0 ++ be32 timescale ++ be32 duration ++ be16 0x55C4 ++ be16 0

def writeMdhd (timescale duration : Nat) : Bytes :=
  writeFullBox (tag 'm' 'd' 'h' 'd') 0 0 (mdhdData timescale duration)

/-- The name `zlmediakit-rs`. -/
def handlerName : Bytes :=
  [0x7A, 0x6C, 0x6D, 0x65, 0x64, 0x69, 0x61, 0x6B, 0x69, 0x74, 0x2D, 0x72, 0x73]

def hdlrData (handlerType : Bytes) : Bytes :=
  be32 0 ++ handlerType ++ be32 0 ++ be32 0 ++ be32 0 ++ handlerName ++ [0]

def writeHdlr (handlerType : Bytes) : Bytes :=
  writeFullBox (tag 'h' 'd' 'l' 'r') 0 0 (hdlrData handlerType)

def writeVmhd : Bytes :=
  writeFullBox (tag 'v' 'm' 'h' 'd') 0 0x0001 (be16 0 ++ be16 0 ++ be16 0 ++ be16 0)

def writeSmhd : Bytes := writeFullBox (tag 's' 'm' 'h' 'd') 0 0 (be16 0 ++ be16 0)

def writeDinf : Bytes :=
  let urlBox := writeFullBox (tag 'u' 'r' 'l' ' ') 0 1 []
  makeBox (tag 'd' 'i' 'n' 'f') (writeFullBox (tag 'd' 'r' 'e' 'f') 0 0 (be32 1 ++ urlBox))

/-! ## Sample tables -/

/-- The fixed part of a video sample entry. -/
def visualSampleEntry (width height : Nat) : Bytes :=
  be32 0 ++ be16 0 ++ be16 1 ++ be16 0 ++ be16 0 ++ be32 0 ++ be32 0 ++ be32 0 ++
    be16 width ++ be16 height ++ be32 0x00480000 ++ be32 0x00480000 ++ be32 0 ++ be16 1 ++
    List.replicate 32 0 ++ be16 0x0018 ++ be16 0xFFFF

/-- The fixed part of an audio sample entry. -/
def audioSampleEntry (sampleRate : Nat) : Bytes :=
  be32 0 ++ be16 0 ++ be16 1 ++ be16 0 ++ be16 0 ++ be32 0 ++ be16 2 ++ be16 16 ++ be16 0 ++
    be16 0 ++ be32 (sampleRate <<< 16)

/-- The body of the `esds` box. -/
def esdsData (config : Bytes) : Bytes :=
  let audioConfig : Bytes := if config.isEmpty then [0x12, 0x10] else config
  be32 0 ++ buildEsdsDescriptors audioConfig

def sampleEntry (codec : CodecId) (config : Bytes) (width height : Nat) : Option Bytes :=
  match codec with
  | .h264 => do
    let avcc ← parseAvccConfig config
    return makeBox (tag 'a' 'v' 'c' '1')
      (visualSampleEntry width height ++ makeBox (tag 'a' 'v' 'c' 'C') avcc)
  | .h265 => do
    let hvcc ← parseHvccConfig config
    return makeBox (tag 'h' 'e' 'v' '1')
      (visualSampleEntry width height ++ makeBox (tag 'h' 'v' 'c' 'C') hvcc)
  | .aac =>
    some (makeBox (tag 'm' 'p' '4' 'a')
      (audioSampleEntry (configToSampleRate config) ++ makeBox (tag 'e' 's' 'd' 's')
        (esdsData config)))
  | _ => some []

def stsdData (entry : Bytes) : Bytes := be32 0 ++ be32 1 ++ entry

/-- One more sample in the runs of equal durations. -/
def pushRun (entries : List (Nat × Nat)) (dur : Nat) : List (Nat × Nat) :=
  match entries.getLast? with
  | some last => if last.2 = dur then entries.dropLast ++ [(last.1 + 1, last.2)] else entries ++
    [(1, dur)]
  | none => entries ++ [(1, dur)]

/-- The runs of equal durations, each with its length. -/
def sttsEntries (durations : List Nat) : List (Nat × Nat) :=
  durations.foldl (fun entries d => pushRun entries (max d 1)) []

variable (samples : List SampleEntry)

def sttsData : Bytes :=
  let entries := sttsEntries (samples.map (·.duration))
  be32 0 ++ be32 entries.length ++ entries.flatMap fun e => be32 e.1 ++ be32 e.2

def writeStts : Bytes :=
  if samples.isEmpty then writeFullBox (tag 's' 't' 't' 's') 0 0 (be32 0 ++ be32 0)
  else makeBox (tag 's' 't' 't' 's') (sttsData samples)

def stscData (sampleCount : Nat) : Bytes :=
  be32 0 ++ (if sampleCount = 0 then be32 0 else be32 1 ++ be32 1 ++ be32 sampleCount ++ be32 1)

def writeStsc (sampleCount : Nat) : Bytes := makeBox (tag 's' 't' 's' 'c') (stscData sampleCount)

/-- The size that all samples have, or 0. -/
def sameSize : List Nat → Nat
  | [] => 0
  | first :: sizes => if sizes.all (· == first) then first else 0

def stszData (sampleSizes : List Nat) : Bytes :=
  let same := sameSize sampleSizes
  be32 0 ++ be32 same ++ be32 sampleSizes.length ++
    (if same = 0 then sampleSizes.flatMap be32 else [])

def writeStsz (sampleSizes : List Nat) : Bytes :=
  makeBox (tag 's' 't' 's' 'z') (stszData sampleSizes)

def stcoData (chunkOffset : Nat) : Bytes := be32 0 ++ be32 1 ++ be32 chunkOffset

def writeStco (chunkOffset : Nat) : Bytes := makeBox (tag 's' 't' 'c' 'o') (stcoData chunkOffset)

/-! ## The file -/

/-- What `write_trak` is told of a track. -/
structure TrackParams where
  trackId : Nat
  handlerType : Bytes
  codec : CodecId
  config : Bytes
  width : Nat
  height : Nat
  timescale : Nat
  duration : Nat
  samples : List SampleEntry
  mdatOffset : Nat

variable (t : TrackParams)
  (beforeMdat : Nat)

/-- `write_stbl`: the tables stand directly in `minf`. -/
def writeStbl : Option Bytes := do
  let entry ← sampleEntry t.codec t.config t.width t.height
  let behindHeader ← addU32 beforeMdat 8
  let chunkOffset ← addU32 behindHeader (t.mdatOffset % 2 ^ 32)
  return makeBox (tag 's' 't' 's' 'd') (stsdData entry) ++ writeStts t.samples ++
    writeStsc t.samples.length ++ writeStsz (t.samples.map (·.data.length)) ++ writeStco chunkOffset

def writeTrak : Option Bytes := do
  let duration := t.duration % 2 ^ 32
  let stbl ← writeStbl t beforeMdat
  let mediaHeader := if t.handlerType = tag 'v' 'i' 'd' 'e' then writeVmhd else writeSmhd
  let minf := mediaHeader ++ writeDinf ++ stbl
  let mdia := writeMdhd t.timescale duration ++ writeHdlr t.handlerType ++
    makeBox (tag 'm' 'i' 'n' 'f') minf
  return makeBox (tag 't' 'r' 'a' 'k')
    (writeTkhd t.trackId (duration * 1000 / max t.timescale 1) t.width t.height ++
      makeBox (tag 'm' 'd' 'i' 'a') mdia)

/-- The samples of both tracks, one after the other. -/
def Mp4Muxer.mdatData : Bytes := m.videoSamples.flatMap (·.data) ++ m.audioSamples.flatMap (·.data)

def Mp4Muxer.videoParams (duration : Nat) : TrackParams :=
  { trackId := 1
    handlerType := tag 'v' 'i' 'd' 'e'
    codec := m.videoCodec.getD .h264
    config := m.videoConfig.getD []
    width := m.width
    height := m.height
    timescale := videoTimescale
    duration
    samples := m.videoSamples
    mdatOffset := 0 }

def Mp4Muxer.audioParams (duration : Nat) : TrackParams :=
  { trackId := if m.videoSamples.isEmpty then 1 else 2
    handlerType := tag 's' 'o' 'u' 'n'
    codec := m.audioCodec.getD .aac
    config := m.audioConfig.getD []
    width := 0
    height := 0
    timescale := m.audioTimescale
    duration
    samples := m.audioSamples
    mdatOffset := (m.videoSamples.flatMap (·.data)).length }

/-- A track without samples is not written. -/
def writeTrakIfAny : Option Bytes :=
  if t.samples.isEmpty then some [] else writeTrak t beforeMdat

/-- The duration of a track in milliseconds. -/
def durationMs (media timescale : Nat) : Option Nat :=
  if samples.isEmpty then some 0 else (mulU64 media 1000).map (· / timescale)

/-- The body of `moov`. -/
def Mp4Muxer.moovData : Option Bytes := do
  let videoDuration ← sumU64 (m.videoSamples.map (·.duration))
  let audioDuration ← sumU64 (m.audioSamples.map (·.duration))
  let videoMs ← durationMs m.videoSamples videoDuration videoTimescale
  let audioMs ← durationMs m.audioSamples audioDuration m.audioTimescale
  let nextTrackId := if !m.videoSamples.isEmpty && !m.audioSamples.isEmpty then 3 else 2
  let videoTrak ← writeTrakIfAny (m.videoParams videoDuration) writeFtyp.length
  let audioTrak ← writeTrakIfAny (m.audioParams audioDuration) writeFtyp.length
  return writeMvhd (max videoMs audioMs) nextTrackId ++ videoTrak ++ audioTrak

def Mp4Muxer.finalize : Option Bytes :=
  if m.samples.isEmpty then some []
  else do
    let moov ← m.moovData
    return writeFtyp ++ makeBox (tag 'm' 'd' 'a' 't') m.mdatData ++
      makeBox (tag 'm' 'o' 'o' 'v') moov

end MediaKit.Mp4
