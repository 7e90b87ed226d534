import MediaKit.Core.Payload
import MediaKit.Lib.Box

/-!
# The fragmented MP4 muxer

`crates/mp4/src/fmp4.rs`: frames are collected as samples of two tracks; `flush_segment` writes
what has come since the last segment as `styp`, `moof` and `mdat`, and `init_segment` writes the
configurations as `ftyp` and `moov`.

Mirroring notes vs the Rust source:
  * `width`, `height`, `audio_sample_rate` and `audio_channels` are set by `new` and never again;
    they are constants here. `largest_video_sample` and `largest_audio_sample` are left out:
    nothing reads them.
  * A function that writes to a buffer returns what it writes. `write_trak` takes the sample
    sizes and ignores them; they are left out.
  * Sizes and offsets are 32-bit numbers that wrap, as in a release build: a field of 32 bits
    holds what is left of a number modulo 2³².
-/

namespace MediaKit.Fmp4

open MediaKit.Core Lib List

structure Fmp4Segment where
  isInit : Bool
  sequence : Nat
  data : Bytes
  startTime : Nat
  duration : Nat
  deriving DecidableEq

structure Fmp4Sample where
  data : Bytes
  timestamp : Nat
  duration : Nat
  isSync : Bool
  deriving DecidableEq

structure Fmp4Muxer where
  videoTimescale : UInt32
  videoCodec : Option CodecId
  audioCodec : Option CodecId
  videoConfig : Option Bytes
  audioConfig : Option Bytes
  videoSamples : List Fmp4Sample
  audioSamples : List Fmp4Sample
  baseTimestamp : Option UInt32
  segmentSeq : Nat
  segmentStartTime : Nat
  totalDuration : Nat
  deriving DecidableEq

def Fmp4Muxer.new (videoTimescale : UInt32) : Fmp4Muxer :=
  ⟨videoTimescale, none, none, none, none, [], [], none, 0, 0, 0⟩

def width : Nat := 640

def height : Nat := 480

def audioSampleRate : Nat := 44100

def audioChannels : Nat := 2

/-! ## Frames -/

variable (m : Fmp4Muxer)
  (frame : MediaFrame)

/-- The configuration that `push_frame` keeps. -/
def Fmp4Muxer.pushConfig : Fmp4Muxer :=
  match frame.frameType with
  | .video =>
    match videoDecoderConfig frame with
    | .error _ => m
    | .ok config => { m with videoCodec := some frame.codec, videoConfig := some config }
  | .audio =>
    match if frame.codec = .aac then aacAudioSpecificConfig frame else .ok frame.data with
    | .error _ => m
    | .ok config => { m with audioCodec := some frame.codec, audioConfig := some config }
  | .metadata => m

/-- What a sample frame carries. -/
def samplePayload : Except Error Bytes :=
  match frame.frameType with
  | .video => videoSampleLengthPrefixed frame
  | .audio => if frame.codec = .aac then aacRawPayload frame else .ok frame.data
  | .metadata => .ok frame.data

/-- The duration of every sample, in ticks of the video track. -/
def Fmp4Muxer.sampleDuration : Nat := m.videoTimescale.toNat / 25

def Fmp4Muxer.pushSample : Fmp4Muxer :=
  let relTs := frame.timestamp.toNat - (m.baseTimestamp.getD 0).toNat
  match samplePayload frame with
  | .error _ => m
  | .ok data =>
    let sample : Fmp4Sample := ⟨data, relTs, m.sampleDuration, frame.keyFrame⟩
    let m :=
      match frame.frameType with
      | .video => { m with videoSamples := m.videoSamples ++ [sample] }
      | .audio => { m with audioSamples := m.audioSamples ++ [sample] }
      | .metadata => m
    let stop := relTs * m.videoTimescale.toNat / 1000 + m.sampleDuration
    { m with totalDuration := max m.totalDuration stop }

def Fmp4Muxer.pushFrame : Fmp4Muxer :=
  let m := { m with baseTimestamp := m.baseTimestamp.or (some frame.timestamp) }
  if frame.configFrame || isConfigFrame frame then m.pushConfig frame else m.pushSample frame

/-! ## Sample entries -/

variable (config : Bytes)

/-- A configuration record, without an FLV header in front of it. -/
def recordOf : Bytes :=
  if config.head? = some 1 then config else if 5 ≤ config.length then config.drop 5 else config

/-- The fixed part of a video sample entry. -/
def visualEntry (width height : Nat) : Bytes :=
  replicate 6 0 ++ be16 1 ++ be16 0 ++ be16 0 ++ replicate 12 0 ++ be16 width ++ be16 height ++
    be32 0x00480000 ++ be32 0x00480000 ++ be32 0 ++ be16 1 ++ replicate 32 0 ++ be16 24 ++
    be16 0xFFFF

def buildAvc1Entry (width height : Nat) : Bytes :=
  box (tag 'a' 'v' 'c' '1') (visualEntry width height ++ box (tag 'a' 'v' 'c' 'C')
    (recordOf config))

def buildHvc1Entry (width height : Nat) : Bytes :=
  box (tag 'h' 'v' 'c' '1') (visualEntry width height ++ box (tag 'h' 'v' 'c' 'C')
    (recordOf config))

/-- An AAC configuration, without an FLV header in front of it. -/
def aacConfigOf : Bytes :=
  if 2 < config.length ∧ config.head? = some 0xAF then config.drop 2 else config

/-- The body of the `esds` box; the lengths of the outer descriptors are fixed. -/
def esdsData (aacCfg : Bytes) : Bytes :=
  be32 0 ++ [0x03, 0x19] ++ be16 1 ++ [0x00] ++ [0x04, 0x11, 0x40, 0x15] ++ replicate 3 0 ++
    be32 0x0001F400 ++ be32 0x0001F400 ++ [0x05, UInt8.ofNat aacCfg.length] ++ aacCfg ++
    [0x06, 0x01, 0x02]

/-- The fixed part of an audio sample entry. -/
def audioEntry (sampleRate channels : Nat) : Bytes :=
  replicate 6 0 ++ be16 1 ++ replicate 8 0 ++ be16 channels ++ be16 16 ++ be16 0 ++ be16 0 ++
    be32 (sampleRate * 65536)

def buildMp4aEntry (sampleRate channels : Nat) : Bytes :=
  box (tag 'm' 'p' '4' 'a')
    (audioEntry sampleRate channels ++ box (tag 'e' 's' 'd' 's') (esdsData (aacConfigOf config)))

/-- The name of the compressor. -/
def vpCoding : Bytes := [0x56, 0x50, 0x20, 0x43, 0x6F, 0x64, 0x69, 0x6E, 0x67] ++ replicate 23 0

def buildVpEntry (fourcc config : Bytes) (width height : Nat) : Bytes :=
  box fourcc (replicate 6 0 ++ be16 1 ++ be16 0 ++ be16 0 ++
    [0x67, 0x6F, 0x6F, 0x67, 0x6C, 0x65, 0, 0] ++
    be16 width ++ be16 height ++ be32 0x00480000 ++ be32 0x00480000 ++ be32 0 ++ be16 1 ++
    vpCoding ++ be16 24 ++ be16 0xFFFF ++ box (tag 'v' 'p' 'c' 'C') config)

/-- The sample entry that `write_trak` puts into `stsd`. -/
def sampleEntry (codec : CodecId) (config : Bytes) (width height timescale : Nat) : Bytes :=
  match codec with
  | .h264 => buildAvc1Entry config width height
  | .h265 => buildHvc1Entry config width height
  | .aac => buildMp4aEntry config timescale audioChannels
  | .vp8 => buildVpEntry (tag 'v' 'p' '0' '8') config width height
  | .vp9 => buildVpEntry (tag 'v' 'p' '0' '9') config width height
  | .av1 => buildVpEntry (tag 'a' 'v' '0' '1') config width height
  | _ => []

/-! ## The init segment -/

def ftypData (videoCodec : Option CodecId) : Bytes :=
  (if videoCodec = some .h265 then tag 'i' 's' 'o' '6' else tag 'i' 's' 'o' 'm') ++ be32 0x200 ++
    (tag 'i' 's' 'o' '6' ++ tag 'm' 'p' '4' '1' ++ tag 'c' 'm' 'f' 'c')

def mvhdData : Bytes :=
  be32 0 ++ be32 0 ++ be32 0 ++ be32 1000 ++ be32 0 ++ be32 0x00010000 ++ be16 0x0100 ++ be16 0 ++
    replicate 8 0 ++ unityMatrix ++ replicate 24 0 ++ be32 2

def tkhdData (trackId width height : Nat) (isVideo : Bool) : Bytes :=
  be32 7 ++ be32 0 ++ be32 0 ++ be32 trackId ++ be32 0 ++ be32 0 ++ replicate 8 0 ++ be16 0 ++
    be16 0 ++
    be16 (if isVideo then 0 else 0x0100) ++ be16 0 ++ unityMatrix ++ be32 (width * 65536) ++
    be32 (height * 65536)

def mdhdData (timescale : Nat) : Bytes :=
  be32 0 ++ be32 0 ++ be32 0 ++ be32 timescale ++ be32 0 ++ be16 0x55C4 ++ be16 0

/-- The name `zlmediakit-rs`. -/
def handlerName : Bytes :=
  [0x7A, 0x6C, 0x6D, 0x65, 0x64, 0x69, 0x61, 0x6B, 0x69, 0x74, 0x2D, 0x72, 0x73]

def hdlrData (isVideo : Bool) : Bytes :=
  be32 0 ++ be32 0 ++ (if isVideo then tag 'v' 'i' 'd' 'e' else tag 's' 'o' 'u' 'n') ++
    replicate 12 0 ++ handlerName ++ [0]

/-- The boxes of `stbl`: the tables are empty, the samples come in fragments. -/
def stblBoxes (entry : Bytes) : List (Bytes × Bytes) :=
  [(tag 's' 't' 's' 'd', be32 0 ++ be32 1 ++ entry),
    (tag 's' 't' 't' 's', replicate 8 0), (tag 's' 't' 's' 'c', replicate 8 0),
    (tag 's' 't' 's' 'z', replicate 12 0), (tag 's' 't' 'c' 'o', replicate 8 0)]

def minfBoxes (isVideo : Bool) (entry : Bytes) : List (Bytes × Bytes) :=
  [if isVideo then (tag 'v' 'm' 'h' 'd', be32 1 ++ be16 0 ++ replicate 6 0)
    else (tag 's' 'm' 'h' 'd', be32 0 ++ be16 0 ++ be16 0),
    (tag 'd' 'i' 'n' 'f', box (tag 'd' 'r' 'e' 'f')
      (be32 0 ++ be32 1 ++ box (tag 'u' 'r' 'l' ' ') (be32 1))),
    (tag 's' 't' 'b' 'l', boxes (stblBoxes entry))]

def mdiaBoxes (isVideo : Bool) (timescale : Nat) (entry : Bytes) : List (Bytes × Bytes) :=
  [(tag 'm' 'd' 'h' 'd', mdhdData timescale),
    (tag 'h' 'd' 'l' 'r', hdlrData isVideo), (tag 'm' 'i' 'n' 'f', boxes (minfBoxes isVideo entry))]

/-- The boxes of the `trak` that `write_trak` writes. -/
def trakBoxes (trackId : Nat) (codec : CodecId) (config : Bytes) (width height timescale : Nat) :
    List (Bytes × Bytes) :=
  let isVideo := decide (codec = .h264 ∨ codec = .h265)
  [(tag 't' 'k' 'h' 'd', tkhdData trackId width height isVideo),
    (tag 'm' 'd' 'i' 'a',
      boxes (mdiaBoxes isVideo timescale (sampleEntry codec config width height timescale)))]

def writeTrak (trackId : Nat) (codec : CodecId) (config : Bytes) (width height timescale : Nat) :
    Bytes × Bytes :=
  (tag 't' 'r' 'a' 'k', boxes (trakBoxes trackId codec config width height timescale))

def buildTrex (trackId : Nat) : Bytes :=
  box (tag 't' 'r' 'e' 'x') (be32 0 ++ be32 trackId ++ be32 1 ++ be32 0 ++ be32 0 ++ be32 0)

/-- The boxes of `moov`: a track is written when its codec and its configuration are known. -/
def Fmp4Muxer.moovBoxes : List (Bytes × Bytes) :=
  let mvex := (if m.videoCodec.isSome then buildTrex 1 else []) ++
    (if m.audioCodec.isSome then buildTrex 2 else [])
  [(tag 'm' 'v' 'h' 'd', mvhdData)] ++
    (match m.videoCodec, m.videoConfig with
      | some codec, some config => [writeTrak 1 codec config width height m.videoTimescale.toNat]
      | _, _ => []) ++
    (match m.audioCodec, m.audioConfig with
      | some codec, some config => [writeTrak 2 codec config 0 0 audioSampleRate]
      | _, _ => []) ++
    (if mvex.isEmpty then [] else [(tag 'm' 'v' 'e' 'x', mvex)])

def Fmp4Muxer.buildInitSegment : Bytes :=
  boxes [(tag 'f' 't' 'y' 'p', ftypData m.videoCodec), (tag 'm' 'o' 'o' 'v', boxes m.moovBoxes)]

def Fmp4Muxer.initSegment : Fmp4Segment := ⟨true, 0, m.buildInitSegment, 0, 0⟩

/-! ## Media segments -/

def trunEntry (s : Fmp4Sample) : Bytes :=
  be32 s.duration ++ (be32 s.data.length ++ be32 (if s.isSync then 0x02000000 else 0x01010000))

def trafBoxes (trackId startTime : Nat) (samples : List Fmp4Sample) (dataOffset : Nat) :
    List (Bytes × Bytes) :=
  [(tag 't' 'f' 'h' 'd', be32 0x020000 ++ be32 trackId),
    (tag 't' 'f' 'd' 't', be32 0x01000000 ++ be64 startTime), (tag 't' 'r' 'u' 'n', be32 0x000701 ++
      (be32 samples.length ++ (be32 dataOffset ++ samples.flatMap trunEntry)))]

def buildTraf (trackId startTime : Nat) (samples : List Fmp4Sample) (dataOffset : Nat) :
    Bytes × Bytes :=
  (tag 't' 'r' 'a' 'f', boxes (trafBoxes trackId startTime samples dataOffset))

variable (seq startTime : Nat)
  (video audio : List Fmp4Sample)

/-- The boxes of `moof`: a track without samples has no `traf`. -/
def moofBoxes (mdatDataOffset : Nat) : List (Bytes × Bytes) :=
  let videoSize := (video.map (·.data.length)).sum
  [(tag 'm' 'f' 'h' 'd', be32 0 ++ be32 seq)] ++
    (if video.isEmpty then [] else [buildTraf 1 startTime video mdatDataOffset]) ++
    (if audio.isEmpty then [] else [buildTraf 2 startTime audio (mdatDataOffset + videoSize)])

def buildMoof (mdatDataOffset : Nat) : Bytes :=
  box (tag 'm' 'o' 'o' 'f') (boxes (moofBoxes seq startTime video audio mdatDataOffset))

def buildMdat : Bytes := video.flatMap (·.data) ++ audio.flatMap (·.data)

def stypData : Bytes := tag 'm' 's' 'd' 'h' ++ tag 'm' 's' 'i' 'x' ++ tag 'i' 's' 'o' '6' ++
  tag 'c' 'm' 'f' 'c'

/-- `build_media_segment`: the `moof` is built twice, since the samples lie behind it. -/
def buildMediaSegment : Bytes :=
  let provisionalMoof := buildMoof seq startTime video audio 0
  box (tag 's' 't' 'y' 'p') stypData ++
    (buildMoof seq startTime video audio (provisionalMoof.length + 8) ++
      box (tag 'm' 'd' 'a' 't') (buildMdat video audio))

/-- `flush_segment`: the segment, if there is a sample, and the muxer behind it. -/
def Fmp4Muxer.flushSegment : Option Fmp4Segment × Fmp4Muxer :=
  if m.videoSamples.isEmpty ∧ m.audioSamples.isEmpty then (none, m)
  else
    (some
      { isInit := false
        sequence := m.segmentSeq
        data := buildMediaSegment m.segmentSeq m.segmentStartTime m.videoSamples m.audioSamples
        startTime := m.segmentStartTime
        duration := m.totalDuration - m.segmentStartTime },
      { m with
        segmentSeq := m.segmentSeq + 1
        segmentStartTime := m.totalDuration
        videoSamples := []
        audioSamples := [] })

end MediaKit.Fmp4
