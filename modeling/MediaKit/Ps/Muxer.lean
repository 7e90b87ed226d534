import MediaKit.Core.Payload
import MediaKit.Lib.Chunks

/-!
# The program stream muxer

`crates/core/src/ps.rs`: `PsMuxer` turns media frames into an MPEG-2 program stream. Every
frame becomes a pack header, the system header and the program stream map when these are
due, and then PES packets of at most `MAX_PES_PAYLOAD` bytes.

Mirroring notes vs the Rust source:
  * A track carries the proof that it is one of those `ps_track` makes, and a muxer the
    proof that its tracks are distinct; both hold of every muxer that can be built.
  * `mux_frame` changes the muxer even when it fails afterwards, so it returns the muxer
    beside the result.
  * A track description keeps the sample rate and the channels, which `new` reads.
-/

namespace MediaKit.Ps

open Lib MediaKit.Core List

def videoStreamId : UInt8 := 0xE0

def audioStreamId : UInt8 := 0xC0

def maxPesPayload : Nat := 65512

def ptsMask : UInt64 := ((1 : UInt64) <<< 33) - 1

/-- The streams that can be muxed, by `stream_type` and `stream_id`. -/
def psStreams : List (UInt8 × UInt8) :=
  [(0x1B, videoStreamId), (0x24, videoStreamId), (0x0F, audioStreamId), (0x90, audioStreamId),
    (0x91, audioStreamId), (0x04, audioStreamId), (0x03, audioStreamId)]

structure PsTrack where
  streamType : UInt8
  streamId : UInt8
  known : (streamType, streamId) ∈ psStreams
  deriving DecidableEq

structure AacConfig where
  profile : UInt8
  sampleRateIndex : UInt8
  channelConfig : UInt8
  deriving DecidableEq

structure PsMuxer where
  tracks : List PsTrack
  aacConfig : Option AacConfig
  mapPending : Bool
  distinct : tracks.Nodup

/-- Why a frame cannot be muxed. -/
inductive MuxError where
  | payload (e : Error)
  | text (text : String)
  deriving DecidableEq

/-- `TrackInfo`, as far as the muxer reads it. -/
inductive PsTrackInfo where
  | video (codec : CodecId)
  | audio (codec : CodecId) (sampleRate channels : UInt32)
  deriving DecidableEq

/-! ## Bits -/

structure BitWriter where
  bytes : Bytes
  current : UInt8
  used : Nat
  deriving DecidableEq

namespace BitWriter

def empty : BitWriter := ⟨[], 0, 0⟩

def pushBit (w : BitWriter) (bit : UInt8) : BitWriter :=
  let current := (w.current <<< 1) ||| bit
  if w.used + 1 = 8 then ⟨w.bytes ++ [current], 0, 0⟩ else ⟨w.bytes, current, w.used + 1⟩

/-- `push`: the low `bit_count` bits of the value, the highest one first. -/
def push (w : BitWriter) (value : UInt64) : Nat → BitWriter
  | 0 => w
  | shift + 1 => push (w.pushBit ((value >>> UInt64.ofNat shift).toUInt8 &&& 1)) value shift

def finish (w : BitWriter) : Bytes :=
  if w.used ≠ 0 then w.bytes ++ [w.current <<< UInt8.ofNat (8 - w.used)] else w.bytes

end BitWriter

/-! ## Headers -/

def timestamp90k (milliseconds : UInt64) : UInt64 := milliseconds * 90 &&& ptsMask

def packHeader (scr : UInt64) : Bytes :=
  let bits := BitWriter.empty
  let bits := bits.push 0b01 2
  let bits := bits.push (scr >>> 30) 3
  let bits := bits.push 1 1
  let bits := bits.push (scr >>> 15) 15
  let bits := bits.push 1 1
  let bits := bits.push scr 15
  let bits := bits.push 1 1
  let bits := bits.push 0 9
  let bits := bits.push 1 1
  let bits := bits.push 50000 22
  let bits := bits.push 1 1
  let bits := bits.push 1 1
  let bits := bits.push 0x1F 5
  let bits := bits.push 0 3
  [0, 0, 1, 0xBA] ++ bits.finish

/-- The entry of a track in the system header. -/
def systemHeaderTrack (bits : BitWriter) (track : PsTrack) : BitWriter :=
  let video := track.streamId &&& 0xF0 = 0xE0
  let bits := bits.push track.streamId.toUInt64 8
  let bits := bits.push 0b11 2
  let bits := bits.push (if video then 1 else 0) 1
  bits.push (if video then 512 else 32) 13

def systemHeader (tracks : List PsTrack) : Bytes :=
  let audioBound := min (tracks.filter fun track => track.streamId &&& 0xE0 = 0xC0).length 0x3F
  let videoBound := min (tracks.filter fun track => track.streamId &&& 0xF0 = 0xE0).length 0x1F
  let bits := BitWriter.empty
  let bits := bits.push 1 1
  let bits := bits.push 50000 22
  let bits := bits.push 1 1
  let bits := bits.push (UInt64.ofNat audioBound) 6
  let bits := bits.push 0 1
  let bits := bits.push 0 1
  let bits := bits.push 0 1
  let bits := bits.push 0 1
  let bits := bits.push 1 1
  let bits := bits.push (UInt64.ofNat videoBound) 5
  let bits := bits.push 0 1
  let bits := bits.push 0x7F 7
  let body := (tracks.foldl systemHeaderTrack bits).finish
  [0, 0, 1, 0xBB] ++ be16 body.length ++ body

def mpeg2Crc32 (data : Bytes) : UInt32 := crcMpeg2 data

def programStreamMap (tracks : List PsTrack) : Bytes :=
  let elementaryMap := tracks.flatMap fun track => [track.streamType, track.streamId] ++ be16 0
  let mapLength := 10 + elementaryMap.length
  let output := [0, 0, 1, 0xBC] ++ be16 mapLength ++ [0xE0, 0xFF] ++ be16 0 ++
    be16 elementaryMap.length ++ elementaryMap
  output ++ be32 (mpeg2Crc32 output).toNat

/-- `encode_timestamp`: 33 bits in five bytes. -/
def encodeTimestamp (first : UInt8) (value : UInt64) : Bytes :=
  let value := value &&& ptsMask
  [(first <<< 4) ||| (((value >>> 30).toUInt8 &&& 0x07) <<< 1) ||| 1,
    (value >>> 22).toUInt8, (((value >>> 15).toUInt8 &&& 0x7F) <<< 1) ||| 1, (value >>> 7).toUInt8,
    ((value.toUInt8 &&& 0x7F) <<< 1) ||| 1]

def pesPacket (streamId : UInt8) (pts dts : UInt64) (payload : Bytes) : Bytes :=
  let includeDts := pts ≠ dts
  let headerDataLength := if includeDts then 10 else 5
  let packetLength := 3 + headerDataLength + payload.length
  [0, 0, 1, streamId] ++ be16 packetLength ++
    [0x80, if includeDts then 0xC0 else 0x80, UInt8.ofNat headerDataLength] ++
    encodeTimestamp (if includeDts then 0x3 else 0x2) pts ++
    (if includeDts then encodeTimestamp 0x1 dts else []) ++ payload

/-! ## AAC and other audio -/

def parseAacConfig (data : Bytes) : Option AacConfig :=
  if data.length < 2 then none
  else
    let objectType := data.getD 0 0 >>> 3
    let sampleRateIndex := ((data.getD 0 0 &&& 0x07) <<< 1) ||| (data.getD 1 0 >>> 7)
    let channelConfig := (data.getD 1 0 >>> 3) &&& 0x0F
    if 0 < objectType ∧ sampleRateIndex < 13 then
      some ⟨min (objectType - 1) 3, sampleRateIndex, channelConfig⟩
    else none

def sampleRates : List UInt32 :=
  [96000, 88200, 64000, 48000, 44100, 32000, 24000, 22050, 16000, 12000, 11025, 8000, 7350]

def aacConfigFromTrack (sampleRate channels : UInt32) : Option AacConfig :=
  (sampleRates.findIdx? fun rate => rate == sampleRate).map fun index =>
    ⟨1, UInt8.ofNat index, UInt8.ofNat (min channels.toNat 7)⟩

def adtsHeader (config : AacConfig) (payloadLength : Nat) : Except MuxError Bytes :=
  let frameLength := payloadLength + 7
  if 0x1FFF < frameLength then
    .error (.text "AAC access unit is too large for an ADTS frame")
  else
    let channels := config.channelConfig
    .ok [0xFF, 0xF1,
      (config.profile <<< 6) ||| (config.sampleRateIndex <<< 2) ||| (channels >>> 2),
      ((channels &&& 0x03) <<< 6) ||| (UInt8.ofNat (frameLength >>> 11) &&& 0x03),
      UInt8.ofNat (frameLength >>> 3), (UInt8.ofNat (frameLength % 8) <<< 5) ||| 0x1F, 0xFC]

variable (frame : MediaFrame)

def rawAudioPayload : Bytes :=
  let header := frame.data.getD 0 0 >>> 4
  let flv := frame.payloadFormat = .flv ∨
    frame.payloadFormat = .unknown ∧ frame.data ≠ [] ∧ (header = 2 ∨ header = 7 ∨ header = 8)
  if flv ∧ frame.data ≠ [] then frame.data.drop 1 else frame.data

/-! ## The muxer -/

def psTrack (codec : CodecId) : Except MuxError PsTrack :=
  match codec with
  | .h264 => .ok ⟨0x1B, videoStreamId, by decide⟩
  | .h265 => .ok ⟨0x24, videoStreamId, by decide⟩
  | .aac => .ok ⟨0x0F, audioStreamId, by decide⟩
  | .g711a => .ok ⟨0x90, audioStreamId, by decide⟩
  | .g711u => .ok ⟨0x91, audioStreamId, by decide⟩
  | .mp2a => .ok ⟨0x04, audioStreamId, by decide⟩
  | .mp3 => .ok ⟨0x03, audioStreamId, by decide⟩
  | codec => .error (.text ("PS muxing codec " ++ codec.debug ++ " is not supported"))

namespace PsMuxer

variable (m : PsMuxer)

/-- A track that is not known yet is added. -/
def addTrack (track : PsTrack) : PsMuxer :=
  if h : track ∈ m.tracks then m
  else
    { m with
      tracks := m.tracks ++ [track]
      mapPending := true
      distinct := nodup_append.mpr ⟨m.distinct, pairwise_singleton _ track, by
        rintro t ht u hu rfl
        exact h (mem_singleton.mp hu ▸ ht)⟩ }

def addCodec (codec : CodecId) : PsMuxer :=
  match psTrack codec with
  | .ok track => m.addTrack track
  | .error _ => m

def new (tracks : List PsTrackInfo) : PsMuxer :=
  tracks.foldl (fun m track =>
    match track with
    | .video codec => m.addCodec codec
    | .audio codec sampleRate channels =>
      let m := m.addCodec codec
      if codec = .aac then { m with aacConfig := aacConfigFromTrack sampleRate channels } else m)
    ⟨[], none, true, nodup_nil⟩

def elementaryPayload : Except MuxError Bytes :=
  match frame.codec with
  | .h264 | .h265 =>
    (if frame.configFrame then videoConfigAnnexB frame else videoSampleAnnexB frame).mapError
    .payload
  | .aac => do
    let raw ← (aacRawPayload frame).mapError .payload
    match m.aacConfig with
    | none => .error (.text "AAC configuration is required for PS output")
    | some config => do
      let header ← adtsHeader config raw.length
      return header ++ raw
  | .g711a | .g711u | .mp3 | .mp2a => .ok (rawAudioPayload frame)
  | codec => .error (.text ("PS muxing codec " ++ codec.debug ++ " is not supported"))

/-- The headers in front of a frame's packets are due. -/
def mapDue : Bool := m.mapPending || decide (frame.frameType = .video) && frame.keyFrame

/-- The bytes of a frame with a payload. -/
def muxPayload (track : PsTrack) (frame : MediaFrame) (payload : Bytes) : Bytes :=
  packHeader (timestamp90k frame.dts) ++
    (if m.mapDue frame then systemHeader m.tracks ++ programStreamMap m.tracks else []) ++
    (chunks maxPesPayload payload).flatMap
      (pesPacket track.streamId (timestamp90k frame.pts) (timestamp90k frame.dts))

def muxFrame : PsMuxer × Except MuxError Bytes :=
  if frame.frameType = .metadata then (m, .ok [])
  else
    match psTrack frame.codec with
    | .error e => (m, .error e)
    | .ok track =>
      let m := m.addTrack track
      if frame.codec = .aac ∧ frame.configFrame then
        match aacAudioSpecificConfig frame with
        | .error e => (m, .error (.payload e))
        | .ok asc => ({ m with aacConfig := parseAacConfig asc }, .ok [])
      else
        match m.elementaryPayload frame with
        | .error e => (m, .error e)
        | .ok payload =>
          if payload.isEmpty then (m, .ok [])
          else
            ({ m with mapPending := if m.mapDue frame then false else m.mapPending },
              .ok (m.muxPayload track frame payload))

end PsMuxer

end MediaKit.Ps
