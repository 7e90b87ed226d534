import MediaKit.Lib.Bytes

/-!
# Media frames

`crates/core/src/media_frame.rs`: the frame that every protocol publishes into a
source, its codec and payload tags and the track descriptions.

`received_at` (a wall-clock instant that only statistics read) is left out, and
so are the width, height, frame rate and sample format of a track: no modelled
function reads them.
-/

namespace MediaKit.Core

open Lib

inductive CodecId where
  | h264 | h265 | aac | g711a | g711u | opus | mp3 | l16 | vp8 | vp9 | av1 | jpeg | mp2v | mp2a
  | unknown (n : UInt32)
  deriving DecidableEq

/-- The video codecs that have NAL units. -/
abbrev IsH26x (codec : CodecId) : Prop := codec = .h264 ∨ codec = .h265

inductive FrameType where
  | video | audio | metadata
  deriving DecidableEq

inductive PayloadFormat where
  | unknown | flv | avcc | hvcc | annexB | aacAudioSpecificConfig | aacRaw | adts | opus
    | raw | amf0
  deriving DecidableEq

/-- A track of a source, by kind and codec. -/
inductive TrackInfo where
  | video (codec : CodecId)
  | audio (codec : CodecId)
  deriving DecidableEq

structure MediaFrame where
  trackId : UInt32
  frameType : FrameType
  codec : CodecId
  timestamp : UInt32
  pts : UInt64
  dts : UInt64
  data : Bytes
  payloadFormat : PayloadFormat
  keyFrame : Bool
  configFrame : Bool
  deriving DecidableEq

namespace MediaFrame

def newVideo (trackId : UInt32) (codec : CodecId) (timestamp : UInt32) (pts dts : UInt64)
    (data : Bytes) (keyFrame : Bool) : MediaFrame :=
  ⟨trackId, .video, codec, timestamp, pts, dts, data, .unknown, keyFrame, false⟩

def newAudio (trackId : UInt32) (codec : CodecId) (timestamp : UInt32) (pts dts : UInt64)
    (data : Bytes) : MediaFrame :=
  ⟨trackId, .audio, codec, timestamp, pts, dts, data, .unknown, false, false⟩

def withPayloadFormat (f : MediaFrame) (payloadFormat : PayloadFormat) : MediaFrame :=
  { f with payloadFormat := payloadFormat }

end MediaFrame

/-- `gop_cache::is_config_frame`: a sequence header, by the first FLV bytes. -/
def isConfigFrame (frame : MediaFrame) : Bool :=
  let byte := fun i => frame.data.getD i 0
  if frame.frameType = .video ∧ 2 ≤ frame.data.length ∧ byte 0 &&& 0x0F = 7 then
    byte 1 &&& 0x0F = 0
  else if frame.frameType = .video ∧ 2 ≤ frame.data.length ∧ byte 0 &&& 0x0F = 12 ∧
      5 ≤ frame.data.length then
    byte 1 &&& 0x0F = 0
  else if frame.frameType = .audio ∧ 2 ≤ frame.data.length ∧ (byte 0 >>> 4) &&& 0x0F = 10 then
    byte 1 &&& 0x0F = 0
  else false

end MediaKit.Core
