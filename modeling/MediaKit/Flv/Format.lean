import MediaKit.Core.FlvPayload

/-!
# FLV files

`crates/flv/src/muxer.rs` and `crates/flv/src/demuxer.rs`: the header, the tags that the muxer
writes for frames, and the reader that takes frames out of a buffer of tags.

Mirroring notes vs the Rust source:
  * `header_written` is left out: nothing reads it. So is `write_metadata`, whose values are texts
    of the caller.
  * A round of the loop in `parse_tag` is `tagStep`. A round that goes on takes at least four
    octets, so that the length of the buffer bounds the rounds. -/

namespace MediaKit.Flv

open MediaKit.Core Lib

/-! ## The muxer -/

/-- `write_header`: the header and the size of no previous tag. -/
def writeHeader : Bytes := [0x46, 0x4C, 0x56, 0x01, 0x05] ++ be32 9 ++ be32 0

def tagTypeOf : FrameType → UInt8
  | .video => 0x09
  | .audio => 0x08
  | .metadata => 0x12

/-- A tag; the octet of the high timestamp bits is zero. -/
def tagBytes (tagType : UInt8) (timestamp : UInt32) (payload : Bytes) : Bytes :=
  [tagType] ++ be24 payload.length ++ be24 (timestamp.toNat % 2 ^ 31) ++ [0, 0, 0, 0] ++ payload ++
    be32 (11 + payload.length)

def writeMetadataTag (frame : MediaFrame) : Bytes := tagBytes 0x12 frame.timestamp frame.data

def writeTag (frame : MediaFrame) : Except Error Bytes :=
  if frame.frameType = .metadata then .ok (writeMetadataTag frame)
  else do
    let payload ← flvPayload frame
    return tagBytes (tagTypeOf frame.frameType) frame.timestamp payload

/-! ## The demuxer -/

structure FlvDemuxer where
  buffer : Bytes
  deriving DecidableEq

namespace FlvDemuxer

def new : FlvDemuxer := ⟨[]⟩

def feed (d : FlvDemuxer) (data : Bytes) : FlvDemuxer := ⟨d.buffer ++ data⟩

/-- `parse_header`: whether the file has video. -/
def parseHeader (d : FlvDemuxer) : Option Bool × FlvDemuxer :=
  if d.buffer.length < 13 then (none, d)
  else if d.buffer.take 3 ≠ [0x46, 0x4C, 0x56] then (none, d)
  else
    let flags := d.buffer.getD 4 0
    let headerSize := ofBe ((d.buffer.drop 5).take 4)
    if headerSize < 9 ∨ d.buffer.length < headerSize then (none, d)
    else (some (decide (flags &&& 0x01 ≠ 0)), ⟨d.buffer.drop headerSize⟩)

end FlvDemuxer

variable (timestamp : UInt32)

/-- The presentation time of a tag. -/
def tagPts (compositionTime : Int) : UInt64 :=
  if compositionTime < 0 then UInt64.ofNat (timestamp.toNat - compositionTime.natAbs)
  else UInt64.ofNat (min (timestamp.toNat + compositionTime.natAbs) (2 ^ 64 - 1))

/-- The codec of a video tag. -/
def videoCodecOf (codecId : UInt8) : CodecId :=
  if codecId = 7 then .h264 else if codecId = 12 then .h265 else .unknown codecId.toUInt32

/-- The codec of an audio tag. -/
def audioCodecOf (soundFormat : UInt8) : CodecId :=
  if soundFormat = 10 then .aac
  else if soundFormat = 2 then .mp3
  else if soundFormat = 7 then .g711a
  else if soundFormat = 8 then .g711u
  else .unknown soundFormat.toUInt32

/-- The frame of a video tag, if it is not empty. -/
def videoTag (payload : Bytes) : Option MediaFrame :=
  match payload with
  | [] => none
  | byte :: _ =>
    let frameType := (byte >>> 4) &&& 0x0F
    let codec := videoCodecOf (byte &&& 0x0F)
    let packetType := payload[1]?.map fun (value : UInt8) => value &&& 0x0F
    let composition := if 5 ≤ payload.length ∧ packetType = some 1 then
        signedI24 (payload.getD 2 0) (payload.getD 3 0) (payload.getD 4 0)
      else 0
    let frame :=
      (MediaFrame.newVideo 0 codec timestamp (tagPts timestamp composition)
        timestamp.toUInt64 payload
      (decide (frameType = 1))).withPayloadFormat .flv
    some { frame with configFrame := decide (packetType = some 0) }

/-- The frame of an audio tag, if it is not empty. -/
def audioTag (payload : Bytes) : Option MediaFrame :=
  match payload with
  | [] => none
  | byte :: _ =>
    let codec := audioCodecOf ((byte >>> 4) &&& 0x0F)
    let frame := (MediaFrame.newAudio 1 codec timestamp timestamp.toUInt64 timestamp.toUInt64
      payload).withPayloadFormat .flv
    some { frame with configFrame := decide (codec = .aac ∧ payload[1]? = some 0) }

/-- The frame of a tag; other tags have none. -/
def tagFrame (tagType : UInt8) (timestamp : UInt32) (payload : Bytes) : Option MediaFrame :=
  if tagType = 0x09 then videoTag timestamp payload
  else if tagType = 0x08 then audioTag timestamp payload
  else none

/-- What a round of the loop in `parse_tag` does. -/
inductive TagStep where
  | stop
  | skip (rest : Bytes)
  | frame (frame : MediaFrame) (rest : Bytes)

def tagStep (buffer : Bytes) : TagStep :=
  let byte := fun i => buffer.getD i 0
  if buffer.length < 15 then .stop
  else if byte 0 = 0 ∧ byte 1 ||| byte 2 ||| byte 3 = 0 then .skip (buffer.drop 4)
  else
    let dataSize := ofBe [byte 1, byte 2, byte 3]
    let timestamp := UInt32.ofNat (ofBe [byte 7, byte 4, byte 5, byte 6])
    if buffer.length < 11 + dataSize + 4 then .stop
    else
      let payload := (buffer.drop 11).take dataSize
      let rest := buffer.drop (11 + dataSize + 4)
      match tagFrame (byte 0) timestamp payload with
      | some frame => .frame frame rest
      | none => .skip rest

/-- The loop of `parse_tag`. -/
def parseTagFrom : Nat → Bytes → Option MediaFrame × FlvDemuxer
  | 0, buffer => (none, ⟨buffer⟩)
  | fuel + 1, buffer =>
    match tagStep buffer with
    | .stop => (none, ⟨buffer⟩)
    | .skip rest => parseTagFrom fuel rest
    | .frame frame rest => (some frame, ⟨rest⟩)

def FlvDemuxer.parseTag (d : FlvDemuxer) : Option MediaFrame × FlvDemuxer :=
  parseTagFrom d.buffer.length d.buffer

end MediaKit.Flv
