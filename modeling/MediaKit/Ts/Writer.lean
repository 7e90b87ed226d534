import MediaKit.Lib.Chunks

/-!
# The transport stream writer

`crates/hls/src/muxer.rs`, the part below the muxers: tables, PES packets with one time
stamp, and the packets of 188 bytes that these are cut into. A payload that does not fill
its packet stands behind an adaptation field of the missing length.

Mirroring notes vs the Rust source:
  * Every function returns the bytes that it appends to `out`.
  * The continuation packets carry the chunks of what the first one leaves over.
-/

namespace MediaKit.Ts

open Lib

def patPid : UInt16 := 0

def pmtPid : UInt16 := 4096

def videoPid : UInt16 := 256

def audioPid : UInt16 := 257

structure TsWriter where
  continuityVideo : UInt8
  continuityAudio : UInt8
  continuityPat : UInt8
  continuityPmt : UInt8
  pcr : UInt64
  deriving DecidableEq

namespace TsWriter

def new : TsWriter := ⟨0, 0, 0, 0, 0⟩

end TsWriter

def crc32 (data : Bytes) : UInt32 := crcMpeg2 data

/-- The four bytes at the front of a packet. -/
def packetHead (pid : UInt16) (start : Bool) (control continuity : UInt8) : Bytes :=
  [0x47, ((pid >>> 8).toUInt8 &&& 0x1F) ||| (if start then 0x40 else 0), pid.toUInt8,
    control ||| (continuity &&& 0x0F)]

/-- A packet is filled up with `0xFF`. -/
def fillPacket (head body : Bytes) : Bytes :=
  head ++ body.take 184 ++ List.replicate (184 - body.length) 0xFF

def nextContinuity (continuity : UInt8) : UInt8 := (continuity + 1) &&& 0x0F

def writeTsPacket (pid : UInt16) (payload : Bytes) (start : Bool) (continuity : UInt8) : Bytes :=
  fillPacket (packetHead pid start 0x10 continuity) payload

def writeTsPacketWith (pid : UInt16) (adaptation payload : Bytes) (start : Bool)
    (continuity : UInt8) : Bytes :=
  let control :=
    if adaptation ≠ [] ∧ payload ≠ [] then 0x30 else if adaptation ≠ [] then 0x20 else 0x10
  fillPacket (packetHead pid start control continuity) (adaptation ++ payload)

/-! ## Tables -/

/-- The program association section. -/
def patSection : Bytes := [0x00, 0xB0, 0x0D] ++ be16 0x0001 ++ [0xC1, 0x00, 0x00] ++ be16 0x0001 ++
  be16 (0xE000 ||| pmtPid.toNat)

/-- The program map section, for one video and one AAC stream. -/
def pmtSection (videoStreamType : UInt8) : Bytes :=
  [0x02, 0xB0, 0x17] ++ be16 0x0001 ++ [0xC1, 0x00, 0x00] ++ be16 (0xE000 ||| videoPid.toNat) ++
    be16 0xF000 ++ [videoStreamType] ++ be16 (0xE000 ||| videoPid.toNat) ++ be16 0xF000 ++
    [0x0F] ++ be16 (0xE000 ||| audioPid.toNat) ++ be16 0xF000

/-- A section behind its pointer field, with its checksum. -/
def sectionPayload (table : Bytes) : Bytes := [0x00] ++ table ++ be32 (crc32 table).toNat

variable (w : TsWriter)

def TsWriter.writePatPmt (videoStreamType : UInt8) : TsWriter × Bytes :=
  ({ w with
      continuityPat := nextContinuity w.continuityPat
      continuityPmt := nextContinuity w.continuityPmt },
    writeTsPacket patPid (sectionPayload patSection) true w.continuityPat ++
      writeTsPacket pmtPid (sectionPayload (pmtSection videoStreamType)) true w.continuityPmt)

/-! ## PES packets -/

def writePts (marker : UInt8) (pts : UInt64) : Bytes :=
  [marker ||| ((pts >>> 29).toUInt8 &&& 0x0E) ||| 0x01,
    ((pts >>> 22) &&& 0xFF).toUInt8, ((pts >>> 14) &&& 0xFE).toUInt8 ||| 0x01,
    ((pts >>> 7) &&& 0xFF).toUInt8, ((pts <<< 1) &&& 0xFE).toUInt8 ||| 0x01]

def buildDataPesRaw (streamId : UInt8) (data : Bytes) (timestamp : UInt32) : Bytes :=
  let totalPesLen := data.length + 5 + 3
  [0x00, 0x00, 0x01, streamId] ++ be16 totalPesLen ++ [0x84, 0x80, 5] ++
    writePts 0x21 (timestamp.toUInt64 * 90) ++ data

def writePcr (pcr : UInt64) : Bytes :=
  let base := pcr / 300
  let ext := (pcr % 300).toUInt16
  [(base >>> 25).toUInt8, (base >>> 17).toUInt8, (base >>> 9).toUInt8, (base >>> 1).toUInt8,
    ((base &&& 1).toUInt8 <<< 7) ||| 0x7E,
    ((ext >>> 8).toUInt8 &&& 0x01) ||| (ext &&& 0xFF).toUInt8]

/-- An adaptation field of `pad` bytes that only fills the packet; none if there is no room. -/
def padding (pad : Nat) : Bytes :=
  if pad = 0 then []
  else UInt8.ofNat (pad - 1) :: if 0 < pad - 1 then 0x00 :: List.replicate (pad - 2) 0xFF else []

/-- The adaptation field of the first packet. -/
def firstAdaptation (firstPad : Nat) (randAccess : Bool) (pcr : UInt64) : Bytes :=
  if randAccess ∧ 8 ≤ firstPad then
    [UInt8.ofNat (firstPad - 1), 0x50] ++ writePcr pcr ++ List.replicate (firstPad - 1 - 7) 0xFF
  else if 0 < firstPad then padding firstPad
  else if randAccess then [0x01, 0x40]
  else []

/-- The packets behind the first one. -/
def continuationPackets (pid : UInt16) : UInt8 → List Bytes → List Bytes
  | _, [] => []
  | continuity, chunk :: chunks =>
    writeTsPacketWith pid (padding (184 - chunk.length)) chunk false continuity ::
      continuationPackets pid (nextContinuity continuity) chunks

/-- `write_pes_to_ts`, packet by packet. -/
def writePesToTs (pid : UInt16) (pes : Bytes) (randAccess : Bool) (continuity : UInt8)
    (pcr : UInt64) : List Bytes :=
  let adapt := firstAdaptation (184 - pes.length) randAccess pcr
  let payloadLen := 184 - adapt.length
  writeTsPacketWith pid adapt (pes.take payloadLen) true continuity ::
    continuationPackets pid (nextContinuity continuity) (chunks 184 (pes.drop payloadLen))

/-- The streams that the writer has a counter for. -/
inductive TsStream where
  | video | audio
  deriving DecidableEq

def TsStream.pid : TsStream → UInt16
  | .video => videoPid
  | .audio => audioPid

namespace TsWriter

def continuityFor : TsStream → UInt8
  | .video => w.continuityVideo
  | .audio => w.continuityAudio

def setContinuity (stream : TsStream) (continuity : UInt8) : TsWriter :=
  match stream with
  | .video => { w with continuityVideo := continuity }
  | .audio => { w with continuityAudio := continuity }

/-- `write_pes`: the packets; each of them moves the counter of its stream. -/
def writePes (stream : TsStream) (pes : Bytes) (randAccess : Bool) (dtsMs : UInt64) :
    TsWriter × List Bytes :=
  let w := { w with pcr := dtsMs * 27000 }
  let packets := writePesToTs stream.pid pes randAccess (w.continuityFor stream) w.pcr
  (w.setContinuity stream (Nat.iterate nextContinuity packets.length (w.continuityFor stream)),
    packets)

end TsWriter

end MediaKit.Ts
