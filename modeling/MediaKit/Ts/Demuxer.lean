import MediaKit.Core.Frame
import MediaKit.Lib.Reader

/-!
# The transport stream demuxer

`crates/srt/src/server.rs`: `demux_ts_packets` reads packets of 188 bytes, follows the tables
to the video and the audio stream, collects the payloads of a PES packet, and publishes it
as a frame when the next one begins or the stream is flushed. `TsStreamDemuxer` cuts a
byte stream into packets and resynchronises on the sync byte.

Mirroring notes vs the Rust source:
  * The frames handed to `publish_and_cache` are returned.
  * Positions in a packet or a table are what is left from them on.
  * `TsStreamDemuxer::feed` is the loop of a reader, whose rounds skip to a sync byte or take a
    packet. -/

namespace MediaKit.Ts

open Lib MediaKit.Core

def tsSync : UInt8 := 0x47

def pidPat : UInt16 := 0x0000

def pidDefaultAudio : UInt16 := 0x1100

structure TsContext where
  videoPid : Option UInt16
  videoCodec : Option CodecId
  audioPid : Option UInt16
  pmtPid : Option UInt16
  videoAccum : Bytes
  audioAccum : Bytes
  videoPts : Option UInt64
  videoDts : Option UInt64
  audioPts : Option UInt64
  audioDts : Option UInt64
  deriving DecidableEq

def TsContext.new : TsContext := ⟨none, none, none, none, [], [], none, none, none, none⟩

/-- The context with the time stamp that frames without one get. -/
structure TsState where
  context : TsContext
  timestamp : UInt32
  deriving DecidableEq

/-- Thirteen bits of a PID. -/
def pidOf (high low : UInt8) : UInt16 := ((high.toUInt16 &&& 0x1F) <<< 8) ||| low.toUInt16

/-- Twelve bits of a length. -/
def lengthOf (high low : UInt8) : Nat := (((high.toUInt16 &&& 0x0F) <<< 8) ||| low.toUInt16).toNat

/-! ## Tables -/

def parsePat (payload : Bytes) (ctx : TsContext) : TsContext :=
  if payload.length < 12 then ctx
  else
    let patStart := 1 + (payload.getD 0 0).toNat
    if payload.length < patStart + 4 then ctx
    else
      let programOffset := patStart + 8
      if payload.length < programOffset + 4 then ctx
      else if ofBe ((payload.drop programOffset).take 2) = 0 then ctx
      else
        { ctx with
          pmtPid := some (pidOf (payload.getD (programOffset + 2) 0)
            (payload.getD (programOffset + 3) 0))
          videoPid := ctx.videoPid.or (some 0x0100)
          audioPid := ctx.audioPid.or (some pidDefaultAudio) }

/-- What an entry of a program map says. -/
def pmtEntry (ctx : TsContext) (streamType : UInt8) (pid : UInt16) : TsContext :=
  if streamType = 0x1B then { ctx with videoPid := some pid, videoCodec := some .h264 }
  else if streamType = 0x24 then { ctx with videoPid := some pid, videoCodec := some .h265 }
  else if streamType = 0x0F ∨ streamType = 0x11 then { ctx with audioPid := some pid }
  else ctx

/-- The loop over the entries. It goes on to the end of the payload. -/
def pmtEntries : Nat → Bytes → TsContext → TsContext
  | 0, _, ctx => ctx
  | fuel + 1, data, ctx =>
    if data.length < 5 then ctx
    else
      pmtEntries fuel (data.drop (5 + lengthOf (data.getD 3 0) (data.getD 4 0)))
        (pmtEntry ctx (data.getD 0 0) (pidOf (data.getD 1 0) (data.getD 2 0)))

def parsePmt (payload : Bytes) (ctx : TsContext) : TsContext :=
  if payload.length < 12 then ctx
  else
    let pmtStart := 1 + (payload.getD 0 0).toNat
    if payload.length < pmtStart + 7 then ctx
    else
      let pcrPidOffset := pmtStart + 8
      if payload.length < pcrPidOffset + 5 then ctx
      else
        let infoLen := lengthOf (payload.getD (pcrPidOffset + 2) 0)
          (payload.getD (pcrPidOffset + 3) 0)
        pmtEntries payload.length (payload.drop (pcrPidOffset + 4 + infoLen)) ctx

/-! ## PES payloads -/

structure PesPayload where
  data : Bytes
  pts : Option UInt64
  dts : Option UInt64
  deriving DecidableEq

/-- `parse_pes_timestamp` of `payload.get(i..i + 5)`. -/
def parsePesTimestamp (payload : Bytes) (i : Nat) : Option UInt64 :=
  if payload.length < i + 5 then none
  else
    let b := fun k => (payload.getD (i + k) 0).toUInt64
    some ((((b 0 >>> 1) &&& 0x07) <<< 30) ||| (b 1 <<< 22) ||| (((b 2 >>> 1) &&& 0x7F) <<< 15) |||
      (b 3 <<< 7) ||| ((b 4 >>> 1) &&& 0x7F))

def extractPesPayload (payload : Bytes) (unitStart : Bool) : Option PesPayload :=
  if !unitStart then some ⟨payload, none, none⟩
  else if payload.length < 9 then none
  else if payload.take 3 ≠ [0, 0, 1] then some ⟨payload, none, none⟩
  else
    let flags := (payload.getD 7 0 >>> 6) &&& 0x03
    let dataStart := 9 + (payload.getD 8 0).toNat
    if payload.length < dataStart then none
    else if flags = 0x02 then
      (parsePesTimestamp payload 9).map fun pts => ⟨payload.drop dataStart, some pts, none⟩
    else if flags = 0x03 then do
      let pts ← parsePesTimestamp payload 9
      let dts ← parsePesTimestamp payload 14
      return ⟨payload.drop dataStart, some pts, some dts⟩
    else some ⟨payload.drop dataStart, none, none⟩

/-! ## Frames -/

/-- A codec by the first byte of a NAL unit. -/
def codecOfNal (b : UInt8) : CodecId :=
  let nal5 := b &&& 0x1F
  let nal6 := (b >>> 1) &&& 0x3F
  if 32 ≤ nal6 ∧ nal6 ≤ 34 then .h265
  else if nal5 = 5 ∨ nal5 = 7 ∨ nal5 = 8 then .h264
  else if 16 ≤ nal6 ∧ nal6 ≤ 21 then .h265
  else .h264

/-- The codec at the first start code of the given form. -/
def detectAt (code : Bytes) : Bytes → Option CodecId
  | [] => none
  | x :: rest =>
    if (x :: rest).take code.length = code then
      match (x :: rest).drop code.length with
      | b :: _ => some (codecOfNal b)
      | [] => some .h264
    else detectAt code rest

variable (data : Bytes)

def detectCodec : CodecId :=
  ((detectAt [0, 0, 0, 1] data).or (detectAt [0, 0, 1] data)).getD (.unknown 0)

/-- The first window of the given size that begins with a start code passes the test. -/
def firstWindow (size : Nat) (test : Bytes → Bool) : Bytes → Bool
  | [] => false
  | x :: rest =>
    if (x :: rest).length < size then false
    else if (x :: rest).take 3 = [0, 0, 1] ∨ (x :: rest).take 4 = [0, 0, 0, 1] then test (x :: rest)
    else firstWindow size test rest

def isKeyframe (codec : CodecId) : Bool :=
  match codec with
  | .h264 =>
    firstWindow 5 (fun w =>
      let nalType := (if w.getD 2 0 = 1 then w.getD 3 0 else w.getD 4 0) &&& 0x1F
      nalType = 5 || nalType = 7) data
  | .h265 =>
    firstWindow 4 (fun w =>
      let nalType := (w.getD 3 0 >>> 1) &&& 0x3F
      decide (16 ≤ nalType ∧ nalType ≤ 21)) data
  | _ => true

/-- `saturating_mul(1000) / 90_000`. -/
def clockToMs (value : UInt64) : UInt64 :=
  UInt64.ofNat (min (value.toNat * 1000) (2 ^ 64 - 1) / 90000)

/-- `media_timestamps`: the time stamp for the next frame without one, and those of this one. -/
def mediaTimestamps (pts dts : Option UInt64) (fallback : UInt32) :
    UInt32 × UInt32 × UInt64 × UInt64 :=
  match pts.map clockToMs, (dts.or pts).map clockToMs with
  | some ptsMs, some dtsMs => (dtsMs.toUInt32, dtsMs.toUInt32, ptsMs, dtsMs)
  | _, _ => (fallback + 40, fallback, fallback.toUInt64, fallback.toUInt64)

def publishVideo (declaredCodec : Option CodecId) (pts dts : Option UInt64)
    (fallback : UInt32) : UInt32 × List MediaFrame :=
  if data.length < 4 then (fallback, [])
  else
    let codec := declaredCodec.getD (detectCodec data)
    let (fallback, timestamp, ptsMs, dtsMs) := mediaTimestamps pts dts fallback
    (fallback, [(MediaFrame.newVideo 0 codec timestamp ptsMs dtsMs data
      (isKeyframe data codec)).withPayloadFormat .annexB])

def publishAudio (pts dts : Option UInt64) (fallback : UInt32) : UInt32 × List MediaFrame :=
  if data.length < 7 then (fallback, [])
  else if data.getD 0 0 = 0xFF ∧ data.getD 1 0 &&& 0xF0 = 0xF0 then
    let (fallback, timestamp, ptsMs, dtsMs) := mediaTimestamps pts dts fallback
    (fallback, [(MediaFrame.newAudio 0 .aac timestamp ptsMs dtsMs data).withPayloadFormat .adts])
  else (fallback, [])

/-! ## Packets -/

variable (s : TsState)

/-- The payload of a packet for the video stream. -/
def videoPayload (payload : Bytes) (unitStart : Bool) : TsState × List MediaFrame :=
  let ctx := s.context
  match extractPesPayload payload unitStart with
  | none => (s, [])
  | some pes =>
    if unitStart then
      let (timestamp, frames) :=
        if ctx.videoAccum ≠ [] then
          publishVideo ctx.videoAccum ctx.videoCodec ctx.videoPts ctx.videoDts s.timestamp
        else (s.timestamp, [])
      (⟨{ ctx with videoAccum := pes.data, videoPts := pes.pts, videoDts := pes.dts.or pes.pts },
        timestamp⟩, frames)
    else (⟨{ ctx with videoAccum := ctx.videoAccum ++ pes.data }, s.timestamp⟩, [])

/-- The payload of a packet for the audio stream. -/
def audioPayload (payload : Bytes) (unitStart : Bool) : TsState × List MediaFrame :=
  let ctx := s.context
  match extractPesPayload payload unitStart with
  | none => (s, [])
  | some pes =>
    if unitStart then
      let (timestamp, frames) :=
        if ctx.audioAccum ≠ [] then publishAudio ctx.audioAccum ctx.audioPts ctx.audioDts
          s.timestamp
        else (s.timestamp, [])
      (⟨{ ctx with audioAccum := pes.data, audioPts := pes.pts, audioDts := pes.dts.or pes.pts },
        timestamp⟩, frames)
    else (⟨{ ctx with audioAccum := ctx.audioAccum ++ pes.data }, s.timestamp⟩, [])

/-- The tables that a packet may carry. -/
def readTables (pid : UInt16) (unitStart : Bool) (payload : Bytes) (ctx : TsContext) : TsContext :=
  let ctx := if pid = pidPat ∧ unitStart then parsePat payload ctx else ctx
  let isPmt :=
    match ctx.pmtPid with
    | none => unitStart && decide (3 < payload.length) && payload.getD 1 0 = 0x02
    | some ppid => pid = ppid
  if isPmt then parsePmt payload ctx else ctx

/-- The payload of a packet. -/
def demuxPayload (pid : UInt16) (unitStart : Bool) (payload : Bytes) : TsState × List MediaFrame :=
  let s := { s with context := readTables pid unitStart payload s.context }
  if pid = s.context.videoPid.getD 0x0100 ∧ payload ≠ [] then videoPayload s payload unitStart
  else if pid = s.context.audioPid.getD pidDefaultAudio ∧ payload ≠ [] then
    audioPayload s payload unitStart
  else (s, [])

/-- One packet of 188 bytes. -/
def demuxTsPacket (packet : Bytes) : TsState × List MediaFrame :=
  let pid := pidOf (packet.getD 1 0) (packet.getD 2 0)
  let unitStart := packet.getD 1 0 &&& 0x40 ≠ 0
  let adaptation := (packet.getD 3 0 >>> 4) &&& 0x03
  let payloadOffset :=
    if adaptation = 0x02 ∨ adaptation = 0x03 then 4 + ((packet.getD 4 0).toNat + 1) else 4
  if 188 < payloadOffset + 4 then (s, [])
  else demuxPayload s pid unitStart ((packet.take 188).drop payloadOffset)

/-- `demux_ts_packets`: packets as long as they begin with the sync byte. -/
def demuxTsPackets : Nat → TsState → Bytes → TsState × List MediaFrame
  | 0, s, _ => (s, [])
  | fuel + 1, s, data =>
    if data.length < 188 ∨ data.getD 0 0 ≠ tsSync then (s, [])
    else
      let first := demuxTsPacket s data
      let rest := demuxTsPackets fuel first.1 (data.drop 188)
      (rest.1, first.2 ++ rest.2)

def flushTsContext : TsState × List MediaFrame :=
  let ctx := s.context
  let video :=
    if ctx.videoAccum ≠ [] then
      publishVideo ctx.videoAccum ctx.videoCodec ctx.videoPts ctx.videoDts s.timestamp
    else (s.timestamp, [])
  let audio :=
    if ctx.audioAccum ≠ [] then publishAudio ctx.audioAccum ctx.audioPts ctx.audioDts video.1
    else (video.1, [])
  (⟨{ ctx with videoAccum := [], audioAccum := [] }, audio.1⟩, video.2 ++ audio.2)

/-! ## Streams -/

/-- A round of `feed`: a packet, or the bytes in front of the next sync byte. -/
def tsNext (buf : Bytes) : Attempt TsState UInt8 MediaFrame :=
  if buf.length < 188 then .wait
  else if buf.getD 0 0 ≠ tsSync then
    match buf.findIdx? (· == tsSync) with
    | some offset => .take s [] (buf.drop offset)
    | none => .take s [] []
  else
    let out := demuxTsPackets 2 s (buf.take 188)
    .take out.1 out.2 (buf.drop 188)

structure TsStreamDemuxer where
  pending : Bytes
  state : TsState
  deriving DecidableEq

namespace TsStreamDemuxer

def new : TsStreamDemuxer := ⟨[], ⟨.new, 0⟩⟩

def feed (d : TsStreamDemuxer) (data : Bytes) : TsStreamDemuxer × List MediaFrame :=
  match Lib.feed tsNext d.state (d.pending ++ data) with
  | some (state, frames, pending) => (⟨pending, state⟩, frames)
  | none => (d, [])

def flush (d : TsStreamDemuxer) : TsStreamDemuxer × List MediaFrame :=
  let out := flushTsContext d.state
  (⟨[], out.1⟩, out.2)

/-- Some calls of `feed`, and `flush` at the end. -/
def feedAllAndFlush (d : TsStreamDemuxer) : List Bytes → List MediaFrame
  | [] => d.flush.2
  | piece :: pieces =>
    let first := d.feed piece
    first.2 ++ feedAllAndFlush first.1 pieces

end TsStreamDemuxer

end MediaKit.Ts
