import Mathlib.Data.List.MinMax
import MediaKit.Core.Frame

/-!
# The RTP receiver

`crates/srt/src/gb28181/rtp_server.rs`: `RtpStreamReceiver::ingest_packet`. A packet
goes through `RtpReorderBuffer`, which releases packets in the order of their sequence
numbers; every released packet goes to `handle_rtp`, which drops those of an unexpected
SSRC and publishes the frames that the payload completes.

Mirroring notes vs the Rust source:
  * The map of pending packets is an association list with one entry for each sequence
    number. `timed_out` (some pending packet is 50 ms old) is an argument of `push`.
  * The loop of `drain_ready` removes a pending packet in each round, so their number
    bounds the rounds.
  * `PsDemuxer` with `extract_nalus_from_pes`, and `demux_ts_packets`, are parameters
    (`Demuxers`) over states of their own.
  * Counters and the time of the last packet are left out; nothing that is published
    depends on them.
-/

namespace MediaKit.Gb28181

open Lib MediaKit.Core

inductive RtpPayloadType where
  | auto | ps | ts | h264 | h265 | aac | g711a | g711u | raw
  deriving DecidableEq

def RtpPayloadType.clockRate : RtpPayloadType → Nat
  | .auto | .ps | .ts | .h264 | .h265 => 90000
  | .aac => 48000
  | .g711a | .g711u => 8000
  | .raw => 90000

/-! ## The reorder buffer -/

structure RtpReorderBuffer where
  expected : Option UInt16
  pending : List (UInt16 × Bytes)
  window : UInt16
  deriving DecidableEq

namespace RtpReorderBuffer

def default : RtpReorderBuffer := ⟨none, [], 64⟩

/-- The sequence number of a packet. -/
def sequence (packet : Bytes) : UInt16 := UInt16.ofNat (ofBe ((packet.drop 2).take 2))

variable (b : RtpReorderBuffer)

def contains (seq : UInt16) : Bool := b.pending.any fun p => p.1 == seq

/-- `drain_ready` from the number `expected` on, with at most `fuel` rounds. -/
def drainReady (window : UInt16) : Nat → UInt16 → List (UInt16 × Bytes) →
    RtpReorderBuffer × List Bytes
  | 0, expected, pending => (⟨some expected, pending, window⟩, [])
  | fuel + 1, expected, pending =>
    match pending.find? fun p => p.1 == expected with
    | none => (⟨some expected, pending, window⟩, [])
    | some p =>
      let rest := drainReady window fuel (expected + 1) (pending.filter fun q => q.1 != expected)
      (rest.1, p.2 :: rest.2)

/-- The pending sequence number that follows `expected` most closely. -/
def nearest (expected : UInt16) (pending : List (UInt16 × Bytes)) : Option UInt16 :=
  List.argmin (fun seq => (seq - expected).toNat)
    ((pending.map Prod.fst).filter fun seq => seq - expected < 0x8000)

def skipGap (expected : UInt16) : RtpReorderBuffer × List Bytes :=
  match nearest expected b.pending with
  | none => (b, [])
  | some seq => drainReady b.window b.pending.length seq b.pending

/-- `push`: the buffer and the packets that are released. -/
def push (timedOut : Bool) (packet : Bytes) : RtpReorderBuffer × List Bytes :=
  if packet.length < 4 then (b, [])
  else
    let seq := sequence packet
    match b.expected with
    | none => ({ b with expected := some (seq + 1) }, [packet])
    | some expected =>
      let distance := seq - expected
      if distance = 0 then
        let rest := drainReady b.window b.pending.length (expected + 1) b.pending
        (rest.1, packet :: rest.2)
      else if 0x8000 ≤ distance ∨ b.contains seq then (b, [])
      else
        let b := { b with pending := (seq, packet) :: b.pending }
        if b.window ≤ distance ∨ timedOut ∨ b.window.toNat ≤ b.pending.length then
          b.skipGap expected
        else (b, [])

end RtpReorderBuffer

/-! ## Payloads -/

structure PesPacket where
  streamId : UInt8
  data : Bytes
  pts : Option UInt64
  deriving DecidableEq

/-- The demultiplexers, with the states `P` and `T` that they keep. -/
structure Demuxers (P T : Type) where
  psNew : P
  /-- `push`, and then what `next_pes` returns until it is exhausted, each packet with
  its `stream_type`. -/
  psPush : P → Bytes → P × List (PesPacket × Option UInt8)
  /-- `extract_nalus_from_pes`. -/
  nalus : Bytes → List Bytes
  tsNew : T
  /-- `demux_ts_packets`: context, timestamp and published frames. -/
  tsDemux : T → UInt32 → Bytes → T × UInt32 × List MediaFrame

/-- `RtpStreamReceiver`, as far as packets are concerned. -/
structure RtpStreamReceiver where
  payload : RtpPayloadType
  expectedSsrc : Option UInt32
  deriving DecidableEq

/-- `audio_codec`, as `new` sets it. -/
def RtpStreamReceiver.audioCodec (r : RtpStreamReceiver) : CodecId :=
  if r.payload = .g711u then .g711u else .g711a

/-- What `handle_rtp` changes, apart from the reorder buffer. -/
structure Depacketizer (P T : Type) where
  psDemuxer : P
  tsContext : T
  tsTimestamp : UInt32
  detectedPayload : Option RtpPayloadType
  fuBuf : Bytes
  videoCodec : CodecId
  deriving DecidableEq

def startCode : Bytes := [0x00, 0x00, 0x00, 0x01]

/-- `publish_video`: the codec as the NAL unit shows it, and the frame. -/
def publishVideo (videoCodec : CodecId) (ptsMs : UInt64) (nalu : Bytes) :
    CodecId × List MediaFrame :=
  if nalu.length < 5 then (videoCodec, [])
  else
    let header := nalu.getD 4 0
    let h264 := header &&& 0x1F
    let h265 := (header >>> 1) &&& 0x3F
    let codec :=
      if h264 = 7 ∨ h264 = 8 ∨ 1 ≤ h264 ∧ h264 ≤ 5 then .h264
      else if h265 = 32 ∨ h265 = 33 ∨ h265 = 34 then .h265
      else videoCodec
    let key := h264 = 5 ∨ 19 ≤ h265 ∧ h265 ≤ 21
    (codec, [(MediaFrame.newVideo 0 codec ptsMs.toUInt32 ptsMs ptsMs nalu key).withPayloadFormat
      .annexB])

/-- `publish_video` for one NAL unit after the other. -/
def publishVideos (ptsMs : UInt64) : CodecId → List Bytes → CodecId × List MediaFrame
  | codec, [] => (codec, [])
  | codec, nalu :: nalus =>
    let one := publishVideo codec ptsMs nalu
    let rest := publishVideos ptsMs one.1 nalus
    (rest.1, one.2 ++ rest.2)

def publishAudio (data : Bytes) (ptsMs : UInt64) (codec : CodecId) : MediaFrame :=
  let format :=
    if codec = .aac then
      if 2 ≤ data.length ∧ data.getD 0 0 = 0xFF ∧ data.getD 1 0 &&& 0xF0 = 0xF0 then .adts
      else .aacRaw
    else .raw
  (MediaFrame.newAudio 1 codec ptsMs.toUInt32 ptsMs ptsMs data).withPayloadFormat format

/-- A time in ticks of a clock, in milliseconds. -/
def toMs (ticks : UInt32) (clock : Nat) : UInt64 := UInt64.ofNat (ticks.toNat * 1000 / clock)

def detectPayloadType (payload : Bytes) (payloadType : UInt8) : RtpPayloadType :=
  if payloadType = 0 then .g711u
  else if payloadType = 8 then .g711a
  else if payload.take 3 = [0x00, 0x00, 0x01] ∧ 4 ≤ payload.length ∧
      0xBA ≤ payload.getD 3 0 ∧ payload.getD 3 0 ≤ 0xBF then .ps
  else if 188 ≤ payload.length ∧ payload.getD 0 0 = 0x47 ∧
      (payload.length < 376 ∨ payload.getD 188 0 = 0x47) then .ts
  else
    let h265 := (payload.getD 0 0 >>> 1) &&& 0x3F
    if 2 ≤ payload.length ∧ (32 ≤ h265 ∧ h265 ≤ 34 ∨ h265 = 48 ∨ h265 = 49) then .h265
    else .h264

/-- The units of an aggregation packet: a length of two octets and as many octets. -/
def aggregated : Nat → Bytes → List Bytes
  | 0, _ => []
  | fuel + 1, rest =>
    if rest.length < 2 then []
    else
      let len := ofBe (rest.take 2)
      let rest := rest.drop 2
      if rest.length < len then []
      else (startCode ++ rest.take len) :: aggregated fuel (rest.drop len)

/-- The access units behind the AU headers of `publish_aac_rtp`; a bad size ends them. -/
def accessUnits : Bytes → Bytes → List Bytes
  | h₀ :: h₁ :: headers, data =>
    let auSize := ofBe [h₀, h₁] >>> 3
    if auSize = 0 ∨ data.length < auSize then []
    else data.take auSize :: accessUnits headers (data.drop auSize)
  | _, _ => []

/-- `publish_aac_rtp`: the units that are published. -/
def aacUnits (payload : Bytes) : List Bytes :=
  let headerBits := ofBe (payload.take 2)
  let headerBytes := (headerBits + 7) / 8
  if 4 ≤ payload.length ∧ 16 ≤ headerBits ∧ headerBits % 16 = 0 ∧
      2 + headerBytes ≤ payload.length then
    accessUnits ((payload.drop 2).take headerBytes) (payload.drop (2 + headerBytes))
  else [payload]

/-! ## `handle_rtp` -/

section Receiver

variable {P T : Type} (demux : Demuxers P T) (r : RtpStreamReceiver)

def rtpTsToMs (rtpTs : UInt32) : UInt64 := toMs rtpTs r.payload.clockRate

namespace Depacketizer

def new : Depacketizer P T := ⟨demux.psNew, demux.tsNew, 0, none, [], .h264⟩

variable (d : Depacketizer P T)

/-- The frames of some NAL units, with the codec that they leave. -/
def withVideos (ptsMs : UInt64) (nalus : List Bytes) : Depacketizer P T × List MediaFrame :=
  let out := publishVideos ptsMs d.videoCodec nalus
  ({ d with videoCodec := out.1 }, out.2)

def handleH265 (payload : Bytes) (rtpTs : UInt32) : Depacketizer P T × List MediaFrame :=
  if payload.length < 2 then (d, [])
  else
    let nalType := (payload.getD 0 0 >>> 1) &&& 0x3F
    if nalType = 49 then
      if payload.length < 3 then (d, [])
      else
        let fuHeader := payload.getD 2 0
        let fuBuf :=
          if fuHeader &&& 0x80 ≠ 0 then
            startCode ++
              [(payload.getD 0 0 &&& 0x81) ||| ((fuHeader &&& 0x3F) <<< (1 : UInt8)),
                payload.getD 1 0]
          else d.fuBuf
        let fuBuf := if fuBuf.isEmpty then fuBuf else fuBuf ++ payload.drop 3
        if fuHeader &&& 0x40 ≠ 0 ∧ ¬ fuBuf.isEmpty then
          withVideos { d with fuBuf := [] } (rtpTsToMs r rtpTs) [fuBuf]
        else ({ d with fuBuf := fuBuf }, [])
    else if nalType = 48 then
      withVideos d (rtpTsToMs r rtpTs) (aggregated payload.length (payload.drop 2))
    else withVideos d (rtpTsToMs r rtpTs) [startCode ++ payload]

def handleH26x (payload : Bytes) (rtpTs : UInt32) (payloadType : RtpPayloadType) :
    Depacketizer P T × List MediaFrame :=
  if payload.isEmpty then (d, [])
  else if payloadType = .h265 then
    handleH265 r { d with videoCodec := .h265 } payload rtpTs
  else
    let nalHeader := payload.getD 0 0
    let nalType := nalHeader &&& 0x1F
    if nalType = 28 then
      if payload.length < 2 then (d, [])
      else
        let fuHdr := payload.getD 1 0
        let fuBuf :=
          if fuHdr &&& 0x80 ≠ 0 then startCode ++ [(nalHeader &&& 0xE0) ||| (fuHdr &&& 0x1F)]
          else d.fuBuf
        let fuBuf := fuBuf ++ payload.drop 2
        if fuHdr &&& 0x40 ≠ 0 then
          withVideos { d with fuBuf := [] } (rtpTsToMs r rtpTs) [fuBuf]
        else ({ d with fuBuf := fuBuf }, [])
    else if nalType = 24 then
      withVideos d (rtpTsToMs r rtpTs) (aggregated payload.length (payload.drop 1))
    else withVideos d (rtpTsToMs r rtpTs) [startCode ++ payload]

def psAudioCodec : Option UInt8 → Option CodecId
  | some 0x0F | some 0x11 => some .aac
  | some 0x90 => some .g711a
  | some 0x91 => some .g711u
  | some 0x04 => some .mp2a
  | some 0x03 => some .mp3
  | _ => none

def processPes (rtpTs : UInt32) (pes : PesPacket) (streamType : Option UInt8) :
    Depacketizer P T × List MediaFrame :=
  let ptsMs := match pes.pts with
    | some pts => pts * 1000 / 90000
    | none => rtpTsToMs r rtpTs
  if pes.streamId &&& 0xF0 = 0xE0 then
    let codec :=
      if streamType = some 0x24 then .h265
      else if streamType = some 0x1B then .h264
      else d.videoCodec
    withVideos { d with videoCodec := codec } ptsMs (demux.nalus pes.data)
  else if pes.streamId &&& 0xF0 = 0xC0 ∨ pes.streamId = 0xBD then
    (d, [publishAudio pes.data ptsMs ((psAudioCodec streamType).getD r.audioCodec)])
  else (d, [])

def processAll (rtpTs : UInt32) :
    Depacketizer P T → List (PesPacket × Option UInt8) → Depacketizer P T × List MediaFrame
  | d, [] => (d, [])
  | d, (pes, streamType) :: rest =>
    let one := processPes demux r d rtpTs pes streamType
    let more := processAll rtpTs one.1 rest
    (more.1, one.2 ++ more.2)

/-- The match of `handle_rtp` on the payload type. -/
def handlePayload (effective : RtpPayloadType) (payload : Bytes) (rtpTs : UInt32) :
    Depacketizer P T × List MediaFrame :=
  match effective with
  | .auto => (d, [])  -- unreachable: the type is resolved before
  | .ps =>
    let out := demux.psPush d.psDemuxer payload
    processAll demux r rtpTs { d with psDemuxer := out.1 } out.2
  | .ts =>
    let out := demux.tsDemux d.tsContext d.tsTimestamp payload
    ({ d with tsContext := out.1, tsTimestamp := out.2.1 }, out.2.2)
  | .h264 | .h265 | .raw => handleH26x r d payload rtpTs effective
  | .aac => (d, (aacUnits payload).map fun unit =>
    publishAudio unit (toMs rtpTs effective.clockRate) .aac)
  | .g711a => (d, [publishAudio payload (toMs rtpTs effective.clockRate) .g711a])
  | .g711u => (d, [publishAudio payload (toMs rtpTs effective.clockRate) .g711u])

end Depacketizer

/-- The synchronisation source of a packet. -/
def ssrc (packet : Bytes) : UInt32 := UInt32.ofNat (ofBe ((packet.drop 8).take 4))

/-- The payload of a packet, without the contributing sources, the extension header and
the padding. -/
def payloadOf (packet : Bytes) : Bytes :=
  let b₀ := packet.getD 0 0
  let off := 12 + (b₀ &&& 0x0F).toNat * 4
  let off :=
    if (b₀ >>> 4) &&& 0x1 = 1 ∧ off + 4 ≤ packet.length then
      off + 4 + ofBe ((packet.drop (off + 2)).take 2) * 4
    else off
  let payload := packet.drop off
  let padLen := (payload.getLast?.getD 0).toNat
  if (b₀ >>> 5) &&& 0x1 = 1 ∧ padLen ≤ payload.length then payload.take (payload.length - padLen)
  else payload

def handleRtp (d : Depacketizer P T) (packet : Bytes) : Depacketizer P T × List MediaFrame :=
  if packet.length < 12 then (d, [])
  else if packet.getD 0 0 >>> 6 ≠ 2 then (d, [])
  else if (r.expectedSsrc.any fun exp => exp != ssrc packet) then (d, [])
  else
    let payload := payloadOf packet
    if payload.isEmpty then (d, [])
    else
      let rtpTs := UInt32.ofNat (ofBe ((packet.drop 4).take 4))
      if r.payload = .auto then
        let detected := d.detectedPayload.getD
          (detectPayloadType payload (packet.getD 1 0 &&& 0x7F))
        Depacketizer.handlePayload demux r { d with detectedPayload := some detected } detected
          payload rtpTs
      else Depacketizer.handlePayload demux r d r.payload payload rtpTs

def handleAll (d : Depacketizer P T) : List Bytes → Depacketizer P T × List MediaFrame
  | [] => (d, [])
  | packet :: packets =>
    let one := handleRtp demux r d packet
    let rest := handleAll one.1 packets
    (rest.1, one.2 ++ rest.2)

/-! ## `ingest_packet` -/

structure RtpIngestState (P T : Type) where
  reorder : RtpReorderBuffer
  depacketizer : Depacketizer P T
  deriving DecidableEq

def RtpIngestState.default : RtpIngestState P T := ⟨.default, .new demux⟩

/-- `ingest_packet`, while no pending packet times out: the state and the frames that
are published. -/
def ingestPacket (s : RtpIngestState P T) (packet : Bytes) : RtpIngestState P T × List MediaFrame :=
  let released := s.reorder.push false packet
  let out := handleAll demux r s.depacketizer released.2
  (⟨released.1, out.1⟩, out.2)

end Receiver

end MediaKit.Gb28181
