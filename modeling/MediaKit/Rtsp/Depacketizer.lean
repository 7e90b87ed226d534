import MediaKit.Rtsp.Sdp

/-!
# The depacketizer of a publisher

`crates/rtsp/src/session.rs`: `RtpDepacketizer` turns the RTP packets of a publisher into
frames. NAL units arrive alone, several in one packet, or in fragments, and are queued until
the packet with the marker completes the frame. AAC access units are listed at the front of
their packet.

Mirroring notes vs the Rust source:
  * A panic is `none`. The frames that a step publishes before it panics are lost in the model with
    it.
  * Frames are returned instead of published.
  * `&data[i..]` is the slice up to the end. An index behind a test for emptiness is a pattern.
  * The loops over a packet run on its length, which bounds their rounds.
-/

namespace MediaKit.Rtsp.Push

open Lib MediaKit.Core

structure RtpDepacketizer where
  videoPt : UInt8
  audioPt : UInt8
  videoChan : UInt8
  audioChan : UInt8
  audioSampleRate : UInt32
  forceMedia : Option FrameType
  videoCodec : CodecId
  sps : Option Bytes
  pps : Option Bytes
  vps : Option Bytes
  audioConfig : Option Bytes
  configSent : Bool
  audioConfigSent : Bool
  pendingNalus : List Bytes
  fuBuf : Bytes
  fuActive : Bool
  pendingVideoTs : UInt32
  videoKey : Bool
  deriving DecidableEq

/-! ## Records -/

def buildAvccConfig (sps pps : Bytes) : Bytes :=
  [0x17, 0x00, 0, 0, 0, 0x01, sps.getD 1 0x42, sps.getD 2 0x00, sps.getD 3 0x1E, 0xFF, 0xE1] ++
    be16 sps.length ++ sps ++ [0x01] ++ be16 pps.length ++ pps

/-- NAL units behind their lengths. -/
def lengthPrefixed (nalus : List Bytes) : Bytes := nalus.flatMap fun n => be32 n.length ++ n

def buildAvccFrame (nalus : List Bytes) (key : Bool) : Bytes :=
  [if key then 0x17 else 0x27, 0x01, 0, 0, 0] ++ lengthPrefixed nalus

def buildHevcConfigRecord (vps sps pps : Bytes) : Option Bytes := do
  let profile ←
    if 8 ≤ sps.length then do
      let general ← sps[2]?
      let compat ← slice sps 3 7
      let level ← sps[7]?
      pure ([general] ++ compat ++ List.replicate 6 0 ++ [level])
    else pure ([0x20] ++ List.replicate 4 0 ++ List.replicate 6 0 ++ [0x5D])
  let arrays := [((32 : UInt8), vps), (33, sps), (34, pps)].flatMap fun p =>
    [p.1, 0, 1] ++ be16 p.2.length ++ p.2
  return [0x01] ++ profile ++ [0, 0, 0, 1, 0, 0, 0, 0, 0x0F, 0x03] ++ arrays

namespace RtpDepacketizer

/-- `new`, with what the parser found. -/
def new (info : SdpInfo) (videoChan audioChan : UInt8) (forceMedia : Option FrameType) :
    RtpDepacketizer where
  videoPt := info.videoPt
  audioPt := info.audioPt
  videoChan := videoChan
  audioChan := audioChan
  audioSampleRate := info.audioSampleRate
  forceMedia := forceMedia
  videoCodec := info.videoCodec
  sps := info.sps
  pps := info.pps
  vps := info.vps
  audioConfig := info.audioConfig
  configSent := false
  audioConfigSent := false
  pendingNalus := []
  fuBuf := []
  fuActive := false
  pendingVideoTs := 0
  videoKey := false

/-! ## NAL units -/

variable (d : RtpDepacketizer)

def observeNalu : Bytes → RtpDepacketizer
  | [] => d
  | b :: r =>
    let t := b &&& 0x1F
    if t = 5 then { d with videoKey := true }
    else if t = 7 then { d with sps := some (b :: r) }
    else if t = 8 then { d with pps := some (b :: r) }
    else d

def observeHevcNalu : Bytes → RtpDepacketizer
  | b :: b' :: r =>
    let t := (b >>> 1) &&& 0x3F
    if t = 32 then { d with vps := some (b :: b' :: r) }
    else if t = 33 then { d with sps := some (b :: b' :: r) }
    else if t = 34 then { d with pps := some (b :: b' :: r) }
    else if 19 ≤ t ∧ t ≤ 21 then { d with videoKey := true }
    else d
  | _ => d

def queue (nalu : Bytes) : RtpDepacketizer := { d with pendingNalus := d.pendingNalus ++ [nalu] }

/-- The units of an aggregation packet from `pos` on. -/
def unitsAt (data : Bytes) : Nat → Nat → Option (List Bytes)
  | 0, _ => some []
  | fuel + 1, pos => do
    let start ← addUsize pos 2
    if data.length < start then return []
    else
      let high ← data[pos]?
      let low ← data[pos + 1]?
      let stop ← addUsize start (ofBe [high, low])
      if data.length < stop then return []
      else
        let nalu ← slice data start stop
        let nalus ← unitsAt data fuel stop
        return nalu :: nalus

/-- The first fragment of a NAL unit replaces what was collected. -/
def startFragment (start : Bool) (header : Bytes) : RtpDepacketizer :=
  if start then { d with fuBuf := header, fuActive := true } else d

/-- The last fragment completes the NAL unit. -/
def takeFragments : RtpDepacketizer := { d with fuBuf := [], fuActive := false }

variable (data : Bytes)

def handleHevcVideoRtp : Option RtpDepacketizer :=
  if data.length < 2 then some d
  else do
    let first ← data[0]?
    let nalType := (first >>> 1) &&& 0x3F
    if nalType = 48 then
      let nalus ← unitsAt data data.length 2
      return nalus.foldl (fun d nalu => (d.observeHevcNalu nalu).queue nalu) d
    else if nalType = 49 then
      if data.length < 3 then return d
      else
        let fuHeader ← data[2]?
        let second ← data[1]?
        let stop := fuHeader &&& 0x40 ≠ 0
        let fuType := fuHeader &&& 0x3F
        let d := d.startFragment (fuHeader &&& 0x80 ≠ 0)
          [(first &&& (0x81 : UInt8)) ||| (fuType <<< (1 : UInt8)), second]
        if !d.fuActive then return d
        else
          let part ← slice data 3 data.length
          let d := { d with fuBuf := d.fuBuf ++ part }
          if stop then return (d.takeFragments.observeHevcNalu d.fuBuf).queue d.fuBuf
          else return d
    else return (d.observeHevcNalu data).queue data

/-- `handle_video_rtp` for H.264, up to the test of the marker, and whether it comes there. -/
def handleH264 : Option (RtpDepacketizer × Bool) := do
  let first ← data[0]?
  let naluType := first &&& 0x1F
  if 1 ≤ naluType ∧ naluType ≤ 23 then return ((d.observeNalu data).queue data, true)
  else if naluType = 24 then
    let nalus ← unitsAt data data.length 1
    return (nalus.foldl (fun d nalu => (d.observeNalu nalu).queue nalu) d, true)
  else if naluType = 28 then
    if data.length < 2 then return (d, false)
    else
      let fuHeader ← data[1]?
      let stop := fuHeader &&& 0x40 ≠ 0
      let nalType := fuHeader &&& 0x1F
      let d := d.startFragment (fuHeader &&& 0x80 ≠ 0) [(first &&& 0xE0) ||| nalType]
      if !d.fuActive then return (d, false)
      else
        let part ← slice data 2 data.length
        let d := { d with fuBuf := d.fuBuf ++ part }
        if stop then
          return ({ d.takeFragments with videoKey := d.videoKey || nalType = 5 }.queue d.fuBuf,
            true)
        else return (d, true)
  else return (d, true)

/-! ## Video frames -/

/-- The queued units without parameter sets, which the first byte tells. -/
def frameNalus (isParam : UInt8 → Bool) : List Bytes → Option (List Bytes)
  | [] => some []
  | n :: ns => do
    let first ← n[0]?
    let rest ← frameNalus isParam ns
    return if isParam first then rest else n :: rest

/-- A video frame of this stream. -/
def videoFrame (codec : CodecId) (data : Bytes) (key : Bool) : MediaFrame :=
  let ms := d.pendingVideoTs / 90
  (MediaFrame.newVideo 0 codec ms ms.toUInt64 ms.toUInt64 data key).withPayloadFormat .flv

/-- The decoder configuration, in front of the first frame behind all parameter sets. -/
def videoConfig : Option (RtpDepacketizer × List MediaFrame) :=
  let publish := fun codec data =>
    ({ d with configSent := true }, [{ d.videoFrame codec data false with configFrame := true }])
  if d.configSent then some (d, [])
  else if d.videoCodec = .h265 then
    match d.vps, d.sps, d.pps with
    | some vps, some sps, some pps =>
      (buildHevcConfigRecord vps sps pps).map fun record =>
        publish .h265 ([0x1C, 0x00, 0, 0, 0] ++ record)
    | _, _, _ => some (d, [])
  else
    match d.sps, d.pps with
    | some sps, some pps => some (publish .h264 (buildAvccConfig sps pps))
    | _, _ => some (d, [])

def emitVideoFrame : Option (RtpDepacketizer × List MediaFrame) :=
  if d.pendingNalus = [] then some (d, [])
  else do
    let (d, config) ← d.videoConfig
    if d.videoCodec = .h265 then
      let nalus ← frameNalus (fun b => ([32, 33, 34] : Bytes).contains ((b >>> 1) &&& 0x3F))
        d.pendingNalus
      let frame := d.videoFrame .h265
        ([if d.videoKey then 0x1C else 0x2C, 0x01, 0, 0, 0] ++ lengthPrefixed nalus) d.videoKey
      return ({ d with pendingNalus := [], videoKey := false },
        config ++ if nalus = [] then [] else [frame])
    else
      let nalus ← frameNalus (fun b => ([7, 8] : Bytes).contains (b &&& 0x1F)) d.pendingNalus
      let frame := d.videoFrame .h264 (buildAvccFrame nalus d.videoKey) d.videoKey
      return ({ d with pendingNalus := [], videoKey := false },
        config ++ if nalus = [] then [] else [frame])

def handleVideoRtp (marker : Bool) (ts : UInt32) : Option (RtpDepacketizer × List MediaFrame) :=
  if data = [] then some (d, [])
  else do
    let d := { d with pendingVideoTs := ts }
    if d.videoCodec = .h265 then
      let d ← d.handleHevcVideoRtp data
      if marker then d.emitVideoFrame else return (d, [])
    else
      let (d, through) ← d.handleH264 data
      if through && marker then d.emitVideoFrame else return (d, [])

/-! ## Audio frames -/

/-- The sizes of the access units, and the position behind them. -/
def auSizes (data : Bytes) : Nat → Nat → Option (List Nat × Nat)
  | 0, pos => some ([], pos)
  | n + 1, pos => do
    let next ← addUsize pos 2
    if data.length < next then return ([], pos)
    else
      let high ← data[pos]?
      let low ← data[pos + 1]?
      let (sizes, last) ← auSizes data n next
      return (((ofBe [high, low] >>> 3) &&& 0x1FFF) :: sizes, last)

def audioFrame (ms : UInt32) (data : Bytes) : MediaFrame :=
  (MediaFrame.newAudio 1 .aac ms ms.toUInt64 ms.toUInt64 data).withPayloadFormat .flv

/-- A frame for each access unit, `frameMs` apart. -/
def auFrames (data : Bytes) (frameMs : Nat) : List Nat → Nat → UInt32 → Option (List MediaFrame)
  | [], _, _ => some []
  | size :: sizes, pos, ms => do
    let stop ← addUsize pos size
    if data.length < stop then return []
    else
      let raw ← slice data pos stop
      let next := UInt32.ofNat (min (ms.toNat + frameMs % 2 ^ 32) (2 ^ 32 - 1))
      let frames ← auFrames data frameMs sizes stop next
      return audioFrame ms ([0xAF, 0x01] ++ raw) :: frames

/-- The decoder configuration, once. -/
def sendAudioConfig : RtpDepacketizer × List MediaFrame :=
  match d.audioConfigSent, d.audioConfig with
  | false, some config =>
    ({ d with audioConfigSent := true },
      [{ audioFrame 0 ([0xAF, 0x00] ++ config) with configFrame := true }])
  | _, _ => (d, [])

def handleAudioRtp (ts : UInt32) : Option (RtpDepacketizer × List MediaFrame) :=
  if data.length < 2 then some (d, [])
  else do
    let high ← data[0]?
    let low ← data[1]?
    let (sizes, pos) ← auSizes data (ofBe [high, low] / 16) 2
    let (d, config) := d.sendAudioConfig
    let frameMs ← divCeilChecked (1024 * 1000) d.audioSampleRate.toNat
    let scaled ← mulU64 ts.toNat 1000
    let ms ← divChecked scaled d.audioSampleRate.toNat
    let frames ← auFrames data frameMs sizes pos (UInt32.ofNat ms)
    return (d, config ++ frames)

/-! ## Packets -/

/-- The track that a packet belongs to. -/
def mediaOf (pt channel : UInt8) : Option FrameType :=
  match d.forceMedia with
  | some media => some media
  | none =>
    if pt = d.videoPt ∨ channel = d.videoChan then some .video
    else if pt = d.audioPt ∨ channel = d.audioChan then some .audio
    else none

def handleRtp (channel : UInt8) (payload : Bytes) : Option (RtpDepacketizer × List MediaFrame) :=
  if payload.length < 12 then some (d, [])
  else do
    let second ← payload[1]?
    match d.mediaOf (second &&& 0x7F) channel with
    | none => return (d, [])
    | some media =>
      let first ← payload[0]?
      let headerLen ← addUsize 12 (4 * (first &&& 0x0F).toNat)
      let least ← addUsize headerLen 1
      if payload.length < least then return (d, [])
      else
        let ts ← slice payload 4 8
        let data ← slice payload headerLen payload.length
        match media with
        | .video => d.handleVideoRtp data (second &&& 0x80 ≠ 0) (UInt32.ofNat (ofBe ts))
        | .audio => d.handleAudioRtp data (UInt32.ofNat (ofBe ts))
        | .metadata => return (d, [])

end RtpDepacketizer

end MediaKit.Rtsp.Push
