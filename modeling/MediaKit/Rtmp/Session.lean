import MediaKit.Core.Frame
import MediaKit.Lib.Text
import MediaKit.Rtmp.Amf
import MediaKit.Rtmp.Message

/-!
# The RTMP session and the streams it touches

`crates/rtmp/src/session.rs`: `handle_message` with its commands, and `cleanup`.
The model keeps the four fields that decide which stream is meant (`source`,
`app`, `stream_name`, `is_publisher`) and logs everything that the session does to
sources and to the source manager (`SessionEffect`).

Mirroring notes vs the Rust source:
- What the session asks its surroundings for is the argument `env` of each step: the
  answers of the publish and play hooks and of `StreamAuth::check`, the source that
  `get_or_create` or `get_or_pull` returns, the tracks that a source has at that
  moment, and whether the peer still takes data. Nothing is assumed about them, so
  every state of the `MediaSourceManager` and every other session is covered.
- A source is the identity of its `Arc` (`SourceHandle`); two calls may return the
  same one.
- Replies to the peer are left out, and with them the fields that only they read
  (`stream_id`, the window sizes). A failed write ends the handling of a message
  early; this changes the fields or the log only in `handle_play`, in front of
  `get_or_pull`.
-/

namespace MediaKit.Rtmp

open Lib MediaKit.Core

/-- A source, as the pointer that a session holds. -/
abbrev SourceHandle := Nat

/-- The answers of the surroundings while one message is handled. -/
structure SessionEnv where
  /-- `hook.on_publish` for app, stream and sign: the reason of a denial. -/
  onPublish : Str → Str → Str → Option Str
  onPlay : Str → Str → Str → Option Str
  /-- `auth.check` for app, stream, action and sign. -/
  check : Str → Str → Str → Str → Bool
  getOrCreate : Str → Str → SourceHandle
  getOrPull : Str → Str → Option SourceHandle
  tracks : SourceHandle → List TrackInfo
  writeOk : Bool

/-- What a session does to sources and to their manager. -/
inductive SessionEffect where
  | getOrCreate (app stream : Str) (source : SourceHandle)
  | clearTracks (source : SourceHandle)
  | pushTrack (source : SourceHandle) (track : TrackInfo)
  | publishAndCache (source : SourceHandle) (frame : MediaFrame)
  | streamPublish (app stream : Str)
  | streamUnPublish (app stream : Str)
  | closeStream (app stream : Str)
  deriving DecidableEq

structure RtmpSession where
  source : Option SourceHandle
  app : Str
  streamName : Str
  isPublisher : Bool
  deriving DecidableEq

namespace RtmpSession

def new : RtmpSession := ⟨none, [], [], false⟩

end RtmpSession

/-! ## Names -/

/-- `splitn(2, '/')` as the first part and the rest, if there is one. -/
def splitFirst (s : Str) : Str × Option Str :=
  match splitOnce '/' s with
  | some (a, b) => (a, some b)
  | none => (s, none)

def parseTcUrl (s : RtmpSession) (tcUrl : Str) : RtmpSession :=
  let url := trimStartMatches "rtmps://" (trimStartMatches "rtmp://" tcUrl)
  match (splitFirst url).2 with
  | some path =>
    { s with app := (splitFirst path).1, streamName := (splitFirst path).2.getD [] }
  | none => s

/-- `split_stream_sign`: the bare stream name and the value of `sign`. -/
def splitStreamSign (name : Str) : Str × Str :=
  match splitOnce '?' name with
  | some (base, query) =>
    let pairs := (query.splitOn '&').filterMap (splitOnce '=')
    (base, ((pairs.find? fun p => p.1 = "sign".toList).map Prod.snd).getD [])
  | none => (name, [])

/-! ## Media packets -/

def normalizeEnhancedVideo (data : Bytes) : Option Bytes :=
  let byte := fun i => data.getD i 0
  if data.length < 5 ∨ byte 0 &&& 0x80 = 0 then some data
  else
    let frameType := (byte 0 >>> 4) &&& 0x07
    let packetType := byte 0 &&& 0x0F
    let fourcc := (data.drop 1).take 4
    if fourcc ≠ Utf8.encode "hvc1" ∧ fourcc ≠ Utf8.encode "hev1" then none
    else
      let first := (frameType <<< 4) ||| 12
      if packetType = 0 then some ([first, 0, 0, 0, 0] ++ data.drop 5)
      else if packetType = 1 then
        if data.length < 8 then none else some ([first, 1] ++ data.drop 5)
      else if packetType = 3 then some ([first, 1, 0, 0, 0] ++ data.drop 5)
      else none

def parseEnhancedVideoCodec (fourcc : Bytes) : CodecId :=
  if fourcc = Utf8.encode "av01" then .av1
  else if fourcc = Utf8.encode "vp09" then .vp9
  else if fourcc = Utf8.encode "vp08" then .vp8
  else if fourcc = Utf8.encode "hvc1" ∨ fourcc = Utf8.encode "hev1" then .h265
  else if fourcc = Utf8.encode "avc1" then .h264
  else .unknown 0

/-- `parse_video_rtmp_packet`: codec, key frame, sequence header. -/
def parseVideoRtmpPacket (data : Bytes) : CodecId × Bool × Bool :=
  let byte := fun i => data.getD i 0
  if data.length < 2 then (.h264, false, false)
  else
    let codecId := byte 0 &&& 0x0F
    let isKeyframe := decide ((byte 0 >>> 4) &&& 0x0F = 1)
    if byte 0 &&& 0x80 ≠ 0 ∧ 5 ≤ data.length then
      let isConfig := decide (byte 0 &&& 0x0F = 0)
      (parseEnhancedVideoCodec ((data.drop 1).take 4), isKeyframe && !isConfig, isConfig)
    else
      let isConfig := decide ((codecId = 7 ∨ codecId = 12) ∧ byte 1 &&& 0x0F = 0)
      if codecId = 7 then (.h264, isKeyframe && !isConfig, isConfig)
      else if codecId = 12 then (.h265, isKeyframe && !isConfig, isConfig)
      else (.h264, isKeyframe, false)

def parseAudioRtmpPacket (data : Bytes) : CodecId :=
  match data with
  | [] => .aac
  | b :: _ =>
    let soundFormat := (b >>> 4) &&& 0x0F
    if soundFormat = 10 then .aac
    else if soundFormat = 2 then .mp3
    else if soundFormat = 7 then .g711a
    else if soundFormat = 8 then .g711u
    else if soundFormat = 13 then .opus
    else if soundFormat = 14 then .l16
    else .aac

/-! ## Messages -/

/-- The values of a data or command message whose first value is a string. -/
def namedValues (data : Bytes) : Option (Str × List AmfValue) :=
  match AmfDecoder.decode data with
  | .ok values =>
    match values.head? with
    | some (.string cmd) => some (cmd, values)
    | _ => none
  | .error _ => none

namespace RtmpSession

variable (env : SessionEnv) (s : RtmpSession)

/-- The video branch of `handle_message`. -/
def handleVideo (timestamp : UInt32) (data : Bytes) : List SessionEffect :=
  if s.isPublisher then
    match s.source, normalizeEnhancedVideo data with
    | some source, some data =>
      let (codec, keyFrame, isConfig) := parseVideoRtmpPacket data
      let frame := (MediaFrame.newVideo 0 codec timestamp timestamp.toUInt64 timestamp.toUInt64 data
        keyFrame).withPayloadFormat .flv
      (if isConfig ∧ (env.tracks source).isEmpty then [.pushTrack source (.video codec)] else []) ++
        [.publishAndCache source { frame with configFrame := isConfig }]
    | _, _ => []
  else []

/-- The audio branch of `handle_message`. -/
def handleAudio (timestamp : UInt32) (data : Bytes) : List SessionEffect :=
  if s.isPublisher then
    match s.source with
    | some source =>
      let codec := parseAudioRtmpPacket data
      let isConfig := decide (2 ≤ data.length ∧ (data.getD 0 0 >>> 4) &&& 0x0F = 10 ∧
        data.getD 1 0 = 0)
      let hasAudio := (env.tracks source).any fun t => match t with
        | .audio _ => true
        | .video _ => false
      let frame := (MediaFrame.newAudio 1 codec timestamp timestamp.toUInt64 timestamp.toUInt64
        data).withPayloadFormat .flv
      (if isConfig ∧ ¬ hasAudio then [.pushTrack source (.audio codec)] else []) ++
        [.publishAndCache source { frame with configFrame := isConfig }]
    | none => []
  else []

/-- The data branch of `handle_message`: only `onMetaData` reaches a source. -/
def handleData (data : Bytes) : List SessionEffect :=
  match namedValues data with
  | some (cmd, _) =>
    if cmd = "onMetaData" ∧ s.isPublisher then
      let metaFrame := { MediaFrame.newVideo 0 .h264 0 0 0 data false with
        frameType := .metadata, payloadFormat := .amf0 }
      match s.source with
      | some source => [.publishAndCache source metaFrame]
      | none => []
    else []
  | none => []

variable (values : List AmfValue)

/-- `handle_connect`, without its replies. -/
def handleConnect : RtmpSession :=
  let props := match values[2]? with
    | some v => some v
    | none => values[1]?
  match props with
  | some (AmfValue.object pairs) =>
    pairs.foldl (fun s p => match p with
      | (key, .string tcUrl) => if key = "tcUrl" then parseTcUrl s tcUrl else s
      | _ => s) s
  | _ => s

/-- `if let Some(AmfValue::String(name)) = values.get(i)`, with a non-empty name. -/
def nameAt (i : Nat) : Option Str :=
  match values[i]? with
  | some (AmfValue.string name) => if name.isEmpty then none else some name
  | _ => none

/-- Step by step as `handle_publish`: the flag and the name first, the checks after. -/
def handlePublish : RtmpSession × List SessionEffect :=
  let s := { s with isPublisher := true, streamName := (nameAt values 3).getD s.streamName }
  let (streamBase, sign) := splitStreamSign s.streamName
  let s := { s with streamName := streamBase }
  match env.onPublish s.app s.streamName sign with
  | some _ => (s, [])
  | none =>
    if env.check s.app s.streamName "pub" sign = false then (s, [])
    else
      let source := env.getOrCreate s.app s.streamName
      ({ s with source := some source },
       [.getOrCreate s.app s.streamName source, .clearTracks source,
        .streamPublish s.app s.streamName])

/-- The name that `handle_play` takes: value 3, or value 1 when value 3 is no string. -/
def playName : Option Str :=
  match values[3]? with
  | some (AmfValue.string _) => nameAt values 3
  | _ => nameAt values 1

/-- `handle_play`, up to the task that sends the frames. -/
def handlePlay : RtmpSession :=
  let s := { s with isPublisher := false, streamName := (playName values).getD s.streamName }
  let (streamBase, sign) := splitStreamSign s.streamName
  let s := { s with streamName := streamBase }
  match env.onPlay s.app s.streamName sign with
  | some _ => s
  | none =>
    if env.check s.app s.streamName "play" sign = false then s
    else if env.writeOk = false then s
    else
      match env.getOrPull s.app s.streamName with
      | some source => { s with source := some source }
      | none => s

/-- `cleanup`, also for `deleteStream` and `closeStream`. -/
def cleanup : RtmpSession × List SessionEffect :=
  ({ s with source := none },
   if s.isPublisher then [.streamUnPublish s.app s.streamName, .closeStream s.app s.streamName]
   else [])

/-- `match cmd.as_str()`: the commands that change a field or a source. -/
def handleNamed (cmd : Str) (values : List AmfValue) : RtmpSession × List SessionEffect :=
  if cmd = "connect" then (s.handleConnect values, [])
  else if cmd = "releaseStream" then
    match values[1]? with
    | some (AmfValue.string key) => ({ s with streamName := key }, [])
    | _ => (s, [])
  else if cmd = "publish" then s.handlePublish env values
  else if cmd = "play" then (s.handlePlay env values, [])
  else if cmd = "deleteStream" ∨ cmd = "closeStream" then s.cleanup
  else (s, [])

/-- The command branch of `handle_message`. -/
def handleCommand (data : Bytes) : RtmpSession × List SessionEffect :=
  match namedValues data with
  | some (cmd, values) => s.handleNamed env cmd values
  | none => (s, [])

def handleMessage : RtmpMessage → RtmpSession × List SessionEffect
  | .amf0Command _ _ data => s.handleCommand env data
  | .amf0Data _ _ data => (s, s.handleData data)
  | .video _ timestamp data => (s, s.handleVideo env timestamp data)
  | .audio _ timestamp data => (s, s.handleAudio env timestamp data)
  | _ => (s, [])

end RtmpSession

end MediaKit.Rtmp
