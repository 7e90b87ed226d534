import MediaKit.Core.Frame
import MediaKit.Rtsp.Parser

/-!
# The RTSP session and the streams it touches

`crates/rtsp/src/session.rs`: `handle_request` with its methods, the RTP packets of
a publisher, and `cleanup`. The model keeps the fields that decide which stream is
meant and logs what the session does to sources and to their manager (`RtspEffect`).

Mirroring notes vs the Rust source:
- What the session asks its surroundings for is the argument `env` of each step:
  `is_authenticated`, the source that `get_or_create` or `get_or_pull` returns, whether
  sockets could be opened, and whether the peer still takes data. Nothing is assumed
  about them.
- The manager finds a source by vhost, app and stream; a source is modelled by the
  app and stream it was asked for and the identity of its `Arc`.
- `parse_sdp` is an answer as well (the codec and whether there is an audio
  configuration, all that `handle_record` reads for the tracks), and so are the frames
  that an `RtpDepacketizer` makes of a packet; it publishes them in its own source.
- Replies are left out, with the fields that only they read (`cseq`, `session_id`,
  `realm`, `nonce`, the channels). What PLAY sends is left out; it takes the UDP sockets.
-/

namespace MediaKit.Rtsp

open Lib MediaKit.Core

/-- A stream, by its app and its name. -/
abbrev StreamName := Str × Str

/-- A source of the manager, as the pointer that a session holds. -/
structure Source where
  name : StreamName
  id : Nat
  deriving DecidableEq

/-- What `handle_announce` learns from the SDP body. -/
structure SdpInfo where
  videoCodec : CodecId
  hasAudioConfig : Bool
  deriving DecidableEq

/-- The answers of the surroundings while one request is handled. -/
structure RtspEnv where
  isAuthenticated : Bool
  getOrCreate : StreamName → Nat
  getOrPull : StreamName → Option Nat
  /-- `open_vod` finds a recording. -/
  openVod : StreamName → Bool
  parseSdp : Bytes → SdpInfo
  /-- The two sockets of a UDP SETUP are bound and connected. -/
  bindOk : Bool
  writeOk : Bool

/-- What a session does to sources and to their manager. -/
inductive RtspEffect where
  /-- An ANNOUNCE that passed `is_authenticated`, and the source it got. -/
  | getOrCreate (source : Source)
  | setTracks (source : Source) (tracks : List TrackInfo)
  | publishAndCache (source : Source) (frame : MediaFrame)
  | streamPublish (n : StreamName)
  | streamUnPublish (n : StreamName)
  | closeStream (n : StreamName)
  deriving DecidableEq

structure RtspSession where
  source : Option Source
  vodAsset : Bool
  app : Str
  streamName : Str
  isPublisher : Bool
  tcpInterleaved : Bool
  setupCount : Nat
  udpVideo : Bool
  udpAudio : Bool
  videoCodec : CodecId
  hasAudioConfig : Bool
  /-- The source of the depacketizer for interleaved packets. -/
  depak : Option Source
  /-- The sources of the UDP receive tasks that were spawned. -/
  udpTasks : List Source
  deriving DecidableEq

namespace RtspSession

def new : RtspSession where
  source := none
  vodAsset := false
  app := []
  streamName := []
  isPublisher := false
  tcpInterleaved := false
  setupCount := 0
  udpVideo := false
  udpAudio := false
  videoCodec := .h264
  hasAudioConfig := false
  depak := none
  udpTasks := []

/-- The stream that the fields name. -/
def name (s : RtspSession) : StreamName := (s.app, s.streamName)

end RtspSession

/-! ## Addresses -/

/-- The app and the stream of a request URI. -/
def uriName (uri : Str) : StreamName :=
  let stripped := (stripPre "rtsp://" uri).getD
    ((stripPre "rtsps://" uri).getD uri)
  let path := match splitOnce '?' stripped with
    | some (p, _) => p
    | none => stripped
  let path :=
    if path.head? = some '/' then path.dropWhile (· = '/')
    else ((splitOnce '/' path).map Prod.snd).getD []
  match splitOnce '/' path with
  | some (app, stream) => (app, stream)
  | none => (path, "stream")

/-- `parse_udp_transport`: the RTP and the RTCP port of the client. -/
def parseUdpTransport (transport : Str) : Option (Nat × Nat) :=
  ((transport.splitOn ';').find? fun p => (splitOncePat "client_port" p).isSome).bind
    fun portStr => (portStr.splitOn '=')[1]?.bind fun v =>
      match v.splitOn '-' with
      | rtp :: rtcp :: _ =>
        (parseUnsigned (2 ^ 16) rtp).bind fun rtp =>
          (parseUnsigned (2 ^ 16) rtcp).map fun rtcp => (rtp, rtcp)
      | _ => none

namespace RtspSession

variable (env : RtspEnv) (s : RtspSession)

/-- `parse_uri`. The sign that it also keeps is read by `is_authenticated` alone. -/
def parseUri (uri : Str) : RtspSession :=
  { s with app := (uriName uri).1, streamName := (uriName uri).2 }

/-! ## Methods -/

variable (request : RtspRequest)

def handleDescribe : RtspSession :=
  let s := s.parseUri request.uri
  if env.isAuthenticated = false then s
  else
    match env.getOrPull s.name with
    | some id => { s with source := some ⟨s.name, id⟩ }
    | none => if env.openVod s.name then { s with vodAsset := true } else s

def handleSetup : RtspSession :=
  match request.headers.get "Transport" with
  | none => s
  | some transport =>
    let trackIdx := s.setupCount
    let s := { s with setupCount := s.setupCount + 1 }
    if (splitOncePat "TCP" transport).isSome ∨
        (splitOncePat "interleaved" transport).isSome then
      { s with tcpInterleaved := true }
    else if (parseUdpTransport transport).isSome ∧ env.bindOk then
      if trackIdx = 0 then { s with udpVideo := true } else { s with udpAudio := true }
    else s

/-- The UDP sockets that the sending task of PLAY takes with it. -/
def takeSockets : RtspSession :=
  if s.tcpInterleaved then s
  else if s.udpVideo then { s with udpVideo := false, udpAudio := false }
  else s

/-- The lookups of PLAY when DESCRIBE was skipped: a source, else a recording. -/
def lookUp : RtspSession :=
  match s.source with
  | some _ => s
  | none =>
    match env.getOrPull s.name with
    | some id => { s with source := some ⟨s.name, id⟩ }
    | none => if s.vodAsset then s else { s with vodAsset := env.openVod s.name }

/-- PLAY behind the lookups: a recording is played first, else the source. -/
def startPlay : RtspSession :=
  if s.vodAsset then
    let s := { s with vodAsset := false }
    if env.writeOk then s.takeSockets else s
  else if s.source = none then s
  else if env.writeOk then s.takeSockets
  else s

def handlePlay : RtspSession :=
  let s := { s with isPublisher := false }
  let s := if s.app.isEmpty then s.parseUri request.uri else s
  if env.isAuthenticated = false then s
  else (s.lookUp env).startPlay env

/-- Step by step as `handle_announce`: the flag and the names first, the check after. -/
def handleAnnounce : RtspSession × List RtspEffect :=
  let s := { s with isPublisher := true }
  let s := s.parseUri request.uri
  if env.isAuthenticated = false then (s, [])
  else
    let sdp := env.parseSdp request.body
    let source : Source := ⟨s.name, env.getOrCreate s.name⟩
    ({ s with videoCodec := sdp.videoCodec, hasAudioConfig := sdp.hasAudioConfig,
              source := some source },
     [.getOrCreate source])

/-- The receive tasks of a UDP publisher, one for each socket there is. -/
def spawnReceivers (source : Source) : RtspSession :=
  { s with
    udpVideo := false
    udpAudio := false
    udpTasks := s.udpTasks ++ ((if s.udpVideo then [source] else []) ++
      (if s.udpAudio then [source] else [])) }

def handleRecord : RtspSession × List RtspEffect :=
  if env.writeOk = false ∨ s.isPublisher = false then (s, [])
  else
    match s.source with
    | none => (s, [])
    | some source =>
      let tracks : List TrackInfo :=
        .video s.videoCodec :: if s.hasAudioConfig then [.audio .aac] else []
      let s :=
        if s.tcpInterleaved then { s with depak := some source }
        else s.spawnReceivers source
      (s, [.setTracks source tracks, .streamPublish s.name])

/-- `cleanup`, also for TEARDOWN. -/
def cleanup : RtspSession × List RtspEffect :=
  ({ s with source := none, udpVideo := false, udpAudio := false, depak := none },
   if s.isPublisher then [.streamUnPublish s.name, .closeStream s.name] else [])

def handleRequest : RtspSession × List RtspEffect :=
  if request.method = "DESCRIBE" then (s.handleDescribe env request, [])
  else if request.method = "SETUP" then (s.handleSetup env request, [])
  else if request.method = "PLAY" then (s.handlePlay env request, [])
  else if request.method = "ANNOUNCE" then s.handleAnnounce env request
  else if request.method = "RECORD" then s.handleRecord env
  else if request.method = "TEARDOWN" then s.cleanup
  else (s, [])

/-- An interleaved packet, with the frames that the depacketizer makes of it. -/
def handleRtp (frames : List MediaFrame) : List RtspEffect :=
  if s.isPublisher ∧ s.tcpInterleaved then
    match s.depak with
    | some source => frames.map (.publishAndCache source)
    | none => []
  else []

/-- A packet for the `i`th UDP receive task, which lives on when the session ends. -/
def handleUdp (i : Nat) (frames : List MediaFrame) : List RtspEffect :=
  match s.udpTasks[i]? with
  | some source => frames.map (.publishAndCache source)
  | none => []

end RtspSession

end MediaKit.Rtsp
