import MediaKit.Core.Auth
import MediaKit.Core.GopCache

/-!
# HTTP playback

`crates/http/src/session.rs`: the routes under which `HttpSession` serves live
streams. A request path is cut into an application, a resource and a signature; the
handler chosen by the suffix of the route derives a stream name from the resource,
asks the hook and `StreamAuth::check`, looks the source up and writes the response.

Mirroring notes vs the Rust source:
  * `World` is what a request can read: the settings, the answers of the hooks, the
    sources of the manager, those that `get_or_pull` would bring in from an origin,
    and the four static caches. The caches are keyed by `MediaSource::url`.
  * A source holds its whole media: tracks, GOP cache and the results that the
    subscription will receive until it closes (`none` is a `Lagged` error).
  * A handler is the program of its lookups (`Reading`): what a lookup finds decides the
    answer or the next lookup. The checks read the settings and the hooks only, so a
    handler's program has them behind it.
  * The muxers, `build_mpd` and the format `{:.3}` of a duration are parameters
    (`Muxers`); the loops that feed the muxers are here.
  * A response is the sequence of octets written to a client that reads them all.
    A cache entry that a handler starts to fill is empty at that time; the task that
    fills it does not write to this client.
  * Web sockets, the API, recordings and static files have handlers of their own;
    `respond` is `none` for them.
-/

namespace MediaKit.Http

open Lib MediaKit.Core

/-- A stream as a request names it. -/
structure StreamName where
  app : Str
  stream : Str
  deriving DecidableEq

variable (n : StreamName)

/-- `format!("{}/{}", app, stream)`. -/
def StreamName.url : Str := n.app ++ '/' :: n.stream

/-- `format!("{}/{}/{}", vhost, app, stream)`. -/
def StreamName.id (vhost : Str) : Str := vhost ++ '/' :: n.url

/-! ## The state that a request reads -/

/-- A track with the numbers that its descriptions carry. -/
structure Track where
  info : TrackInfo
  width : Nat
  height : Nat
  fps : Nat
  sampleRate : Nat
  deriving DecidableEq

structure Media where
  tracks : List Track
  gopCache : GopCache MediaFrame
  live : List (Option MediaFrame)
  deriving DecidableEq

structure MediaSource where
  vhost : Str
  name : StreamName
  media : Media
  deriving DecidableEq

/-- The key under which `get_or_create` registers a source. -/
def MediaSource.id (s : MediaSource) : Str := s.name.id s.vhost

def MediaSource.url (s : MediaSource) : Str := s.name.url

/-- `HlsSegment`; the duration is the bit pattern of a float. -/
structure HlsSegment where
  index : Nat
  duration : UInt64
  data : Bytes
  deriving DecidableEq

structure World where
  auth : StreamAuth
  /-- `on_play` lets the request pass. -/
  onPlay : StreamName → Str → Bool
  /-- `on_http_access` lets the request pass. -/
  onHttpAccess : Str → Bool
  sources : List MediaSource
  pulled : List MediaSource
  hlsSegments : Str → Option (List HlsSegment)
  cmafSegments : Str → Option (List HlsSegment)
  cmafInitCache : Str → Option (Option Bytes)
  dashSegments : Str → Option (List Bytes)

/-- The cache entries under a url. -/
structure Caches where
  hls : Option (List HlsSegment)
  cmaf : Option (List HlsSegment)
  cmafInit : Option (Option Bytes)
  dash : Option (List Bytes)

/-- A lookup of the manager: `get_or_pull` also asks the origins. -/
inductive Lookup where
  | get | getOrPull

namespace World

def cachesOf (w : World) (url : Str) : Caches :=
  ⟨w.hlsSegments url, w.cmafSegments url, w.cmafInitCache url, w.dashSegments url⟩

/-- The sources that a lookup goes through. -/
def reach (w : World) : Lookup → List MediaSource
  | .get => w.sources
  | .getOrPull => w.sources ++ w.pulled

/-- The source of the default host that a lookup finds under a name. -/
def find (w : World) (how : Lookup) (n : StreamName) : Option MediaSource :=
  (w.reach how).find? fun s => s.id == n.id defaultVhost

end World

/-! ## Requests -/

/-- `path.split_once('?').map(|(p, _)| p).unwrap_or(path)`. -/
def routeOf (path : Str) : Str := ((splitOnce '?' path).map Prod.fst).getD path

/-- `parse_path_sign`: application, resource and signature. -/
def parsePathSign (path : Str) : Str × Str × Str :=
  let path := path.dropWhile (· == '/')
  let (pathOnly, sign) := match splitOnce '?' path with
    | some (p, q) =>
      (p, ((((q.splitOn '&').filterMap (splitOnce '=')).find? fun kv => kv.1 == "sign".toList).map
        Prod.snd).getD [])
    | none => (path, [])
  match splitOnce '/' pathOnly with
  | some (app, resource) => (app, resource, sign)
  | none => (pathOnly, [], sign)

/-- The signature of a request. -/
def signOf (path : Str) : Str := (parsePathSign path).2.2

def isPlayRoute (route : Str) : Bool :=
  [".flv", ".live.ts", ".live.mp4", ".m3u8", ".cmav.m3u8", ".mpd", ".m4s", ".ts"].any
    fun suffix => suffix.toList.isSuffixOf route

/-! ## Responses -/

/-- `{}` of a number. -/
def decimal (n : Nat) : Str := Nat.toDigits 10 n

def send401 : Bytes := Utf8.encode
  ("HTTP/1.1 401 Unauthorized\r\nContent-Type: text/plain\r\nContent-Length: " ++
    decimal 12 ++ "\r\nConnection: close\r\n\r\nUnauthorized")

def send404 : Bytes := Utf8.encode
  ("HTTP/1.1 404 Not Found\r\nContent-Length: " ++ decimal 9 ++
    "\r\nConnection: close\r\n\r\nNot Found")

/-- The header of a response without a length. -/
def streamHeader (contentType : String) : Bytes := Utf8.encode
  ("HTTP/1.1 200 OK\r\nContent-Type: " ++ contentType.toList ++
    "\r\nConnection: close\r\nCache-Control: no-cache\r\n\r\n")

/-- A response with a body; `origin` is the line that allows every origin, or nothing. -/
def sendBody (contentType origin cacheControl : String) (body : Bytes) : Bytes := Utf8.encode
  ("HTTP/1.1 200 OK\r\nContent-Type: " ++ contentType.toList ++
    "\r\nContent-Length: " ++ decimal body.length ++ "\r\n" ++ origin.toList ++
    "Cache-Control: " ++ cacheControl.toList ++ "\r\nConnection: close\r\n\r\n") ++ body

def anyOrigin : String := "Access-Control-Allow-Origin: *\r\n"

/-- The response that carries a piece of fragmented MP4. -/
def sendMp4 : Bytes → Bytes := sendBody "video/mp4" anyOrigin "max-age=3600"

/-! ## Lookups -/

/-- What a handler looks up before it answers. A lookup is made under a name, and
reads either the media of the source that it finds or the caches under its url. -/
inductive Reading where
  | answer (response : Bytes)
  | media (how : Lookup) (n : StreamName) (serve : Media → Bytes)
  | caches (how : Lookup) (n : StreamName) (next : Option Caches → Reading)

namespace Reading

def run (w : World) : Reading → Bytes
  | answer response => response
  | media how n serve => ((w.find how n).map fun s => serve s.media).getD send404
  | caches how n next => (next ((w.find how n).map fun s => w.cachesOf s.url)).run w

/-- A lookup that answers from the caches, where they hold what `pick` looks for. -/
def cachedOr (how : Lookup) (n : StreamName) (pick : Caches → Option Bytes) (rest : Reading) :
    Reading :=
  caches how n fun found => ((found.bind pick).map answer).getD rest

end Reading

/-- The segment with an index, as it is sent. -/
def segmentOf (send : Bytes → Bytes) (idx : Nat) (segments : Option (List HlsSegment)) :
    Option Bytes :=
  ((segments.getD []).find? fun s => s.index == idx).map fun seg => send seg.data

/-! ## Muxers -/

structure DashRepresentation where
  id : String
  mimeType : String
  codecs : String
  width : Nat
  height : Nat
  segmentDurationSecs : Nat
  timescale : Nat
  bandwidth : Nat
  deriving DecidableEq

/-- The code of other crates that turns frames into octets: `FlvMuxer`, `TsLiveMuxer`
and `Fmp4Muxer` over their states, `build_mpd`, and the format of a duration. -/
structure Muxers (F T M : Type) where
  flvNew : F
  flvHeader : F → Bytes × F
  flvMetadata : F → Track → CodecId → Bytes × F
  /-- `write_tag`; a failure ends the session. -/
  flvTag : F → MediaFrame → Option (Bytes × F)
  tsNew : T
  tsPush : T → MediaFrame → Bytes × T
  mp4New : M
  mp4Push : M → MediaFrame → M
  mp4Init : M → Bytes × M
  mp4Flush : M → Option Bytes × M
  buildMpd : List DashRepresentation → Str → Str → Nat → Str
  seconds : UInt64 → Str

namespace Muxers

variable {F T M : Type} (mux : Muxers F T M)

/-- The results that a loop `while let Ok(frame)` gets. -/
def untilLagged (live : List (Option MediaFrame)) : List MediaFrame :=
  (live.takeWhile Option.isSome).filterMap id

/-- `get_config_frames`. -/
def configFrames (c : GopCache MediaFrame) : List MediaFrame :=
  c.videoConfig.toList ++ c.audioConfig.toList

def flvTags (m : F) : List MediaFrame → Bytes
  | [] => []
  | f :: fs =>
    match mux.flvTag m f with
    | none => []
    | some (tag, m) => tag ++ flvTags m fs

variable (media : Media)

/-- What `handle_flv_stream` writes behind its header. -/
def flv : Bytes :=
  let (header, m) := mux.flvHeader mux.flvNew
  let (metadata, m) := match media.tracks.head? with
    | some t => match t.info with
      | .video codec => mux.flvMetadata m t codec
      | .audio _ => ([], m)
    | none => ([], m)
  header ++ metadata ++ mux.flvTags m
    (media.gopCache.getLatestGopFrames id ++
      (untilLagged media.live).filter fun f => !isConfigFrame f)

def tsFrames (m : T) : List MediaFrame → Bytes
  | [] => []
  | f :: fs => (mux.tsPush m f).1 ++ tsFrames (mux.tsPush m f).2 fs

/-- What `handle_ts_stream` writes behind its header. -/
def ts : Bytes :=
  mux.tsFrames mux.tsNew (configFrames media.gopCache ++
    media.gopCache.getLatestGopFrames id ++ untilLagged media.live)

/-- The frames of a live fragmented MP4; a video key frame ends a segment. -/
def mp4Frames (m : M) : List MediaFrame → Bytes × M
  | [] => ([], m)
  | f :: fs =>
    if isConfigFrame f then mp4Frames m fs
    else if isKey f then
      let flushed := mux.mp4Flush (mux.mp4Push m f)
      let rest := mp4Frames flushed.2 fs
      (flushed.1.getD [] ++ rest.1, rest.2)
    else mp4Frames (mux.mp4Push m f) fs

/-- What `handle_fmp4_stream` writes behind its header. -/
def fmp4 : Bytes :=
  let (initSegment, m) := mux.mp4Init ((configFrames media.gopCache).foldl mux.mp4Push mux.mp4New)
  let (cached, m) := mux.mp4Frames m (media.gopCache.getLatestGopFrames id)
  let (segment, m) := mux.mp4Flush m
  initSegment ++ cached ++ segment.getD [] ++ (mux.mp4Frames m (media.live.filterMap id)).1

/-- The init segment that `handle_dash_init` builds. -/
def dashInit : Bytes :=
  (mux.mp4Init ((configFrames media.gopCache).foldl mux.mp4Push mux.mp4New)).1

def representation (t : Track) : DashRepresentation :=
  match t.info with
  | .video codec =>
    let codecs := match codec with
      | .h264 => "avc1.64001f"
      | .h265 => "hev1.1.6.L93.B0"
      | .vp8 => "vp8"
      | .vp9 => "vp09.00.10.08"
      | .av1 => "av01.0.04M.08"
      | _ => "avc1.64001f"
    ⟨"v0", "video/mp4", codecs, t.width, t.height, 4, 90000, 2000000⟩
  | .audio codec =>
    let codecs := match codec with
      | .aac => "mp4a.40.2"
      | .opus => "opus"
      | _ => "mp4a.40.2"
    ⟨"a0", "audio/mp4", codecs, 0, 0, 4, t.sampleRate, 128000⟩

/-- The manifest of `handle_dash_mpd`. -/
def mpd : Str :=
  mux.buildMpd (media.tracks.map representation)
    ('/' :: n.url ++ "/init-$RepresentationID$") ('/' :: n.url ++ "/seg-$RepresentationID$-$") 1

/-- The lines of a playlist for its segments: `#EXTINF` and a path, made from the
stream's name, `pre`, the index and `suf`. -/
def playlistEntries (pre suf : String) (segments : List HlsSegment) : Str :=
  segments.flatMap fun seg =>
    "#EXTINF:" ++ mux.seconds seg.duration ++ ",\n/" ++ n.url ++ pre.toList ++
      decimal seg.index ++ suf.toList

def mediaSequence (index : Nat) : Str :=
  "#EXT-X-MEDIA-SEQUENCE:" ++ decimal index ++ "\n"

/-- The playlist of `handle_hls_playlist`. -/
def hlsPlaylist (segments : List HlsSegment) : Str :=
  "#EXTM3U\n#EXT-X-VERSION:3\n#EXT-X-TARGETDURATION:4\n" ++
    match segments with
    | [] => mediaSequence 0
    | seg :: _ => mediaSequence seg.index ++ mux.playlistEntries n "/" ".ts\n" segments

/-- `build_cmaf_playlist` with a target duration of four seconds. -/
def buildCmafPlaylist (segments : List HlsSegment) : Str :=
  "#EXTM3U\n#EXT-X-VERSION:7\n#EXT-X-TARGETDURATION:4\n#EXT-X-PLAYLIST-TYPE:EVENT\n" ++
    match segments with
    | [] => mediaSequence 0
    | seg :: _ => mediaSequence seg.index ++
      "#EXT-X-MAP:URI=\"/" ++ n.url ++ "/init.mp4\"\n" ++
      mux.playlistEntries n "/seg-" ".m4s\n" segments

end Muxers

/-! ## Handlers -/

section Handlers

variable {F T M : Type} (mux : Muxers F T M) (sha256 : Bytes → Str)
  (w : World)

/-- `auth.check` for playing a stream of the default host. -/
def World.authorised (sign : Str) (n : StreamName) : Bool :=
  w.auth.check sha256 defaultVhost n.app n.stream "play" sign

/-- The signature check in front of a handler's work. -/
def checked (sign : Str) (n : StreamName) (work : Reading) : Reading :=
  if !w.authorised sha256 sign n then .answer send401 else work

/-- The hook and the signature check in front of a handler's work. -/
def hookChecked (sign : Str) (n : StreamName) (work : Reading) : Reading :=
  if !w.onPlay n sign then .answer send401 else checked sha256 w sign n work

/-- The stream that a live route asks for: the resource without `suffix`. -/
def liveName (suffix : String) (path : Str) : StreamName :=
  ⟨(parsePathSign path).1, (stripSuf suffix.toList (parsePathSign path).2.1).getD "stream"⟩

variable (path : Str)

/-- A handler that serves a live stream. -/
def handleLive (suffix contentType : String) (mux : Media → Bytes) : Reading :=
  let n := liveName suffix path
  hookChecked sha256 w (signOf path) n <|
    .media .getOrPull n fun m => streamHeader contentType ++ mux m

def handleFlvStream : Reading := handleLive sha256 w path ".flv" "video/x-flv" mux.flv

def handleTsStream : Reading := handleLive sha256 w path ".live.ts" "video/MP2T" mux.ts

def handleFmp4Stream : Reading := handleLive sha256 w path ".live.mp4" "video/mp4" mux.fmp4

def hlsName : StreamName :=
  let (app, resource, _) := parsePathSign path
  ⟨app, match stripSuf "/hls.m3u8" resource with
    | some s => s
    | none => (stripSuf ".m3u8" resource).getD resource⟩

def handleHlsPlaylist : Reading :=
  let n := hlsName path
  hookChecked sha256 w (signOf path) n <| .cachedOr .getOrPull n
    (fun c => some (sendBody "application/vnd.apple.mpegurl" "" "no-cache"
      (Utf8.encode (mux.hlsPlaylist n (c.hls.getD []))))) (.answer send404)

/-- The stream and the file of a segment, where the resource has two parts. -/
def hlsSegmentParts : Option (StreamName × Str) :=
  let (app, resource, _) := parsePathSign path
  match resource.splitOn '/' with
  | stream :: file :: _ => some (⟨app, stream⟩, file)
  | _ => none

def handleHlsSegment : Reading :=
  match hlsSegmentParts path with
  | none => .answer send404
  | some (n, file) =>
    hookChecked sha256 w (signOf path) n <|
      let idx := ((stripSuf ".ts" file).bind (parseUnsigned (2 ^ 32))).getD (2 ^ 32 - 1)
      if idx = 2 ^ 32 - 1 then .answer send404
      else .cachedOr .get n
        (fun c => segmentOf (sendBody "video/mp2t" "" "max-age=3600") idx c.hls) (.answer send404)

def cmafName : StreamName :=
  let (app, resource, _) := parsePathSign path
  ⟨app, ((stripSuf ".cmav.m3u8" resource).bind (stripSuf "/hls")).getD
    ((stripSuf ".cmav.m3u8" resource).getD "stream")⟩

def handleCmafPlaylist : Reading :=
  let n := cmafName path
  hookChecked sha256 w (signOf path) n <| .cachedOr .getOrPull n
    (fun c => some (sendBody "application/vnd.apple.mpegurl" anyOrigin "no-cache"
      (Utf8.encode (mux.buildCmafPlaylist n (c.cmaf.getD []))))) (.answer send404)

/-- `handle_dash_mpd`. This handler does not ask the hook. -/
def handleDashMpd : Reading :=
  let n := liveName ".mpd" path
  checked sha256 w (signOf path) n <| .media .getOrPull n fun m =>
    sendBody "application/dash+xml" anyOrigin "no-cache" (Utf8.encode (mux.mpd n m))

/-- The stream whose cached init segment `handle_dash_init` looks for first. -/
def initCacheName : Option StreamName :=
  let route := routeOf path
  if "init.mp4".toList.isSuffixOf route ∧ (splitOncePat "-v" route).isNone ∧
      (splitOncePat "-a" route).isNone then
    some ⟨(parsePathSign path).1,
      (((route.dropWhile (· == '/')).splitOn '/')[1]?).getD "stream"⟩
  else none

/-- The stream that `handle_dash_init` checks and builds an init segment for. -/
def dashInitName : StreamName :=
  let (app, resource, _) := parsePathSign path
  let rest := trimEnd '/' ((stripSuf "init.mp4" resource).getD resource)
  ⟨app, match stripSuf "-v0" rest with
    | some s => s
    | none => (stripSuf "-a0" rest).getD rest⟩

/-- `handle_dash_init`. A cached init segment goes out before any check. -/
def handleDashInit : Reading :=
  let n := dashInitName path
  let built := checked sha256 w (signOf path) n <|
    .media .get n fun m => sendMp4 (mux.dashInit m)
  match initCacheName path with
  | some n => .cachedOr .get n (fun c => (c.cmafInit.getD none).map sendMp4) built
  | none => built

/-- The stream and the index of a CMAF segment, where the path has that form. -/
def cmafSegmentParts : Option (StreamName × Nat) :=
  let (app, resource, _) := parsePathSign path
  (stripSuf ".m4s" resource).bind fun rest =>
    match rest.splitOn '/' with
    | stream :: segment :: _ =>
      (stripPre "seg-" segment).map fun s =>
        (⟨app, stream⟩, (parseUnsigned (2 ^ 64) s).getD (2 ^ 64 - 1))
    | _ => none

/-- `handle_cmaf_segment`; `rest` is what `run` does on `Ok(false)`. -/
def handleCmafSegment (rest : Reading) : Reading :=
  match cmafSegmentParts path with
  | none => rest
  | some (n, idx) =>
    if !w.authorised sha256 (signOf path) n then rest
    else .cachedOr .get n (fun c => segmentOf sendMp4 (idx % 2 ^ 32) c.cmaf) rest

/-- The stream of a DASH segment, where the resource has that form. -/
def dashSegmentName : Option StreamName :=
  let (app, resource, _) := parsePathSign path
  match ((stripSuf ".m4s" resource).getD resource).splitOn '-' with
  | stream :: _ :: _ :: _ => some ⟨app, stream⟩
  | _ => none

/-- `handle_dash_segment`. The newest segment is served, whatever number is asked for. -/
def handleDashSegment : Reading :=
  match dashSegmentName path with
  | none => .answer send404
  | some n =>
    checked sha256 w (signOf path) n <|
      .cachedOr .get n (fun c => (c.dash.getD []).getLast?.map sendMp4) (.answer send404)

/-- The playback routes of `HttpSession::run`, in the order of their tests. -/
inductive Handler where
  | flv | ts | fmp4 | mpd | segment | dashInit | cmafPlaylist | hlsPlaylist | hlsSegment
  deriving DecidableEq

/-- The suffixes of a route that `run` tests, one after the other. -/
def suffixes : List (String × Handler) :=
  [(".flv", .flv), (".live.ts", .ts), (".live.mp4", .fmp4), (".mpd", .mpd), (".m4s", .segment),
    ("init.mp4", .dashInit), (".cmav.m3u8", .cmafPlaylist), (".m3u8", .hlsPlaylist),
    (".ts", .hlsSegment)]

/-- The handler that `run` chooses; `none` is a route that plays nothing. -/
def handlerOf (route : Str) : Option Handler :=
  if "/index/api/".toList.isPrefixOf route ∨ "/record/".toList.isPrefixOf route then none
  else (suffixes.find? fun p => p.1.toList.isSuffixOf route).map Prod.snd

def handle : Handler → Reading
  | .flv => handleFlvStream mux sha256 w path
  | .ts => handleTsStream mux sha256 w path
  | .fmp4 => handleFmp4Stream mux sha256 w path
  | .mpd => handleDashMpd mux sha256 w path
  | .segment => handleCmafSegment sha256 w path (handleDashSegment sha256 w path)
  | .dashInit => handleDashInit mux sha256 w path
  | .cmafPlaylist => handleCmafPlaylist mux sha256 w path
  | .hlsPlaylist => handleHlsPlaylist mux sha256 w path
  | .hlsSegment => handleHlsSegment sha256 w path

/-- What `HttpSession::run` looks up for a request of `path`; `none` when the route is
not one that plays a stream. -/
def request : Option Reading :=
  (handlerOf (routeOf path)).map fun handler =>
    if isPlayRoute (routeOf path) ∧ ¬ w.onHttpAccess path then .answer send401
    else handle mux sha256 w path handler

/-- What `HttpSession::run` sends for a request of `path`. -/
def respond : Option Bytes := (request mux sha256 w path).map (Reading.run w)

end Handlers

end MediaKit.Http
