import MediaKit.Core.Frame
import MediaKit.Gb28181.Message
import MediaKit.Gb28181.Xml

/-!
# The SIP server

`crates/srt/src/gb28181/sip.rs`: what the receive loop does with a datagram. `run` parses it and
calls the handler for its method, or the one for responses.

Mirroring notes vs the Rust source:
  * The maps are association lists. A pending query is kept by its number; its answer is an effect.
  * What the handlers send, and the media ports and talks that they start and stop, are effects.
  * The clock, the tag, the nonce, the own address, the next media port and whether a port or a
    talk could be started are part of the input (`Answers`), and so is the parser of IP addresses.
  * A panic is `none`. The handlers other than `handle_message` have none; that one multiplies an
    interval that the device chose.
  * The optional fields of a channel and of a device are kept by the names of their elements. The
    two coordinates of a channel, which only the list APIs return, are left out.
-/

namespace MediaKit.Gb28181.Signaling

open Lib MediaKit.Core Option

structure SocketAddr where
  ip : Str
  port : Nat
  deriving DecidableEq

structure ChannelInfo where
  channelId : Str
  name : Str
  status : Str
  texts : List (String × Option Str)
  nums : List (String × Option Nat)
  deriving DecidableEq

structure DeviceInfo where
  deviceId : Str
  texts : List (String × Option Str)
  channelNum : Option Nat
  deriving DecidableEq

structure DeviceContact where
  addr : SocketAddr
  lastSeen : Nat
  expires : Nat
  info : Option DeviceInfo
  channels : List ChannelInfo
  deriving DecidableEq

structure TalkCtx where
  vhost : Str
  app : Str
  stream : Str
  codec : CodecId
  payloadType : Nat
  ssrc : Nat
  deriving DecidableEq

inductive InviteKind where
  | play
  | talk (ctx : TalkCtx)
  deriving DecidableEq

structure InviteCtx where
  deviceId : Str
  channelId : Str
  mediaPort : Nat
  kind : InviteKind
  dialogFrom : Str
  dialogTo : Str
  deriving DecidableEq

/-- The tables of the server. -/
structure SipServer where
  devices : List (Str × DeviceContact)
  pending : List (Str × InviteCtx)
  active : List (Str × InviteCtx)
  pendingQueries : List Nat
  deriving DecidableEq

structure Config extends SipServerConfig where
  vhost : Str

/-- What the environment gives while a datagram is handled. -/
structure Answers where
  addr : SocketAddr
  now : Nat
  tag : Str
  nonce : Str
  host : Str
  mediaPort : Nat
  opened : Bool
  talkStarted : Bool

inductive SipEffect where
  | respond (addr : SocketAddr) (status : String) (headers : List (String × Str)) (body : Str)
  | ack (addr : SocketAddr) (text : Str)
  | openPort (port : Nat) (vhost app stream : Str)
  | closePort (port : Nat)
  | startTalk (talk : TalkCtx) (destination : SocketAddr) (port : Nat)
  | stopTalk (talk : TalkCtx)
  | deliver (sn : Nat) (root : XmlNode)

/-! ## Maps -/

/-- `insert`. -/
def put {α : Type} (key : Str) (value : α) (m : List (Str × α)) : List (Str × α) :=
  (key, value) :: m.filter fun e => e.1 != key

def remove {α : Type} (key : Str) (m : List (Str × α)) : List (Str × α) :=
  m.filter fun e => e.1 != key

/-- A change of the entry of a key, if there is one. -/
def update {α : Type} (key : Str) (f : α → α) (m : List (Str × α)) : List (Str × α) :=
  m.map fun e => if e.1 = key then (e.1, f e.2) else e

/-! ## Reports of a device -/

/-- The trimmed text of a child. -/
def trimmed (node : XmlNode) (name : String) : Option Str := (node.textOf name.toList).map trim

def channelTexts : List String :=
  ["Manufacturer", "Model", "Owner", "CivilCode", "Block", "Address", "ParentID", "CertNum",
    "EndTime", "IPAddress", "Password"]

def channelNums : List String :=
  ["Parental", "SafetyWay", "RegisterWay", "Certifiable", "ErrCode", "Secrecy", "Port", "PTZType"]

/-- `ChannelInfo::from_xml`. -/
def channelOfXml (item : XmlNode) : Option ChannelInfo :=
  (trimmed item "DeviceID").map fun channelId =>
    { channelId := channelId
      name := (trimmed item "Name").getD []
      status := (trimmed item "Status").getD "OFF"
      texts := channelTexts.map fun n => (n, trimmed item n)
      nums := channelNums.map fun n => (n, (trimmed item n).bind (parseUnsigned (2 ^ 32))) }

def parseCatalog (root : XmlNode) : List ChannelInfo :=
  (root.descendantsNamed "Item").filterMap channelOfXml

def deviceTexts : List String :=
  ["DeviceName", "Manufacturer", "Model", "Firmware", "Address", "CivilCode", "Result"]

/-- `DeviceInfo::from_xml`. -/
def deviceInfoOfXml (root : XmlNode) : DeviceInfo where
  deviceId := (trimmed root "DeviceID").getD []
  texts := deviceTexts.map fun n => (n, trimmed root n)
  channelNum := (trimmed root "Channel").bind (parseUnsigned (2 ^ 32))

/-! ## Session descriptions -/

def sdpValue (body pre : Str) : Option Str := ((lines body).findSome? (stripPre pre)).map trim

/-- `talk_destination`; an error is only logged. -/
def talkDestination (parseIp : Str → Option Str) (body : Str) (fallback : SocketAddr)
    (payloadType : Nat) : Option SocketAddr :=
  let ip := (((sdpValue body "c=").bind fun line => (splitWhitespace line).getLast?).bind
    parseIp).getD
    fallback.ip
  (sdpValue body "m=audio ").bind fun media =>
    match splitWhitespace media with
    | port :: _ :: pt :: pts =>
      (parseUnsigned (2 ^ 16) port).bind fun port =>
        if port = 0 then none
        else if (pt :: pts).any fun v =>
          parseUnsigned 256 v == some payloadType then some ⟨ip, port⟩
        else none
    | _ => none

/-- The session description that answers an INVITE. -/
def answerSdp (realm host : Str) (port : Nat) (y : Str) : Str :=
  ["v=0\r\no=".toList, realm, " 0 0 IN IP4 ", host, "\r\ns=Play\r\nc=IN IP4 ", host,
    "\r\nt=0 0\r\nm=video ", Nat.toDigits 10 port,
    " RTP/AVP 96\r\na=rtpmap:96 PS/90000\r\na=sendonly\r\ny=", y, "\r\n"].flatten

/-! ## Handlers -/

section Handlers

variable (md5 : Str → Str) (parseIp : Str → Option Str) (config : Config) (a : Answers)

/-- A header, or the empty text. -/
def field (msg : ParsedSip) (name : String) : Str := (msg.get name).getD []

/-- The headers that every response repeats. -/
def echo (msg : ParsedSip) : List (String × Str) :=
  [("Via", field msg "via"), ("From", field msg "from"), ("To", field msg "to" ++ ";tag=" ++ a.tag),
    ("Call-ID", field msg "call-id"), ("CSeq", field msg "cseq")]

def contact (msg : ParsedSip) : List (String × Str) := [("Contact", field msg "contact")]

def stopMedia (ctx : InviteCtx) : SipEffect :=
  match ctx.kind with
  | .play => .closePort ctx.mediaPort
  | .talk talk => .stopTalk talk

variable (s : SipServer)

def unregisterDevice (deviceId : Str) : SipServer × List SipEffect :=
  match s.devices.lookup deviceId with
  | none => (s, [])
  | some _ =>
    let closed := s.active.filter fun e => e.2.deviceId == deviceId
    ({ s with
        devices := remove deviceId s.devices
        active := s.active.filter fun e => e.2.deviceId != deviceId },
      closed.map fun e => stopMedia e.2)

def handleRegister (msg : ParsedSip) : SipServer × List SipEffect :=
  match registration md5 config.toSipServerConfig ⟨msg.toSipMessage, a.nonce, a.tag⟩ with
  | .ignored => (s, [])
  | .challenged _ r => (s, [.respond a.addr r.status r.headers []])
  | .accepted deviceId expires r =>
    let (s, closed) :=
      if expires = 0 then unregisterDevice s deviceId
      else ({ s with devices := put deviceId ⟨a.addr, a.now, expires, none, []⟩ s.devices }, [])
    (s, closed ++ [.respond a.addr r.status r.headers []])

/-- A MESSAGE also keeps its sender alive, or makes it known. -/
def touch (deviceId : Str) : SipServer :=
  match s.devices.lookup deviceId with
  | some _ =>
    { s with devices := update deviceId (fun d => { d with lastSeen := a.now }) s.devices }
  | none => { s with devices := put deviceId ⟨a.addr, a.now, 3600, none, []⟩ s.devices }

def forwardQueryResponse (root : XmlNode) : SipServer × List SipEffect :=
  match (trimmed root "SN").bind (parseUnsigned (2 ^ 32)) with
  | some sn =>
    if sn ∈ s.pendingQueries then
      ({ s with pendingQueries := s.pendingQueries.filter (· != sn) }, [.deliver sn root])
    else (s, [])
  | none => (s, [])

/-- The interval of a keep-alive. -/
def keepaliveInterval (root : XmlNode) : Option Nat :=
  (trimmed root "Interval").bind (parseUnsigned (2 ^ 64))

/-- What a command changes. -/
def handleCommand (deviceId : Str) (root : XmlNode) : Option (SipServer × List SipEffect) :=
  match root.textOf "CmdType" with
  | none => some (s, [])
  | some cmd =>
    if cmd = "Keepalive" then
      match keepaliveInterval root with
      | none => some (s, [])
      | some interval =>
        (mulU64 interval 3).map fun three =>
          ({ s with
            devices := update deviceId (fun d => { d with expires := max three 60 }) s.devices },
            [])
    else if cmd = "Catalog" then
      let channels := parseCatalog root
      some (forwardQueryResponse
        { s with devices := update deviceId (fun d => { d with channels := channels }) s.devices }
        root)
    else if cmd = "DeviceInfo" then
      let info := deviceInfoOfXml root
      some (forwardQueryResponse
        { s with devices := update deviceId (fun d => { d with info := some info }) s.devices }
        root)
    else some (s, [])

def handleMessage (msg : ParsedSip) : Option (SipServer × List SipEffect) :=
  let deviceId := (uriUser (field msg "from")).getD []
  let s := touch a s deviceId
  let commanded := match Xml.parseXml msg.body with
    | .fault => none
    | .fail => some (s, [])
    | .done root => handleCommand s deviceId root
  commanded.map fun r => (r.1, r.2 ++ [.respond a.addr "200 OK" (echo a msg ++ contact msg) []])

def handleInviteReceived (msg : ParsedSip) : SipServer × List SipEffect :=
  let y := (sdpValue msg.body "y=").getD ['0']
  let stream := "rtp_" ++ y
  let ctx : InviteCtx :=
    ⟨(uriUser (field msg "from")).getD [], stream, a.mediaPort, .play,
      field msg "to" ++ ";tag=" ++ a.tag, field msg "from"⟩
  let answer := .respond a.addr "200 OK"
    (echo a msg ++ contact msg ++ [("Content-Type", "application/sdp".toList)])
    (answerSdp config.realm a.host a.mediaPort y)
  if a.opened then
    ({ s with active := put (field msg "call-id") ctx s.active },
      [.openPort a.mediaPort config.vhost "rtp" stream, answer])
  else (s, [answer])

def handleBye (msg : ParsedSip) : SipServer × List SipEffect :=
  let callId := field msg "call-id"
  let answer := .respond a.addr "200 OK" (echo a msg) []
  match s.active.lookup callId with
  | some ctx => ({ s with active := remove callId s.active }, [stopMedia ctx, answer])
  | none =>
    match s.pending.lookup callId with
    | some ctx => ({ s with pending := remove callId s.pending }, [stopMedia ctx, answer])
    | none => (s, [answer])

/-- `ack`. -/
def ackText (ctx : InviteCtx) (msg : ParsedSip) (callId : Str) : Str :=
  let number := ((splitWhitespace (field msg "cseq")).head?).getD ['1']
  ["ACK sip:".toList, ctx.channelId, "@", a.addr.ip, ":", Nat.toDigits 10 a.addr.port,
    " SIP/2.0\r\nVia: ", field msg "via", "\r\nFrom: ", field msg "from", "\r\nTo: ",
    field msg "to", "\r\nCall-ID: ", callId, "\r\nCSeq: ", number,
    " ACK\r\nMax-Forwards: 70\r\nContent-Length: 0\r\n\r\n"].flatten

def handleResponse (msg : ParsedSip) : SipServer × List SipEffect :=
  match msg.get "call-id" with
  | none => (s, [])
  | some callId =>
    let status := msg.status.getD 0
    if status < 200 then (s, [])
    else
      match s.pending.lookup callId with
      | none => (s, [])
      | some ctx =>
        let s := { s with pending := remove callId s.pending }
        if status = 200 then
          let ack := .ack a.addr (ackText a ctx msg callId)
          let ctx := { ctx with dialogFrom := field msg "from", dialogTo := field msg "to" }
          match ctx.kind with
          | .play => ({ s with active := put callId ctx s.active }, [ack])
          | .talk talk =>
            match talkDestination parseIp msg.body a.addr talk.payloadType with
            | none => (s, [ack])
            | some destination =>
              if a.talkStarted then
                ({ s with active := put callId ctx s.active },
                  [ack, .startTalk talk destination ctx.mediaPort])
              else (s, [ack])
        else (s, [stopMedia ctx])

/-- The handler that `run` selects. -/
def handleSip (msg : ParsedSip) : Option (SipServer × List SipEffect) :=
  match msg.method with
  | none => some (handleResponse parseIp a s msg)
  | some method =>
    if method = "REGISTER" then some (handleRegister md5 config a s msg)
    else if method = "MESSAGE" then handleMessage a s msg
    else if method = "INVITE" then some (handleInviteReceived config a s msg)
    else if method = "BYE" then some (handleBye a s msg)
    else some (s, [])

/-- A round of `run` with a datagram. -/
def handleDatagram (buf : Bytes) : Option (SipServer × List SipEffect) :=
  (parseSip buf).bind (handleSip md5 parseIp config a s)

end Handlers

/-! ## Which datagrams stop the server -/

/-- The interval of a keep-alive can be multiplied. -/
abbrev KeepaliveFits (root : XmlNode) : Prop := root.textOf "CmdType" = some "Keepalive" →
  ∀ interval, keepaliveInterval root = some interval → interval * 3 < 2 ^ 64

def IntervalFits (msg : ParsedSip) : Prop :=
  msg.method = some "MESSAGE" → ∀ root, Xml.parseXml msg.body = .done root → KeepaliveFits root

theorem isSome_handleCommand_iff (s : SipServer) (deviceId : Str) (root : XmlNode) :
    (handleCommand s deviceId root).isSome = true ↔ KeepaliveFits root := by
  unfold handleCommand KeepaliveFits
  cases root.textOf "CmdType" with
  | none => exact iff_of_true rfl nofun
  | some cmd =>
    dsimp only
    by_cases hk : cmd = "Keepalive"
    · rw [if_pos hk, hk]
      cases keepaliveInterval root with
      | none => exact iff_of_true rfl fun _ => nofun
      | some interval =>
        rw [isSome_map]
        unfold mulU64
        by_cases hf : interval * 3 < 2 ^ 64
        · rw [if_pos hf]
          refine iff_of_true rfl fun _ i hi => ?_
          rwa [← some.inj hi]
        · rw [if_neg hf]
          exact iff_of_false (by simp) fun h => hf (h rfl interval rfl)
    · rw [if_neg hk]
      have ho : some cmd ≠ some "Keepalive" := fun h => hk (some.inj h)
      split
      · exact iff_of_true rfl fun h => absurd h ho
      split
      · exact iff_of_true rfl fun h => absurd h ho
      · exact iff_of_true rfl fun h => absurd h ho

theorem isSome_handleMessage_iff (a : Answers) (s : SipServer) (msg : ParsedSip) :
    (handleMessage a s msg).isSome = true ↔
      ∀ root, Xml.parseXml msg.body = .done root → KeepaliveFits root := by
  have hs := Xml.parseXml_ensures msg.body
  unfold handleMessage
  rw [isSome_map]
  cases hx : Xml.parseXml msg.body with
  | fault =>
    rw [hx] at hs
    exact hs.elim
  | fail => exact iff_of_true rfl fun _ => nofun
  | done root =>
    rw [isSome_handleCommand_iff]
    constructor
    · intro h root' heq
      cases heq
      exact h
    · exact fun h => h root rfl

/-- **One message.** The handlers stop only at an interval that is too long. -/
theorem isSome_handleSip_iff (md5 : Str → Str) (parseIp : Str → Option Str) (config : Config)
    (a : Answers) (s : SipServer) (msg : ParsedSip) :
    (handleSip md5 parseIp config a s msg).isSome = true ↔ IntervalFits msg := by
  unfold handleSip IntervalFits
  cases msg.method with
  | none => exact iff_of_true rfl nofun
  | some method =>
    dsimp only
    by_cases hm : method = "MESSAGE"
    · have hr : method ≠ "REGISTER" := by
        rw [hm]
        decide
      rw [if_neg hr, if_pos hm, isSome_handleMessage_iff, hm]
      exact ⟨fun h _ => h, fun h => h rfl⟩
    · have ho : some method ≠ some "MESSAGE" := fun h => hm (some.inj h)
      refine iff_of_true ?_ fun h => absurd h ho
      repeat' split
      all_goals rfl

/-- The body of every framed reading of the datagram is what was declared. -/
def BodyCut (buf : Bytes) : Prop :=
  ∀ head body n, Framed buf head body n →
    ∃ msg, parseSip buf = some msg ∧ Utf8.decode (body.take n) = some msg.body

/-- **The datagrams that do no harm.** For every state of the tables the server goes on, and the
body is cut where it was declared, exactly if the Content-Length lies inside no character of the
lines put together again, an interval for a keep-alive fits, and a declared body is not empty and
has no line end of its own. -/
theorem datagram_safe_iff (md5 : Str → Str) (parseIp : Str → Option Str) (config : Config)
    (buf : Bytes) :
    ((∀ a s, (handleDatagram md5 parseIp config a s buf).isSome = true) ∧ BodyCut buf) ↔
      ¬ CutsChar buf ∧ (∀ msg, parseSip buf = some msg → IntervalFits msg) ∧ ∀ head body n,
        Framed buf head body n →
          0 < n ∧ ∀ text, Utf8.decode body = some text → ¬ LineEndBelow text n := by
  have hb : BodyCut buf ↔ ∀ head body n, Framed buf head body n →
      0 < n ∧ ∀ text, Utf8.decode body = some text → ¬ LineEndBelow text n := by
    refine forall_congr' fun head => forall_congr' fun body => forall_congr' fun n =>
      forall_congr' fun h => ?_
    obtain ⟨text, ht⟩ := isSome_iff_exists.mp h.utf8
    rw [parsed_body_iff h ht]
    refine and_congr_right fun _ => ⟨fun hno text' ht' => ?_, fun hno => hno text ht⟩
    rw [ht, some.injEq] at ht'
    rwa [← ht']
  have hs : (∀ a s, (handleDatagram md5 parseIp config a s buf).isSome = true) ↔
      ¬ CutsChar buf ∧ ∀ msg, parseSip buf = some msg → IntervalFits msg := by
    rw [← parseSip_eq_none_iff]
    unfold handleDatagram
    cases parseSip buf with
    | none =>
      refine iff_of_false (fun h => ?_) fun h => h.1 rfl
      exact absurd (h ⟨⟨[], 0⟩, 0, [], [], [], 0, false, false⟩ ⟨[], [], [], []⟩) (by simp)
    | some msg =>
      simp only [bind_some, isSome_handleSip_iff]
      constructor
      · intro h
        refine ⟨nofun, fun msg' heq => ?_⟩
        rw [← some.inj heq]
        exact h ⟨⟨[], 0⟩, 0, [], [], [], 0, false, false⟩ ⟨[], [], [], []⟩
      · exact fun h _ _ => h.2 msg rfl
  rw [hs, hb, and_assoc]

/-- **Three datagrams.** The first declares a length inside a character, the second an interval of
more than a third of `u64`; both stop the server. Of the third, three bytes of the body are
declared, and others are returned. -/
theorem datagram_stops_server :
    let config : Config := ⟨⟨[], none⟩, []⟩
    let a : Answers := ⟨⟨[], 0⟩, 0, [], [], [], 0, false, false⟩
    let s : SipServer := ⟨[], [], [], []⟩
    let head := Utf8.encode "X\r\nContent-Length:3"
    let body := Utf8.encode "a\r\nb"
    (handleDatagram id some config a s (Utf8.encode "X\r\nContent-Length:1\r\n\r\né")).isNone =
      true ∧
    (handleDatagram id some config a s
      (Utf8.encode ("MESSAGE\r\n\r\n<N><CmdType>Keepalive</CmdType>" ++
      "<Interval>6148914691236517206</Interval></N>"))).isNone = true ∧
    Framed (head ++ [0x0D, 0x0A, 0x0D, 0x0A] ++ body) head body 3 ∧
    (parseSip (head ++ [0x0D, 0x0A, 0x0D, 0x0A] ++ body)).map ParsedSip.body = some "a\nb" := by
  refine ⟨by decide +kernel, by decide +kernel, ⟨rfl, ?_, ?_, ?_, ?_, ?_⟩, ?_⟩
  all_goals decide +kernel

end MediaKit.Gb28181.Signaling
