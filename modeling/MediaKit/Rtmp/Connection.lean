import Mathlib.Data.List.Basic
import MediaKit.Lib.Batches
import MediaKit.Rtmp.Session

/-!
# The RTMP session and its connection

`crates/rtmp/src/session.rs`, `run` from the handshake on: each `read` gives a batch of messages,
which are handled up to the first that fails, then `send_window_ack` looks at the bytes that were
read. `RtmpSession` (in `Session`) has the fields that name streams; `RtmpConnection` adds the
connection, the encoder and the window of acknowledgements, and with them the replies.

A session should not show how its messages were grouped into reads. It does in three ways: a message
that fails takes the rest of its batch with it, a play that hands the connection over ends the
session only at the next read, and acknowledgements are counted by reads. `batches_invisible`: where
none of the three meets a message with others of its batch behind it (`Calm`), the batches make no
difference.

Mirroring notes vs the Rust source:
- `handle_message` is given as the list of what it does (`Action`), in the order of the source, as
  decided by the fields and by the answers of the surroundings (`ConnectionEnv`). `perform` does
  them one by one; a `send_msg` that fails ends the list.
- A message comes with the number of bytes that were read for it; a batch has the bytes of its
  messages.
- `set_chunk_size` of the parser is left out, since the messages are given. So are the tasks that
  send frames, but for the fact that they are started. -/

namespace MediaKit.Rtmp

open Lib MediaKit.Core List

/-- The answers of the surroundings while one message is handled. -/
structure ConnectionEnv where
  session : SessionEnv
  /-- `library.open`: the archive of that name, if there is one. -/
  openVod : Str → Str → Option Nat
  /-- How many writes the peer takes, before one fails. -/
  writes : Nat

/-- What a session shows. -/
inductive ConnectionEffect where
  | handled (msg : RtmpMessage)
  | source (effect : SessionEffect)
  | getOrPull (app stream : Str)
  | registerSubscriber (source : SourceHandle)
  | dropSubscriber (source : SourceHandle)
  | sendFrames (source : SourceHandle) (streamId : UInt32)
  | openVod (app stream : Str)
  | playVod (asset : Nat) (startMs : UInt64) (durationMs : Option UInt64) (streamId : UInt32)
  | streamNotFound (app stream : Str)
  | reply (encoder : RtmpMessageEncoder) (msg : RtmpMessage)
  deriving DecidableEq

structure RtmpConnection where
  session : RtmpSession
  /-- `self.stream` is there. -/
  connected : Bool
  encoder : RtmpMessageEncoder
  streamId : UInt32
  totalRead : Nat
  clientWinSize : UInt32
  lastAckSeq : Nat
  /-- The writes that the peer still takes. -/
  writes : Nat

namespace RtmpConnection

def new : RtmpConnection := ⟨.new, true, .new, 0, 0, 2500000, 0, 0⟩

/-- `unacked >= self.client_win_size`. -/
def ackDue (c : RtmpConnection) : Bool :=
  decide (c.clientWinSize.toNat ≤ c.totalRead - c.lastAckSeq)

end RtmpConnection

/-! ## What is done for a message -/

open RtmpConnection

inductive Action where
  | setSession (session : RtmpSession)
  | setChunkSize (size : Nat)
  | setStreamId (streamId : UInt32)
  | setWindow (size : UInt32)
  | note (effect : ConnectionEffect)
  | send (msg : RtmpMessage)
  | sendWindowAck
  /-- `self.stream.take()`, for the task that is started with it; without a stream, what is
  dropped. -/
  | handOver (task : ConnectionEffect) (dropped : List ConnectionEffect)

/-- A write that the peer may refuse; only `send_msg` reports that. -/
def RtmpConnection.write (c : RtmpConnection) (msg : RtmpMessage) :
    RtmpConnection × List ConnectionEffect × Bool :=
  if c.connected then
    if c.writes = 0 then (c, [], false)
    else ({ c with writes := c.writes - 1 }, [.reply c.encoder msg], true)
  else (c, [], true)

def RtmpConnection.sendWindowAck (c : RtmpConnection) : RtmpConnection × List ConnectionEffect :=
  if c.ackDue ∧ c.connected then
    let (c', log, _) := c.write (.ack (UInt32.ofNat c.totalRead))
    ({ c' with lastAckSeq := c.totalRead }, log)
  else (c, [])

/-- One action: the connection, what shows, and whether the next one follows. -/
def RtmpConnection.perform (c : RtmpConnection) :
    Action → RtmpConnection × List ConnectionEffect × Bool
  | .setSession session => ({ c with session := session }, [], true)
  | .setChunkSize size => ({ c with encoder := c.encoder.setChunkSize size }, [], true)
  | .setStreamId streamId => ({ c with streamId := streamId }, [], true)
  | .setWindow size => ({ c with clientWinSize := size }, [], true)
  | .note effect => (c, [effect], true)
  | .send msg => c.write msg
  | .sendWindowAck => (c.sendWindowAck.1, c.sendWindowAck.2, true)
  | .handOver task dropped =>
    if c.connected then ({ c with connected := false }, [task], true) else (c, dropped, true)

def RtmpConnection.performAll : RtmpConnection → List Action →
    RtmpConnection × List ConnectionEffect × Bool
  | c, [] => (c, [], true)
  | c, a :: actions =>
    let r := c.perform a
    if r.2.2 then
      let q := r.1.performAll actions
      (q.1, r.2.1 ++ q.2.1, q.2.2)
    else r

/-! ## Replies -/

def F64.thirtyOne : UInt64 := 0x403F000000000000

/-- `a as u64`: towards zero, saturating, NaN to 0. -/
def F64.toU64 (a : UInt64) : UInt64 :=
  if negative a ∨ (exponent a = 2047 ∧ mantissa a ≠ 0) ∨ exponent a < 1023 then 0
  else if 1087 ≤ exponent a then 0xFFFFFFFFFFFFFFFF
  else if exponent a ≤ 1075 then UInt64.ofNat ((2 ^ 52 + mantissa a) >>> (1075 - exponent a))
  else UInt64.ofNat ((2 ^ 52 + mantissa a) <<< (exponent a - 1075))

/-- `a > 0.0`. -/
def F64.positive (a : UInt64) : Bool :=
  !negative a && a ≠ 0 && !(exponent a = 2047 && mantissa a ≠ 0)

def text (s : String) : AmfValue := .string s.toList

/-- The level, the code and the description of a status. -/
def statusPairs (level code : String) (description : Str) : List (Str × AmfValue) :=
  [("level", text level), ("code", text code), ("description", .string description)]

def onStatus (streamId : UInt32) (info : List (Str × AmfValue)) : RtmpMessage :=
  .amf0Command streamId 0 (AmfEncoder.encode
    [text "onStatus", .number F64.zero, .null, .object info])

def connectStatus : List (Str × AmfValue) :=
  statusPairs "status" "NetConnection.Connect.Success" "Connection succeeded." ++
    [("objectEncoding".toList, .number F64.zero)]

def versionProps : List (Str × AmfValue) → List (Str × AmfValue) := fun more =>
  more ++ [("capabilities".toList, .number F64.thirtyOne)]

def connectResult : RtmpMessage :=
  .amf0Command 0 0 (AmfEncoder.encode
    [text "_result", .number F64.one, .object (versionProps [("fmsVer", text "FMS/3,0,1,123")]),
     .object (connectStatus ++
      [("data".toList, .object (versionProps [("version", text "FMS/3,0,1,123")]))])])

/-- `{}/{}` of app and stream name. -/
def target (s : RtmpSession) : Str := s.app ++ '/' :: s.streamName

def notAllowed (code : String) (streamId : UInt32) (reason : Str) : RtmpMessage :=
  onStatus streamId (statusPairs "error" code reason)

/-- The messages of `send_play_started`. -/
def playStarted (vod : Bool) (s : RtmpSession) : List Action :=
  [.send (onStatus 0 (statusPairs "status" "NetStream.Play.Reset"
    ("Playing reset of " ++ target s))),
   .send (onStatus 0 (statusPairs "status" "NetStream.Play.Start"
    ((if vod then "Playing MP4 archive " else "Playing ") ++ target s)))]

def streamNotFoundStatus : RtmpMessage :=
  onStatus 0 (statusPairs "error" "NetStream.Play.StreamNotFound" "Stream not found.")

/-! ## Messages -/

namespace RtmpConnection

variable (env : ConnectionEnv) (c : RtmpConnection)
  (values : List AmfValue)

def connectActions : List Action :=
  [.setSession (c.session.handleConnect values), .send (.windowAckSize 2500000),
    .send (.setPeerBandwidth 2500000 2),
   .send (.setChunkSize 4096), .setChunkSize 4096, .send connectResult,
   .send (onStatus 0 connectStatus)]

def createStreamActions : List Action :=
  let txnId := match values[1]? with
    | some (AmfValue.number n) => n
    | _ => F64.one
  [.setStreamId 1, .send (.amf0Command 0 0
    (AmfEncoder.encode [text "_result", .number txnId, .null, .number F64.one]))]

def publishActions : List Action :=
  let (session, effects) := c.session.handlePublish env.session values
  let sign := (splitStreamSign ((RtmpSession.nameAt values 3).getD c.session.streamName)).2
  let reply := match env.session.onPublish session.app session.streamName sign with
    | some reason => notAllowed "NetStream.Publish.NotAllowed" c.streamId reason
    | none =>
      if env.session.check session.app session.streamName "pub" sign = false then
        notAllowed "NetStream.Publish.NotAllowed" c.streamId "auth failed"
      else onStatus c.streamId
        (statusPairs "status" "NetStream.Publish.Start" ("Publishing on " ++ target session))
  .setSession session :: effects.map (fun e => .note (.source e)) ++ [.send reply]

/-- `requested_start_ms`. -/
def requestedStart : UInt64 :=
  match values[4]? with
  | some (AmfValue.number n) => F64.toU64 n
  | _ => 0

/-- `requested_duration_ms`. -/
def requestedDuration : Option UInt64 :=
  match values[5]? with
  | some (AmfValue.number n) => if F64.positive n then some (F64.toU64 n) else none
  | _ => none

/-- `handle_play` behind the name, once the play is allowed. -/
def playAllowed (s : RtmpSession) (values : List AmfValue) : List Action :=
  .send (.userControl 0 (be32 c.streamId.toNat)) :: .note (.getOrPull s.app s.streamName) ::
    match env.session.getOrPull s.app s.streamName with
    | some source =>
      .setSession { s with source := some source } :: playStarted false s ++
        [.note (.registerSubscriber source), .handOver (.sendFrames source c.streamId)
          [.dropSubscriber source]]
    | none =>
      .note (.openVod s.app s.streamName) ::
        match env.openVod s.app s.streamName with
        | some asset =>
          playStarted true s ++
            [.handOver (.playVod asset (requestedStart values) (requestedDuration values)
              c.streamId) []]
        | none => [.note (.streamNotFound s.app s.streamName), .send streamNotFoundStatus]

def playActions : List Action :=
  let s := { c.session with
    isPublisher := false, streamName := (RtmpSession.playName values).getD c.session.streamName }
  let (streamBase, sign) := splitStreamSign s.streamName
  let s := { s with streamName := streamBase }
  .setSession s ::
    match env.session.onPlay s.app s.streamName sign with
    | some reason => [.send (notAllowed "NetStream.Play.NotAllowed" c.streamId reason)]
    | none =>
      if env.session.check s.app s.streamName "play" sign = false then
        [.send (notAllowed "NetStream.Play.NotAllowed" c.streamId "auth failed")]
      else c.playAllowed env s values

def cleanupActions : List Action :=
  let (session, effects) := c.session.cleanup
  effects.map (fun e => .note (.source e)) ++ [.setSession session]

/-- `match cmd.as_str()`. -/
def namedActions (cmd : Str) (values : List AmfValue) : List Action :=
  if cmd = "connect" then c.connectActions values
  else if cmd = "releaseStream" then
    match values[1]? with
    | some (AmfValue.string key) => [.setSession { c.session with streamName := key }]
    | _ => []
  else if cmd = "createStream" then createStreamActions values
  else if cmd = "publish" then c.publishActions env values
  else if cmd = "play" then c.playActions env values
  else if cmd = "deleteStream" ∨ cmd = "closeStream" then c.cleanupActions
  else if cmd = "getStreamLength" then
    [.send (.amf0Command 0 0 (AmfEncoder.encode
      [text "_result", values[1]?.getD (.number F64.zero), .null, .number F64.zero]))]
  else []

/-- `handle_message`; `none` is data that does not decode. -/
def actions : RtmpMessage → Option (List Action)
  | .windowAckSize size => some [.setWindow size, .send (.setPeerBandwidth size 2), .sendWindowAck]
  | .amf0Command _ _ data =>
    match AmfDecoder.decode data with
    | .error _ => none
    | .ok values =>
      match values.head? with
      | some (.string cmd) => some (c.namedActions env cmd values)
      | _ => some []
  | .amf0Data _ _ data =>
    match AmfDecoder.decode data with
    | .error _ => none
    | .ok _ => some ((c.session.handleData data).map fun e => .note (.source e))
  | .userControl eventType data =>
    if eventType = 6 ∧ 4 ≤ data.length then some [.send (.ack (payloadU32 data))] else some []
  | .video _ timestamp data =>
    some ((c.session.handleVideo env.session timestamp data).map fun e => .note (.source e))
  | .audio _ timestamp data =>
    some ((c.session.handleAudio env.session timestamp data).map fun e => .note (.source e))
  | .setChunkSize _ | .ack _ | .setPeerBandwidth _ _ | .abort _ => some []

end RtmpConnection

/-! ## Runs -/

/-- A message with the bytes that were read for it and the answers it meets. -/
structure Arrival where
  env : ConnectionEnv
  msg : RtmpMessage
  size : Nat

namespace RtmpConnection

/-- `self.total_read += n`. -/
def arrive (c : RtmpConnection) (n : Nat) : RtmpConnection :=
  { c with totalRead := c.totalRead + n }

/-- `handle_message`, with the writes that the peer takes. -/
def handleMessage (c : RtmpConnection) (a : Arrival) :
    RtmpConnection × List ConnectionEffect × Bool :=
  let c := { c with writes := a.env.writes }
  match c.actions a.env a.msg with
  | none => (c, [.handled a.msg], false)
  | some actions =>
    let r := c.performAll actions
    (r.1, .handled a.msg :: r.2.1, r.2.2)

end RtmpConnection

variable {actions : List Action} {s : RtmpSession}
  {r : RtmpSession × List SessionEffect}

/-- The loop of `run`, with one batch for each `read`. -/
def rtmpMachine : BatchMachine RtmpConnection Arrival ConnectionEffect where
  size := Arrival.size
  arrive := arrive
  handle := handleMessage
  settle := sendWindowAck
  alive := connected
  close c := c.session.cleanup.2.map .source

variable (log : List ConnectionEffect)

def handledMessages : List RtmpMessage :=
  log.filterMap fun e => match e with
    | .handled msg => some msg
    | _ => none

def replies : List (RtmpMessageEncoder × RtmpMessage) :=
  log.filterMap fun e => match e with
    | .reply encoder msg => some (encoder, msg)
    | _ => none

/-- What is done to sources, to their manager and to the event bus. -/
def outerEffects : List ConnectionEffect :=
  log.filter fun e => match e with
    | .handled _ | .reply _ _ => false
    | _ => true

/-- Two runs that nobody can tell apart. -/
structure SameShow (log log' : List ConnectionEffect) : Prop where
  handled : handledMessages log = handledMessages log'
  effects : outerEffects log = outerEffects log'
  replies : replies log = replies log'

/-! ## The session within the connection -/

/-- What is done to sources as a publisher does it, with the events of publishing. What a player
asks of the manager (`getOrPull`, `registerSubscriber`, `dropSubscriber`, `streamNotFound`) is not
among it. -/
def sourceEffects : List SessionEffect :=
  log.filterMap fun e => match e with
    | .source effect => some effect
    | _ => none

theorem sourceEffects_append (log log' : List ConnectionEffect) :
    sourceEffects (log ++ log') = sourceEffects log ++ sourceEffects log' := filterMap_append

variable (effects : List SessionEffect)

theorem sourceEffects_sources : sourceEffects (effects.map .source) = effects := by
  rw [sourceEffects, filterMap_map]
  exact filterMap_some

/-- The actions that change neither the fields of the session nor what is published. -/
def Action.aside : Action → Bool
  | .setSession _ | .note (.source _) => false
  | .handOver task dropped => (sourceEffects (task :: dropped)).isEmpty
  | _ => true

variable {a : Action}

theorem perform_aside (c : RtmpConnection) (ha : a.aside = true) :
    (c.perform a).1.session = c.session ∧ sourceEffects (c.perform a).2.1 = [] := by
  have hw : ∀ msg, (c.write msg).1.session = c.session ∧ sourceEffects (c.write msg).2.1 = [] := by
    intro msg
    unfold write
    split_ifs <;> exact ⟨rfl, rfl⟩
  cases a with
  | setSession session => cases ha
  | note effect => cases effect with
    | source e => cases ha
    | _ => exact ⟨rfl, rfl⟩
  | send msg => exact hw msg
  | sendWindowAck =>
    simp only [perform, sendWindowAck]
    split
    · exact hw _
    · exact ⟨rfl, rfl⟩
  | handOver task dropped =>
    have hn := isEmpty_iff.mp ha
    rw [← singleton_append, sourceEffects_append, append_eq_nil_iff] at hn
    simp only [perform]
    split
    · exact ⟨rfl, hn.1⟩
    · exact ⟨rfl, hn.2⟩
  | _ => exact ⟨rfl, rfl⟩

theorem performAll_aside : ∀ {actions : List Action} (c : RtmpConnection),
    (∀ a ∈ actions, a.aside = true) →
    (c.performAll actions).1.session = c.session ∧ sourceEffects (c.performAll actions).2.1 =
      [] := by
  intro actions
  induction actions with
  | nil => exact fun c _ => ⟨rfl, rfl⟩
  | cons a actions ih =>
    intro c h
    obtain ⟨hs, he⟩ := perform_aside c (h a (mem_cons_self ..))
    simp only [performAll]
    split
    · obtain ⟨hs', he'⟩ := ih (c.perform a).1 fun x hx => h x (mem_cons_of_mem _ hx)
      exact ⟨hs'.trans hs, by rw [sourceEffects_append, he, he', append_nil]⟩
    · exact ⟨hs, he⟩

/-- The publishing effects come in front of anything that can fail. -/
theorem performAll_notes : ∀ (effects : List SessionEffect) (c : RtmpConnection)
    (actions : List Action),
    c.performAll (effects.map (fun e => Action.note (.source e)) ++ actions) =
      ((c.performAll actions).1, effects.map .source ++ (c.performAll actions).2.1,
        (c.performAll actions).2.2) := by
  intro effects
  induction effects with
  | nil => exact fun c actions => rfl
  | cons e effects ih =>
    intro c actions
    rw [map_cons, cons_append, performAll]
    simp only [perform, if_true, ih, map_cons, cons_append, nil_append]

/-- The fields and the effects on sources, behind some actions. -/
def Leaves (c : RtmpConnection) (actions : List Action) (r : RtmpSession × List SessionEffect) :
    Prop :=
  ((c.performAll actions).1.session, sourceEffects (c.performAll actions).2.1) = r

variable {c : RtmpConnection}

theorem leaves_aside (hs : c.session = s) (h : ∀ a ∈ actions, a.aside = true) :
    Leaves c actions (s, []) :=
  Prod.ext ((performAll_aside c h).1.trans hs) (performAll_aside c h).2

theorem leaves_cons (ha : a.aside = true) (hok : (c.perform a).2.2 = true)
    (h : Leaves (c.perform a).1 actions r) : Leaves c (a :: actions) r := by
  rw [Leaves, performAll]
  simp only [hok, if_true]
  rw [sourceEffects_append, (perform_aside c ha).2]
  exact h

theorem leaves_failed (ha : a.aside = true)
    (hf : (c.perform a).2.2 = false) : Leaves c (a :: actions) (c.session, []) := by
  rw [Leaves, performAll]
  simp only [hf, Bool.false_eq_true, if_false]
  rw [(perform_aside c ha).1, (perform_aside c ha).2]

theorem write_ok (c : RtmpConnection) (msg : RtmpMessage) :
    (c.write msg).2.2 = (!c.connected || decide (0 < c.writes)) := by
  unfold write
  cases c.connected with
  | false => rfl
  | true =>
    rcases Nat.eq_zero_or_pos c.writes with hw | hw
    · simp [hw]
    · simp [hw, Nat.ne_of_gt hw]

theorem leaves_setSession (h : Leaves { c with session := s } actions r) :
    Leaves c (.setSession s :: actions) r := h

theorem leaves_notes (h : Leaves c actions (s, [])) :
    Leaves c (effects.map (fun e => Action.note (.source e)) ++ actions) (s, effects) := by
  rw [Leaves, performAll_notes, sourceEffects_append, sourceEffects_sources]
  obtain ⟨hs, he⟩ := Prod.mk.inj h
  rw [hs, he, append_nil]

section Refines

variable (env : ConnectionEnv) (c : RtmpConnection)

/-- The answers as the session sees them: the first write of a play succeeds, or there is no
connection to write to. -/
def ConnectionEnv.forSession : SessionEnv :=
  { env.session with writeOk := !c.connected || decide (0 < c.writes) }

theorem leaves_publish (values : List AmfValue) :
    Leaves c (c.publishActions env values) (c.session.handlePublish (env.forSession c) values) := by
  refine leaves_setSession (leaves_notes _ (leaves_aside rfl ?_))
  intro a ha
  rw [mem_singleton.mp ha]
  rfl

theorem leaves_playAllowed (s : RtmpSession)
    (values : List AmfValue) : Leaves { c with session := s } (c.playAllowed env s values)
    ((if (env.forSession c).writeOk = false then s
      else match env.session.getOrPull s.app s.streamName with
        | some source => { s with source := some source }
        | none => s), []) := by
  have hok := write_ok { c with session := s } (.userControl 0 (be32 c.streamId.toNat))
  have hwO : (env.forSession c).writeOk = (!c.connected || decide (0 < c.writes)) := rfl
  split
  case isTrue hf => exact leaves_failed rfl (hok.trans (hwO.symm.trans hf))
  case isFalse hwr =>
    refine leaves_cons rfl (hok.trans (Bool.eq_true_of_not_eq_false hwr)) (leaves_cons rfl rfl ?_)
    cases env.session.getOrPull s.app s.streamName with
    | some source =>
      refine leaves_setSession (leaves_aside rfl ?_)
      simp [playStarted, Action.aside, sourceEffects]
    | none =>
      refine leaves_aside (perform_aside { c with session := s }
        (rfl : (Action.send (.userControl 0 (be32 c.streamId.toNat))).aside = true)).1 ?_
      cases env.openVod s.app s.streamName with
      | some asset => simp [playStarted, Action.aside, sourceEffects]
      | none => simp [Action.aside]

theorem leaves_play (values : List AmfValue) :
    Leaves c (c.playActions env values) (c.session.handlePlay (env.forSession c) values, []) := by
  unfold playActions RtmpSession.handlePlay
  simp only
  generalize splitStreamSign ((RtmpSession.playName values).getD c.session.streamName) = name
  refine leaves_setSession ?_
  simp only [ConnectionEnv.forSession]
  cases env.session.onPlay c.session.app name.1 name.2 with
  | some reason => exact leaves_aside rfl (by simp [Action.aside])
  | none =>
    by_cases hc : env.session.check c.session.app name.1 "play" name.2 = false
    · simp only [hc]
      exact leaves_aside rfl (by simp [Action.aside])
    · simp only [hc]
      exact leaves_playAllowed env c _ values

theorem leaves_named (cmd : Str) (values : List AmfValue) :
    Leaves c (c.namedActions env cmd values)
      (c.session.handleNamed (env.forSession c) cmd values) := by
  unfold namedActions RtmpSession.handleNamed
  by_cases h₁ : cmd = "connect"
  · rw [if_pos h₁, if_pos h₁]
    exact leaves_setSession (leaves_aside rfl (by simp [Action.aside]))
  rw [if_neg h₁, if_neg h₁]
  by_cases h₂ : cmd = "releaseStream"
  · rw [if_pos h₂, if_pos h₂]
    cases values[1]? with
    | none => exact leaves_aside rfl (forall_mem_nil _)
    | some value => cases value with
      | string key => exact leaves_setSession (leaves_aside rfl (forall_mem_nil _))
      | _ => exact leaves_aside rfl (forall_mem_nil _)
  rw [if_neg h₂, if_neg h₂]
  by_cases h₃ : cmd = "createStream"
  · -- only the connection knows the stream id
    subst h₃
    exact leaves_aside rfl (by simp [createStreamActions, Action.aside])
  rw [if_neg h₃]
  by_cases h₄ : cmd = "publish"
  · rw [if_pos h₄, if_pos h₄]
    exact leaves_publish env c values
  rw [if_neg h₄, if_neg h₄]
  by_cases h₅ : cmd = "play"
  · rw [if_pos h₅, if_pos h₅]
    exact leaves_play env c values
  rw [if_neg h₅, if_neg h₅]
  by_cases h₆ : cmd = "deleteStream" ∨ cmd = "closeStream"
  · rw [if_pos h₆, if_pos h₆]
    exact leaves_notes _ rfl
  rw [if_neg h₆, if_neg h₆]
  split
  · exact leaves_aside rfl (by simp [Action.aside])
  · exact leaves_aside rfl (forall_mem_nil _)

/-- **The connection refines the session**: its stream fields and its publishing effects are those
of `RtmpSession`, whatever the peer takes of the replies. -/
theorem handleMessage_refines (a : Arrival) :
    let r := c.handleMessage a
    (r.1.session, sourceEffects r.2.1) =
      c.session.handleMessage (a.env.forSession { c with writes := a.env.writes }) a.msg := by
  obtain ⟨env, msg, size⟩ := a
  have hn : ∀ effects : List SessionEffect, Leaves { c with writes := env.writes }
      (effects.map fun e => Action.note (.source e)) (c.session, effects) := by
    intro effects
    have h := leaves_notes (c := { c with writes := env.writes }) effects
      (leaves_aside rfl (forall_mem_nil _))
    rwa [append_nil] at h
  cases msg with
  | amf0Command sid ts data =>
    simp only [handleMessage, actions, RtmpSession.handleMessage, RtmpSession.handleCommand,
      namedValues]
    cases AmfDecoder.decode data with
    | error e => rfl
    | ok values =>
      cases hh : values.head? with
      | none => simp only [hh]; rfl
      | some value => cases value with
        | string cmd =>
          simp only [hh]
          exact leaves_named env { c with writes := env.writes } cmd values
        | _ => simp only [hh]; rfl
  | amf0Data sid ts data =>
    have hdt := hn (c.session.handleData data)
    simp only [handleMessage, actions, RtmpSession.handleMessage]
    cases hdc : AmfDecoder.decode data with
    | error e => simp only [RtmpSession.handleData, namedValues, hdc]; rfl
    | ok values => exact hdt
  | video | audio => exact hn _
  | windowAckSize window => exact leaves_aside rfl (by simp [Action.aside])
  | userControl eventType data =>
    simp only [handleMessage, actions, RtmpSession.handleMessage]
    split_ifs
    · exact leaves_aside rfl (by simp [Action.aside])
    · rfl
  | _ => rfl

end Refines

/-! ## Messages that others may follow in a batch -/

/-- The writes of some actions. -/
def sends (actions : List Action) : Nat :=
  actions.countP fun a => match a with
    | .send _ => true
    | _ => false

def handsOver (actions : List Action) : Bool :=
  actions.any fun a => match a with
    | .handOver _ _ => true
    | _ => false

/-- The window behind a message. -/
def windowAfter (c : RtmpConnection) : RtmpMessage → UInt32
  | .windowAckSize size => size
  | _ => c.clientWinSize

/-- The bytes that are not acknowledged, with `n` more. -/
def unacked (c : RtmpConnection) (n : Nat) : Nat := c.totalRead + n - c.lastAckSeq

/-- Nothing that the handling of a message looks at depends on the `rest` bytes of its batch behind
it: the message decodes, the peer takes the replies to it, the connection is not handed over, and no
acknowledgement falls due. -/
def Calm (c : RtmpConnection) (a : Arrival) (rest : Nat) : Prop :=
  (∃ actions, c.actions a.env a.msg = some actions ∧ sends actions ≤ a.env.writes ∧
    handsOver actions = false) ∧
    unacked c a.size < (windowAfter c a.msg).toNat ∧
    ∀ size, a.msg = .windowAckSize size → unacked c (a.size + rest) < size.toNat

/-- The actions that neither look at the window nor change it. -/
def Action.plain : Action → Bool
  | .setWindow _ | .sendWindowAck => false
  | _ => true

variable {c : RtmpConnection}

theorem write_taken (hc : c.connected = true) (hw : c.writes ≠ 0) (msg : RtmpMessage) :
    c.write msg = ({ c with writes := c.writes - 1 }, [.reply c.encoder msg], true) := by
  rw [write, if_pos hc, if_neg hw]

theorem perform_plain (hc : c.connected = true) (ha : a.plain = true) (hs : sends [a] ≤ c.writes)
    (hov : handsOver [a] = false) :
    (c.perform a).2.2 = true ∧ (c.perform a).1.connected = true ∧
    (c.perform a).1.writes + sends [a] = c.writes ∧
      (c.perform a).1.ackDue = c.ackDue ∧
      ∀ n, (c.arrive n).perform a = ((c.perform a).1.arrive n, (c.perform a).2) := by
  cases a with
  | setWindow | sendWindowAck => cases ha
  | handOver task dropped => cases hov
  | send msg =>
    have hon : sends [.send msg] = 1 := rfl
    have hw : c.writes ≠ 0 := by omega
    have hp : c.perform (.send msg) = _ := write_taken hc hw msg
    have hl : ∀ n, (c.arrive n).perform (.send msg) = _ := fun n =>
      write_taken (c := c.arrive n) hc hw msg
    rw [hp]
    refine ⟨rfl, hc, ?_, rfl, fun n => hl n⟩
    exact Nat.sub_add_cancel (Nat.one_le_iff_ne_zero.mpr hw)
  | _ => exact ⟨rfl, hc, rfl, rfl, fun n => rfl⟩

theorem sends_cons (a : Action) (actions : List Action) :
    sends (a :: actions) = sends [a] + sends actions := by
  rw [sends, sends, sends, ← countP_append, singleton_append]

theorem handsOver_cons (a : Action) (actions : List Action) :
    handsOver (a :: actions) = (handsOver [a] || handsOver actions) := by
  rw [handsOver, handsOver, handsOver, ← any_append, singleton_append]

theorem performAll_plain : ∀ {actions : List Action} {c : RtmpConnection}, c.connected = true →
    (∀ a ∈ actions, a.plain = true) → sends actions ≤ c.writes → handsOver actions = false →
    (c.performAll actions).2.2 = true ∧ (c.performAll actions).1.connected = true ∧
    (c.performAll actions).1.ackDue = c.ackDue ∧
      ∀ n, (c.arrive n).performAll actions =
        ((c.performAll actions).1.arrive n, (c.performAll actions).2) := by
  intro actions
  induction actions with
  | nil =>
    intro c hc _ _ _
    exact ⟨rfl, hc, rfl, fun n => rfl⟩
  | cons a actions ih =>
    intro c hc hp hs hov
    rw [sends_cons] at hs
    rw [handsOver_cons, Bool.or_eq_false_iff] at hov
    obtain ⟨hok, hc', hw, hd, hl⟩ := perform_plain hc (hp a (mem_cons_self ..)) (by omega) hov.1
    obtain ⟨hok', hc'', hd', hl'⟩ :=
      ih hc' (fun x hx => hp x (mem_cons_of_mem _ hx)) (by omega) hov.2
    simp only [performAll, hok, if_true, hl, hl']
    exact ⟨hok', hc'', hd'.trans hd, fun _ => trivial⟩

theorem notes_plain : ∀ a ∈ effects.map (fun e => Action.note (.source e)), a.plain = true := by
  intro a ha
  obtain ⟨e, -, rfl⟩ := mem_map.mp ha
  rfl

variable (env : ConnectionEnv)

theorem playAllowed_plain (s : RtmpSession) (values : List AmfValue) :
    ∀ a ∈ c.playAllowed env s values, a.plain = true := by
  unfold playAllowed
  split
  · simp [playStarted, Action.plain]
  · split <;> simp [playStarted, Action.plain]

theorem playActions_plain (values : List AmfValue) :
    ∀ a ∈ c.playActions env values, a.plain = true := by
  simp only [playActions, forall_mem_cons]
  refine ⟨rfl, ?_⟩
  split
  · simp [Action.plain]
  · split
    · simp [Action.plain]
    · exact playAllowed_plain env _ values

theorem publishActions_plain (values : List AmfValue) :
    ∀ a ∈ c.publishActions env values, a.plain = true := by
  intro a ha
  rcases mem_cons.mp ha with rfl | ha
  · rfl
  rcases mem_append.mp ha with ha | ha
  · exact notes_plain _ a ha
  · rw [mem_singleton.mp ha]
    rfl

theorem namedActions_plain (cmd : Str) (values : List AmfValue) :
    ∀ a ∈ c.namedActions env cmd values, a.plain = true := by
  unfold namedActions
  split_ifs
  · simp [connectActions, Action.plain]
  · split <;> simp [Action.plain]
  · simp [createStreamActions, Action.plain]
  · exact publishActions_plain env values
  · exact playActions_plain env values
  · intro a ha
    rcases mem_append.mp ha with ha | ha
    · exact notes_plain _ a ha
    · rw [mem_singleton.mp ha]
      rfl
  · simp [Action.plain]
  · exact forall_mem_nil _

/-- Only `WindowAckSize` looks at the window. -/
theorem actions_plain {env : ConnectionEnv} {msg : RtmpMessage} {actions : List Action}
    (hm : ∀ size, msg ≠ .windowAckSize size) (h : c.actions env msg = some actions) :
    ∀ a ∈ actions, a.plain = true := by
  cases msg with
  | windowAckSize size => exact absurd rfl (hm size)
  | amf0Command sid ts data =>
    simp only [RtmpConnection.actions] at h
    split at h
    case h_1 => cases h
    case h_2 values _ =>
      split at h
      case h_2 => cases h; exact forall_mem_nil _
      case h_1 cmd _ =>
        cases h
        exact namedActions_plain env cmd values
  | amf0Data sid ts data =>
    simp only [RtmpConnection.actions] at h
    split at h
    case h_1 => cases h
    case h_2 => cases h; exact notes_plain _
  | userControl eventType data =>
    simp only [RtmpConnection.actions] at h
    split at h
    · cases h
      simp [Action.plain]
    · cases h; exact forall_mem_nil _
  | video | audio => cases h; exact notes_plain _
  | setChunkSize | ack | setPeerBandwidth | abort => cases h; exact forall_mem_nil _

theorem sendWindowAck_idle (h : c.ackDue = false) : c.sendWindowAck = (c, []) := by
  rw [sendWindowAck, if_neg (by rw [h]; exact fun hd => Bool.false_ne_true hd.1)]

theorem ackDue_eq_false_iff : c.ackDue = false ↔ unacked c 0 < c.clientWinSize.toNat := by
  rw [ackDue, decide_eq_false_iff_not, not_le]
  rfl

/-- `WindowAckSize` where no acknowledgement falls due. -/
theorem performAll_window (hc : c.connected = true) (hw : c.writes ≠ 0) {size : UInt32}
    (msg : RtmpMessage)
    (hq : unacked c 0 < size.toNat) : c.performAll [.setWindow size, .send msg, .sendWindowAck] =
      ({ c with clientWinSize := size, writes := c.writes - 1 }, [.reply c.encoder msg], true) := by
  have hs := write_taken (c := { c with clientWinSize := size }) hc hw msg
  have hi := sendWindowAck_idle (c := { c with clientWinSize := size, writes := c.writes - 1 })
    (ackDue_eq_false_iff.mpr hq)
  simp only [performAll, perform, hs, hi, if_true, nil_append, append_nil]

theorem Calm.smooth {a : Arrival} {rest : Nat} (hc : c.connected = true) (h : Calm c a rest) :
    rtmpMachine.Smooth c a rest := by
  obtain ⟨⟨actions, hac, hsn, hov⟩, hq, hwn⟩ := h
  -- the connection that the message meets, alone and in its batch
  let c₀ : RtmpConnection := { c.arrive a.size with writes := a.env.writes }
  have hme : ∀ n, (c.arrive n).handleMessage a =
      let r := ({ c.arrive n with writes := a.env.writes } : RtmpConnection).performAll actions
      (r.1, .handled a.msg :: r.2.1, r.2.2) := by
    intro n
    have hmt : ({ c.arrive n with writes := a.env.writes } : RtmpConnection).actions a.env a.msg =
      some actions := by
      rw [← hac]
      cases a.msg <;> rfl
    simp only [handleMessage, hmt]
  have hal := hme a.size
  have hb := hme (a.size + rest)
  rw [show ({ c.arrive (a.size + rest) with writes := a.env.writes } : RtmpConnection) =
    c₀.arrive rest by
    simp only [c₀, arrive, add_assoc]] at hb
  have hf : (c₀.performAll actions).2.2 = true ∧ (c₀.performAll actions).1.connected = true ∧
      (c₀.performAll actions).1.ackDue = false ∧
      (c₀.arrive rest).performAll actions =
        ((c₀.performAll actions).1.arrive rest, (c₀.performAll actions).2) := by
    by_cases hak : ∃ size, a.msg = .windowAckSize size
    · -- the one message that looks at the window
      obtain ⟨size, hms⟩ := hak
      rw [hms] at hac hq
      change unacked c a.size < size.toNat at hq
      cases hac
      have hw : a.env.writes ≠ 0 := Nat.one_le_iff_ne_zero.mp hsn
      have hn := performAll_window (c := c₀) hc hw (.setPeerBandwidth size 2) hq
      have hl := performAll_window (c := c₀.arrive rest) hc hw (.setPeerBandwidth size 2)
        (by have := hwn size hms; rwa [unacked, ← add_assoc] at this)
      rw [hn, hl]
      exact ⟨rfl, hc, ackDue_eq_false_iff.mpr hq, rfl⟩
    · have hp := actions_plain (fun size hs => hak ⟨size, hs⟩) hac
      obtain ⟨hok, hc', hd, hl⟩ := performAll_plain (c := c₀) hc hp hsn hov
      refine ⟨hok, hc', hd.trans (ackDue_eq_false_iff.mpr ?_), hl rest⟩
      have hsm : windowAfter c a.msg = c.clientWinSize := by
        cases hm : a.msg <;> first | rfl | exact absurd ⟨_, hm⟩ hak
      rw [hsm] at hq
      exact hq
  obtain ⟨hok, hc', hd, hl⟩ := hf
  refine ⟨?_, ?_, ?_, ?_⟩
  · exact (congrArg (fun r => r.2.2) hal).trans hok
  · exact (congrArg (fun r => r.1.connected) hal).trans hc'
  · change sendWindowAck ((c.arrive a.size).handleMessage a).1 =
      (((c.arrive a.size).handleMessage a).1, [])
    rw [hal]
    exact sendWindowAck_idle hd
  · change (c.arrive (a.size + rest)).handleMessage a =
      (arrive ((c.arrive a.size).handleMessage a).1 rest, ((c.arrive a.size).handleMessage a).2)
    rw [hb, hal, hl]

/-- Every message but the last of a batch is calm. -/
def CalmBatch : RtmpConnection → List Arrival → Prop
  | _, [] => True
  | _, [_] => True
  | c, a :: b :: batch =>
    Calm c a (rtmpMachine.totalSize (b :: batch)) ∧
      CalmBatch ((c.arrive a.size).handleMessage a).1 (b :: batch)

/-- Every batch that is read is calm. -/
def CalmRun : RtmpConnection → List (List Arrival) → Prop
  | _, [] => True
  | c, batch :: batches => c.connected = true → CalmBatch c batch ∧
    CalmRun (rtmpMachine.runBatch c batch).1 batches

theorem CalmBatch.smooth : ∀ {batch : List Arrival} {c : RtmpConnection}, c.connected = true →
    CalmBatch c batch →
    rtmpMachine.SmoothBatch c batch
  | [], _, _, _ => trivial
  | [_], _, _, _ => trivial
  | _ :: _ :: _, _, hc, h => ⟨h.1.smooth hc, CalmBatch.smooth (h.1.smooth hc).alive h.2⟩

theorem CalmRun.smooth : ∀ {batches : List (List Arrival)} {c : RtmpConnection}, CalmRun c batches →
    rtmpMachine.SmoothRun c batches
  | [], _, _ => trivial
  | _ :: _, _, h => fun hc => ⟨(h hc).1.smooth hc, (h hc).2.smooth⟩

/-- **How messages are grouped into reads does not show**, as long as every message with others of
its batch behind it is calm. -/
theorem batches_invisible (c : RtmpConnection) (batches : List (List Arrival))
    (hne : ∀ batch ∈ batches, batch ≠ []) (hcalm : CalmRun c batches) :
    SameShow (rtmpMachine.runBatches c batches)
      (rtmpMachine.runBatches c (batches.flatten.map fun a => [a])) := by
  rw [BatchMachine.runBatches_singletons hne hcalm.smooth]
  exact ⟨rfl, rfl, rfl⟩

section Runs

/-- Everything is allowed, every stream is there, and the peer takes data. -/
private def openConnection : ConnectionEnv where
  session := ⟨fun _ _ _ => none, fun _ _ _ => none, fun _ _ _ _ => true, fun _ _ => 0,
    fun _ _ => some 0, fun _ => [], true⟩
  openVod := fun _ _ => none
  writes := 10

private def publisher : RtmpConnection :=
  { RtmpConnection.new with session := ⟨some 0, ['a'], ['s'], true⟩ }

/-- A publisher whose audio and video come in one read, and then video alone. -/
private def mediaReads : List (List Arrival) :=
  [[⟨openConnection, .audio 1 0 [0xAF, 1, 7], 15⟩,
    ⟨openConnection, .video 1 0 [0x17, 1, 0, 0, 0, 7], 18⟩],
   [⟨openConnection, .video 1 40 [0x27, 1, 0, 0, 0, 8], 18⟩]]

theorem media_reads_invisible : SameShow (rtmpMachine.runBatches publisher mediaReads)
    (rtmpMachine.runBatches publisher (mediaReads.flatten.map fun a => [a])) := by
  refine batches_invisible publisher mediaReads (by decide) fun _ =>
    ⟨⟨⟨⟨_, rfl, by decide, rfl⟩, by decide, ?_⟩, trivial⟩, ?_⟩
  · exact fun size h => nomatch h
  · exact fun _ => ⟨trivial, trivial⟩

private def commandOf (values : List AmfValue) : RtmpMessage :=
  .amf0Command 0 0 (AmfEncoder.encode values)

/-- Reads that show: data that does not decode in front of a message, a message behind a play, and
two messages that each fill the window. -/
private def shownReads : List (List Arrival) :=
  [[⟨openConnection, .amf0Data 0 0 [2], 13⟩, ⟨openConnection, .windowAckSize 100000, 16⟩],
   [⟨openConnection, commandOf [text "play", .number F64.zero, .null, text "s"], 40⟩,
    ⟨openConnection, .userControl 3 [0, 0, 0, 0], 18⟩],
   [⟨openConnection, .windowAckSize 10, 16⟩, ⟨openConnection, .ack 0, 16⟩]]

theorem reads_shown : shownReads.Forall fun batch =>
    ¬ SameShow (rtmpMachine.runBatches .new [batch])
    (rtmpMachine.runBatches .new (batch.map fun a => [a])) := by
  have hr : ∀ batch ∈ shownReads, handledMessages (rtmpMachine.runBatches .new [batch]) ≠
        handledMessages (rtmpMachine.runBatches .new (batch.map fun a => [a])) ∨
      replies (rtmpMachine.runBatches .new [batch]) ≠
        replies (rtmpMachine.runBatches .new (batch.map fun a => [a])) := by
    decide +kernel
  apply forall_iff_forall_mem.mpr
  intro batch hb hs
  rcases hr batch hb with h | h
  · exact h hs.handled
  · exact h hs.replies

end Runs

end MediaKit.Rtmp
