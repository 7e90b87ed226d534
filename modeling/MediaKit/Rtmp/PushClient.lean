import Mathlib.Data.List.Induction
import MediaKit.Core.Frame
import MediaKit.Rtmp.Amf
import MediaKit.Rtmp.Message

/-!
# The push client and the two chunk sizes of a connection

`crates/rtmp/src/push_client.rs`, `start` from the first command on: `connect`,
`createStream` and `publish` are sent one after the other, each when the reply to
the one before has been read, and then every frame of the local source.

Each direction of an RTMP connection has its own chunk size. The client never
announces one, so the server keeps reading it at 128 bytes a chunk
(`serverChunkSize`); but `apply_control_messages` gives the size that the server
announced for its own direction to the client's encoder. `chunkSizes_agree_iff`:
the sizes agree at every message sent if and only if, each time one is encoded,
the last size announced in front of an awaited reply is 128 or there was none.

Mirroring notes: `start` is a state machine with one step per `read`, per frame
and for its end (closed connection, read or write error, missing local source,
`stop`). A read that returns messages behind the awaited reply drops them, as
`read_until_result` does. The TLS and TCP connection and the handshake come
before the first state.
-/

namespace MediaKit.Rtmp

open Lib MediaKit.Core List

/-- Where the client pushes to. -/
structure PushTarget where
  url : Str
  remoteApp : Str
  remoteStream : Str

def connectMsg (t : PushTarget) : RtmpMessage :=
  .amf0Command 0 0 (AmfEncoder.encode
    [.string "connect", .number F64.one,
     .object [("app", .string t.remoteApp), ("tcUrl", .string t.url)]])

def createStreamMsg : RtmpMessage :=
  .amf0Command 0 0 (AmfEncoder.encode [.string "createStream", .number F64.two, .null])

def publishMsg (t : PushTarget) (pushStreamId : UInt32) : RtmpMessage :=
  .amf0Command pushStreamId 0 (AmfEncoder.encode
    [.string "publish", .number F64.three, .null, .string t.remoteStream,
     .string "live"])

def frameMsg (pushStreamId : UInt32) (frame : MediaFrame) : RtmpMessage :=
  match frame.frameType with
  | .video => .video pushStreamId frame.timestamp frame.data
  | .audio => .audio pushStreamId frame.timestamp frame.data
  | .metadata => .amf0Data pushStreamId frame.timestamp frame.data

/-- The values of a command, when it is one that decodes and starts with `name`. -/
def commandNamed (name : Str) (m : RtmpMessage) : Option (List AmfValue) :=
  match m with
  | .amf0Command _ _ data =>
    match AmfDecoder.decode data with
    | .ok vals =>
      match vals.head? with
      | some (.string s) => if s = name then some vals else none
      | _ => none
    | .error _ => none
  | _ => none

/-- The reply that `read_until_result` waits for. -/
def isResult (txnId : Nat) (m : RtmpMessage) : Bool :=
  match commandNamed "_result" m with
  | none => false
  | some vals =>
    let got := match vals[1]? with
      | some (AmfValue.number n) => n
      | _ => F64.zero
    F64.near got txnId

/-- The reply that `read_until_status` waits for. -/
def isStatus (m : RtmpMessage) : Bool := (commandNamed "onStatus" m).isSome

/-- The loop over one batch of messages: what has been collected, and whether
the reply was among it. -/
def scanReply (isReply : RtmpMessage → Bool) :
    List RtmpMessage → List RtmpMessage → List RtmpMessage × Bool
  | all, [] => (all, false)
  | all, m :: msgs => if isReply m then (all ++ [m], true) else scanReply isReply (all ++ [m]) msgs

/-- The stream id in the reply to `createStream`. -/
def findStreamId (msgs : List RtmpMessage) : Option UInt32 :=
  msgs.findSome? fun m =>
    match commandNamed "_result" m with
    | none => none
    | some vals =>
      match vals[3]? with
      | some (AmfValue.number n) => some (F64.toU32 n)
      | _ => none

def applyControlMessages (encoder : RtmpMessageEncoder) (msgs : List RtmpMessage) :
    RtmpMessageEncoder :=
  msgs.foldl (fun e m =>
    match m with
    | .setChunkSize size => e.setChunkSize size.toNat
    | _ => e) encoder

/-- What the client is waiting for. -/
inductive PushPhase where
  | connect
  | createStream
  | publish (pushStreamId : UInt32)
  | streaming (pushStreamId : UInt32)
  | closed
  deriving DecidableEq

/-- The reply that a waiting phase reads for. -/
def PushPhase.reply : PushPhase → Option (RtmpMessage → Bool)
  | connect => some (isResult 1)
  | createStream => some (isResult 2)
  | publish _ => some isStatus
  | streaming _ | closed => none

/-- A message with the encoder that wrote it. -/
structure Sent where
  encoder : RtmpMessageEncoder
  msg : RtmpMessage
  deriving DecidableEq

structure PushClient where
  parser : RtmpMessageParser
  encoder : RtmpMessageEncoder
  all : List RtmpMessage
  phase : PushPhase
  sent : List Sent

namespace PushClient

/-- `stream.write_all(&encoder.encode(&msg))`. -/
def send (c : PushClient) (msg : RtmpMessage) : PushClient :=
  { c with sent := c.sent ++ [⟨c.encoder, msg⟩] }

/-- The client behind its `connect` command. -/
def start (t : PushTarget) : PushClient := send ⟨.new, .new, [], .connect, []⟩ (connectMsg t)

end PushClient

open PushClient

inductive PushEvent where
  | read (data : Bytes)
  | frame (f : MediaFrame)
  | ended

/-- What `start` does with the messages of a complete reply. -/
def PushClient.replied (t : PushTarget) (c : PushClient) (msgs : List RtmpMessage) : PushClient :=
  match c.phase with
  | .connect => { c with phase := .createStream }.send createStreamMsg
  | .createStream =>
    match findStreamId msgs with
    | none => { c with phase := .closed }
    | some pushStreamId =>
      { c with phase := .publish pushStreamId }.send (publishMsg t pushStreamId)
  | .publish pushStreamId => { c with phase := .streaming pushStreamId }
  | .streaming _ | .closed => c

def PushClient.step (t : PushTarget) (c : PushClient) : PushEvent → PushClient
  | .ended => { c with phase := .closed }
  | .frame f =>
    match c.phase with
    | .streaming pushStreamId => c.send (frameMsg pushStreamId f)
    | _ => c
  | .read data =>
    match c.phase.reply with
    | none => c
    | some isReply =>
      match c.parser.feed data with
      -- the parser panicked
      | none => { c with phase := .closed }
      | some (parser, msgs) =>
        let r := scanReply isReply c.all msgs
        if r.2 then
          { c with
            parser := parser
            all := []
            encoder := applyControlMessages c.encoder r.1 }.replied t r.1
        else { c with parser := parser, all := r.1 }

def PushClient.run (t : PushTarget) (es : List PushEvent) : PushClient :=
  es.foldl (step t) (.start t)

/-! ## The server's side -/

/-- The chunk size at which a server reads that starts at 128 and follows the
`SetChunkSize` messages it receives. -/
def serverChunkSize (received : List RtmpMessage) : Nat :=
  received.foldl (fun n m =>
    match m with
    | .setChunkSize size => max size.toNat 1
    | _ => n) 128

/-- Every message was cut as a server expects that has received any part of the
messages before it. -/
def ChunkSizesAgree (sent : List Sent) : Prop :=
  ∀ before s after, sent = before ++ s :: after →
    ∀ received, received <+: before.map (·.msg) →
      s.encoder.chunkSize = serverChunkSize received ∧
      s.encoder.encode s.msg = (RtmpMessageEncoder.mk (serverChunkSize received)).encode s.msg

/-! ## What the client was told -/

/-- The messages that a step hands to `apply_control_messages`: those up to the
awaited reply. -/
def PushClient.returned (c : PushClient) : PushEvent → List RtmpMessage
  | .read data =>
    match c.phase.reply with
    | none => []
    | some isReply =>
      match c.parser.feed data with
      | none => []
      | some (_, msgs) =>
        let r := scanReply isReply c.all msgs
        if r.2 then r.1 else []
  | _ => []

/-- The messages up to the awaited replies, over a whole run from `c`. -/
def PushClient.returnedFrom (t : PushTarget) : PushClient → List PushEvent → List RtmpMessage
  | _, [] => []
  | c, e :: es => c.returned e ++ returnedFrom t (c.step t e) es

def PushClient.returnedBy (t : PushTarget) (es : List PushEvent) : List RtmpMessage :=
  returnedFrom t (.start t) es

/-- The last chunk size announced among the messages, `size` if there is none. -/
def lastChunkSize (size : Nat) (msgs : List RtmpMessage) : Nat :=
  msgs.foldl (fun n m =>
    match m with
    | .setChunkSize size => size.toNat
    | _ => n) size

/-- The messages a step encodes. -/
def PushClient.encoded (t : PushTarget) (c : PushClient) (e : PushEvent) : List RtmpMessage :=
  ((c.step t e).sent.drop c.sent.length).map (·.msg)

/-! ## The encoder follows the server -/

section Steps

variable (t : PushTarget) (msgs : List RtmpMessage)

theorem applyControlMessages_chunkSize : ∀ e : RtmpMessageEncoder,
      (applyControlMessages e msgs).chunkSize = lastChunkSize e.chunkSize msgs := by
  induction msgs with
  | nil => intro e; rfl
  | cons m msgs ih =>
    intro e
    cases m with
    | setChunkSize size => exact ih (e.setChunkSize size.toNat)
    | _ => exact ih e

theorem lastChunkSize_append (size : Nat) (as bs : List RtmpMessage) :
    lastChunkSize size (as ++ bs) = lastChunkSize (lastChunkSize size as) bs :=
  foldl_append

variable (c : PushClient)

theorem replied_encoder : (c.replied t msgs).encoder = c.encoder := by
  unfold replied
  split
  · rfl
  · split <;> rfl
  · rfl
  · rfl
  · rfl

variable (e : PushEvent)

/-- The encoder changes by the returned messages only. -/
theorem step_encoder : (c.step t e).encoder = applyControlMessages c.encoder (c.returned e) := by
  cases e with
  | ended => rfl
  | frame f =>
    unfold step
    simp only
    split <;> rfl
  | read data =>
    unfold step returned
    simp only
    cases c.phase.reply with
    | none => rfl
    | some isReply =>
      cases c.parser.feed data with
      | none => rfl
      | some q =>
        simp only
        split
        · rw [replied_encoder]
        · rfl

/-- A message that leaves the server's chunk size as it is. -/
def Quiet (m : RtmpMessage) : Prop := ∀ size, m ≠ .setChunkSize size

theorem frameMsg_quiet (sid : UInt32) (f : MediaFrame) : Quiet (frameMsg sid f) := by
  intro size
  unfold frameMsg
  split <;> exact nofun

theorem replied_sent :
    ∃ ms : List RtmpMessage, (c.replied t msgs).sent = c.sent ++ ms.map (Sent.mk c.encoder) ∧
    ∀ m ∈ ms, Quiet m := by
  have hn : ∃ ms : List RtmpMessage, c.sent = c.sent ++ ms.map (Sent.mk c.encoder) ∧ ∀ m ∈ ms,
    Quiet m := ⟨[], by simp, nofun⟩
  have ho : ∀ m, Quiet m → ∃ ms : List RtmpMessage, c.sent ++ [⟨c.encoder, m⟩]
      = c.sent ++ ms.map (Sent.mk c.encoder) ∧ ∀ m ∈ ms, Quiet m := by
    intro m hm
    exact ⟨[m], rfl, by simpa using hm⟩
  unfold replied
  split
  · exact ho createStreamMsg nofun
  · split
    · exact hn
    · exact ho (publishMsg t _) nofun
  · exact hn
  · exact hn
  · exact hn

/-- What a step sends is written by the encoder it leaves, and announces no chunk size. -/
theorem step_sent :
    ∃ ms : List RtmpMessage, (c.step t e).sent = c.sent ++ ms.map (Sent.mk (c.step t e).encoder) ∧
    ∀ m ∈ ms, Quiet m := by
  have hn : ∀ enc, ∃ ms : List RtmpMessage, c.sent = c.sent ++ ms.map (Sent.mk enc) ∧
      ∀ m ∈ ms, Quiet m :=
    fun enc => ⟨[], by simp, nofun⟩
  cases e with
  | ended => exact hn _
  | frame f =>
    unfold step
    simp only
    split
    next sid _ => exact ⟨[frameMsg sid f], rfl, by simpa using frameMsg_quiet sid f⟩
    · exact hn _
  | read data =>
    unfold step
    simp only
    cases c.phase.reply with
    | none => exact hn _
    | some isReply =>
      cases c.parser.feed data with
      | none => exact hn _
      | some q =>
        simp only
        split
        · rw [replied_encoder]
          exact replied_sent t _ _
        · exact hn _

/-- The messages that a step encodes are the ones it adds to the log. -/
theorem step_sent_eq :
    (c.step t e).sent = c.sent ++ (c.encoded t e).map (Sent.mk (c.step t e).encoder) ∧
    ∀ m ∈ c.encoded t e, Quiet m := by
  obtain ⟨ms, hms, hq⟩ := step_sent t c e
  have heq : c.encoded t e = ms := by
    unfold encoded
    rw [hms, drop_left]
    simp [Function.comp_def]
  rw [heq]
  exact ⟨hms, hq⟩

variable (es : List PushEvent)

theorem run_concat : run t (es ++ [e]) = (run t es).step t e := by
  simp [run]

theorem returnedFrom_concat : ∀ (es : List PushEvent) (c : PushClient), returnedFrom t c (es ++ [e])
      = returnedFrom t c es ++ (es.foldl (step t) c).returned e := by
  intro es
  induction es with
  | nil => intro c; simp [returnedFrom]
  | cons e' es ih =>
    intro c
    simp only [cons_append, returnedFrom, foldl_cons, ih, append_assoc]

/-- The encoder's chunk size is the last one the server announced. -/
theorem run_encoder : (run t es).encoder.chunkSize = lastChunkSize 128 (returnedBy t es) := by
  induction es using reverseRecOn with
  | nil => rfl
  | append_singleton es e ih =>
    rw [run_concat, step_encoder, applyControlMessages_chunkSize, ih]
    unfold returnedBy
    rw [returnedFrom_concat, lastChunkSize_append]
    rfl

/-! ## The result -/

theorem serverChunkSize_quiet (received : List RtmpMessage) :
    (∀ m ∈ received, Quiet m) → serverChunkSize received = 128 := by
  induction received with
  | nil => intro _; rfl
  | cons m ms ih =>
    intro hq
    have hm := hq m (mem_cons_self ..)
    cases m with
    | setChunkSize size => exact absurd rfl (hm size)
    | _ => exact ih fun m' hm' => hq m' (mem_cons_of_mem _ hm')

theorem run_quiet : ∀ s ∈ (run t es).sent, Quiet s.msg := by
  induction es using reverseRecOn with
  | nil =>
    intro s hs
    simp only [run, foldl_nil, start, send, nil_append, mem_singleton] at hs
    rw [hs]
    exact nofun
  | append_singleton es e ih =>
    intro s hs
    obtain ⟨hsn, hq⟩ := step_sent_eq t (run t es) e
    rw [run_concat, hsn, mem_append, mem_map] at hs
    rcases hs with hs | ⟨m, hm, rfl⟩
    · exact ih s hs
    · exact hq m hm

theorem chunkSizesAgree_iff : ChunkSizesAgree (run t es).sent ↔
      ∀ s ∈ (run t es).sent, s.encoder.chunkSize = 128 := by
  have hsr : ∀ before s after, (run t es).sent = before ++ s :: after →
      ∀ received, received <+: before.map (·.msg) → serverChunkSize received = 128 := by
    intro before s after hsn received hp
    refine serverChunkSize_quiet received fun m hm => ?_
    obtain ⟨s', hs', rfl⟩ := mem_map.mp (hp.subset hm)
    exact run_quiet t es s' (by rw [hsn]; exact mem_append_left _ hs')
  constructor
  · intro hag s hs
    obtain ⟨before, after, hsn⟩ := append_of_mem hs
    rw [(hag before s after hsn [] nil_prefix).1]
    rfl
  · intro hal before s after hsn received hp
    have h128 := hal s (by rw [hsn]; simp)
    rw [hsr before s after hsn received hp]
    refine ⟨h128, ?_⟩
    rw [show s.encoder = RtmpMessageEncoder.mk 128 from congrArg RtmpMessageEncoder.mk h128]

/-- **When the chunk sizes of client and server agree.** Over every run, each
message is cut at the size at which the server reads if and only if, whenever the
client encodes one, the last size that the server announced in front of an awaited
reply is 128, or it announced none. -/
theorem chunkSizes_agree_iff (es : List PushEvent) : ChunkSizesAgree (run t es).sent ↔
      ∀ es₁ e, es₁ ++ [e] <+: es → (run t es₁).encoded t e ≠ [] →
        lastChunkSize 128 (returnedBy t (es₁ ++ [e])) = 128 := by
  rw [chunkSizesAgree_iff]
  induction es using reverseRecOn with
  | nil =>
    refine ⟨fun _ es₁ e hp => by simp at hp, fun _ s hs => ?_⟩
    simp only [run, foldl_nil, start, send, nil_append, mem_singleton] at hs
    rw [hs]
    rfl
  | append_singleton es e ih =>
    obtain ⟨hsn, -⟩ := step_sent_eq t (run t es) e
    have hsz := run_encoder t (es ++ [e])
    rw [run_concat] at hsz
    constructor
    · intro hal es₁ e₁ hp hne
      rcases prefix_concat_iff.mp hp with heq | hp'
      · obtain ⟨rfl, rfl⟩ := append_singleton_inj.mp heq
        obtain ⟨m, hm⟩ := exists_mem_of_ne_nil _ hne
        rw [← hsz]
        refine hal ⟨_, m⟩ ?_
        rw [run_concat, hsn]
        exact mem_append_right _ (mem_map_of_mem hm)
      · refine ih.mp (fun s hs => hal s ?_) es₁ e₁ hp' hne
        rw [run_concat, hsn]
        exact mem_append_left _ hs
    · intro hc s hs
      rw [run_concat, hsn, mem_append, mem_map] at hs
      rcases hs with hs | ⟨m, hm, rfl⟩
      · exact ih.mpr (fun es₁ e₁ hp => hc es₁ e₁ (hp.trans (prefix_append _ _))) s hs
      · rw [hsz]
        exact hc es e (prefix_refl _) (ne_nil_of_mem hm)

end Steps

/-- What `RtmpSession::handle_connect` sends, in the order it does: the size of its
own chunks goes out in front of the `_result` that the client awaits. -/
def connectReply : Bytes :=
  RtmpMessageEncoder.new.encode (.windowAckSize 2500000) ++
  RtmpMessageEncoder.new.encode (.setPeerBandwidth 2500000 2) ++
  RtmpMessageEncoder.new.encode (.setChunkSize 4096) ++
  (RtmpMessageEncoder.new.setChunkSize 4096).encode
    (.amf0Command 0 0 (AmfEncoder.encode [.string "_result", .number F64.one]))

/-- Against this server the client's second message is already cut at 4096. -/
theorem chunkSizes_disagree : ¬ ChunkSizesAgree
      (run ⟨"u", "a", "s"⟩ [.read connectReply]).sent := by
  rw [chunkSizesAgree_iff]
  decide +kernel

end MediaKit.Rtmp
