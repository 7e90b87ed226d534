import MediaKit.Lib.Bytes

/-!
# RTMP messages, the chunk parser and the chunk encoder

`crates/rtmp/src/message.rs`. `RtmpMessageParser` cuts a byte stream into chunks,
collects the payload of each message per chunk stream (`csid`) and returns the
complete messages; `RtmpMessageEncoder` is the writer.

Mirroring notes vs the Rust source:
- `BytesMut`/`Bytes`/`Vec<u8>` are byte lists; `buffer[i]` behind a length check
  is `getD i 0`. `u8`, `u16` and `u32` are `UInt8`, `UInt16` and `UInt32`;
  `usize` values are `Nat`, with `as u32` written as `% 2 ^ 32`.
- `HashMap<u32, ChunkState>` is a partial map `Nat → Option ChunkState`.
- The body of `try_parse_one` is split at its own step comments: `parseHeader`
  is steps 1 to 3, `tryParseOne` adds steps 4 and 5. A function that can panic
  returns `none` for the panic; `make_message` does (`payload.slice(2..)` on a
  one-byte user control payload).
- `has_stuck_data`, `peek_front` and `buffer_len` only feed log lines and are
  left out.
-/

namespace MediaKit.Rtmp

open Lib Function

def MSG_SET_CHUNK_SIZE : UInt8 := 1
def MSG_ABORT : UInt8 := 2
def MSG_ACK : UInt8 := 3
def MSG_USER_CONTROL : UInt8 := 4
def MSG_WINDOW_ACK_SIZE : UInt8 := 5
def MSG_SET_PEER_BW : UInt8 := 6
def MSG_AUDIO : UInt8 := 8
def MSG_VIDEO : UInt8 := 9
def MSG_AMF0_DATA : UInt8 := 18
def MSG_AMF0_COMMAND : UInt8 := 20

inductive RtmpMessage where
  | setChunkSize (size : UInt32)
  | abort (streamId : UInt32)
  | ack (seq : UInt32)
  | userControl (eventType : UInt16) (data : Bytes)
  | windowAckSize (size : UInt32)
  | setPeerBandwidth (size : UInt32) (limitType : UInt8)
  | audio (streamId timestamp : UInt32) (data : Bytes)
  | video (streamId timestamp : UInt32) (data : Bytes)
  | amf0Data (streamId timestamp : UInt32) (data : Bytes)
  | amf0Command (streamId timestamp : UInt32) (data : Bytes)
  deriving DecidableEq

namespace RtmpMessage

def typeId : RtmpMessage → UInt8
  | setChunkSize _ => MSG_SET_CHUNK_SIZE
  | abort _ => MSG_ABORT
  | ack _ => MSG_ACK
  | userControl _ _ => MSG_USER_CONTROL
  | windowAckSize _ => MSG_WINDOW_ACK_SIZE
  | setPeerBandwidth _ _ => MSG_SET_PEER_BW
  | audio _ _ _ => MSG_AUDIO
  | video _ _ _ => MSG_VIDEO
  | amf0Data _ _ _ => MSG_AMF0_DATA
  | amf0Command _ _ _ => MSG_AMF0_COMMAND

def streamId : RtmpMessage → UInt32
  | audio sid _ _ | video sid _ _ | amf0Data sid _ _ | amf0Command sid _ _ => sid
  | _ => 0

def timestamp : RtmpMessage → UInt32
  | audio _ ts _ | video _ ts _ | amf0Data _ ts _ | amf0Command _ ts _ => ts
  | _ => 0

def payload : RtmpMessage → Bytes
  | setChunkSize size => be32 size.toNat
  | abort streamId => be32 streamId.toNat
  | ack seq => be32 seq.toNat
  | userControl eventType data => be16 eventType.toNat ++ data
  | windowAckSize size => be32 size.toNat
  | setPeerBandwidth size limitType => be32 size.toNat ++ [limitType]
  | audio _ _ data | video _ _ data | amf0Data _ _ data | amf0Command _ _ data => data

end RtmpMessage

/-- What the parser remembers of a chunk stream between chunks. -/
structure ChunkState where
  isAbsTimestamp : Bool
  hasExtendedTs : Bool
  tsField : UInt32
  timestamp : UInt32
  msgLength : UInt32
  msgTypeId : UInt8
  msgStreamId : UInt32
  buffer : Bytes
  deriving DecidableEq

structure RtmpMessageParser where
  chunkSize : Nat
  chunkStates : Nat → Option ChunkState
  buffer : Bytes

variable (p : RtmpMessageParser)

namespace RtmpMessageParser

def new : RtmpMessageParser := ⟨128, fun _ => none, []⟩

def setChunkSize (size : UInt32) : RtmpMessageParser := { p with chunkSize := size.toNat }

end RtmpMessageParser

/-- `u32::from_be_bytes` of the four payload bytes at the front. -/
def payloadU32 (payload : Bytes) : UInt32 :=
  UInt32.ofNat (ofBe [payload.getD 0 0, payload.getD 1 0, payload.getD 2 0, payload.getD 3 0])

/-- `make_message`; `none` is the panic of `payload.slice(2..)`. -/
def makeMessage (timestamp : UInt32) (msgTypeId : UInt8) (msgStreamId : UInt32)
    (payload : Bytes) : Option RtmpMessage :=
  if msgTypeId = MSG_SET_CHUNK_SIZE then
    some (.setChunkSize (if 4 ≤ payload.length then payloadU32 payload else 128))
  else if msgTypeId = MSG_ABORT then
    some (.abort (if 4 ≤ payload.length then payloadU32 payload else 0))
  else if msgTypeId = MSG_ACK then
    some (.ack (if 4 ≤ payload.length then payloadU32 payload else 0))
  else if msgTypeId = MSG_USER_CONTROL then
    let eventType : UInt16 :=
      if 2 ≤ payload.length then UInt16.ofNat (ofBe [payload.getD 0 0, payload.getD 1 0]) else 0
    if payload.length < 2 then none else some (.userControl eventType (payload.drop 2))
  else if msgTypeId = MSG_WINDOW_ACK_SIZE then
    some (.windowAckSize (if 4 ≤ payload.length then payloadU32 payload else 2500000))
  else if msgTypeId = MSG_SET_PEER_BW then
    some (.setPeerBandwidth (if 4 ≤ payload.length then payloadU32 payload else 2500000)
      (if 5 ≤ payload.length then payload.getD 4 0 else 2))
  else if msgTypeId = MSG_AUDIO then some (.audio msgStreamId timestamp payload)
  else if msgTypeId = MSG_VIDEO then some (.video msgStreamId timestamp payload)
  else if msgTypeId = MSG_AMF0_DATA then some (.amf0Data msgStreamId timestamp payload)
  else if msgTypeId = MSG_AMF0_COMMAND then some (.amf0Command msgStreamId timestamp payload)
  else some (.amf0Data msgStreamId timestamp payload)

/-! ## Steps 1 to 3: the chunk header -/

/-- Step 1: the chunk stream id and the length of the basic header. -/
def parseBasicHeader (b : Bytes) : Option (Nat × Nat) :=
  let csidRaw := b.getD 0 0 &&& 0x3F
  if csidRaw = 0 then
    if b.length < 2 then none else some ((b.getD 1 0).toNat + 64, 2)
  else if csidRaw = 1 then
    if b.length < 3 then none else some (64 + (b.getD 1 0).toNat + (b.getD 2 0).toNat * 256, 3)
  else some (csidRaw.toNat, 1)

/-- The chunk format, the two top bits of the first byte. -/
def chunkFmt (b : Bytes) : UInt8 := (b.getD 0 0 >>> 6) &&& 0x03

/-- The message header length of each format. -/
def headerLen (fmt : UInt8) : Nat :=
  if fmt = 0 then 11 else if fmt = 1 then 7 else if fmt = 2 then 3 else 0

/-- The chunk context before the message header is read: inherited from the
previous chunk of this stream, with an empty payload when `fmt` is 0. -/
def restoreState (prev : Option ChunkState) (fmt : UInt8) : ChunkState :=
  match prev with
  | some p => { p with isAbsTimestamp := false, buffer := if fmt = 0 then [] else p.buffer }
  | none => ⟨false, false, 0, 0, 0, 0, 0, []⟩

/-- The 24-bit field at `i`. -/
def field24 (b : Bytes) (i : Nat) : UInt32 :=
  UInt32.ofNat (ofBe [0, b.getD i 0, b.getD (i + 1) 0, b.getD (i + 2) 0])

/-- Step 2: the fields a message header of format `fmt` at `pos` overrides. -/
def readMessageHeader (fmt : UInt8) (b : Bytes) (pos : Nat) (s : ChunkState) : ChunkState :=
  if fmt = 0 then
    { s with
      isAbsTimestamp := true
      hasExtendedTs := false
      msgStreamId := UInt32.ofNat
        (ofLe [b.getD (pos + 7) 0, b.getD (pos + 8) 0, b.getD (pos + 9) 0, b.getD (pos + 10) 0])
      msgTypeId := b.getD (pos + 6) 0
      msgLength := field24 b (pos + 3)
      tsField := field24 b pos }
  else if fmt = 1 then
    { s with
      msgTypeId := b.getD (pos + 6) 0
      msgLength := field24 b (pos + 3)
      tsField := field24 b pos }
  else if fmt = 2 then { s with tsField := field24 b pos }
  else s

/-- A chunk header: the chunk stream, the previous and the new context, and the
offset at which the chunk's payload starts. -/
structure ChunkHeader where
  csid : Nat
  prev : Option ChunkState
  state : ChunkState
  pos : Nat

/-- Steps 1 to 3 of `try_parse_one`: `none` while the header is incomplete. -/
def parseHeader (chunkStates : Nat → Option ChunkState) (b : Bytes) : Option ChunkHeader :=
  if b.isEmpty then none
  else
    let fmt := chunkFmt b
    match parseBasicHeader b with
    | none => none
    | some (csid, basicHeaderLen) =>
      if b.length < basicHeaderLen + headerLen fmt then none
      else
        let prev := chunkStates csid
        let state := readMessageHeader fmt b basicHeaderLen (restoreState prev fmt)
        let pos := basicHeaderLen + headerLen fmt
        -- Step 3: Extended timestamp
        if state.tsField = 0xFFFFFF then
          if b.length < pos + 4 then none
          else
            let ts := UInt32.ofNat
              (ofBe [b.getD pos 0, b.getD (pos + 1) 0, b.getD (pos + 2) 0, b.getD (pos + 3) 0])
            some ⟨csid, prev, { state with tsField := ts, hasExtendedTs := true }, pos + 4⟩
        else if fmt = 3 ∧ state.hasExtendedTs = true then
          if b.length < pos + 4 then none else some ⟨csid, prev, state, pos + 4⟩
        else some ⟨csid, prev, state, pos⟩

/-! ## Steps 4 and 5: the chunk payload -/

/-- `state.msg_length.saturating_sub(state.buffer.len() as u32)`. -/
def ChunkState.remaining (s : ChunkState) : Nat := s.msgLength.toNat - s.buffer.length % 2 ^ 32

/-- `min(remaining, self.chunk_size as u32)`. -/
def ChunkState.chunkToRead (s : ChunkState) (chunkSize : Nat) : Nat :=
  min s.remaining (chunkSize % 2 ^ 32)

/-- The timestamp of the message that the chunk completes. -/
def ChunkHeader.messageTs (h : ChunkHeader) : UInt32 :=
  if h.state.isAbsTimestamp then h.state.tsField
  else (h.prev.map (·.timestamp)).getD 0 + h.state.tsField

/-- Step 5: store the context with `data` appended to the payload, and return
the message when it is complete. `rest` is what remains in the buffer. -/
def finishChunk (h : ChunkHeader) (data rest : Bytes) :
    Option (RtmpMessageParser × Option RtmpMessage) :=
  let payload := h.state.buffer ++ data
  if h.state.msgLength.toNat ≤ payload.length then
    let ts := h.messageTs
    let saved := { h.state with timestamp := ts, buffer := [] }
    let chunkSize :=
      if h.state.msgTypeId = MSG_SET_CHUNK_SIZE ∧ 4 ≤ payload.length then
        max (payloadU32 payload).toNat 1
      else p.chunkSize
    match makeMessage ts h.state.msgTypeId h.state.msgStreamId payload with
    | none => none
    | some msg => some (⟨chunkSize, update p.chunkStates h.csid (some saved), rest⟩, some msg)
  else
    let saved := { h.state with buffer := payload }
    some (⟨p.chunkSize, update p.chunkStates h.csid (some saved), rest⟩, none)

/-- `try_parse_one`: the parser after the attempt and the message it completed.
`none` is a panic. -/
def tryParseOne : Option (RtmpMessageParser × Option RtmpMessage) :=
  match parseHeader p.chunkStates p.buffer with
  | none => some (p, none)
  | some h =>
    let available := min (h.state.chunkToRead p.chunkSize) (p.buffer.length - h.pos)
    if available = 0 then
      if h.state.remaining = 0 then some ({ p with buffer := p.buffer.drop h.pos }, none)
      else some (p, none)
    else
      finishChunk p h ((p.buffer.drop h.pos).take available) (p.buffer.drop (h.pos + available))

namespace RtmpMessageParser

/-- The loop of `feed`: attempts until one neither returns a message nor
shortens the buffer. Every other attempt shortens it, so the buffer length plus
one bounds their number. -/
def feedLoop : Nat → RtmpMessageParser → Option (RtmpMessageParser × List RtmpMessage)
  | 0, p => some (p, [])
  | n + 1, p =>
    match tryParseOne p with
    | none => none
    | some (p', some msg) => (feedLoop n p').map fun r => (r.1, msg :: r.2)
    | some (p', none) => if p'.buffer.length = p.buffer.length then some (p', []) else feedLoop n p'

/-- `feed`: the parser afterwards and the messages returned; `none` is a panic. -/
def feed (data : Bytes) : Option (RtmpMessageParser × List RtmpMessage) :=
  let p := { p with buffer := p.buffer ++ data }
  feedLoop (p.buffer.length + 1) p

end RtmpMessageParser

/-! ## The encoder -/

structure RtmpMessageEncoder where
  chunkSize : Nat
  deriving DecidableEq

namespace RtmpMessageEncoder

def new : RtmpMessageEncoder := ⟨128⟩

def setChunkSize (_ : RtmpMessageEncoder) (size : Nat) : RtmpMessageEncoder := ⟨size⟩

end RtmpMessageEncoder

def encodeBasicHeader (fmt : UInt8) (csid : Nat) : Bytes :=
  if 64 + 256 ≤ csid then
    [(fmt <<< 6) ||| 1, UInt8.ofNat (csid - 64), UInt8.ofNat ((csid - 64) >>> 8)]
  else if 64 ≤ csid then [fmt <<< 6, UInt8.ofNat (csid - 64)]
  else [(fmt <<< 6) ||| UInt8.ofNat csid]

/-- The chunk stream each message type is sent on. -/
def encodeCsid (typeId : UInt8) : Nat :=
  if typeId = MSG_AUDIO then 4
  else if typeId = MSG_VIDEO then 6
  else if typeId = MSG_AMF0_COMMAND then 3
  else if typeId = MSG_AMF0_DATA then 8
  else 2

/-- The payload loop of `encode`: chunks of `chunkSize` bytes with a format 3
header between them. `payload` is what is still to be written; for a chunk size of
at least one every round writes a byte of it, so its length bounds the rounds. With
chunk size zero the loop of the source does not end. -/
def encodeChunks (chunkSize csid : Nat) : Nat → Bytes → Bytes
  | 0, _ => []
  | n + 1, payload =>
    if payload.isEmpty then []
    else
      payload.take chunkSize ++
        (if (payload.drop chunkSize).isEmpty then []
         else encodeBasicHeader 3 csid ++ encodeChunks chunkSize csid n (payload.drop chunkSize))

/-- The message header of `encode`, extended timestamp included. -/
def encodeHeader (csid timestamp length : Nat) (typeId : UInt8) (streamId : Nat) : Bytes :=
  let tsField := if 0xFFFFFF ≤ timestamp then 0xFFFFFF else timestamp
  encodeBasicHeader 0 csid ++
  [UInt8.ofNat (tsField >>> 16), UInt8.ofNat (tsField >>> 8), UInt8.ofNat tsField,
   UInt8.ofNat (length >>> 16), UInt8.ofNat (length >>> 8), UInt8.ofNat length, typeId,
   UInt8.ofNat streamId, UInt8.ofNat (streamId >>> 8), UInt8.ofNat (streamId >>> 16), 0] ++
  (if 0xFFFFFF ≤ timestamp then be32 timestamp else [])

def RtmpMessageEncoder.encode (e : RtmpMessageEncoder) (msg : RtmpMessage) : Bytes :=
  let payload := msg.payload
  let csid := encodeCsid msg.typeId
  encodeHeader csid msg.timestamp.toNat payload.length msg.typeId msg.streamId.toNat ++
    encodeChunks e.chunkSize csid payload.length payload

end MediaKit.Rtmp
