import MediaKit.Core.AnnexB
import MediaKit.Lib.Checked
import MediaKit.Lib.Fragments

/-!
# The RTP packetizer

`crates/core/src/rtp.rs`: `RtpPacketizer` turns the frames of a track into RTP packets. A NAL unit
that fits into the payload of a packet is sent alone, a longer one in fragments (FU-A of H.264, FU
of H.265).

`packetizeNalu_spec` says what the packets of a NAL unit carry: the pieces of `Lib.Fragments`,
encoded as the format of the codec demands, behind the header of the track. `annexBNalus_annexBOf`
says that NAL units without a start code are found again behind start codes.

Mirroring notes vs the Rust source:
  * The loops over the fragments of a NAL unit run on its length. Where a packet has no room for a
    single octet, the source loops forever or underflows; both are a fault here.
  * The two functions for NAL units differ in how long the head of a unit is and in what stands
    before a fragment (`NaluFormat`).
  * `anyhow` errors are the errors of `payload.rs` or a text.
-/

namespace MediaKit.Core

open Lib List Option

/-! ## Annex-B -/

/-- `annex_b_nalus`, which looks for start codes as `annex_b_nalu_ranges` does. -/
def annexBNalus (data : Bytes) : List Bytes := (annexBNaluRanges data).map fun range =>
  (data.take range.2).drop range.1

/-! ## `RtpPacketizer` -/

inductive RtpError where
  | payload (e : Error)
  | text (text : String)
  deriving DecidableEq

def defaultMtu : Nat := 1400

structure RtpPacketizer where
  ssrc : UInt32
  payloadType : UInt8
  sequence : UInt16
  clockRate : UInt32
  mtu : Nat
  deriving DecidableEq

/-- The packetizer behind a call, and the packets. -/
abbrev Packetized := Option (RtpPacketizer × List Bytes)

/-- The header of a packet of a track. -/
def rtpHeader (payloadType : UInt8) (marker : Bool) (sequence : UInt16) (timestamp ssrc : UInt32) :
    Bytes :=
  [0x80, payloadType ||| (if marker then 0x80 else 0)] ++ be16 sequence.toNat ++
    be32 timestamp.toNat ++ be32 ssrc.toNat

/-- How NAL units of a codec are cut: the length of their head, and what stands before a
fragment. -/
structure NaluFormat where
  headLen : Nat
  fuHead : Bytes → Bool → Bool → Bytes

open NaluFormat

/-- The FU header: the type and whether the fragment is the first or the last one. -/
def fuHeader (nalType : UInt8) (first stop : Bool) : UInt8 :=
  nalType ||| (if first then 0x80 else 0) ||| (if stop then 0x40 else 0)

def h264Format : NaluFormat where
  headLen := 1
  fuHead head first stop :=
    [(head.getD 0 0 &&& 0xE0) ||| 28, fuHeader (head.getD 0 0 &&& 0x1F) first stop]

def h265Format : NaluFormat where
  headLen := 2
  fuHead head first stop :=
    [(head.getD 0 0 &&& 0x81) ||| ((49 : UInt8) <<< (1 : UInt8)), head.getD 1 0,
      fuHeader ((head.getD 0 0 >>> 1) &&& 0x3F) first stop]

namespace RtpPacketizer

def new (ssrc : UInt32) (payloadType : UInt8) (clockRate : UInt32) : RtpPacketizer :=
  ⟨ssrc, payloadType &&& 0x7F, 0, max clockRate 1, defaultMtu⟩

def withSequence (p : RtpPacketizer) (sequence : UInt16) : RtpPacketizer :=
  { p with sequence := sequence }

def withPayloadMtu (p : RtpPacketizer) (mtu : Nat) : RtpPacketizer :=
  { p with mtu := min (max mtu 1) (65535 - 12) }

/-- `timestamp`: milliseconds in ticks of the clock. -/
def timestamp (p : RtpPacketizer) (timestampMs : UInt32) : UInt32 :=
  UInt32.ofNat (timestampMs.toNat * p.clockRate.toNat / 1000)

def header (p : RtpPacketizer) (timestamp : UInt32) (marker : Bool) : RtpPacketizer × Bytes :=
  ({ p with sequence := p.sequence + 1 },
    rtpHeader p.payloadType marker p.sequence timestamp p.ssrc)

/-- The loop over what is left of a NAL unit. -/
def fragments (fmt : NaluFormat) (head : Bytes) (timestamp : UInt32) (lastNalu : Bool) :
    Nat → Bool → RtpPacketizer → Bytes → Packetized
  | _, _, p, [] => some (p, [])
  | 0, _, _, _ :: _ => none
  | fuel + 1, first, p, rest@(_ :: _) => do
    let room ← subUsize p.mtu (fmt.headLen + 1)
    let chunk := min room rest.length
    let stop : Bool := chunk = rest.length
    let out := p.header timestamp (lastNalu && stop)
    let more ← fragments fmt head timestamp lastNalu fuel false out.1 (rest.drop chunk)
    return (more.1, (out.2 ++ fmt.fuHead head first stop ++ rest.take chunk) :: more.2)

/-- `packetize_h264_nalu` and `packetize_h265_nalu`. -/
def packetizeNalu (fmt : NaluFormat) (p : RtpPacketizer) (nalu : Bytes) (timestamp : UInt32)
    (lastNalu : Bool) : Packetized :=
  if nalu.length < fmt.headLen then some (p, [])
  else if nalu.length ≤ p.mtu then
    let out := p.header timestamp lastNalu
    some (out.1, [out.2 ++ nalu])
  else
    let rest := nalu.drop fmt.headLen
    fragments fmt (nalu.take fmt.headLen) timestamp lastNalu rest.length true p rest

def packetizeH264Nalu := packetizeNalu h264Format

def packetizeH265Nalu := packetizeNalu h265Format

/-- The loop of `packetize_video`. -/
def packetizeNalus (packetizeOne : RtpPacketizer → Bytes → UInt32 → Bool → Packetized)
    (timestamp : UInt32) : RtpPacketizer → List Bytes → Packetized
  | p, [] => some (p, [])
  | p, nalu :: nalus => do
    let one ← packetizeOne p nalu timestamp nalus.isEmpty
    let more ← packetizeNalus packetizeOne timestamp one.1 nalus
    return (more.1, one.2 ++ more.2)

def packetizeVideo (p : RtpPacketizer) (frame : MediaFrame) : Except (Stop RtpError)
    (RtpPacketizer × List Bytes) := do
  let packetizeOne ←
    match frame.codec with
    | .h264 => .ok packetizeH264Nalu
    | .h265 => .ok packetizeH265Nalu
    | codec => .error (.error (.text ("RTP ES video codec " ++ codec.debug ++ " is not supported")))
  let annexB ←
    (if frame.configFrame then videoConfigAnnexB frame else videoSampleAnnexB frame).mapError
    fun e => .error (.payload e)
  checked (packetizeNalus packetizeOne (p.timestamp frame.timestamp) p (annexBNalus annexB))

def rawAudioPayload (frame : MediaFrame) : Bytes :=
  let flv := frame.payloadFormat = .flv ∨ frame.payloadFormat = .unknown ∧
    ∃ header ∈ frame.data.head?, header >>> 4 = 2 ∨ header >>> 4 = 7 ∨ header >>> 4 = 8
  if flv ∧ frame.data ≠ [] then frame.data.drop 1 else frame.data

/-- The payload of an audio frame and what stands before it. -/
def audioPayload (frame : MediaFrame) : Except (Stop RtpError) (Bytes × Bytes) :=
  match frame.codec with
  | .aac => do
    let payload ← (aacRawPayload frame).mapError fun e => .error (.payload e)
    let auHeader := (UInt16.ofNat payload.length <<< 3) &&& 0xFFF8
    return (payload, be16 16 ++ be16 auHeader.toNat)
  | .opus | .g711a | .g711u | .l16 => .ok (rawAudioPayload frame, [])
  | .mp3 | .mp2a => .ok (rawAudioPayload frame, [0, 0, 0, 0])
  | codec => .error (.error (.text ("RTP ES audio codec " ++ codec.debug ++ " is not supported")))

def packetizeAudio (p : RtpPacketizer) (frame : MediaFrame) :
    Except (Stop RtpError) (RtpPacketizer × List Bytes) :=
  if frame.configFrame then .ok (p, [])
  else do
    let (payload, before) ← audioPayload frame
    if payload = [] then return (p, [])
    else
      let out := p.header (p.timestamp frame.timestamp) true
      return (out.1, [out.2 ++ before ++ payload])

def packetize (p : RtpPacketizer) (frame : MediaFrame) :
    Except (Stop RtpError) (RtpPacketizer × List Bytes) :=
  match frame.frameType with
  | .video => p.packetizeVideo frame
  | .audio => p.packetizeAudio frame
  | .metadata => .ok (p, [])

end RtpPacketizer

/-! ## Start codes -/

theorem annexBNalus_annexBOf {nalus : List Bytes} (hne : ∀ n ∈ nalus, n ≠ [])
    (h : ∀ n ∈ nalus, ¬ [0, 0, 1] <:+: n) : annexBNalus (annexBOf nalus) = nalus := by
  have hu := congrArg (map Prod.snd) (annexBNaluRanges_annexBOf hne h)
  rw [List.map_map, List.map_map] at hu
  exact hu.trans (map_id' nalus)

/-! ## What the packets carry -/

/-- The payload for a piece of a NAL unit. -/
def NaluFormat.encode (fmt : NaluFormat) : Piece UInt8 → Bytes
  | .whole u => u
  | .part head start stop body => fmt.fuHead head start stop ++ body

section Octets

variable (start stop : Bool)

theorem fuHeader_bits : ∀ nalType : UInt8, nalType &&& 0xC0 = 0 →
    (fuHeader nalType start stop &&& 0x80 ≠ 0 ↔ start = true) ∧
      (fuHeader nalType start stop &&& 0x40 ≠ 0 ↔ stop = true) ∧
      fuHeader nalType start stop &&& 0x3F = nalType := by
  refine forall_octet ?_
  cases start <;> cases stop <;> decide +kernel

/-- The head of an H.264 unit, taken apart and put together again. -/
theorem h264_head : ∀ h : UInt8, ((h &&& 0xE0) ||| 28) &&& 0x1F = 28 ∧
    (((h &&& 0xE0) ||| 28) &&& 0xE0) ||| (h &&& 0x1F) = h ∧ (h &&& 0x1F) &&& 0xC0 = 0 :=
  forall_octet (by decide +kernel)

theorem h265_head : ∀ h : UInt8,
    (((h &&& (0x81 : UInt8)) ||| ((49 : UInt8) <<< (1 : UInt8))) >>> (1 : UInt8))
      &&& (0x3F : UInt8) = 49 ∧
    (((h &&& (0x81 : UInt8)) ||| ((49 : UInt8) <<< (1 : UInt8))) &&& (0x81 : UInt8)) |||
        (((h >>> (1 : UInt8)) &&& (0x3F : UInt8)) <<< (1 : UInt8)) = h ∧
      ((h >>> (1 : UInt8)) &&& (0x3F : UInt8)) &&& (0xC0 : UInt8) = 0 :=
  forall_octet (by decide +kernel)

theorem fuHeader_type : ∀ h : UInt8, fuHeader (h &&& 0x1F) start stop &&& 0x1F = h &&& 0x1F := by
  refine forall_octet ?_
  cases start <;> cases stop <;> decide +kernel

end Octets

/-- How a NAL unit is sent. Nothing is sent of one that is shorter than its head. -/
def NaluFormat.sending (fmt : NaluFormat) (mtu : Nat) (nalu : Bytes) : Sending UInt8 :=
  if nalu.length < fmt.headLen then .parts nalu []
  else cut mtu fmt.headLen (mtu - (fmt.headLen + 1)) nalu

/-- The payloads for some pieces of a NAL unit, with their markers. -/
def NaluFormat.payloads (fmt : NaluFormat) (lastNalu : Bool) (pieces : List (Piece UInt8)) :
    List (Bool × Bytes) :=
  pieces.map fun piece => (lastNalu && piece.closes, fmt.encode piece)

/-- The NAL unit fits into a packet, has nothing behind its head, or leaves room in each
fragment. -/
def NaluFormat.HasRoom (fmt : NaluFormat) (mtu : Nat) (nalu : Bytes) : Prop :=
  nalu.length ≤ mtu ∨ nalu.length ≤ fmt.headLen ∨ fmt.headLen + 2 ≤ mtu

namespace RtpPacketizer

variable {p : RtpPacketizer} {lastNalu : Bool} {timestamp : UInt32} {head nalu : Bytes}
  {fmt : NaluFormat} {mtu : Nat}

/-- A packet of the track. -/
def Carries (p : RtpPacketizer) (timestamp : UInt32) (marker : Bool) (payload packet : Bytes) :
    Prop :=
  ∃ sequence, packet = rtpHeader p.payloadType marker sequence timestamp p.ssrc ++ payload

/-- The packets carry the pieces, and the last one the marker if the NAL unit is the last one. -/
def Carry (p : RtpPacketizer) (fmt : NaluFormat) (timestamp : UInt32) (lastNalu : Bool) :
    List (Piece UInt8) → List Bytes → Prop :=
  Forall₂ fun piece packet => p.Carries timestamp (lastNalu && piece.closes)
    (fmt.encode piece) packet

/-- The track, apart from the sequence number. -/
def SameTrack (p p' : RtpPacketizer) : Prop := ∃ sequence, p' = { p with sequence := sequence }

theorem SameTrack.refl (p : RtpPacketizer) : p.SameTrack p := ⟨p.sequence, rfl⟩

theorem SameTrack.trans {q r : RtpPacketizer} (h : p.SameTrack q) (h' : q.SameTrack r) :
    p.SameTrack r := by
  obtain ⟨_, rfl⟩ := h
  obtain ⟨sequence, rfl⟩ := h'
  exact ⟨sequence, rfl⟩

/-- Payloads in packets one after the other, each with its marker. -/
def numbered (timestamp : UInt32) : RtpPacketizer → List (Bool × Bytes) → RtpPacketizer × List Bytes
  | p, [] => (p, [])
  | p, (marker, payload) :: payloads =>
    let out := p.header timestamp marker
    let more := numbered timestamp out.1 payloads
    (more.1, (out.2 ++ payload) :: more.2)

theorem numbered_track : ∀ {payloads : List (Bool × Bytes)} {p : RtpPacketizer},
    (numbered timestamp p payloads).1 =
      { p with sequence := p.sequence + UInt16.ofNat payloads.length }
  | [], p => by rw [length_nil, show UInt16.ofNat 0 = 0 from rfl, UInt16.add_zero]; rfl
  | _ :: payloads, p => by
    rw [numbered, numbered_track, length_cons, UInt16.ofNat_add, UInt16.add_comm _ (UInt16.ofNat 1),
      ← UInt16.add_assoc]
    rfl

theorem carries_numbered : ∀ {payloads : List (Bool × Bytes)} {q : RtpPacketizer}, p.SameTrack q →
    Forall₂ (fun x packet => p.Carries timestamp x.1 x.2 packet) payloads
      (numbered timestamp q payloads).2
  | [], _, _ => .nil
  | _ :: _, q, h => by
    refine .cons ⟨q.sequence, ?_⟩ (carries_numbered (h.trans ⟨_, rfl⟩))
    obtain ⟨sequence, rfl⟩ := h
    rfl

theorem fragments_of_room : ∀ {fuel : Nat} {first : Bool} {p : RtpPacketizer} {rest : Bytes},
    fmt.headLen + 2 ≤ p.mtu → rest.length ≤ fuel →
    fragments fmt head timestamp lastNalu fuel first p rest =
      some (numbered timestamp p (fmt.payloads lastNalu
        (marked head first (chunksUpTo (p.mtu - (fmt.headLen + 1)) fuel rest)))) := by
  intro fuel
  induction fuel with
  | zero =>
    intro first p rest _ hf
    rw [length_eq_zero_iff.mp (Nat.le_zero.mp hf)]
    rfl
  | succ fuel ih =>
    intro first p rest hmt hf
    cases rest with
    | nil => rfl
    | cons b rest =>
      -- a packet has room for one octet at least, so what is left gets shorter
      have hr : subUsize p.mtu (fmt.headLen + 1) = some (p.mtu - (fmt.headLen + 1)) :=
        subUsize_of_le (by omega)
      generalize hsz : p.mtu - (fmt.headLen + 1) = room at hr
      have hl : ((b :: rest).drop room).length ≤ fuel := by
        rw [length_drop]
        omega
      have hst : decide (min room (b :: rest).length = (b :: rest).length) =
          (chunksUpTo room fuel ((b :: rest).drop room)).isEmpty := by
        rw [isEmpty_chunksUpTo, Bool.eq_iff_iff, decide_eq_true_iff, List.isEmpty_iff,
          drop_eq_nil_iff]
        · omega
        · by_cases hz : fuel = 0
          · exact .inl (length_eq_zero_iff.mp (by omega))
          · exact .inr (Nat.pos_of_ne_zero hz)
      have hmr := @ih false (p.header timestamp
        (lastNalu && (chunksUpTo room fuel ((b :: rest).drop room)).isEmpty)).1 _ hmt hl
      rw [fragments, hr]
      simp only [bind_eq_bind, bind_some]
      rw [← drop_eq_drop_min, ← take_eq_take_min, hst, hmr, chunksUpTo, if_neg (by simp)]
      exact hsz ▸ rfl

/-- Without room for an octet the loop does not move on, or underflows. -/
theorem fragments_of_no_room {rest : Bytes} (hne : rest ≠ []) :
    ∀ {fuel : Nat} {first : Bool} {p : RtpPacketizer},
    p.mtu < fmt.headLen + 2 → fragments fmt head timestamp lastNalu fuel first p rest = none := by
  obtain ⟨b, rest, rfl⟩ := exists_cons_of_ne_nil hne
  intro fuel
  induction fuel with
  | zero => exact fun _ => rfl
  | succ fuel ih =>
    intro first p hm
    rw [fragments, subUsize]
    split
    next hle =>
      have hz : p.mtu - (fmt.headLen + 1) = 0 := by omega
      simp only [hz, Nat.zero_min, drop_zero, bind_eq_bind, bind_some]
      rw [ih (p := (p.header _ _).1) hm]
      rfl
    next => rfl

/-- **The packets of a NAL unit.** -/
theorem packetizeNalu_of_room (h : fmt.HasRoom p.mtu nalu) :
    packetizeNalu fmt p nalu timestamp lastNalu =
    some (numbered timestamp p (fmt.payloads lastNalu (fmt.sending p.mtu nalu).pieces)) := by
  rw [packetizeNalu, sending]
  by_cases hs : nalu.length < fmt.headLen
  · rw [if_pos hs, if_pos hs]
    rfl
  rw [if_neg hs, if_neg hs, cut]
  by_cases hf : nalu.length ≤ p.mtu
  · rw [if_pos hf, if_pos hf]
    show _ = some (numbered timestamp p [(lastNalu && true, nalu)])
    rw [Bool.and_true]
    rfl
  rw [if_neg hf, if_neg hf]
  rcases h.resolve_left hf with hh | hr
  · rw [drop_eq_nil_of_le hh]
    rfl
  · exact fragments_of_room hr le_rfl

theorem hasRoom_of_packetizeNalu {out : RtpPacketizer × List Bytes}
    (h : packetizeNalu fmt p nalu timestamp lastNalu = some out) : fmt.HasRoom p.mtu nalu := by
  by_contra hno
  obtain ⟨hl, hh, hm⟩ : ¬ nalu.length ≤ p.mtu ∧ ¬ nalu.length ≤ fmt.headLen ∧
      ¬ fmt.headLen + 2 ≤ p.mtu := by
    rwa [HasRoom, not_or, not_or] at hno
  rw [packetizeNalu, if_neg (by omega), if_neg hl,
    fragments_of_no_room (fun hnil => hh (drop_eq_nil_iff.mp hnil)) (Nat.lt_of_not_le hm)] at h
  cases h

theorem packetizeNalu_spec {out : RtpPacketizer × List Bytes}
    (h : packetizeNalu fmt p nalu timestamp lastNalu = some out) :
    p.SameTrack out.1 ∧ p.Carry fmt timestamp lastNalu (fmt.sending p.mtu nalu).pieces out.2 := by
  rw [packetizeNalu_of_room (hasRoom_of_packetizeNalu h)] at h
  obtain rfl := some.inj h
  refine ⟨⟨_, numbered_track⟩, ?_⟩
  have hc := @carries_numbered p timestamp (fmt.payloads lastNalu (fmt.sending p.mtu nalu).pieces) p
    (.refl p)
  rw [payloads, forall₂_map_left_iff] at hc
  exact hc

theorem unit_sending (h : fmt.HasRoom mtu nalu) : (fmt.sending mtu nalu).unit = nalu := by
  rw [sending]
  split
  next => exact append_nil nalu
  next hs =>
    rcases h with hf | hh | hr
    · exact unit_cut (.inl hf)
    · rw [cut]
      split
      next => rfl
      next =>
        rw [drop_eq_nil_of_le hh]
        exact (append_nil _).trans (take_of_length_le hh)
    · exact unit_cut (.inr (by omega))

theorem isSent_sending (hm : fmt.headLen + 2 ≤ mtu)
    (hlen : fmt.headLen ≤ nalu.length) : (fmt.sending mtu nalu).isSent = true := by
  rw [sending, if_neg (by omega), cut]
  split
  next => rfl
  next hln =>
    have hr : 0 < (nalu.drop fmt.headLen).length := by
      rw [length_drop]
      omega
    rw [Sending.isSent, chunks, isEmpty_chunksUpTo (.inr hr), Bool.not_eq_true',
      isEmpty_eq_false_iff]
    exact length_pos_iff.mp hr

theorem mem_marked {head : List UInt8} {bodies : List Bytes} {start : Bool} {piece : Piece UInt8}
    (h : piece ∈ marked head start bodies) :
    ∃ start stop, ∃ body ∈ bodies, piece = .part head start stop body := by
  induction bodies generalizing start with
  | nil => cases h
  | cons body bodies ih =>
    rw [marked, mem_cons] at h
    rcases h with rfl | h
    · exact ⟨_, _, _, mem_cons_self, rfl⟩
    · obtain ⟨start, stop, body', hb, heq⟩ := ih h
      exact ⟨start, stop, body', mem_cons_of_mem body hb, heq⟩

theorem mem_pieces_sending {piece : Piece UInt8} (h : piece ∈ (fmt.sending mtu nalu).pieces) :
    fmt.headLen ≤ nalu.length ∧ (piece = .whole nalu ∧ nalu.length ≤ mtu ∨
      ∃ start stop body, piece = .part (nalu.take fmt.headLen) start stop body) := by
  rw [sending] at h
  split at h
  next => cases h
  next hs =>
    refine ⟨Nat.not_lt.mp hs, ?_⟩
    rw [cut] at h
    split at h
    next hf => exact .inl ⟨mem_singleton.mp h, hf⟩
    next =>
      obtain ⟨start, stop, body, -, heq⟩ := mem_marked h
      exact .inr ⟨start, stop, body, heq⟩

theorem pieces_of_fits (hlen : fmt.headLen ≤ nalu.length)
    (hf : nalu.length ≤ mtu) : (fmt.sending mtu nalu).pieces = [.whole nalu] := by
  rw [sending, if_neg (Nat.not_lt.mpr hlen), cut, if_pos hf]
  rfl

/-! ## One NAL unit after the other -/

/-- A call for a NAL unit. -/
structure NaluCall where
  nalu : Bytes
  timestamp : UInt32
  lastNalu : Bool
  deriving DecidableEq

/-- Some calls: every NAL unit with its packets. -/
def packetizeCalls (packetizeOne : RtpPacketizer → Bytes → UInt32 → Bool → Packetized) :
    RtpPacketizer → List NaluCall → Option (RtpPacketizer × List (Bytes × List Bytes))
  | p, [] => some (p, [])
  | p, c :: cs => do
    let one ← packetizeOne p c.nalu c.timestamp c.lastNalu
    let more ← packetizeCalls packetizeOne one.1 cs
    return (more.1, (c.nalu, one.2) :: more.2)

/-- The calls for a frame. -/
def callsOf (timestamp : UInt32) : List Bytes → List NaluCall
  | [] => []
  | n :: ns => ⟨n, timestamp, ns.isEmpty⟩ :: callsOf timestamp ns

theorem packetizeNalus_eq_calls (packetizeOne : RtpPacketizer → Bytes → UInt32 → Bool → Packetized)
    (timestamp : UInt32) (nalus : List Bytes) :
    ∀ p : RtpPacketizer, packetizeNalus packetizeOne timestamp p nalus =
        (packetizeCalls packetizeOne p (callsOf timestamp nalus)).map fun out =>
          (out.1, out.2.flatMap Prod.snd) := by
  induction nalus with
  | nil => exact fun _ => rfl
  | cons n ns ih =>
    intro p
    rw [packetizeNalus, callsOf, packetizeCalls]
    cases packetizeOne p n timestamp ns.isEmpty with
    | none => rfl
    | some one =>
      simp only [bind_eq_bind, bind_some]
      rw [ih]
      cases packetizeCalls packetizeOne one.1 (callsOf timestamp ns) <;> rfl

/-- The packets of a call. -/
def Answers (p : RtpPacketizer) (fmt : NaluFormat) (c : NaluCall) (group : Bytes × List Bytes) :
    Prop :=
  group.1 = c.nalu ∧ (fmt.sending p.mtu c.nalu).unit = c.nalu ∧
    p.Carry fmt c.timestamp c.lastNalu (fmt.sending p.mtu c.nalu).pieces group.2

theorem SameTrack.answers {q : RtpPacketizer} (h : p.SameTrack q) {c : NaluCall}
    {group : Bytes × List Bytes} (ha : q.Answers fmt c group) : p.Answers fmt c group := by
  obtain ⟨sequence, rfl⟩ := h
  exact ha

/-- **The packets of some calls.** -/
theorem packetizeCalls_spec : ∀ {cs : List NaluCall} {p p' : RtpPacketizer}
    {groups : List (Bytes × List Bytes)}, packetizeCalls (packetizeNalu fmt) p cs =
      some (p', groups) →
    p.SameTrack p' ∧ Forall₂ (p.Answers fmt) cs groups := by
  intro cs
  induction cs with
  | nil =>
    intro p p' groups h
    cases h
    exact ⟨.refl p, .nil⟩
  | cons c cs ih =>
    intro p p' groups h
    obtain ⟨one, ho, h⟩ := bind_eq_some_iff.mp h
    obtain ⟨more, hm, h⟩ := bind_eq_some_iff.mp h
    cases h
    obtain ⟨hs, hc⟩ := packetizeNalu_spec ho
    obtain ⟨hs', ha⟩ := ih hm
    refine ⟨hs.trans hs', .cons ⟨rfl, unit_sending (hasRoom_of_packetizeNalu ho), hc⟩ ?_⟩
    exact ha.imp fun _ _ => hs.answers

theorem packetizeCalls_isSome (cs : List NaluCall) :
    ∀ {p : RtpPacketizer}, fmt.headLen + 2 ≤ p.mtu →
    ∃ out, packetizeCalls (packetizeNalu fmt) p cs = some out := by
  induction cs with
  | nil => exact fun _ => ⟨_, rfl⟩
  | cons c cs ih =>
    intro p hmt
    have ho := @packetizeNalu_of_room p c.lastNalu c.timestamp c.nalu fmt (.inr (.inr hmt))
    obtain ⟨more, hmr⟩ :=
      @ih (numbered c.timestamp p (fmt.payloads c.lastNalu (fmt.sending p.mtu c.nalu).pieces)).1
        (by rw [numbered_track]; exact hmt)
    rw [packetizeCalls, ho, bind_eq_bind, bind_some, hmr]
    exact ⟨_, rfl⟩

end RtpPacketizer

/-! ## Frames -/

/-- How the NAL units of a codec are cut. -/
def formatOf (codec : CodecId) : NaluFormat := if codec = .h265 then h265Format else h264Format

/-- A NAL unit that is taken for an aggregation packet or for a fragment if it is alone in a
packet. -/
def Structured (codec : CodecId) (nalu : Bytes) : Prop :=
  if codec = .h265 then (nalu.getD 0 0 >>> 1) &&& 0x3F = 48 ∨ (nalu.getD 0 0 >>> 1) &&& 0x3F = 49
  else nalu.getD 0 0 &&& 0x1F = 24 ∨ nalu.getD 0 0 &&& 0x1F = 28

instance (codec : CodecId) (nalu : Bytes) : Decidable (Structured codec nalu) := by
  unfold Structured
  infer_instance

/-- No NAL unit that arrives in a packet of its own is taken for anything else. -/
def NoneStructured (p : RtpPacketizer) (codec : CodecId) (keep : Nat → Nat → Bool)
    (calls : List RtpPacketizer.NaluCall) : Prop :=
  ∀ k c, calls[k]? = some c → keep k 0 = true → c.nalu.length ≤ p.mtu → ¬ Structured codec c.nalu

/-- A frame of NAL units behind start codes. -/
structure IsAnnexB (codec : CodecId) (nalus : List Bytes) (frame : MediaFrame) : Prop where
  video : frame.frameType = .video
  codec_eq : frame.codec = codec
  format : frame.payloadFormat = .annexB
  sample : frame.configFrame = false
  data : frame.data = annexBOf nalus

/-- **The packets of a frame** are those of its NAL units. -/
theorem RtpPacketizer.packetize_annexB {codec : CodecId} {nalus : List Bytes} {frame : MediaFrame}
    (hc : IsH26x codec) (hf : IsAnnexB codec nalus frame) (hne : ∀ n ∈ nalus, n ≠ [])
    (hs : ∀ n ∈ nalus, ¬ [0, 0, 1] <:+: n) (p : RtpPacketizer) :
    p.packetize frame = checked ((packetizeCalls (packetizeNalu (formatOf codec)) p
      (callsOf (p.timestamp frame.timestamp) nalus)).map fun out =>
        (out.1, out.2.flatMap Prod.snd)) := by
  have hd : declaredOrDetectedVideoFormat frame = .annexB := by
    rw [declaredOrDetectedVideoFormat, hf.format, if_pos nofun]
  have haB : videoSampleAnnexB frame = .ok (annexBOf nalus) := by
    rw [videoSampleAnnexB, hf.sample, if_neg Bool.false_ne_true, hd, hf.data]
  rw [packetize, hf.video, packetizeVideo, hf.codec_eq, hf.sample, if_neg Bool.false_ne_true, haB]
  rcases hc with rfl | rfl
  · show checked (packetizeNalus packetizeH264Nalu _ p (annexBNalus (annexBOf nalus))) = _
    rw [annexBNalus_annexBOf hne hs, packetizeNalus_eq_calls]
    rfl
  · show checked (packetizeNalus packetizeH265Nalu _ p (annexBNalus (annexBOf nalus))) = _
    rw [annexBNalus_annexBOf hne hs, packetizeNalus_eq_calls]
    rfl

namespace RtpPacketizer

/-- One frame after the other. -/
def packetizeAll : RtpPacketizer → List MediaFrame →
    Except (Stop RtpError) (RtpPacketizer × List Bytes)
  | p, [] => .ok (p, [])
  | p, frame :: frames => do
    let one ← p.packetize frame
    let more ← packetizeAll one.1 frames
    return (more.1, one.2 ++ more.2)

/-- A frame of an access unit: its timestamp and its NAL units. -/
def OfUnit (codec : CodecId) (unit : UInt32 × List Bytes) (frame : MediaFrame) : Prop :=
  IsAnnexB codec unit.2 frame ∧ frame.timestamp = unit.1

/-- The calls for some access units. -/
def unitCalls (p : RtpPacketizer) (units : List (UInt32 × List Bytes)) : List NaluCall :=
  units.flatMap fun unit => callsOf (p.timestamp unit.1) unit.2

/-- **The packets of some frames** are those of their NAL units. -/
theorem packetizeAll_annexB {codec : CodecId} (hcd : IsH26x codec)
    {units : List (UInt32 × List Bytes)}
    {frames : List MediaFrame} (hfm : Forall₂ (OfUnit codec) units frames) :
    (∀ unit ∈ units, ∀ n ∈ unit.2, n ≠ [] ∧ ¬ [0, 0, 1] <:+: n) → ∀ {p : RtpPacketizer},
      (formatOf codec).headLen + 2 ≤ p.mtu →
        ∃ p' groups, p.packetizeAll frames = .ok (p', groups.flatMap Prod.snd) ∧ p.SameTrack p' ∧
          Forall₂ (p.Answers (formatOf codec)) (p.unitCalls units) groups := by
  induction hfm with
  | nil => exact fun _ p _ => ⟨p, [], rfl, .refl p, .nil⟩
  | @cons unit frame units frames hfr _ ih =>
    intro hcr p hmt
    have hun := hcr unit mem_cons_self
    have hon := packetize_annexB hcd hfr.1 (fun n hn => (hun n hn).1) (fun n hn => (hun n hn).2) p
    obtain ⟨out, hot⟩ := packetizeCalls_isSome (callsOf (p.timestamp frame.timestamp) unit.2) hmt
    obtain ⟨hs, han⟩ := packetizeCalls_spec hot
    obtain ⟨sequence, hp⟩ := hs
    obtain ⟨p', groups, hmr, hs', han'⟩ :=
      ih (fun u hu => hcr u (mem_cons_of_mem unit hu)) (show _ ≤ out.1.mtu by rw [hp]; exact hmt)
    have hcl : out.1.unitCalls units = p.unitCalls units := by rw [hp]; rfl
    rw [hcl] at han'
    refine ⟨p', out.2 ++ groups, ?_, SameTrack.trans ⟨sequence, hp⟩ hs', ?_⟩
    · rw [hot] at hon
      rw [packetizeAll, hon, flatMap_append]
      show (packetizeAll out.1 frames).bind _ = _
      rw [hmr]
      rfl
    · rw [unitCalls, flatMap_cons, ← hfr.2]
      exact rel_append han (han'.imp fun _ _ h => SameTrack.answers ⟨sequence, hp⟩ h)

end RtpPacketizer

end MediaKit.Core
