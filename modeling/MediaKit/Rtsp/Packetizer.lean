import MediaKit.Core.FlvPayload
import MediaKit.Lib.LengthPrefixed
import MediaKit.Rtsp.RoundTrip

/-!
# The packetizer of the RTSP server

`crates/rtsp/src/session.rs`, `packetize_video`, `packetize_h264` and `packetize_hevc`: the server
has a packetizer of its own for players. It reads the NAL units of the FLV payload and sends each
one as if it were the last of its frame: the last packet of every NAL unit has the marker.

`inverts_iff_clean` says for which frames the depacketizer of the same crate finds the frames again.
At the depacketizer every NAL unit is an access unit of its own (`Sends`), so a frame with two
pictures falls apart. Apart from that the clock must not overflow (`timestamp * 90`), the FU
indicator of H.264 loses the first bit of a NAL unit, and NAL units of H.265 that have no second
octet are left out.

Mirroring notes vs the Rust source:
  * `make_rtp_header` is `rtpHeader`. The sequence number and the source are those of an
    `RtpPacketizer` with the numbers of the session (`IsTrack`), whose loop over fragments and whose
    function for H.265 are the same.
  * Loops over positions run on what is left of the payload. A sum of positions cannot overflow.
  * A panic is `none`; the packets of the frame are lost with it.
-/

namespace MediaKit.Rtsp.Play

open Lib MediaKit.Core Rtsp.Push RtpDepacketizer List Option RtpPacketizer

/-! ## NAL units of a payload -/

variable {codec : CodecId} {p : RtpPacketizer} {timestamp : UInt32} {data n : Bytes}
  {frame : MediaFrame} {frames : List MediaFrame} {nalus packets : List Bytes} {ts : UInt32}

/-- The NAL units of a sample. -/
def sampleNalus (data : Bytes) : List Bytes := (prefixedUnits 4 data.length (data.drop 5)).1

/-- SPS and PPS of an `AVCDecoderConfigurationRecord`. -/
def avcConfigNalus (data : Bytes) : List Bytes :=
  if data.length < 11 then []
  else
    let sps := prefixedUnits 2 (data.getD 10 0 &&& 0x1F).toNat (data.drop 11)
    match sps.2 with
    | [] => sps.1
    | numPps :: rest => sps.1 ++ (prefixedUnits 2 numPps.toNat rest).1

/-- The NAL units of an `HEVCDecoderConfigurationRecord` with the type of their array. -/
def hevcArrays : Nat → Bytes → List (UInt8 × Bytes)
  | n + 1, nalType :: high :: low :: rest =>
    let units := prefixedUnits 2 (ofBe [high, low]) rest
    units.1.map (fun nalu => (nalType &&& 0x3F, nalu)) ++ hevcArrays n units.2
  | _, _ => []

/-- `extract_hevc_nalus`: the last VPS, SPS and PPS. -/
def extractHevcNalus (data : Bytes) : Option Bytes × Option Bytes × Option Bytes :=
  if data.length < 28 then (none, none, none)
  else
    let arrays := hevcArrays (data.getD 27 0).toNat (data.drop 28)
    let last := fun nalType : UInt8 =>
      ((arrays.filter fun a => a.1 = nalType).getLast?).map Prod.snd
    (last 32, last 33, last 34)

/-- `[vps, sps, pps].iter().flatten()`. -/
def hevcConfigNalus (data : Bytes) : List Bytes :=
  let nalus := extractHevcNalus data
  nalus.1.toList ++ nalus.2.1.toList ++ nalus.2.2.toList

/-! ## Packets -/

/-- `timestamp * 90`. -/
def rtpTs (timestamp : UInt32) : Option UInt32 :=
  if timestamp.toNat * 90 < 2 ^ 32 then some (timestamp * 90) else none

/-- The fragments of `packetize_h264`. -/
def fuFormat : NaluFormat where
  headLen := 1
  fuHead head first stop :=
    let nalType := head.getD 0 0 &&& 0x1F
    [(head.getD 0 0 &&& 0x60) ||| 28, if first then 0x80 ||| nalType
      else if stop then 0x40 ||| nalType else nalType]

/-- A NAL unit in one packet. -/
def sendWhole (p : RtpPacketizer) (nalu : Bytes) (ts : UInt32) (_ : Bool) : Packetized :=
  let out := p.header ts true
  some (out.1, [out.2 ++ nalu])

/-- A NAL unit of a sample of H.264. -/
def sendH264 (p : RtpPacketizer) (nalu : Bytes) (ts : UInt32) (lastNalu : Bool) : Packetized :=
  if nalu.length ≤ p.mtu then sendWhole p nalu ts lastNalu
  else fragments fuFormat (nalu.take 1) ts true (nalu.drop 1).length true p (nalu.drop 1)

/-- A NAL unit of a sample of H.265. -/
def sendHevc (p : RtpPacketizer) (nalu : Bytes) (ts : UInt32) (_ : Bool) : Packetized :=
  packetizeH265Nalu p nalu ts true

/-- NAL units one after the other. -/
def sendAll (send : RtpPacketizer → Bytes → UInt32 → Bool → Packetized) (p : RtpPacketizer)
    (timestamp : UInt32) (nalus : List Bytes) : Packetized := do
  let ts ← rtpTs timestamp
  let out ← packetizeCalls send p (nalus.map fun n => ⟨n, ts, true⟩)
  return (out.1, out.2.flatMap Prod.snd)

def packetizeH264 (p : RtpPacketizer) (data : Bytes) (timestamp : UInt32) : Packetized :=
  let packetType := data.getD 1 0 &&& 0x0F
  if data.length < 5 then some (p, [])
  else if packetType = 0 then
    if avcConfigNalus data = [] then some (p, []) else sendAll sendWhole p timestamp
      (avcConfigNalus data)
  else if packetType = 1 then sendAll sendH264 p timestamp (sampleNalus data)
  else some (p, [])

def packetizeHevc (p : RtpPacketizer) (data : Bytes) (timestamp : UInt32) : Packetized :=
  let packetType := data.getD 1 0 &&& 0x0F
  if data.length < 5 then some (p, [])
  else do
    let _ ← rtpTs timestamp
    if packetType = 0 then sendAll sendWhole p timestamp (hevcConfigNalus data)
    else if packetType = 1 then sendAll sendHevc p timestamp (sampleNalus data)
    else return (p, [])

def packetizeVideo (p : RtpPacketizer) (frame : MediaFrame) : Packetized :=
  match flvPayload frame with
  | .error _ => some (p, [])
  | .ok data =>
    match frame.codec with
    | .h265 => packetizeHevc p data frame.timestamp
    | .h264 => packetizeH264 p data frame.timestamp
    | _ => some (p, [])

/-- One frame after the other. -/
def packetizeFrames : RtpPacketizer → List MediaFrame → Packetized
  | p, [] => some (p, [])
  | p, frame :: frames => do
    let one ← packetizeVideo p frame
    let more ← packetizeFrames one.1 frames
    return (more.1, one.2 ++ more.2)

/-- The numbers of the session. -/
def IsTrack (p : RtpPacketizer) : Prop := p.payloadType = 96 ∧ p.mtu = 1400

/-! ## What a frame has -/

/-- The NAL units of a payload, as far as the packetizer reads it. -/
def payloadNalus (codec : CodecId) (data : Bytes) : List Bytes :=
  let packetType := data.getD 1 0 &&& 0x0F
  if data.length < 5 then []
  else if packetType = 0 then (if codec = .h265 then hevcConfigNalus data else avcConfigNalus data)
  else if packetType = 1 then sampleNalus data
  else []

def payloadOf (frame : MediaFrame) : Bytes := (flvPayload frame).toOption.getD []

/-- The NAL units of a frame that are no parameter sets. -/
def pictures (frame : MediaFrame) : List Bytes :=
  (payloadNalus frame.codec (payloadOf frame)).filter fun n => !isParam frame.codec n

/-- The packetizer computes a timestamp for the payload. -/
def Stamped (codec : CodecId) (data : Bytes) : Prop :=
  5 ≤ data.length ∧ (codec = .h265 ∨ data.getD 1 0 &&& 0x0F = 1 ∨ data.getD 1 0 &&& 0x0F = 0 ∧
    avcConfigNalus data ≠ [])

/-- A NAL unit that may stand alone in a packet. -/
def Legal (codec : CodecId) (nalu : Bytes) : Prop :=
  nalu ≠ [] ∧ if codec = .h265 then (nalu.getD 0 0 >>> 1) &&& 0x3F ≠ 48 ∧
    (nalu.getD 0 0 >>> 1) &&& 0x3F ≠ 49
    else 1 ≤ nalu.getD 0 0 &&& 0x1F ∧ nalu.getD 0 0 &&& 0x1F ≤ 23

instance (codec : CodecId) (nalu : Bytes) : Decidable (Legal codec nalu) := by
  unfold Legal
  infer_instance

/-- The NAL unit without its first bit. -/
def cleared (nalu : Bytes) : Bytes := (nalu.getD 0 0 &&& 0x7F) :: nalu.drop 1

/-- What arrives of a NAL unit. -/
def arrival (codec : CodecId) (whole : Bool) (nalu : Bytes) : Option Bytes :=
  if codec = .h265 then if nalu.length < 2 then none else some nalu
  else if !whole && decide (1400 < nalu.length) then some (cleared nalu)
  else some nalu

/-! ## At the depacketizer -/

/-- What the depacketizer emits for NAL units that arrive. -/
def emissions (codec : CodecId) (ts : UInt32) (nalus : List Bytes) : List (Emitted UInt32 UInt8) :=
  nalus.map fun n => ⟨ts, [n], isIdr codec n⟩

/-- Packets that make an idle depacketizer emit something and leave it idle. -/
def Brings (codec : CodecId) (packets : List Bytes) (out : List (Emitted UInt32 UInt8)) : Prop :=
  ∃ tagged, Forall₂ (IsPacket codec 96) tagged packets ∧
    runLog (assemble (codec = .h264) (marksOf codec)) ⟨none, [], false⟩ tagged =
      (⟨none, [], false⟩, out)

theorem brings_nil (codec : CodecId) : Brings codec [] [] := ⟨[], .nil, rfl⟩

theorem Brings.append {packets' : List Bytes} {out out' : List (Emitted UInt32 UInt8)}
    (h : Brings codec packets out) (h' : Brings codec packets' out') :
    Brings codec (packets ++ packets') (out ++ out') := by
  obtain ⟨tagged, hp, hrun⟩ := h
  obtain ⟨tagged', hp', hrun'⟩ := h'
  refine ⟨tagged ++ tagged', rel_append hp hp', ?_⟩
  rw [runLog_append, hrun, hrun']

/-- A function that sends every NAL unit as an access unit. -/
def Sends (codec : CodecId) (send : RtpPacketizer → Bytes → UInt32 → Bool → Packetized)
    (arrives : Bytes → Option Bytes) : Prop :=
  ∀ p nalu ts, IsTrack p → Legal codec nalu →
    ∃ p' packets, send p nalu ts true = some (p', packets) ∧ p.SameTrack p' ∧
    Brings codec packets (emissions codec ts (arrives nalu).toList)

/-- The only NAL unit of an access unit. -/
theorem brings_tagged {g : Sending UInt8} (hs : g.isSent = true)
    (hm : marksOf codec g.head g.unit = isIdr codec g.unit)
    (h : Forall₂ (IsPacket codec 96) (g.tagged ts true) packets) :
    Brings codec packets (emissions codec ts [g.unit]) := by
  refine ⟨g.tagged ts true, h, ?_⟩
  rw [runLog_tagged _ _ hs ts true rfl, if_pos rfl, hm]
  exact if_neg (cons_ne_nil _ _)

theorem sends_whole (hc : IsH26x codec) : Sends codec sendWhole (arrival codec true) := by
  intro p nalu ts hp hl
  refine ⟨_, _, rfl, ⟨_, rfl⟩, ?_⟩
  have hpk : ∀ {piece : Option (Piece UInt8)}, RtpDepacketizer.Brings codec nalu piece →
      Forall₂ (IsPacket codec 96) [⟨ts, true, piece⟩] [(p.header ts true).2 ++ nalu] := by
    intro piece hpc
    refine .cons ⟨p.sequence, p.ssrc, nalu, ?_, hpc⟩ .nil
    rw [← hp.1]
    rfl
  -- alone in its packet, unless it has no second octet
  have ho : Readable codec (.whole nalu) →
      Brings codec [(p.header ts true).2 ++ nalu] (emissions codec ts [nalu]) :=
    fun hr => brings_tagged (g := .whole nalu) rfl (congrArg (isIdr codec) (ite_self _))
      (hpk ⟨hr, rfl⟩)
  rcases hc with rfl | rfl
  · exact ho hl.2
  · by_cases hsh : nalu.length < 2
    · have hn : arrival .h265 true nalu = none := if_pos hsh
      rw [hn]
      exact ⟨[⟨ts, true, none⟩], hpk ⟨hl.1, hsh⟩, rfl⟩
    · have hsm : arrival .h265 true nalu = some nalu := if_neg hsh
      rw [hsm]
      exact ho ⟨Nat.not_lt.mp hsh, hl.2⟩

/-- A NAL unit that is sent as `RtpPacketizer` would send it. -/
theorem brings_packetizeNalu (hcd : IsH26x codec) (hp : IsTrack p)
    {nalu : Bytes} (hrd : Readable codec (.whole nalu)) (ts : UInt32) :
    ∃ p' packets, packetizeNalu (formatOf codec) p nalu ts true = some (p', packets) ∧
    p.SameTrack p' ∧
      Brings codec packets (emissions codec ts [nalu]) := by
  have hm : (formatOf codec).headLen + 2 ≤ p.mtu := by
    rw [hp.2]
    rcases hcd with rfl | rfl <;> decide
  have hrm : (formatOf codec).HasRoom p.mtu nalu := .inr (.inr hm)
  have ho := @packetizeNalu_of_room p true ts nalu _ hrm
  obtain ⟨hs, hcr⟩ := packetizeNalu_spec ho
  have hu := unit_sending hrm
  have han : p.Answers (formatOf codec) ⟨nalu, ts, true⟩ (nalu, _) := ⟨rfl, hu, hcr⟩
  have hpc := isPacket_of_answers hrd han
  rw [hp.1] at hpc
  have hb := brings_tagged (isSent_sending hm hrd.length)
    (by rw [marksOf_sending hcd hu, hu]) hpc
  rw [hu] at hb
  exact ⟨_, _, ho, hs, hb⟩

theorem sends_hevc : Sends .h265 sendHevc (arrival .h265 false) := by
  intro p nalu ts hp hl
  by_cases hsh : nalu.length < 2
  · have hn : arrival .h265 false nalu = none := if_pos hsh
    rw [hn]
    refine ⟨p, [], ?_, .refl p, brings_nil _⟩
    exact if_pos hsh
  · have hsm : arrival .h265 false nalu = some nalu := if_neg hsh
    rw [hsm]
    exact brings_packetizeNalu (.inr rfl) hp ⟨Nat.not_lt.mp hsh, hl.2⟩ ts

/-! ## Fragments of H.264 -/

/-- Without its first bit, a head goes through the FU headers of the session, unless a fragment is
the first and the last one. -/
theorem fuHead_cleared {first stop : Bool} (h : (first && stop) = false) :
    ∀ b : UInt8, fuFormat.fuHead [b] first stop = h264Format.fuHead [b &&& 0x7F] first stop := by
  refine forall_octet ?_
  revert first stop
  decide +kernel

theorem payloads_cleared (b : UInt8) {bodies : List Bytes} {first : Bool}
    (h : first = true → 1 < bodies.length) :
    fuFormat.payloads true (marked [b] first bodies) =
      h264Format.payloads true (marked [b &&& 0x7F] first bodies) := by
  induction bodies generalizing first with
  | nil => rfl
  | cons body bodies ih =>
    have hs : (first && bodies.isEmpty) = false := by
      cases bodies with
      | nil => cases first with
        | false => rfl
        | true => exact absurd (h rfl) (lt_irrefl 1)
      | cons _ _ => exact Bool.and_false first
    have hr := @ih false nofun
    show (_, fuFormat.fuHead [b] first _ ++ body) :: _ = _
    rw [fuHead_cleared hs b]
    exact congrArg (_ :: ·) hr

theorem sends_h264 : Sends .h264 sendH264 (arrival .h264 false) := by
  intro p nalu ts hp hl
  obtain ⟨b, n, rfl⟩ := exists_cons_of_ne_nil hl.1
  by_cases hf : (b :: n).length ≤ p.mtu
  · have hsm : arrival .h264 false (b :: n) = arrival .h264 true (b :: n) := by
      rw [hp.2] at hf
      simp only [arrival, decide_eq_false (Nat.not_lt.mpr hf), Bool.and_false]
    rw [hsm, sendH264, if_pos hf]
    exact sends_whole (.inl rfl) p (b :: n) ts hp hl
  · have hsm : arrival .h264 false (b :: n) = some ((b &&& 0x7F) :: n) := by
      rw [hp.2] at hf
      simp only [arrival, decide_eq_true (Nat.not_le.mp hf)]
      rfl
    have ht : ∀ b : UInt8, (b &&& 0x7F) &&& 0x1F = b &&& 0x1F := forall_octet (by decide +kernel)
    have hr : Readable .h264 (.whole ((b &&& 0x7F) :: n)) := by
      show 1 ≤ (b &&& 0x7F) &&& 0x1F ∧ (b &&& 0x7F) &&& 0x1F ≤ 23
      rw [ht]
      exact hl.2
    have hsn : sendH264 p (b :: n) ts true =
        packetizeNalu h264Format p ((b &&& 0x7F) :: n) ts true := by
      have hmt : 1 + 2 ≤ p.mtu := hp.2 ▸ by decide
      have hmn : 1 < (chunks (p.mtu - 2) n).length := by
        rw [hp.2, length_cons] at hf
        rw [hp.2, length_chunks (by decide)]
        omega
      rw [sendH264, if_neg hf, packetizeNalu_of_room (.inr (.inr hmt)), NaluFormat.sending,
        if_neg (by simp [h264Format]), cut,
        if_neg (show ¬ ((b &&& 0x7F) :: n).length ≤ p.mtu from hf)]
      refine (fragments_of_room hmt le_rfl).trans ?_
      exact congrArg (fun payloads => some (numbered ts p payloads))
        (payloads_cleared b fun _ => hmn)
    rw [hsm, hsn]
    exact brings_packetizeNalu (.inl rfl) hp hr ts

/-! ## Frames -/

theorem brings_sendAll {send : RtpPacketizer → Bytes → UInt32 → Bool → Packetized}
    {arrives : Bytes → Option Bytes} (hsn : Sends codec send arrives)
    (hts : rtpTs timestamp = some ts) (hl : ∀ n ∈ nalus, Legal codec n) :
    ∀ {p : RtpPacketizer}, IsTrack p →
      ∃ p' packets, sendAll send p timestamp nalus = some (p', packets) ∧ p.SameTrack p' ∧
        Brings codec packets (emissions codec ts (nalus.filterMap arrives)) := by
  induction nalus with
  | nil =>
    intro p _
    refine ⟨p, [], ?_, .refl p, brings_nil codec⟩
    rw [sendAll, hts]
    rfl
  | cons n nalus ih =>
    intro p hp
    obtain ⟨p₁, packets₁, hon, ⟨sequence, rfl⟩, hb₁⟩ := hsn p n ts hp (hl n mem_cons_self)
    obtain ⟨p₂, packets₂, hmr, hsm₂, hb₂⟩ := ih (fun m hm => hl m (mem_cons_of_mem n hm))
      (show IsTrack { p with sequence := sequence } from hp)
    rw [sendAll, hts, bind_eq_bind, bind_some] at hmr
    obtain ⟨out, hot, hmr⟩ := bind_eq_some_iff.mp hmr
    cases hmr
    refine ⟨out.1, packets₁ ++ out.2.flatMap Prod.snd, ?_, SameTrack.trans ⟨sequence, rfl⟩ hsm₂, ?_⟩
    · rw [sendAll, hts]
      simp only [bind_eq_bind, bind_some, map_cons, packetizeCalls, hon, hot]
      rfl
    · have hsp : emissions codec ts ((n :: nalus).filterMap arrives) =
          emissions codec ts (arrives n).toList ++
          emissions codec ts (nalus.filterMap arrives) := by
        rw [emissions, emissions, emissions, ← map_append, filterMap_cons_eq_append]
      rw [hsp]
      exact hb₁.append hb₂

/-- What arrives of a payload: configurations are not cut. -/
def arrivals (codec : CodecId) (data : Bytes) : List Bytes :=
  (payloadNalus codec data).filterMap (arrival codec (data.getD 1 0 &&& 0x0F = 0))

/-- The payload of a frame of H.264 or H.265 goes to the packetizer of its codec. -/
def packetizePayload (codec : CodecId) (p : RtpPacketizer) (data : Bytes) (timestamp : UInt32) :
    Packetized :=
  if codec = .h265 then packetizeHevc p data timestamp else packetizeH264 p data timestamp

/-- A payload without a timestamp has no NAL units; those of another one are sent one after the
other. -/
theorem packetizePayload_cases (hc : IsH26x codec) (p : RtpPacketizer)
    (data : Bytes) (timestamp : UInt32) :
    (¬ Stamped codec data ∧ payloadNalus codec data = [] ∧ packetizePayload codec p data timestamp =
      some (p, [])) ∨
      Stamped codec data ∧ ∃ send, Sends codec send (arrival codec (data.getD 1 0 &&& 0x0F = 0)) ∧
        packetizePayload codec p data timestamp =
          sendAll send p timestamp (payloadNalus codec data) := by
  by_cases hlen : data.length < 5
  · refine .inl ⟨fun h => Nat.not_lt.mpr h.1 hlen, if_pos hlen, ?_⟩
    rw [packetizePayload, packetizeHevc, packetizeH264, if_pos hlen, if_pos hlen, ite_self]
  rw [Stamped, payloadNalus, packetizePayload, if_neg hlen, and_iff_right (Nat.not_lt.mp hlen)]
  rcases hc with rfl | rfl
  · have hot : ¬ CodecId.h264 = .h265 := nofun
    rw [packetizeH264, if_neg hlen, or_iff_right hot]
    by_cases hz : data.getD 1 0 &&& 0x0F = 0
    · rw [hz, or_iff_right (show ¬ (0 : UInt8) = 1 by decide), and_iff_right rfl]
      by_cases hnil : avcConfigNalus data = []
      · exact .inl ⟨not_not.mpr hnil, hnil, if_pos hnil⟩
      · exact .inr ⟨hnil, _, sends_whole (.inl rfl), if_neg hnil⟩
    rw [if_neg hz, if_neg hz, decide_eq_false hz]
    by_cases hon : data.getD 1 0 &&& 0x0F = 1
    · exact .inr ⟨.inl hon, _, sends_h264, (if_pos hon).trans (by rw [if_pos hon])⟩
    · exact .inl ⟨fun h => h.elim hon fun h => hz h.1, if_neg hon, if_neg hon⟩
  · rw [packetizeHevc, if_neg hlen]
    refine .inr ⟨.inl rfl, ?_⟩
    -- the timestamp is computed before the kind of the payload is read
    have hs : ∀ {send nalus}, (rtpTs timestamp >>= fun _ => sendAll send p timestamp nalus) =
        sendAll send p timestamp nalus := by
      intro send nalus
      rw [sendAll]
      cases rtpTs timestamp <;> rfl
    by_cases hz : data.getD 1 0 &&& 0x0F = 0
    · simp only [if_pos hz]
      exact ⟨_, sends_whole (.inr rfl), hs⟩
    simp only [if_neg hz]
    refine ⟨_, sends_hevc, ?_⟩
    by_cases hon : data.getD 1 0 &&& 0x0F = 1
    · simp only [if_pos hon]
      exact hs
    · simp only [if_neg hon]
      rfl

/-- **The packets of a payload.** -/
theorem brings_payload (hcd : IsH26x codec) (hl : ∀ n ∈ payloadNalus codec data, Legal codec n)
    (hp : IsTrack p) (hcl : Stamped codec data → timestamp.toNat * 90 < 2 ^ 32) :
    ∃ p' packets, packetizePayload codec p data timestamp = some (p', packets) ∧ p.SameTrack p' ∧
      Brings codec packets (emissions codec (timestamp * 90) (arrivals codec data)) := by
  rw [arrivals]
  rcases packetizePayload_cases hcd p data timestamp with ⟨-, hnil, ho⟩ | ⟨hst, send, hsn, ho⟩
  · rw [hnil, ho]
    exact ⟨p, [], rfl, .refl p, brings_nil codec⟩
  · rw [ho]
    exact brings_sendAll hsn (if_pos (hcl hst)) hl hp

theorem packetizePayload_overflow (hcd : IsH26x codec) (p : RtpPacketizer) (hs : Stamped codec data)
    (hcl : ¬ timestamp.toNat * 90 < 2 ^ 32) : packetizePayload codec p data timestamp = none := by
  rcases packetizePayload_cases hcd p data timestamp with ⟨hno, -⟩ | ⟨-, send, -, ho⟩
  · exact absurd hs hno
  · rw [ho, sendAll, rtpTs, if_neg hcl]
    rfl

theorem packetizeVideo_eq (hc : IsH26x frame.codec) (p : RtpPacketizer) :
    packetizeVideo p frame = packetizePayload frame.codec p (payloadOf frame) frame.timestamp := by
  rw [packetizeVideo, payloadOf]
  cases flvPayload frame with
  | error e =>
    rcases hc with h | h
    · rw [h]; rfl
    · rw [h]; rfl
  | ok data =>
    rcases hc with h | h
    · rw [h]; rfl
    · rw [h]; rfl

theorem brings_frames (hcd : IsH26x codec) (hfr : ∀ f ∈ frames, f.codec = codec)
    (hl : ∀ f ∈ frames, ∀ n ∈ payloadNalus codec (payloadOf f), Legal codec n)
    (hcl : ∀ f ∈ frames, Stamped codec (payloadOf f) → f.timestamp.toNat * 90 < 2 ^ 32) :
    ∀ {p : RtpPacketizer}, IsTrack p → ∃ p' packets, packetizeFrames p frames = some (p', packets) ∧
      Brings codec packets (frames.flatMap fun f => emissions codec (f.timestamp * 90)
        (arrivals codec (payloadOf f))) := by
  induction frames with
  | nil => exact fun {p} _ => ⟨p, [], rfl, brings_nil codec⟩
  | cons f frames ih =>
    intro p hp
    have hf := hfr f mem_cons_self
    obtain ⟨p₁, packets₁, ho, ⟨sequence, rfl⟩, hb₁⟩ :=
      brings_payload hcd (hl f mem_cons_self) hp (hcl f mem_cons_self)
    obtain ⟨p₂, packets₂, hm, hb₂⟩ := ih (fun g hg => hfr g (mem_cons_of_mem f hg))
      (fun g hg => hl g (mem_cons_of_mem f hg)) (fun g hg => hcl g (mem_cons_of_mem f hg))
      (show IsTrack { p with sequence := sequence } from hp)
    refine ⟨p₂, packets₁ ++ packets₂, ?_, hb₁.append hb₂⟩
    rw [packetizeFrames, packetizeVideo_eq (hf ▸ hcd), hf, ho]
    simp only [bind_eq_bind, bind_some]
    rw [hm]
    rfl

theorem packetizeFrames_overflow (hcd : IsH26x codec) (hfr : ∀ f ∈ frames, f.codec = codec)
    (hmem : frame ∈ frames) (hs : Stamped codec (payloadOf frame))
    (hcl : ¬ frame.timestamp.toNat * 90 < 2 ^ 32) :
    ∀ p : RtpPacketizer, packetizeFrames p frames = none := by
  induction frames with
  | nil => cases hmem
  | cons f frames ih =>
    intro p
    have hf := hfr f mem_cons_self
    rw [packetizeFrames, packetizeVideo_eq (hf ▸ hcd), hf]
    rcases mem_cons.mp hmem with rfl | hmem
    · rw [packetizePayload_overflow hcd p hs hcl]
      rfl
    · cases packetizePayload codec p (payloadOf f) f.timestamp with
      | none => rfl
      | some one =>
        simp only [bind_eq_bind, bind_some]
        rw [ih (fun g hg => hfr g (mem_cons_of_mem f hg)) hmem]
        rfl

/-! ## NAL units of the published frames -/

theorem sampleNalus_naluFrame (codec : CodecId) (ts : UInt32) (nalus : List Bytes) (key : Bool)
    (h : ∀ n ∈ nalus, n.length < 2 ^ 32) :
    sampleNalus (naluFrame codec ts nalus key).data = nalus := by
  have hle : ∀ l : List Bytes, l.length ≤ (lengthPrefixed l).length := by
    intro l
    induction l with
    | nil => exact le_refl 0
    | cons n l ih =>
      rw [lengthPrefixed, flatMap_cons, length_append, length_append, length_be32, length_cons]
      rw [lengthPrefixed] at ih
      omega
  show (prefixedUnits 4 ((lengthPrefixed nalus).length + 5) (lengthPrefixed nalus)).1 = nalus
  exact congrArg Prod.fst (prefixedUnits_flatMap h (Nat.le_add_right_of_le (hle nalus)))

/-- Every NAL unit that arrives and is no parameter set is a frame. -/
theorem map_emissions (codec : CodecId) (ts : UInt32) (h : ∀ n ∈ nalus, n.length < 2 ^ 32) :
    ((emissions codec ts nalus).filterMap (frameOf codec)).map (fun f => sampleNalus f.data) =
      (nalus.filter fun n => !isParam codec n).map fun n => [n] := by
  rw [emissions, filterMap_map, map_filterMap, ← filterMap_eq_map, filterMap_filter]
  refine filterMap_congr fun n hn => ?_
  cases hp : isParam codec n with
  | true => simp [frameOf, hp]
  | false =>
    have hk : [n].filter (fun n => !isParam codec n) = [n] := by simp [hp]
    rw [Function.comp_apply, frameOf, hk]
    show some (sampleNalus (naluFrame codec ts [n] _).data) = some [n]
    rw [sampleNalus_naluFrame codec ts [n] _ (forall_mem_singleton.mpr (h n hn))]

theorem of_arrival {whole : Bool} {m : Bytes} (hn : n ≠ []) (h : arrival codec whole n = some m) :
    m.length = n.length ∧ isParam codec m = isParam codec n := by
  have ht : ∀ b : UInt8, (b &&& 0x7F) &&& 0x1F = b &&& 0x1F := forall_octet (by decide +kernel)
  obtain ⟨b, n, rfl⟩ := exists_cons_of_ne_nil hn
  rw [arrival] at h
  split at h
  next =>
    split at h
    · cases h
    · cases h
      exact ⟨rfl, rfl⟩
  next hc =>
    split at h
    · cases h
      refine ⟨rfl, ?_⟩
      rw [isParam, isParam, if_neg hc, if_neg hc]
      show ([7, 8] : Bytes).contains ((b &&& 0x7F) &&& 0x1F) =
        ([7, 8] : Bytes).contains (b &&& 0x1F)
      rw [ht]
    · cases h
      exact ⟨rfl, rfl⟩

theorem arrival_eq_self_iff {codec : CodecId} (whole : Bool) {n : Bytes} (hn : n ≠ []) :
    arrival codec whole n = some n ↔
      if codec = .h265 then 2 ≤ n.length else whole = true ∨ n.length ≤ 1400 ∨
      n.getD 0 0 &&& 0x80 = 0 := by
  have hb : ∀ b : UInt8, b &&& 0x7F = b ↔ b &&& 0x80 = 0 := forall_octet (by decide +kernel)
  obtain ⟨b, n, rfl⟩ := exists_cons_of_ne_nil hn
  have hc : some (cleared (b :: n)) = some (b :: n) ↔ b &&& 0x80 = 0 := by
    rw [some.injEq, ← hb b]
    exact ⟨fun h => (List.cons.inj h).1, fun h => congrArg (· :: n) h⟩
  rw [arrival]
  split
  next =>
    split
    next hs => exact iff_of_false nofun (Nat.not_le.mpr hs)
    next hl => exact iff_of_true rfl (Nat.not_lt.mp hl)
  next =>
    cases whole with
    | true => exact iff_of_true rfl (.inl rfl)
    | false =>
      by_cases hl : 1400 < (b :: n).length
      · rw [decide_eq_true hl, if_pos (show (!false && true) = true from rfl), hc,
          or_iff_right Bool.false_ne_true, or_iff_right (Nat.not_le.mpr hl)]
        rfl
      · rw [decide_eq_false hl]
        exact iff_of_true rfl (.inr (.inl (Nat.not_lt.mp hl)))

theorem length_of_mem_avcConfigNalus (h : n ∈ avcConfigNalus data) : n.length < 256 ^ 2 := by
  rw [avcConfigNalus] at h
  split at h
  · cases h
  · dsimp only at h
    split at h
    · exact length_of_mem_prefixedUnits h
    · rcases mem_append.mp h with h | h
      · exact length_of_mem_prefixedUnits h
      · exact length_of_mem_prefixedUnits h

theorem length_of_mem_hevcArrays {k : Nat} {a : UInt8 × Bytes} (h : a ∈ hevcArrays k data) :
    a.2.length < 256 ^ 2 := by
  induction k generalizing data with
  | zero => cases h
  | succ k ih =>
    match data, h with
    | nalType :: high :: low :: rest, h =>
      rcases mem_append.mp h with h | h
      · obtain ⟨n, hn, rfl⟩ := mem_map.mp h
        exact length_of_mem_prefixedUnits hn
      · exact ih h

theorem length_of_mem_hevcConfigNalus (h : n ∈ hevcConfigNalus data) : n.length < 256 ^ 2 := by
  rw [hevcConfigNalus, extractHevcNalus] at h
  split at h
  · cases h
  · have hl : ∀ nalType : UInt8, n ∈ (((hevcArrays (data.getD 27 0).toNat (data.drop 28)).filter
        fun a => a.1 = nalType).getLast?.map Prod.snd).toList → n.length < 256 ^ 2 := by
      intro nalType hn
      obtain ⟨a, ha, rfl⟩ := map_eq_some_iff.mp (mem_toList.mp hn)
      exact length_of_mem_hevcArrays (mem_filter.mp (mem_of_getLast? ha)).1
    rcases mem_append.mp h with h | h
    · rcases mem_append.mp h with h | h
      · exact hl 32 h
      · exact hl 33 h
    · exact hl 34 h

theorem length_of_mem_payloadNalus (h : n ∈ payloadNalus codec data) : n.length < 2 ^ 32 := by
  have ht : (256 : Nat) ^ 2 < 2 ^ 32 := by decide
  rw [payloadNalus] at h
  split at h
  · cases h
  · split at h
    · split at h
      · exact lt_trans (length_of_mem_hevcConfigNalus h) ht
      · exact lt_trans (length_of_mem_avcConfigNalus h) ht
    · split at h
      · exact length_of_mem_prefixedUnits h
      · cases h

/-! ## The round trip -/

/-- The pictures of a frame that arrive, and the frames that are made of them. -/
def published (frame : MediaFrame) : List (List Bytes) :=
  ((pictures frame).filterMap (arrival frame.codec ((payloadOf frame).getD 1 0 &&& 0x0F = 0))).map
  fun n => [n]

/-- The one frame that is expected. -/
def expected (frame : MediaFrame) : List (List Bytes) :=
  if pictures frame = [] then [] else [pictures frame]

/-- The NAL units of the frames that the depacketizer publishes for the packets of some frames. -/
def roundTrip (p : RtpPacketizer) (d : RtpDepacketizer) (channel : UInt8)
    (frames : List MediaFrame) : Option (List (List Bytes)) := do
  let sent ← packetizeFrames p frames
  let out ← handleAll channel d sent.2
  return (samples out.2).map fun f => sampleNalus f.data

/-- Nothing overflows, and every frame with pictures comes back with them. -/
def Inverts (p : RtpPacketizer) (d : RtpDepacketizer) (channel : UInt8) (frames : List MediaFrame) :
    Prop :=
  roundTrip p d channel frames = some (frames.flatMap expected)

/-- A frame that survives. -/
structure Clean (frame : MediaFrame) : Prop where
  clock : Stamped frame.codec (payloadOf frame) → frame.timestamp.toNat * 90 < 2 ^ 32
  single : (pictures frame).length ≤ 1
  intact : ∀ n ∈ pictures frame, if frame.codec = .h265 then 2 ≤ n.length
    else (payloadOf frame).getD 1 0 &&& 0x0F = 0 ∨ n.length ≤ 1400 ∨ n.getD 0 0 &&& 0x80 = 0

theorem map_arrivals (frame : MediaFrame)
    (hlg : ∀ n ∈ payloadNalus frame.codec (payloadOf frame), n ≠ []) (ts : UInt32) :
    ((emissions frame.codec ts (arrivals frame.codec (payloadOf frame))).filterMap
      (frameOf frame.codec)).map (fun f => sampleNalus f.data) = published frame := by
  have hlen : ∀ m ∈ arrivals frame.codec (payloadOf frame), m.length < 2 ^ 32 := by
    intro m hm
    obtain ⟨n, hn, hnm⟩ := mem_filterMap.mp hm
    rw [(of_arrival (hlg n hn) hnm).1]
    exact length_of_mem_payloadNalus hn
  rw [map_emissions frame.codec ts hlen, published, pictures, arrivals]
  refine congrArg (map fun n => [n]) ?_
  rw [filter_filterMap, filterMap_filter]
  refine filterMap_congr fun n hn => ?_
  cases har : arrival frame.codec (decide ((payloadOf frame).getD 1 0 &&& 0x0F = 0)) n with
  | none => exact (ite_self none).symm
  | some m =>
    rw [Option.filter, (of_arrival (hlg n hn) har).2]

theorem published_eq_expected_iff (frame : MediaFrame) (hne : ∀ n ∈ pictures frame, n ≠ [])
    (hsn : (pictures frame).length ≤ 1) :
    published frame = expected frame ↔
      ∀ n ∈ pictures frame, if frame.codec = .h265 then 2 ≤ n.length
        else (payloadOf frame).getD 1 0 &&& 0x0F = 0 ∨ n.length ≤ 1400 ∨
        n.getD 0 0 &&& 0x80 = 0 := by
  rw [published, expected]
  generalize pictures frame = ns at hne hsn
  match ns, hsn with
  | [], _ => exact iff_of_true rfl nofun
  | [n], _ =>
    have hsl := @arrival_eq_self_iff frame.codec (decide ((payloadOf frame).getD 1 0 &&& 0x0F = 0))
      n (hne n mem_cons_self)
    rw [decide_eq_true_iff] at hsl
    rw [forall_mem_singleton, ← hsl]
    cases har : arrival frame.codec (decide ((payloadOf frame).getD 1 0 &&& 0x0F = 0)) n with
    | none =>
      rw [filterMap_cons_none har]
      exact iff_of_false nofun nofun
    | some m =>
      rw [filterMap_cons_some har]
      show [[m]] = [[n]] ↔ some m = some n
      simp only [List.cons.injEq, and_true, some.injEq]

theorem length_published_le (hs : (pictures frame).length ≤ 1) :
    (published frame).length ≤ (expected frame).length := by
  rw [published, expected, length_map]
  split
  next hnil => rw [hnil]; rfl
  next => exact le_trans (length_filterMap_le _ _) hs

/-- Frames are published as they are expected exactly if each has one picture at most, which arrives
as it was. -/
theorem flatMap_published_iff (hne : ∀ f ∈ frames, ∀ n ∈ pictures f, n ≠ []) :
    frames.flatMap published = frames.flatMap expected ↔
      ∀ f ∈ frames, (pictures f).length ≤ 1 ∧ ∀ n ∈ pictures f, if f.codec = .h265 then 2 ≤ n.length
        else (payloadOf f).getD 1 0 &&& 0x0F = 0 ∨ n.length ≤ 1400 ∨ n.getD 0 0 &&& 0x80 = 0 := by
  by_cases hs : ∀ f ∈ frames, (pictures f).length ≤ 1
  · rw [flatMap_eq_iff_of_length_le fun f hf => length_published_le (hs f hf)]
    refine forall₂_congr fun f hf => ?_
    rw [published_eq_expected_iff f (hne f hf) (hs f hf), and_iff_right (hs f hf)]
  · refine iff_of_false (fun heq => ?_) fun h => hs fun f hf => (h f hf).1
    simp only [not_forall, not_le] at hs
    obtain ⟨f, hf, hmn⟩ := hs
    -- the pictures of that frame are expected together, but every frame that is published has one
    have hmem : pictures f ∈ frames.flatMap published := by
      rw [heq, mem_flatMap]
      refine ⟨f, hf, ?_⟩
      have hnil : pictures f ≠ [] := by
        intro h
        rw [h] at hmn
        exact absurd hmn (by decide)
      rw [expected, if_neg hnil]
      exact mem_singleton_self _
    obtain ⟨g, -, hg⟩ := mem_flatMap.mp hmem
    obtain ⟨n, -, hn⟩ := mem_map.mp hg
    rw [← hn, length_singleton] at hmn
    exact absurd hmn (lt_irrefl 1)

theorem map_flatMap_emissions (hfr : ∀ f ∈ frames, f.codec = codec)
    (hl : ∀ f ∈ frames, ∀ n ∈ payloadNalus codec (payloadOf f), n ≠ []) :
    ((frames.flatMap fun f => emissions codec (f.timestamp * 90)
      (arrivals codec (payloadOf f))).filterMap (frameOf codec)).map
      (fun f => sampleNalus f.data) = frames.flatMap published := by
  induction frames with
  | nil => rfl
  | cons f frames ih =>
    have hf := hfr f mem_cons_self
    have ho := map_arrivals f (hf ▸ hl f mem_cons_self) (f.timestamp * 90)
    rw [hf] at ho
    rw [flatMap_cons, flatMap_cons, filterMap_append, map_append, ho,
      ih (fun g hg => hfr g (mem_cons_of_mem f hg)) fun g hg => hl g (mem_cons_of_mem f hg)]

/-- **The round trip.** The frames come back exactly if every one of them is clean. -/
theorem inverts_iff_clean {codec : CodecId} (hcodec : codec = .h264 ∨ codec = .h265)
    {frames : List MediaFrame} (hframes : ∀ f ∈ frames, f.codec = codec)
    (hlegal : ∀ f ∈ frames, ∀ n ∈ payloadNalus codec (payloadOf f), Legal codec n) (ssrc : UInt32)
    (sequence : UInt16) {info : SdpInfo} (hinfo : info.videoCodec = codec)
    (videoChan audioChan : UInt8) (forceMedia : Option FrameType) {channel : UInt8}
    (hmedia : (new info videoChan audioChan forceMedia).mediaOf 96 channel = some .video) :
    Inverts ⟨ssrc, 96, sequence, 90000, 1400⟩ (.new info videoChan audioChan forceMedia) channel
      frames ↔ ∀ f ∈ frames, Clean f := by
  by_cases hck : ∀ f ∈ frames, Stamped codec (payloadOf f) → f.timestamp.toNat * 90 < 2 ^ 32
  · have hne : ∀ f ∈ frames, ∀ n ∈ payloadNalus codec (payloadOf f), n ≠ [] := fun f hf n hn =>
      (hlegal f hf n hn).1
    obtain ⟨p', packets, hpc, tagged, ht, hrun⟩ := brings_frames hcodec hframes hlegal hck
      (p := ⟨ssrc, 96, sequence, 90000, 1400⟩) ⟨rfl, rfl⟩
    subst hinfo
    obtain ⟨d', out, ho, hsm⟩ :=
      handleAll_new hcodec videoChan audioChan forceMedia (by decide) hmedia ht
    have hpb : (samples out).map (fun f => sampleNalus f.data) = frames.flatMap published := by
      rw [hsm]
      refine Eq.trans ?_ (map_flatMap_emissions hframes hne)
      exact congrArg (fun run => (run.2.filterMap (frameOf info.videoCodec)).map fun f =>
        sampleNalus f.data) hrun
    have hif : Inverts ⟨ssrc, 96, sequence, 90000, 1400⟩ (.new info videoChan audioChan forceMedia)
      channel frames ↔
        frames.flatMap published = frames.flatMap expected := by
      rw [Inverts, roundTrip, hpc, bind_eq_bind, bind_some, ho, ← hpb]
      exact some_inj
    rw [hif, flatMap_published_iff fun f hf n hn =>
      hne f hf n (hframes f hf ▸ (mem_filter.mp hn).1)]
    refine forall₂_congr fun f hf => ?_
    exact ⟨fun h => ⟨hframes f hf ▸ hck f hf, h.1, h.2⟩, fun h => ⟨h.single, h.intact⟩⟩
  · refine iff_of_false ?_ ?_
    · simp only [not_forall] at hck
      obtain ⟨f, hf, hst, hlt⟩ := hck
      rw [Inverts, roundTrip, packetizeFrames_overflow hcodec hframes hf hst hlt]
      exact nofun
    · exact fun hcl => hck fun f hf => hframes f hf ▸ (hcl f hf).clock

/-- A sample with the given NAL units. -/
def sampleFrame (codec : CodecId) (timestamp : UInt32) (nalus : List Bytes) : MediaFrame :=
  (MediaFrame.newVideo 0 codec timestamp 0 0 ([0x27, 0x01, 0, 0, 0] ++ lengthPrefixed nalus)
    false).withPayloadFormat .flv

/-- A parameter set and a picture. -/
theorem inverts_one_slice :
    Inverts ⟨7, 96, 65535, 90000, 1400⟩ (.new SdpInfo.default 0 2 none) 0
      [sampleFrame .h264 40 [[0x67, 1], [0x65, 1, 2]]] := by
  have hfr : ∀ f ∈ [sampleFrame .h264 40 [[0x67, 1], [0x65, 1, 2]]], f.codec = .h264 := by
    decide +kernel
  have hl : ∀ f ∈ [sampleFrame .h264 40 [[0x67, 1], [0x65, 1, 2]]],
      ∀ n ∈ payloadNalus .h264 (payloadOf f), Legal .h264 n := by
    decide +kernel
  refine (inverts_iff_clean (.inl rfl) hfr hl 7 65535 rfl 0 2 none (by decide)).mpr ?_
  intro f hf
  rw [mem_singleton.mp hf]
  exact ⟨fun _ => by decide, by decide +kernel, by decide +kernel⟩

/-- A picture in two slices comes back as two frames. -/
theorem not_inverts_two_slices :
    (∀ n ∈ payloadNalus .h264 (payloadOf (sampleFrame .h264 40 [[0x41, 1], [0x41, 2]])),
      Legal .h264 n) ∧
      ¬ Inverts ⟨7, 96, 0, 90000, 1400⟩ (.new SdpInfo.default 0 2 none) 0
        [sampleFrame .h264 40 [[0x41, 1], [0x41, 2]]] := by
  refine ⟨by decide +kernel, ?_⟩
  rw [Inverts]
  decide +kernel

end MediaKit.Rtsp.Play
