import MediaKit.Rtsp.Assembly

/-!
# Access units over RTP

The packets of `RtpPacketizer` for some access units, in order, make the depacketizer of a publisher
publish one frame for every access unit that consists of more than parameter sets
(`publishes_access_units`): the frame holds the NAL units that are no parameter sets, at the
timestamp of the unit, and it is a key frame exactly if the unit has an IDR picture.

The packets of a NAL unit are those of a `Lib` sending (`isPacket_of_answers`), so the access units
are groups in the sense of `Lib.AccessUnits`, and `runLog_groups` says what comes out. -/

namespace MediaKit.Rtsp.Push

open Lib MediaKit.Core RtpDepacketizer List RtpPacketizer

variable {codec : CodecId}
  {nalu : Bytes} {p : RtpPacketizer}

/-- A NAL unit that can stand behind a start code, and alone in a packet. -/
structure Sendable (codec : CodecId) (nalu : Bytes) : Prop where
  single : Readable codec (.whole nalu)
  clear : ¬ [0, 0, 1] <:+: nalu

/-! ## Packets -/

theorem readable_of_mem_pieces (h : Readable codec (.whole nalu)) {mtu : Nat} {piece : Piece UInt8}
    (hp : piece ∈ ((formatOf codec).sending mtu nalu).pieces) : Readable codec piece := by
  obtain ⟨hlen, ⟨rfl, -⟩ | ⟨start, stop, body, rfl⟩⟩ := mem_pieces_sending hp
  · exact h
  · exact length_take_of_le hlen

theorem isPacket_of_answers {c : NaluCall} {group : Bytes × List Bytes}
    (hr : Readable codec (.whole c.nalu)) (h : p.Answers (formatOf codec) c group) :
    Forall₂ (IsPacket codec p.payloadType)
      (((formatOf codec).sending p.mtu c.nalu).tagged c.timestamp c.lastNalu) group.2 := by
  rw [Sending.tagged, forall₂_map_left_iff]
  have hps := (forall₂_and_left _ _).mpr ⟨fun piece hpc => readable_of_mem_pieces hr hpc, h.2.2⟩
  refine hps.imp ?_
  rintro piece packet ⟨hpc, sequence, rfl⟩
  exact ⟨sequence, p.ssrc, _, rfl, hpc, rfl⟩

theorem isPacket_callsOf (ts : UInt32) {nalus : List Bytes}
    (hrd : ∀ n ∈ nalus, Readable codec (.whole n)) :
    ∀ {groups : List (Bytes × List Bytes)},
      Forall₂ (p.Answers (formatOf codec)) (callsOf ts nalus) groups →
      Forall₂ (IsPacket codec p.payloadType)
        (taggedAll ts (nalus.map ((formatOf codec).sending p.mtu))) (groups.flatMap Prod.snd) := by
  induction nalus with
  | nil =>
    intro groups h
    cases h
    exact .nil
  | cons n nalus ih =>
    intro groups h
    cases h with
    | cons ho hrs =>
      have hp := isPacket_of_answers (c := ⟨n, ts, nalus.isEmpty⟩) (hrd n mem_cons_self) ho
      rw [map_cons, taggedAll, isEmpty_map]
      exact rel_append hp (ih (fun m hm => hrd m (mem_cons_of_mem n hm)) hrs)

theorem isPacket_unitCalls {units : List (UInt32 × List Bytes)}
    (hr : ∀ unit ∈ units, ∀ n ∈ unit.2, Readable codec (.whole n)) :
    ∀ {groups : List (Bytes × List Bytes)},
      Forall₂ (p.Answers (formatOf codec)) (p.unitCalls units) groups →
      Forall₂ (IsPacket codec p.payloadType)
        ((units.map fun unit => (p.timestamp unit.1,
          unit.2.map ((formatOf codec).sending p.mtu))).flatMap fun g => taggedAll g.1 g.2)
        (groups.flatMap Prod.snd) := by
  induction units with
  | nil =>
    intro groups h
    cases h
    exact .nil
  | cons unit units ih =>
    intro groups h
    obtain ⟨g₁, g₂, h₁, h₂, rfl⟩ := forall₂_append_left h
    rw [map_cons, flatMap_append]
    exact rel_append (isPacket_callsOf _ (hr unit mem_cons_self) h₁)
      (ih (fun u hu => hr u (mem_cons_of_mem unit hu)) h₂)

/-! ## Frames -/

theorem marksOf_sending (hc : IsH26x codec) {mtu : Nat}
    (hu : ((formatOf codec).sending mtu nalu).unit = nalu) :
    marksOf codec ((formatOf codec).sending mtu nalu).head ((formatOf codec).sending mtu nalu).unit
      = isIdr codec nalu := by
  rcases hc with rfl | rfl
  · -- the head has the octet that counts
    rw [NaluFormat.sending, cut]
    split
    · rfl
    · split
      · rfl
      · cases nalu <;> rfl
  · exact congrArg (isIdr .h265) hu

/-- The frame for an access unit: its NAL units that are no parameter sets, if there are any. -/
def unitFrame (codec : CodecId) (unit : UInt32 × List Bytes) : Option MediaFrame :=
  let nalus := unit.2.filter fun n => !isParam codec n
  let key := unit.2.any (isIdr codec)
  let first : UInt8 := if codec = .h265 then (if key then 0x1C else 0x2C)
    else (if key then 0x17 else 0x27)
  if nalus = [] then none
  else some ((MediaFrame.newVideo 0 codec unit.1 unit.1.toUInt64 unit.1.toUInt64
    ([first, 0x01, 0, 0, 0] ++ lengthPrefixed nalus) key).withPayloadFormat .flv)

/-- Milliseconds survive the clock of 90 kHz as long as it does not overflow. -/
theorem timestamp_div (hc : p.clockRate = 90000) {ms : UInt32} (h : ms.toNat * 90 < 2 ^ 32) :
    p.timestamp ms / 90 = ms := by
  apply UInt32.toNat_inj.mp
  rw [timestamp, hc, UInt32.toNat_div]
  show ms.toNat * 90000 / 1000 % 2 ^ 32 / 90 = ms.toNat
  omega

theorem frameOf_unit (hcd : IsH26x codec) (hcl : p.clockRate = 90000)
    (hmt : (formatOf codec).headLen + 2 ≤ p.mtu) {unit : UInt32 × List Bytes}
    (hms : unit.1.toNat * 90 < 2 ^ 32) :
    frameOf codec ⟨p.timestamp unit.1,
      (unit.2.map ((formatOf codec).sending p.mtu)).map Sending.unit,
        (unit.2.map ((formatOf codec).sending p.mtu)).any fun g =>
          marksOf codec g.head g.unit⟩ = unitFrame codec unit := by
  have hun : ∀ n : Bytes, ((formatOf codec).sending p.mtu n).unit = n := fun n =>
    unit_sending (.inr (.inr hmt))
  have hut : (unit.2.map ((formatOf codec).sending p.mtu)).map Sending.unit = unit.2 := by
    rw [map_map]
    exact (map_congr_left fun n _ => hun n).trans (map_id unit.2)
  have hk : ((unit.2.map ((formatOf codec).sending p.mtu)).any fun g => marksOf codec g.head g.unit)
      = unit.2.any (isIdr codec) := by
    rw [any_map]
    exact congrArg unit.2.any (funext fun n => marksOf_sending hcd (hun n))
  rw [hut, hk, frameOf, unitFrame, naluFrame]
  rw [timestamp_div hcl hms]

/-- **Access units over RTP.** -/
theorem publishes_access_units (hcodec : codec = .h264 ∨ codec = .h265)
    {units : List (UInt32 × List Bytes)} (hms : ∀ unit ∈ units, unit.1.toNat * 90 < 2 ^ 32)
    (hnalus : ∀ unit ∈ units, ∀ n ∈ unit.2, Sendable codec n)
    {frames : List MediaFrame} (hframes : Forall₂ (RtpPacketizer.OfUnit codec) units frames)
    (ssrc : UInt32) (pt : UInt8) {mtu : Nat} (hmtu : 4 ≤ mtu) (sequence : UInt16) {info : SdpInfo}
    (hinfo : info.videoCodec = codec)
    (videoChan audioChan : UInt8) (forceMedia : Option FrameType) {channel : UInt8}
    (hmedia : (new info videoChan audioChan forceMedia).mediaOf (pt &&& 0x7F) channel =
      some .video) :
    ∃ p' packets d' out,
      (((new ssrc pt 90000).withPayloadMtu mtu).withSequence sequence).packetizeAll frames = .ok
        (p', packets) ∧
        handleAll channel (new info videoChan audioChan forceMedia) packets = some (d', out) ∧
        samples out = units.filterMap (unitFrame codec) := by
  generalize hp : ((new ssrc pt 90000).withPayloadMtu mtu).withSequence sequence = p
  have hck : p.clockRate = 90000 := by
    subst hp
    show max (90000 : UInt32) 1 = 90000
    decide
  have hpt : p.payloadType = pt &&& 0x7F := by subst hp; rfl
  have hlw : ∀ b : UInt8, (b &&& 0x7F) &&& 0x80 = 0 := forall_octet (by decide +kernel)
  have hrm : (formatOf codec).headLen + 2 ≤ p.mtu := by
    have hh : (formatOf codec).headLen ≤ 2 := by rcases hcodec with rfl | rfl <;> decide
    have hcl : p.mtu = min (max mtu 1) (65535 - 12) := by subst hp; rfl
    omega
  have hrd : ∀ unit ∈ units, ∀ n ∈ unit.2, Readable codec (.whole n) := fun unit hu n hn =>
    (hnalus unit hu n hn).single
  have hlen : ∀ unit ∈ units, ∀ n ∈ unit.2, (formatOf codec).headLen ≤ n.length :=
    fun unit hu n hn => (hrd unit hu n hn).length
  have hcr : ∀ unit ∈ units, ∀ n ∈ unit.2, n ≠ [] ∧ ¬ [0, 0, 1] <:+: n := by
    intro unit hu n hn
    refine ⟨?_, (hnalus unit hu n hn).clear⟩
    rintro rfl
    have hpos : 1 ≤ (formatOf codec).headLen := by rcases hcodec with rfl | rfl <;> decide
    exact absurd (hlen unit hu [] hn) (by rw [length_nil]; omega)
  obtain ⟨p', groups, hpc, -, han⟩ := packetizeAll_annexB hcodec hframes hcr hrm
  have hal := isPacket_unitCalls hrd han
  subst hinfo
  rw [hpt] at hal
  obtain ⟨d', out, ho, hsm⟩ :=
    handleAll_new hcodec videoChan audioChan forceMedia (hlw pt) hmedia hal
  refine ⟨p', _, d', out, hpc, ho, hsm.trans ?_⟩
  -- the access units are groups, which come out one by one
  rw [runLog_groups]
  · rw [filterMap_map, filterMap_filter, filterMap_map]
    refine filterMap_congr fun unit hu => ?_
    refine (if_congr Iff.rfl (frameOf_unit hcodec hck hrm (hms unit hu)) rfl).trans ?_
    split
    next => rfl
    next he =>
      have hnil : unit.2 = [] := by simpa using he
      rw [unitFrame, hnil]
      rfl
  · intro g hg
    obtain ⟨unit, hu, rfl⟩ := mem_map.mp hg
    intro sending hsn
    obtain ⟨n, hn, rfl⟩ := mem_map.mp hsn
    exact isSent_sending hrm (hlen unit hu n hn)

/-- A parameter set, an IDR picture in fragments, and an access unit of a parameter set alone; the
sequence wraps. -/
def someUnits : List (UInt32 × List Bytes) :=
  [(40, [[0x67, 1], [0x65, 1, 2, 3, 4, 5]]), (80, [[0x67, 1]])]

theorem publishes_idr : ∃ p' packets d' out,
    (((new 7 96 90000).withPayloadMtu 4).withSequence 65535).packetizeAll
          (someUnits.map fun unit =>
            (MediaFrame.newVideo 0 .h264 unit.1 0 0 (annexBOf unit.2) false).withPayloadFormat
            .annexB) = .ok (p', packets) ∧
        handleAll 0 (new SdpInfo.default 0 2 none) packets = some (d', out) ∧
        samples out = someUnits.filterMap (unitFrame .h264) := by
  have hms : ∀ unit ∈ someUnits, unit.1.toNat * 90 < 2 ^ 32 := by decide
  have hnl : ∀ unit ∈ someUnits, ∀ n ∈ unit.2, Sendable .h264 n := by
    have hal : ∀ unit ∈ someUnits, ∀ n ∈ unit.2, Readable .h264 (.whole n) ∧
      ¬ [0, 0, 1] <:+: n := by decide
    exact fun unit hu n hn => ⟨(hal unit hu n hn).1, (hal unit hu n hn).2⟩
  refine publishes_access_units (.inl rfl) hms hnl ?_ 7 96 (by decide) 65535 rfl 0 2 none
    (by decide)
  exact .cons ⟨⟨rfl, rfl, rfl, rfl, rfl⟩, rfl⟩ (.cons ⟨⟨rfl, rfl, rfl, rfl, rfl⟩, rfl⟩ .nil)

end MediaKit.Rtsp.Push
