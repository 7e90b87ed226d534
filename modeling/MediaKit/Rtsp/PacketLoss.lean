import MediaKit.Rtsp.Packetizer
import MediaKit.Webrtc.H264Rtp
import Mathlib.Data.List.Nodup

/-!
# Lost packets of a publisher

Neither the depacketizer of RTSP nor that of WHIP looks at sequence numbers. A fragment that is lost
in the middle of a NAL unit is not missed, and if the packet with the marker is lost the NAL units
of two access units are published together.

`loss_keeps_units` says that these are the only ways in which lost packets corrupt what is
published, apart from NAL units that look like an aggregation packet or a fragment: where the losses
break no NAL unit (`Unbroken`) and a marker arrives between pictures of different access units
(`Separated`), the NAL units of every frame come from one access unit, and the parameter sets of
every configuration from the description or from an access unit. -/

namespace MediaKit.Rtsp.Push

open Lib MediaKit.Core RtpDepacketizer List Option RtpPacketizer

variable {codec : CodecId}

/-! ## What arrives -/

variable {c : NaluCall} {p : RtpPacketizer} {groups : List (Bytes × List Bytes)}

open Webrtc.H264RtpDepacketizer

/-- The calls for some access units, given by their RTP timestamps. -/
def callsFor (units : List (UInt32 × List Bytes)) : List NaluCall :=
  units.flatMap fun unit => callsOf unit.1 unit.2

instance (nalu : Bytes) : Decidable (PassedOver codec nalu) := by
  unfold PassedOver
  infer_instance

/-- How a NAL unit is on its way to the depacketizer of RTSP. -/
def loadOf (p : RtpPacketizer) (codec : CodecId) (c : NaluCall) : Load UInt32 UInt8 :=
  ⟨c.timestamp, c.lastNalu,
    if PassedOver codec c.nalu ∧ (formatOf codec).headLen ≤ c.nalu.length ∧ c.nalu.length ≤
      p.mtu then none
    else some ((formatOf codec).sending p.mtu c.nalu)⟩

/-- The pieces that arrive of a NAL unit are read as what they are, or passed over. -/
theorem readable_or_passedOver (hc : IsH26x codec) {nalu : Bytes}
    (hlen : (formatOf codec).headLen ≤ nalu.length)
    (hp : ¬ Structured codec nalu) : Readable codec (.whole nalu) ∨ PassedOver codec nalu := by
  rcases hc with rfl | rfl
  · have hne : nalu ≠ [] := by
      rintro rfl
      exact absurd hlen (by decide)
    obtain ⟨hag, hf⟩ := not_or.mp hp
    by_cases hs : 1 ≤ nalu.getD 0 0 &&& 0x1F ∧ nalu.getD 0 0 &&& 0x1F ≤ 23
    · exact .inl hs
    · exact .inr ⟨hne, hs, hag, hf⟩
  · obtain ⟨hag, hf⟩ := not_or.mp hp
    exact .inl ⟨hlen, hag, hf⟩

theorem isPacket_loadOf (hcd : IsH26x codec)
    {group : Bytes × List Bytes} (h : p.Answers (formatOf codec) c group) {keep : Nat → Bool}
    (hpl : keep 0 = true → c.nalu.length ≤ p.mtu → ¬ Structured codec c.nalu) :
    Forall₂ (IsPacket codec p.payloadType) (kept keep (loadOf p codec c).packets)
      (kept keep group.2) := by
  by_cases hps : PassedOver codec c.nalu ∧ (formatOf codec).headLen ≤ c.nalu.length ∧
    c.nalu.length ≤ p.mtu
  · -- one packet, which is passed over
    have hcr := h.2.2
    rw [pieces_of_fits hps.2.1 hps.2.2] at hcr
    rw [loadOf, if_pos hps]
    refine forall₂_kept ?_ keep
    generalize group.2 = packets at hcr
    cases hcr with
    | cons hon hnil =>
      cases hnil
      obtain ⟨sequence, rfl⟩ := hon
      refine .cons ⟨sequence, p.ssrc, c.nalu, ?_, hps.1⟩ .nil
      rw [Piece.closes, Bool.and_true]
      rfl
  · have hr : ∀ piece ∈ kept keep ((formatOf codec).sending p.mtu c.nalu).pieces,
        Readable codec piece := by
      intro piece hpc
      have hmem := mem_of_mem_kept hpc
      obtain ⟨hlen, ⟨rfl, hf⟩ | ⟨start, stop, body, rfl⟩⟩ := mem_pieces_sending hmem
      · rw [pieces_of_fits hlen hf] at hpc
        have hs := hpl (keep_of_mem_kept hpc) hf
        exact (readable_or_passedOver hcd hlen hs).resolve_right fun hov => hps ⟨hov, hlen, hf⟩
      · exact length_take_of_le hlen
    rw [loadOf, if_neg hps]
    show Forall₂ _ (kept keep (((formatOf codec).sending p.mtu c.nalu).tagged c.timestamp
      c.lastNalu)) _
    rw [Sending.tagged, kept_map, forall₂_map_left_iff]
    have hb := (forall₂_and_left _ _).mpr ⟨hr, forall₂_kept h.2.2 keep⟩
    refine hb.imp ?_
    rintro piece packet ⟨hpc, sequence, rfl⟩
    exact ⟨sequence, p.ssrc, _, rfl, hpc, rfl⟩

variable {calls : List NaluCall}

theorem isPacket_loads (hc : IsH26x codec) (h : Forall₂ (p.Answers (formatOf codec)) calls groups) :
    ∀ {keep : Nat → Nat → Bool}, NoneStructured p codec keep calls →
    Forall₂ (IsPacket codec p.payloadType)
        (keptEach keep ((calls.map (loadOf p codec)).map fun l => (l, l.packets)))
        (keptEach keep groups) := by
  induction h with
  | nil => exact fun _ => .nil
  | cons ho _ ih =>
    intro keep hp
    exact rel_append (isPacket_loadOf hc ho (hp 0 _ rfl)) (ih fun k => hp (k + 1))

/-- The losses break no NAL unit, whether or not it is passed over. -/
theorem unbroken_loads : ∀ {size : Option Nat} {keep : Nat → Nat → Bool},
    Unbroken 0 none size keep (calls.map fun c => (formatOf codec).sending p.mtu c.nalu) →
      Unbroken 0 none size keep ((calls.map (loadOf p codec)).map Load.sending) := by
  induction calls with
  | nil => exact fun _ => trivial
  | cons c calls ih =>
    intro size keep h
    rw [map_cons] at h
    rw [map_cons, map_cons]
    by_cases hp : PassedOver codec c.nalu ∧ (formatOf codec).headLen ≤ c.nalu.length ∧
      c.nalu.length ≤ p.mtu
    · have hw : (formatOf codec).sending p.mtu c.nalu = .whole c.nalu := by
        rw [NaluFormat.sending, if_neg (Nat.not_lt.mpr hp.2.1), cut, if_pos hp.2.2]
      rw [hw] at h
      rw [loadOf, if_pos hp]
      exact ih h
    · have hld : (loadOf p codec c).sending = (formatOf codec).sending p.mtu c.nalu := by
        rw [loadOf, if_neg hp]
        rfl
      rw [hld]
      generalize (formatOf codec).sending p.mtu c.nalu = g at h
      obtain u | ⟨head, _ | ⟨body, bodies⟩⟩ := g
      · exact ih h
      · exact ih h
      · rw [Unbroken] at h ⊢
        split
        next hls =>
          rw [if_pos hls] at h
          exact ⟨h.1, ih h.2⟩
        next hls =>
          rw [if_neg hls] at h
          exact ih h

/-! ## Access units -/

theorem mem_callsOf {ts : UInt32} {nalus : List Bytes} (h : c ∈ callsOf ts nalus) :
    c.timestamp = ts ∧ c.nalu ∈ nalus := by
  induction nalus with
  | nil => cases h
  | cons n nalus ih =>
    rcases mem_cons.mp h with rfl | h
    · exact ⟨rfl, mem_cons_self⟩
    · exact ⟨(ih h).1, mem_cons_of_mem n (ih h).2⟩

variable {units : List (UInt32 × List Bytes)}

theorem unit_of_call (h : c ∈ callsFor units) :
    ∃ unit ∈ units, unit.1 = c.timestamp ∧ c.nalu ∈ unit.2 := by
  obtain ⟨unit, hu, hc⟩ := mem_flatMap.mp h
  exact ⟨unit, hu, (mem_callsOf hc).1.symm, (mem_callsOf hc).2⟩

theorem unit_of_load (h : Forall₂ (p.Answers (formatOf codec)) (callsFor units) groups)
    {l : Load UInt32 UInt8} (hl : l ∈ (callsFor units).map (loadOf p codec)) {n : Bytes}
    (hn : l.Is n) : ∃ unit ∈ units, unit.1 = l.tag ∧ n ∈ unit.2 := by
  obtain ⟨c, hc, rfl⟩ := mem_map.mp hl
  obtain ⟨unit, hu, hts, hmem⟩ := unit_of_call hc
  obtain ⟨group, -, -, hs, -⟩ := exists_mem_of_forall₂ h.flip hc
  refine ⟨unit, hu, hts, ?_⟩
  rw [Load.Is, loadOf] at hn
  split at hn
  next => cases hn
  next =>
    rw [map_some, hs] at hn
    exact some.inj hn ▸ hmem

/-- A frame that no loss has corrupted: the NAL units of one access unit, or a configuration of
parameter sets that were sent or described. -/
def Uncorrupted (codec : CodecId) (units : List (UInt32 × List Bytes)) (described : List Bytes)
    (frame : MediaFrame) : Prop :=
  if frame.configFrame then IsConfig (fun x => x ∈ described ∨ ∃ unit ∈ units, x ∈ unit.2) frame
  else ∃ unit ∈ units, ∃ ts nalus key, frame = naluFrame codec ts nalus key ∧
    ∀ n ∈ nalus, n ∈ unit.2

theorem uncorrupted_of_fromOneGroup
    (h : Forall₂ (p.Answers (formatOf codec)) (callsFor units) groups)
    (hnd : (units.map Prod.fst).Nodup) {e : Emitted UInt32 UInt8}
    (he : FromOneGroup (fun n => isParam codec n = false)
      ((callsFor units).map (loadOf p codec)) e.units)
    {frame : MediaFrame} (hf : frameOf codec e = some frame) :
    ∃ unit ∈ units, ∃ ts nalus key, frame = naluFrame codec ts nalus key ∧ ∀ n ∈ nalus,
      n ∈ unit.2 := by
  obtain ⟨-, tag, htg⟩ := he
  rw [frameOf] at hf
  split at hf
  next => cases hf
  next hne =>
    -- every NAL unit of the frame shows, so it is of an access unit with this timestamp
    have hal : ∀ n ∈ e.units.filter (fun n => !isParam codec n), ∃ unit ∈ units, unit.1 = tag ∧
        n ∈ unit.2 := by
      intro n hn
      obtain ⟨hmem, hs⟩ := mem_filter.mp hn
      obtain ⟨l, hl, hlt, hls⟩ := htg n hmem (by simpa using hs)
      obtain ⟨unit, hu, hts, hnl⟩ := unit_of_load h hl hls
      exact ⟨unit, hu, hts.trans hlt, hnl⟩
    obtain ⟨n₀, hn₀⟩ := exists_mem_of_ne_nil _ hne
    obtain ⟨unit, hu, hts, -⟩ := hal n₀ hn₀
    refine ⟨unit, hu, e.tag, _, e.key, (some.inj hf).symm, fun n hn => ?_⟩
    obtain ⟨unit', hu', hts', hmem⟩ := hal n hn
    have heq : unit' = unit := inj_on_of_nodup_map hnd hu' hu (hts'.trans hts.symm)
    exact heq ▸ hmem

/-! ## WHIP -/

/-- The payload of a packet goes to the depacketizer. -/
def pushStep (d : Webrtc.H264RtpDepacketizer) (packet : Bytes) :
    Webrtc.H264RtpDepacketizer × List Bytes :=
  let out := d.push (packet.drop 12)
  (out.1, out.2.toList)

def CarriesPiece (p : RtpPacketizer) (packet : Bytes) (piece : Piece UInt8) : Prop :=
  Readable piece ∧ ∃ timestamp marker, p.Carries timestamp marker (h264Format.encode piece) packet

theorem alike_sendings (h : Forall₂ (p.Answers h264Format) calls groups) :
    ∀ {keep : Nat → Nat → Bool}, NoneStructured p .h264 keep calls →
      Alike (fun sent unit => sent = unit) (CarriesPiece p) keep groups
        ((calls.map fun c => h264Format.sending p.mtu c.nalu).map fun s => (s.unit, s.pieces)) := by
  induction h with
  | nil => exact fun _ => .nil
  | @cons c group calls groups hg _ ih =>
    intro keep hpl
    obtain ⟨hs, hu, hc⟩ := hg
    refine .cons (hs.trans hu.symm) (Forall₂.length_eq hc).symm ?_ (ih fun k => hpl (k + 1))
    have hr : ∀ piece ∈ kept (keep 0) (h264Format.sending p.mtu c.nalu).pieces, Readable piece := by
      intro piece hpc
      have hmem := mem_of_mem_kept hpc
      obtain ⟨hlen, ⟨rfl, hft⟩ | ⟨start, stop, body, rfl⟩⟩ := mem_pieces_sending hmem
      · rw [pieces_of_fits hlen hft] at hpc
        obtain ⟨hag, hfr⟩ := not_or.mp (hpl 0 c rfl (keep_of_mem_kept hpc) hft)
        refine ⟨?_, hag, hfr⟩
        rintro hnil
        exact absurd (hnil ▸ hlen) (by decide)
      · exact length_take_of_le hlen
    have hb := (forall₂_and_left _ _).mpr ⟨hr, forall₂_kept hc (keep 0)⟩
    exact (hb.imp fun piece packet hp => ⟨hp.1, _, _, hp.2⟩).flip

/-- **WHIP.** Where the losses break no NAL unit, only NAL units that were sent are returned. -/
theorem pushed_of_unbroken (h : Forall₂ (p.Answers h264Format) calls groups)
    {keep : Nat → Nat → Bool} (hpl : NoneStructured p .h264 keep calls)
    (hbr : Unbroken 0 none none keep (calls.map fun c => h264Format.sending p.mtu c.nalu)) :
    ∀ out ∈ (runLog pushStep .new (keptEach keep groups)).2, ∃ c ∈ calls,
      out = annexBStartCode ++ c.nalu := by
  have hst : ∀ (d : Webrtc.H264RtpDepacketizer) (buf : Option Bytes) (packet : Bytes)
    (piece : Piece UInt8),
      d.held = buf.map (annexBStartCode ++ ·) → CarriesPiece p packet piece →
      (pushStep d packet).1.held = (collect none buf piece).1.map (annexBStartCode ++ ·) ∧
        (pushStep d packet).2 = (collect none buf piece).2.map (annexBStartCode ++ ·) := by
    rintro d buf packet piece hbf ⟨hpc, timestamp, marker, sequence, rfl⟩
    exact push_encode hbf hpc
  have hsm := arrivals_sim pushStep (collect none)
    (Q := fun outs us => outs = us.map (annexBStartCode ++ ·)) rfl
    (fun ha hb => by rw [ha, hb, map_append]) hst (alike_sendings h hpl)
    (s := Webrtc.H264RtpDepacketizer.new) (t := none) rfl
  have hi := (arrivals_intact_iff 0 none _ none keep).mpr hbr
  intro out hou
  rw [← flatMap_arrivals, mem_flatMap] at hou
  obtain ⟨a, ha, hou⟩ := hou
  obtain ⟨a', ha', hsn, -, hot⟩ := exists_mem_of_forall₂ hsm.flip ha
  rw [hot] at hou
  obtain ⟨x, hx, rfl⟩ := mem_map.mp hou
  have hgr : a.sent ∈ groups.map Prod.fst := by
    rw [← map_sent_arrivals pushStep .new keep]
    exact mem_map_of_mem ha
  obtain ⟨group, hg, hf⟩ := mem_map.mp hgr
  obtain ⟨c, hc, han⟩ := exists_mem_of_forall₂ h hg
  refine ⟨c, hc, ?_⟩
  rw [(hi a' ha' x hx (Nat.zero_le _)).1, ← hsn, ← hf, han.1]

/-! ## Both depacketizers -/

/-- What is published while packets are lost. -/
structure KeepsUnits (p : RtpPacketizer) (codec : CodecId) (units : List (UInt32 × List Bytes))
    (packets : List Bytes) : Prop where
  rtsp : ∀ (info : SdpInfo) (videoChan audioChan : UInt8) (forceMedia : Option FrameType)
    (channel : UInt8), info.videoCodec = codec →
    (new info videoChan audioChan forceMedia).mediaOf p.payloadType channel = some .video →
    ∃ d' frames, handleAll channel (.new info videoChan audioChan forceMedia) packets =
      some (d', frames) ∧
      ∀ f ∈ frames, Uncorrupted codec units (new info videoChan audioChan forceMedia).params f
  whip : codec = .h264 → ∀ out ∈ (runLog pushStep .new packets).2, ∃ unit ∈ units, ∃ n ∈ unit.2,
    out = annexBStartCode ++ n

/-- **Lost packets.** Where no NAL unit that arrives is taken for something else, and the losses
break no NAL unit and keep the pictures of different access units apart, nothing that is published
is corrupted. -/
theorem loss_keeps_units (hcodec : codec = .h264 ∨ codec = .h265)
    {units : List (UInt32 × List Bytes)}
    (hnodup : (units.map Prod.fst).Nodup) {p p' : RtpPacketizer} (hpt : p.payloadType &&& 0x80 = 0)
    {groups : List (Bytes × List Bytes)}
    (h : packetizeCalls (packetizeNalu (formatOf codec)) p (callsFor units) = some (p', groups))
    {keep : Nat → Nat → Bool} (hplain : NoneStructured p codec keep (callsFor units))
    (hbroken : Unbroken 0 none none keep ((callsFor units).map fun c =>
      (formatOf codec).sending p.mtu c.nalu))
    (hsep : Separated (codec = .h264) (fun n => isParam codec n = false)
      ((callsFor units).map (loadOf p codec)) keep) :
    KeepsUnits p codec units (keptEach keep groups) := by
  obtain ⟨-, han⟩ := packetizeCalls_spec h
  refine ⟨?_, ?_⟩
  · rintro info videoChan audioChan forceMedia channel rfl hmd
    generalize hd : new info videoChan audioChan forceMedia = d at hmd
    have hcd' : d.videoCodec = info.videoCodec := hd ▸ rfl
    obtain ⟨hem, hlf⟩ := emitted_fromOneGroup _ (marksOf info.videoCodec)
      (unbroken_loads hbroken) hsep
    -- every unit that is handed on or kept was sent
    have hS : ∀ {n : Bytes}, (∃ l ∈ (callsFor units).map (loadOf p info.videoCodec), l.Is n) →
        n ∈ d.params ∨ ∃ unit ∈ units, n ∈ unit.2 := by
      rintro n ⟨l, hl, hls⟩
      obtain ⟨unit, hun, -, hmem⟩ := unit_of_load han hl hls
      exact .inr ⟨unit, hun, hmem⟩
    have hsh : Shows (fun x => x ∈ d.params ∨ ∃ unit ∈ units, x ∈ unit.2) d d ⟨none, [],
        false⟩ := by
      subst hd
      exact shows_new info videoChan audioChan forceMedia fun x hx => .inl hx
    have hpc := isPacket_loads hcodec han hplain
    rw [← hcd'] at hcodec hpc hem hlf hS ⊢
    obtain ⟨d', frames, ho, hsm, hcn⟩ := handleAll_assemble hcodec hpt hmd hpc hsh
      ⟨fun e he u hu => hS ((hem e he).1 u hu), fun u hu => hS (hlf u hu)⟩
    refine ⟨d', frames, ho, fun f hf => ?_⟩
    rw [Uncorrupted]
    split
    next hc => exact hcn f hf hc
    next hc =>
      have hmem : f ∈ samples frames := mem_filter.mpr ⟨hf, by simpa using hc⟩
      rw [hsm] at hmem
      obtain ⟨e, he, hfr⟩ := mem_filterMap.mp hmem
      rw [← hcd'] at han
      exact uncorrupted_of_fromOneGroup han hnodup (hem e he) hfr
  · rintro rfl out ho
    obtain ⟨c, hc, rfl⟩ := pushed_of_unbroken han hplain hbroken out ho
    obtain ⟨unit, hun, -, hmem⟩ := unit_of_call hc
    exact ⟨unit, hun, c.nalu, hmem, rfl⟩

/-- An access unit of two slices and one of a single slice. -/
def sliceUnits : List (UInt32 × List Bytes) := [(3600, [[0x41, 1], [0x41, 2]]), (7200, [[0x41, 3]])]

def sliceGroups : List (Bytes × List Bytes) :=
  [([0x41, 1], [rtpHeader 96 false 0 3600 7 ++ [0x41, 1]]),
    ([0x41, 2], [rtpHeader 96 true 1 3600 7 ++ [0x41, 2]]),
    ([0x41, 3], [rtpHeader 96 true 2 7200 7 ++ [0x41, 3]])]

theorem packetizeCalls_slices :
    packetizeCalls (packetizeNalu (formatOf .h264)) (new 7 96 90000) (callsFor sliceUnits) =
      some (⟨7, 96, 3, 90000, 1400⟩, sliceGroups) := by
  decide +kernel

/-- Without the first slice, the others are published. -/
theorem keepsUnits_without_first :
    KeepsUnits (new 7 96 90000) .h264 sliceUnits (keptEach (fun k _ => k != 0) sliceGroups) := by
  refine loss_keeps_units (.inl rfl) (by decide) (by decide) packetizeCalls_slices ?_ trivial ?_
  · intro k c hc _ _
    have hal : ∀ c ∈ callsFor sliceUnits,
      ¬ (c.nalu.getD 0 0 &&& 0x1F = 24 ∨ c.nalu.getD 0 0 &&& 0x1F = 28) := by decide
    exact hal c (mem_of_getElem? hc)
  · intro i j m l l' l'' hl hl' _ hij _ ht _ _ hd _ _
    match i, hl with
    | 0, hl =>
      -- the first slice does not arrive
      obtain ⟨g, hg, -, hk⟩ := hd
      cases hl
      cases hg
      exact absurd (hk 0 (by decide)) (by decide)
    | 1, hl =>
      cases hl
      exact ⟨1, _, rfl, le_refl 1, hij, rfl, rfl, rfl, fun _ _ _ => rfl⟩
    | 2, hl =>
      match j, hl' with
      | 0, _ => exact absurd hij (by decide)
      | 1, _ => exact absurd hij (by decide)
      | 2, _ => exact absurd hij (by decide)
      | _ + 3, hl' => cases hl'
    | _ + 3, hl => cases hl

/-- The packets of a picture in three fragments. -/
def pictureGroups : List (Bytes × List Bytes) :=
  [([0x65, 1, 2, 3, 4, 5, 6, 7, 8, 9, 10, 11, 12],
    [rtpHeader 96 false 0 3600 7 ++ [0x7C, 0x85, 1, 2, 3, 4, 5],
    rtpHeader 96 false 1 3600 7 ++ [0x7C, 0x05, 6, 7, 8, 9, 10], rtpHeader 96 true 2 3600 7 ++
    [0x7C, 0x45, 11, 12]])]

/-- Without the slice that has the marker, slices of two access units are published as one frame.
Without the fragment in the middle, the rest of the picture is returned as a NAL unit. -/
theorem not_keepsUnits : ¬ KeepsUnits (new 7 96 90000) .h264 sliceUnits
    (keptEach (fun k _ => k != 1) sliceGroups) ∧
      ¬ KeepsUnits ((new 7 96 90000).withPayloadMtu 7) .h264
        [(3600, [[0x65, 1, 2, 3, 4, 5, 6, 7, 8, 9, 10, 11, 12]])]
        (keptEach (fun _ i => i != 1) pictureGroups) := by
  refine ⟨fun h => ?_, fun h => ?_⟩
  · obtain ⟨d', frames, hou, hal⟩ := h.rtsp SdpInfo.default 0 2 none 0 rfl (by decide)
    have hfm : (handleAll 0 (new SdpInfo.default 0 2 none)
      (keptEach (fun k _ => k != 1) sliceGroups)).map
        Prod.snd = some [naluFrame .h264 7200 [[0x41, 1], [0x41, 3]] false] := by
      decide +kernel
    rw [hou] at hfm
    obtain rfl : frames = _ := some.inj hfm
    have hfr := hal (naluFrame .h264 7200 [[0x41, 1], [0x41, 3]] false) (mem_singleton_self _)
    obtain ⟨unit, hu, ts, nalus, key, heq, hmem⟩ := hfr
    have hs : ∀ unit ∈ sliceUnits, ∀ n ∈ unit.2, n.length < 2 ^ 32 := by decide
    -- the NAL units of the frame are read back
    have hr := Play.sampleNalus_naluFrame .h264 ts nalus key fun n hn => hs unit hu n (hmem n hn)
    rw [← heq] at hr
    have hno : ∀ unit ∈ sliceUnits, ¬ ([0x41, 1] ∈ unit.2 ∧ [0x41, 3] ∈ unit.2) := by decide
    exact hno unit hu ⟨hmem _ (hr ▸ by decide), hmem _ (hr ▸ by decide)⟩
  · have hot : (runLog pushStep .new (keptEach (fun _ i => i != 1) pictureGroups)).2 =
        [annexBStartCode ++ [0x65, 1, 2, 3, 4, 5, 11, 12]] := by
      decide +kernel
    obtain ⟨unit, hu, n, hn, heq⟩ := h.whip rfl _ (hot ▸ mem_singleton_self _)
    have hno : ∀ unit ∈
      [((3600 : UInt32), [([0x65, 1, 2, 3, 4, 5, 6, 7, 8, 9, 10, 11, 12] : Bytes)])], ∀ n ∈ unit.2,
        annexBStartCode ++ [0x65, 1, 2, 3, 4, 5, 11, 12] ≠ annexBStartCode ++ n := by decide
    exact hno unit hu n hn heq

end MediaKit.Rtsp.Push
