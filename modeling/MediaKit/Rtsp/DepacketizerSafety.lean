import MediaKit.Rtsp.Depacketizer

/-!
# Which publishers stop the server

A step of the depacketizer comes to its end except in two situations, which depend on what
earlier packets left behind.
  * A frame is completed while a NAL unit without a byte is queued: `emit_video_frame` reads the
    first byte of every unit. Only an aggregation packet brings such a unit. A unit from fragments
    never is empty, since its header is in the buffer from the first fragment on; that is the
    invariant `Inv`.
  * A packet with audio arrives while the sample rate is zero.
`StepOk` says this of the state before the step. Together with the condition on the description
(`isSome_parseSdp_iff`) this gives exactly the publishers that do no harm (`publisher_safe_iff`).
-/

namespace MediaKit.Rtsp.Push

open Lib MediaKit.Core List

namespace RtpDepacketizer

/-! ## What a packet brings -/

variable {d d' : RtpDepacketizer} {codec : CodecId} {data n : Bytes}

/-- The units behind their lengths of two bytes, up to the first that is cut off. -/
def unitsUpTo : Nat → Bytes → List Bytes
  | fuel + 1, high :: low :: rest =>
    if rest.length < ofBe [high, low] then []
    else rest.take (ofBe [high, low]) :: unitsUpTo fuel (rest.drop (ofBe [high, low]))
  | _, _ => []

/-- The units of an aggregation packet. -/
def aggregated (d : RtpDepacketizer) (data : Bytes) : List Bytes :=
  if d.videoCodec = .h265 then
    if 2 ≤ data.length ∧ (data.getD 0 0 >>> 1) &&& 0x3F =
      48 then unitsUpTo data.length (data.drop 2) else []
  else if data.getD 0 0 &&& 0x1F = 24 then unitsUpTo data.length (data.drop 1)
  else []

/-- What the payload of a video packet holds. A fragment comes with the header of its unit, which is
not empty. -/
inductive Content
  | unit (nalu : Bytes)
  | units (nalus : List Bytes)
  | fragment (first : UInt8) (second : Bytes) (start stop : Bool) (part : Bytes)
  -- nothing that is taken, and whether the marker of the packet counts
  | other (counts : Bool)

/-- A payload, by the type in its first byte. -/
def content (codec : CodecId) (data : Bytes) : Content :=
  if codec = .h265 then
    if data.length < 2 then .other true
    else if (data.getD 0 0 >>> 1) &&& 0x3F = 48 then .units (unitsUpTo data.length (data.drop 2))
    else if (data.getD 0 0 >>> 1) &&& 0x3F = 49 then
      if data.length < 3 then .other true
      else .fragment ((data.getD 0 0 &&& (0x81 : UInt8)) |||
        ((data.getD 2 0 &&& 0x3F) <<< (1 : UInt8))) [data.getD 1 0]
        (data.getD 2 0 &&& 0x80 ≠ 0) (data.getD 2 0 &&& 0x40 ≠ 0) (data.drop 3)
    else .unit data
  else if 1 ≤ data.getD 0 0 &&& 0x1F ∧ data.getD 0 0 &&& 0x1F ≤ 23 then .unit data
  else if data.getD 0 0 &&& 0x1F = 24 then .units (unitsUpTo data.length (data.drop 1))
  else if data.getD 0 0 &&& 0x1F = 28 then
    if data.length < 2 then .other false
    else .fragment ((data.getD 0 0 &&& 0xE0) ||| (data.getD 1 0 &&& 0x1F)) []
      (data.getD 1 0 &&& 0x80 ≠ 0) (data.getD 1 0 &&& 0x40 ≠ 0) (data.drop 2)
  else .other true

def look (codec : CodecId) (d : RtpDepacketizer) (n : Bytes) : RtpDepacketizer :=
  if codec = .h265 then d.observeHevcNalu n else d.observeNalu n

/-- The look at a unit from fragments. For H.264 it is at the header of the last one only. -/
def lookLast (codec : CodecId) (first : UInt8) (d : RtpDepacketizer) (n : Bytes) :
    RtpDepacketizer :=
  if codec = .h265 then d.observeHevcNalu n
    else { d with videoKey := d.videoKey || first &&& 0x1F = 5 }

/-- The state behind a payload. -/
def receive (codec : CodecId) (d : RtpDepacketizer) : Content → RtpDepacketizer
  | .unit n => (look codec d n).queue n
  | .units nalus => nalus.foldl (fun d n => (look codec d n).queue n) d
  | .fragment first second start stop part =>
    let e := d.startFragment start (first :: second)
    if !e.fuActive then e
    else if stop then (lookLast codec first e.takeFragments (e.fuBuf ++ part)).queue
      (e.fuBuf ++ part)
    else { e with fuBuf := e.fuBuf ++ part }
  | .other _ => d

/-- Whether the marker of the packet counts: for H.264 not behind a fragment without a beginning. -/
def counts (codec : CodecId) (d : RtpDepacketizer) : Content → Bool
  | .fragment _ _ start _ _ => codec = .h265 || start || d.fuActive
  | .other counts => counts
  | _ => true

/-- The packet is not passed over: all are for H.265, and for H.264 all but fragments without a
beginning. -/
def completes (d : RtpDepacketizer) (data : Bytes) : Bool :=
  if d.videoCodec = .h265 then true
  else if data.getD 0 0 &&& 0x1F = 28 then
    decide (2 ≤ data.length) && (data.getD 1 0 &&& 0x80 ≠ 0 || d.fuActive)
  else true

/-- A packet behind its header. -/
structure Arrived where
  media : FrameType
  marker : Bool
  ts : UInt32
  data : Bytes

/-- What a packet is taken for; `none` if it is passed over. -/
def arrived (d : RtpDepacketizer) (channel : UInt8) (payload : Bytes) : Option Arrived :=
  let headerLen := 12 + 4 * (payload.getD 0 0 &&& 0x0F).toNat
  if payload.length < headerLen + 1 then none
  else
    (d.mediaOf (payload.getD 1 0 &&& 0x7F) channel).map fun media =>
      ⟨media, payload.getD 1 0 &&& 0x80 ≠ 0, UInt32.ofNat (ofBe ((payload.take 8).drop 4)),
        payload.drop headerLen⟩

/-- The state and the packet are no reason to stop. -/
def StepOk (d : RtpDepacketizer) (channel : UInt8) (payload : Bytes) : Prop :=
  match d.arrived channel payload with
  | some ⟨.video, marker, _, data⟩ =>
    marker = true → d.completes data = true → [] ∉ d.pendingNalus ∧ [] ∉ d.aggregated data
  | some ⟨.audio, _, _, data⟩ => 2 ≤ data.length → d.audioSampleRate ≠ 0
  | _ => True

/-! ## The queue -/

/-- The fragment buffer holds the header of its unit. -/
def Inv (d : RtpDepacketizer) : Prop := d.fuActive = true → d.fuBuf ≠ []

/-- A step that queues an empty unit only if one is among `units`. -/
structure Takes (d d' : RtpDepacketizer) (units : List Bytes) : Prop where
  inv : Inv d'
  pending : [] ∈ d'.pendingNalus ↔ [] ∈ d.pendingNalus ∨ [] ∈ units

/-- A look at a unit leaves the queue and the fragments alone. -/
theorem look_keeps (codec : CodecId) (d : RtpDepacketizer) (n : Bytes) :
    (look codec d n).pendingNalus = d.pendingNalus ∧
    (look codec d n).fuBuf = d.fuBuf ∧ (look codec d n).fuActive = d.fuActive := by
  unfold look observeHevcNalu observeNalu
  dsimp only
  repeat' split
  all_goals exact ⟨rfl, rfl, rfl⟩

theorem takes_queue (codec : CodecId) (hd : Inv d) (n : Bytes) :
    Takes d ((look codec d n).queue n) [n] := by
  obtain ⟨hp, hb, ha⟩ := look_keeps codec d n
  refine ⟨?_, ?_⟩
  · show (look codec d n).fuActive = true → (look codec d n).fuBuf ≠ []
    rw [hb, ha]
    exact hd
  · show [] ∈ (look codec d n).pendingNalus ++ [n] ↔ _
    rw [hp, mem_append]

theorem takes_units : ∀ (nalus : List Bytes) {d : RtpDepacketizer}, Inv d →
      Takes d (nalus.foldl (fun d n => (look codec d n).queue n) d) nalus
  | [], d, hd => ⟨hd, by simp⟩
  | n :: nalus, d, hd => by
    have ho := takes_queue codec hd n
    have hr := takes_units nalus ho.inv
    refine ⟨hr.inv, hr.pending.trans ?_⟩
    rw [ho.pending, mem_singleton, mem_cons, or_assoc]

/-! ## Aggregation packets -/

theorem unitsUpTo_short {fuel : Nat} {b : Bytes} (h : b.length < 2) : unitsUpTo fuel b = [] := by
  match fuel, b with
  | 0, [] => rfl
  | 0, [_] => rfl
  | _ + 1, [] => rfl
  | _ + 1, [_] => rfl

/-- The loop with its positions reads the units one behind the other. -/
theorem unitsAt_eq (hf : data.length < 2 ^ 63) : ∀ (fuel pos : Nat),
    pos ≤ data.length → unitsAt data fuel pos = some (unitsUpTo fuel (data.drop pos))
  | 0, pos, _ => by
    cases data.drop pos with
    | nil => rfl
    | cons x r => cases r <;> rfl
  | fuel + 1, pos, hpos => by
    rw [unitsAt, addUsize_of_lt (by omega), Option.bind_eq_bind, Option.bind_some]
    by_cases hsh : data.length < pos + 2
    · rw [if_pos hsh, unitsUpTo_short (by rw [length_drop]; omega)]
      rfl
    · have hlt : pos < data.length := by omega
      have hlt' : pos + 1 < data.length := by omega
      rw [if_neg hsh, getElem?_eq_getElem hlt, getElem?_eq_getElem hlt',
        drop_eq_getElem_cons hlt, drop_eq_getElem_cons hlt', unitsUpTo]
      simp only [Option.bind_eq_bind, Option.bind_some]
      generalize hlen : ofBe [data[pos], data[pos + 1]] = len
      have hsm : len < 2 ^ 16 := by
        have h1 := (data[pos]).toNat_lt
        have h2 := (data[pos + 1]).toNat_lt
        rw [← hlen]
        simp only [ofBe, foldl_cons, foldl_nil]
        omega
      rw [addUsize_of_lt (by omega), Option.bind_some]
      by_cases hc : data.length < pos + 2 + len
      · rw [if_pos hc, if_pos (by rw [length_drop]; omega)]
        rfl
      · have hu : (data.take (pos + 2 + len)).drop (pos + 2) =
            (data.drop (pos + 1 + 1)).take len := by
          rw [drop_take]
          congr 1
          omega
        rw [if_neg hc, if_neg (by rw [length_drop]; omega), slice_of_le (by omega) (by omega),
          Option.bind_some, unitsAt_eq hf fuel _ (by omega), drop_drop, hu]
        rfl

/-! ## Fragments -/

theorem inv_startFragment (hd : Inv d) (start : Bool) {header : Bytes}
    (h : header ≠ []) : Inv (d.startFragment start header) := by
  unfold startFragment
  split
  · exact fun _ => h
  · exact hd

theorem pendingNalus_startFragment (d : RtpDepacketizer) (start : Bool) (header : Bytes) :
    (d.startFragment start header).pendingNalus = d.pendingNalus := by
  unfold startFragment
  split
  · rfl
  · rfl

theorem fuActive_startFragment (d : RtpDepacketizer) (start : Bool) (header : Bytes) :
    (d.startFragment start header).fuActive = (start || d.fuActive) := by
  cases start <;> rfl

theorem inv_fragment (hd : Inv d) (part : Bytes) : Inv { d with fuBuf := d.fuBuf ++ part } :=
  fun h => append_ne_nil_of_left_ne_nil (hd h) part

theorem takes_last (hp : d'.pendingNalus = d.pendingNalus)
    (ha : d'.fuActive = false) (hn : n ≠ []) : Takes d (d'.queue n) [] := by
  refine ⟨fun h => absurd (ha.symm.trans h) Bool.false_ne_true, ?_⟩
  show [] ∈ d'.pendingNalus ++ [n] ↔ _
  rw [hp, mem_append, mem_singleton, or_iff_left hn.symm, or_iff_left not_mem_nil]

theorem takes_none (hi : Inv d') (hp : d'.pendingNalus = d.pendingNalus) : Takes d d' [] :=
  ⟨hi, by rw [hp, or_iff_left not_mem_nil]⟩

/-! ## The two payload formats -/

/-- The units that a payload can bring to the queue as they are. -/
def Content.nalus : Content → List Bytes
  | .unit n => [n]
  | .units nalus => nalus
  | _ => []

theorem takes_receive (codec : CodecId) (hd : Inv d) :
    ∀ c : Content, Takes d (receive codec d c) c.nalus
  | .unit n => takes_queue codec hd n
  | .units nalus => takes_units nalus hd
  | .other _ => takes_none hd rfl
  | .fragment first second start stop part => by
    rw [receive]
    generalize hs : d.startFragment _ _ = e
    have hi : Inv e := hs ▸ inv_startFragment hd _ (cons_ne_nil _ _)
    have hpn : e.pendingNalus = d.pendingNalus := hs ▸ pendingNalus_startFragment d _ _
    split
    · exact takes_none hi hpn
    next hac =>
      have hf := inv_fragment hi part (by simpa using hac)
      split
      · obtain ⟨hp, ha⟩ : (lookLast codec first e.takeFragments (e.fuBuf ++ part)).pendingNalus =
          e.pendingNalus ∧
            (lookLast codec first e.takeFragments (e.fuBuf ++ part)).fuActive = false := by
          unfold lookLast
          split
          · exact ⟨(look_keeps .h265 _ _).1, (look_keeps .h265 _ _).2.2⟩
          · exact ⟨rfl, rfl⟩
        exact takes_last (hp.trans hpn) ha hf
      · exact takes_none (fun _ => hf) hpn

theorem getElem?_getD {i : Nat} (h : i < data.length) : data[i]? = some (data.getD i 0) := by
  rw [getD_eq_getElem?_getD, getElem?_eq_getElem h]
  rfl

theorem handleHevcVideoRtp_eq (d : RtpDepacketizer)
    (hft : ∀ nalus, content .h265 data = .units nalus → data.length < 2 ^ 63) :
    d.handleHevcVideoRtp data = some (receive .h265 d (content .h265 data)) := by
  rw [content, if_pos rfl] at hft ⊢
  rw [handleHevcVideoRtp]
  by_cases hs : data.length < 2
  · rw [if_pos hs, if_pos hs, receive]
  rw [if_neg hs] at hft ⊢
  rw [if_neg hs, getElem?_getD (by omega), Option.bind_eq_bind, Option.bind_some]
  dsimp only
  split_ifs at hft ⊢ with ha hfr ht
  · rw [unitsAt_eq (hft _ rfl) _ _ (by omega)]
    rfl
  · rfl
  · rw [getElem?_getD (by omega), getElem?_getD (by omega), slice_to_end (by omega), receive]
    simp only [Option.bind_some, decide_eq_true_eq]
    split_ifs <;> rfl
  · rfl

theorem handleH264_eq (hc : codec ≠ .h265) (d : RtpDepacketizer) (hne : data ≠ [])
    (hft : ∀ nalus, content codec data = .units nalus → data.length < 2 ^ 63) :
    d.handleH264 data = some (receive codec d (content codec data),
      counts codec d (content codec data)) := by
  have hl : look codec = observeNalu := by
    funext d n
    exact if_neg hc
  rw [content, if_neg hc] at hft ⊢
  rw [handleH264, getElem?_getD (length_pos_iff.mpr hne), Option.bind_eq_bind, Option.bind_some]
  dsimp only
  split_ifs at hft ⊢ with hs hag hfr htw
  · rw [receive, hl]
    rfl
  · rw [receive, hl, unitsAt_eq (hft _ rfl) _ _ (length_pos_iff.mpr hne)]
    rfl
  · rfl
  · have hty : ((data.getD 0 0 &&& 0xE0) ||| (data.getD 1 0 &&& 0x1F)) &&& 0x1F =
        data.getD 1 0 &&& 0x1F := by
      simp [← UInt8.toNat_inj, Nat.and_or_distrib_right, Nat.and_assoc]
    rw [getElem?_getD (by omega), slice_to_end (by omega), receive, lookLast, if_neg hc, counts,
      decide_eq_false hc,
      Bool.false_or, hty,
      ← fuActive_startFragment d _ [(data.getD 0 0 &&& 0xE0) ||| (data.getD 1 0 &&& 0x1F)]]
    simp only [Option.bind_some, decide_eq_true_eq]
    generalize d.startFragment _ _ = e
    cases e.fuActive
    · rfl
    · rw [if_neg (by decide), if_neg (by decide)]
      split_ifs <;> rfl
  · rfl

theorem nalus_content (hne : data ≠ []) :
    [] ∈ (content d.videoCodec data).nalus ↔ [] ∈ d.aggregated data := by
  rw [content, aggregated]
  split_ifs <;> grind [Content.nalus]

theorem counts_content (d : RtpDepacketizer) (data : Bytes) :
    counts d.videoCodec d (content d.videoCodec data) = d.completes data := by
  rw [content, completes]
  split_ifs <;> grind [counts]

/-! ## Completed frames -/

theorem frameNalus_eq (isParam : UInt8 → Bool) : ∀ nalus : List Bytes,
    frameNalus isParam nalus = if [] ∈ nalus then none
      else some (nalus.filter fun n => !isParam (n.getD 0 0))
  | [] => rfl
  | [] :: nalus => (if_pos mem_cons_self).symm
  | (b :: n) :: nalus => by
    have hmem : [] ∈ (b :: n) :: nalus ↔ [] ∈ nalus := by simp
    rw [frameNalus, frameNalus_eq isParam nalus, if_congr hmem rfl rfl]
    by_cases hnil : [] ∈ nalus
    · rw [if_pos hnil, if_pos hnil]
      rfl
    · rw [if_neg hnil, if_neg hnil]
      show some (if isParam b then _ else _) = some (filter _ _)
      rw [filter_cons, getD_cons_zero]
      cases isParam b <;> rfl

theorem buildHevcConfigRecord_eq (vps sps pps : Bytes) : ∃ profile : Bytes, profile.length = 12 ∧
    buildHevcConfigRecord vps sps pps =
      some ([0x01] ++ profile ++ [0, 0, 0, 1, 0, 0, 0, 0, 0x0F, 0x03] ++
      [((32 : UInt8), vps), (33, sps), (34, pps)].flatMap fun p =>
        [p.1, 0, 1] ++ be16 p.2.length ++ p.2) := by
  unfold buildHevcConfigRecord
  by_cases h : 8 ≤ sps.length
  · rw [if_pos h, getElem?_eq_getElem (by omega), slice_of_le (by decide) (by omega),
      getElem?_eq_getElem (by omega)]
    exact ⟨[sps[2]] ++ (sps.take 7).drop 3 ++ replicate 6 (0 : UInt8) ++
      [sps[7]], by simp; omega, rfl⟩
  · rw [if_neg h]
    exact ⟨[0x20] ++ replicate 4 (0 : UInt8) ++ replicate 6 0 ++ [0x5D], rfl, rfl⟩

/-- The parameter sets for the configuration. -/
def params (d : RtpDepacketizer) : List Bytes := d.vps.toList ++ d.sps.toList ++ d.pps.toList

theorem mem_params {d : RtpDepacketizer} {x : Bytes} :
    x ∈ d.params ↔ d.vps = some x ∨ d.sps = some x ∨ d.pps = some x := by
  rw [params, mem_append, mem_append, Option.mem_toList, Option.mem_toList, Option.mem_toList,
    or_assoc]

/-- A configuration made of parameter sets with a property. -/
structure IsConfig (S : Bytes → Prop) (f : MediaFrame) : Prop where
  config : f.configFrame = true
  record : (∃ sps pps, S sps ∧ S pps ∧ f.data = buildAvccConfig sps pps) ∨
    ∃ vps sps pps record, S vps ∧ S sps ∧ S pps ∧ buildHevcConfigRecord vps sps pps = some record ∧
      f.data = [0x1C, 0x00, 0, 0, 0] ++ record

theorem videoConfig_spec {S : Bytes → Prop} (d : RtpDepacketizer) (hS : ∀ x ∈ d.params, S x) :
    ∃ sent config, d.videoConfig = some ({ d with configSent := sent }, config) ∧ ∀ f ∈ config,
    IsConfig S f := by
  rw [videoConfig]
  split
  next => exact ⟨d.configSent, [], rfl, forall_mem_nil _⟩
  next =>
    split
    next =>
      split
      next vps sps pps hv hs hp =>
        obtain ⟨_, -, hr⟩ := buildHevcConfigRecord_eq vps sps pps
        rw [hr]
        refine ⟨true, _, rfl, forall_mem_singleton.mpr ⟨rfl, .inr ?_⟩⟩
        exact ⟨vps, sps, pps, _, hS vps (mem_params.mpr (.inl hv)),
          hS sps (mem_params.mpr (.inr (.inl hs))),
          hS pps (mem_params.mpr (.inr (.inr hp))), hr, rfl⟩
      next => exact ⟨d.configSent, [], rfl, forall_mem_nil _⟩
    next =>
      split
      next sps pps hs hp =>
        refine ⟨true, _, rfl, forall_mem_singleton.mpr ⟨rfl, .inl ?_⟩⟩
        exact ⟨sps, pps, hS sps (mem_params.mpr (.inr (.inl hs))),
          hS pps (mem_params.mpr (.inr (.inr hp))), rfl⟩
      next => exact ⟨d.configSent, [], rfl, forall_mem_nil _⟩

/-- **A frame is completed** exactly if no queued unit is empty, and the fragments stay. -/
theorem emitVideoFrame_spec (d : RtpDepacketizer) :
    (d.emitVideoFrame.isSome = true ↔ [] ∉ d.pendingNalus) ∧
      ∀ d' frames, d.emitVideoFrame = some (d', frames) → d'.fuBuf = d.fuBuf ∧
        d'.fuActive = d.fuActive := by
  unfold emitVideoFrame
  by_cases hnil : d.pendingNalus = []
  · rw [hnil]
    refine ⟨iff_of_true rfl not_mem_nil, fun d' frames h => ?_⟩
    cases h
    exact ⟨rfl, rfl⟩
  obtain ⟨sent, frames, hc, -⟩ := @videoConfig_spec (fun _ => True) d fun _ _ => trivial
  rw [if_neg hnil, hc, Option.bind_eq_bind, Option.bind_some]
  dsimp only
  split
  all_goals
    rw [frameNalus_eq]
    by_cases hmem : [] ∈ d.pendingNalus
    · rw [if_pos hmem]
      exact ⟨iff_of_false (by simp) (not_not_intro hmem), fun d' frames h => absurd h (by simp)⟩
    · rw [if_neg hmem]
      refine ⟨iff_of_true rfl hmem, fun d' frames h => ?_⟩
      cases h
      exact ⟨rfl, rfl⟩

/-- **A video packet** is taken, and completes the frame if its marker counts. -/
theorem handleVideoRtp_eq (d : RtpDepacketizer) (hne : data ≠ [])
    (hf : ∀ nalus, content d.videoCodec data = .units nalus → data.length < 2 ^ 63) (marker : Bool)
    (ts : UInt32) :
    d.handleVideoRtp data marker ts =
      if counts d.videoCodec d (content d.videoCodec data) && marker then
        (receive d.videoCodec { d with pendingVideoTs := ts }
          (content d.videoCodec data)).emitVideoFrame
      else some (receive d.videoCodec { d with pendingVideoTs := ts } (content d.videoCodec data),
        []) := by
  rw [handleVideoRtp, if_neg hne]
  dsimp only
  by_cases hcd : d.videoCodec = .h265
  · have hcn : counts d.videoCodec d (content d.videoCodec data) = true :=
      (counts_content d data).trans (if_pos hcd)
    rw [hcn, Bool.true_and]
    rw [hcd] at hf ⊢
    rw [if_pos rfl, handleHevcVideoRtp_eq _ hf]
    rfl
  · rw [if_neg hcd, handleH264_eq hcd _ hne hf]
    cases content d.videoCodec data <;> rfl

/-- **A video packet** stops the server exactly if it completes a frame with an empty unit. -/
theorem handleVideoRtp_spec (hd : Inv d) (hne : data ≠ [])
    (hf : data.length < 2 ^ 63) (marker : Bool) (ts : UInt32) :
    ((d.handleVideoRtp data marker ts).isSome = true ↔
      (marker = true → d.completes data = true → [] ∉ d.pendingNalus ∧ [] ∉ d.aggregated data)) ∧
      ∀ d' frames, d.handleVideoRtp data marker ts = some (d', frames) → Inv d' := by
  have ht := takes_receive d.videoCodec (d := { d with pendingVideoTs := ts }) hd
    (content d.videoCodec data)
  rw [handleVideoRtp_eq d hne (fun _ _ => hf), counts_content, ← nalus_content hne]
  generalize receive d.videoCodec _ _ = e at ht
  by_cases he : d.completes data = true ∧ marker = true
  · obtain ⟨hs, hk⟩ := e.emitVideoFrame_spec
    rw [if_pos (by simp [he]), hs, ht.pending, not_or]
    refine ⟨⟨fun h _ _ => h, fun h => h he.2 he.1⟩, fun d' frames h => ?_⟩
    obtain ⟨hb, hac⟩ := hk d' frames h
    show d'.fuActive = true → d'.fuBuf ≠ []
    rw [hb, hac]
    exact ht.inv
  · rw [if_neg (by simpa using he)]
    refine ⟨iff_of_true rfl fun hm hc => absurd ⟨hc, hm⟩ he, fun d' frames h => ?_⟩
    cases h
    exact ht.inv

/-! ## Audio -/

theorem auSizes_spec (hf : data.length < 2 ^ 63) : ∀ (n pos : Nat), pos ≤ data.length →
    ∃ sizes last, auSizes data n pos = some (sizes, last) ∧ last ≤ data.length ∧
      ∀ size ∈ sizes, size < 2 ^ 13
  | 0, pos, hpos => ⟨[], pos, rfl, hpos, nofun⟩
  | n + 1, pos, hpos => by
    rw [auSizes, addUsize_of_lt (by omega), Option.bind_eq_bind, Option.bind_some]
    by_cases hsh : data.length < pos + 2
    · rw [if_pos hsh]
      exact ⟨[], pos, rfl, hpos, nofun⟩
    · obtain ⟨sizes, last, hr, hl, hsi⟩ := auSizes_spec hf n (pos + 2) (by omega)
      rw [if_neg hsh, getElem?_eq_getElem (by omega), getElem?_eq_getElem (by omega), hr]
      refine ⟨_, last, rfl, hl, fun size hsz => ?_⟩
      rcases mem_cons.mp hsz with rfl | hmem
      · exact lt_of_le_of_lt Nat.and_le_right (by decide)
      · exact hsi size hmem

theorem auFrames_isSome (hft : data.length < 2 ^ 63) (frameMs : Nat) :
    ∀ (sizes : List Nat) (pos : Nat) (ms : UInt32), pos ≤ data.length →
    (∀ size ∈ sizes, size < 2 ^ 13) →
      (auFrames data frameMs sizes pos ms).isSome = true
  | [], pos, ms, _, _ => rfl
  | size :: sizes, pos, ms, hpos, h => by
    have hsz := h size mem_cons_self
    rw [auFrames, addUsize_of_lt (by omega), Option.bind_eq_bind, Option.bind_some]
    by_cases hc : data.length < pos + size
    · rw [if_pos hc]
      rfl
    · rw [if_neg hc, slice_of_le (by omega) (by omega), Option.bind_eq_bind, Option.bind_some]
      obtain ⟨frames, hfr⟩ := Option.isSome_iff_exists.mp (auFrames_isSome hft frameMs sizes
        (pos + size) (UInt32.ofNat (min (ms.toNat + frameMs % 2 ^ 32) (2 ^ 32 - 1))) (by omega)
        fun s hs => h s (mem_cons_of_mem _ hs))
      dsimp only
      rw [hfr]
      rfl

theorem sendAudioConfig_eq (d : RtpDepacketizer) :
    ∃ sent frames, d.sendAudioConfig = ({ d with audioConfigSent := sent }, frames) := by
  unfold sendAudioConfig
  split
  · exact ⟨true, _, rfl⟩
  · exact ⟨d.audioConfigSent, [], rfl⟩

/-- **An audio packet** stops the server exactly if the sample rate is zero. -/
theorem handleAudioRtp_spec (hd : Inv d) (hft : data.length < 2 ^ 63) (ts : UInt32) :
    ((d.handleAudioRtp data ts).isSome = true ↔ (2 ≤ data.length → d.audioSampleRate ≠ 0)) ∧
      ∀ d' frames, d.handleAudioRtp data ts = some (d', frames) → Inv d' := by
  unfold handleAudioRtp
  by_cases hsh : data.length < 2
  · rw [if_pos hsh]
    refine ⟨iff_of_true rfl fun h => absurd h (by omega), fun d' frames h => ?_⟩
    cases h
    exact hd
  obtain ⟨sent, config, hc⟩ := d.sendAudioConfig_eq
  rw [if_neg hsh, getElem?_eq_getElem (by omega), getElem?_eq_getElem (by omega), hc]
  simp only [Option.bind_eq_bind, Option.bind_some]
  obtain ⟨sizes, last, hsz, hl, hsm⟩ := auSizes_spec hft (ofBe [data[0], data[1]] / 16) 2 (by omega)
  have hm : ts.toNat * 1000 < 2 ^ 64 := by
    have := ts.toNat_lt
    omega
  rw [hsz, mulU64_of_lt hm]
  simp only [Option.bind_some]
  by_cases hr : d.audioSampleRate = 0
  · have hz : d.audioSampleRate.toNat = 0 := by rw [hr]; rfl
    rw [divCeilChecked, if_pos hz]
    exact ⟨iff_of_false (by simp) fun h => h (by omega) hr, fun d' frames h => absurd h (by simp)⟩
  · have hpos : d.audioSampleRate.toNat ≠ 0 := fun h => hr (UInt32.toNat_inj.mp h)
    rw [divCeilChecked, if_neg hpos, divChecked, if_neg hpos]
    simp only [Option.bind_some]
    obtain ⟨frames, hfr⟩ := Option.isSome_iff_exists.mp (auFrames_isSome hft
      ((1024 * 1000 + d.audioSampleRate.toNat - 1) / d.audioSampleRate.toNat) sizes last
      (UInt32.ofNat (ts.toNat * 1000 / d.audioSampleRate.toNat)) hl hsm)
    rw [hfr]
    refine ⟨iff_of_true rfl fun _ => hr, fun d' frames h => ?_⟩
    cases h
    exact hd

/-! ## Packets -/

theorem handleRtp_eq (d : RtpDepacketizer) (channel : UInt8) (payload : Bytes) :
    d.handleRtp channel payload =
      match d.arrived channel payload with
      | some ⟨.video, marker, ts, data⟩ => d.handleVideoRtp data marker ts
      | some ⟨.audio, _, ts, data⟩ => d.handleAudioRtp data ts
      | _ => some (d, []) := by
  unfold handleRtp arrived
  have hcc : (payload.getD 0 0 &&& 0x0F).toNat ≤ 15 := by
    rw [UInt8.toNat_and]
    exact Nat.and_le_right
  dsimp only
  by_cases hs : payload.length < 12
  · rw [if_pos hs, if_pos (by omega)]
  rw [if_neg hs, getElem?_getD (by omega : 1 < _), getElem?_getD (by omega : 0 < _),
    Option.bind_eq_bind, Option.bind_some]
  cases hm : d.mediaOf (payload.getD 1 0 &&& 0x7F) channel with
  | none =>
    rw [Option.map_none, ite_self]
    rfl
  | some media =>
    simp only [Option.bind_eq_bind, Option.bind_some]
    rw [addUsize_of_lt (by omega), Option.bind_some, addUsize_of_lt (by omega), Option.bind_some]
    by_cases hct : payload.length < 12 + 4 * (payload.getD 0 0 &&& 0x0F).toNat + 1
    · rw [if_pos hct, if_pos hct]
      rfl
    · rw [if_neg hct, if_neg hct, slice_of_le (by decide) (by omega), slice_to_end (by omega),
        Option.bind_some, Option.bind_some]
      cases media <;> rfl

/-- **One packet.** -/
theorem handleRtp_spec (hd : Inv d) (channel : UInt8) {payload : Bytes}
    (hf : payload.length < 2 ^ 63) :
    ((d.handleRtp channel payload).isSome = true ↔ d.StepOk channel payload) ∧
      ∀ d' frames, d.handleRtp channel payload = some (d', frames) → Inv d' := by
  rw [handleRtp_eq]
  unfold StepOk
  have hdt : ∀ a, d.arrived channel payload = some a → a.data ≠ [] ∧ a.data.length < 2 ^ 63 := by
    intro a ha
    unfold arrived at ha
    dsimp only at ha
    split at ha
    · cases ha
    · obtain ⟨media, -, rfl⟩ := Option.map_eq_some_iff.mp ha
      refine ⟨ne_nil_of_length_pos ?_, ?_⟩
      · rw [length_drop]
        omega
      · rw [length_drop]
        omega
  cases har : d.arrived channel payload with
  | none =>
    refine ⟨iff_of_true rfl trivial, fun d' frames h => ?_⟩
    cases h
    exact hd
  | some a =>
    obtain ⟨hne, hs⟩ := hdt a har
    obtain ⟨media, marker, ts, data⟩ := a
    cases media with
    | video => exact handleVideoRtp_spec hd hne hs marker ts
    | audio => exact handleAudioRtp_spec hd hs ts
    | metadata =>
      refine ⟨iff_of_true rfl trivial, fun d' frames h => ?_⟩
      cases h
      exact hd

end RtpDepacketizer

/-! ## A publisher -/

/-- A packet on a channel, for the depacketizer and what it has published. -/
def rtpStep (s : RtpDepacketizer × List MediaFrame) (packet : UInt8 × Slice) :
    Option (RtpDepacketizer × List MediaFrame) :=
  (s.1.handleRtp packet.1 packet.2.bytes).map fun r => (r.1, s.2 ++ r.2)

/-- The description, then the packets. -/
def publisherRun (base64 : Str → Option Bytes) (body : Bytes) (videoChan audioChan : UInt8)
    (forceMedia : Option FrameType) (packets : List (UInt8 × Slice)) : Option (List MediaFrame) :=
  (parseSdp base64 body).bind fun info =>
    (packets.foldlM rtpStep (RtpDepacketizer.new info videoChan audioChan forceMedia, [])).map
    Prod.snd

/-- **The publishers that do no harm.** Every line of the description and every packet must meet its
condition on what stands before it. -/
theorem publisher_safe_iff (base64 : Str → Option Bytes) (body : Bytes)
    (videoChan audioChan : UInt8) (forceMedia : Option FrameType) (packets : List (UInt8 × Slice)) :
    (publisherRun base64 body videoChan audioChan forceMedia packets).isSome = true ↔
      Along (sdpLine base64) LineOk SdpInfo.default (lines (Utf8.lossy body)) ∧ ∀ info,
        parseSdp base64 body = some info →
          Along rtpStep (fun s packet => s.1.StepOk packet.1 packet.2.bytes)
            (RtpDepacketizer.new info videoChan audioChan forceMedia, []) packets := by
  have hst : ∀ (s : RtpDepacketizer × List MediaFrame) (packet : UInt8 × Slice), s.1.Inv →
      ((rtpStep s packet).isSome = true ↔ s.1.StepOk packet.1 packet.2.bytes) := by
    intro s packet hs
    unfold rtpStep
    rw [Option.isSome_map]
    exact (RtpDepacketizer.handleRtp_spec hs packet.1 packet.2.fits).1
  have hiv : ∀ (s : RtpDepacketizer × List MediaFrame) (packet : UInt8 × Slice) (s' : _), s.1.Inv →
      rtpStep s packet = some s' → s'.1.Inv := by
    intro s packet s' hs h
    obtain ⟨r, hr, rfl⟩ := Option.map_eq_some_iff.mp h
    exact (RtpDepacketizer.handleRtp_spec hs packet.1 packet.2.fits).2 r.1 r.2 hr
  rw [← isSome_parseSdp_iff]
  unfold publisherRun
  cases parseSdp base64 body with
  | none => exact iff_of_false (by simp) fun h => absurd h.1 (by simp)
  | some info =>
    -- no fragment is collected yet, so the invariant holds at the start
    have hrun := isSome_foldlM_iff hst hiv packets
      (RtpDepacketizer.new info videoChan audioChan forceMedia, []) nofun
    rw [Option.bind_some, Option.isSome_map, hrun]
    constructor
    · intro h
      refine ⟨rfl, fun info' hin => ?_⟩
      rwa [← Option.some.inj hin]
    · exact fun h => h.2 info rfl

/-- **Three ways to stop the server**: an aggregation packet with an empty unit and the marker; a
configuration with a character of three bytes; and a sample rate of zero with an audio packet. -/
theorem publisher_stops_server : publisherRun (fun _ => none) [] 0 2 none
      [(0, ⟨[0x80, 0xE0, 0, 0, 0, 0, 0, 0, 0, 0, 0, 0, 24, 0, 0], by decide⟩)] = none ∧
    publisherRun (fun _ => none) (Utf8.encode "a=fmtp:97 config=€1") 0 2 none [] = none ∧
    publisherRun (fun _ => none) (Utf8.encode "a=rtpmap:97 mpeg4-generic/0") 0 2 none
      [(2, ⟨[0x80, 97, 0, 0, 0, 0, 0, 0, 0, 0, 0, 0, 0, 0], by decide⟩)] = none := by
  decide +kernel

end MediaKit.Rtsp.Push
