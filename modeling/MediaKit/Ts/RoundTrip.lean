import MediaKit.Ts.Stream
import MediaKit.Ts.Writer

/-!
# From the transport stream writer to the demuxer

A stream of packets is demuxed packet by packet however it is cut (`published_eq`), and all that
matters is what one packet does (`demux_written`).

Two rules of the demuxer lose video.
  * A packet with fewer than four bytes of payload is skipped, even if it is the end of a
    PES packet. That is the case when the bytes behind the first packet leave 1, 2 or 3 for the
    last one (`tailLen`).
  * The loop over the program map does not stop at the end of the section. It takes the checksum for
    an entry, and for two of the 256 stream types the checksum looks like one for video. A stream
    comes back exactly when neither happens (`ts_roundtrip_iff`). -/

namespace MediaKit.Ts

open Lib MediaKit.Core List Option

/-! ## Written packets -/

variable {adaptation packet payload : Bytes}

/-- An adaptation field that begins with its own length. -/
def WellSized (adaptation : Bytes) : Prop :=
  ∀ x rest, adaptation = x :: rest → x.toNat = rest.length

theorem wellSized_padding {pad : Nat} (h : pad ≤ 184) : WellSized (padding pad) := by
  intro x rest heq
  unfold padding at heq
  split at heq
  · cases heq
  · obtain ⟨rfl, rfl⟩ := List.cons.inj heq
    rw [UInt8.toNat_ofNat']
    split
    · rw [length_cons, length_replicate]
      omega
    · rw [length_nil]
      omega

theorem length_padding (pad : Nat) : (padding pad).length = pad := by
  unfold padding
  split
  · rw [length_nil]
    omega
  · rw [length_cons]
    split
    · rw [length_cons, length_replicate]
      omega
    · rw [length_nil]
      omega

theorem wellSized_firstAdaptation {pad : Nat} (h : pad ≤ 184) (randAccess : Bool) (pcr : UInt64) :
    WellSized (firstAdaptation pad randAccess pcr) := by
  unfold firstAdaptation
  split
  next hr =>
    intro x rest heq
    obtain ⟨rfl, rfl⟩ := List.cons.inj heq
    rw [UInt8.toNat_ofNat']
    simp only [append_eq, length_cons, length_append, length_replicate, writePcr, length_nil]
    omega
  split
  · exact wellSized_padding h
  split
  · intro x rest heq
    obtain ⟨rfl, rfl⟩ := List.cons.inj heq
    rfl
  · exact nofun

/-- The field takes what the payload leaves, or two bytes for the flag alone. -/
theorem length_firstAdaptation (pad : Nat) (randAccess : Bool) (pcr : UInt64) :
    (firstAdaptation pad randAccess pcr).length = if pad = 0 ∧ randAccess then 2 else pad := by
  unfold firstAdaptation
  split
  next hr =>
    rw [if_neg (by omega)]
    simp only [length_cons, length_append, length_replicate, writePcr, length_nil]
    omega
  split
  next hpos => rw [if_neg (by omega), length_padding]
  next hpos =>
    split
    next hr =>
      rw [if_pos ⟨by omega, hr⟩]
      rfl
    next hr =>
      rw [if_neg (fun h => hr h.2), length_nil]
      omega

theorem writeTsPacketWith_eq {start : Bool} {continuity : UInt8}
    (hlen : adaptation.length + payload.length = 184) (hne : payload ≠ []) :
    writeTsPacketWith videoPid adaptation payload start continuity =
      [0x47, 0x01 ||| (if start then 0x40 else 0), 0x00,
        (if adaptation = [] then 0x10 else 0x30) ||| (continuity &&& 0x0F)] ++
        (adaptation ++ payload) := by
  have hf : (adaptation ++ payload).length = 184 := by rw [length_append, hlen]
  have hh : (videoPid >>> 8).toUInt8 &&& 0x1F = 0x01 := by decide
  have hlw : videoPid.toUInt8 = 0x00 := by decide
  unfold writeTsPacketWith fillPacket packetHead
  rw [hf, replicate_zero, take_of_length_le (le_of_eq hf)]
  by_cases hnil : adaptation = []
  · simp [hnil, hh, hlw]
  · simp [hnil, hne, hh, hlw]

/-- A packet of the video stream, as the writer makes it. -/
def IsVideoPacket (packet : Bytes) : Prop :=
  ∃ adaptation payload start continuity,
    packet = writeTsPacketWith videoPid adaptation payload start continuity ∧
      adaptation.length + payload.length = 184 ∧ payload ≠ [] ∧ WellSized adaptation

theorem IsVideoPacket.isPacket (h : IsVideoPacket packet) : IsPacket packet := by
  obtain ⟨adaptation, payload, start, continuity, rfl, hlen, hne, -⟩ := h
  rw [writeTsPacketWith_eq hlen hne]
  refine ⟨?_, rfl⟩
  rw [length_append, length_append, hlen]
  rfl

/-- A packet with an adaptation field, or none, in front of its payload. -/
theorem demuxTsPacket_eq (s : TsState) {b₁ b₂ b₃ : UInt8}
    (hfd : (b₃ >>> 4) &&& 0x03 = if adaptation = [] then 0x01 else 0x03)
    (hsz : WellSized adaptation) (hlen : adaptation.length + payload.length = 184) :
    demuxTsPacket s (0x47 :: b₁ :: b₂ :: b₃ :: (adaptation ++ payload)) =
      if payload.length < 4 then (s, [])
      else demuxPayload s (pidOf b₁ b₂) (b₁ &&& 0x40 ≠ 0) payload := by
  have hfl : (0x47 :: b₁ :: b₂ :: b₃ :: (adaptation ++ payload)).length = 188 := by
    simp only [length_cons, length_append]
    omega
  have ho : (if (b₃ >>> 4) &&& 0x03 = 0x02 ∨ (b₃ >>> 4) &&& 0x03 = 0x03 then
      4 + (((adaptation ++ payload).getD 0 0).toNat + 1) else 4) = adaptation.length + 4 := by
    cases had : adaptation with
    | nil =>
      rw [had] at hfd
      rw [hfd]
      rfl
    | cons x rest =>
      rw [had] at hfd
      rw [hfd]
      show 4 + (x.toNat + 1) = rest.length + 1 + 4
      rw [hsz x rest had]
      omega
  have hd : (0x47 :: b₁ :: b₂ :: b₃ :: (adaptation ++ payload)).drop (adaptation.length + 4) =
      payload := by
    simp only [drop_succ_cons]
    rw [drop_left]
  unfold demuxTsPacket
  simp only [take_of_length_le (le_of_eq hfl), getD_cons_succ, getD_cons_zero, ho, hd]
  by_cases hsh : payload.length < 4
  · rw [if_pos hsh, if_pos (by omega)]
  · rw [if_neg hsh, if_neg (by omega)]

theorem control_field : ∀ c : UInt8, ((0x10 ||| (c &&& 0x0F)) >>> 4) &&& 0x03 = 0x01 ∧
    ((0x30 ||| (c &&& 0x0F)) >>> 4) &&& 0x03 = 0x03 :=
  forall_octet (by decide +kernel)

variable {s : TsState}

theorem demux_written (hpm : s.context.pmtPid = some pmtPid)
    (start : Bool) (continuity : UInt8) (hlen : adaptation.length + payload.length = 184)
    (hne : payload ≠ []) (hsz : WellSized adaptation) :
    demuxTsPacket s (writeTsPacketWith videoPid adaptation payload start continuity) =
      if payload.length < 4 then (s, [])
      else if videoPid = s.context.videoPid.getD 0x0100 then videoPayload s payload start
      else if videoPid = s.context.audioPid.getD pidDefaultAudio then audioPayload s payload start
      else (s, []) := by
  have hf : (((if adaptation = [] then 0x10 else 0x30) ||| (continuity &&& 0x0F)) >>> 4) &&& 0x03 =
      if adaptation = [] then (0x01 : UInt8) else 0x03 := by
    split
    · exact (control_field continuity).1
    · exact (control_field continuity).2
  have hpd : pidOf (0x01 ||| (if start then 0x40 else 0)) 0x00 = videoPid := by
    cases start <;> decide
  have hst : decide ((0x01 ||| (if start then 0x40 else 0)) &&& 0x40 ≠ (0 : UInt8)) = start := by
    cases start <;> decide
  -- neither table is carried by the video stream
  have ht : readTables videoPid start payload s.context = s.context := by
    have hpt : ¬ (videoPid = pidPat ∧ start = true) := fun h => absurd h.1 (by decide)
    unfold readTables
    simp only [if_neg hpt, hpm]
    exact if_neg (by decide)
  rw [writeTsPacketWith_eq hlen hne]
  show demuxTsPacket s (0x47 :: _ :: _ :: _ :: (adaptation ++ payload)) = _
  rw [demuxTsPacket_eq s hf hsz hlen, hpd, hst]
  unfold demuxPayload
  rw [ht]
  simp only [hne, not_false_eq_true, ne_eq, and_true]

/-! ## One PES packet -/

/-- What is of interest in a published frame. -/
def summary (frame : MediaFrame) : FrameType × Bytes := (frame.frameType, frame.data)

/-- The frames that come of collected bytes: one, unless the bytes are too few. -/
def published (accum : Bytes) : List (FrameType × Bytes) :=
  if accum.length < 4 then [] else [(.video, accum)]

/-- The tables are known, and `accum` is collected for video. -/
structure Ready (s : TsState) (accum : Bytes) : Prop where
  pmt : s.context.pmtPid = some pmtPid
  video : s.context.videoPid.getD 0x0100 = videoPid
  accum : s.context.videoAccum = accum
  audio : s.context.audioAccum = []

theorem summary_publishVideo (data : Bytes) (codec : Option CodecId) (pts dts : Option UInt64)
    (fallback : UInt32) :
    (publishVideo data codec pts dts fallback).2.map summary = published data := by
  unfold publishVideo published
  split
  · rfl
  · rfl

/-- The bytes of a PES packet behind its fourteen bytes of header. -/
theorem extractPesPayload_head (id l₁ l₂ t₀ t₁ t₂ t₃ t₄ : UInt8) (data : Bytes) : ∃ pts,
    extractPesPayload (0 :: 0 :: 1 :: id :: l₁ :: l₂ :: 0x84 :: 0x80 :: 5 :: t₀ :: t₁ :: t₂ :: t₃ ::
      t₄ :: data)
      true = some ⟨data, some pts, none⟩ := by
  unfold extractPesPayload parsePesTimestamp
  simp only [length_cons, getD_cons_succ, getD_cons_zero]
  rw [if_neg (by decide), if_neg (by omega), if_neg (by simp), if_neg (by
    show ¬ data.length + 1 + 1 + 1 + 1 + 1 + 1 + 1 + 1 + 1 + 1 + 1 + 1 + 1 + 1 < 9 + 5
    omega), if_pos (by decide), if_neg (by omega)]
  exact ⟨_, rfl⟩

section Packets

variable {s : TsState} {accum : Bytes} (hs : Ready s accum)
include hs

theorem demux_first {adaptation payload data : Bytes} {pts : UInt64} (continuity : UInt8)
    (hlen : adaptation.length + payload.length = 184) (hsz : WellSized adaptation)
    (hf : 4 ≤ payload.length) (hp : extractPesPayload payload true = some ⟨data, some pts, none⟩) :
    let out := demuxTsPacket s (writeTsPacketWith videoPid adaptation payload true continuity)
    Ready out.1 data ∧ out.2.map summary = published accum := by
  have hne : payload ≠ [] := ne_nil_of_length_pos (by omega)
  rw [demux_written hs.pmt true continuity hlen hne hsz, if_neg (by omega), if_pos hs.video.symm]
  unfold videoPayload
  rw [hp]
  dsimp only
  rw [if_pos rfl]
  refine ⟨⟨hs.pmt, hs.video, rfl, hs.audio⟩, ?_⟩
  dsimp only
  rw [hs.accum]
  by_cases hnil : accum = []
  · rw [if_neg (not_not_intro hnil), hnil]
    rfl
  · rw [if_pos hnil]
    exact summary_publishVideo _ _ _ _ _

/-- A packet behind the first one: its payload is collected, unless it is too short. -/
theorem demux_continuation {adaptation chunk : Bytes} (continuity : UInt8)
    (hlen : adaptation.length + chunk.length = 184) (hsz : WellSized adaptation)
    (hne : chunk ≠ []) :
    let out := demuxTsPacket s (writeTsPacketWith videoPid adaptation chunk false continuity)
    Ready out.1 (if chunk.length < 4 then accum else accum ++ chunk) ∧ out.2 = [] := by
  rw [demux_written hs.pmt false continuity hlen hne hsz]
  by_cases hsh : chunk.length < 4
  · rw [if_pos hsh, if_pos hsh]
    exact ⟨hs, rfl⟩
  · rw [if_neg hsh, if_neg hsh, if_pos hs.video.symm]
    refine ⟨⟨hs.pmt, hs.video, ?_, hs.audio⟩, rfl⟩
    show s.context.videoAccum ++ chunk = accum ++ chunk
    rw [hs.accum]

end Packets

/-- **The packets behind the first one.** -/
theorem demux_continuations : ∀ {chunks : List Bytes} {s : TsState} {accum : Bytes}
    (_ : Ready s accum) (continuity : UInt8), (∀ c ∈ chunks, c ≠ [] ∧ c.length ≤ 184) →
      Ready (runLog demuxTsPacket s (continuationPackets videoPid continuity chunks)).1
          (accum ++ (chunks.filter fun c => 4 ≤ c.length).flatten) ∧
        (runLog demuxTsPacket s (continuationPackets videoPid continuity chunks)).2 = []
  | [], s, accum, hs, continuity, _ => by
    rw [filter_nil, flatten_nil, append_nil]
    exact ⟨hs, rfl⟩
  | chunk :: chunks, s, accum, hs, continuity, h => by
    obtain ⟨hne, hle⟩ := h chunk mem_cons_self
    have hlen : (padding (184 - chunk.length)).length + chunk.length = 184 := by
      rw [length_padding]
      omega
    obtain ⟨hrd, hno⟩ := demux_continuation hs continuity hlen
      (wellSized_padding (Nat.sub_le _ _)) hne
    obtain ⟨hrs, hno'⟩ :=
      demux_continuations hrd (nextContinuity continuity) fun c hc => h c (mem_cons_of_mem _ hc)
    rw [continuationPackets, runLog]
    rw [hno, hno']
    refine ⟨?_, rfl⟩
    by_cases hsh : chunk.length < 4
    · rw [if_pos hsh] at hrs
      rw [filter_cons_of_neg (by simpa using hsh)]
      exact hrs
    · rw [if_neg hsh, append_assoc] at hrs
      rw [filter_cons_of_pos (by simpa using hsh), flatten_cons]
      exact hrs

/-- What is given to the writer for one frame. -/
structure TsPes where
  payload : Bytes
  timestamp : UInt32
  randAccess : Bool
  deriving DecidableEq

namespace TsPes

/-- The PES packet. -/
def pes (p : TsPes) : Bytes := buildDataPesRaw 0xE0 p.payload p.timestamp

/-- The bytes of the PES packet that the first packet carries. -/
def firstLen (p : TsPes) : Nat :=
  if 184 ≤ p.payload.length + 14 ∧ p.randAccess then 182 else min (p.payload.length + 14) 184

/-- The bytes in the last packet, if there is more than one and the last one is not full. -/
def tailLen (p : TsPes) : Nat := (p.payload.length + 14 - p.firstLen) % 184

/-- The payload without a tail that is too short for the demuxer. -/
def kept (p : TsPes) : Bytes :=
  p.payload.take (p.payload.length - if p.tailLen < 4 then p.tailLen else 0)

variable (p : TsPes)

theorem pes_eq : ∃ id l₁ l₂ t₀ t₁ t₂ t₃ t₄,
    p.pes = [0, 0, 1, id, l₁, l₂, 0x84, 0x80, 5, t₀, t₁, t₂, t₃, t₄] ++ p.payload :=
  ⟨_, _, _, _, _, _, _, _, rfl⟩

theorem length_pes : p.pes.length = p.payload.length + 14 := by
  obtain ⟨_, _, _, _, _, _, _, _, h⟩ := p.pes_eq
  rw [h, length_append]
  exact add_comm _ _

theorem drop_pes {n : Nat} (hn : 14 ≤ n) : p.pes.drop n = p.payload.drop (n - 14) := by
  obtain ⟨_, _, _, _, _, _, _, _, h⟩ := p.pes_eq
  rw [h, drop_append, drop_eq_nil_of_le hn]
  rfl

theorem extract_pes {n : Nat} (hn : 14 ≤ n) : ∃ pts,
    extractPesPayload (p.pes.take n) true = some ⟨p.payload.take (n - 14), some pts, none⟩ := by
  obtain ⟨_, _, _, _, _, _, _, _, h⟩ := p.pes_eq
  rw [h, take_append, take_of_length_le hn]
  exact extractPesPayload_head _ _ _ _ _ _ _ _ _

theorem length_first (pcr : UInt64) :
    184 - (firstAdaptation (184 - p.pes.length) p.randAccess pcr).length = p.firstLen := by
  rw [length_firstAdaptation, length_pes, firstLen]
  by_cases hf : 184 ≤ p.payload.length + 14
  · by_cases hr : p.randAccess = true
    · rw [if_pos ⟨by omega, hr⟩, if_pos ⟨hf, hr⟩]
    · rw [if_neg (fun h => hr h.2), if_neg (fun h => hr h.2)]
      omega
  · rw [if_neg (by omega), if_neg (by omega)]
    omega

theorem firstLen_le : p.firstLen ≤ 184 ∧ p.firstLen ≤ p.payload.length + 14 := by
  unfold firstLen
  split <;> omega

theorem le_firstLen : min (p.payload.length + 14) 182 ≤ p.firstLen := by
  unfold firstLen
  split <;> omega

theorem length_take_firstLen : (p.pes.take p.firstLen).length = p.firstLen := by
  have := p.firstLen_le
  rw [length_take, p.length_pes]
  omega

theorem first_full (pcr : UInt64) :
    (firstAdaptation (184 - p.pes.length) p.randAccess pcr).length + (p.pes.take p.firstLen).length
      = 184 := by
  have hf := p.length_first pcr
  have := p.le_firstLen
  rw [p.length_take_firstLen]
  omega

theorem kept_eq (h : 14 ≤ p.firstLen) : p.payload.take (p.firstLen - 14) ++
      ((chunks 184 (p.pes.drop p.firstLen)).filter fun c => 4 ≤ c.length).flatten = p.kept := by
  obtain ⟨-, hle⟩ := p.firstLen_le
  have hlen : (p.payload.drop (p.firstLen - 14)).length = p.payload.length + 14 - p.firstLen := by
    rw [length_drop]
    omega
  rw [flatten_filter_chunks (by decide) (by decide), drop_pes p h, hlen]
  unfold kept tailLen
  split
  · rw [← take_add]
    congr 1
    omega
  · rw [take_append_drop, Nat.sub_zero, take_length]

theorem kept_eq_payload_iff (h : 4 ≤ p.payload.length) :
    p.kept = p.payload ↔ p.tailLen = 0 ∨ 4 ≤ p.tailLen := by
  constructor
  · intro hk
    have hlen := congrArg List.length hk
    unfold kept at hlen
    rw [length_take] at hlen
    split at hlen <;> omega
  · intro ht
    refine take_of_length_le ?_
    split <;> omega

theorem four_le_length_kept (h : 4 ≤ p.payload.length) : 4 ≤ p.kept.length := by
  have hle : p.tailLen ≤ p.payload.length + 14 - p.firstLen := Nat.mod_le _ _
  have hf : p.payload.length + 14 < 184 → p.firstLen = p.payload.length + 14 := by
    intro hlt
    unfold firstLen
    rw [if_neg (by omega)]
    omega
  unfold kept
  rw [length_take]
  split <;> omega

end TsPes

/-- **One PES packet**: what was collected is published, and what is kept of its payload is
collected. -/
theorem demux_pes {accum : Bytes} (hs : Ready s accum) (p : TsPes) (h : 4 ≤ p.payload.length)
    (continuity : UInt8) (pcr : UInt64) :
    let out := runLog demuxTsPacket s (writePesToTs videoPid p.pes p.randAccess continuity pcr)
    Ready out.1 p.kept ∧ out.2.map summary = published accum := by
  have hf := p.le_firstLen
  have hlen := p.length_take_firstLen
  obtain ⟨pts, hp⟩ := p.extract_pes (n := p.firstLen) (by omega)
  obtain ⟨hrd, ho⟩ := demux_first hs continuity (p.first_full pcr)
    (wellSized_firstAdaptation (Nat.sub_le _ _) p.randAccess pcr) (by omega) hp
  have hch : ∀ c ∈ chunks 184 (p.pes.drop p.firstLen), c ≠ [] ∧ c.length ≤ 184 :=
    fun c hc => mem_chunks (by decide) hc
  obtain ⟨hrs, hn⟩ := demux_continuations hrd (nextContinuity continuity) hch
  unfold writePesToTs
  dsimp only
  rw [p.length_first, runLog]
  dsimp only
  rw [hn, append_nil, ← p.kept_eq (by omega)]
  exact ⟨hrs, ho⟩

/-! ## The tables -/

/-- A packet with a table carries it behind the four bytes of the header, filled up. -/
theorem writeTsPacket_eq (pid : UInt16) (payload : Bytes) (continuity : UInt8) :
    writeTsPacket pid payload true continuity =
      (0x47 : UInt8) :: ((pid >>> 8).toUInt8 &&& 0x1F ||| 0x40) :: pid.toUInt8 ::
        ((0x10 : UInt8) ||| (continuity &&& 0x0F)) :: ([] ++ fillPacket [] payload) := by
  rfl

theorem length_fillPacket (payload : Bytes) : (fillPacket [] payload).length = 184 := by
  unfold fillPacket
  rw [nil_append, length_append, length_take, length_replicate]
  omega

theorem isPacket_table (pid : UInt16) (payload : Bytes) (continuity : UInt8) :
    IsPacket (writeTsPacket pid payload true continuity) := by
  exact ⟨congrArg (· + 4) (length_fillPacket payload), rfl⟩

theorem demux_table (s : TsState) (pid : UInt16) (payload : Bytes) (continuity : UInt8) :
    demuxTsPacket s (writeTsPacket pid payload true continuity) =
      demuxPayload s (pidOf ((pid >>> 8).toUInt8 &&& 0x1F ||| 0x40) pid.toUInt8)
        (((pid >>> 8).toUInt8 &&& 0x1F ||| 0x40) &&& 0x40 ≠ 0) (fillPacket [] payload) := by
  have hf : ((0x10 ||| (continuity &&& 0x0F)) >>> 4) &&& 0x03 = if ([] : Bytes) = [] then 0x01
      else 0x03 :=
    (control_field continuity).1
  rw [writeTsPacket_eq, demuxTsPacket_eq s hf nofun (by rw [length_fillPacket]; rfl),
    if_neg (by rw [length_fillPacket]; decide)]

/-- What the demuxer knows behind the tables. -/
def tablesRead (videoStreamType : UInt8) : TsState × List MediaFrame :=
  demuxPayload (demuxPayload ⟨.new, 0⟩ patPid true (fillPacket [] (sectionPayload patSection))).1
    pmtPid true (fillPacket [] (sectionPayload (pmtSection videoStreamType)))

theorem demux_tables (videoStreamType c₁ c₂ : UInt8) : runLog demuxTsPacket ⟨.new, 0⟩
      [writeTsPacket patPid (sectionPayload patSection) true c₁,
        writeTsPacket pmtPid (sectionPayload (pmtSection videoStreamType)) true c₂] =
      ((tablesRead videoStreamType).1, (tablesRead videoStreamType).2) := by
  have hpt : pidOf ((patPid >>> 8).toUInt8 &&& 0x1F ||| 0x40) patPid.toUInt8 = patPid := by decide
  have hpm : pidOf ((pmtPid >>> 8).toUInt8 &&& 0x1F ||| 0x40) pmtPid.toUInt8 = pmtPid := by decide
  have hs : decide (((patPid >>> 8).toUInt8 &&& 0x1F ||| 0x40) &&& 0x40 ≠ 0) = true ∧
      decide (((pmtPid >>> 8).toUInt8 &&& 0x1F ||| 0x40) &&& 0x40 ≠ 0) = true := by decide
  have hn : (demuxPayload ⟨.new, 0⟩ patPid true (fillPacket [] (sectionPayload patSection))).2 =
      [] := by
    decide +kernel
  simp only [runLog]
  rw [demux_table, demux_table, hpt, hpm, hs.1, hs.2, hn, nil_append, append_nil]
  rfl

/-- The stream types for which the checksum of the program map is read as an entry for video. -/
def Misread (videoStreamType : UInt8) : Prop := videoStreamType = 0x1F ∨ videoStreamType = 0xE8

instance decidableMisread (videoStreamType : UInt8) : Decidable (Misread videoStreamType) :=
  inferInstanceAs (Decidable (_ ∨ _))

/-- **Behind the tables.** Nothing is published or collected, and the video stream is found
unless the checksum is in the way. -/
theorem tablesRead_spec : ∀ t : UInt8, (tablesRead t).2 = [] ∧
    (tablesRead t).1.context.pmtPid = some pmtPid ∧ (tablesRead t).1.context.videoAccum = [] ∧
    (tablesRead t).1.context.audioAccum = [] ∧
    (tablesRead t).1.context.audioPid.getD pidDefaultAudio ≠ videoPid ∧
    ((tablesRead t).1.context.videoPid.getD 0x0100 = videoPid ↔ ¬ Misread t) := by
  refine forall_octet fun n => ?_
  -- a quarter of the octets at a time: each one takes a checksum
  obtain ⟨q, r, rfl⟩ : ∃ (q : Fin 4) (r : Fin 64), n = Fin.ofNat 256 (64 * q + r) :=
    ⟨⟨n / 64, by omega⟩, ⟨n % 64, by omega⟩, Fin.ext (by simp only [Fin.val_ofNat]; omega)⟩
  revert r
  match q with
  | 0 | 1 | 2 | 3 => decide +kernel

/-! ## The whole stream -/

namespace TsWriter

/-- The packets of some PES packets, one after the other. -/
def writeVideo : TsWriter → List TsPes → List Bytes
  | _, [] => []
  | w, p :: ps =>
    let out := w.writePes .video p.pes p.randAccess p.timestamp.toUInt64
    out.2 ++ writeVideo out.1 ps

/-- The tables, and the packets behind them. -/
def writeStream (w : TsWriter) (videoStreamType : UInt8) (ps : List TsPes) : Bytes :=
  let tables := w.writePatPmt videoStreamType
  tables.2 ++ (tables.1.writeVideo ps).flatten

end TsWriter

theorem isVideoPacket_continuation : ∀ {chunks : List Bytes} {continuity : UInt8} {packet : Bytes},
    (∀ c ∈ chunks, c ≠ [] ∧ c.length ≤ 184) →
      packet ∈ continuationPackets videoPid continuity chunks → IsVideoPacket packet
  | chunk :: chunks, continuity, packet, h, hmem => by
    rw [continuationPackets, mem_cons] at hmem
    obtain ⟨hne, hle⟩ := h chunk mem_cons_self
    rcases hmem with rfl | hmem
    · refine ⟨_, chunk, false, continuity, rfl, ?_, hne, wellSized_padding (Nat.sub_le _ _)⟩
      rw [length_padding]
      omega
    · exact isVideoPacket_continuation (fun c hc => h c (mem_cons_of_mem _ hc)) hmem

theorem isVideoPacket_pes {p : TsPes} {continuity : UInt8} {pcr : UInt64} {packet : Bytes}
    (h : packet ∈ writePesToTs videoPid p.pes p.randAccess continuity pcr) :
    IsVideoPacket packet := by
  have hlen := p.length_take_firstLen
  unfold writePesToTs at h
  dsimp only at h
  rw [p.length_first, mem_cons] at h
  rcases h with rfl | h
  · refine ⟨_, _, true, continuity, rfl, p.first_full pcr, ?_,
      wellSized_firstAdaptation (Nat.sub_le _ _) p.randAccess pcr⟩
    apply ne_nil_of_length_pos
    have := p.le_firstLen
    omega
  · exact isVideoPacket_continuation (fun c hc => mem_chunks (by decide) hc) h

theorem isVideoPacket_video : ∀ {ps : List TsPes} {w : TsWriter} {packet : Bytes},
    packet ∈ w.writeVideo ps → IsVideoPacket packet
  | p :: ps, w, packet, h => by
    rcases mem_append.mp h with h | h
    · exact isVideoPacket_pes h
    · exact isVideoPacket_video h

/-- **Video that is found.** Every PES packet is published, up to a tail that is too short. -/
theorem demux_video : ∀ {ps : List TsPes} {s : TsState} {accum : Bytes} (w : TsWriter)
    (_ : Ready s accum), (∀ p ∈ ps, 4 ≤ p.payload.length) → ∃ last,
      Ready (runLog demuxTsPacket s (w.writeVideo ps)).1 last ∧
        (runLog demuxTsPacket s (w.writeVideo ps)).2.map summary ++ published last =
          published accum ++ ps.map fun p => (.video, p.kept)
  | [], s, accum, w, hs, _ => by
    refine ⟨accum, hs, ?_⟩
    rw [map_nil, append_nil]
    rfl
  | p :: ps, s, accum, w, hs, h => by
    have hp := h p mem_cons_self
    obtain ⟨hrd, ho⟩ := demux_pes hs p hp w.continuityVideo (p.timestamp.toUInt64 * 27000)
    obtain ⟨last, hl, hrs⟩ := demux_video
      (w.writePes .video p.pes p.randAccess p.timestamp.toUInt64).1 hrd
      fun q hq => h q (mem_cons_of_mem _ hq)
    have hk : published p.kept = [(.video, p.kept)] :=
      if_neg (Nat.not_lt.mpr (p.four_le_length_kept hp))
    refine ⟨last, ?_, ?_⟩
    · rw [TsWriter.writeVideo, runLog_append]
      exact hl
    · rw [TsWriter.writeVideo, runLog_append, map_append, append_assoc]
      show map summary (runLog demuxTsPacket s (writePesToTs videoPid p.pes p.randAccess
        w.continuityVideo (p.timestamp.toUInt64 * 27000))).2 ++ _ = _
      rw [ho]
      rw [hk] at hrs
      exact congrArg (published accum ++ ·) hrs

theorem flush_ready {accum : Bytes} (hs : Ready s accum) :
    (flushTsContext s).2.map summary = published accum := by
  unfold flushTsContext
  dsimp only
  rw [hs.audio, if_neg (not_not_intro rfl), hs.accum, append_nil]
  by_cases hnil : accum = []
  · rw [if_neg (not_not_intro hnil), hnil]
    rfl
  · rw [if_pos hnil]
    exact summary_publishVideo _ _ _ _ _

/-- The demuxer looks for the video stream somewhere else. -/
structure Deaf (s : TsState) : Prop where
  pmt : s.context.pmtPid = some pmtPid
  video : s.context.videoPid.getD 0x0100 ≠ videoPid
  audio : s.context.audioPid.getD pidDefaultAudio ≠ videoPid
  videoAccum : s.context.videoAccum = []
  audioAccum : s.context.audioAccum = []

theorem demux_deaf (hs : Deaf s) : ∀ {packets : List Bytes},
    (∀ packet ∈ packets, IsVideoPacket packet) → runLog demuxTsPacket s packets = (s, [])
  | [], _ => rfl
  | packet :: packets, h => by
    obtain ⟨adaptation, payload, start, continuity, rfl, hlen, hne, hsz⟩ := h packet mem_cons_self
    have ho : demuxTsPacket s (writeTsPacketWith videoPid adaptation payload start continuity) =
        (s, []) := by
      rw [demux_written hs.pmt start continuity hlen hne hsz, if_neg hs.video.symm,
        if_neg hs.audio.symm, ite_self]
    rw [runLog, ho]
    dsimp only
    rw [demux_deaf hs fun p hp => h p (mem_cons_of_mem _ hp)]
    rfl

theorem flush_deaf (hs : Deaf s) : (flushTsContext s).2 = [] := by
  unfold flushTsContext
  dsimp only
  rw [hs.videoAccum, hs.audioAccum, if_neg (not_not_intro rfl), if_neg (not_not_intro rfl)]
  rfl

/-- What comes out of a stream: nothing if its tables are misread, and else every PES packet up
to its tail. -/
theorem summary_writeStream (w : TsWriter) (videoStreamType : UInt8) {ps : List TsPes}
    {pieces : List Bytes} (hps : ∀ p ∈ ps, 4 ≤ p.payload.length)
    (hc : pieces.flatten = w.writeStream videoStreamType ps) :
    (TsStreamDemuxer.new.feedAllAndFlush pieces).map summary =
      if Misread videoStreamType then [] else ps.map fun p => (.video, p.kept) := by
  obtain ⟨hn, hpm, hv, had, hpd, hms⟩ := tablesRead_spec videoStreamType
  let tables := [writeTsPacket patPid (sectionPayload patSection) true w.continuityPat,
    writeTsPacket pmtPid (sectionPayload (pmtSection videoStreamType)) true w.continuityPmt]
  let video := (w.writePatPmt videoStreamType).1.writeVideo ps
  have hpc : ∀ packet ∈ tables ++ video, IsPacket packet := by
    intro packet hmem
    rcases mem_append.mp hmem with h | h
    · rcases mem_cons.mp h with rfl | h
      · exact isPacket_table _ _ _
      · rw [mem_singleton.mp h]
        exact isPacket_table _ _ _
    · exact (isVideoPacket_video h).isPacket
  have hf : pieces.flatten = (tables ++ video).flatten := by
    rw [hc, flatten_append]
    show _ ++ _ = (_ ++ (_ ++ [])) ++ _
    rw [append_nil]
    rfl
  have ht : runLog demuxTsPacket ⟨.new, 0⟩ tables =
      ((tablesRead videoStreamType).1, (tablesRead videoStreamType).2) := demux_tables _ _ _
  rw [published_eq hpc hf, runLog_append, ht, hn, nil_append, map_append]
  by_cases hb : Misread videoStreamType
  · have hd : Deaf (tablesRead videoStreamType).1 := ⟨hpm, fun h => hms.mp h hb, hpd, hv, had⟩
    rw [demux_deaf hd fun packet h => isVideoPacket_video h, flush_deaf hd, if_pos hb]
    rfl
  · have hr : Ready (tablesRead videoStreamType).1 [] := ⟨hpm, hms.mpr hb, hv, had⟩
    obtain ⟨last, hl, ho⟩ := demux_video (w.writePatPmt videoStreamType).1 hr hps
    rw [flush_ready hl, ho, if_neg hb]
    rfl

/-- **The round trip.** A fresh demuxer publishes exactly the payloads if and only if the
checksum of the program map is not taken for a video entry, and no PES packet ends in a packet with
less than four bytes of it. -/
theorem ts_roundtrip_iff (w : TsWriter) (videoStreamType : UInt8) (ps : List TsPes)
    (pieces : List Bytes) (hne : ps ≠ []) (hps : ∀ p ∈ ps, 4 ≤ p.payload.length)
    (hcut : pieces.flatten = w.writeStream videoStreamType ps) :
    (TsStreamDemuxer.new.feedAllAndFlush pieces).map summary =
      ps.map (fun p => (.video, p.payload)) ↔
      ¬ Misread videoStreamType ∧ ∀ p ∈ ps, p.tailLen = 0 ∨ 4 ≤ p.tailLen := by
  rw [summary_writeStream w videoStreamType hps hcut]
  by_cases hb : Misread videoStreamType
  · rw [if_pos hb]
    constructor
    · intro h
      exact absurd (map_eq_nil_iff.mp h.symm) hne
    · exact fun h => absurd hb h.1
  · rw [if_neg hb, map_inj_left]
    constructor
    · intro h
      refine ⟨hb, fun p hp => ?_⟩
      exact (p.kept_eq_payload_iff (hps p hp)).mp (Prod.mk.inj (h p hp)).2
    · intro h p hp
      rw [(p.kept_eq_payload_iff (hps p hp)).mpr (h.2 p hp)]

/-- A payload whose PES packet fills one packet and 171 bytes of a second one. -/
theorem ts_roundtrip_of_two_packets : (TsStreamDemuxer.new.feedAllAndFlush
        [TsWriter.new.writeStream 0x1B [⟨replicate 341 7, 40, false⟩]]).map summary =
      [(.video, replicate 341 7)] :=
  (ts_roundtrip_iff .new 0x1B [⟨replicate 341 7, 40, false⟩] _ (cons_ne_nil _ _)
    (by intro p hp; obtain rfl := mem_singleton.mp hp; decide +kernel) (append_nil _)).mpr
    ⟨by decide, by intro p hp; obtain rfl := mem_singleton.mp hp; exact .inr (by decide +kernel)⟩

/-- **Lost video.** Of 171 bytes the last one stands alone in its packet and is dropped; and a
stream of type `0x1F` is not found at all. -/
theorem ts_roundtrip_fails : (TsStreamDemuxer.new.feedAllAndFlush
        [TsWriter.new.writeStream 0x1B [⟨replicate 171 7, 40, false⟩]]).map summary =
      [(.video, replicate 170 7)] ∧
    TsStreamDemuxer.new.feedAllAndFlush
      [TsWriter.new.writeStream 0x1F [⟨replicate 170 7, 40, false⟩]] = [] := by
  decide +kernel

end MediaKit.Ts
