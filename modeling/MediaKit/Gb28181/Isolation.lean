import MediaKit.Gb28181.RtpServer
import MediaKit.Lib.Serial
import MediaKit.Lib.Trace

/-!
# Foreign packets at a pinned receiver

A receiver that expects one SSRC drops the packets of any other, but only behind the
reorder buffer, which all packets share. There a foreign packet is released or kept like
any other: it can set the sequence number that is expected next, take the place of a
genuine packet, or close a gap.

It has no effect exactly where the buffer itself discards it (`Inert`,
`push_eq_self_iff`): late, or with a number that is already pending. In a run where every
foreign packet is of that kind when it arrives, the frames published are those of the run
without the foreign packets (`frames_filter_genuine`).
-/

namespace MediaKit.Gb28181

open Lib MediaKit.Core List

/-- The packet carries another SSRC. -/
def foreign (x : UInt32) (packet : Bytes) : Bool := decide (12 ≤ packet.length) && ssrc packet != x

/-- The buffer discards a packet with this sequence number: it is behind the one
expected, or already pending. -/
def Inert (b : RtpReorderBuffer) (packet : Bytes) : Prop :=
  ∃ expected, b.expected = some expected ∧
    (0x8000 ≤ RtpReorderBuffer.sequence packet - expected ∨
      b.contains (RtpReorderBuffer.sequence packet) = true ∧
        RtpReorderBuffer.sequence packet ≠ expected)

instance (b : RtpReorderBuffer) (packet : Bytes) : Decidable (Inert b packet) :=
  match h : b.expected with
  | none => .isFalse fun ⟨e, he, _⟩ => by rw [h] at he; cases he
  | some e =>
    if hc : 0x8000 ≤ RtpReorderBuffer.sequence packet - e ∨
        b.contains (RtpReorderBuffer.sequence packet) = true ∧
          RtpReorderBuffer.sequence packet ≠ e then
      .isTrue ⟨e, h, hc⟩
    else .isFalse fun ⟨e', he', hc'⟩ => hc (by rw [h] at he'; cases he'; exact hc')

/-! ## The buffer -/

namespace RtpReorderBuffer

variable {packet : Bytes} {b : RtpReorderBuffer}

theorem push_of_inert (h : Inert b packet)
    (timedOut : Bool) : b.push timedOut packet = (b, []) := by
  obtain ⟨expected, he, hc⟩ := h
  have hne : sequence packet - expected ≠ 0 := by
    rcases hc with hc | ⟨-, hc⟩
    · intro hz
      rw [hz] at hc
      exact absurd hc (by decide)
    · exact fun hz => hc (Serial.sub_eq_zero_iff.mp hz)
  have hd : 0x8000 ≤ sequence packet - expected ∨ b.contains (sequence packet) = true :=
    hc.imp_right And.left
  unfold push
  split
  · rfl
  · rw [he]
    dsimp only
    rw [if_neg hne, if_pos hd]

/-- A gap is skipped only to a packet that is then released. -/
theorem skipGap_released {expected seq : UInt16} (hmem : (seq, packet) ∈ b.pending)
    (hs : seq - expected < 0x8000) : (b.skipGap expected).2 ≠ [] := by
  unfold skipGap
  cases hn : nearest expected b.pending with
  | none =>
    -- the packet itself is a candidate
    unfold nearest at hn
    rw [argmin_eq_none] at hn
    have hc : seq ∈ (b.pending.map Prod.fst).filter fun s => s - expected < 0x8000 :=
      mem_filter.mpr ⟨mem_map.mpr ⟨_, hmem, rfl⟩, by simpa using hs⟩
    rw [hn] at hc
    cases hc
  | some n =>
    have hn' := mem_filter.mp (argmin_mem hn)
    obtain ⟨p, hp, hpn⟩ := mem_map.mp hn'.1
    have hlen : b.pending.length = b.pending.length - 1 + 1 := by
      have := length_pos_of_mem hp
      omega
    dsimp only
    rw [hlen, drainReady]
    cases hf : b.pending.find? fun q => q.1 == n with
    | none =>
      have := find?_eq_none.mp hf p hp
      exact absurd (beq_iff_eq.mpr hpn) this
    | some q =>
      exact cons_ne_nil _ _

/-- **The buffer is left alone exactly by the packets that it discards.** -/
theorem push_eq_self_iff (hlen : 4 ≤ packet.length)
    (timedOut : Bool) : b.push timedOut packet = (b, []) ↔ Inert b packet := by
  constructor
  · intro h
    unfold push at h
    rw [if_neg (by omega)] at h
    cases he : b.expected with
    | none =>
      rw [he] at h
      cases (Prod.mk.inj h).2
    | some expected =>
      rw [he] at h
      dsimp only at h
      by_cases hz : sequence packet - expected = 0
      · rw [if_pos hz] at h
        cases (Prod.mk.inj h).2
      rw [if_neg hz] at h
      by_cases hd : 0x8000 ≤ sequence packet - expected ∨ b.contains (sequence packet) = true
      · refine ⟨expected, he, hd.imp_right fun hc =>
          ⟨hc, fun hs => hz (Serial.sub_eq_zero_iff.mpr hs)⟩⟩
      rw [if_neg hd] at h
      split at h
      · -- the packet is kept, and something is released
        refine absurd (Prod.mk.inj h).2 (skipGap_released mem_cons_self ?_)
        exact UInt16.not_le.mp fun hle => hd (.inl hle)
      · -- the packet is kept
        have hp := congrArg (fun b => b.pending.length) (Prod.mk.inj h).1
        simp at hp
  · exact fun h => push_of_inert h timedOut

end RtpReorderBuffer

/-! ## Runs -/

section Runs

variable {P T : Type} (demux : Demuxers P T)

/-- The frames published for some packets, from the start. -/
def frames (r : RtpStreamReceiver) (packets : List Bytes) : List MediaFrame :=
  (runLog (ingestPacket demux r) (.default demux) packets).2

/-- Every foreign packet of the run is one that the buffer discards when it arrives. -/
def ForeignInert (payload : RtpPayloadType) (x : UInt32) (packets : List Bytes) : Prop :=
  Guarded (ingestPacket demux ⟨payload, some x⟩) (fun s packet => (s.reorder, packet))
    (fun _ _ => ()) (fun _ o => foreign x o.2 = true → Inert o.1 o.2) () (.default demux) packets

instance (payload : RtpPayloadType) (x : UInt32) (packets : List Bytes) :
    Decidable (ForeignInert demux payload x packets) :=
  decidableGuarded _ _ _ _ _ _ _

theorem ingestPacket_of_inert (r : RtpStreamReceiver) {s : RtpIngestState P T} {packet : Bytes}
    (h : Inert s.reorder packet) : ingestPacket demux r s packet = (s, []) := by
  unfold ingestPacket
  rw [RtpReorderBuffer.push_of_inert h]
  rfl

/-- **Foreign packets do not influence a pinned receiver as long as the reorder buffer
discards them**; any other foreign packet changes the buffer or releases packets. -/
theorem frames_filter_genuine (payload : RtpPayloadType) (x : UInt32) :
    (∀ packets, ForeignInert demux payload x packets →
      frames demux ⟨payload, some x⟩ (packets.filter fun p => !foreign x p) =
        frames demux ⟨payload, some x⟩ packets) ∧
    (∀ (b : RtpReorderBuffer) (packet : Bytes), foreign x packet = true →
      (b.push false packet = (b, []) ↔ Inert b packet)) := by
  constructor
  · intro packets h
    refine congrArg Prod.snd (runLog_filter (fun _ s packet hk hok => ?_) packets () _ h)
    refine ingestPacket_of_inert demux _ (hok ?_)
    simpa using hk
  · intro b packet hf
    have hlen : 12 ≤ packet.length := by
      unfold foreign at hf
      rw [Bool.and_eq_true, decide_eq_true_iff] at hf
      exact hf.1
    exact RtpReorderBuffer.push_eq_self_iff (by omega) false

end Runs

/-! ## Samples -/

namespace Sample

/-- Demultiplexers that the samples do not use. -/
def demux : Demuxers Unit Unit :=
  ⟨(), fun _ _ => ((), []), fun _ => [], (), fun _ t _ => ((), t, [])⟩

/-- A packet of G.711 A-law with one octet. -/
def packet (seq ssrc octet : UInt8) : Bytes :=
  [0x80, 0x08, 0x00, seq, 0, 0, 0, 0, 0, 0, 0, ssrc, octet]

/-- A foreign packet with the number that is expected next. -/
def shadowed : List Bytes := [packet 10 1 0xAA, packet 11 2 0xBB, packet 11 1 0xCC]

/-- A foreign packet with a number that has passed. -/
def late : List Bytes := [packet 10 1 0xAA, packet 5 2 0xBB, packet 11 1 0xCC]

end Sample

/-- The foreign packet takes the place of a genuine one, whose frame is lost. -/
theorem frames_filter_shadowed : (frames Sample.demux ⟨.g711a, some 1⟩ Sample.shadowed).map
    MediaFrame.data = [[0xAA]] ∧
    (frames Sample.demux ⟨.g711a, some 1⟩ (Sample.shadowed.filter fun p => !foreign 1 p)).map
      MediaFrame.data = [[0xAA], [0xCC]] := by
  decide +kernel

/-- A late foreign packet is discarded. -/
theorem frames_filter_late : ForeignInert Sample.demux .g711a 1 Sample.late ∧
    frames Sample.demux ⟨.g711a, some 1⟩ (Sample.late.filter fun p => !foreign 1 p) =
      frames Sample.demux ⟨.g711a, some 1⟩ Sample.late :=
  have h : ForeignInert Sample.demux .g711a 1 Sample.late := by decide +kernel
  ⟨h, (frames_filter_genuine Sample.demux .g711a 1).1 Sample.late h⟩

end MediaKit.Gb28181
