import Mathlib.Data.List.DropRight
import Mathlib.Data.List.GetD
import MediaKit.Lib.Trace
import MediaKit.Ts.Demuxer

/-!
# Transport streams in pieces

`TsStreamDemuxer::feed` looks for a sync byte in what has arrived, and throws all of it away if
there is none. What is pending thus depends on how the stream was cut, but only in front of its
first sync byte. `byteNext` is a reader that drops noise byte by byte, and whose rounds are decided
by the bytes they saw; the demuxer publishes what it does (`feedAllAndFlush_eq`).

Main results: `feed_boundaries`, for any bytes, and `published_eq`, for packets.
-/

namespace MediaKit.Ts

open Lib MediaKit.Core List Option

variable {packet b rest : Bytes} {s : TsState} {x : UInt8}

/-! ## Noise -/

/-- The bytes from the first sync byte on. -/
def synced (b : Bytes) : Bytes := b.dropWhile (· != tsSync)

theorem synced_append (b t : Bytes) : synced (synced b ++ t) = synced (b ++ t) := by
  unfold synced
  rw [dropWhile_append, dropWhile_append, dropWhile_idempotent]

/-- A round that drops one byte, or takes one packet. -/
def byteNext (s : TsState) : Bytes → Attempt TsState UInt8 MediaFrame
  | [] => .wait
  | x :: rest =>
    if x ≠ tsSync then .take s [] rest
    else if (x :: rest).length < 188 then .wait
    else
      let out := demuxTsPackets 2 s ((x :: rest).take 188)
      .take out.1 out.2 ((x :: rest).drop 188)

theorem byteNext_noise (s : TsState) (hx : x ≠ tsSync) : byteNext s (x :: rest) = .take s [] rest :=
  if_pos hx

theorem byteNext_short (s : TsState) (hx : x = tsSync) (hlen : (x :: rest).length < 188) :
    byteNext s (x :: rest) = .wait := by
  rw [byteNext, if_neg (not_not_intro hx), if_pos hlen]

theorem byteNext_packet (s : TsState) (hx : x = tsSync) (hlen : ¬ (x :: rest).length < 188) :
    byteNext s (x :: rest) = .take (demuxTsPackets 2 s ((x :: rest).take 188)).1
      (demuxTsPackets 2 s ((x :: rest).take 188)).2 ((x :: rest).drop 188) := by
  rw [byteNext, if_neg (not_not_intro hx), if_neg hlen]

theorem shrinks_byteNext : Shrinks byteNext := by
  intro s b s' o r h
  cases b with
  | nil => cases h
  | cons x rest =>
    by_cases hx : x = tsSync
    · by_cases hlen : (x :: rest).length < 188
      · rw [byteNext_short s hx hlen] at h
        cases h
      · rw [byteNext_packet s hx hlen] at h
        cases h
        rw [length_drop]
        omega
    · rw [byteNext_noise s hx] at h
      cases h
      exact Nat.lt_succ_self _

theorem extends_byteNext : Extends byteNext := by
  intro s b t
  cases b with
  | nil =>
    rw [show byteNext s [] = .wait from rfl]
    exact ⟨fun _ _ _ h => absurd h (by simp), fun h => absurd h (by simp)⟩
  | cons x rest =>
    by_cases hx : x = tsSync
    · by_cases hlen : (x :: rest).length < 188
      · rw [byteNext_short s hx hlen]
        exact ⟨fun _ _ _ h => absurd h (by simp), fun h => absurd h (by simp)⟩
      · have hln : ¬ (x :: (rest ++ t)).length < 188 := by
          rw [length_cons, length_append]
          rw [length_cons] at hlen
          omega
        rw [byteNext_packet s hx hlen, cons_append, byteNext_packet s hx hln, ← cons_append,
          take_append_of_le_length (Nat.le_of_not_lt hlen),
          drop_append_of_le_length (Nat.le_of_not_lt hlen)]
        refine ⟨fun s' o r h => ?_, nofun⟩
        cases h
        rfl
    · rw [byteNext_noise s hx, cons_append, byteNext_noise s hx]
      refine ⟨fun s' o r h => ?_, nofun⟩
      cases h
      rfl

/-- Noise in front changes nothing. -/
theorem feed_synced (s : TsState) (b : Bytes) : feed byteNext s (synced b) = feed byteNext s b := by
  induction b with
  | nil => rfl
  | cons x rest ih =>
    by_cases hx : x = tsSync
    · rw [synced, dropWhile_cons_of_neg (by simp [hx])]
    · rw [synced, dropWhile_cons_of_pos (by simpa using hx),
        feed_of_take shrinks_byteNext (byteNext_noise s hx), Fed.prepend_nil, ← ih]
      rfl

/-- Less than a packet is pending. -/
theorem feed_short (s : TsState) (h : b.length < 188) :
    feed byteNext s b = some (s, [], synced b) := by
  rw [← feed_synced]
  refine feed_of_wait ?_
  have hle : (synced b).length ≤ b.length := (dropWhile_sublist _).length_le
  cases hb : synced b with
  | nil => rfl
  | cons x rest =>
    have hx : x = tsSync := by
      have hh := head?_dropWhile_not (· != tsSync) b
      rw [show b.dropWhile (· != tsSync) = x :: rest from hb] at hh
      simpa using hh
    exact byteNext_short s hx (by rw [← hb]; omega)

/-- The rounds of the demuxer. -/
theorem tsNext_cases (s : TsState) (b : Bytes) : (b.length < 188 ∧ tsNext s b = .wait) ∨
    ((synced b).length < b.length ∧ tsNext s b = .take s [] (synced b)) ∨
    ∃ s' o r, byteNext s b = .take s' o r ∧ tsNext s b = .take s' o r := by
  unfold tsNext
  by_cases hlen : b.length < 188
  · exact .inl ⟨hlen, if_pos hlen⟩
  rw [if_neg hlen]
  cases b with
  | nil => exact absurd (by decide) hlen
  | cons x rest =>
    rw [getD_cons_zero]
    by_cases hx : x = tsSync
    · rw [if_neg (not_not_intro hx)]
      exact .inr (.inr ⟨_, _, _, byteNext_packet s hx hlen, rfl⟩)
    · rw [if_pos hx]
      refine .inr (.inl ⟨?_, ?_⟩)
      · rw [synced, dropWhile_cons_of_pos (by simpa using hx)]
        exact Nat.lt_succ_of_le (dropWhile_sublist _).length_le
      · cases hf : (x :: rest).findIdx? (· == tsSync) with
        | some offset =>
          have hs : synced (x :: rest) = (x :: rest).drop offset := by
            rw [synced, dropWhile_eq_drop_findIdx_not, ← (findIdx?_eq_some_iff_findIdx_eq.mp hf).2]
            simp only [bne, Bool.not_not]
          rw [hs]
        | none =>
          have hs : synced (x :: rest) = [] := by
            refine dropWhile_eq_nil_iff.mpr fun y hy => ?_
            rw [bne, findIdx?_eq_none_iff.mp hf y hy]
            rfl
          rw [hs]

theorem shrinks_tsNext : Shrinks tsNext := by
  intro s b s' o r h
  obtain ⟨-, heq⟩ | ⟨hlt, heq⟩ | ⟨s₁, o₁, r₁, hb, heq⟩ :=
    tsNext_cases s b <;> rw [heq] at h <;> cases h
  · exact hlt
  · exact shrinks_byteNext _ _ _ _ _ hb

theorem length_of_tsNext_wait (h : tsNext s b = .wait) : b.length < 188 := by
  obtain ⟨hlen, -⟩ | ⟨-, heq⟩ | ⟨s₁, o₁, r₁, -, heq⟩ := tsNext_cases s b
  · exact hlen
  all_goals
    rw [heq] at h
    cases h

/-- **One call** of the demuxer does what the reader does, and may keep noise. -/
theorem feed_tsNext (s : TsState) (b : Bytes) : ∃ q, feed tsNext s b = some q ∧
    feed byteNext s b = some (q.1, q.2.1, synced q.2.2) := by
  refine feed_induction shrinks_tsNext (P := fun s b => ∃ q, feed tsNext s b = some q ∧
    feed byteNext s b = some (q.1, q.2.1, synced q.2.2)) ?_ ?_ ?_ s b
  · intro s b h
    exact ⟨_, feed_of_wait h, feed_short s (length_of_tsNext_wait h)⟩
  · intro s b h
    obtain ⟨-, heq⟩ | ⟨-, heq⟩ | ⟨s₁, o₁, r₁, -, heq⟩ :=
      tsNext_cases s b <;> rw [heq] at h <;> cases h
  · rintro s b s' o r h ⟨q, hq, hbt⟩
    rw [feed_of_take shrinks_tsNext h, hq]
    refine ⟨_, rfl, ?_⟩
    obtain ⟨-, heq⟩ | ⟨-, heq⟩ | ⟨s₁, o₁, r₁, hby, heq⟩ :=
      tsNext_cases s b <;> rw [heq] at h <;> cases h
    · rw [← feed_synced, hbt]
      rfl
    · rw [feed_of_take shrinks_byteNext hby, hbt]
      rfl

/-- **A whole run.** -/
theorem feedAllAndFlush_eq : ∀ (pieces : List Bytes) {d : TsStreamDemuxer}, d.pending.length < 188 →
    ∃ q, feed byteNext d.state (d.pending ++ pieces.flatten) = some q ∧
      d.feedAllAndFlush pieces = q.2.1 ++ (flushTsContext q.1).2
  | [], d, hd => by
    rw [flatten_nil, append_nil, feed_short _ hd]
    exact ⟨_, rfl, rfl⟩
  | piece :: pieces, d, hd => by
    obtain ⟨⟨s, o, r⟩, hq, hb⟩ := feed_tsNext d.state (d.pending ++ piece)
    have hf : d.feed piece = (⟨r, s⟩, o) := by
      unfold TsStreamDemuxer.feed
      rw [hq]
    obtain ⟨q, hr, ho⟩ := feedAllAndFlush_eq pieces (d := ⟨r, s⟩)
      (length_of_tsNext_wait (feed_waits shrinks_tsNext _ _ hq))
    rw [← feed_synced, ← synced_append, feed_synced] at hr
    rw [flatten_cons, ← append_assoc, feed_append shrinks_byteNext extends_byteNext, hb,
      bind_some, hr]
    refine ⟨_, rfl, ?_⟩
    rw [TsStreamDemuxer.feedAllAndFlush, hf, ho, append_assoc]

/-- **Read boundaries do not matter**: the demuxer publishes what it publishes for the whole stream
at once. -/
theorem feed_boundaries (pieces : List Bytes) :
    TsStreamDemuxer.new.feedAllAndFlush pieces =
      TsStreamDemuxer.new.feedAllAndFlush [pieces.flatten] := by
  have hn : TsStreamDemuxer.new.pending.length < 188 := by decide
  obtain ⟨q, hq, ho⟩ := feedAllAndFlush_eq pieces hn
  obtain ⟨q', hq', ho'⟩ := feedAllAndFlush_eq [pieces.flatten] hn
  rw [flatten_singleton, hq] at hq'
  cases hq'
  rw [ho, ho']

/-! ## Packets -/

/-- A packet of the right length with its sync byte. -/
structure IsPacket (packet : Bytes) : Prop where
  length : packet.length = 188
  sync : packet.getD 0 0 = tsSync

theorem demuxTsPackets_one (h : IsPacket packet) (s : TsState) :
    demuxTsPackets 2 s packet = demuxTsPacket s packet := by
  have hnil : packet.drop 188 = [] := drop_eq_nil_of_le (le_of_eq h.length)
  rw [demuxTsPackets, if_neg, hnil]
  · show (_, _ ++ []) = _
    rw [append_nil]
    rfl
  · rw [h.length, h.sync]
    exact fun hor => hor.elim (lt_irrefl 188) fun hne => hne rfl

theorem feed_packets : ∀ {packets : List Bytes} (s : TsState),
    (∀ packet ∈ packets, IsPacket packet) →
    feed byteNext s packets.flatten = some
      ((runLog demuxTsPacket s packets).1, (runLog demuxTsPacket s packets).2, [])
  | [], s, _ => rfl
  | packet :: packets, s, h => by
    have hpc := h packet mem_cons_self
    have ht : byteNext s (packet ++ packets.flatten) =
        .take (demuxTsPacket s packet).1 (demuxTsPacket s packet).2 packets.flatten := by
      obtain ⟨x, tail, rfl⟩ : ∃ x tail, packet = x :: tail :=
        exists_cons_of_length_pos (by rw [hpc.length]; decide)
      have hl : ¬ (x :: (tail ++ packets.flatten)).length < 188 := by
        rw [← cons_append, length_append, hpc.length]
        omega
      rw [cons_append, byteNext_packet s (show x = tsSync from hpc.sync) hl, ← cons_append,
        ← hpc.length, take_left, drop_left, demuxTsPackets_one hpc]
    rw [flatten_cons, feed_of_take shrinks_byteNext ht, feed_packets _ fun p hp =>
      h p (mem_cons_of_mem packet hp)]
    rfl

/-- What a fresh demuxer publishes for some packets, in any pieces. -/
theorem published_eq {packets pieces : List Bytes} (h : ∀ packet ∈ packets, IsPacket packet)
    (hc : pieces.flatten = packets.flatten) :
    TsStreamDemuxer.new.feedAllAndFlush pieces = (runLog demuxTsPacket ⟨.new, 0⟩ packets).2 ++
        (flushTsContext (runLog demuxTsPacket ⟨.new, 0⟩ packets).1).2 := by
  obtain ⟨q, hq, ho⟩ := feedAllAndFlush_eq pieces (d := .new) (by decide)
  rw [hc] at hq
  have heq := hq.symm.trans (feed_packets _ h)
  cases heq
  exact ho

end MediaKit.Ts
