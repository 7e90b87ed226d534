import Mathlib.Data.List.Chain
import Mathlib.Data.List.Perm.Subperm
import MediaKit.Gb28181.RtpServer
import MediaKit.Lib.Serial
import MediaKit.Lib.Trace

/-!
# What the reorder buffer releases

`RtpReorderBuffer::push` with its counters, over whole runs. The buffer keeps the packets
that lie ahead of the number it expects. A push that releases anything releases from one
list, the pending packets and the new one: it jumps over a gap (empty if the packet is the
expected one) and takes the packets behind it as long as their numbers follow on each
other (`pushStats_cases`). So every released packet moves `expected` by one, every number
in a gap moves it by one and is counted as lost, and nothing else moves it.

Mirroring notes vs the Rust source:
  * The counters of `RtpStats` that `push` and `skip_gap` write are natural numbers.
  * A release carries `lost_packets` as it stands then; `skip_gap` counts before it drains.
-/

namespace MediaKit.Gb28181

open Lib List

/-- `RtpStats`: the counters of the reorder buffer. -/
structure RtpStats where
  lostPackets : Nat
  duplicatePackets : Nat
  reorderedPackets : Nat
  deriving DecidableEq

namespace RtpReorderBuffer

variable {e : UInt16} {out : List Bytes}
  {l pending : List (UInt16 × Bytes)} {n : UInt16}

/-- `skip_gap`, with its counter. -/
def skipGapStats (b : RtpReorderBuffer) (stats : RtpStats) (expected : UInt16) :
    RtpReorderBuffer × RtpStats × List Bytes :=
  match nearest expected b.pending with
  | none => (b, stats, [])
  | some seq =>
    let lost := (seq - expected).toNat
    let ready := drainReady b.window b.pending.length seq b.pending
    (ready.1, { stats with lostPackets := stats.lostPackets + lost }, ready.2)

/-- `push`, with its counters. -/
def pushStats (b : RtpReorderBuffer) (stats : RtpStats) (timedOut : Bool) (packet : Bytes) :
    RtpReorderBuffer × RtpStats × List Bytes :=
  if packet.length < 4 then (b, stats, [])
  else
    let seq := sequence packet
    match b.expected with
    | none => ({ b with expected := some (seq + 1) }, stats, [packet])
    | some expected =>
      let distance := seq - expected
      if distance = 0 then
        let rest := drainReady b.window b.pending.length (expected + 1) b.pending
        (rest.1, stats, packet :: rest.2)
      else if 0x8000 ≤ distance ∨ b.contains seq then
        (b, { stats with duplicatePackets := stats.duplicatePackets + 1 }, [])
      else
        let stats := { stats with reorderedPackets := stats.reorderedPackets + 1 }
        let b := { b with pending := (seq, packet) :: b.pending }
        if b.window ≤ distance ∨ timedOut ∨ b.window.toNat ≤ b.pending.length then
          b.skipGapStats stats expected
        else (b, stats, [])

theorem pushStats_eq_push (b : RtpReorderBuffer) (stats : RtpStats) (timedOut : Bool)
    (packet : Bytes) :
    ((b.pushStats stats timedOut packet).1, (b.pushStats stats timedOut packet).2.2) =
      b.push timedOut packet := by
  unfold pushStats push
  split
  · rfl
  cases he : b.expected with
  | none => rfl
  | some expected =>
    dsimp only
    split
    · rfl
    split
    · rfl
    split
    · unfold skipGapStats skipGap
      cases nearest expected ((sequence packet, packet) :: b.pending) <;> rfl
    · rfl

/-! ## Draining -/

/-- The packets carry the numbers from `e` on. -/
def CountsFrom : UInt16 → List Bytes → Prop
  | _, [] => True
  | e, p :: ps => sequence p = e ∧ CountsFrom (e + 1) ps

/-- What holds of the pending packets: one for each number, under its own number, ahead
of `e` by less than half the numbers. -/
structure Ahead (e : UInt16) (pending : List (UInt16 × Bytes)) : Prop where
  distinct : (pending.map Prod.fst).Nodup
  own : ∀ p ∈ pending, sequence p.2 = p.1
  near : ∀ p ∈ pending, (p.1 - e).toNat < 0x8000

theorem Ahead.sublist {l' : List (UInt16 × Bytes)} (h : Ahead e l)
    (hs : l'.Sublist l) : Ahead e l' :=
  ⟨h.distinct.sublist (hs.map _), fun p hp => h.own p (hs.subset hp),
    fun p hp => h.near p (hs.subset hp)⟩

theorem Ahead.advance {k : Nat} (h : Ahead e l)
    (hk : ∀ p ∈ l, k ≤ (p.1 - e).toNat) : Ahead (e + UInt16.ofNat k) l := by
  refine ⟨h.distinct, h.own, fun p hp => ?_⟩
  rw [Serial.toNat_sub_add (hk p hp)]
  exact lt_of_le_of_lt (Nat.sub_le _ _) (h.near p hp)

theorem perm_cons_filter : ∀ {l : List (UInt16 × Bytes)} {p : UInt16 × Bytes},
    (l.map Prod.fst).Nodup → l.find? (fun q => q.1 == e) = some p →
    l.Perm (p :: l.filter fun q => q.1 != e)
  | q :: l, p, hn, h => by
    rw [map_cons, nodup_cons] at hn
    by_cases hq : q.1 = e
    · rw [find?_cons_of_pos (by simpa using hq)] at h
      obtain rfl := Option.some.inj h
      rw [filter_cons_of_neg (by simpa using hq), filter_eq_self.mpr]
      intro r hr
      rw [bne_iff_ne]
      rintro rfl
      exact hn.1 (hq ▸ mem_map_of_mem hr)
    · rw [find?_cons_of_neg (by simpa using hq)] at h
      rw [filter_cons_of_pos (by simpa using hq)]
      exact ((perm_cons_filter hn.2 h).cons q).trans (List.Perm.swap p q _)

/-- **What draining releases.** The packets that follow on each other from `e`; those that
stay lie strictly ahead of the number that is then expected. -/
theorem drainReady_spec (window : UInt16) : ∀ {fuel : Nat} {e : UInt16}
    {pending : List (UInt16 × Bytes)}, pending.length ≤ fuel → Ahead e pending → ∃ rest out,
      drainReady window fuel e pending =
          (⟨some (e + UInt16.ofNat out.length), rest, window⟩, out) ∧
        CountsFrom e out ∧ (out ++ rest.map Prod.snd).Perm (pending.map Prod.snd) ∧
        Ahead (e + UInt16.ofNat out.length) rest ∧
        ∀ p ∈ rest, p.1 ≠ e + UInt16.ofNat out.length
  | 0, e, pending, hlen, h => by
    obtain rfl := length_eq_zero_iff.mp (Nat.le_zero.mp hlen)
    have he : e + UInt16.ofNat ([] : List Bytes).length = e := UInt16.add_zero e
    refine ⟨[], [], by rw [drainReady, he], trivial, List.Perm.refl _, ?_, ?_⟩
    · rwa [he]
    · simp
  | fuel + 1, e, pending, hlen, h => by
    rw [drainReady]
    cases hf : pending.find? fun p => p.1 == e with
    | none =>
      have he : e + UInt16.ofNat ([] : List Bytes).length = e := UInt16.add_zero e
      refine ⟨pending, [], by dsimp only; rw [he], trivial, List.Perm.refl _, ?_, ?_⟩
      · rwa [he]
      · intro p hp
        simpa using find?_eq_none.mp hf p hp
    | some p =>
      have hpr := perm_cons_filter h.distinct hf
      have hk := find?_some hf
      have hmem := mem_of_find?_eq_some hf
      have hlen' : (pending.filter fun q => q.1 != e).length ≤ fuel := by
        have := hpr.length_eq
        rw [length_cons] at this
        omega
      -- all that is left lies ahead of `e`, so it lies ahead of `e + 1` too
      have hah : Ahead (e + UInt16.ofNat 1) (pending.filter fun q => q.1 != e) := by
        refine (h.sublist filter_sublist).advance fun q hq => ?_
        have hne : q.1 ≠ e := by simpa using (mem_filter.mp hq).2
        exact Serial.toNat_sub_pos hne
      obtain ⟨rest, out, hd, hc, hpr', hah', hne⟩ := drainReady_spec window hlen' hah
      have hnx : e + UInt16.ofNat (p.2 :: out).length =
          e + UInt16.ofNat 1 + UInt16.ofNat out.length := by
        rw [length_cons, Nat.add_comm, UInt16.ofNat_add, UInt16.add_assoc]
      rw [show (1 : UInt16) = UInt16.ofNat 1 from rfl]
      refine ⟨rest, p.2 :: out, by dsimp only; rw [hd, hnx], ⟨?_, hc⟩, ?_, ?_, ?_⟩
      · rw [h.own p hmem]
        exact eq_of_beq hk
      · exact (hpr'.cons p.2).trans (hpr.map Prod.snd).symm
      · rwa [hnx]
      · rwa [hnx]

/-! ## One push -/

/-- The state of the buffer between two pushes. -/
structure Ok (b : RtpReorderBuffer) : Prop where
  window : b.window = 64
  fresh : b.expected = none → b.pending = []
  ahead : ∀ e, b.expected = some e → Ahead e b.pending
  strict : ∀ e, b.expected = some e → ∀ p ∈ b.pending, p.1 ≠ e
  few : b.pending.length < 64

theorem ok_default : Ok default := ⟨rfl, fun _ => rfl, nofun, nofun, by decide⟩

theorem nearest_spec (h : nearest e pending = some n)
    (hn : ∀ p ∈ pending, (p.1 - e).toNat < 0x8000) :
    n ∈ pending.map Prod.fst ∧ ∀ p ∈ pending, (n - e).toNat ≤ (p.1 - e).toNat := by
  refine ⟨(mem_filter.mp (argmin_mem h)).1, fun p hp => ?_⟩
  refine le_of_mem_argmin (f := fun seq => (seq - e).toNat) (mem_filter.mpr ⟨?_, ?_⟩) h
  · exact mem_map_of_mem hp
  · exact decide_eq_true (UInt16.lt_iff_toNat_lt.mpr (hn p hp))

theorem nearest_eq_none (h : nearest e pending = none)
    (hn : ∀ p ∈ pending, (p.1 - e).toNat < 0x8000) : pending = [] := by
  unfold nearest at h
  rw [argmin_eq_none, filter_eq_nil_iff] at h
  refine eq_nil_iff_forall_not_mem.mpr fun p hp => ?_
  exact h p.1 (mem_map_of_mem hp)
    (decide_eq_true (UInt16.lt_iff_toNat_lt.mpr (hn p hp)))

/-- A release from `candidates`, the gap of `gap` numbers counted as lost. -/
structure Releases (e : UInt16) (gap : Nat) (candidates : List (UInt16 × Bytes))
    (b' : RtpReorderBuffer) (out : List Bytes) : Prop where
  expected : b'.expected = some (e + UInt16.ofNat gap + UInt16.ofNat out.length)
  gap_lt : gap < 0x8000
  counts : CountsFrom (e + UInt16.ofNat gap) out
  some_out : out ≠ []
  perm : (out ++ b'.pending.map Prod.snd).Perm (candidates.map Prod.snd)
  ok : Ok b'

/-- Draining from a number that is among the candidates and before all of them. -/
theorem releases_drainReady {candidates : List (UInt16 × Bytes)}
    (hah : Ahead e candidates) (hmem : n ∈ candidates.map Prod.fst)
    (hmn : ∀ p ∈ candidates, (n - e).toNat ≤ (p.1 - e).toNat) (hf : candidates.length ≤ 64) :
    Releases e (n - e).toNat candidates (drainReady 64 candidates.length n candidates).1
      (drainReady 64 candidates.length n candidates).2 := by
  obtain ⟨p, hp, rfl⟩ := mem_map.mp hmem
  have hn : e + UInt16.ofNat (p.1 - e).toNat = p.1 := Serial.add_ofNat_sub p.1 e
  have hah' := hah.advance hmn
  rw [hn] at hah'
  obtain ⟨rest, out, hd, hc, hpr, hr, hne⟩ := drainReady_spec 64 le_rfl hah'
  -- the number itself is among the candidates, so it is not left behind
  have ho : out ≠ [] := by
    rintro rfl
    have hz : p.1 + UInt16.ofNat ([] : List Bytes).length = p.1 := UInt16.add_zero _
    have hin : p.2 ∈ rest.map Prod.snd := hpr.mem_iff.mpr (mem_map_of_mem hp)
    obtain ⟨q, hq, hqp⟩ := mem_map.mp hin
    refine hne q hq ?_
    rw [hz, ← hr.own q hq, hqp, hah.own p hp]
  have hlen : rest.length < 64 := by
    have := hpr.length_eq
    simp only [length_append, length_map] at this
    have := length_pos_iff.mpr ho
    omega
  rw [hd]
  refine ⟨by rw [hn], hah.near p hp, by rwa [hn], ho, hpr, ⟨rfl, ?_, ?_, ?_, hlen⟩⟩
  · rintro ⟨⟩
  · rintro x ⟨⟩
    exact hr
  · rintro x ⟨⟩
    exact hne

theorem Ahead.cons {e : UInt16} {pending : List (UInt16 × Bytes)} {packet : Bytes}
    (h : Ahead e pending) (hnr : (sequence packet - e).toNat < 0x8000)
    (hnw : ∀ p ∈ pending, p.1 ≠ sequence packet) :
    Ahead e ((sequence packet, packet) :: pending) := by
  refine ⟨?_, ?_, ?_⟩
  · rw [map_cons, nodup_cons]
    refine ⟨fun hmem => ?_, h.distinct⟩
    obtain ⟨p, hp, hpe⟩ := mem_map.mp hmem
    exact hnw p hp hpe
  · intro p hp
    rcases mem_cons.mp hp with rfl | hp
    · rfl
    · exact h.own p hp
  · intro p hp
    rcases mem_cons.mp hp with rfl | hp
    · exact hnr
    · exact h.near p hp

/-- **All that a push can do**, once a number is expected: discard the packet, keep it, or
release packets from the pending ones and the new one. -/
theorem pushStats_cases {b : RtpReorderBuffer} (stats : RtpStats) (timedOut : Bool) {packet : Bytes}
    (hok : Ok b) (hlen : 4 ≤ packet.length) (he : b.expected = some e) :
    b.pushStats stats timedOut packet =
      (b, { stats with duplicatePackets := stats.duplicatePackets + 1 }, []) ∨
    (∃ b', b.pushStats stats timedOut packet =
      (b', { stats with reorderedPackets := stats.reorderedPackets + 1 }, []) ∧
      b'.expected = some e ∧ b'.pending = (sequence packet, packet) :: b.pending ∧ Ok b') ∨
    ∃ gap b' stats' out, b.pushStats stats timedOut packet = (b', stats', out) ∧
      Releases e gap ((sequence packet, packet) :: b.pending) b' out ∧
      stats'.lostPackets = stats.lostPackets + gap ∧
      stats'.duplicatePackets = stats.duplicatePackets := by
  have hb := hok.ahead e he
  unfold pushStats
  rw [if_neg (by omega), he]
  dsimp only
  by_cases hz : sequence packet - e = 0
  · -- the expected packet: the drain starts at the packet itself
    rw [if_pos hz]
    have hsq : sequence packet = e := Serial.sub_eq_zero_iff.mp hz
    have hzr : (sequence packet - e).toNat = 0 := congrArg UInt16.toNat hz
    have hcn : Ahead e ((sequence packet, packet) :: b.pending) := hb.cons (by omega) fun p hp =>
      hsq ▸ hok.strict e he p hp
    have hr := releases_drainReady hcn
      mem_cons_self (fun p _ => by rw [hzr]; exact Nat.zero_le _) (Nat.succ_le_of_lt hok.few)
    have hfl : ((sequence packet, packet) :: b.pending).filter (fun q => q.1 != e) = b.pending := by
      rw [filter_cons_of_neg (by simp [hsq]), filter_eq_self.mpr]
      exact fun p hp => bne_iff_ne.mpr (hok.strict e he p hp)
    have hdr : drainReady 64 (((sequence packet, packet) :: b.pending).length)
        (sequence packet) ((sequence packet, packet) :: b.pending) =
        ((drainReady 64 b.pending.length (e + 1) b.pending).1,
          packet :: (drainReady 64 b.pending.length (e + 1) b.pending).2) := by
      have hfn : ((sequence packet, packet) :: b.pending).find? (fun q => q.1 == sequence packet) =
          some (sequence packet, packet) := find?_cons_of_pos (by simp)
      rw [length_cons, drainReady, hfn]
      rw [hsq] at hfl ⊢
      rw [hfl]
    rw [hdr, hzr] at hr
    rw [hok.window]
    exact .inr (.inr ⟨0, _, stats, _, rfl, hr, rfl, rfl⟩)
  rw [if_neg hz]
  by_cases hd : 0x8000 ≤ sequence packet - e ∨ b.contains (sequence packet) = true
  · rw [if_pos hd]
    exact .inl rfl
  rw [if_neg hd]
  obtain ⟨hnr, hnw⟩ := not_or.mp hd
  have hcn : Ahead e ((sequence packet, packet) :: b.pending) := by
    refine hb.cons ?_ fun p hp hpe => hnw ?_
    · exact UInt16.lt_iff_toNat_lt.mp (UInt16.not_le.mp hnr)
    · exact any_eq_true.mpr ⟨p, hp, beq_iff_eq.mpr hpe⟩
  split
  · -- the gap is skipped
    unfold skipGapStats
    cases hn : nearest e ((sequence packet, packet) :: b.pending) with
    | none => exact absurd (nearest_eq_none hn hcn.near) (cons_ne_nil _ _)
    | some n =>
      obtain ⟨hmem, hmn⟩ := nearest_spec hn hcn.near
      have hr := releases_drainReady hcn hmem hmn (Nat.succ_le_of_lt hok.few)
      rw [hok.window]
      exact .inr (.inr ⟨_, _, _, _, rfl, hr, rfl, rfl⟩)
  next hc =>
    -- the packet waits
    refine .inr (.inl ⟨_, rfl, rfl, rfl, ⟨hok.window, ?_, ?_, ?_, ?_⟩⟩)
    · rintro ⟨⟩
    · rintro x ⟨⟩
      exact hcn
    · rintro x ⟨⟩ p hp
      rcases mem_cons.mp hp with rfl | hp
      · intro hs
        exact hz (by rw [show sequence packet = e from hs, UInt16.sub_self])
      · exact hok.strict e he p hp
    · rw [hok.window] at hc
      exact Nat.lt_of_not_le fun hle => hc (.inr (.inr hle))

/-! ## Whole runs -/

/-- A released packet, with `lost_packets` as it stood then. -/
structure Release where
  packet : Bytes
  lost : Nat
  deriving DecidableEq

structure Reordering where
  buffer : RtpReorderBuffer
  stats : RtpStats
  deriving DecidableEq

def reorderStep (s : Reordering) (push : Bool × Bytes) : Reordering × List Release :=
  let r := s.buffer.pushStats s.stats push.1 push.2
  (⟨r.1, r.2.1⟩, r.2.2.map fun packet => ⟨packet, r.2.1.lostPackets⟩)

/-- Some pushes into a new buffer, each with whether a pending packet has timed out:
the buffer, the counters and what is released. -/
def reorder (pushes : List (Bool × Bytes)) : Reordering × List Release :=
  runLog reorderStep ⟨default, ⟨0, 0, 0⟩⟩ pushes

/-- `y` is released next after `x`: its number is the next one, but for those counted as
lost in between, fewer than half of all numbers. -/
def Follows (x y : Release) : Prop :=
  x.lost ≤ y.lost ∧ y.lost - x.lost < 0x8000 ∧
    sequence y.packet = sequence x.packet + 1 + UInt16.ofNat (y.lost - x.lost)

instance (x y : Release) : Decidable (Follows x y) := inferInstanceAs (Decidable (_ ∧ _ ∧ _))

theorem CountsFrom.head (h : CountsFrom e out) : ∀ p ∈ out.head?, sequence p = e := by
  cases out with
  | nil => simp
  | cons q out =>
    rintro p ⟨⟩
    exact h.1

theorem CountsFrom.getLast : ∀ {e : UInt16}, CountsFrom e out →
    ∀ p ∈ out.getLast?, sequence p + 1 = e + UInt16.ofNat out.length := by
  induction out with
  | nil => simp
  | cons q out ih =>
    intro e h p hp
    cases out with
    | nil =>
      obtain rfl : q = p := by simpa using hp
      rw [h.1]
      rfl
    | cons r out =>
      rw [ih h.2 p (by simpa using hp), length_cons (a := q), Nat.add_comm, UInt16.ofNat_add,
        UInt16.add_assoc]
      rfl

theorem CountsFrom.isChain {lost : Nat} : ∀ {e : UInt16}, CountsFrom e out →
    (out.map fun packet => (⟨packet, lost⟩ : Release)).IsChain Follows := by
  induction out with
  | nil => simp
  | cons p out ih =>
    intro e h
    cases out with
    | nil => simp
    | cons q out =>
      rw [map_cons, map_cons, isChain_cons_cons]
      refine ⟨⟨le_rfl, by simp, ?_⟩, ih h.2⟩
      rw [h.1, h.2.1, Nat.sub_self]
      exact (UInt16.add_zero _).symm

/-- What the released packets, the counters and the buffer have to do with the packets
pushed so far. -/
structure Accounted (pushed : List (Bool × Bytes)) (s : Reordering) (log : List Release) :
    Prop where
  ok : Ok s.buffer
  chain : log.IsChain Follows
  last : ∀ r ∈ log.getLast?, r.lost = s.stats.lostPackets ∧
    s.buffer.expected = some (sequence r.packet + 1)
  unused : s.buffer.expected = none ↔ pushed = []
  unlost : s.buffer.expected = none → s.stats.lostPackets = 0
  position : ∀ p ∈ pushed.head?, s.buffer.expected =
    some (sequence p.2 + UInt16.ofNat log.length + UInt16.ofNat s.stats.lostPackets)
  total : pushed.length = log.length + s.stats.duplicatePackets + s.buffer.pending.length
  once : (log.map Release.packet ++ s.buffer.pending.map Prod.snd).Subperm (pushed.map Prod.snd)

theorem accounted_start : Accounted [] ⟨default, ⟨0, 0, 0⟩⟩ [] where
  ok := ok_default
  chain := List.IsChain.nil
  last := nofun
  unused := ⟨fun _ => rfl, fun _ => rfl⟩
  unlost := fun _ => rfl
  position := nofun
  total := rfl
  once := (List.Perm.refl _).subperm

section Step

variable {s : Reordering} {push : Bool × Bytes} {pushed : List (Bool × Bytes)} {log : List Release}

section

variable (h : Accounted pushed s log)
include h

theorem Accounted.step_first (hlen : 4 ≤ push.2.length) (he : s.buffer.expected = none) :
    Accounted (pushed ++ [push]) (reorderStep s push).1 (log ++ (reorderStep s push).2) := by
  obtain rfl := h.unused.mp he
  have hls := h.unlost he
  have ht := h.total
  have hlg : log.length = 0 := by
    rw [length_nil] at ht
    omega
  obtain rfl := length_eq_zero_iff.mp hlg
  have hpn := h.ok.fresh he
  have hs : s.buffer.pushStats s.stats push.1 push.2 =
      ({ s.buffer with expected := some (sequence push.2 + 1) }, s.stats, [push.2]) := by
    unfold pushStats
    rw [if_neg (by omega), he]
  unfold reorderStep
  rw [hs]
  refine ⟨⟨h.ok.window, nofun, ?_, ?_, h.ok.few⟩, List.IsChain.singleton _, ?_, ?_, nofun,
    ?_, ?_, ?_⟩
  · rintro e -
    rw [hpn]
    exact ⟨nodup_nil, nofun, nofun⟩
  · rintro e - p hp
    rw [hpn] at hp
    cases hp
  · rintro r ⟨⟩
    exact ⟨rfl, rfl⟩
  · exact ⟨nofun, nofun⟩
  · rintro p ⟨⟩
    rw [hls]
    exact congrArg some (UInt16.add_zero _).symm
  · simp only [length_append, length_nil, length_map, length_cons] at ht ⊢
    omega
  · rw [hpn]
    exact (List.Perm.refl _).subperm

/-- The packets of the log and the candidates of a push come from pushes of their own. -/
theorem Accounted.once_cons :
    (log.map Release.packet ++ push.2 :: s.buffer.pending.map Prod.snd).Subperm
      ((pushed ++ [push]).map Prod.snd) := by
  have hl : (log.map Release.packet ++ push.2 :: s.buffer.pending.map Prod.snd).Perm
      (push.2 :: (log.map Release.packet ++ s.buffer.pending.map Prod.snd)) := perm_middle
  have hr := perm_append_singleton push.2 (pushed.map Prod.snd)
  rw [map_append]
  exact (hl.subperm.trans ((subperm_cons push.2).mpr h.once)).trans hr.symm.subperm

theorem Accounted.step_releases {e : UInt16} {gap : Nat} {b' : RtpReorderBuffer} {stats' : RtpStats}
    {out : List Bytes} (he : s.buffer.expected = some e)
    (hrl : Releases e gap ((sequence push.2, push.2) :: s.buffer.pending) b' out)
    (hls : stats'.lostPackets = s.stats.lostPackets + gap)
    (hd : stats'.duplicatePackets = s.stats.duplicatePackets) :
    Accounted (pushed ++ [push]) ⟨b', stats'⟩
      (log ++ out.map fun packet => ⟨packet, stats'.lostPackets⟩) := by
  have hne : pushed ≠ [] := fun hp => nomatch he.symm.trans (h.unused.mpr hp)
  have hpr : (out ++ b'.pending.map Prod.snd).Perm (push.2 :: s.buffer.pending.map Prod.snd) :=
    hrl.perm
  refine ⟨hrl.ok, ?_, ?_, ?_, ?_, ?_, ?_, ?_⟩
  · refine isChain_append.mpr ⟨h.chain, hrl.counts.isChain, fun x hx y hy => ?_⟩
    obtain ⟨hxl, hxe⟩ := h.last x hx
    obtain rfl : e = sequence x.packet + 1 := Option.some.inj (he.symm.trans hxe)
    rw [head?_map] at hy
    obtain ⟨p, hp, rfl⟩ := Option.map_eq_some_iff.mp hy
    have hg : stats'.lostPackets - x.lost = gap := by omega
    refine ⟨by dsimp only; omega, ?_, ?_⟩
    · rw [hg]
      exact hrl.gap_lt
    · rw [hg]
      exact hrl.counts.head p hp
  · intro r hr
    rw [getLast?_append_of_ne_nil _ (by simpa using hrl.some_out), getLast?_map] at hr
    obtain ⟨p, hp, rfl⟩ := Option.map_eq_some_iff.mp hr
    refine ⟨rfl, ?_⟩
    rw [hrl.expected, hrl.counts.getLast p hp]
  · refine ⟨fun hn => (nomatch hrl.expected.symm.trans hn), fun hp => ?_⟩
    exact absurd hp (by simp)
  · exact fun hn => nomatch hrl.expected.symm.trans hn
  · intro p hp
    rw [head?_append_of_ne_nil _ hne] at hp
    have hpos := Option.some.inj (he.symm.trans (h.position p hp))
    rw [hrl.expected, hpos, hls, length_append, length_map, UInt16.ofNat_add, UInt16.ofNat_add]
    congr 1
    grind
  · have hln := hpr.length_eq
    have ht := h.total
    simp only [length_append, length_map, length_cons, length_nil] at hln ⊢
    omega
  · have ho : (out.map fun packet => (⟨packet, stats'.lostPackets⟩ : Release)).map Release.packet =
        out := by
      rw [map_map]
      exact map_id _
    rw [map_append, ho, append_assoc]
    exact (hpr.append_left _).subperm.trans h.once_cons

/-- **The step.** -/
theorem Accounted.step (hlen : 4 ≤ push.2.length) :
    Accounted (pushed ++ [push]) (reorderStep s push).1 (log ++ (reorderStep s push).2) := by
  cases he : s.buffer.expected with
  | none => exact h.step_first hlen he
  | some e =>
    have hne : pushed ≠ [] := fun hp => nomatch he.symm.trans (h.unused.mpr hp)
    have hh : (pushed ++ [push]).head? = pushed.head? := head?_append_of_ne_nil _ hne
    have hu : s.buffer.expected = none ↔ pushed ++ [push] = [] :=
      ⟨fun hn => (nomatch he.symm.trans hn), fun hp => absurd hp (by simp)⟩
    have ht := h.total
    unfold reorderStep
    rcases pushStats_cases s.stats push.1 h.ok hlen he with
      hs | ⟨b', hs, he', hpn, hok⟩ | ⟨gap, b', stats', out, hs, hr, hls, hd⟩
    · -- discarded
      rw [hs]
      dsimp only
      rw [map_nil, append_nil]
      refine ⟨h.ok, h.chain, h.last, hu, h.unlost, ?_, ?_, ?_⟩
      · rw [hh]
        exact h.position
      · simp only [length_append, length_cons, length_nil]
        omega
      · rw [map_append]
        exact h.once.trans (sublist_append_left _ _).subperm
    · -- kept
      rw [hs]
      dsimp only
      rw [map_nil, append_nil]
      rw [he, ← he'] at hu
      refine ⟨hok, h.chain, ?_, hu, ?_, ?_, ?_, ?_⟩
      · rw [he'.trans he.symm]
        exact h.last
      · exact fun hn => (nomatch he'.symm.trans hn)
      · rw [hh, he'.trans he.symm]
        exact h.position
      · rw [hpn]
        simp only [length_append, length_cons, length_nil]
        omega
      · rw [hpn]
        exact h.once_cons
    · rw [hs]
      exact h.step_releases he hr hls hd

end

end Step

/-- **The run.** -/
theorem accounted_reorder (pushes : List (Bool × Bytes)) (h : ∀ push ∈ pushes, 4 ≤ push.2.length) :
    Accounted pushes (reorder pushes).1 (reorder pushes).2 :=
  runLog_invariant_inputs accounted_start (fun _ _ _ _ h hlen => h.step hlen) pushes h

/-- **Order, bounds and accounts of a run.** The numbers released advance by one and by
those lost in between, and no push is released twice; what is pending lies ahead of the
number expected, by less than half of all numbers, and is fewer than 64 packets; every push
is released, pending or counted as a duplicate, and the number expected is the first one
moved by the packets released and lost. -/
theorem reorder_safe (pushes : List (Bool × Bytes)) (h : ∀ push ∈ pushes, 4 ≤ push.2.length) :
    let s := (reorder pushes).1
    let released := (reorder pushes).2
    (released.IsChain Follows ∧ (released.map Release.packet ++
      s.buffer.pending.map Prod.snd).Subperm (pushes.map Prod.snd)) ∧
    ((∀ p ∈ s.buffer.pending, ∃ e, s.buffer.expected = some e ∧ 0 < (p.1 - e).toNat ∧
      (p.1 - e).toNat < 0x8000) ∧
      s.buffer.pending.length < 64) ∧
    pushes.length = released.length + s.stats.duplicatePackets + s.buffer.pending.length ∧
    ∀ first ∈ pushes.head?, s.buffer.expected =
      some (sequence first.2 + UInt16.ofNat released.length + UInt16.ofNat
        s.stats.lostPackets) := by
  have hac := accounted_reorder pushes h
  refine ⟨⟨hac.chain, hac.once⟩, ⟨fun p hp => ?_, hac.ok.few⟩, hac.total, hac.position⟩
  cases he : (reorder pushes).1.buffer.expected with
  | none =>
    rw [hac.ok.fresh he] at hp
    cases hp
  | some e =>
    refine ⟨e, rfl, ?_, (hac.ok.ahead e he).near p hp⟩
    exact Serial.toNat_sub_pos (hac.ok.strict e he p hp)

/-- Packets 10, 12 (twice), 14 and 11, where 12 has timed out when 14 comes. -/
def jumbled : List (Bool × Bytes) :=
  [(false, [0x80, 96, 0, 10]), (false, [0x80, 96, 0, 12]), (false, [0x80, 96, 0, 12]),
    (true, [0x80, 96, 0, 14]), (false, [0x80, 96, 0, 11])]

theorem reorder_safe_jumbled : (∀ push ∈ jumbled, 4 ≤ push.2.length) ∧
    (reorder jumbled).2.length = 2 ∧
      (reorder jumbled).1.stats = ⟨1, 2, 2⟩ ∧
      jumbled.length = (reorder jumbled).2.length + (reorder jumbled).1.stats.duplicatePackets +
        (reorder jumbled).1.buffer.pending.length :=
  ⟨by decide, by decide, by decide, (reorder_safe jumbled (by decide)).2.2.1⟩

end RtpReorderBuffer

end MediaKit.Gb28181
