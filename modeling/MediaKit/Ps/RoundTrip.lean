import Mathlib.Data.List.Nodup
import Mathlib.Data.List.Perm.Subperm
import MediaKit.Ps.Muxer
import MediaKit.Ps.Demuxer
import MediaKit.Lib.Units

/-!
# From the muxer to the demuxer

What `PsMuxer` writes is a stream of units for the demuxer: pack headers, system headers,
maps and PES packets, each of which the demuxer takes as a whole and waits for at every
part of it. So the demuxer returns the packets as they were written, with their stream
ids, time stamps and payloads, however the stream is cut into pushes.

The one exception is the limit of the buffer. `push` makes room by dropping the *oldest*
bytes, and those are the beginning of the packet that is still incomplete: a push of up to
4 MiB is complete in itself but destroys the packet that it continues
(`ps_roundtrip_loses_packet`). As long as the pending bytes and the piece fit together,
nothing is lost (`ps_roundtrip_of_fits`).
-/

namespace MediaKit.Ps

open Lib MediaKit.Core Gb28181 List UInt64

/-! ## Bits -/

variable {n : Nat}

namespace BitWriter

variable {w : BitWriter}

/-- The bits written so far; fewer than eight of them wait for their byte. -/
structure Holds (w : BitWriter) (n : Nat) : Prop where
  count : 8 * w.bytes.length + w.used = n
  used : w.used < 8

theorem holds_empty : Holds empty 0 := ⟨rfl, by decide⟩

theorem Holds.pushBit (h : w.Holds n) (bit : UInt8) : (w.pushBit bit).Holds (n + 1) := by
  have hc := h.count
  have hu := h.used
  unfold BitWriter.pushBit
  split
  · refine ⟨?_, Nat.zero_lt_succ 7⟩
    show 8 * (w.bytes ++ [_]).length + 0 = n + 1
    rw [length_append, length_singleton]
    omega
  · refine ⟨?_, ?_⟩
    · show 8 * w.bytes.length + (w.used + 1) = n + 1
      omega
    · show w.used + 1 < 8
      omega

theorem Holds.push (h : w.Holds n) (value : UInt64) (k : Nat) : (w.push value k).Holds (n + k) := by
  induction k generalizing w n with
  | zero => exact h
  | succ k ih =>
    rw [show n + (k + 1) = n + 1 + k from by omega]
    exact ih (h.pushBit _)

theorem Holds.length_finish (h : w.Holds (8 * n)) : w.finish = w.bytes ∧ w.bytes.length = n := by
  have hc := h.count
  have hu := h.used
  unfold finish
  rw [if_neg (by omega)]
  exact ⟨rfl, by omega⟩

theorem push_three_zeros (h : w.used = 5) :
    ∃ last, (w.push 0 3).bytes = w.bytes ++ [last] ∧ last &&& 0x07 = 0 := by
  refine ⟨w.current <<< 1 <<< 1 <<< 1, by simp [push, pushBit, h], ?_⟩
  generalize w.current = c
  revert c
  exact forall_octet (by decide +kernel)

end BitWriter

/-! ## Time stamps -/

theorem or_parts (h : n < 2 ^ 33) :
    (n >>> 30 % 8 * 2) <<< 29 ||| (n >>> 22 % 256) <<< 22 ||| (n >>> 15 % 128 * 2) <<< 14 |||
      (n >>> 7 % 256) <<< 7 ||| (n % 128 * 2) >>> 1 = n := by
  have h30 : (n >>> 30 % 8 * 2) <<< 29 = (n >>> 30) <<< 30 := by
    omega
  have h15 : (n >>> 15 % 128 * 2) <<< 14 = (n >>> 15 % 128) <<< 15 := by
    omega
  have h0 : (n % 128 * 2) >>> 1 = n % 128 := by
    omega
  rw [h30, h15, h0]
  -- one part after the other, from the top
  have h22 : (n >>> 30) <<< 30 ||| (n >>> 22 % 256) <<< 22 = (n >>> 22) <<< 22 :=
    shiftLeft_or_part n 22 8
  have h15' : (n >>> 22) <<< 22 ||| (n >>> 15 % 128) <<< 15 = (n >>> 15) <<< 15 :=
    shiftLeft_or_part n 15 7
  have h7 : (n >>> 15) <<< 15 ||| (n >>> 7 % 256) <<< 7 = (n >>> 7) <<< 7 := shiftLeft_or_part n 7 8
  have hl : (n >>> 7) <<< 7 ||| n % 128 = n := shiftLeft_or_part n 0 7
  rw [h22, h15', h7, hl]

theorem toNat_timestamp90k (ms : UInt64) : (timestamp90k ms).toNat = ms.toNat * 90 % 2 ^ 33 := by
  show (ms * 90).toNat &&& 2 ^ 33 - 1 = _
  rw [Nat.and_two_pow_sub_one_eq_mod]
  exact Nat.mod_mod_of_dvd _ (Nat.pow_dvd_pow 2 (by decide))

theorem toNat_and_ptsMask (v : UInt64) : (v &&& ptsMask).toNat = v.toNat % 2 ^ 33 := by
  exact Nat.and_two_pow_sub_one_eq_mod _ 33

theorem and_first {first : UInt8} (hf : first = 0x2 ∨ first = 0x3) :
    ∀ k : UInt8, ((first <<< 4) ||| ((k &&& 0x07) <<< 1) ||| 1).toNat &&& 14 = k.toNat % 8 * 2 := by
  rcases hf with rfl | rfl
  · exact forall_octet (by decide +kernel)
  · exact forall_octet (by decide +kernel)

theorem and_seven : ∀ k : UInt8, (((k &&& 0x7F) <<< 1) ||| 1).toNat &&& 254 = k.toNat % 128 * 2 :=
  forall_octet (by decide +kernel)

/-- **The time stamp of a header is read as it was written.** -/
theorem readPts_encodeTimestamp {first : UInt8} (hfr : first = 0x2 ∨ first = 0x3) (v : UInt64)
    {head rest : Bytes} (hh : head.length = 9) :
    (readPts (head ++ encodeTimestamp first v ++ rest)).toNat = v.toNat % 2 ^ 33 := by
  have hg : ∀ i, (head ++ encodeTimestamp first v ++ rest).getD (9 + i) 0 =
      (encodeTimestamp first v ++ rest).getD i 0 := by
    intro i
    rw [append_assoc, getD_append_right _ _ _ _ (by omega), hh, Nat.add_sub_cancel_left]
  unfold readPts
  simp only [hg]
  unfold encodeTimestamp
  rw [← toNat_and_ptsMask]
  have hlt : (v &&& ptsMask).toNat < 2 ^ 33 := by
    rw [toNat_and_ptsMask]
    exact Nat.mod_lt _ (by decide)
  generalize v &&& ptsMask = w at hlt ⊢
  simp only [cons_append, nil_append, getD_cons_zero, getD_cons_succ,
    UInt64.toNat_or, UInt64.toNat_shiftLeft, UInt64.toNat_shiftRight, UInt64.toNat_and,
    UInt8.toNat_toUInt64]
  simp only [UInt64.reduceToNat, and_first hfr, and_seven]
  -- each part fits its place, so that nothing is lost to the width of the words
  have hb : ∀ k : UInt64, k < 64 → (w >>> k).toUInt8.toNat = w.toNat >>> k.toNat % 256 := by
    intro k hk
    have hk' : k.toNat < 64 := lt_iff_toNat_lt.mp hk
    rw [toNat_toUInt8, UInt64.toNat_shiftRight, Nat.mod_eq_of_lt hk']
  have hlw : w.toUInt8.toNat = w.toNat % 256 := toNat_toUInt8 w
  have hms : ∀ m : Nat, m &&& 255 = m % 256 := fun m => Nat.and_two_pow_sub_one_eq_mod m 8
  have hft : ∀ m k b : Nat, m < 2 ^ b → k + b ≤ 64 → m <<< k % 2 ^ 64 = m <<< k := by
    intro m k b hm hk
    refine Nat.mod_eq_of_lt (lt_of_lt_of_le ?_ (Nat.pow_le_pow_right Nat.two_pos hk))
    rw [Nat.shiftLeft_eq, Nat.pow_add, mul_comm]
    exact Nat.mul_lt_mul_of_pos_left hm (Nat.two_pow_pos k)
  rw [hb 30 (by decide), hb 22 (by decide), hb 15 (by decide), hb 7 (by decide), hlw,
    hms, hms, hft _ (29 % 64) 4 (by omega) (by decide), hft _ (22 % 64) 8 (by omega) (by decide),
    hft _ (14 % 64) 8 (by omega) (by decide), hft _ (7 % 64) 8 (by omega) (by decide)]
  have h := or_parts hlt
  generalize w.toNat = n at h ⊢
  calc _ = (n >>> 30 % 8 * 2) <<< 29 ||| (n >>> 22 % 256) <<< 22 ||| (n >>> 15 % 128 * 2) <<< 14 |||
        (n >>> 7 % 256) <<< 7 ||| (n % 128 * 2) >>> 1 := by
        simp only [reduceToNat, Nat.reduceMod, Nat.mod_mod,
          Nat.mod_mod_of_dvd _ (show 8 ∣ 256 by decide),
          Nat.mod_mod_of_dvd _ (show 128 ∣ 256 by decide)]
    _ = n := h

/-! ## Headers as units -/

variable {types : List (UInt8 × UInt8)}

theorem psNext_of_partial_header {p q : Bytes}
    (h : leadingHeaderLen (p ++ q) = some (p ++ q).length) (hq : q ≠ []) :
    psNext types p = .wait := by
  have hlt : p.length < (p ++ q).length := by
    have := length_pos_iff.mpr hq
    rw [length_append]
    omega
  -- a shorter header would also be one of the whole
  have hn : leadingHeaderLen p = none := by
    cases hp : leadingHeaderLen p with
    | none => rfl
    | some n =>
      have hle := leadingHeaderLen_le hp
      have heq := (leadingHeaderLen_append hp q).symm.trans h
      have := Option.some.inj heq
      omega
  have hpr : parseOnePes p = .ok none := by
    by_cases hlen : p.length < 6
    · exact if_pos hlen
    obtain ⟨-, hc, hid, -⟩ := leadingHeaderLen_eq_some h
    rw [getD_append_left p q (by omega)] at hid
    exact parseOnePes_of_header ((startsCode_append (by omega)).mp hc) hid hn
  simp only [psNext, hn, hpr]

/-- **A complete header is a unit.** -/
theorem isUnit_header {u : Bytes} (h : leadingHeaderLen u = some u.length)
    (types : List (UInt8 × UInt8)) : IsUnit psNext types u (PsDemuxer.declared types u) [] where
  taken t := by
    unfold psNext
    rw [leadingHeaderLen_append h t]
    dsimp only
    rw [take_left, drop_left]
  waits p q hu hq := psNext_of_partial_header (hu ▸ h) hq

theorem packHeader_spec (scr : UInt64) :
    ∃ body last, packHeader scr = [0, 0, 1, 0xBA] ++ body ++ [last] ∧
    body.length = 9 ∧ last &&& 0x07 = 0 := by
  unfold packHeader
  dsimp only
  have h77 := ((((((((((((BitWriter.holds_empty.push 0b01 2).push (scr >>> 30) 3).push 1 1).push
    (scr >>> 15) 15).push 1 1).push scr 15).push 1 1).push 0 9).push 1 1).push 50000 22).push
    1 1).push
    1 1).push 0x1F 5
  generalize BitWriter.push _ 0x1F 5 = w at h77 ⊢
  obtain ⟨last, hb, hl⟩ := BitWriter.push_three_zeros (w := w) (by
    have := h77.count
    have := h77.used
    omega)
  refine ⟨w.bytes, last, ?_, ?_, hl⟩
  · have h80 := h77.push 0 3
    rw [(BitWriter.Holds.length_finish (n := 10) h80).1, hb, append_assoc]
  · have := h77.count
    have := h77.used
    omega

theorem leadingHeaderLen_packHeader (scr : UInt64) :
    leadingHeaderLen (packHeader scr) = some (packHeader scr).length := by
  obtain ⟨body, last, heq, hlen, hls⟩ := packHeader_spec scr
  have h3 : ([0, 0, 1, 0xBA] ++ body ++ [last]).getD 3 0 = 0xBA := rfl
  have h13 : ([0, 0, 1, 0xBA] ++ body ++ [last]).getD 13 0 = last := by
    simp [hlen]
  have hln : ([0, 0, 1, 0xBA] ++ body ++ [last]).length = 14 := by simp [hlen]
  have hs : headerSize ([0, 0, 1, 0xBA] ++ body ++ [last]) = 14 := by
    rw [headerSize, h3, h13, hls]
    rfl
  rw [heq, leadingHeaderLen_eq, hs, hln, if_pos ⟨⟨by omega, rfl⟩, .inl rfl, le_refl 14⟩]

theorem leadingHeaderLen_sized {id : UInt8} (hid : id = 0xBB ∨ id = 0xBC) {body : Bytes}
    (hn : body.length = n) (hlt : n < 2 ^ 16) :
    leadingHeaderLen ([0, 0, 1, id] ++ be16 n ++ body) = some (6 + n) := by
  have hln : ([0, 0, 1, id] ++ be16 n ++ body).length = 6 + n := by
    rw [length_append, length_append, hn]
    rfl
  have hid' : id ≠ 0xBA := by rcases hid with rfl | rfl <;> decide
  have hs : headerSize ([0, 0, 1, id] ++ be16 n ++ body) = 6 + n :=
    (if_neg hid').trans (congrArg (6 + ·) (ofBe_two n hlt))
  rw [leadingHeaderLen_eq, hs, if_pos ⟨⟨by omega, rfl⟩, .inr hid, hln.ge⟩]

variable (m : PsMuxer)

theorem length_tracks_le : m.tracks.length ≤ 7 := by
  have hi : Function.Injective fun t : PsTrack => (t.streamType, t.streamId) := by
    intro t u h
    cases t
    cases u
    obtain ⟨rfl, rfl⟩ := h
    rfl
  have hs : m.tracks.map (fun t => (t.streamType, t.streamId)) ⊆ psStreams := by
    intro x hx
    obtain ⟨t, -, rfl⟩ := mem_map.mp hx
    exact t.known
  have hle := (subperm_of_subset (List.Nodup.map hi m.distinct) hs).length_le
  rw [length_map] at hle
  exact hle

theorem holds_systemHeaderTracks {tracks : List PsTrack} : ∀ {bits : BitWriter} {n : Nat},
    bits.Holds (8 * n) → (tracks.foldl systemHeaderTrack bits).Holds
      (8 * (n + 3 * tracks.length)) := by
  induction tracks with
  | nil => exact fun h => h
  | cons track tracks ih =>
    intro bits n h
    rw [foldl_cons, length_cons, show n + 3 * (tracks.length + 1) =
      n + 3 + 3 * tracks.length by omega]
    refine ih ?_
    unfold systemHeaderTrack
    exact (((h.push _ 8).push _ 2).push _ 1).push _ 13

theorem leadingHeaderLen_systemHeader :
    leadingHeaderLen (systemHeader m.tracks) = some (systemHeader m.tracks).length := by
  have h48 : ∀ a v : UInt64, BitWriter.Holds
    (((((((((((((BitWriter.empty.push 1 1).push 50000 22).push
      1 1).push a 6).push 0 1).push 0 1).push 0 1).push 0 1).push 1 1).push v 5).push 0 1).push
      0x7F 7)) (8 * 6) := fun a v =>
    (((((((((((BitWriter.holds_empty.push 1 1).push 50000 22).push 1 1).push a 6).push 0 1).push
      0 1).push 0 1).push 0 1).push 1 1).push v 5).push 0 1).push 0x7F 7
  unfold systemHeader
  have hb := (@holds_systemHeaderTracks m.tracks _ _ (h48
    (ofNat (min (m.tracks.filter fun track => track.streamId &&& 0xE0 = 0xC0).length 0x3F))
    (ofNat (min (m.tracks.filter fun track => track.streamId &&& 0xF0 = 0xE0).length 0x1F)))
    ).length_finish
  have hlen := hb.2
  rw [← hb.1] at hlen
  have hle := length_tracks_le m
  rw [leadingHeaderLen_sized (.inl rfl) rfl (by omega), length_append, length_append, length_be16]
  rfl

theorem leadingHeaderLen_programStreamMap :
    leadingHeaderLen (programStreamMap m.tracks) = some (programStreamMap m.tracks).length := by
  have hlen : (m.tracks.flatMap fun track => [track.streamType, track.streamId] ++ be16 0).length =
      4 * m.tracks.length := by
    simp [mul_comm]
  have hle := length_tracks_le m
  unfold programStreamMap
  dsimp only
  generalize m.tracks.flatMap _ = entries at hlen ⊢
  generalize mpeg2Crc32 _ = crc
  have hb : ([0xE0, 0xFF] ++ be16 0 ++ be16 entries.length ++ entries ++ be32 crc.toNat).length =
      10 + entries.length := by
    simp only [length_append, length_be16, length_be32]
    show 2 + 2 + 2 + entries.length + 4 = _
    omega
  have h := leadingHeaderLen_sized (.inr rfl) hb (by omega)
  simp only [append_assoc] at h hb ⊢
  rw [h, length_append, length_append, hb, length_be16]
  show some (6 + (10 + entries.length)) = some (4 + (2 + (10 + entries.length)))
  rw [← add_assoc 4 2]

/-! ## Packets as units -/

/-- The first nine bytes of a packet. -/
def pesHead (streamId : UInt8) (packetLength : Nat) (flags headerDataLength : UInt8) : Bytes :=
  [0, 0, 1, streamId] ++ be16 packetLength ++ [0x80, flags, headerDataLength]

section Packet

variable {id flags n : UInt8} {len : Nat} {body : Bytes} (hlen : body.length + 3 = len)
  (hlt : len < 2 ^ 16)
include hlen hlt

theorem parsePesPacket_whole (hn : n.toNat ≤ body.length) (hpt : 5 ≤ body.length)
    (hf : (2 : UInt8) ≤ (flags >>> 6) &&& 0x03) (t : Bytes) :
    parsePesPacket (pesHead id len flags n ++ body ++ t) =
      .ok (some (⟨id, body.drop n.toNat, some (readPts (pesHead id len flags n ++ body))⟩,
        6 + len)) := by
  have hh : (pesHead id len flags n).length = 9 := rfl
  have hln : (pesHead id len flags n ++ body ++ t).length = 9 + body.length + t.length := by
    rw [length_append, length_append, hh]
  have hbe : ofBe (((pesHead id len flags n ++ body ++ t).drop 4).take 2) = len := ofBe_two len hlt
  have hpy : ((pesHead id len flags n ++ body ++ t).take (6 + len)).drop (9 + n.toNat) =
      body.drop n.toNat := by
    have h9 : 6 + len = (pesHead id len flags n ++ body).length := by
      rw [length_append, hh]
      omega
    rw [h9, take_left, drop_append, hh, Nat.add_sub_cancel_left, drop_eq_nil_of_le (by omega),
      nil_append]
  have h3 : (pesHead id len flags n ++ body ++ t).getD 3 0 = id := rfl
  have h6 : (pesHead id len flags n ++ body ++ t).getD 6 0 = 0x80 := rfl
  have h7 : (pesHead id len flags n ++ body ++ t).getD 7 0 = flags := rfl
  have h8 : (pesHead id len flags n ++ body ++ t).getD 8 0 = n := rfl
  unfold parsePesPacket
  dsimp only
  rw [if_neg (by omega), hbe, if_neg (by omega), h6, if_neg (by decide), h8, if_neg (by omega),
    if_neg (by omega)]
  dsimp only
  rw [hpy, h3, h7, readPts_append (by rw [length_append, hh]; omega), if_pos ⟨hf, by omega⟩]

theorem psNext_of_partial_pes (hid : 0xC0 ≤ id) {p q : Bytes}
    (hu : p ++ q = pesHead id len flags n ++ body) (hq : q ≠ []) : psNext types p = .wait := by
  have hln : p.length < 6 + len := by
    have hpos := length_pos_iff.mpr hq
    have := congrArg List.length hu
    rw [length_append, length_append, show (pesHead id len flags n).length = 9 from rfl] at this
    omega
  have h3 : 4 ≤ p.length → p.getD 3 0 = id := by
    intro h
    rw [← getD_append_left p q h, hu]
    rfl
  have hn : leadingHeaderLen p = none := by
    rw [leadingHeaderLen_eq, if_neg]
    rintro ⟨hc, hh, -⟩
    rw [h3 hc.1] at hh
    exact not_isHeaderId hid hh
  have hpr : parseOnePes p = .ok none := by
    by_cases h6 : p.length < 6
    · exact if_pos h6
    have ht : p.take 3 = [0, 0, 1] := by
      have hap : (p ++ q).take 3 = p.take 3 := take_append_of_le_length (by omega)
      rw [← hap, hu]
      rfl
    have hbe : ofBe ((p.drop 4).take 2) = len := by
      rw [← take_drop_append p q (by omega), hu]
      exact ofBe_two len hlt
    rw [parseOnePes_of_packet ⟨by omega, ht⟩ (by rwa [h3 (by omega)]), parsePesPacket]
    split
    · rfl
    · dsimp only
      rw [hbe, if_pos ⟨by omega, hln⟩]
  simp only [psNext, hn, hpr]

/-- **A complete packet is a unit.** -/
theorem isUnit_pesHead (hid : 0xC0 ≤ id) (hn : n.toNat ≤ body.length) (hpt : 5 ≤ body.length)
    (hf : (2 : UInt8) ≤ (flags >>> 6) &&& 0x03) (types : List (UInt8 × UInt8)) :
    IsUnit psNext types (pesHead id len flags n ++ body) types
      [⟨id, body.drop n.toNat, some (readPts (pesHead id len flags n ++ body))⟩] where
  taken t := by
    have hln : (pesHead id len flags n ++ body ++ t).length = 9 + body.length + t.length := by
      rw [length_append, length_append]
      rfl
    have hc : StartsCode (pesHead id len flags n ++ body ++ t) := ⟨by omega, rfl⟩
    have hno : leadingHeaderLen (pesHead id len flags n ++ body ++ t) = none := by
      rw [leadingHeaderLen_eq, if_neg fun h => not_isHeaderId hid h.2.1]
    have hpr := (parseOnePes_of_packet hc hid).trans (parsePesPacket_whole hlen hlt hn hpt hf t)
    have hd : (pesHead id len flags n ++ body ++ t).drop (6 + len) = t := by
      have h9 : 6 + len = (pesHead id len flags n ++ body).length := by
        rw [length_append, show (pesHead id len flags n).length = 9 from rfl]
        omega
      rw [h9, drop_left]
    simp only [psNext, hno, hpr, hd]
  waits p q hu hq := psNext_of_partial_pes hlen hlt hid hu hq

end Packet

variable (id : UInt8)
  (pts dts : UInt64) (payload : Bytes)

/-- A packet of the muxer: its first bytes, the PTS, a DTS if it differs, and the payload. -/
theorem pesPacket_eq : ∃ (flags n first : UInt8) (stamps : Bytes),
      pesPacket id pts dts payload = pesHead id (3 + n.toNat + payload.length) flags n ++
        (encodeTimestamp first pts ++ stamps ++ payload) ∧
      (encodeTimestamp first pts ++ stamps).length = n.toNat ∧ n.toNat ≤ 10 ∧
      (2 : UInt8) ≤ (flags >>> 6) &&& 0x03 ∧ (first = 0x2 ∨ first = 0x3) := by
  unfold pesPacket
  by_cases h : pts = dts
  · refine ⟨0x80, 5, 0x2, [], ?_, rfl, by decide, by decide, .inl rfl⟩
    simp only [h, ne_eq, not_true_eq_false, if_false, pesHead, append_assoc, append_nil,
      UInt8.reduceToNat, UInt8.reduceOfNat]
  · refine ⟨0xC0, 10, 0x3, encodeTimestamp 0x1 dts, ?_, rfl, by decide, by decide, .inr rfl⟩
    simp only [h, ne_eq, not_false_eq_true, if_true, pesHead, append_assoc, UInt8.reduceToNat,
      UInt8.reduceOfNat]

/-- The packet that the demuxer makes of a packet of the muxer. -/
def pesOf : PesPacket :=
  ⟨id, payload, some (readPts (pesPacket id pts dts payload))⟩

/-- **A packet of the muxer is a unit.** -/
theorem isUnit_pesPacket {id : UInt8} (hid : 0xC0 ≤ id) (pts dts : UInt64) {payload : Bytes}
    (hlen : payload.length ≤ maxPesPayload) (types : List (UInt8 × UInt8)) :
    IsUnit psNext types (pesPacket id pts dts payload) types [pesOf id pts dts payload] := by
  unfold maxPesPayload at hlen
  obtain ⟨flags, n, first, stamps, heq, hn, hle, hfl, -⟩ := pesPacket_eq id pts dts payload
  have hfv : 5 ≤ (encodeTimestamp first pts ++ stamps).length := by
    rw [length_append]
    exact Nat.le_add_right 5 _
  have hb : (encodeTimestamp first pts ++ stamps ++ payload).length = n.toNat + payload.length := by
    rw [length_append, hn]
  have hd : (encodeTimestamp first pts ++ stamps ++ payload).drop n.toNat = payload := by
    rw [← hn, drop_left]
  have hlen' : (encodeTimestamp first pts ++ stamps ++ payload).length + 3 =
    3 + n.toNat + payload.length := by omega
  have hn' : n.toNat ≤ (encodeTimestamp first pts ++ stamps ++ payload).length := by omega
  have hu := isUnit_pesHead hlen' (by omega) hid hn' (by omega) hfl types
  rw [hd, ← heq] at hu
  exact hu

theorem pts_pesOf :
    ∃ p, (pesOf id pts dts payload).pts = some p ∧ p.toNat = pts.toNat % 2 ^ 33 := by
  obtain ⟨flags, n, first, stamps, heq, -, -, -, hf⟩ := pesPacket_eq id pts dts payload
  refine ⟨_, rfl, ?_⟩
  rw [heq, append_assoc, ← append_assoc]
  exact readPts_encodeTimestamp hf pts rfl

/-! ## Frames -/

namespace PsMuxer

/-- The elementary payload of a frame; metadata and AAC configurations have none. -/
def carried (m : PsMuxer) (frame : MediaFrame) : Bytes :=
  if frame.frameType = .metadata ∨ frame.codec = .aac ∧ frame.configFrame then []
  else
    match m.elementaryPayload frame with
    | .ok payload => payload
    | .error _ => []

@[simp] theorem aacConfig_addTrack (m : PsMuxer) (track : PsTrack) :
    (m.addTrack track).aacConfig = m.aacConfig := by
  unfold addTrack
  split <;> rfl

theorem elementaryPayload_addTrack (m : PsMuxer) (track : PsTrack) (frame : MediaFrame) :
    (m.addTrack track).elementaryPayload frame = m.elementaryPayload frame := by
  unfold elementaryPayload
  rw [aacConfig_addTrack]

end PsMuxer

variable {bytes : Bytes} {frame : MediaFrame} {x : UInt8}

/-- A frame that was accepted, with its elementary payload and its bytes in the stream. -/
structure Muxed where
  frame : MediaFrame
  payload : Bytes
  bytes : Bytes

/-- The muxer over a sequence of frames, if it accepts all of them. -/
def muxAll (m : PsMuxer) : List MediaFrame → Option (List Muxed)
  | [] => some []
  | frame :: frames =>
    match m.muxFrame frame with
    | (m', .ok bytes) => (muxAll m' frames).map fun rest => ⟨frame, m.carried frame, bytes⟩ :: rest
    | (_, .error _) => none

/-- The packets of one frame: its payload, its track and its time stamp. -/
structure Carries (muxed : Muxed) (group : List PesPacket) : Prop where
  payload : (group.map (·.data)).flatten = muxed.payload
  track : ∀ pes ∈ group, (psTrack muxed.frame.codec).map (·.streamId) = .ok pes.streamId
  pts : ∀ pes ∈ group, ∃ p, pes.pts = some p ∧ p.toNat = muxed.frame.pts.toNat * 90 % 2 ^ 33

theorem carries_nil : Carries ⟨frame, [], bytes⟩ [] := ⟨rfl, nofun, nofun⟩

theorem le_streamId (track : PsTrack) : 0xC0 ≤ track.streamId := by
  have hal : psStreams.all (fun s => 0xC0 ≤ s.2) = true := by decide
  exact of_decide_eq_true (all_eq_true.mp hal _ track.known)

theorem units_pesPackets {id : UInt8} (hid : 0xC0 ≤ id) (pts dts : UInt64)
    (types : List (UInt8 × UInt8)) : ∀ {cs : List Bytes}, (∀ c ∈ cs, c.length ≤ maxPesPayload) →
      Units psNext types (cs.map (pesPacket id pts dts)) types (cs.map (pesOf id pts dts))
  | [], _ => .nil types
  | c :: _, h =>
    .cons (isUnit_pesPacket hid pts dts (h c mem_cons_self) types)
      (units_pesPackets hid pts dts types fun c hc => h c (mem_cons_of_mem _ hc))

theorem units_headers (scr : UInt64) (due : Bool) (types : List (UInt8 × UInt8)) :
    ∃ us types', us.flatten =
        packHeader scr ++ (if due then systemHeader m.tracks ++ programStreamMap m.tracks else []) ∧
      Units psNext types us types' [] := by
  have hp := fun types => isUnit_header (leadingHeaderLen_packHeader scr) types
  have hs := fun types => isUnit_header (leadingHeaderLen_systemHeader m) types
  have hm := fun types => isUnit_header (leadingHeaderLen_programStreamMap m) types
  cases due with
  | false => exact ⟨[packHeader scr], _, by simp, .cons (hp types) (.nil _)⟩
  | true =>
    exact ⟨[packHeader scr, systemHeader m.tracks, programStreamMap m.tracks], _, by simp,
      .cons (hp types) (.cons (hs _) (.cons (hm _) (.nil _)))⟩

/-- **What the muxer writes for a frame** are units, and their packets carry the frame. -/
theorem muxFrame_spec {m m' : PsMuxer}
    (h : m.muxFrame frame = (m', .ok bytes)) (types : List (UInt8 × UInt8)) :
    ∃ us types' group, us.flatten = bytes ∧ Units psNext types us types' group ∧
      Carries ⟨frame, m.carried frame, bytes⟩ group := by
  unfold PsMuxer.muxFrame at h
  unfold PsMuxer.carried
  split at h
  next hm =>
    cases h
    rw [if_pos (.inl hm)]
    exact ⟨[], types, [], rfl, .nil types, carries_nil⟩
  next hm =>
    split at h
    · cases h
    next track ht =>
      dsimp only at h
      split at h
      next has =>
        rw [if_pos (.inr has)]
        split at h
        · cases h
        · cases h
          exact ⟨[], types, [], rfl, .nil types, carries_nil⟩
      next has =>
        rw [if_neg (fun hor => hor.elim hm has)]
        rw [PsMuxer.elementaryPayload_addTrack] at h
        split at h
        · cases h
        next payload hpy =>
          rw [hpy]
          dsimp only
          split at h
          next he =>
            cases h
            rw [isEmpty_iff.mp he]
            exact ⟨[], types, [], rfl, .nil types, carries_nil⟩
          · cases h
            obtain ⟨us, types', hus, hun⟩ := units_headers (m.addTrack track)
              (timestamp90k frame.dts) ((m.addTrack track).mapDue frame) types
            have hch : ∀ c ∈ chunks maxPesPayload payload, c.length ≤ maxPesPayload :=
              fun c hc => (mem_chunks (by decide) hc).2
            refine ⟨_, _, _, ?_, hun.append (units_pesPackets (le_streamId track)
              (timestamp90k frame.pts) (timestamp90k frame.dts) types' hch), ?_, ?_, ?_⟩
            · rw [flatten_append, hus, ← flatMap_def]
              rfl
            · rw [nil_append, map_map]
              show ((chunks maxPesPayload payload).map fun c => c).flatten = payload
              rw [map_id', flatten_chunks (by decide)]
            · intro pes hps
              obtain ⟨c, -, rfl⟩ := mem_map.mp hps
              rw [ht]
              rfl
            · intro pes hps
              obtain ⟨c, -, rfl⟩ := mem_map.mp hps
              obtain ⟨p, hp, hv⟩ :=
                pts_pesOf track.streamId (timestamp90k frame.pts) (timestamp90k frame.dts) c
              refine ⟨p, hp, ?_⟩
              rw [hv, toNat_timestamp90k, Nat.mod_mod]

theorem muxAll_spec : ∀ {frames : List MediaFrame} {m : PsMuxer} {outs : List Muxed},
    muxAll m frames = some outs → ∀ types : List (UInt8 × UInt8), ∃ us types' groups,
      us.flatten = (outs.map (·.bytes)).flatten ∧
        Units psNext types us types' groups.flatten ∧ Forall₂ Carries outs groups
  | [], m, outs, h, types => by
    obtain rfl := Option.some.inj h
    exact ⟨[], types, [], rfl, .nil types, .nil⟩
  | frame :: frames, m, outs, h, types => by
    rw [muxAll] at h
    split at h
    next m' bytes hm =>
      obtain ⟨rest, hr, rfl⟩ := Option.map_eq_some_iff.mp h
      obtain ⟨us, types₁, group, hus, hun, hc⟩ := muxFrame_spec hm types
      obtain ⟨vs, types₂, groups, hvs, hun', hf⟩ := muxAll_spec hr types₁
      refine ⟨us ++ vs, types₂, group :: groups, ?_, hun.append hun', .cons hc hf⟩
      rw [flatten_append, hus, hvs]
      rfl
    · cases h

/-! ## Speech -/

/-- A frame of G.711 audio. -/
def speech (data : Bytes) (ts : UInt64) : MediaFrame :=
  ⟨0, .audio, .g711a, 0, ts, ts, data, .raw, false, false⟩

theorem speech_known : (0x90, audioStreamId) ∈ psStreams := by decide

def speechTrack : PsTrack := ⟨0x90, audioStreamId, speech_known⟩

/-- A frame that is to be stamped 90. -/
def word : MediaFrame := speech [0x41] 1

def speechMuxer : PsMuxer := .new [.audio .g711a 8000 1]

/-- What the muxer writes for the frame. -/
def wordBytes : Bytes := speechMuxer.muxPayload speechTrack word word.data

/-! ## Pushes -/

/-- **From the muxer to the demuxer.** Pushed in any pieces that fit, what the muxer wrote comes
back frame by frame: payloads, tracks and time stamps, and nothing is left. -/
theorem ps_roundtrip_of_fits {m : PsMuxer} {frames : List MediaFrame} {outs : List Muxed}
    {pieces : List Bytes} (hmux : muxAll m frames = some outs)
    (hcut : pieces.flatten = (outs.map (·.bytes)).flatten) (hfits : Fits .new pieces) :
    (∃ groups, (PsDemuxer.new.pushAll pieces).2 = groups.flatten ∧ Forall₂ Carries outs groups) ∧
      (PsDemuxer.new.pushAll pieces).1.pending = 0 := by
  obtain ⟨us, types', groups, hus, hun, hfr⟩ := muxAll_spec hmux []
  have hal := hun.feedAll_of_append shrinks_psNext psNext_nil (psNext_nil [])
    ((nil_append _).trans (hcut.trans hus.symm))
  have hp := pushAll_eq_feedAll hfits
  have heq := hp.symm.trans hal
  simp only [Option.some.injEq, Prod.mk.injEq] at heq
  refine ⟨⟨groups, heq.2.1, hfr⟩, ?_⟩
  unfold PsDemuxer.pending
  rw [heq.2.2]
  rfl

/-- A frame in two pushes, cut within its system header. -/
theorem ps_roundtrip_of_fits_word :
    (∃ groups, (PsDemuxer.new.pushAll [wordBytes.take 20, wordBytes.drop 20]).2 = groups.flatten ∧
        Forall₂ Carries [⟨word, [0x41], wordBytes⟩] groups) ∧
      (PsDemuxer.new.pushAll [wordBytes.take 20, wordBytes.drop 20]).1.pending = 0 :=
  ps_roundtrip_of_fits (show muxAll speechMuxer [word] = _ from rfl) (by simp) (by decide +kernel)

/-! ## A packet lost -/

theorem carried_speech (data : Bytes) (ts : UInt64) : m.carried (speech data ts) = data := by
  show rawAudioPayload (speech data ts) = data
  unfold rawAudioPayload
  refine if_neg ?_
  rintro ⟨(h | ⟨h, -⟩), -⟩
  · cases h
  · cases h

theorem muxFrame_speech {data : Bytes} (hdt : data ≠ []) (ts : UInt64) :
    m.muxFrame (speech data ts) = ({ m.addTrack speechTrack with mapPending := false },
      .ok ((m.addTrack speechTrack).muxPayload speechTrack (speech data ts) data)) := by
  have hpy : (m.addTrack speechTrack).elementaryPayload (speech data ts) = .ok data :=
    congrArg Except.ok (carried_speech m data ts)
  have ht : psTrack (speech data ts).codec = .ok speechTrack := rfl
  have he : ¬ data.isEmpty := fun h => hdt (isEmpty_iff.mp h)
  -- not a video frame: the headers are due exactly if they are pending
  have hdu : (m.addTrack speechTrack).mapDue (speech data ts) =
    (m.addTrack speechTrack).mapPending := Bool.or_false _
  have hpn : (if (m.addTrack speechTrack).mapPending then false
      else (m.addTrack speechTrack).mapPending) = false := by
    cases (m.addTrack speechTrack).mapPending <;> rfl
  unfold PsMuxer.muxFrame
  rw [if_neg (show (speech data ts).frameType ≠ .metadata from nofun), ht]
  dsimp only
  rw [if_neg (fun h => nomatch (show CodecId.g711a = .aac from h.1)), hpy]
  dsimp only
  rw [if_neg he, hdu, hpn]

theorem psNext_skips (hx : x ≠ 0) (types : List (UInt8 × UInt8)) {t : Bytes}
    (ht : t ≠ []) : psNext types (x :: 0 :: 0 :: 1 :: 0xBA :: t) = .take types []
    (0 :: 0 :: 1 :: 0xBA :: t) := by
  have hlen := length_pos_iff.mpr ht
  have hth : (x :: 0 :: 0 :: 1 :: 0xBA :: t).take 3 ≠ [0, 0, 1] := by
    intro h
    exact hx (List.cons.inj h).1
  have hfr : (x :: 0 :: 0 :: 1 :: 0xBA :: t).take 4 ≠ [0, 0, 0, 1] := by
    intro h
    exact hx (List.cons.inj h).1
  have hn : leadingHeaderLen (x :: 0 :: 0 :: 1 :: 0xBA :: t) = none := if_pos fun h => hth h.2
  have hp : parseOnePes (x :: 0 :: 0 :: 1 :: 0xBA :: t) = .error .invalidStartCode := by
    unfold parseOnePes
    simp only [length_cons]
    rw [if_neg (by omega), parseOnePesFrom, drop_zero]
    simp only [length_cons]
    rw [if_neg (by omega), if_pos hth]
  have hfn : findStartCode (x :: 0 :: 0 :: 1 :: 0xBA :: t) 0 = some 1 := by
    unfold findStartCode
    simp only [length_cons, drop_zero]
    rw [scanStartCode, if_neg (by simp only [length_cons]; omega), if_neg hth,
      if_neg fun h => hfr h.2.1, scanStartCode, drop_one, tail_cons]
    rfl
  simp only [psNext, hn, hp, hfn]
  rfl

theorem psNext_skips_packHeader (hx : x ≠ 0) (types : List (UInt8 × UInt8)) (scr : UInt64)
    (t : Bytes) : psNext types (x :: (packHeader scr ++ t)) = .take types []
    (packHeader scr ++ t) := by
  obtain ⟨body, last, hp, -, -⟩ := packHeader_spec scr
  rw [hp]
  exact psNext_skips hx types (by simp)

/-- A frame with the time stamp 0, which fills the buffer of the demuxer. -/
def silence : MediaFrame := speech (replicate 4193379 0xD5) 0

def silenceBytes : Bytes := { speechMuxer with mapPending := false }.muxPayload speechTrack silence
  silence.data

theorem silence_data_ne : silence.data ≠ [] := by
  exact cons_ne_nil _ _

theorem muxAll_speech : muxAll speechMuxer [word, silence] =
    some [⟨word, [0x41], wordBytes⟩, ⟨silence, silence.data, silenceBytes⟩] := by
  rfl

theorem length_flatMap_pesPacket (ts : UInt64) (cs : List Bytes) :
    (cs.flatMap (pesPacket id ts ts)).length = cs.flatten.length + 14 * cs.length := by
  induction cs with
  | nil => rfl
  | cons c cs ih =>
    have hc : (pesPacket id ts ts c).length = c.length + 14 := by
      simp only [pesPacket, encodeTimestamp, ne_eq, not_true_eq_false, if_false, length_append,
        length_cons, length_nil, length_be16]
      omega
    rw [flatMap_cons, length_append, flatten_cons, length_append, length_cons]
    omega

theorem silenceBytes_eq : silenceBytes = packHeader 0 ++
    (chunks maxPesPayload silence.data).flatMap (pesPacket audioStreamId 0 0) := by
  show packHeader 0 ++ [] ++ _ = _
  rw [append_nil]
  rfl

theorem length_silenceBytes : silenceBytes.length = 4194303 := by
  have hd : silence.data.length = 4193379 := length_replicate
  have hp : (packHeader 0).length = 14 := by decide +kernel
  rw [silenceBytes_eq, length_append, hp, length_flatMap_pesPacket,
    flatten_chunks (by decide), length_chunks (by decide), hd]
  rfl

/-- The first push is the first frame without its last byte. -/
def firstPush : Bytes := wordBytes.dropLast

/-- The state after the first push: the head of a packet waits for its payload. -/
def afterFirst : PsDemuxer := (PsDemuxer.new.push firstPush).drainPes.1

theorem push_firstPush : (PsDemuxer.new.push firstPush).drainPes = (afterFirst, []) ∧
    firstPush ++ [0x41] = wordBytes ∧ afterFirst.buf.length = 14 ∧ firstPush.length ≤ maxBuf := by
  decide +kernel

theorem push_silence : afterFirst.push (0x41 :: silenceBytes) =
    { afterFirst with buf := 0x41 :: silenceBytes } := by
  unfold PsDemuxer.push
  rw [length_cons, length_silenceBytes, push_firstPush.2.2.1]
  show ({ afterFirst with buf := afterFirst.buf.drop 14 ++ _ } : PsDemuxer) = _
  rw [drop_eq_nil_of_le (le_of_eq push_firstPush.2.2.1), nil_append]

/-- Two pushes, the second of which takes the place of what was pending. -/
theorem pushAll_two {d : PsDemuxer} {first second : Bytes}
    {group : List PesPacket} (hfr : (PsDemuxer.new.push first).drainPes = (d, []))
    (hp : d.push second = { d with buf := second })
    (hfd : feed psNext d.streamTypes second = some (types, group, [])) :
    (PsDemuxer.new.pushAll [first, second]).2 = group := by
  have hd := drainPes_eq_feed (d.push second)
  rw [hp] at hd
  have heq := hd.symm.trans hfd
  simp only [Option.some.injEq, Prod.mk.injEq] at heq
  simp only [PsDemuxer.pushAll, hfr, hp, append_nil]
  exact heq.2.1

/-- **A packet lost.** Two pieces of at most 4 MiB; the second one drives the beginning of the
first packet out of the buffer. -/
theorem ps_roundtrip_loses_packet : muxAll speechMuxer [word, silence] =
        some [⟨word, [0x41], wordBytes⟩, ⟨silence, silence.data, silenceBytes⟩] ∧
      [firstPush, 0x41 :: silenceBytes].flatten = [wordBytes, silenceBytes].flatten ∧
      (∀ piece ∈ [firstPush, 0x41 :: silenceBytes], piece.length ≤ maxBuf) ∧
      ¬ ∃ groups, (PsDemuxer.new.pushAll [firstPush, 0x41 :: silenceBytes]).2 = groups.flatten ∧
      Forall₂ Carries
          [⟨word, [0x41], wordBytes⟩, ⟨silence, silence.data, silenceBytes⟩] groups := by
  obtain ⟨hfr, hb, -, hle⟩ := push_firstPush
  refine ⟨muxAll_speech, ?_, ?_, ?_⟩
  · rw [← hb]
    simp
  · intro piece hpc
    rcases mem_cons.mp hpc with rfl | hpc
    · exact hle
    · rw [mem_singleton.mp hpc, length_cons, length_silenceBytes]
      exact le_refl maxBuf
  · -- only the second frame comes back
    have hm : ({ speechMuxer with mapPending := false } : PsMuxer).muxFrame silence =
        (_, .ok silenceBytes) := muxFrame_speech _ silence_data_ne 0
    obtain ⟨us, types', group, hus, hun, hc⟩ := muxFrame_spec hm afterFirst.streamTypes
    have hfd : feed psNext afterFirst.streamTypes (0x41 :: silenceBytes) =
        some (types', group, []) := by
      have hs : psNext afterFirst.streamTypes (0x41 :: silenceBytes) = .take afterFirst.streamTypes
          [] silenceBytes := by
        rw [silenceBytes_eq]
        exact psNext_skips_packHeader (by decide) _ 0 _
      rw [feed_of_take shrinks_psNext hs, Fed.prepend_nil, ← hus]
      exact hun.feed_flatten shrinks_psNext psNext_nil
    have ho := pushAll_two hfr push_silence hfd
    rw [ho]
    rintro ⟨groups, hgr, hal⟩
    cases hal with
    | @cons _ g _ gs hg hgs =>
      cases g with
      | nil => cases hg.payload
      | cons pes g =>
        -- its time stamp would be 90 and 0
        obtain ⟨p, hp, hv⟩ := hg.pts pes mem_cons_self
        obtain ⟨p', hp', hv'⟩ := hc.pts pes (by rw [hgr]; exact mem_cons_self)
        rw [hp] at hp'
        rw [Option.some.inj hp', hv'] at hv
        exact absurd hv (by decide)

end MediaKit.Ps
