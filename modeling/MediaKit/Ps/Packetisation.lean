import MediaKit.Ps.Demuxer

/-!
# Program streams in pieces

What `PsDemuxer` makes of damaged input should not depend on how it arrives. The measure
is a careful reader (`carefulNext`) that passes over the same bytes as `find_start_code`
does but decides nothing before it has to: it keeps the beginning of a start code, and it
waits for the bytes of a time stamp. It is decided by the bytes it saw (`extends_carefulNext`), so
cuts cannot be observed in it.

The demuxer is the careful reader but for two rounds of its loop.
  * When there is an error and no start code, the buffer is cleared, and with it the
    beginning of a start code at its end (`torn`).
  * A packet of fewer than 14 bytes is returned as soon as it is complete, and its time stamp
    is read from the bytes behind it if these have arrived already (`hasty`).
As long as no round is one of these where more bytes are to come, the packets are those of
the whole (`ps_packetisation_of_safeCuts`).
-/

namespace MediaKit.Ps

open Lib Gb28181 List Option

/-! ## The careful reader -/

/-- The packet at the front is to have a time stamp, and some of its bytes are yet to come. -/
def Premature (b : Bytes) : Prop := (2 : UInt8) ≤ (b.getD 7 0 >>> 6) &&& 0x03 ∧ b.length < 14

instance (b : Bytes) : Decidable (Premature b) := inferInstanceAs (Decidable (_ ∧ _))

/-- One attempt of the careful reader. -/
def carefulNext (_ : Unit) (b : Bytes) : Attempt Unit UInt8 PesPacket :=
  if b <+: [0, 0, 1] then .wait
  else if b.take 3 ≠ [0, 0, 1] then .take () [] (b.drop 1)
  else if IsHeaderId (b.getD 3 0) then
    match leadingHeaderLen b with
    | some n => .take () [] (b.drop n)
    | none => .wait
  else if 0xC0 ≤ b.getD 3 0 then
    match parsePesPacket b with
    | .ok (some (pes, n)) => if Premature b then .wait else .take () [pes] (b.drop n)
    | .ok none => .wait
    | .error _ => .take () [] (b.drop 1)
  else .take () [] (b.drop 4)

section Branches

variable {b : Bytes}

theorem not_isPrefix_of_length (h : 4 ≤ b.length) : ¬ b <+: [0, 0, 1] := by
  intro hp
  have hle := hp.length_le
  simp only [length_cons, length_nil] at hle
  omega

theorem startsCode_of_take (h : ¬ b <+: [0, 0, 1]) (ht : b.take 3 = [0, 0, 1]) : StartsCode b := by
  refine ⟨?_, ht⟩
  apply Classical.byContradiction
  intro hlt
  have hal : b.take 3 = b := take_of_length_le (by omega)
  exact h (hal ▸ ht ▸ prefix_refl _)

theorem careful_garbage (h : ¬ b <+: [0, 0, 1]) (ht : b.take 3 ≠ [0, 0, 1]) :
    carefulNext () b = .take () [] (b.drop 1) := by
  unfold carefulNext
  rw [if_neg h, if_pos ht]

theorem careful_header (hid : IsHeaderId (b.getD 3 0)) {n : Nat} (hn : leadingHeaderLen b = some n)
    (h : StartsCode b) : carefulNext () b = .take () [] (b.drop n) := by
  unfold carefulNext
  rw [if_neg (not_isPrefix_of_length h.1), if_neg (not_not_intro h.2), if_pos hid, hn]

theorem careful_header_waits (h : StartsCode b) (hid : IsHeaderId (b.getD 3 0))
    (hn : leadingHeaderLen b = none) : carefulNext () b = .wait := by
  unfold carefulNext
  rw [if_neg (not_isPrefix_of_length h.1), if_neg (not_not_intro h.2), if_pos hid, hn]

/-- At a packet, what comes of it is what `parse_pes_packet` says. -/
theorem careful_pes (h : StartsCode b) (hid : 0xC0 ≤ b.getD 3 0) : carefulNext () b =
    match parsePesPacket b with
    | .ok (some (pes, n)) => if Premature b then .wait else .take () [pes] (b.drop n)
    | .ok none => .wait
    | .error _ => .take () [] (b.drop 1) := by
  unfold carefulNext
  rw [if_neg (not_isPrefix_of_length h.1), if_neg (not_not_intro h.2), if_neg (not_isHeaderId hid),
    if_pos hid]

theorem careful_other (h : StartsCode b) (hid : ¬ IsHeaderId (b.getD 3 0))
    (hl : ¬ 0xC0 ≤ b.getD 3 0) : carefulNext () b = .take () [] (b.drop 4) := by
  unfold carefulNext
  rw [if_neg (not_isPrefix_of_length h.1), if_neg (not_not_intro h.2), if_neg hid, if_neg hl]

end Branches

variable {fuel : Nat} {data r u : Bytes} {e : PsError} {o : List PesPacket}

theorem carefulNext_ne_crash (s : Unit) (b : Bytes) : carefulNext s b ≠ .crash := by
  unfold carefulNext
  split
  · nofun
  split
  · nofun
  split
  · split <;> nofun
  split
  · split
    · split <;> nofun
    · nofun
    · nofun
  · nofun

theorem parsePesPacket_of_short (h : u.length < 9) : parsePesPacket u = .ok none := by
  unfold parsePesPacket
  rw [if_pos h]

theorem length_of_parsePesPacket {q : PesPacket × Nat}
    (h : parsePesPacket u = .ok (some q)) : 9 ≤ u.length := by
  apply Classical.byContradiction
  intro hlt
  rw [parsePesPacket_of_short (by omega)] at h
  cases h

/-- The reader takes bytes, and a packet only where there are nine. -/
theorem of_carefulNext {s s' : Unit} {b : Bytes} (h : carefulNext s b = .take s' o r) :
    r.length < b.length ∧ (o = [] ∨ 9 ≤ b.length) := by
  unfold carefulNext at h
  split at h
  · cases h
  next hp =>
    have hpos : 0 < b.length := length_pos_iff.mpr fun hnil => hp (hnil ▸ nil_prefix)
    have hd : ∀ {n}, 0 < n → (b.drop n).length < b.length := by
      intro n hn
      rw [length_drop]
      omega
    split at h
    · cases h
      exact ⟨hd Nat.one_pos, .inl rfl⟩
    split at h
    · split at h
      next hn =>
        cases h
        exact ⟨hd (leadingHeaderLen_le hn).1, .inl rfl⟩
      · cases h
    split at h
    · split at h
      next hpr =>
        have hlen := length_of_parsePesPacket hpr
        split at h
        · cases h
        · cases h
          exact ⟨hd (Nat.zero_lt_of_lt (parsePesPacket_le hpr).1), .inr hlen⟩
      · cases h
      · cases h
        exact ⟨hd Nat.one_pos, .inl rfl⟩
    · cases h
      exact ⟨hd (by decide), .inl rfl⟩

theorem shrinks_carefulNext : Shrinks carefulNext := fun _ _ _ _ _ h => (of_carefulNext h).1

/-! ## Decided by the bytes it saw -/

theorem scanStartCode_append (t : Bytes) {fuel' i k : Nat} (hle : fuel ≤ fuel')
    (h : scanStartCode fuel i data = some k) : scanStartCode fuel' i (data ++ t) = some k := by
  fun_induction scanStartCode fuel i data generalizing fuel' with
  | case1 => cases h
  | case2 => cases h
  | case3 fuel i data hlen ht hid =>
    obtain ⟨m, rfl⟩ := Nat.exists_eq_add_of_le' (Nat.one_le_of_lt hle)
    rw [scanStartCode, if_neg (by rw [length_append]; omega), take_append_of_le_length (by omega),
      if_pos ht, getD_append_left data t (by omega), if_pos hid, h]
  | case4 fuel i data hlen ht hid ih =>
    obtain ⟨m, rfl⟩ := Nat.exists_eq_add_of_le' (Nat.one_le_of_lt hle)
    rw [scanStartCode, if_neg (by rw [length_append]; omega), take_append_of_le_length (by omega),
      if_pos ht,
      getD_append_left data t (by omega), if_neg hid, drop_append_of_le_length (by omega)]
    exact ih (by omega) h
  | case5 fuel i data hlen ht hfr =>
    obtain ⟨m, rfl⟩ := Nat.exists_eq_add_of_le' (Nat.one_le_of_lt hle)
    rw [scanStartCode, if_neg (by rw [length_append]; omega), take_append_of_le_length (by omega),
      if_neg ht, take_append_of_le_length (by omega), getD_append_left data t hfr.1,
      if_pos ⟨by rw [length_append]; omega, hfr.2⟩, h]
  | case6 fuel i data hlen ht hfr ih =>
    obtain ⟨m, rfl⟩ := Nat.exists_eq_add_of_le' (Nat.one_le_of_lt hle)
    -- the scan goes on behind this byte, so there are at least five
    have hfv := scanStartCode_le h
    rw [length_drop] at hfv
    rw [scanStartCode, if_neg (by rw [length_append]; omega), take_append_of_le_length (by omega),
      if_neg ht,
      take_append_of_le_length (by omega), getD_append_left data t (by omega), if_neg fun hc =>
        hfr ⟨by omega, hc.2⟩,
      drop_append_of_le_length (by omega)]
    exact ih (by omega) h

theorem findStartCode_append {start k : Nat} (h : findStartCode data start = some k)
    (t : Bytes) : findStartCode (data ++ t) start = some k := by
  have hle := findStartCode_le h
  unfold findStartCode at h ⊢
  rw [drop_append_of_le_length (by omega)]
  exact scanStartCode_append t (by rw [length_append]; omega) h

theorem parsePesPacket_append {pes : PesPacket} {n : Nat}
    (h : parsePesPacket u = .ok (some (pes, n))) (hp : ¬ Premature u) (t : Bytes) :
    parsePesPacket (u ++ t) = .ok (some (pes, n)) := by
  have hlen := length_of_parsePesPacket h
  have hpt : ((2 : UInt8) ≤ (u.getD 7 0 >>> 6) &&& 0x03 ∧ 14 ≤ (u ++ t).length) ↔
      ((2 : UInt8) ≤ (u.getD 7 0 >>> 6) &&& 0x03 ∧ 14 ≤ u.length) := by
    rw [length_append]
    refine ⟨fun hc => ⟨hc.1, ?_⟩, fun hc => ⟨hc.1, by omega⟩⟩
    exact Nat.le_of_not_lt fun hlt => hp ⟨hc.1, hlt⟩
  have hr : (if (2 : UInt8) ≤ (u.getD 7 0 >>> 6) &&& 0x03 ∧ 14 ≤ (u ++ t).length then
        some (readPts (u ++ t)) else none) =
      if (2 : UInt8) ≤ (u.getD 7 0 >>> 6) &&& 0x03 ∧ 14 ≤ u.length then some (readPts u)
        else none := by
    rw [if_congr hpt rfl rfl]
    split
    next hc => rw [readPts_append hc.2]
    · rfl
  unfold parsePesPacket at h ⊢
  dsimp only at h ⊢
  rw [if_neg (by omega)] at h
  rw [if_neg (by rw [length_append]; omega), getD_append_left u t (by omega),
    take_drop_append u t (by omega), getD_append_left u t (by omega),
    getD_append_left u t (by omega), getD_append_left u t (by omega), hr]
  split at h
  · cases h
  split at h
  · cases h
  split at h
  · cases h
  next hd hm he =>
    rw [if_neg (by rw [length_append]; omega), if_neg hm, if_neg (by rw [length_append]; omega)]
    by_cases hz : ofBe ((u.drop 4).take 2) = 0
    · rw [if_pos hz] at h ⊢
      cases hf : findStartCode u (9 + (u.getD 8 0).toNat) with
      | none => rw [hf] at h; cases h
      | some sc =>
        have hle := findStartCode_le hf
        rw [hf] at h
        rw [findStartCode_append hf t]
        simp only [bind_some] at h ⊢
        split at h
        · cases h
        next hsc =>
          split at hsc
          · obtain rfl := some.inj hsc
            rw [take_append_of_le_length (by omega)]
            exact h
          · cases hsc
    · rw [if_neg hz] at h ⊢
      dsimp only at h ⊢
      rw [take_append_of_le_length (by omega)]
      exact h

theorem parsePesPacket_append_error (h : parsePesPacket u = .error e)
    (t : Bytes) : parsePesPacket (u ++ t) = .error e := by
  unfold parsePesPacket at h ⊢
  dsimp only at h ⊢
  split at h
  · cases h
  split at h
  · cases h
  split at h
  next hlen hd hm =>
    rw [if_neg (by rw [length_append]; omega), take_drop_append u t (by omega),
      if_neg (by rw [length_append]; omega), getD_append_left u t (by omega), if_pos hm, h]
  · split at h
    · cases h
    · split at h
      · cases h
      · cases h

/-- **The careful reader is decided by the bytes it saw.** -/
theorem extends_carefulNext : Extends carefulNext := by
  intro s b t
  refine ⟨fun s' o r h => ?_, fun h => absurd h (carefulNext_ne_crash s b)⟩
  unfold carefulNext at h
  split at h
  · cases h
  next hp =>
    have hpos : 1 ≤ b.length := length_pos_iff.mpr fun hnil => hp (hnil ▸ nil_prefix)
    rw [carefulNext, if_neg fun hc => hp ((prefix_append b t).trans hc)]
    split at h
    next hcd =>
      have hcd' : (b ++ t).take 3 ≠ [0, 0, 1] := by
        intro hc
        have hpre : [0, 0, 1] <+: b ++ t := hc ▸ take_prefix 3 (b ++ t)
        rcases prefix_or_prefix_of_prefix (prefix_append b t) hpre with hle | hle
        · exact hp hle
        · exact hcd (prefix_iff_eq_take.mp hle).symm
      cases h
      rw [if_pos hcd', drop_append_of_le_length hpos]
    next hcd =>
      have hlen := (startsCode_of_take hp (Classical.not_not.mp hcd)).1
      rw [take_append_of_le_length (by omega), if_neg hcd, getD_append_left b t hlen]
      split at h
      next hid =>
        rw [if_pos hid]
        split at h
        next hn =>
          cases h
          rw [leadingHeaderLen_append hn t, ← drop_append_of_le_length (leadingHeaderLen_le hn).2]
        · cases h
      next hid =>
        rw [if_neg hid]
        split at h
        next hps =>
          rw [if_pos hps]
          split at h
          next hpr =>
            split at h
            · cases h
            next hpre =>
              cases h
              have hpre' : ¬ Premature (b ++ t) := by
                rintro ⟨hf, hs⟩
                have hni := length_of_parsePesPacket hpr
                rw [getD_append_left b t (by omega)] at hf
                rw [length_append] at hs
                exact hpre ⟨hf, by omega⟩
              rw [parsePesPacket_append hpr hpre t,
                ← drop_append_of_le_length (parsePesPacket_le hpr).2]
              exact if_neg hpre'
          · cases h
          next hpr =>
            cases h
            rw [parsePesPacket_append_error hpr t, ← drop_append_of_le_length hpos]
        next hps =>
          cases h
          rw [if_neg hps, drop_append_of_le_length hlen]

/-! ## The scan for a start code -/

/-- What the careful reader makes of some bytes in one read. -/
def carefully (b : Bytes) : Fed Unit UInt8 PesPacket := feed carefulNext () b

variable {b : Bytes}

theorem carefully_of_take (h : carefulNext () b = .take () o r) :
    carefully b = Fed.prepend o (carefully r) := feed_of_take shrinks_carefulNext h

theorem carefully_of_skip (h : carefulNext () b = .take () [] r) : carefully b = carefully r := by
  rw [carefully_of_take h, Fed.prepend_nil]

theorem carefully_of_wait (h : carefulNext () b = .wait) : carefully b = some ((), [], b) :=
  feed_of_wait h

/-- The beginning of a start code at the end of the bytes, as the scan passes over them. -/
def openCode : Nat → Bytes → Bytes
  | 0, data => data
  | fuel + 1, data =>
    if data <+: [0, 0, 1] then data
    else if data.take 3 = [0, 0, 1] then openCode fuel (data.drop 4)
    else openCode fuel (data.drop 1)

theorem carefully_of_short : ∀ {fuel : Nat} {b : Bytes}, b.length < 4 → b.length ≤ fuel →
    carefully b = some ((), [], openCode fuel b) ∧ openCode fuel b <+: [0, 0, 1]
  | 0, b, _, hf => by
    obtain rfl := length_eq_zero_iff.mp (Nat.le_zero.mp hf)
    exact ⟨carefully_of_wait rfl, nil_prefix⟩
  | fuel + 1, b, hlen, hf => by
    rw [openCode]
    split
    next hp =>
      exact ⟨carefully_of_wait (if_pos hp), hp⟩
    next hp =>
      have hcd : b.take 3 ≠ [0, 0, 1] := fun hc => Nat.not_lt.mpr (startsCode_of_take hp hc).1 hlen
      rw [if_neg hcd, carefully_of_skip (careful_garbage hp hcd)]
      exact carefully_of_short (by rw [length_drop]; omega) (by rw [length_drop]; omega)

theorem careful_of_not_entity (h : StartsCode b) (hid : ¬ isPsEntity (b.getD 3 0)) :
    carefulNext () b = .take () [] (b.drop 4) := by
  have hl : ∀ id : UInt8, ¬ isPsEntity id → ¬ IsHeaderId id ∧ ¬ 0xC0 ≤ id :=
    forall_octet (by decide +kernel)
  exact careful_other h (hl _ hid).1 (hl _ hid).2

theorem carefully_of_scan {i k : Nat} (h : scanStartCode fuel i data = some k) :
    carefully data = carefully (data.drop (k - i)) := by
  fun_induction scanStartCode fuel i data with
  | case1 => cases h
  | case2 => cases h
  | case3 | case5 =>
    obtain rfl := some.inj h
    rw [Nat.sub_self, drop_zero]
  | case4 fuel i data hlen ht hid ih =>
    have hle := (scanStartCode_le h).1
    have hs : StartsCode data := ⟨Nat.le_of_not_lt hlen, ht⟩
    rw [carefully_of_skip (careful_of_not_entity hs hid), ih h, drop_drop, show 4 + (k - (i + 4)) =
      k - i by omega]
  | case6 fuel i data hlen ht _ ih =>
    have hle := (scanStartCode_le h).1
    rw [carefully_of_skip (careful_garbage (not_isPrefix_of_length (Nat.le_of_not_lt hlen)) ht),
      ih h, drop_drop,
      show 1 + (k - (i + 1)) = k - i by omega]

/-- Where the scan finds nothing, at most the beginning of a start code is left. -/
theorem carefully_of_scan_none {i : Nat} (hf : data.length ≤ fuel)
    (h : scanStartCode fuel i data = none) :
    carefully data = some ((), [], openCode fuel data) ∧ openCode fuel data <+: [0, 0, 1] := by
  fun_induction scanStartCode fuel i data with
  | case1 => exact carefully_of_short (by omega) hf
  | case2 _ _ _ hlen => exact carefully_of_short hlen hf
  | case3 => cases h
  | case4 fuel i data hlen ht hid ih =>
    have hs : StartsCode data := ⟨Nat.le_of_not_lt hlen, ht⟩
    rw [openCode, if_neg (not_isPrefix_of_length hs.1), if_pos ht,
      carefully_of_skip (careful_of_not_entity hs hid)]
    exact ih (by rw [length_drop]; omega) h
  | case5 => cases h
  | case6 fuel i data hlen ht _ ih =>
    have hp := not_isPrefix_of_length (Nat.le_of_not_lt hlen)
    rw [openCode, if_neg hp, if_neg ht, carefully_of_skip (careful_garbage hp ht)]
    exact ih (by rw [length_drop]; omega) h

theorem carefully_of_find {start k : Nat} (h : findStartCode data start = some k) :
    carefully (data.drop start) = carefully (data.drop k) := by
  have hle := (findStartCode_le h).1
  rw [carefully_of_scan h, drop_drop, show start + (k - start) = k by omega]

/-! ## The search for a packet -/

/-- Where the loop of `parse_one_pes` comes to a packet. -/
def packetStart : Nat → Bytes → Nat → Option Nat
  | 0, _, _ => none
  | fuel + 1, data, pos =>
    let code := data.drop pos
    if ¬ StartsCode code then none
    else if code.getD 3 0 = 0xBA then
      packetStart fuel data (pos + (14 + (code.getD 13 0 &&& 0x07).toNat))
    else if code.getD 3 0 = 0xBB ∨ code.getD 3 0 = 0xBC then
      packetStart fuel data (pos + (6 + ofBe ((code.drop 4).take 2)))
    else if 0xC0 ≤ code.getD 3 0 then some pos
    else (findStartCode data (pos + 4)).bind (packetStart fuel data)

/-- A packet that is complete but for the bytes of its time stamp. -/
def extra (b : Bytes) : List PesPacket :=
  if StartsCode b ∧ 0xC0 ≤ b.getD 3 0 then
    match parsePesPacket b with
    | .ok (some (pes, _)) => [pes]
    | _ => []
  else []

theorem extra_of_short (h : b.length < 9) : extra b = [] := by
  unfold extra
  rw [parsePesPacket_of_short h]
  split <;> rfl

theorem extra_of_isPrefix (h : b <+: [0, 0, 1]) : extra b = [] := by
  have hle := h.length_le
  exact extra_of_short (lt_of_le_of_lt hle (by decide))

/-- The careful reader takes no packet, and none is complete but for its time stamp. -/
def Nothing (b : Bytes) : Prop := ∃ r, carefully b = some ((), [], r) ∧ extra r = []

theorem nothing_of_wait (h : carefulNext () b = .wait) (he : extra b = []) : Nothing b :=
  ⟨b, carefully_of_wait h, he⟩

theorem nothing_of_header (h : StartsCode b) (hid : IsHeaderId (b.getD 3 0))
    (hn : leadingHeaderLen b = none) : Nothing b :=
  nothing_of_wait (careful_header_waits h hid hn) (if_neg fun hc => not_isHeaderId hc.2 hid)

theorem nothing_of_length (h : b.length < 9) : Nothing b := by
  induction hn : b.length using Nat.strongRecOn generalizing b with
  | ind n ih =>
    subst hn
    cases hnx : carefulNext () b with
    | wait => exact nothing_of_wait hnx (extra_of_short h)
    | crash => exact absurd hnx (carefulNext_ne_crash () b)
    | take u o r =>
      have hlt := shrinks_carefulNext () b u o r hnx
      obtain rfl : o = [] := (of_carefulNext hnx).2.resolve_right (by omega)
      obtain ⟨r', hr', he⟩ := ih r.length hlt (b := r) (by omega) rfl
      exact ⟨r', (carefully_of_skip hnx).trans hr', he⟩

/-- What the loop of `parse_one_pes` finds, in terms of the careful reader. -/
def Located (data : Bytes) (pos : Nat) (start : Option Nat) :
    Except PsError (Option (PesPacket × Nat)) → Prop
  | .ok none => Nothing (data.drop pos)
  | .ok (some (pes, n)) => ∃ q m, start = some q ∧ n = q + m ∧
      parsePesPacket (data.drop q) = .ok (some (pes, m)) ∧ StartsCode (data.drop q) ∧
      0xC0 ≤ (data.drop q).getD 3 0 ∧ carefully (data.drop pos) = carefully (data.drop q)
  | .error _ => True

/-- The loop goes on from a position that the careful reader comes to as well. -/
theorem Located.of_eq {pos pos' : Nat} {start : Option Nat}
    {result : Except PsError (Option (PesPacket × Nat))}
    (h : carefully (data.drop pos) = carefully (data.drop pos'))
    (hl : Located data pos' start result) : Located data pos start result := by
  cases result with
  | error e => trivial
  | ok found =>
    cases found with
    | none =>
      obtain ⟨r, hr, hex⟩ := hl
      exact ⟨r, h.trans hr, hex⟩
    | some p =>
      obtain ⟨q, m, hs, hn, hp, hc, hid, heq⟩ := hl
      exact ⟨q, m, hs, hn, hp, hc, hid, h.trans heq⟩

theorem packetStart_header {pos n : Nat} (hn : leadingHeaderLen (data.drop pos) = some n) :
    packetStart (fuel + 1) data pos = packetStart fuel data (pos + n) := by
  obtain ⟨rfl, hc, hid, -⟩ := leadingHeaderLen_eq_some hn
  rw [packetStart, headerSize]
  rw [if_neg (not_not_intro hc)]
  by_cases hba : (data.drop pos).getD 3 0 = 0xBA
  · rw [if_pos hba, if_pos hba]
  · rw [if_neg hba, if_neg hba, if_pos (hid.resolve_left hba)]

/-- The search of `parse_one_pes` passes over what the careful reader passes over. -/
theorem parseOnePesFrom_located : ∀ {data : Bytes} {pos : Nat}, data.length < pos + fuel →
    Located data pos (packetStart fuel data pos) (parseOnePesFrom fuel data pos) := by
  induction fuel with
  | zero =>
    intro data pos hfl
    exact nothing_of_length (by rw [length_drop]; omega)
  | succ fuel ih =>
    intro data pos hfl
    by_cases hlen : data.length < pos + 4
    · rw [parseOnePesFrom, if_pos hlen]
      exact nothing_of_length (by rw [length_drop]; omega)
    by_cases ht : (data.drop pos).take 3 = [0, 0, 1]
    · have hs : StartsCode (data.drop pos) := ⟨by rw [length_drop]; omega, ht⟩
      by_cases hid : IsHeaderId ((data.drop pos).getD 3 0)
      · rw [parseOnePesFrom_header hs hid]
        cases hn : leadingHeaderLen (data.drop pos) with
        | none => exact nothing_of_header hs hid hn
        | some n =>
          have hpos := (leadingHeaderLen_le hn).1
          rw [packetStart_header hn]
          refine (ih (by omega)).of_eq ?_
          rw [carefully_of_skip (careful_header hid hn hs), drop_drop]
      obtain ⟨hba, hbb⟩ := not_or.mp hid
      rw [parseOnePesFrom, packetStart, if_neg hlen]
      rw [if_neg (not_not_intro ht), if_neg (not_not_intro hs), if_neg hba, if_neg hba, if_neg hbb,
        if_neg hbb]
      by_cases hps : 0xC0 ≤ (data.drop pos).getD 3 0
      · rw [if_pos hps, if_pos hps]
        rcases hpr : parsePesPacket (data.drop pos) with e | _ | p
        · trivial
        · refine nothing_of_wait ?_ ?_
          · rw [careful_pes hs hps, hpr]
          · rw [extra, if_pos ⟨hs, hps⟩, hpr]
        · exact ⟨pos, p.2, rfl, rfl, hpr, hs, hps, rfl⟩
      rw [if_neg hps, if_neg hps]
      have hd : carefully (data.drop pos) = carefully (data.drop (pos + 4)) := by
        rw [carefully_of_skip (careful_other hs hid hps), drop_drop]
      cases hf : findStartCode data (pos + 4) with
      | none =>
        obtain ⟨hno, hpf⟩ := carefully_of_scan_none
          (by rw [length_drop]; exact Nat.sub_le _ _) hf
        exact ⟨_, hd.trans hno, extra_of_isPrefix hpf⟩
      | some next =>
        have hle := findStartCode_le hf
        refine Located.of_eq (hd.trans (carefully_of_find hf)) ?_
        exact ih (by omega)
    · rw [parseOnePesFrom, if_neg hlen]
      rw [if_pos ht]
      trivial

/-! ## The rounds of the demuxer -/

/-- There is no start code, and the beginning of one is dropped with the rest. -/
def torn (b : Bytes) : Bool :=
  match parseOnePes b, findStartCode b 0 with
  | .error _, none => !(openCode b.length b).isEmpty
  | _, _ => false

/-- A packet is returned before the bytes of its time stamp have come. -/
def hasty (b : Bytes) : Bool :=
  match parseOnePes b, packetStart (b.length + 1) b 0 with
  | .ok (some _), some q => decide (Premature (b.drop q))
  | _, _ => false

theorem parseOnePes_located : Located b 0 (packetStart (b.length + 1) b 0) (parseOnePes b) := by
  unfold parseOnePes
  split
  · exact nothing_of_length (by rw [length_drop]; omega)
  · exact parseOnePesFrom_located (by omega)

/-- Behind the first byte of a start code the careful reader comes to the bytes behind it. -/
theorem carefully_tail_of_startsCode (h : StartsCode b) (hid : b.getD 3 0 ≠ 0) :
    carefully (b.drop 1) = carefully (b.drop 4) := by
  obtain ⟨id, rest, rfl⟩ : ∃ id rest, b = 0 :: 0 :: 1 :: id :: rest := by
    have hsp := take_append_drop 3 b
    rw [h.2] at hsp
    cases hr : b.drop 3 with
    | nil =>
      have hlen := congrArg List.length hr
      have := h.1
      rw [length_drop, length_nil] at hlen
      omega
    | cons id rest =>
      rw [hr] at hsp
      exact ⟨id, rest, hsp.symm⟩
  have hid' : id ≠ 0 := hid
  have hsk : ∀ {x : UInt8} {l : Bytes}, ¬ x :: l <+: [0, 0, 1] → (x :: l).take 3 ≠ [0, 0, 1] →
      carefully (x :: l) = carefully l := fun hp ht => carefully_of_skip (careful_garbage hp ht)
  show carefully (0 :: 1 :: id :: rest) = carefully rest
  rw [hsk (by simp) (by simp), hsk (by simp) (by simp), hsk (by simp [hid']) (by simp [hid'])]

theorem carefully_drop_one (hn : leadingHeaderLen b = none) (he : parseOnePes b = .error e)
    (hf : findStartCode b 0 = some 0) : carefully b = carefully (b.drop 1) := by
  have hlen := length_of_parseOnePes_error he
  by_cases ht : b.take 3 = [0, 0, 1]
  · have hs : StartsCode b := ⟨by omega, ht⟩
    have hen : isPsEntity (b.getD 3 0) := by
      unfold findStartCode at hf
      obtain ⟨k, hk⟩ : ∃ k, b.length = k + 1 := ⟨b.length - 1, by omega⟩
      rw [hk, drop_zero, scanStartCode, if_neg (by omega), if_pos ht] at hf
      split at hf
      next hen => exact hen
      · have := (scanStartCode_le hf).1
        omega
    by_cases hid : IsHeaderId (b.getD 3 0)
    · rw [parseOnePes_of_header hs hid hn] at he
      cases he
    by_cases hp : 0xC0 ≤ b.getD 3 0
    · rw [parseOnePes_of_packet hs hp] at he
      refine carefully_of_skip ?_
      rw [careful_pes hs hp, he]
    · rw [carefully_of_skip (careful_other hs hid hp), carefully_tail_of_startsCode hs]
      intro hz
      rw [hz] at hen
      exact absurd hen (by decide)
  · exact carefully_of_skip (careful_garbage (not_isPrefix_of_length (by omega)) ht)

/-- The four outcomes of a round, in terms of the careful reader. -/
inductive Round (types : List (UInt8 × UInt8)) (b : Bytes) :
    Attempt (List (UInt8 × UInt8)) UInt8 PesPacket → Prop
  | wait (h : Nothing b) : Round types b .wait
  | same {types' : List (UInt8 × UInt8)} {o : List PesPacket} {r : Bytes}
    (h : carefully b = Fed.prepend o (carefully r)) :
    Round types b (.take types' o r)
  | torn (ht : torn b) (h : Nothing b) : Round types b (.take types [] [])
  | hasty {pes : PesPacket} {r r' : Bytes} (hh : hasty b) (hlen : r.length < 9)
    (h : carefully b = some ((), [], r'))
    (hextra : extra r' = [pes]) : Round types b (.take types [pes] r)

theorem round_psNext (types : List (UInt8 × UInt8)) (b : Bytes) :
    Round types b (psNext types b) := by
  have hlc := parseOnePes_located (b := b)
  unfold psNext
  cases hn : leadingHeaderLen b with
  | some n =>
    obtain ⟨-, hst, hid, -⟩ := leadingHeaderLen_eq_some hn
    exact .same (carefully_of_take (careful_header hid hn hst))
  | none =>
    cases hp : parseOnePes b with
    | ok found =>
      rw [hp] at hlc
      cases found with
      | none => exact .wait hlc
      | some p =>
        obtain ⟨q, m, hq, hpos, hpr, hst, hid, heq⟩ := hlc
        have hnx := careful_pes hst hid
        rw [hpr] at hnx
        dsimp only at hnx
        have hsx := (parsePesPacket_le hpr).1
        by_cases hpre : Premature (b.drop q)
        · rw [if_pos hpre] at hnx
          have hlen := hpre.2
          rw [length_drop] at hlen
          refine .hasty ?_ ?_ (heq.trans (carefully_of_wait hnx)) ?_
          · unfold Ps.hasty
            rw [hp, hq]
            exact decide_eq_true hpre
          · rw [length_drop]
            omega
          · rw [extra, if_pos ⟨hst, hid⟩, hpr]
        · rw [if_neg hpre] at hnx
          refine .same ?_
          rw [hpos, ← drop_drop, ← carefully_of_take hnx]
          exact heq
    | error e =>
      cases hf : findStartCode b 0 with
      | some sc =>
        refine .same ?_
        rw [Fed.prepend_nil]
        by_cases hsc : sc = 0
        · subst hsc
          exact carefully_drop_one hn hp hf
        · rw [Nat.max_eq_left (by omega)]
          exact carefully_of_find hf
      | none =>
        obtain ⟨ho, hpf⟩ := carefully_of_scan_none (le_refl b.length) hf
        by_cases hnil : openCode b.length b = []
        · refine .same ?_
          rw [ho, hnil, Fed.prepend_nil]
          rfl
        · refine .torn ?_ ⟨_, ho, extra_of_isPrefix hpf⟩
          unfold Ps.torn
          rw [hp, hf]
          simpa using hnil

/-! ## Whole reads -/

/-- One read: the packets are those of the careful reader, and one more if its time stamp has
not come. -/
theorem feed_psNext_eq (types : List (UInt8 × UInt8)) (b : Bytes) :
    (feed psNext types b).map (fun q => q.2.1) =
      (carefully b).map fun q => q.2.1 ++ extra q.2.2 := by
  induction types, b using feed_induction shrinks_psNext with
  | wait types b h =>
    cases h ▸ round_psNext types b with
    | wait hn =>
      obtain ⟨r, hr, hex⟩ := hn
      rw [feed_of_wait h, hr, map_some, map_some, hex]
      rfl
  | crash types b h => cases h ▸ round_psNext types b
  | take types b types' o r h ih =>
    rw [feed_of_take shrinks_psNext h]
    cases h ▸ round_psNext types b with
    | same heq =>
      rw [heq, Fed.map_out_prepend, ih]
      exact (Fed.map_out_prepend_append _ _ extra).symm
    | torn _ hn =>
      -- the buffer is cleared
      obtain ⟨r', hr', hex⟩ := hn
      rw [feed_of_wait (psNext_nil _), hr']
      simp [hex]
    | hasty _ hlen hr' hex =>
      -- nothing comes of the few bytes behind the packet
      obtain ⟨r₂, hr₂, hex₂⟩ := nothing_of_length hlen
      rw [Fed.map_out_prepend, ih, hr₂, hr', map_some, map_some, map_some, hex, hex₂]
      rfl

theorem out_of_feed {types types' : List (UInt8 × UInt8)}
    (h : feed psNext types b = some (types', o, r)) :
    (carefully b).map (fun q => q.2.1 ++ extra q.2.2) = some o := by
  rw [← feed_psNext_eq types, h]
  rfl

/-- The buffers that the rounds of one read begin with. -/
def rounds : Nat → List (UInt8 × UInt8) → Bytes → List Bytes
  | 0, _, _ => []
  | fuel + 1, types, b =>
    b :: match psNext types b with
      | .take types' _ r => rounds fuel types' r
      | _ => []

/-- No round of the read drops the beginning of a start code or returns a packet before its time
stamp has come. -/
def SafeRead (d : PsDemuxer) : Prop :=
  ∀ b ∈ rounds (d.buf.length + 1) d.streamTypes d.buf, torn b = false ∧ hasty b = false

instance (d : PsDemuxer) : Decidable (SafeRead d) := decidableBAll _ _

/-- Every read that has bytes behind it is safe. -/
def SafeCuts : PsDemuxer → List Bytes → Prop
  | _, [] => True
  | d, piece :: pieces =>
    (pieces.flatten ≠ [] → SafeRead (d.push piece)) ∧ SafeCuts (d.push piece).drainPes.1 pieces

instance decidableSafeCuts : (d : PsDemuxer) → (pieces : List Bytes) → Decidable (SafeCuts d pieces)
  | _, [] => isTrue trivial
  | d, piece :: pieces =>
    haveI := decidableSafeCuts (d.push piece).drainPes.1 pieces
    inferInstanceAs (Decidable (_ ∧ _))

theorem carefully_of_safe : ∀ {types types' : List (UInt8 × UInt8)} {b r : Bytes}
    {o : List PesPacket}, b.length < fuel →
    (∀ f ∈ rounds fuel types b, torn f = false ∧ hasty f = false) →
      feed psNext types b = some (types', o, r) → carefully b = Fed.prepend o (carefully r) := by
  induction fuel with
  | zero => intro types types' b r o hlen; omega
  | succ fuel ih =>
    intro types types' b r o hlen hs hfd
    rw [rounds] at hs
    obtain ⟨htr, hhs⟩ := hs b mem_cons_self
    have hr := round_psNext types b
    generalize hn : psNext types b = x at hr hs
    cases hr with
    | wait =>
      rw [feed_of_wait hn] at hfd
      cases hfd
      rw [Fed.prepend_nil]
    | same heq =>
      have hlt := shrinks_psNext types b _ _ _ hn
      rw [feed_of_take shrinks_psNext hn] at hfd
      cases hf : feed psNext _ _ with
      | none => rw [hf] at hfd; cases hfd
      | some q =>
        obtain ⟨types₂, o₂, r₂⟩ := q
        rw [hf] at hfd
        cases hfd
        rw [heq, ih (by omega) (fun f hmem => hs f (mem_cons_of_mem _ hmem)) hf,
          Fed.prepend_prepend]
    | torn ht =>
      rw [htr] at ht
      cases ht
    | hasty hh =>
      rw [hhs] at hh
      cases hh

theorem carefully_append (h : carefully b = Fed.prepend o (carefully r)) (t : Bytes) :
    carefully (b ++ t) = Fed.prepend o (carefully (r ++ t)) := by
  have hb : carefully (b ++ t) = (carefully b).bind fun q =>
    Fed.prepend q.2.1 (carefully (q.2.2 ++ t)) :=
    feed_append shrinks_carefulNext extends_carefulNext () b t
  have hr : carefully (r ++ t) = (carefully r).bind fun q =>
    Fed.prepend q.2.1 (carefully (q.2.2 ++ t)) :=
    feed_append shrinks_carefulNext extends_carefulNext () r t
  rw [hb, h, hr]
  exact Fed.prepend_bind o _ fun _ rest => carefully (rest ++ t)

theorem feed_drainPes {d : PsDemuxer} {piece : Bytes} (h : d.pending + piece.length ≤ maxBuf) :
    feed psNext d.streamTypes (d.buf ++ piece) = some ((d.push piece).drainPes.1.streamTypes,
      (d.push piece).drainPes.2, (d.push piece).drainPes.1.buf) := by
  have hf := drainPes_eq_feed (d.push piece)
  rw [push_of_fits h] at hf ⊢
  exact hf

/-- **The run**, in terms of the careful reader. -/
theorem pushAll_eq_carefully : ∀ {pieces : List Bytes} {d : PsDemuxer},
    psNext d.streamTypes d.buf = .wait → d.pending + pieces.flatten.length ≤ maxBuf →
      SafeCuts d pieces → some (d.pushAll pieces).2 = (carefully (d.buf ++ pieces.flatten)).map
        fun q => q.2.1 ++ extra q.2.2
  | [], d, hw, _, _ => by
    rw [flatten_nil, append_nil, out_of_feed (feed_of_wait hw)]
    rfl
  | piece :: pieces, d, hw, hlen, hs => by
    rw [flatten_cons, length_append] at hlen
    have hft : d.pending + piece.length ≤ maxBuf := by omega
    have hfd := feed_drainPes hft
    have hle := feed_length_le shrinks_psNext _ _ hfd
    rw [length_append] at hle
    have hw' := feed_waits shrinks_psNext _ _ hfd
    have ih := pushAll_eq_carefully hw' (by unfold PsDemuxer.pending at hlen ⊢; omega) hs.2
    rw [PsDemuxer.pushAll, flatten_cons]
    dsimp only
    by_cases hps : pieces.flatten = []
    · -- nothing more comes
      rw [hps, append_nil, out_of_feed (feed_of_wait hw')] at ih
      rw [hps, append_nil, out_of_feed hfd, some.inj ih, append_nil]
    · have hr := hs.1 hps
      unfold SafeRead at hr
      rw [push_of_fits hft] at hr
      have hc := carefully_of_safe (Nat.lt_succ_self _) hr hfd
      rw [← append_assoc, carefully_append hc, Fed.map_out_prepend_append, ← ih, map_some]

/-- **Packets do not depend on the pieces**, as long as no cut falls where the demuxer clears
its buffer or returns a packet too early. -/
theorem ps_packetisation_of_safeCuts {pieces : List Bytes} (hlen : pieces.flatten.length ≤ maxBuf)
    (hsafe : SafeCuts .new pieces) :
    (PsDemuxer.new.pushAll pieces).2 = (PsDemuxer.new.push pieces.flatten).drainPes.2 := by
  have hp : PsDemuxer.new.pending + pieces.flatten.length ≤ maxBuf := by
    rw [show PsDemuxer.new.pending = 0 from rfl, zero_add]
    exact hlen
  have hrun := pushAll_eq_carefully (d := .new) (psNext_nil []) hp hsafe
  have hw := drainPes_eq_feed (PsDemuxer.new.push pieces.flatten)
  rw [push_new] at hw ⊢
  have ho := feed_psNext_eq [] pieces.flatten
  rw [hw, map_some] at ho
  exact some.inj (hrun.trans ho.symm)

/-- The packet of one byte that the inputs below carry. -/
def onePacket : Bytes := [0, 0, 1, 0xE0, 0, 9, 0x80, 0x80, 5, 0x21, 0, 1, 0, 1, 0x41]

/-- Garbage in front of a packet, cut behind the start code and within the payload. -/
theorem ps_packetisation_of_safeCuts_garbage :
    (PsDemuxer.new.pushAll [[7, 7, 7, 7, 7, 7, 0, 0, 1, 0xE0], onePacket.drop 4, []]).2 =
      (PsDemuxer.new.push
        [[7, 7, 7, 7, 7, 7, 0, 0, 1, 0xE0], onePacket.drop 4, []].flatten).drainPes.2 :=
  ps_packetisation_of_safeCuts (by decide +kernel) (by decide +kernel)

/-- **Packets depend on the pieces.** A start code that is cut after garbage is lost with its
packet, and a packet of nine bytes has no time stamp if it comes alone. -/
theorem ps_packetisation_differs :
    ((PsDemuxer.new.pushAll [[7, 7, 7, 7, 7, 7, 0, 0], onePacket.drop 2]).2 = [] ∧
      (PsDemuxer.new.push ([7, 7, 7, 7, 7, 7, 0, 0] ++ onePacket.drop 2)).drainPes.2 =
        [⟨0xE0, [0x41], some 0⟩]) ∧
    (PsDemuxer.new.pushAll [[0, 0, 1, 0xC0, 0, 3, 0x80, 0x80, 0], [0x21, 0, 1, 0, 1]]).2 =
      [⟨0xC0, [], none⟩] ∧
      (PsDemuxer.new.push ([0, 0, 1, 0xC0, 0, 3, 0x80, 0x80, 0] ++ [0x21, 0, 1, 0, 1])).drainPes.2 =
        [⟨0xC0, [], some 0⟩] := by
  decide +kernel

end MediaKit.Ps
