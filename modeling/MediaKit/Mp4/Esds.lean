import MediaKit.Mp4.Descriptors

/-!
# The descriptors of an audio track

An AAC configuration is written inside three nested descriptors, in a box `esds`. The reader
looks for the box octet by octet, and then walks the descriptors.

> `extractAacConfig_iff`: the descriptors are passed over as a whole, so that only the
> configuration that the reader falls back to comes back, and one of 123 octets: for that
> length the two ways of writing a descriptor's length differ by just the octets in front of
> the configuration.
-/

namespace MediaKit.Mp4

open MediaKit.Core Lib List Option UInt8

/-! ## Steps of the walk -/

theorem one_le_of_readBerLen {data : Bytes} {len n : Nat} (h : readBerLen data = some (len, n)) :
    1 ≤ n := by
  cases data with
  | nil => cases h
  | cons b rest =>
    rw [readBerLen] at h
    split at h
    next => cases h; exact le_refl 1
    next =>
      dsimp only at h
      split at h
      next => cases h
      next => cases h; exact Nat.le_add_right 1 _

/-- **A step of the walk over descriptors** that finds a configuration: it is this descriptor's
content, or the walk finds it behind the descriptor. -/
theorem esdsAscFrom_cases {esds x : Bytes} {fuel i : Nat}
    (h : esdsAscFrom esds fuel i = .ok (some x)) :
    ∃ fuel' len n, fuel = fuel' + 1 ∧ readBerLen (esds.drop (i + 1)) = some (len, n) ∧
      (esds.getD i 0 = 0x05 ∧ i + 1 + n + len ≤ esds.length ∧
        x = (esds.take (i + 1 + n + len)).drop (i + 1 + n) ∨
        (esds.getD i 0 = 0x03 ∨ esds.getD i 0 = 0x04) ∧
        esdsAscFrom esds fuel' (i + 1 + n + len) = .ok (some x)) := by
  cases fuel with
  | zero => cases h
  | succ fuel =>
    rw [esdsAscFrom] at h
    split at h
    next =>
      -- every tag that is followed has a length, and an end that does not overflow
      cases hb : readBerLen (esds.drop (i + 1)) with
      | none =>
        simp only [hb, ite_self] at h
        cases h
      | some ln =>
        obtain ⟨len, n⟩ := ln
        simp only [hb] at h
        rcases addUsize_cases (i + 1 + n) len with ha | ha <;> rw [ha] at h
        · split at h
          · cases h
          · split at h <;> cases h
        refine ⟨fuel, len, n, rfl, rfl, ?_⟩
        rw [checked_some, ok_bind] at h
        split at h
        next hf =>
          split at h
          next hle =>
            rw [slice_of_le (Nat.le_add_right _ _) hle] at h
            cases h
            exact .inl ⟨hf, hle, rfl⟩
          next => cases h
        next =>
          split at h
          next ht => exact .inr ⟨ht, h⟩
          next => cases h
    next => cases h

variable {asc : Bytes}

/-- Octets that repeat up to the end of the last descriptor are its octets. -/
theorem mem_of_periodic {k : Nat} (hk : 1 ≤ k)
    (h : ((asc ++ [0x06, 0x01, 0x02]).drop k).take asc.length = asc) :
    ∀ b ∈ asc, b = 0x06 ∨ b = 0x01 ∨ b = 0x02 := by
  have hs : ∀ j < asc.length, (asc ++ [0x06, 0x01, 0x02])[j]? =
      (asc ++ [0x06, 0x01, 0x02])[j + k]? := by
    intro j hj
    have hg : (((asc ++ [0x06, 0x01, 0x02]).drop k).take asc.length)[j]? = asc[j]? := by rw [h]
    rw [getElem?_take_of_lt hj, getElem?_drop, add_comm k j] at hg
    rw [hg, getElem?_append_left hj]
  -- from the end of the list to its front: at most `d` octets stand between `j` and the end
  have hal : ∀ d j, asc.length ≤ j + d → ∀ b, (asc ++ [0x06, 0x01, 0x02])[j]? = some b → b = 0x06 ∨
      b = 0x01 ∨ b = 0x02 := by
    intro d
    induction d with
    | zero =>
      intro j hj b hb
      rw [getElem?_append_right (show asc.length ≤ j from hj)] at hb
      have hmem := mem_of_getElem? hb
      simpa using hmem
    | succ d ih =>
      intro j hj b hb
      by_cases hlt : j < asc.length
      · rw [hs j hlt] at hb
        exact ih (j + k) (by omega) b hb
      · exact ih j (by omega) b hb
  intro b hb
  obtain ⟨j, hj⟩ := getElem?_of_mem hb
  have hlt : j < asc.length := (List.getElem?_eq_some_iff.mp hj).1
  exact hal asc.length j (by omega) b (by rwa [getElem?_append_left hlt])

/-! ### The walk, from the configuration on

`pre` is what stands in front of the configuration's own descriptor. -/

section Walk

/-- The `esds` data around a configuration. -/
def esdsAround (pre asc : Bytes) : Bytes :=
  pre ++ 0x05 :: ofNat asc.length :: (asc ++ [0x06, 0x01, 0x02])

variable {pre asc : Bytes}

theorem length_esdsAround : (esdsAround pre asc).length = pre.length + asc.length + 5 := by
  simp only [esdsAround, length_append, length_cons, length_nil]
  omega

theorem drop_esdsAround (k : Nat) : (esdsAround pre asc).drop (pre.length + 2 + k) =
    (asc ++ [0x06, 0x01, 0x02]).drop k := by
  rw [esdsAround, add_assoc, ← drop_drop, drop_left, ← drop_drop]
  rfl

theorem getD_esdsAround (k : Nat) : (esdsAround pre asc).getD (pre.length + 2 + k) 0 =
    (asc ++ [0x06, 0x01, 0x02]).getD k 0 := by
  rw [getD_eq_getElem?_getD, getD_eq_getElem?_getD]
  have hd := congrArg (·[0]?) (@drop_esdsAround pre asc k)
  simp only [getElem?_drop, add_zero] at hd
  rw [hd]

theorem content_eq {start len : Nat} (hle : start + len ≤ (esdsAround pre asc).length)
    (h : asc = ((esdsAround pre asc).take (start + len)).drop start) :
    len = asc.length ∧ start ≤ pre.length + 5 := by
  have hlen := congrArg List.length h
  rw [length_drop, length_take] at hlen
  rw [length_esdsAround] at hle hlen
  omega

/-- Where it begins one to three octets too late, its octets are those of the last descriptor. -/
theorem mem_of_late {k : Nat} (hk : 1 ≤ k)
    (h : asc = ((esdsAround pre asc).take (pre.length + 2 + k + asc.length)).drop
      (pre.length + 2 + k)) :
    ∀ b ∈ asc, b = 0x06 ∨ b = 0x01 ∨ b = 0x02 := by
  rw [drop_take, Nat.add_sub_cancel_left, drop_esdsAround] at h
  exact mem_of_periodic hk h.symm

theorem getD_ne_five (hal : ∀ b ∈ asc, b = 0x06 ∨ b = 0x01 ∨ b = 0x02) (k : Nat) :
    (asc ++ [0x06, 0x01, 0x02]).getD k 0 ≠ 0x05 := by
  rw [getD_eq_getElem?_getD]
  cases hg : (asc ++ [0x06, 0x01, 0x02])[k]? with
  | none => decide
  | some b =>
    have hmem := mem_of_getElem? hg
    have hb : b = 0x06 ∨ b = 0x01 ∨ b = 0x02 := by
      rcases mem_append.mp hmem with hin | hin
      · exact hal b hin
      · simpa using hin
    rcases hb with rfl | rfl | rfl <;> decide

/-- **Behind the tag of the configuration** it is not found any more. -/
theorem not_found_behind : ∀ (fuel i : Nat), pre.length + 1 ≤ i →
    esdsAscFrom (esdsAround pre asc) fuel i ≠ .ok (some asc) := by
  intro fuel
  induction fuel with
  | zero => exact fun _ _ => nofun
  | succ fuel ih =>
    intro i hi h
    obtain ⟨fuel', len, n, hfl, hb, hcs⟩ := esdsAscFrom_cases h
    have hn := one_le_of_readBerLen hb
    rcases hcs with ⟨htg, hle, hcn⟩ | ⟨-, hr⟩
    · obtain ⟨hlen, hst⟩ := content_eq hle hcn
      subst hlen
      obtain ⟨k, rfl⟩ | rfl : (∃ k, i = pre.length + 2 + k) ∨ i = pre.length + 1 := by
        by_cases ho : i = pre.length + 1
        · exact .inr ho
        · exact .inl ⟨i - (pre.length + 2), by omega⟩
      · -- the tag would be an octet of the configuration, or of the last descriptor
        have hpos : pre.length + 2 + k + 1 + n = pre.length + 2 + (k + 1 + n) := by omega
        rw [hpos] at hcn
        have hal := mem_of_late (by omega) hcn
        rw [getD_esdsAround] at htg
        exact getD_ne_five hal k htg
      · -- the tag would be the length of the configuration
        have hal := mem_of_late hn hcn
        have htA : (esdsAround pre asc).getD (pre.length + 1) 0 = ofNat asc.length := by
          rw [esdsAround, getD_eq_getElem?_getD, getElem?_append_right (by omega),
            Nat.add_sub_cancel_left]
          rfl
        have hd : (esdsAround pre asc).drop (pre.length + 1 + 1) = asc ++ [0x06, 0x01, 0x02] :=
          drop_esdsAround 0
        rw [htA] at htg
        rw [hd] at hb
        have hm := congrArg toNat htg
        cases has : asc with
        | nil =>
          rw [has] at hm
          exact absurd hm (by decide)
        | cons b r =>
          rw [has] at hb hal hm
          have hsh : readBerLen (b :: r ++ [0x06, 0x01, 0x02]) = some (b.toNat, 1) := by
            rcases hal b mem_cons_self with rfl | rfl | rfl <;> rfl
          rw [hsh] at hb
          have hfv := congrArg Prod.fst (some.inj hb)
          dsimp only at hfv
          rw [← hfv] at hm
          rcases hal b mem_cons_self with rfl | rfl | rfl <;> exact absurd hm (by decide)
    · rw [Nat.succ_inj.mp hfl] at ih
      exact ih _ (by omega) hr

theorem readBerLen_short {len : Nat} (h : len < 128) (rest : Bytes) :
    readBerLen (ofNat len :: rest) = some (len, 1) := by
  have hb : ∀ x : UInt8, x.toNat < 128 → x &&& 0x80 = 0 := forall_octet (by decide +kernel)
  have hlen : (ofNat len).toNat = len := toNat_ofNat_of_lt' (lt_trans h (by decide))
  rw [readBerLen, if_pos (hb _ (by rwa [hlen])), hlen]

/-- **At its tag** the configuration is found, if its length fits into seven bits. -/
theorem found_at (hlt : asc.length < 128) (hf : (esdsAround pre asc).length < 2 ^ 64) (fuel : Nat) :
    esdsAscFrom (esdsAround pre asc) (fuel + 1) pre.length = .ok (some asc) := by
  have ht : (esdsAround pre asc).getD pre.length 0 = 0x05 := by
    rw [esdsAround, getD_eq_getElem?_getD, getElem?_append_right le_rfl, Nat.sub_self]
    rfl
  have hd : (esdsAround pre asc).drop (pre.length + 1) = ofNat asc.length ::
      (asc ++ [0x06, 0x01, 0x02]) := by
    rw [esdsAround, ← drop_drop, drop_left]
    rfl
  have hlen := @length_esdsAround pre asc
  have hs : ((esdsAround pre asc).take (pre.length + 1 + 1 + asc.length)).drop
      (pre.length + 1 + 1) = asc := by
    rw [drop_take, Nat.add_sub_cancel_left]
    have := @drop_esdsAround pre asc 0
    rw [drop_zero] at this
    rw [this, take_left]
  rw [esdsAscFrom, if_pos (by omega)]
  rw [if_pos ht, hd, readBerLen_short hlt]
  dsimp only
  rw [addUsize_of_lt (by omega), checked_some, ok_bind, if_pos (by omega),
    slice_of_le (by omega) (by omega), hs]
  rfl

/-- A walk inside of `pre` that ends there, or passes over the configuration's tag. -/
def deadFrom (pre : Bytes) : Nat → Nat → Bool
  | 0, _ => false
  | fuel + 1, i =>
    if pre.length < i then true
    else if pre.length ≤ i then false
    else if pre.getD i 0 = 0x05 then false
    else if pre.getD i 0 = 0x03 ∨ pre.getD i 0 = 0x04 then
      decide (i + 1 < pre.length ∧ pre.getD (i + 1) 0 &&& 0x80 = 0) &&
        deadFrom pre fuel (i + 1 + 1 + (pre.getD (i + 1) 0).toNat)
    else true

theorem getD_esdsAround_left {i : Nat} (h : i < pre.length) :
    (esdsAround pre asc).getD i 0 = pre.getD i 0 := by
  rw [esdsAround, getD_eq_getElem?_getD, getD_eq_getElem?_getD, getElem?_append_left h]

theorem readBerLen_of_getD {data : Bytes} {i : Nat} (hi : i < data.length)
    (h : data.getD i 0 &&& 0x80 = 0) :
    readBerLen (data.drop i) = some ((data.getD i 0).toNat, 1) := by
  have hg : data.getD i 0 = data[i] := by
    rw [getD_eq_getElem?_getD, getElem?_eq_getElem hi, getD_some]
  rw [hg] at h ⊢
  rw [drop_eq_getElem_cons hi, readBerLen, if_pos h]

theorem not_found_of_dead : ∀ (k i : Nat), deadFrom pre k i = true → ∀ fuel,
    esdsAscFrom (esdsAround pre asc) fuel i ≠ .ok (some asc) := by
  intro k
  induction k with
  | zero => exact fun _ h => nomatch h
  | succ k ih =>
    intro i hd fuel h
    rw [deadFrom] at hd
    split at hd
    next hfr => exact not_found_behind fuel i hfr h
    next =>
      split at hd
      next => cases hd
      next hin =>
        have hlen := @length_esdsAround pre asc
        obtain ⟨fuel', len, n, -, hbr, hc⟩ := esdsAscFrom_cases h
        rw [getD_esdsAround_left (by omega)] at hc
        split at hd
        next => cases hd
        next hfv =>
          rcases hc with ⟨ht, -⟩ | ⟨ht, hr⟩
          · exact hfv ht
          · rw [if_pos ht, Bool.and_eq_true, decide_eq_true_eq] at hd
            obtain ⟨⟨hnr, hbt⟩, hnx⟩ := hd
            have hg : (esdsAround pre asc).getD (i + 1) 0 = pre.getD (i + 1) 0 :=
              getD_esdsAround_left (by omega)
            rw [← hg] at hbt hnx
            rw [readBerLen_of_getD (by omega) hbt] at hbr
            cases hbr
            exact ih _ hnx fuel' hr

end Walk

/-! ### The first descriptor -/

variable {fuel len n : Nat}

/-- The value of a length as the reader computes it. -/
def berValue (data : Bytes) : Nat := data.foldl (fun len byte => len * 256 % 2 ^ 64 + byte.toNat) 0

theorem berStep_place {t v : Nat} (ht : t ≤ 6) (y : UInt8) :
    (v * 256 % 2 ^ 64 + y.toNat) / 256 ^ (t + 1) % 256 = v / 256 ^ t % 256 := by
  have hy := toNat_lt y
  rcases (by omega : t = 0 ∨ t = 1 ∨ t = 2 ∨ t = 3 ∨ t = 4 ∨ t = 5 ∨ t = 6) with
    rfl | rfl | rfl | rfl | rfl | rfl | rfl <;> omega

/-- An octet stays in the value while at most seven others follow it. -/
theorem berFold_place : ∀ (r : Bytes) (t v : Nat), t + r.length ≤ 7 →
    r.foldl (fun len byte => len * 256 % 2 ^ 64 + byte.toNat) v / 256 ^ (t + r.length) % 256 =
      v / 256 ^ t % 256
  | [], _, _, _ => rfl
  | y :: r, t, v, h => by
    rw [length_cons] at h ⊢
    have hr := berFold_place r (t + 1) (v * 256 % 2 ^ 64 + y.toNat) (by omega)
    rw [show t + (r.length + 1) = t + 1 + r.length by omega, foldl_cons, hr]
    exact berStep_place (by omega) y

/-- An octet other than 0 among the last eight, but not the last. -/
theorem le_berValue {data : Bytes} {num j : Nat} {x : UInt8} (hx : data[j]? = some x) (hne : x ≠ 0)
    (hj : j + 2 ≤ num)
    (hnm : num ≤ j + 8) (hlen : num ≤ data.length) : 256 ≤ berValue (data.take num) := by
  obtain ⟨hlt, hg⟩ := List.getElem?_eq_some_iff.mp hx
  have hsp : data.take num = data.take j ++ x :: (data.drop (j + 1)).take (num - j - 1) := by
    rw [show num = j + (num - j) by omega, take_add, drop_eq_getElem_cons hlt, hg,
      show num - j = num - j - 1 + 1 by omega, take_succ_cons]
    congr 4
    omega
  have hr : ((data.drop (j + 1)).take (num - j - 1)).length = num - j - 1 := by
    rw [length_take, length_drop]
    omega
  have hx2 := toNat_lt x
  have hxp : x.toNat ≠ 0 := fun h => hne (UInt8.toNat_inj.mp h)
  have hp := berFold_place ((data.drop (j + 1)).take (num - j - 1)) 0
    (berValue (data.take j) * 256 % 2 ^ 64 + x.toNat) (by omega)
  rw [hsp, berValue, foldl_append, foldl_cons]
  rw [hr, zero_add, Nat.pow_zero, Nat.div_one] at hp
  have hlw : (berValue (data.take j) * 256 % 2 ^ 64 + x.toNat) % 256 = x.toNat := by omega
  rw [hlw] at hp
  -- a place above the lowest is not empty
  by_contra hsm
  have hz := Nat.div_eq_of_lt (lt_of_lt_of_le (Nat.lt_of_not_le hsm)
    (Nat.pow_le_pow_right (show 0 < 256 by decide) (show 1 ≤ num - j - 1 by omega)))
  rw [berValue] at hp
  rw [hz] at hp
  exact hxp hp.symm

/-- What the decoder configuration holds in front of the audio configuration. -/
def decoderConfigData : Bytes := [0x40, 0x15, 0x00, 0x00, 0x03, 0x00, 0x00, 0x03, 0x00, 0x00]

/-- The length of the first descriptor. -/
def descLen (n : Nat) : Nat := 20 + (putBerLength (12 + n)).length + n

/-- What stands in front of an audio configuration of `n` octets. -/
def esdsHead (n : Nat) : Bytes :=
  [0, 0, 0, 0, 0x03] ++ (putBerLength (descLen n) ++
    ([0x00, 0x01, 0x00, 0x00, 0x04] ++ (putBerLength (12 + n) ++ decoderConfigData)))

theorem esdsData_eq (hne : asc ≠ []) : esdsData asc = esdsAround (esdsHead asc.length) asc := by
  have hf : (if asc.isEmpty then ([0x12, 0x10] : Bytes) else asc) = asc := if_neg fun h =>
    hne (isEmpty_iff.mp h)
  rw [esdsData, hf, buildEsdsDescriptors]
  simp only [length_append, length_cons, length_nil, length_be16]
  rw [show 0 + 1 + 1 + 1 + 1 + 1 + 1 + 1 + 1 + 1 + 1 + (0 + 1 + 1 + asc.length) =
    12 + asc.length by omega]
  have hd : 2 + (0 + 1 + 1) + (0 + 1 + (putBerLength (12 + asc.length)).length +
      (0 + 1 + 1 + 1 + 1 + 1 + 1 + 1 + 1 + 1 + 1) + (0 + 1 + 1 + asc.length)) + (0 + 1 + 1 + 1) =
      descLen asc.length := by
    rw [descLen]
    omega
  rw [hd]
  simp only [esdsAround, esdsHead, decoderConfigData, append_assoc, cons_append, nil_append]
  rfl

/-- What follows the length of the first descriptor. -/
def esdsTail (asc : Bytes) : Bytes :=
  [0x00, 0x01, 0x00, 0x00, 0x04] ++ (putBerLength (12 + asc.length) ++ (decoderConfigData ++
    0x05 :: ofNat asc.length :: (asc ++ [0x06, 0x01, 0x02])))

theorem esdsAround_esdsHead (asc : Bytes) : esdsAround (esdsHead asc.length) asc =
    [0, 0, 0, 0, 0x03] ++ (putBerLength (descLen asc.length) ++ esdsTail asc) := by
  simp only [esdsAround, esdsHead, esdsTail, append_assoc]

theorem length_esdsHead (n : Nat) :
    (esdsHead n).length = 20 + (putBerLength (descLen n)).length +
      (putBerLength (12 + n)).length := by
  simp only [esdsHead, length_append, length_cons, length_nil, decoderConfigData]
  omega

theorem length_esdsTail (asc : Bytes) :
    (esdsTail asc).length = 20 + (putBerLength (12 + asc.length)).length + asc.length := by
  simp only [esdsTail, length_append, length_cons, length_nil, decoderConfigData]
  omega

/-- **The first step**: a configuration that is found is found behind the first descriptor's length,
and not behind its own tag. -/
theorem first_descriptor
    (h : esdsAscFrom (esdsAround (esdsHead asc.length) asc) fuel 4 = .ok (some asc)) :
    ∃ fuel' len n, readBerLen (putBerLength (descLen asc.length) ++ esdsTail asc) = some (len, n) ∧
      5 + n + len ≤ (esdsHead asc.length).length ∧
      esdsAscFrom (esdsAround (esdsHead asc.length) asc) fuel' (5 + n + len) = .ok (some asc) := by
  obtain ⟨fuel', len, n, -, hb, hc⟩ := esdsAscFrom_cases h
  have hd : (esdsAround (esdsHead asc.length) asc).drop (4 + 1) =
      putBerLength (descLen asc.length) ++ esdsTail asc := by
    rw [esdsAround_esdsHead]
    rfl
  have ht : (esdsAround (esdsHead asc.length) asc).getD 4 0 = 0x03 := by
    rfl
  rw [hd] at hb
  rw [ht] at hc
  rcases hc with ⟨hfv, -⟩ | ⟨-, hr⟩
  · exact absurd hfv (by decide)
  · refine ⟨fuel', len, n, hb, ?_, hr⟩
    by_contra hfr
    exact not_found_behind fuel' _ (by omega) hr

theorem or_high_bit (q : Nat) : ((0x80 : UInt8) ||| ofNat q) &&& 0x80 ≠ 0 ∧
    (((0x80 : UInt8) ||| ofNat q) &&& 0x7F).toNat = q % 128 ∧
    128 ≤ ((0x80 : UInt8) ||| ofNat q).toNat := by
  have hal : ∀ x : UInt8, ((0x80 : UInt8) ||| x) &&& 0x80 ≠ 0 ∧
    (((0x80 : UInt8) ||| x) &&& 0x7F).toNat = x.toNat % 128 ∧
      128 ≤ ((0x80 : UInt8) ||| x).toNat := forall_octet (by decide +kernel)
  obtain ⟨hb, hlw, hle⟩ := hal (ofNat q)
  rw [toNat_ofNat'] at hlw
  exact ⟨hb, by omega, hle⟩

theorem or_high_ne (q : Nat) {x : UInt8} (hx : x.toNat < 128) : (0x80 : UInt8) ||| ofNat q ≠ x := by
  rintro rfl
  exact Nat.not_lt.mpr (or_high_bit q).2.2 hx

theorem putBerLength_short (h : len < 128) : putBerLength len = [ofNat len] := if_pos h

theorem putBerLength_two (h : 128 ≤ len) (h' : len < 16384) :
    putBerLength len = [(0x80 : UInt8) ||| ofNat (len / 128), ofNat (len % 128)] := by
  rw [putBerLength, if_neg (by omega), if_pos h', Nat.shiftRight_eq_div_pow,
    show len &&& 0x7F = len % 128 from Nat.and_two_pow_sub_one_eq_mod len 7]

theorem length_putBerLength_le (len : Nat) : (putBerLength len).length ≤ 3 := by
  rw [putBerLength]
  split
  · exact Nat.le_add_left 1 2
  · split <;> simp only [length_cons, length_nil] <;> omega

theorem putBerLength_three (h : 16384 ≤ len) :
    ∃ q r l, putBerLength len = [(0x80 : UInt8) ||| ofNat q, (0x80 : UInt8) ||| ofNat r, l] := by
  rw [putBerLength, if_neg (by omega), if_neg (by omega)]
  exact ⟨_, _, _, rfl⟩

/-- The lengths at which the reader lands in front of the configuration's tag do not lead there. -/
theorem dead_of_short : ∀ k < 16,
    deadFrom (esdsHead (107 + k)) 3 (7 + (descLen (107 + k) - 128)) = true := by
  decide +kernel

theorem readBerLen_counted {q : Nat} {rest : Bytes}
    (h : readBerLen (((0x80 : UInt8) ||| ofNat q) :: rest) = some (len, n)) :
    n = 1 + q % 128 ∧ q % 128 ≤ rest.length ∧ len = berValue (rest.take (q % 128)) := by
  obtain ⟨hb, hlw, -⟩ := or_high_bit q
  rw [readBerLen, if_neg hb, hlw] at h
  dsimp only at h
  split at h
  next => cases h
  next hle =>
    cases h
    exact ⟨rfl, Nat.le_of_not_lt hle, rfl⟩

/-- A length below 256 has no octets other than 0 in front of its last one. -/
theorem no_high_octet {q j : Nat} {rest : Bytes} {x : UInt8}
    (h : readBerLen (((0x80 : UInt8) ||| ofNat q) :: rest) = some (len, n)) (hs : len < 256)
    (hx : rest[j]? = some x) (hne : x ≠ 0) : ¬ (j + 2 ≤ q % 128 ∧ q % 128 ≤ j + 8) := by
  rintro ⟨hj, hj'⟩
  obtain ⟨-, hnm, rfl⟩ := readBerLen_counted h
  exact Nat.not_le.mpr hs (le_berValue hx hne hj hj' hnm)

theorem not_found_of_tag {esds asc : Bytes} {i : Nat} {x : UInt8} (hx : esds.getD i 0 = x)
    (h3 : x ≠ 0x03) (h4 : x ≠ 0x04) (h5 : x ≠ 0x05) : esdsAscFrom esds fuel i ≠ .ok (some asc) := by
  intro h
  obtain ⟨fuel', len, n, hf, hb, hc⟩ := esdsAscFrom_cases h
  rw [hx] at hc
  rcases hc with ⟨ht, -⟩ | ⟨ht | ht, -⟩
  · exact h5 ht
  · exact h3 ht
  · exact h4 ht

/-- The octets that are not 0 behind the length of the first descriptor, `front` and what follows
it, leave room for few digits. -/
theorem digits_le {front : Bytes} {q k : Nat} (hfn : front.length = k) (hk : k ≤ 2)
    (hln : 128 ≤ 12 + asc.length)
    (hb : readBerLen (((0x80 : UInt8) ||| ofNat q) :: (front ++ esdsTail asc)) = some (len, n))
    (hle : 5 + n + len ≤ 21 + k + (putBerLength (12 + asc.length)).length) : q % 128 ≤ k + 2 := by
  obtain ⟨rfl, -⟩ := readBerLen_counted hb
  -- the inner length, in two or three octets
  obtain ⟨q', inner, hin, hiL⟩ : ∃ q' inner,
      putBerLength (12 + asc.length) = ((0x80 : UInt8) ||| ofNat q') :: inner ∧
      (inner.length = 1 ∨ inner.length = 2) := by
    rcases lt_or_ge (12 + asc.length) 16384 with hdc | hdc
    · exact ⟨_, _, putBerLength_two hln hdc, .inl rfl⟩
    · obtain ⟨q', r', l', hin⟩ := putBerLength_three hdc
      exact ⟨q', _, hin, .inr rfl⟩
  rw [hin, length_cons] at hle
  have hn : ∀ (j : Nat) (x : UInt8), (esdsTail asc)[j]? = some x → x ≠ 0 →
      ¬ (k + j + 2 ≤ q % 128 ∧ q % 128 ≤ k + j + 8) := by
    intro j x hx
    refine no_high_octet hb (by omega) ?_
    rw [← hfn, getElem?_append_right (Nat.le_add_right _ _), Nat.add_sub_cancel_left, hx]
  have hfr := hn 1 0x01 rfl (by decide)
  have hs := hn 4 0x04 rfl (by decide)
  rw [esdsTail, hin] at hn
  have hth := hn 5 _ rfl (or_high_ne q' (by decide))
  rcases hiL with ho | htw
  · obtain ⟨a, rfl⟩ := length_eq_one_iff.mp ho
    have hls := hn 11 0x03 rfl (by decide)
    omega
  · obtain ⟨a, b, rfl⟩ := length_eq_two.mp htw
    have hls := hn 12 0x03 rfl (by decide)
    omega

/-- The length of the first descriptor in two octets: the first of them is read as the number of
digits. -/
theorem length_of_found_two (hlw : 128 ≤ descLen asc.length) (hhg : descLen asc.length < 16384)
    (hb : readBerLen (putBerLength (descLen asc.length) ++ esdsTail asc) = some (len, n))
    (hle : 5 + n + len ≤ (esdsHead asc.length).length)
    (h : esdsAscFrom (esdsAround (esdsHead asc.length) asc) fuel (5 + n + len) = .ok (some asc)) :
    asc.length = 123 := by
  have ht := putBerLength_two hlw hhg
  have hhd := esdsAround_esdsHead asc
  rw [ht] at hhd
  rw [length_esdsHead, ht, length_cons, length_cons, length_nil] at hle
  generalize hls : ofNat (descLen asc.length % 128) = l at ht hhd
  have hl : l.toNat = descLen asc.length % 128 := by
    rw [← hls, toNat_ofNat']
    omega
  rw [ht] at hb
  replace hb : readBerLen (_ :: ([l] ++ esdsTail asc)) = _ := hb
  obtain ⟨rfl, -, hlen⟩ := readBerLen_counted hb
  have hds : descLen asc.length = 20 + (putBerLength (12 + asc.length)).length + asc.length := rfl
  generalize hq : descLen asc.length / 128 % 128 = q at h hle hlen
  -- what the reader lands on when the length takes one octet behind the first
  have ho : q = 1 → asc.length = 123 ∨ 123 < asc.length ∨ asc.length < 107 := by
    rintro rfl
    have hv : len = 0 * 256 % 2 ^ 64 + l.toNat := hlen
    by_contra hn
    have hde := dead_of_short (asc.length - 107) (by omega)
    rw [show 107 + (asc.length - 107) = asc.length by omega] at hde
    rw [show 5 + (1 + 1) + len = 7 + (descLen asc.length - 128) by omega] at h
    exact not_found_of_dead 3 _ hde fuel h
  rcases lt_or_ge (12 + asc.length) 128 with hdc | hdc
  · have hi : (putBerLength (12 + asc.length)).length = 1 := by rw [putBerLength_short hdc]; rfl
    have := ho (by omega)
    omega
  · have hi : (putBerLength (12 + asc.length)).length = 2 := by
      rw [putBerLength_two hdc (by omega)]; rfl
    have hf : q ≤ 3 := by
      rw [← hq]
      exact digits_le (k := 1) rfl (by decide) hdc hb (by omega)
    rcases (by omega : q = 1 ∨ q = 2 ∨ q = 3) with rfl | rfl | rfl
    · have hv : len = 0 * 256 % 2 ^ 64 + l.toNat := hlen
      have := ho rfl
      omega
    · -- two octets: the reader lands in the identifier of the stream
      have hv : len = (0 * 256 % 2 ^ 64 + l.toNat) * 256 % 2 ^ 64 + 0 := hlen
      rw [show 5 + (1 + 2) + len = 8 by omega] at h
      refine absurd h (not_found_of_tag (x := 0x01) ?_ (by decide) (by decide) (by decide))
      rw [hhd]
      rfl
    · have hv : len = ((0 * 256 % 2 ^ 64 + l.toNat) * 256 % 2 ^ 64 + 0) * 256 % 2 ^ 64 + 1 := hlen
      rw [show 5 + (1 + 3) + len = 10 by omega] at h
      refine absurd h (not_found_of_tag (x := 0x00) ?_ (by decide) (by decide) (by decide))
      rw [hhd]
      rfl

/-- The length of the first descriptor in three octets: the second of them is read as a high
digit. -/
theorem not_found_three (hhg : 16384 ≤ descLen asc.length)
    (hb : readBerLen (putBerLength (descLen asc.length) ++ esdsTail asc) = some (len, n))
    (hle : 5 + n + len ≤ (esdsHead asc.length).length) :
    esdsAscFrom (esdsAround (esdsHead asc.length) asc) fuel (5 + n + len) ≠ .ok (some asc) := by
  obtain ⟨q, r, l, ht⟩ := putBerLength_three hhg
  have hhd := esdsAround_esdsHead asc
  have hr := (or_high_bit r).2.2
  have hrn := fun (x : UInt8) hx => @or_high_ne r x hx
  rw [ht] at hhd hb
  rw [length_esdsHead, ht, length_cons, length_cons, length_cons, length_nil] at hle
  generalize (0x80 : UInt8) ||| ofNat r = y at hhd hb hr hrn
  replace hb : readBerLen (_ :: ([y, l] ++ esdsTail asc)) = _ := hb
  have hd : descLen asc.length = 20 + (putBerLength (12 + asc.length)).length + asc.length := rfl
  have hi := length_putBerLength_le (12 + asc.length)
  have hf : q % 128 ≤ 4 := digits_le (k := 2) rfl (by decide) (by omega) hb (by omega)
  have hs := no_high_octet (j := 0) hb (by omega) rfl (hrn 0 (by decide))
  obtain ⟨rfl, -, hlen⟩ := readBerLen_counted hb
  rcases (by omega : q % 128 = 0 ∨ q % 128 = 1) with hq | hq
  · have hv : len = 0 := by
      rw [hlen, hq]
      rfl
    rw [hq, hv]
    refine not_found_of_tag (x := y) ?_ (hrn _ (by decide)) (hrn _ (by decide)) (hrn _ (by decide))
    rw [hhd]
    rfl
  · have hv : len = 0 * 256 % 2 ^ 64 + y.toNat := by
      rw [hlen, hq]
      rfl
    omega

/-- **The configuration is found** in its `esds` data exactly if it has 123 octets. -/
theorem parseEsdsAsc_iff (hne : asc ≠ []) (hft : (esdsData asc).length < 2 ^ 64) :
    parseEsdsAsc (esdsData asc) = .ok (some asc) ↔ asc.length = 123 := by
  rw [esdsData_eq hne] at hft ⊢
  constructor
  · intro h
    obtain ⟨fuel, len, n, hb, hle, hr⟩ := first_descriptor h
    have hcs : descLen asc.length < 128 ∨
        128 ≤ descLen asc.length ∧ descLen asc.length < 16384 ∨ 16384 ≤ descLen asc.length := by
      omega
    rcases hcs with hd | ⟨hlw, hh⟩ | hh
    · -- the whole descriptor is passed over
      have ho := putBerLength_short hd
      rw [ho, singleton_append, readBerLen_short hd] at hb
      cases hb
      rw [length_esdsHead, ho, length_singleton] at hle
      rw [descLen] at hle
      omega
    · exact length_of_found_two hlw hh hb hle hr
    · exact absurd hr (not_found_three hh hb hle)
  · intro hlen
    have hp : (esdsHead asc.length).length = 24 := by
      rw [hlen]
      rfl
    have hw := @length_esdsAround (esdsHead asc.length) asc
    have htg : (esdsAround (esdsHead asc.length) asc).getD 4 0 = 0x03 := by
      rw [esdsAround_esdsHead]
      rfl
    have hb : readBerLen ((esdsAround (esdsHead asc.length) asc).drop (4 + 1)) = some (17, 2) := by
      rw [esdsAround_esdsHead, hlen]
      have htl := length_esdsTail asc
      rw [show putBerLength (descLen 123) = [0x81, 17] from rfl]
      show (if (17 :: esdsTail asc).length < 1 then none else some (0 * 256 % 2 ^ 64 + 17, 2)) =
        some (17, 2)
      rw [if_neg (by rw [length_cons]; omega)]
      rfl
    have hfn := found_at (by omega : asc.length < 128) hft 150
    rw [parseEsdsAsc, hw, hp, hlen, show 24 + 123 + 5 = 151 + 1 from rfl, ← hlen, esdsAscFrom,
      if_pos (by omega)]
    dsimp only
    rw [if_neg (by rw [htg]; decide), if_pos (.inl htg), hb]
    dsimp only
    rw [addUsize_of_lt (by omega), checked_some, ok_bind]
    rw [hp] at hfn
    exact hfn

/-! ### The search for the descriptors -/

section Search

/-- The letters of the box. -/
abbrev esdsTag : Bytes := tag 'e' 's' 'd' 's'

variable (rate : Nat) (esds : Bytes)

/-- The last octets of an audio entry: the sample rate is a whole number. -/
theorem be32_shiftLeft : ∃ a b, be32 (rate <<< 16) = [a, b, 0, 0] := by
  refine ⟨_, _, congrArg₂ (fun x y => [_, _, x, y]) ?_ ?_⟩
  · apply UInt8.toNat_inj.mp
    rw [Nat.shiftRight_eq_div_pow, Nat.shiftLeft_eq]
    show rate * 2 ^ 16 / 2 ^ 8 % 2 ^ 8 = 0
    omega
  · apply UInt8.toNat_inj.mp
    rw [UInt8.toNat_ofNat', Nat.shiftLeft_eq]
    show rate * 2 ^ 16 % 2 ^ 8 = 0
    omega

theorem findChildBox_audio : findChildBox esdsTag (audioSampleEntry rate ++ box esdsTag esds) =
      findChildBox esdsTag (be32 (rate <<< 16) ++ box esdsTag esds) := by
  obtain ⟨a, b, hr⟩ := be32_shiftLeft rate
  rw [audioSampleEntry, hr]
  refine (findChildBox_skip 20 _ ?_).trans ?_
  · show (0x65 : UInt8) ∉ [0, 0, 0, 1, 0, 0, 0, 0, 0, 0, 0, 0, 0, 2, 0, 16, 0, 0, 0, 0]
    decide
  refine (findChildBox_cons_of_octet 3 rfl rfl (by decide)).trans ?_
  refine (findChildBox_cons_of_octet 1 rfl rfl (by decide)).trans ?_
  refine (findChildBox_cons_of_octet 0 rfl rfl (by decide)).trans ?_
  exact findChildBox_cons_of_octet 0 rfl rfl (by decide)

/-- **The search in an audio entry** ends at the box, or where the size of the box spells its
letters. -/
theorem findChildBox_audio_cases (hsz : 8 + esds.length < 2 ^ 32) :
    findChildBox esdsTag (audioSampleEntry rate ++ box esdsTag esds) = some esds ∨
      8 + esds.length = 0x65736473 ∧ ∃ m,
        findChildBox esdsTag (audioSampleEntry rate ++ box esdsTag esds) =
          some ((esdsTag ++ esds).take m) := by
  have hb : findChildBox esdsTag (box esdsTag esds) = some esds := findChildBox_box rfl hsz
  obtain ⟨a, b, hrt⟩ := be32_shiftLeft rate
  have hrs : findChildBox esdsTag (b :: 0 :: 0 :: box esdsTag esds) = some esds := by
    refine (findChildBox_cons_of_octet 3 rfl rfl (by decide)).trans ?_
    refine (findChildBox_cons_of_octet 2 rfl rfl (by decide)).trans ?_
    exact (findChildBox_cons_of_octet 3 rfl rfl (by decide)).trans hb
  rw [findChildBox_audio, hrt]
  by_cases hw : be32 (8 + esds.length) = esdsTag
  · have hl : 8 ≤ ([a, b, 0, 0] ++ box esdsTag esds).length := by
      rw [length_append, length_box (length_tag _ _ _ _)]
      exact Nat.le_add_left_of_le (Nat.le_add_right _ _)
    rw [findChildBox_of_window hl hw rfl rfl]
    generalize (if 8 ≤ ofBe _ then _ else _) = stop
    by_cases hst : stop ≤ ([a, b, 0, 0] ++ box esdsTag esds).length
    · refine .inr ⟨(be32_eq_tag_iff hsz (by decide) (by decide)).mp hw, stop - 8, ?_⟩
      rw [if_pos hst, drop_take]
      rfl
    · rw [if_neg hst]
      exact .inl hrs
  · refine .inl ((findChildBox_cons_of_ne a ?_).trans hrs)
    exact hw

end Search

/-- What a sample entry gives back, by what the search and the walk find. -/
theorem extractAacConfig_of_found {entry esds : Bytes}
    (h : findChildBox esdsTag entry = some esds) :
    extractAacConfig entry = parseEsdsAsc esds >>= fun asc => pure (asc.getD [0x12, 0x10]) := by
  rw [extractAacConfig, h]

theorem found_of_extractAacConfig {entry esds asc : Bytes}
    (hf : findChildBox esdsTag entry = some esds) (h : extractAacConfig entry = .ok asc) :
    asc = [0x12, 0x10] ∨ parseEsdsAsc esds = .ok (some asc) := by
  rw [extractAacConfig_of_found hf] at h
  obtain ⟨found, hp, h⟩ := of_bind_ok h
  rw [hp, ← Except.ok.inj h]
  cases found with
  | none => exact .inl rfl
  | some x => exact .inr rfl

/-- **The configuration comes back** from its sample entry if it is the one that the reader falls
back to, or has 123 octets. -/
theorem extractAacConfig_iff {rate : Nat} (hlen : 2 ≤ asc.length)
    (hs : 8 + (esdsData asc).length < 2 ^ 32) :
    extractAacConfig (audioSampleEntry rate ++ box esdsTag (esdsData asc)) = .ok asc ↔
      asc = [0x12, 0x10] ∨ asc.length = 123 := by
  have hne : asc ≠ [] := length_pos_iff.mp (by omega)
  have hif := parseEsdsAsc_iff hne (show (esdsData asc).length < 2 ^ 64 by omega)
  rcases findChildBox_audio_cases rate (esdsData asc) hs with hfn | ⟨hw, m, hfn⟩
  · constructor
    · intro h
      exact (found_of_extractAacConfig hfn h).imp_right hif.mp
    · rintro (rfl | h123)
      · rw [extractAacConfig_of_found hfn]
        rfl
      · rw [extractAacConfig_of_found hfn, hif.mpr h123]
        rfl
  · -- the descriptors then begin with the letters, and the walk ends at once
    have hh := congrArg List.length (esdsData_eq hne)
    rw [length_esdsAround, length_esdsHead] at hh
    have ho := length_putBerLength_le (descLen asc.length)
    have hin := length_putBerLength_le (12 + asc.length)
    refine iff_of_false ?_ ?_
    · intro h
      rcases found_of_extractAacConfig hfn h with rfl | hfd
      · exact absurd hw (by decide)
      · refine not_found_of_tag (x := 0x00) ?_ (by decide) (by decide) (by decide) hfd
        rw [getD_eq_getElem?_getD, getElem?_take]
        split <;> rfl
    · rintro (rfl | h123)
      · exact absurd hw (by decide)
      · omega

end MediaKit.Mp4
