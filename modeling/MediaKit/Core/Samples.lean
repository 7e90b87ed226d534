import MediaKit.Core.AnnexB
import MediaKit.Lib.LengthPrefixed

/-!
# Samples behind lengths and behind start codes

`crates/core/src/payload.rs` converts a video sample from one form to the other. The two conversions
undo each other (`samples_convert`), but a sample without a declared form is taken for Annex-B or
FLV by its first bytes, which may be those of a length (`sample_detected_iff`). -/

namespace MediaKit.Core

open Lib List UInt8

/-- NAL units behind their lengths. -/
def prefixedOf (nalus : List Bytes) : Bytes := nalus.flatMap fun n => be32 n.length ++ n

variable {nalus ns : List Bytes} {n data out : Bytes}

/-- What the units of a sample have to be. -/
structure AreUnits (nalus : List Bytes) : Prop where
  ne_nil : ∀ n ∈ nalus, n ≠ []
  noCode : ∀ n ∈ nalus, ¬ [0, 0, 1] <:+: n
  short : ∀ n ∈ nalus, n.length < 2 ^ 32

theorem be32_ofBe (a b c d : UInt8) : be32 (ofBe [a, b, c, d]) = [a, b, c, d] := by
  have ha := a.toNat_lt
  have hb := b.toNat_lt
  have hc := c.toNat_lt
  have hd := d.toNat_lt
  simp only [be32, ofBe, foldl_cons, foldl_nil, cons.injEq, and_true, ← UInt8.toNat_inj,
    UInt8.toNat_ofNat']
  omega

theorem lengthPrefixedUnits_prefixedOf (hne : ∀ n ∈ nalus, n ≠ [])
    (hs : ∀ n ∈ nalus, n.length < 2 ^ 32) :
    ∀ {fuel}, (prefixedOf nalus).length ≤ fuel →
      lengthPrefixedUnits fuel (prefixedOf nalus) = .ok (annexBOf nalus) := by
  induction nalus with
  | nil =>
    intro fuel _
    cases fuel <;> rfl
  | cons n ns ih =>
    intro fuel hf
    simp only [prefixedOf, flatMap_cons, length_append, length_be32] at hf
    obtain ⟨fuel, rfl⟩ := Nat.exists_eq_add_of_le' (show 1 ≤ fuel by omega)
    obtain ⟨hn, hne⟩ := forall_mem_cons.mp hne
    obtain ⟨hlen, hs⟩ := forall_mem_cons.mp hs
    have hm := @ih hne hs fuel (by rw [prefixedOf]; omega)
    have hr : ofBe (be32 n.length) = n.length := ofBe_four _ hlen
    rw [prefixedOf, flatMap_cons, append_assoc, lengthPrefixedUnits, if_pos (by simp)]
    dsimp only
    rw [take_left' (length_be32 _), drop_left' (length_be32 _), hr, take_left, drop_left,
      if_neg (by simp [hn]), show flatMap _ ns = prefixedOf ns from rfl, hm]
    exact congrArg Except.ok (append_assoc ..)

/-- What is accepted is well formed. -/
theorem prefixedOf_of_lengthPrefixedUnits :
    ∀ {fuel data out}, lengthPrefixedUnits fuel data = .ok out →
    ∃ nalus, (∀ n ∈ nalus, n ≠ []) ∧ data = prefixedOf nalus ∧ out = annexBOf nalus := by
  intro fuel
  induction fuel with
  | zero =>
    intro data out h
    cases data <;> cases h
    exact ⟨[], nofun, rfl, rfl⟩
  | succ fuel ih =>
    intro data out h
    rw [lengthPrefixedUnits] at h
    split at h
    next hlen =>
      obtain ⟨a, b, c, d, rest, rfl⟩ : ∃ a b c d rest, data = a :: b :: c :: d :: rest := by
        match data, hlen with
        | a :: b :: c :: d :: rest, _ => exact ⟨a, b, c, d, rest, rfl⟩
      have hc := be32_ofBe a b c d
      simp only [take_succ_cons, take_zero, drop_succ_cons, drop_zero] at h
      generalize ofBe [a, b, c, d] = len at h hc
      split at h
      · cases h
      next hf =>
        cases hut : lengthPrefixedUnits fuel (rest.drop len) with
        | error e =>
          rw [hut] at h
          cases h
        | ok units =>
          rw [hut] at h
          cases h
          obtain ⟨nalus, hne, hr, rfl⟩ := ih hut
          have hun : (rest.take len).length = len := length_take_of_le (by omega)
          refine ⟨rest.take len :: nalus, forall_mem_cons.mpr ⟨?_, hne⟩, ?_, ?_⟩
          · rw [← length_pos_iff]
            omega
          · rw [prefixedOf, flatMap_cons, hun, hc, append_assoc, ← prefixedOf, ← hr,
              take_append_drop]
            rfl
          · rfl
    next =>
      cases data <;> cases h
      exact ⟨[], nofun, rfl, rfl⟩

theorem lengthPrefixedToAnnexB_prefixedOf (hne : nalus ≠ []) (h : AreUnits nalus) :
    lengthPrefixedToAnnexB (prefixedOf nalus) = .ok (annexBOf nalus) := by
  obtain ⟨n, ns, rfl⟩ := exists_cons_of_ne_nil hne
  rw [lengthPrefixedToAnnexB, lengthPrefixedUnits_prefixedOf h.ne_nil h.short le_rfl]
  rfl

theorem annexBToLengthPrefixed_annexBOf (hne : nalus ≠ []) (h : AreUnits nalus) :
    annexBToLengthPrefixed (annexBOf nalus) = .ok (prefixedOf nalus) := by
  have hu := annexBNaluRanges_annexBOf h.ne_nil h.noCode
  have hs : (annexBNaluRanges (annexBOf nalus)).isEmpty = false := by
    rw [← isEmpty_map, hu, isEmpty_map, isEmpty_eq_false_iff]
    exact hne
  have hf := congrArg (flatMap fun p => be32 p.1 ++ p.2) hu
  rw [flatMap_map, flatMap_map] at hf
  rw [annexBToLengthPrefixed, hs]
  exact congrArg Except.ok hf

/-- **The two forms of a sample** are converted into each other, and what is taken for units behind
lengths is that. -/
theorem samples_convert :
    (∀ nalus, nalus ≠ [] → AreUnits nalus →
      lengthPrefixedToAnnexB (prefixedOf nalus) = .ok (annexBOf nalus) ∧
      annexBToLengthPrefixed (annexBOf nalus) = .ok (prefixedOf nalus)) ∧
    ∀ data out, lengthPrefixedToAnnexB data = .ok out → ∃ nalus, nalus ≠ [] ∧
    (∀ n ∈ nalus, n ≠ []) ∧ data = prefixedOf nalus := by
  refine ⟨fun nalus hne h => ⟨lengthPrefixedToAnnexB_prefixedOf hne h,
    annexBToLengthPrefixed_annexBOf hne h⟩, ?_⟩
  intro data out h
  rw [lengthPrefixedToAnnexB] at h
  cases hu : lengthPrefixedUnits data.length data with
  | error e =>
    rw [hu] at h
    cases h
  | ok units =>
    obtain ⟨nalus, hne, hd, rfl⟩ := prefixedOf_of_lengthPrefixedUnits hu
    refine ⟨nalus, ?_, hne, hd⟩
    rintro rfl
    rw [hu] at h
    cases h

/-- A picture in two slices. -/
def picture : List Bytes := [[0x65, 1], [0x65, 0x40, 2]]

theorem areUnits_picture : AreUnits picture := ⟨by decide, by decide, by decide⟩

theorem picture_converts : lengthPrefixedToAnnexB (prefixedOf picture) = .ok (annexBOf picture) ∧
    annexBToLengthPrefixed (annexBOf picture) = .ok (prefixedOf picture) :=
  samples_convert.1 picture (cons_ne_nil _ _) areUnits_picture

/-! ## Which form -/

/-- The first two bytes of a length, as those of an FLV tag. -/
def LooksFlv (len : Nat) : Prop := ((len >>> 24) % 16 = 7 ∨ (len >>> 24) % 16 = 12) ∧
  (len >>> 16) % 16 ≤ 1

theorem startsWithAnnexB_iff (hn : n.length < 2 ^ 32) :
    startsWithAnnexB (prefixedOf (n :: ns)) = true ↔ n.length = 1 ∨ 2 ^ 8 ≤ n.length ∧
    n.length < 2 ^ 9 := by
  have ht : (prefixedOf (n :: ns)).take 3 = [ofNat (n.length >>> 24), ofNat (n.length >>> 16),
    ofNat (n.length >>> 8)] := rfl
  have hf : (prefixedOf (n :: ns)).take 4 = be32 n.length := rfl
  rw [startsWithAnnexB, ht, hf]
  simp only [be32, Bool.or_eq_true, decide_eq_true_eq, cons.injEq, and_true, ← UInt8.toNat_inj,
    UInt8.toNat_ofNat', Nat.shiftRight_eq_div_pow, UInt8.reduceToNat]
  omega

theorem prefixedOf_eq_annexBOf_iff (h : ∀ n ∈ nalus, n.length < 2 ^ 32) :
    prefixedOf nalus = annexBOf nalus ↔ ∀ n ∈ nalus, n.length = 1 := by
  rw [prefixedOf, annexBOf, flatMap_eq_iff_of_length_le fun n
    _ => by rw [length_append, length_append]; exact le_rfl]
  refine forall₂_congr fun n hn => ?_
  have hlen := h n hn
  rw [append_left_inj, be32, annexBStartCode]
  simp only [cons.injEq, and_true, ← UInt8.toNat_inj, UInt8.toNat_ofNat', UInt8.reduceToNat]
  omega

theorem looksFlv_iff (hn : n ≠ []) : flvVideoHeaderLen ≤ (prefixedOf (n :: ns)).length ∧
    ((prefixedOf (n :: ns)).getD 0 0 &&& 0x0F = 7 ∨ (prefixedOf (n :: ns)).getD 0 0 &&& 0x0F = 12) ∧
      (prefixedOf (n :: ns)).getD 1 0 &&& 0x0F ≤ 1 ↔ LooksFlv n.length := by
  have hf : (prefixedOf (n :: ns)).getD 0 0 = ofNat (n.length >>> 24) := rfl
  have hs : (prefixedOf (n :: ns)).getD 1 0 = ofNat (n.length >>> 16) := rfl
  have hlen : flvVideoHeaderLen ≤ (prefixedOf (n :: ns)).length := by
    have hpos := length_pos_iff.mpr hn
    simp only [prefixedOf, flatMap_cons, length_append, length_be32, flvVideoHeaderLen]
    omega
  have hlw : ∀ x, (ofNat x &&& 0x0F).toNat = x % 16 := by
    intro x
    rw [UInt8.toNat_and, UInt8.toNat_ofNat', show (0x0F : UInt8).toNat = 2 ^ 4 - 1 from rfl,
      Nat.and_two_pow_sub_one_eq_mod]
    omega
  rw [and_iff_right hlen, hf, hs, LooksFlv, ← UInt8.toNat_inj, ← UInt8.toNat_inj,
    UInt8.le_iff_toNat_le, hlw, hlw]
  rfl

/-- **A sample without a declared form** is converted exactly if its first length is not taken for a
start code, with all units of one byte excepted, nor for an FLV tag. -/
theorem sample_detected_iff (f : MediaFrame) (n : Bytes) (ns : List Bytes)
    (hcodec : f.codec = .h264 ∨ f.codec = .h265) (hflag : f.configFrame = false)
    (hformat : f.payloadFormat = .unknown) (hdata : f.data = prefixedOf (n :: ns))
    (h : AreUnits (n :: ns)) :
    (videoSampleAnnexB f = .ok (annexBOf (n :: ns)) ∧ videoSampleLengthPrefixed f = .ok f.data) ↔
      (n.length = 1 → ∀ m ∈ ns, m.length = 1) ∧ ¬ (2 ^ 8 ≤ n.length ∧ n.length < 2 ^ 9) ∧
      ¬ LooksFlv n.length := by
  obtain ⟨hn, -⟩ := forall_mem_cons.mp h.ne_nil
  obtain ⟨hsh, -⟩ := forall_mem_cons.mp h.short
  have hst := @startsWithAnnexB_iff ns n hsh
  have hfl := @looksFlv_iff ns n hn
  have he := prefixedOf_eq_annexBOf_iff h.short
  have hco' : ¬ (f.codec ≠ .h264 ∧ f.codec ≠ .h265) := by tauto
  rw [videoSampleAnnexB, videoSampleLengthPrefixed, hflag, if_neg Bool.false_ne_true,
    if_neg Bool.false_ne_true, if_neg hco',
    declaredOrDetectedVideoFormat, if_neg (not_not_intro hformat), hdata]
  by_cases hcd : startsWithAnnexB (prefixedOf (n :: ns)) = true
  · rw [if_pos hcd]
    rw [Except.ok.injEq, he]
    constructor
    · rintro ⟨hon, -⟩
      obtain ⟨hone, hon⟩ := forall_mem_cons.mp hon
      rw [hone]
      exact ⟨fun _ => hon, by decide, fun hfl => absurd hfl.1 (by decide)⟩
    · rintro ⟨hon, hr, -⟩
      -- a sample of units of one byte is the same in both forms
      have hone := (hst.mp hcd).resolve_right hr
      have hal : ∀ m ∈ n :: ns, m.length = 1 := forall_mem_cons.mpr ⟨hone, hon hone⟩
      refine ⟨hal, ?_⟩
      rw [he.mpr hal, annexBToLengthPrefixed_annexBOf (cons_ne_nil n ns) h, he.mpr hal]
  · rw [if_neg hcd]
    by_cases hlk : LooksFlv n.length
    · rw [if_pos (hfl.mpr hlk)]
      refine iff_of_false (fun hb => ?_) fun hg => hg.2.2 hlk
      have hsm := hb.2
      dsimp only at hsm
      split at hsm
      · cases hsm
      · -- five bytes are missing
        have hlen := congrArg length (Except.ok.inj hsm)
        rw [length_drop, flvVideoHeaderLen] at hlen
        have hm := (hfl.mpr hlk).1
        omega
    · rw [if_neg fun hfr => hlk (hfl.mp hfr)]
      refine iff_of_true ?_ ⟨fun hone => absurd (hst.mpr (.inl hone)) hcd,
        fun hr => hcd (hst.mpr (.inr hr)), hlk⟩
      split_ifs <;> exact ⟨lengthPrefixedToAnnexB_prefixedOf (cons_ne_nil n ns) h, rfl⟩

/-- A sample without a declared form. -/
def undeclared (nalus : List Bytes) : MediaFrame := .newVideo 0 .h264 0 0 0 (prefixedOf nalus) true

theorem picture_detected : videoSampleAnnexB (undeclared picture) = .ok (annexBOf picture) ∧
    videoSampleLengthPrefixed (undeclared picture) = .ok (undeclared picture).data := by
  refine (sample_detected_iff (undeclared picture) [0x65, 1] [[0x65, 0x40, 2]]
    (.inl rfl) rfl rfl rfl
    areUnits_picture).mpr ?_
  exact ⟨by decide, by decide, fun hf => absurd hf.1 (by decide)⟩

/-- A first unit of 256 bytes: its length is taken for a start code. -/
theorem length_taken_for_code : videoSampleAnnexB (undeclared [replicate 256 0x65]) = .ok
    (prefixedOf [replicate 256 0x65]) ∧
    prefixedOf [replicate 256 0x65] ≠ annexBOf [replicate 256 0x65] := by
  decide +kernel

end MediaKit.Core
