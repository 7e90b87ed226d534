import MediaKit.Mp4.Tables

/-!
# Codec configurations in a sample entry

The recorder puts a configuration record into a box of the sample entry; the reader looks for
the letters of the box octet by octet.

> `extractAvcc_iff`: the record comes back, unless the letters `avcC` stand in front of it by
> chance, in the size of the picture or in the length of the record.
-/

namespace MediaKit.Mp4

open MediaKit.Core Lib List Option

/-! ## Looking for letters -/

variable {data kind r target : Bytes}

theorem findChildBox_of_short (h : data.length < 8) : findChildBox target data = none := by
  cases data with
  | nil => rfl
  | cons x r => rw [findChildBox, if_neg (by omega)]

theorem findChildBox_cons_of_ne (x : UInt8) (h : (r.drop 3).take 4 ≠ target) :
    findChildBox target (x :: r) = findChildBox target r := by
  by_cases hlen : 8 ≤ (x :: r).length
  · have hw : ((x :: r).drop 4).take 4 ≠ target := h
    rw [findChildBox, if_pos hlen, if_neg hw]
  · rw [length_cons] at hlen
    rw [findChildBox_of_short (by rw [length_cons]; omega), findChildBox_of_short (by omega)]

theorem findChildBox_skip {t : UInt8} {ts : Bytes} :
    ∀ (n : Nat) (data : Bytes), t ∉ (data.drop 4).take n →
    findChildBox (t :: ts) data = findChildBox (t :: ts) (data.drop n)
  | 0, _, _ => rfl
  | n + 1, [], _ => rfl
  | n + 1, x :: r, h => by
    -- the window starts with another octet, and the rest of the skip lies behind it
    have hs : (r.drop 3).take 4 ≠ t :: ts ∧ t ∉ (r.drop 4).take n := by
      have hn : r.drop 4 = (r.drop 3).drop 1 := by rw [drop_drop]
      replace h : t ∉ (r.drop 3).take (n + 1) := h
      rw [hn]
      cases hr : r.drop 3 with
      | nil => simp
      | cons y ys =>
        rw [hr, take_succ_cons, mem_cons, not_or] at h
        exact ⟨fun heq => h.1 (List.cons.inj heq).1.symm, h.2⟩
    rw [findChildBox_cons_of_ne x hs.1]
    exact findChildBox_skip n r hs.2

/-- A place where the letters stand: `stop` is where the box would end. -/
theorem findChildBox_of_window {size stop : Nat} (hlen : 8 ≤ data.length)
    (h : (data.drop 4).take 4 = target)
    (hsz : ofBe (data.take 4) = size) (hst : (if 8 ≤ size then size else data.length) = stop) :
    findChildBox target data =
      if stop ≤ data.length then some ((data.take stop).drop 8)
        else findChildBox target (data.drop 1) := by
  cases data with
  | nil => exact absurd hlen (Nat.not_succ_le_zero 7)
  | cons x r =>
    rw [findChildBox, if_pos hlen, if_pos h, hsz, ← hst]
    rfl

theorem findChildBox_box {body : Bytes} (hk : kind.length = 4) (hsz : 8 + body.length < 2 ^ 32) :
    findChildBox kind (box kind body) = some body := by
  have hat : BoxAt (box kind body) 0 kind body [] :=
    Behind.box hk ⟨Nat.zero_le _, by rw [drop_zero, append_nil]⟩
  have hlen := length_box hk body
  have hsA : ofBe ((box kind body).take 4) = 8 + body.length := hat.sizeAt.ofBe_take hsz
  have hkA : ((box kind body).drop 4).take 4 = kind := by
    have ht := hat.kindAt.take
    rwa [hk] at ht
  have hb : ((box kind body).take (8 + body.length)).drop 8 = body := by
    rw [← hlen, take_length]
    have hd := hat.bodyAt.2
    rwa [zero_add, append_nil] at hd
  rw [findChildBox_of_window (by omega) hkA hsA (if_pos (by omega)), if_pos (by omega), hb]

/-! ## The record of a video track -/

/-- The letters of the record's box. -/
abbrev avcC : Bytes := tag 'a' 'v' 'c' 'C'

/-- The octets of an entry behind the size of the picture, up to the configuration box. -/
def visualSampleEntryEnd : Bytes :=
  be32 0x00480000 ++ be32 0x00480000 ++ be32 0 ++ be16 1 ++ replicate 32 0 ++ be16 0x0018 ++
    be16 0xFFFF

/-- The size of the picture spells `avcC`. -/
theorem be16_be16_eq_avcC_iff {w h : Nat} (hw : w < 2 ^ 16) (hh : h < 2 ^ 16) :
    be16 w ++ be16 h = avcC ↔ w = 0x6176 ∧ h = 0x6343 := by
  constructor
  · intro heq
    have hf : be16 w = [0x61, 0x76] := congrArg (take 2) heq
    have hs : be16 h = [0x63, 0x43] := congrArg (drop 2) heq
    constructor
    · rw [← ofBe_two w hw, show [UInt8.ofNat (w >>> 8), UInt8.ofNat w] = [0x61, 0x76] from hf]
      rfl
    · rw [← ofBe_two h hh, show [UInt8.ofNat (h >>> 8), UInt8.ofNat h] = [0x63, 0x43] from hs]
      rfl
  · rintro ⟨rfl, rfl⟩
    decide

theorem be32_eq_tag_iff {n value : Nat} (hn : n < 2 ^ 32) (hof : ofBe kind = value)
    (hbe : be32 value = kind) : be32 n = kind ↔ n = value := by
  constructor
  · intro heq
    rw [← hof, ← heq, ofBe_be32 hn]
  · rintro rfl
    exact hbe

/-- One octet of the window is not that of the letters. -/
theorem findChildBox_cons_of_octet {x y z : UInt8} (i : Nat) (hw : ((r.drop 3).take 4)[i]? = some y)
    (ht : target[i]? = some z) (hne : y ≠ z) :
    findChildBox target (x :: r) = findChildBox target r := by
  refine findChildBox_cons_of_ne x fun heq => hne ?_
  rw [heq, ht] at hw
  exact (some.inj hw).symm

section Visual

variable (w h : Nat) (avcc : Bytes)

/-- The entry from the size of the picture on. -/
def visualRest : Bytes := be16 w ++ (be16 h ++ (visualSampleEntryEnd ++ box avcC avcc))

theorem findChildBox_visual_picture :
    findChildBox avcC (visualSampleEntry w h ++ box avcC avcc) =
      findChildBox avcC (0 :: 0 :: 0 :: 0 :: visualRest w h avcc) := by
  refine findChildBox_skip 20 _ ?_
  show (0x61 : UInt8) ∉ [0, 0, 0, 1, 0, 0, 0, 0, 0, 0, 0, 0, 0, 0, 0, 0, 0, 0, 0, 0]
  decide

theorem findChildBox_visual_box (hp : be16 w ++ be16 h ≠ avcC) :
    findChildBox avcC (0 :: 0 :: 0 :: 0 :: visualRest w h avcc) =
      findChildBox avcC (0x00 :: 0x18 :: 0xFF :: 0xFF :: box avcC avcc) := by
  refine (findChildBox_cons_of_ne 0 ?_).trans ?_
  · exact hp
  -- the octets behind the picture do not go on with the letters
  refine (findChildBox_cons_of_octet 3 rfl rfl (by decide)).trans ?_
  refine (findChildBox_cons_of_octet 2 rfl rfl (by decide)).trans ?_
  refine (findChildBox_cons_of_octet 1 rfl rfl (by decide)).trans ?_
  refine findChildBox_skip 50 _ ?_
  show (0x61 : UInt8) ∉ visualSampleEntryEnd
  decide

/-- **The search in a video entry**: the size of the picture and the size of the box are the only
octets in front of the box where its letters can stand. -/
theorem findChildBox_visual (hs : 8 + avcc.length < 2 ^ 32) (hp : be16 w ++ be16 h ≠ avcC)
    (hb : be32 (8 + avcc.length) ≠ avcC) :
    findChildBox avcC (visualSampleEntry w h ++ box avcC avcc) = some avcc := by
  rw [findChildBox_visual_picture, findChildBox_visual_box w h avcc hp]
  refine (findChildBox_cons_of_ne _ ?_).trans ?_
  · exact hb
  refine (findChildBox_cons_of_octet 3 rfl rfl (by decide)).trans ?_
  refine (findChildBox_cons_of_octet 3 rfl rfl (by decide)).trans ?_
  refine (findChildBox_cons_of_octet 3 rfl rfl (by decide)).trans ?_
  exact findChildBox_box rfl hs

/-- **The search for the record.** At the size of the picture it takes all that is left, at
the size of the box what the end of the entry says. -/
theorem extractAvcc_cases {w h : Nat} {avcc : Bytes} (hw : w < 2 ^ 16) (hh : h < 2 ^ 16)
    (hsz : 8 + avcc.length < 2 ^ 32) :
    (w = 0x6176 ∧ h = 0x6343) ∧
        (extractAvcc (visualSampleEntry w h ++ box avcC avcc)).length = 58 + avcc.length ∨
      8 + avcc.length = 0x61766343 ∧
        (extractAvcc (visualSampleEntry w h ++ box avcC avcc)).length = 0x18FFF7 ∨
      (¬ (w = 0x6176 ∧ h = 0x6343) ∧ 8 + avcc.length ≠ 0x61766343) ∧
        extractAvcc (visualSampleEntry w h ++ box avcC avcc) = avcc := by
  have hpI := be16_be16_eq_avcC_iff hw hh
  have hbI : be32 (8 + avcc.length) = avcC ↔ 8 + avcc.length = 0x61766343 :=
    be32_eq_tag_iff hsz (by decide) (by decide)
  by_cases hpc : be16 w ++ be16 h = avcC
  · refine .inl ⟨hpI.mp hpc, ?_⟩
    let data := 0 :: 0 :: 0 :: 0 :: visualRest w h avcc
    have hlen : data.length = 66 + avcc.length := by
      simp only [data, visualRest, length_cons, length_append, length_be16,
        length_box (length_tag _ _ _ _)]
      rw [show visualSampleEntryEnd.length = 50 from rfl]
      omega
    have hf : findChildBox avcC data = some ((data.take data.length).drop 8) := by
      have hsA : ofBe (data.take 4) = 0 := rfl
      have hwn : (data.drop 4).take 4 = avcC := hpc
      rw [findChildBox_of_window (by omega) hwn hsA (if_neg (by omega)), if_pos le_rfl]
    rw [extractAvcc, findChildBox_visual_picture, hf, getD_some, length_drop, length_take]
    omega
  by_cases hbx : be32 (8 + avcc.length) = avcC
  · have hsm := hbI.mp hbx
    refine .inr (.inl ⟨hsm, ?_⟩)
    let data := 0x00 :: 0x18 :: 0xFF :: 0xFF :: box avcC avcc
    have hlen : data.length = 12 + avcc.length := by
      simp only [data, length_cons, length_box (length_tag _ _ _ _)]
      omega
    have hsA : ofBe (data.take 4) = 0x18FFFF :=
      show ofBe [0x00, 0x18, 0xFF, 0xFF] = 0x18FFFF by decide
    have hf : findChildBox avcC data = some ((data.take 0x18FFFF).drop 8) := by
      have hwn : (data.drop 4).take 4 = avcC := hbx
      rw [findChildBox_of_window (by omega) hwn hsA (if_pos (by omega)), if_pos (by omega)]
    rw [extractAvcc, findChildBox_visual_picture, findChildBox_visual_box w h avcc hpc, hf,
      getD_some, length_drop, length_take]
    omega
  · refine .inr (.inr ⟨⟨fun h => hpc (hpI.mpr h), fun h => hbx (hbI.mpr h)⟩, ?_⟩)
    rw [extractAvcc, findChildBox_visual w h avcc hsz hpc hbx]
    rfl

/-- **The record comes back** unless letters in front of it mislead the search. -/
theorem extractAvcc_iff {w h : Nat} {avcc : Bytes} (hw : w < 2 ^ 16) (hh : h < 2 ^ 16)
    (hs : 8 + avcc.length < 2 ^ 32) :
    extractAvcc (visualSampleEntry w h ++ box avcC avcc) = avcc ↔
      ¬ (w = 0x6176 ∧ h = 0x6343) ∧ 8 + avcc.length ≠ 0x61766343 := by
  rcases extractAvcc_cases hw hh hs with ⟨hp, hlen⟩ | ⟨hb, hlen⟩ | ⟨hc, heq⟩
  · exact iff_of_false (fun heq => by rw [heq] at hlen; omega) fun hc => hc.1 hp
  · exact iff_of_false (fun heq => by rw [heq] at hlen; omega) fun hc => hc.2 hb
  · exact iff_of_true heq hc

end Visual

end MediaKit.Mp4
