import MediaKit.Lib.Box
import MediaKit.Lib.LengthPrefixed

/-!
# WebSocket frames

`crates/http/src/ws.rs`: `WsFrame::encode_server` writes a frame, and `WsFrame::decode` takes one
off the front of the bytes that have arrived.

> `decode_encode`: a frame comes back from the form of a server and from that of a client, whatever
> follows it, and nothing comes back from a part of it.
> `decode_returns_iff`: a length that overflows its sum with the offset ends the program, whether
sums > trap or wrap; all other bytes are decoded.

Mirroring notes vs the Rust source:
  * `none` is a panic, and `some none` the `None` of the source. Sums of `usize` trap or wrap, as
    `trapping` says.
  * Offsets into the buffer are what is left from them on.
  * `encodeClient` is the form that clients send; the source has only its decoder.
-/

namespace MediaKit.Http

open Lib List

structure WsFrame where
  fin : Bool
  opcode : UInt8
  payload : Bytes
  deriving DecidableEq

namespace WsFrame

variable (f : WsFrame) (trapping : Bool) (n : Nat) (b1 : UInt8) (key r : Bytes)

/-- The second byte of a frame, and the bytes of the length behind it. -/
def lengthBytes : UInt8 × Bytes :=
  if n < 126 then (UInt8.ofNat n, []) else if n ≤ 0xFFFF then (126, be16 n) else (127, be64 n)

def firstByte : UInt8 := ((if f.fin then 1 else 0 : UInt8) <<< 7) ||| f.opcode

def encodeServer : Bytes :=
  f.firstByte :: (lengthBytes f.payload.length).1 :: ((lengthBytes f.payload.length).2 ++ f.payload)

/-- Every byte is combined with the byte of the key whose turn it is. -/
def mask (payload : Bytes) : Bytes := payload.mapIdx fun i byte => byte ^^^ key.getD (i % 4) 0

/-- The form of a client: the mask bit is set, and the key stands behind the length. -/
def encodeClient : Bytes :=
  f.firstByte :: ((lengthBytes f.payload.length).1 ||| 0x80) ::
    ((lengthBytes f.payload.length).2 ++ (key ++ mask key f.payload))

/-- `a + b` for `usize`. -/
def sumUsize (a b : Nat) : Option Nat :=
  if a + b < 2 ^ 64 then some (a + b) else if trapping then none else some ((a + b) % 2 ^ 64)

/-- The length of the payload and the number of its bytes behind the second one, if they are
there. -/
def lengthField : Option (Nat × Nat) :=
  let len := (b1 &&& 0x7F).toNat
  if len = 126 then if r.length < 2 then none else some (ofBe (r.take 2), 2)
  else if len = 127 then if r.length < 8 then none else some (ofBe (r.take 8), 8)
  else some (len, 0)

/-- The key and the payload of a frame, behind its length: `offset` bytes are in front of `r`. -/
def decodeBody (b0 : UInt8) (len offset : Nat) : Option (Option (WsFrame × Nat)) :=
  let masked := b1 &&& 0x80 ≠ 0
  if masked ∧ r.length < 4 then some none
  else
    let key := if masked then r.take 4 else []
    let start := offset + key.length
    (sumUsize trapping start len).bind fun stop =>
      if offset + r.length < stop then some none
      -- the range of a slice may not be reversed
      else if stop < start then none
      else
        let payload := (r.drop key.length).take (stop - start)
        some (some (⟨b0 &&& 0x80 ≠ 0, b0 &&& 0x0F, if masked then mask key payload else payload⟩,
          stop))

def decode : Bytes → Option (Option (WsFrame × Nat))
  | b0 :: b1 :: r =>
    match lengthField b1 r with
    | none => some none
    | some (len, wide) => decodeBody trapping b1 (r.drop wide) b0 len (2 + wide)
  | _ => some none

/-! ## What comes back -/

variable {f trapping n b1 key r} {b0 : UInt8} {body s t : Bytes} {offset : Nat}

theorem mask_mask (payload : Bytes) : mask key (mask key payload) = payload := by
  apply ext_getElem?
  intro i
  simp only [mask, getElem?_mapIdx]
  cases payload[i]? with
  | none => rfl
  | some x => simp [UInt8.xor_assoc]

theorem mask_nil (payload : Bytes) : mask [] payload = payload := by
  apply ext_getElem?
  simp [mask]

theorem prefix_append_cases {x : Bytes} (h : r <+: x ++ s) :
    r.length < x.length ∨ ∃ r', r = x ++ r' ∧ r' <+: s := by
  rcases lt_or_ge r.length x.length with hlt | hge
  · exact .inl hlt
  · obtain ⟨r', rfl⟩ := prefix_of_prefix_length_le (prefix_append x s) h hge
    exact .inr ⟨r', rfl, (prefix_append_right_inj x).mp h⟩

/-- The number `n` is read from its bytes once all of them are there. -/
theorem lengthField_arrived (hn : n < 2 ^ 63) (hb1 : b1 &&& 0x7F = (lengthBytes n).1)
    (h : r <+: (lengthBytes n).2 ++ s) :
    lengthField b1 r = if r.length < (lengthBytes n).2.length then none
      else some (n, (lengthBytes n).2.length) := by
  rw [lengthField, hb1]
  unfold lengthBytes at h ⊢
  split at h
  next hlt =>
    rw [if_pos hlt]
    have hlw : (UInt8.ofNat n).toNat = n := UInt8.toNat_ofNat_of_lt' (lt_trans hlt (by decide))
    rw [hlw, if_neg (by omega), if_neg (by omega)]
    rfl
  next hlt =>
    split at h
    next hle =>
      rw [if_neg hlt, if_pos hle]
      rcases prefix_append_cases h with hs | ⟨r', rfl, -⟩
      · exact (if_pos hs).trans (if_pos hs).symm
      · exact congrArg (fun len => if (be16 n ++ r').length < 2 then none else some (len, 2))
          (ofBe_two n (by omega))
    next hle =>
      rw [if_neg hlt, if_neg hle]
      rcases prefix_append_cases h with hs | ⟨r', rfl, -⟩
      · exact (if_pos hs).trans (if_pos hs).symm
      · exact congrArg (fun len => if (be64 n ++ r').length < 8 then none else some (len, 8))
          (ofBe_be64 (by omega))

/-- A key is there just if the mask bit is set. -/
def Keyed (b1 : UInt8) (key : Bytes) : Prop := if b1 &&& 0x80 ≠ 0 then key.length = 4 else key = []

/-- What has arrived of the key and the payload. -/
theorem decodeBody_arrived (hk : Keyed b1 key) (hlen : offset + 4 + body.length < 2 ^ 64)
    (h : r <+: key ++ (body ++ t)) :
    decodeBody trapping b1 r b0 body.length offset =
      some (if r.length < key.length + body.length then none
      else some (⟨b0 &&& 0x80 ≠ 0, b0 &&& 0x0F, mask key body⟩,
        offset + key.length + body.length)) := by
  rw [decodeBody]
  dsimp only
  rcases prefix_append_cases h with hs | ⟨r, rfl, h'⟩
  · by_cases hm : b1 &&& 0x80 ≠ 0
    · rw [Keyed, if_pos hm] at hk
      rw [if_pos ⟨hm, by omega⟩, if_pos (by omega)]
    · rw [Keyed, if_neg hm] at hk
      rw [hk] at hs
      exact absurd hs (Nat.not_lt_zero _)
  have hth : ¬ (b1 &&& 0x80 ≠ 0 ∧ (key ++ r).length < 4) ∧
    (if b1 &&& 0x80 ≠ 0 then (key ++ r).take 4 else []) = key ∧
      key.length ≤ 4 ∧ ∀ p, (if b1 &&& 0x80 ≠ 0 then mask key p else p) = mask key p := by
    by_cases hm : b1 &&& 0x80 ≠ 0
    · rw [Keyed, if_pos hm] at hk
      simp only [if_pos hm, ← hk, take_left, length_append]
      exact ⟨fun h => Nat.not_lt.mpr (Nat.le_add_right _ _) h.2, trivial, le_rfl, fun _ => trivial⟩
    · rw [Keyed, if_neg hm] at hk
      subst hk
      simp only [if_neg hm, mask_nil]
      exact ⟨fun h => hm h.1, trivial, Nat.zero_le 4, fun _ => trivial⟩
  obtain ⟨hn, htk, hf, hms⟩ := hth
  rw [if_neg hn, htk, sumUsize, if_pos (by omega), Option.bind_some, length_append, drop_left,
    Nat.add_sub_cancel_left, hms]
  rcases prefix_append_cases h' with hs | ⟨r, rfl, -⟩
  · rw [if_pos (by omega), if_pos (by omega)]
  · rw [length_append, if_neg (by omega), if_neg (by omega), if_neg (by omega), take_left]

theorem firstByte_spec (h : f.opcode < 16) :
    decide (f.firstByte &&& 0x80 ≠ 0) = f.fin ∧ f.firstByte &&& 0x0F = f.opcode := by
  have hal : ∀ x : UInt8, x < 16 → ∀ fin : Bool,
    decide ((((if fin then 1 else 0 : UInt8) <<< 7) ||| x) &&& 0x80 ≠ 0) = fin ∧
      (((if fin then 1 else 0 : UInt8) <<< 7) ||| x) &&& 0x0F = x :=
      forall_octet (by decide +kernel)
  exact hal f.opcode h f.fin

/-- **What has arrived of a frame** in one of its forms. -/
theorem decode_arrived (hop : f.opcode < 16) (hlen : f.payload.length < 2 ^ 63)
    (hb1 : b1 &&& 0x7F = (lengthBytes f.payload.length).1) (hk : Keyed b1 key)
    (h : s <+: f.firstByte :: b1 :: ((lengthBytes f.payload.length).2 ++
      (key ++ mask key f.payload)) ++ t) :
    decode trapping s = some (
      if s.length <
        (f.firstByte :: b1 :: ((lengthBytes f.payload.length).2 ++
          (key ++ mask key f.payload))).length then none
      else some (f, (f.firstByte :: b1 ::
        ((lengthBytes f.payload.length).2 ++ (key ++ mask key f.payload))).length)) := by
  have hm : (mask key f.payload).length = f.payload.length := length_mapIdx
  rw [cons_append, cons_append, append_assoc, append_assoc] at h
  simp only [length_cons, length_append]
  rcases prefix_append_cases (x := [f.firstByte, b1]) h with hs | ⟨r, rfl, h'⟩
  · rw [if_pos (by simp only [length_cons, length_nil] at hs; omega)]
    match s, hs with
    | [], _ => rfl
    | [_], _ => rfl
  show (match lengthField b1 r with
    | none => some none
    | some (len, wide) => decodeBody trapping b1 (r.drop wide) f.firstByte len (2 + wide)) = _
  rw [lengthField_arrived hlen hb1 h']
  have he : (lengthBytes f.payload.length).2.length ≤ 8 := by
    unfold lengthBytes
    split
    · exact Nat.zero_le _
    · split <;> simp
  rcases prefix_append_cases h' with hs | ⟨r, rfl, h''⟩
  · rw [if_pos hs, if_pos (by simp only [length_append, length_cons, length_nil]; omega)]
  simp only [length_append, length_cons, length_nil]
  rw [if_neg (by omega)]
  dsimp only
  obtain ⟨hf, hoc⟩ := firstByte_spec hop
  generalize (lengthBytes f.payload.length).2 = ext at he ⊢
  rw [drop_left, ← hm, decodeBody_arrived hk (by omega) h'', hf, hoc, mask_mask, hm]
  congr 1
  split <;> split <;> first | rfl | omega | (congr 2; omega)

/-- **Round trip of both forms**, with anything behind; of a part of a frame nothing comes back. -/
theorem decode_encode (f : WsFrame) (trapping : Bool) (key t : Bytes) (hop : f.opcode < 16)
    (hlen : f.payload.length < 2 ^ 63)
    (hkey : key.length = 4) : ∀ form ∈ [f.encodeServer, f.encodeClient key],
      decode trapping (form ++ t) = some (some (f, form.length)) ∧
      ∀ part, part <+: form → part ≠ form → decode trapping part = some none := by
  have hbt : ∀ m : UInt8, m < 128 → m &&& 0x7F = m ∧ m &&& 0x80 = 0 ∧ (m ||| 0x80) &&& 0x7F = m ∧
      (m ||| 0x80) &&& 0x80 ≠ 0 :=
    forall_octet (by decide +kernel)
  obtain ⟨hlw, hbi, hlw', hbi'⟩ := hbt (lengthBytes f.payload.length).1 (by
    unfold lengthBytes
    split
    next h =>
      rw [UInt8.lt_iff_toNat_lt, UInt8.toNat_ofNat_of_lt' (lt_trans h (by decide))]
      exact lt_trans h (by decide)
    next =>
      split
      · exact (by decide : (126 : UInt8) < 128)
      · exact (by decide : (127 : UInt8) < 128))
  have hfm : ∀ form ∈ [f.encodeServer, f.encodeClient key], ∀ {s t : Bytes}, s <+: form ++ t →
      decode trapping s = some (if s.length < form.length then none
        else some (f, form.length)) := by
    intro form hfr s t h
    simp only [mem_cons, not_mem_nil, or_false] at hfr
    rcases hfr with rfl | rfl
    · have hs := @decode_arrived f trapping (lengthBytes f.payload.length).1 [] s t hop hlen hlw
        (by rw [Keyed, if_neg (not_not_intro hbi)])
      rw [mask_nil] at hs
      exact hs h
    · exact decode_arrived hop hlen hlw' (by rwa [Keyed, if_pos hbi']) h
  intro form hfr
  constructor
  · rw [hfm form hfr prefix_rfl, if_neg (by rw [length_append]; omega)]
  · intro part hp hne
    rw [hfm form hfr (t := []) (by rwa [append_nil]), if_pos]
    exact Nat.lt_of_not_le fun hle => hne (hp.eq_of_length_le hle)

/-- A pong with two octets, of which the masked form hides both. -/
theorem decode_pong :
    let f : WsFrame := ⟨true, 0xA, [7, 9]⟩
    f.encodeClient [1, 2, 3, 4] = [0x8A, 0x82, 1, 2, 3, 4, 6, 11] ∧
    decode true (f.encodeServer ++ [5]) = some (some (f, 4)) ∧
    decode true (f.encodeClient [1, 2, 3, 4] ++ [5]) = some (some (f, 8)) := by
  intro f
  have h := decode_encode f true [1, 2, 3, 4] [5] (by decide) (by decide) rfl
  exact ⟨by decide, (h _ mem_cons_self).1, (h _ (mem_cons_of_mem _ mem_cons_self)).1⟩

/-! ## Lengths that overflow -/

def keyLen (b1 : UInt8) : Nat := if b1 &&& 0x80 ≠ 0 then 4 else 0

/-- A complete header with a length of 64 bits that overflows its sum with the offset. -/
def Overlong : Bytes → Prop
  | _ :: b1 :: r => (b1 &&& 0x7F).toNat = 127 ∧ 8 + keyLen b1 ≤ r.length ∧
      2 ^ 64 ≤ 10 + keyLen b1 + ofBe (r.take 8)
  | _ => False

/-- The key and the payload are decoded, or their sum overflows. -/
theorem decodeBody_returns_iff {len : Nat} (hlen : len < 2 ^ 64) :
    (∃ found, decodeBody trapping b1 r b0 len offset = some found ∧ ∀ x ∈ found,
      x.2 ≤ offset + r.length) ↔
      ¬ (keyLen b1 ≤ r.length ∧ 2 ^ 64 ≤ offset + keyLen b1 + len) := by
  rw [decodeBody]
  dsimp only
  split
  next hc =>
    refine iff_of_true ⟨none, rfl, nofun⟩ fun h => ?_
    rw [keyLen, if_pos hc.1] at h
    omega
  next hc =>
    have hk : (if b1 &&& 0x80 ≠ 0 then r.take 4 else []).length = keyLen b1 ∧
        keyLen b1 ≤ r.length := by
      rw [keyLen]
      split
      next hm =>
        have hle : 4 ≤ r.length := Nat.le_of_not_lt fun h => hc ⟨hm, h⟩
        exact ⟨length_take_of_le hle, hle⟩
      next => exact ⟨rfl, Nat.zero_le _⟩
    obtain ⟨hk, hle⟩ := hk
    rw [hk, sumUsize]
    split
    next hsm =>
      refine iff_of_true ?_ (by omega)
      rw [Option.bind_some]
      split
      · exact ⟨none, rfl, nofun⟩
      next hst =>
        rw [if_neg (by omega)]
        refine ⟨_, rfl, fun x hx => ?_⟩
        rw [← Option.some.inj hx]
        exact Nat.le_of_not_lt hst
    next hsm =>
      -- a sum that wraps is below the offset, so that the range is reversed
      refine iff_of_false ?_ (not_not_intro ⟨hle, Nat.le_of_not_lt hsm⟩)
      rintro ⟨found, hf, -⟩
      split at hf
      · cases hf
      · rw [Option.bind_some, if_neg (by omega), if_pos (by omega)] at hf
        cases hf

/-- **Bytes are decoded** just if their length does not overflow; what is consumed then has
arrived. -/
theorem decode_returns_iff (trapping : Bool) (b : Bytes) :
    (∃ found, decode trapping b = some found ∧ ∀ x ∈ found, x.2 ≤ b.length) ↔ ¬ Overlong b := by
  match b with
  | [] | [_] => exact iff_of_true ⟨none, rfl, nofun⟩ id
  | b0 :: b1 :: r =>
    have hby : ∀ k, ofBe (r.take k) < 256 ^ k := fun k =>
      lt_of_lt_of_le (ofBe_lt _) (Nat.pow_le_pow_right (by decide) (length_take_le k r))
    have hlw := UInt8.toNat_lt (b1 &&& 0x7F)
    have hk : keyLen b1 ≤ 4 := by
      rw [keyLen]
      split <;> decide
    have hbd : ∀ {len wide : Nat}, wide ≤ r.length → len < 2 ^ 64 →
        ((∃ found, decodeBody trapping b1 (r.drop wide) b0 len (2 + wide) = some found ∧
          ∀ x ∈ found, x.2 ≤ (b0 :: b1 :: r).length) ↔
          ¬ (keyLen b1 ≤ r.length - wide ∧ 2 ^ 64 ≤ 2 + wide + keyLen b1 + len)) := by
      intro len wide hw hlen
      have hi := @decodeBody_returns_iff trapping b1 (r.drop wide) b0 (2 + wide) len hlen
      rwa [length_drop, show 2 + wide + (r.length - wide) =
        (b0 :: b1 :: r).length by simp only [length_cons]; omega] at hi
    rw [decode, lengthField, Overlong]
    split_ifs with h126 hs h127 hs
    · exact iff_of_true ⟨none, rfl, nofun⟩ (by omega)
    · have := hby 2
      exact (hbd (by omega) (by omega)).trans (iff_of_true (by omega) (by omega))
    · exact iff_of_true ⟨none, rfl, nofun⟩ (by omega)
    · have := hby 8
      exact (hbd (by omega) (by omega)).trans (not_congr (by omega))
    · exact (hbd (Nat.zero_le _) (by omega)).trans (iff_of_true (by omega) (by omega))

/-- A length of `2^64 - 1`, and nothing else. -/
theorem decode_overlong : (decode true (0x82 :: 0x7F :: replicate 8 0xFF) = none ∧
    decode false (0x82 :: 0x7F :: replicate 8 0xFF) = none) := by
  decide +kernel

end WsFrame

end MediaKit.Http
