import MediaKit.Lib.Bytes

/-!
# UTF-8

A string is a list of characters. `decode` is a strict decoder
(`str::from_utf8`), `lossy` replaces every maximal ill-formed part by U+FFFD
(`String::from_utf8_lossy`), `encode` writes a string. Both decoders run the
same machine, one octet at a time: `need n lo hi acc` has read the beginning
`acc` of a character, expects an octet between `lo` and `hi` next and `n` more
continuation octets behind it.

What a parser over a shared buffer needs is `decode_append`: behind a string
that is complete, the octets that follow are decoded on their own. A parser of
lossy text needs `lossy_append_ascii`, since an ASCII character ends what is ill
formed before it, and `byteLen_of_decode` to compare lengths.
-/

namespace MediaKit.Lib

open List Option

/-- A character string. -/
abbrev Str := List Char

/-- A literal is its characters. -/
instance : Coe String Str := ⟨String.toList⟩

/-- The length of a string in octets. -/
def byteLen (s : Str) : Nat := (s.map Char.utf8Size).sum

theorem byteLen_cons (c : Char) (s : Str) : byteLen (c :: s) = c.utf8Size + byteLen s := by
  unfold byteLen
  rw [map_cons, sum_cons]

theorem byteLen_append (a b : Str) : byteLen (a ++ b) = byteLen a + byteLen b := by
  unfold byteLen
  rw [map_append, sum_append]

namespace Utf8

variable {cs : Str} {q q' : State} {b x : UInt8}

def encode (s : Str) : Bytes := s.flatMap String.utf8EncodeChar

theorem encode_append (a b : Str) : encode (a ++ b) = encode a ++ encode b := flatMap_append

theorem encode_injective : Function.Injective encode := by
  intro a b h
  have he : a.utf8Encode = b.utf8Encode := congrArg toByteArray h
  have hd := congrArg ByteArray.utf8Decode? he
  rw [utf8Decode?_utf8Encode, utf8Decode?_utf8Encode, some.injEq] at hd
  exact Array.toList_inj.mpr hd

inductive State where
  | start
  | need (left : Nat) (lo hi : UInt8) (acc : Nat)
  deriving DecidableEq

/-- The first octet of a character. -/
def first (b : UInt8) : Option (State × Str) :=
  if b ≤ 0x7F then some (.start, [Char.ofNat b.toNat])
  else if 0xC2 ≤ b ∧ b ≤ 0xDF then some (.need 0 0x80 0xBF (b &&& 0x1F).toNat, [])
  else if b = 0xE0 then some (.need 1 0xA0 0xBF (b &&& 0x0F).toNat, [])
  else if b = 0xED then some (.need 1 0x80 0x9F (b &&& 0x0F).toNat, [])
  else if 0xE1 ≤ b ∧ b ≤ 0xEF then some (.need 1 0x80 0xBF (b &&& 0x0F).toNat, [])
  else if b = 0xF0 then some (.need 2 0x90 0xBF (b &&& 0x07).toNat, [])
  else if 0xF1 ≤ b ∧ b ≤ 0xF3 then some (.need 2 0x80 0xBF (b &&& 0x07).toNat, [])
  else if b = 0xF4 then some (.need 2 0x80 0x8F (b &&& 0x07).toNat, [])
  else none

/-- One octet: the state after it and the character it completes. -/
def step : State → UInt8 → Option (State × Str)
  | .start, b => first b
  | .need left lo hi acc, b =>
    if lo ≤ b ∧ b ≤ hi then
      let acc := acc * 64 + (b &&& 0x3F).toNat
      match left with
      | 0 => some (.start, [Char.ofNat acc])
      | left + 1 => some (.need left 0x80 0xBF acc, [])
    else none

def run : State → Bytes → Option (State × Str)
  | q, [] => some (q, [])
  | q, b :: r =>
    match step q b with
    | none => none
    | some (q', cs) => (run q' r).map fun p => (p.1, cs ++ p.2)

/-- The string that the octets spell, if they are well formed. -/
def decode (b : Bytes) : Option Str :=
  match run .start b with
  | some (.start, cs) => some cs
  | _ => none

/-- The octets are well formed. -/
def Valid (b : Bytes) : Prop := (decode b).isSome = true

instance (b : Bytes) : Decidable (Valid b) := inferInstanceAs (Decidable (_ = true))

/-- The decoder that never fails. -/
def lossyFrom : State → Bytes → Str
  | .start, [] => []
  | .need .., [] => ['�']
  | q, b :: r =>
    match step q b with
    | some (q', cs) => cs ++ lossyFrom q' r
    | none =>
      match q with
      | .start => '�' :: lossyFrom .start r
      | .need .. =>
        -- the octet ends the ill-formed part and is read again
        match first b with
        | some (q', cs) => '�' :: (cs ++ lossyFrom q' r)
        | none => '�' :: '�' :: lossyFrom .start r

def lossy (b : Bytes) : Str := lossyFrom .start b

theorem run_append : ∀ (a b : Bytes) (q : State), run q (a ++ b)
    = (run q a).bind fun p => (run p.1 b).map fun p' => (p'.1, p.2 ++ p'.2) := by
  intro a
  induction a with
  | nil =>
    intro b q
    cases h : run q b <;> simp [run]
  | cons x a ih =>
    intro b q
    simp only [cons_append, run]
    cases step q x with
    | none => rfl
    | some p =>
      simp only [ih]
      cases run p.1 a with
      | none => rfl
      | some p' => cases h : run p'.1 b <;> simp [h]

theorem decode_append {a : Bytes} (h : decode a = some cs) (b : Bytes) :
    decode (a ++ b) = (decode b).map (cs ++ ·) := by
  unfold decode at h ⊢
  rw [run_append]
  cases hr : run .start a with
  | none => rw [hr] at h; cases h
  | some p =>
    obtain ⟨q, cs'⟩ := p
    rw [hr] at h
    cases q with
    | need _ _ _ _ => cases h
    | start =>
      cases h
      simp only [bind_some]
      cases run .start b with
      | none => rfl
      | some p' =>
        obtain ⟨q', cs''⟩ := p'
        cases q' <;> rfl

/-- Behind a complete string, the whole is well formed when the rest is. -/
theorem valid_append_iff {a : Bytes} (h : Valid a) (b : Bytes) : Valid (a ++ b) ↔ Valid b := by
  obtain ⟨cs, hcs⟩ := isSome_iff_exists.mp h
  unfold Valid
  rw [decode_append hcs, isSome_map]

/-! ## The lossy decoder -/

/-- A character that has begun goes on with octets outside ASCII. -/
def Begun : State → Prop
  | .start => True
  | .need _ lo _ _ => 0x7F < lo

theorem begun_first (h : first b = some (q, cs)) : Begun q := by
  unfold first at h
  repeat' split at h
  all_goals cases h
  · trivial
  all_goals
    show (0x7F : UInt8) < _
    decide

theorem begun_step (h : step q b = some (q', cs)) : Begun q' := by
  cases q with
  | start => exact begun_first h
  | need left lo hi acc =>
    simp only [step] at h
    split at h
    · cases left with
      | zero => cases h; trivial
      | succ left =>
        cases h
        show (0x7F : UInt8) < _
        decide
    · cases h

theorem lossyFrom_cons (q : State) (b : UInt8) (r : Bytes) : lossyFrom q (b :: r) =
    match step q b with
    | some (q', cs) => cs ++ lossyFrom q' r
    | none =>
      match q with
      | .start => '�' :: lossyFrom .start r
      | .need .. =>
        match first b with
        | some (q', cs) => '�' :: (cs ++ lossyFrom q' r)
        | none => '�' :: '�' :: lossyFrom .start r := by
  cases q <;> rfl

/-- An ASCII character behind a complete one, and its effect on an incomplete one. -/
theorem lossyFrom_cons_ascii (hx : x ≤ 0x7F) (hq : Begun q) (r : Bytes) :
    lossyFrom q (x :: r) = lossyFrom q [] ++ Char.ofNat x.toNat :: lossyFrom .start r := by
  have hf : first x = some (.start, [Char.ofNat x.toNat]) := if_pos hx
  cases q with
  | start =>
    rw [lossyFrom_cons, show step .start x = first x from rfl, hf]
    rfl
  | need left lo hi acc =>
    have hs : step (.need left lo hi acc) x = none := by
      refine if_neg fun h => ?_
      exact absurd (UInt8.le_trans h.1 hx) (UInt8.not_le.mpr hq)
    rw [lossyFrom_cons, hs]
    rw [hf]
    rfl

/-- **An ASCII character cuts the text.** What stands before it is decoded on its own. -/
theorem lossyFrom_append_ascii (hx : x ≤ 0x7F) (r : Bytes) : ∀ (a : Bytes) {q : State},
    Begun q → lossyFrom q (a ++ x :: r) = lossyFrom q a ++ Char.ofNat x.toNat :: lossyFrom .start r
  | [], q, hq => lossyFrom_cons_ascii hx hq r
  | y :: a, q, hq => by
    have ih := fun {q' : State} (hq' : Begun q') => lossyFrom_append_ascii hx r a hq'
    have hsr : Begun .start := trivial
    rw [cons_append, lossyFrom_cons, lossyFrom_cons]
    cases hst : step q y with
    | some p =>
      dsimp only
      rw [ih (begun_step hst), append_assoc]
    | none =>
      cases q with
      | start =>
        rw [ih hsr]
        rfl
      | need left lo hi acc =>
        cases hf : first y with
        | some p =>
          dsimp only
          rw [ih (begun_first hf), cons_append, append_assoc]
        | none =>
          rw [ih hsr]
          rfl

theorem lossy_append_ascii (a : Bytes) (hx : x ≤ 0x7F) (r : Bytes) :
    lossy (a ++ x :: r) = lossy a ++ Char.ofNat x.toNat :: lossy r :=
  lossyFrom_append_ascii hx r a trivial

theorem lossyFrom_of_run : ∀ {b : Bytes} {q : State} {cs : Str}, run q b = some (.start, cs) →
    lossyFrom q b = cs
  | [], q, cs, h => by
    cases h
    rfl
  | x :: b, q, cs, h => by
    rw [run] at h
    rw [lossyFrom_cons]
    cases hs : step q x with
    | none => rw [hs] at h; cases h
    | some p =>
      rw [hs] at h
      obtain ⟨⟨q'', cs''⟩, hrun, heq⟩ := map_eq_some_iff.mp h
      cases heq
      dsimp only
      rw [lossyFrom_of_run hrun]

theorem run_of_decode {b : Bytes} (h : decode b = some cs) : run .start b = some (.start, cs) := by
  unfold decode at h
  split at h
  next hrun =>
    cases h
    exact hrun
  next => cases h

theorem lossy_of_decode {b : Bytes} (h : decode b = some cs) : lossy b = cs :=
  lossyFrom_of_run (run_of_decode h)

/-! ## The length of a decoded text -/

/-- `k` octets of the character that is being read lie behind the machine; whatever value the
character gets, it has as many octets as are read for it. -/
def Behind (k : Nat) : State → Prop
  | .start => k = 0
  | .need left lo hi acc => 128 ≤ lo.toNat ∧ hi.toNat < 192 ∧ ∀ n,
    (acc * 64 + (lo.toNat - 128)) * 64 ^ left ≤ n →
      n < (acc * 64 + (hi.toNat - 127)) * 64 ^ left → (Char.ofNat n).utf8Size = k + left + 1

theorem utf8Size_ofNat {n size : Nat} (h : n < 0x80 ∧ size = 1 ∨ 0x80 ≤ n ∧ n < 0x800 ∧ size = 2 ∨
      0x800 ≤ n ∧ (n < 0xD800 ∨ 0xDFFF < n ∧ n < 0x10000) ∧ size = 3 ∨ 0x10000 ≤ n ∧ n < 0x110000 ∧
      size = 4) :
    (Char.ofNat n).utf8Size = size := by
  have hv : (Char.ofNat n).val.toNat = n := by
    unfold Char.ofNat
    rw [dif_pos (by omega : n < 0xD800 ∨ 0xDFFF < n ∧ n < 0x110000)]
    rfl
  unfold Char.utf8Size
  simp only [UInt32.le_iff_toNat_le, UInt32.toNat_ofNatLT]
  split_ifs <;> omega

theorem toNat_and_low (b m : UInt8) (n : Nat) (hm : m.toNat = 2 ^ n - 1) :
    (b &&& m).toNat = b.toNat % 2 ^ n := by
  rw [UInt8.toNat_and, hm, Nat.and_two_pow_sub_one_eq_mod]

theorem first_behind (h : first b = some (q, cs)) :
    (q = .start ∧ ∃ c : Char, cs = [c] ∧ c.utf8Size = 1) ∨ cs = [] ∧ Behind 1 q := by
  unfold first at h
  rw [toNat_and_low b 0x1F 5 rfl, toNat_and_low b 0x0F 4 rfl, toNat_and_low b 0x07 3 rfl] at h
  simp only [UInt8.le_iff_toNat_le, ← UInt8.toNat_inj, UInt8.reduceToNat] at h
  split at h
  · cases h
    exact .inl ⟨rfl, _, rfl, utf8Size_ofNat (by omega)⟩
  · right
    repeat' split at h
    all_goals cases h
    all_goals
      refine ⟨rfl, by decide, by decide, fun n hlo hhi => utf8Size_ofNat ?_⟩
      simp only [UInt8.reduceToNat] at hlo hhi
      omega

theorem step_behind {k : Nat} (hq : Behind k q) (h : step q b = some (q', cs)) :
    (q' = .start ∧ ∃ c : Char, cs = [c] ∧ c.utf8Size = k + 1) ∨ cs = [] ∧ Behind (k + 1) q' := by
  cases q with
  | start =>
    cases (hq : k = 0)
    exact first_behind h
  | need left lo hi acc =>
    obtain ⟨hlo, hhi, hs⟩ := hq
    simp only [step, toNat_and_low b 0x3F 6 rfl, UInt8.le_iff_toNat_le] at h
    split at h
    case isFalse => cases h
    next hb =>
      have hv : acc * 64 + (lo.toNat - 128) ≤ acc * 64 + b.toNat % 64 ∧
          acc * 64 + b.toNat % 64 + 1 ≤ acc * 64 + (hi.toNat - 127) := by omega
      cases left with
      | zero =>
        cases h
        exact .inl ⟨rfl, _, rfl, hs _ (by omega) (by omega)⟩
      | succ left =>
        cases h
        refine .inr ⟨rfl, by decide, by decide, fun n hn hn' => ?_⟩
        -- the values left are those behind the octet
        have hlw := Nat.mul_le_mul_right (64 ^ (left + 1)) hv.1
        have hhg := Nat.mul_le_mul_right (64 ^ (left + 1)) hv.2
        rw [hs n (hlw.trans ?_) (lt_of_lt_of_le ?_ hhg)]
        · omega
        · rw [Nat.pow_succ', ← mul_assoc]
          exact hn
        · rw [Nat.pow_succ', ← mul_assoc, Nat.add_mul _ 1]
          exact hn'

theorem byteLen_of_run : ∀ {b : Bytes} {k : Nat} {q : State} {cs : Str}, Behind k q →
    run q b = some (.start, cs) → byteLen cs = b.length + k
  | [], k, q, cs, hq, h => by
    cases h
    cases (hq : k = 0)
    rfl
  | x :: b, k, q, cs, hq, h => by
    rw [run] at h
    cases hst : step q x with
    | none => rw [hst] at h; cases h
    | some p =>
      obtain ⟨q', cs'⟩ := p
      rw [hst] at h
      obtain ⟨⟨q'', cs''⟩, hrun, heq⟩ := map_eq_some_iff.mp h
      cases heq
      rcases step_behind hq hst with ⟨rfl, c, rfl, hsz⟩ | ⟨rfl, hq'⟩
      · have hlen := byteLen_of_run (k := 0) (q := .start) rfl hrun
        rw [byteLen_append, hlen, byteLen_cons, hsz, length_cons]
        simp only [byteLen, map_nil, sum_nil]
        omega
      · have hlen := byteLen_of_run hq' hrun
        rw [nil_append, hlen, length_cons]
        omega

theorem byteLen_of_decode {b : Bytes} (h : decode b = some cs) : byteLen cs = b.length :=
  byteLen_of_run (k := 0) (q := .start) rfl (run_of_decode h)

end Utf8

end MediaKit.Lib
