import Mathlib.Algebra.Order.Ring.Nat

/-!
# Byte strings and fixed-width integers

Byte strings are lists of octets. `ofBe`/`ofLe` read an integer from its octets
(`from_be_bytes`, `from_le_bytes`), and the `ofBe_*`/`ofLe_*` lemmas undo the
shift-and-mask writers (`(n >> 16) & 0xFF` and its neighbours), which appear here
as `UInt8.ofNat (n >>> 16)`: `UInt8.ofNat` keeps the low eight bits.
-/

namespace MediaKit.Lib

open List

/-- A byte string. -/
abbrev Bytes := List UInt8

/-- The big-endian value of a byte string. -/
def ofBe (b : Bytes) : Nat := b.foldl (fun n x => n * 256 + x.toNat) 0

/-- The little-endian value of a byte string. -/
def ofLe : Bytes → Nat
  | [] => 0
  | x :: r => x.toNat + 256 * ofLe r

/-- The octets written by a 32-bit big-endian `put`. -/
def be32 (n : Nat) : Bytes :=
  [UInt8.ofNat (n >>> 24), UInt8.ofNat (n >>> 16), UInt8.ofNat (n >>> 8), UInt8.ofNat n]

/-- The octets written by a 16-bit big-endian `put`. -/
def be16 (n : Nat) : Bytes := [UInt8.ofNat (n >>> 8), UInt8.ofNat n]

variable (n : Nat)

@[simp] theorem length_be32 : (be32 n).length = 4 := rfl

@[simp] theorem length_be16 : (be16 n).length = 2 := rfl

theorem ofBe_two (h : n < 2 ^ 16) : ofBe [UInt8.ofNat (n >>> 8), UInt8.ofNat n] = n := by
  simp only [ofBe, foldl_cons, foldl_nil, UInt8.toNat_ofNat']
  omega

theorem ofBe_three (h : n < 2 ^ 24) :
    ofBe [0, UInt8.ofNat (n >>> 16), UInt8.ofNat (n >>> 8), UInt8.ofNat n] = n := by
  simp only [ofBe, foldl_cons, foldl_nil, UInt8.toNat_ofNat', UInt8.toNat_zero]
  omega

theorem ofBe_four (h : n < 2 ^ 32) :
    ofBe [UInt8.ofNat (n >>> 24), UInt8.ofNat (n >>> 16), UInt8.ofNat (n >>> 8), UInt8.ofNat n]
      = n := by
  simp only [ofBe, foldl_cons, foldl_nil, UInt8.toNat_ofNat']
  omega

theorem ofLe_four (h : n < 2 ^ 32) :
    ofLe [UInt8.ofNat n, UInt8.ofNat (n >>> 8), UInt8.ofNat (n >>> 16), UInt8.ofNat (n >>> 24)] =
      n := by
  simp only [ofLe, UInt8.toNat_ofNat']
  omega

/-- The checksum of MPEG-2 sections: polynomial `04C11DB7`, the highest bit first. -/
def crcMpeg2 (data : Bytes) : UInt32 :=
  let shift := fun crc : UInt32 =>
    if crc &&& 0x80000000 ≠ 0 then (crc <<< 1) ^^^ 0x04C11DB7 else crc <<< 1
  data.foldl (fun crc (byte : UInt8) =>
    Nat.iterate shift 8 (crc ^^^ (byte.toUInt32 <<< (24 : UInt32))))
    0xFFFFFFFF

/-! ## Bits -/

theorem forall_octet {P : UInt8 → Prop} (h : ∀ n : Fin 256, P (UInt8.ofNat n)) (x : UInt8) :
    P x := by
  have := h ⟨x.toNat, UInt8.toNat_lt x⟩
  rwa [UInt8.ofNat_toNat] at this

/-- The `d` bits of a number above its lowest `k`, joined to those above them. -/
theorem shiftLeft_or_part (n k d : Nat) :
    (n >>> (k + d)) <<< (k + d) ||| (n >>> k % 2 ^ d) <<< k = (n >>> k) <<< k := by
  have hh : n >>> (k + d) = n >>> k / 2 ^ d := by
    rw [Nat.shiftRight_add, Nat.shiftRight_eq_div_pow (n >>> k)]
  have hs : ∀ m : Nat, m <<< (k + d) = (m <<< d) <<< k := by
    intro m
    rw [add_comm, Nat.shiftLeft_add]
  rw [hs, ← Nat.shiftLeft_or_distrib,
    ← Nat.shiftLeft_add_eq_or_of_lt (Nat.mod_lt _ (Nat.two_pow_pos d)), hh, Nat.shiftLeft_eq _ d,
    mul_comm, Nat.div_add_mod]

end MediaKit.Lib
