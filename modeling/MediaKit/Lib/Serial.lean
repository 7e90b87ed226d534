import Mathlib.Data.List.MinMax

/-!
# Serial numbers

Numbers of 16 bits that count on past their last value. The distance from `e` to `a` is
`(a - e).toNat`: how often `e` has to be counted up to reach `a`. Counting `e` up brings
every number nearer that has not been reached (`toNat_sub_add`).
-/

namespace MediaKit.Lib.Serial

/-- A number at distance zero has been reached. -/
theorem sub_eq_zero_iff {a e : UInt16} : a - e = 0 ↔ a = e := by
  rw [UInt16.sub_eq_iff_eq_add, UInt16.zero_add]

theorem toNat_sub_pos {a e : UInt16} (hne : a ≠ e) : 0 < (a - e).toNat :=
  Nat.pos_of_ne_zero fun h => hne (sub_eq_zero_iff.mp (UInt16.toNat_inj.mp h))

theorem add_ofNat_sub (a e : UInt16) : e + UInt16.ofNat (a - e).toNat = a := by
  rw [UInt16.ofNat_toNat, UInt16.add_comm, UInt16.sub_add_cancel]

theorem toNat_sub_add {a e : UInt16} {k : Nat} (hk : k ≤ (a - e).toNat) :
    (a - (e + UInt16.ofNat k)).toNat = (a - e).toNat - k := by
  have hlt : (a - e).toNat < 2 ^ 16 := UInt16.toNat_lt _
  have hs : a - (e + UInt16.ofNat k) = a - e - UInt16.ofNat k := by grind
  have hle : UInt16.ofNat k ≤ a - e := by
    rw [UInt16.le_iff_toNat_le, UInt16.toNat_ofNat', Nat.mod_eq_of_lt (by omega)]
    exact hk
  rw [hs, UInt16.toNat_sub_of_le _ _ hle, UInt16.toNat_ofNat', Nat.mod_eq_of_lt (by omega)]

end MediaKit.Lib.Serial
