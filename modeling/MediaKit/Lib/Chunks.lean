import MediaKit.Lib.Bytes

/-!
# Chunks

`slice::chunks`: a list cut into parts of a fixed length, the last of which may be shorter.
-/

namespace MediaKit.Lib

open List

variable {α : Type}

/-- At most `fuel` chunks of `n`. -/
def chunksUpTo (n : Nat) : Nat → List α → List (List α)
  | 0, _ => []
  | fuel + 1, l => if l.isEmpty then [] else l.take n :: chunksUpTo n fuel (l.drop n)

/-- Every chunk takes at least one element, so their number bounds the chunks. -/
def chunks (n : Nat) (l : List α) : List (List α) := chunksUpTo n l.length l

variable {n : Nat}

theorem length_drop_le {fuel : Nat} {x : α} {l : List α} (hn : 0 < n)
    (h : (x :: l).length ≤ fuel + 1) : ((x :: l).drop n).length ≤ fuel := by
  rw [length_drop]
  omega

theorem flatten_chunksUpTo (hn : 0 < n) :
    ∀ {fuel : Nat} {l : List α}, l.length ≤ fuel → (chunksUpTo n fuel l).flatten = l
  | 0, l, h => (length_eq_zero_iff.mp (Nat.le_zero.mp h)).symm
  | fuel + 1, [], _ => rfl
  | fuel + 1, x :: l, h => by
    rw [chunksUpTo, if_neg (by simp), flatten_cons, flatten_chunksUpTo hn (length_drop_le hn h),
      take_append_drop]

theorem isEmpty_chunksUpTo {n fuel : Nat} {l : List α} (h : l = [] ∨ 0 < fuel) :
    (chunksUpTo n fuel l).isEmpty = l.isEmpty := by
  cases l with
  | nil => cases fuel <;> rfl
  | cons x l =>
    obtain ⟨fuel, rfl⟩ := Nat.exists_eq_add_of_le' (h.resolve_left (cons_ne_nil x l))
    rfl

theorem flatten_chunks (hn : 0 < n) (l : List α) : (chunks n l).flatten = l :=
  flatten_chunksUpTo hn le_rfl

theorem mem_chunksUpTo (hn : 0 < n) : ∀ {fuel : Nat} {l c : List α}, c ∈ chunksUpTo n fuel l →
    c ≠ [] ∧ c.length ≤ n
  | fuel + 1, [], c, h => by simp [chunksUpTo] at h
  | fuel + 1, x :: l, c, h => by
    rw [chunksUpTo, if_neg (by simp), mem_cons] at h
    rcases h with rfl | h
    · refine ⟨?_, length_take_le _ _⟩
      cases n with
      | zero => omega
      | succ n => simp
    · exact mem_chunksUpTo hn h

theorem mem_chunks (hn : 0 < n) {l c : List α} (h : c ∈ chunks n l) : c ≠ [] ∧ c.length ≤ n :=
  mem_chunksUpTo hn h

theorem length_chunksUpTo (hn : 0 < n) : ∀ {fuel : Nat} {l : List α}, l.length ≤ fuel →
    (chunksUpTo n fuel l).length = (l.length + n - 1) / n
  | 0, l, h => by
    rw [Nat.div_eq_of_lt (by omega)]
    rfl
  | fuel + 1, [], _ => by
    rw [length_nil, Nat.div_eq_of_lt (by omega)]
    rfl
  | fuel + 1, x :: l, h => by
    rw [chunksUpTo, if_neg (by simp), length_cons, length_chunksUpTo hn (length_drop_le hn h),
      length_drop, length_cons]
    by_cases hle : l.length + 1 ≤ n
    · rw [Nat.div_eq_of_lt (by omega), Nat.div_eq_of_lt_le] <;> omega
    · rw [show l.length + 1 + n - 1 = l.length + 1 - n + n - 1 + n by omega, Nat.add_div_right _ hn]

theorem length_chunks (hn : 0 < n) (l : List α) : (chunks n l).length = (l.length + n - 1) / n :=
  length_chunksUpTo hn le_rfl

theorem flatten_filter_chunksUpTo {n m : Nat} (hm : m ≤ n) (hn : 0 < n) :
    ∀ {fuel : Nat} {l : List α},
    l.length ≤ fuel → ((chunksUpTo n fuel l).filter fun c => m ≤ c.length).flatten =
      if l.length % n < m then l.take (l.length - l.length % n) else l
  | 0, l, h => by
    obtain rfl := length_eq_zero_iff.mp (Nat.le_zero.mp h)
    simp [chunksUpTo]
  | fuel + 1, [], _ => by simp [chunksUpTo]
  | fuel + 1, x :: l, h => by
    have ih := flatten_filter_chunksUpTo hm hn (length_drop_le hn h)
    rw [chunksUpTo, if_neg (by simp)]
    generalize x :: l = xs at *
    by_cases hlt : xs.length < n
    · -- the last chunk, which may be too short
      have hnil : xs.drop n = [] := drop_eq_nil_of_le (le_of_lt hlt)
      rw [hnil] at ih ⊢
      rw [take_of_length_le (Nat.le_of_lt hlt), Nat.mod_eq_of_lt hlt, Nat.sub_self]
      by_cases hs : xs.length < m
      · rw [filter_cons_of_neg (by simpa using hs), ih, if_pos hs]
        simp
      · rw [filter_cons_of_pos (by simpa using hs), flatten_cons, ih, if_neg hs]
        simp
    · -- a whole chunk
      have hlen : (xs.take n).length = n := by
        rw [length_take]
        omega
      have hmd : (xs.drop n).length % n = xs.length % n := by
        rw [length_drop, ← Nat.mod_eq_sub_mod (Nat.le_of_not_lt hlt)]
      rw [filter_cons_of_pos (by rw [hlen]; simpa using hm), flatten_cons, ih, hmd]
      by_cases hs : xs.length % n < m
      · rw [if_pos hs, if_pos hs, length_drop]
        have hd : n ≤ xs.length - xs.length % n := by
          have ho : 1 ≤ xs.length / n := Nat.div_pos (Nat.le_of_not_lt hlt) hn
          have hml : n * 1 ≤ n * (xs.length / n) := Nat.mul_le_mul_left n ho
          have := Nat.div_add_mod xs.length n
          omega
        rw [← take_add, show n + (xs.length - n - xs.length % n) =
          xs.length - xs.length % n by omega]
      · rw [if_neg hs, if_neg hs, take_append_drop]

/-- The chunks of at least `m` elements: all but a last one that is shorter. -/
theorem flatten_filter_chunks {n m : Nat} (hm : m ≤ n) (hn : 0 < n) (l : List α) :
    ((chunks n l).filter fun c => m ≤ c.length).flatten =
      if l.length % n < m then l.take (l.length - l.length % n) else l :=
  flatten_filter_chunksUpTo hm hn le_rfl

end MediaKit.Lib
