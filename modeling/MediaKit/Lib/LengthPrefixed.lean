import MediaKit.Lib.Bytes
import Mathlib.Data.List.Induction

/-!
# Units behind their lengths

`prefixedUnits` reads units that stand behind their lengths, as many as are announced and no further
than they are complete. It finds the units that were written so (`prefixedUnits_flatMap`), and none
is longer than its length says (`length_of_mem_prefixedUnits`).

`flatMap_eq_iff_of_length_le` compares what two readers find group by group.
-/

namespace MediaKit.Lib

open List

variable {α β : Type}

/-- At most `n` units behind lengths of `w` octets, up to the first that is cut off, and what
follows. -/
def prefixedUnits (w : Nat) : Nat → Bytes → List Bytes × Bytes
  | 0, data => ([], data)
  | n + 1, data =>
    let rest := data.drop w
    let len := ofBe (data.take w)
    if data.length < w then ([], data)
    else if rest.length < len then ([], rest)
    else
      let more := prefixedUnits w n (rest.drop len)
      (rest.take len :: more.1, more.2)

theorem ofBe_concat (data : Bytes) (x : UInt8) :
    ofBe (data ++ [x]) = ofBe data * 256 + x.toNat := by
  rw [ofBe, foldl_append]
  rfl

theorem ofBe_lt (data : Bytes) : ofBe data < 256 ^ data.length := by
  induction data using reverseRecOn with
  | nil => exact Nat.one_pos
  | append_singleton data x ih =>
    have hx := x.toNat_lt
    rw [ofBe_concat, length_append, length_singleton]
    omega

theorem length_of_mem_prefixedUnits {w n : Nat} {data u : Bytes}
    (h : u ∈ (prefixedUnits w n data).1) : u.length < 256 ^ w := by
  induction n generalizing data with
  | zero => cases h
  | succ n ih =>
    rw [prefixedUnits] at h
    split at h
    · cases h
    · split at h
      · cases h
      · rcases mem_cons.mp h with rfl | h
        · have hlen := ofBe_lt (data.take w)
          have hw : (data.take w).length = w := length_take_of_le (by omega)
          rw [hw] at hlen
          rw [length_take]
          omega
        · exact ih h

theorem prefixedUnits_flatMap {units : List Bytes} (h : ∀ u ∈ units, u.length < 2 ^ 32) :
    ∀ {n : Nat}, units.length ≤ n →
      prefixedUnits 4 n (units.flatMap fun u => be32 u.length ++ u) = (units, []) := by
  induction units with
  | nil =>
    intro n _
    cases n <;> rfl
  | cons u units ih =>
    intro n hn
    obtain ⟨n, rfl⟩ := Nat.exists_eq_add_of_le' (show 1 ≤ n by rw [length_cons] at hn; omega)
    have hm := ih (fun u' hu' => h u' (mem_cons_of_mem u hu')) (Nat.le_of_succ_le_succ hn)
    have hlen : ofBe (be32 u.length) = u.length := ofBe_four _ (h u mem_cons_self)
    rw [flatMap_cons, append_assoc, prefixedUnits]
    rw [take_left' (length_be32 _), drop_left' (length_be32 _), hlen, take_left, drop_left, hm,
      if_neg (by simp), if_neg (by simp)]

/-- Lists of the same total that are nowhere longer agree group by group. -/
theorem flatMap_eq_iff_of_length_le {f g : α → List β} {l : List α}
    (hle : ∀ a ∈ l, (f a).length ≤ (g a).length) :
    l.flatMap f = l.flatMap g ↔ ∀ a ∈ l, f a = g a := by
  have ht : ∀ {l : List α}, (∀ a ∈ l, (f a).length ≤ (g a).length) →
      (l.flatMap f).length ≤ (l.flatMap g).length := by
    intro l
    induction l with
    | nil => exact fun _ => le_refl 0
    | cons a l ih =>
      intro hle
      have ho := hle a mem_cons_self
      have hr := ih fun b hb => hle b (mem_cons_of_mem a hb)
      rw [flatMap_cons, flatMap_cons, length_append, length_append]
      omega
  induction l with
  | nil => exact iff_of_true rfl nofun
  | cons a l ih =>
    have ho := hle a mem_cons_self
    have hmem : ∀ b ∈ l, (f b).length ≤ (g b).length := fun b hb => hle b (mem_cons_of_mem a hb)
    have hr := ht hmem
    rw [flatMap_cons, flatMap_cons, forall_mem_cons]
    refine Iff.trans ⟨fun h => append_inj h ?_, fun h => by rw [h.1, h.2]⟩
      (and_congr_right fun _ => ih hmem)
    have hlen := congrArg List.length h
    rw [length_append, length_append] at hlen
    omega

end MediaKit.Lib
