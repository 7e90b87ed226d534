import Mathlib.Data.List.Basic
import MediaKit.Lib.Bytes

/-!
# Selections from a list

Two selections compared element by element, and a selection from a sorted list: a stable sort
keeps the order of those that were in order already (`filter_mergeSort`).
-/

namespace MediaKit.Lib

open List

variable {α β γ : Type} {g : α → Option β} {h : α → Option γ} {l : List α}

theorem filterMap_cons_eq_append (g : α → Option β) (a : α) (l : List α) :
    (a :: l).filterMap g = (g a).toList ++ l.filterMap g := by
  rw [filterMap_cons]
  cases g a <;> rfl

theorem length_filterMap_le (hs : ∀ a ∈ l, (g a).isSome → (h a).isSome) :
    (l.filterMap g).length ≤ (l.filterMap h).length := by
  rw [length_filterMap_eq_countP, length_filterMap_eq_countP]
  exact countP_mono_left hs

/-- Two selections agree at every moment, one of them behind `c`. -/
theorem filterMap_take_eq_append_iff {h : α → Option β} {c : List β} :
    (∀ n, (l.take n).filterMap g = c ++ (l.take n).filterMap h) ↔ c = [] ∧ ∀ a ∈ l, g a = h a := by
  constructor
  · intro heq
    have hc : c = [] := by simpa using (heq 0).symm
    subst hc
    refine ⟨rfl, ?_⟩
    induction l with
    | nil => exact forall_mem_nil _
    | cons a l ih =>
      have ho : (g a).toList = (h a).toList := by simpa [filterMap_cons_eq_append] using heq 1
      have ha : g a = h a := by
        revert ho
        cases g a <;> cases h a <;> simp
      refine forall_mem_cons.mpr ⟨ha, ih fun n => ?_⟩
      have hn := heq (n + 1)
      rw [take_succ_cons, filterMap_cons_eq_append, filterMap_cons_eq_append, ha] at hn
      exact append_cancel_left hn
  · rintro ⟨rfl, hal⟩ n
    exact filterMap_congr fun a ha => hal a (mem_of_mem_take ha)

/-- A smaller selection is the same only if nothing is left out. -/
theorem filterMap_eq_filterMap_iff {h : α → Option β} (hsb : ∀ a ∈ l, (g a).isSome → (h a).isSome) :
    l.filterMap g = l.filterMap h ↔ ∀ a ∈ l, g a = h a := by
  refine ⟨?_, fun heq => filterMap_congr heq⟩
  induction l with
  | nil => exact fun _ a ha => absurd ha not_mem_nil
  | cons a l ih =>
    intro heq
    have hsR : ∀ b ∈ l, (g b).isSome → (h b).isSome := fun b hb => hsb b (mem_cons_of_mem a hb)
    have hhd := hsb a mem_cons_self
    cases hg : g a with
    | none =>
      cases hh : h a with
      | none =>
        rw [filterMap_cons_none hg, filterMap_cons_none hh] at heq
        exact forall_mem_cons.mpr ⟨hg.trans hh.symm, ih hsR heq⟩
      | some c =>
        rw [filterMap_cons_none hg, filterMap_cons_some hh] at heq
        have hle := length_filterMap_le hsR
        rw [heq, length_cons] at hle
        omega
    | some b =>
      rw [hg] at hhd
      obtain ⟨c, hh⟩ := Option.isSome_iff_exists.mp (hhd rfl)
      rw [filterMap_cons_some hg, filterMap_cons_some hh] at heq
      obtain ⟨rfl, hr⟩ := List.cons.inj heq
      exact forall_mem_cons.mpr ⟨hg.trans hh.symm, ih hsR hr⟩

theorem sum_filterMap_le {v : β → Nat} {w : γ → Nat}
    (hs : ∀ a ∈ l, ∀ b, g a = some b → ∃ c, h a = some c ∧ v b = w c) :
    ((l.filterMap g).map v).sum ≤ ((l.filterMap h).map w).sum := by
  induction l with
  | nil => exact le_refl 0
  | cons a l ih =>
    have hr := ih fun b hb => hs b (mem_cons_of_mem a hb)
    cases hg : g a with
    | none =>
      rw [filterMap_cons_none hg]
      cases hh : h a with
      | none =>
        rw [filterMap_cons_none hh]
        exact hr
      | some c =>
        rw [filterMap_cons_some hh, map_cons]
        exact Nat.le_add_left_of_le hr
    | some b =>
      obtain ⟨c, hh, hv⟩ := hs a mem_cons_self b hg
      rw [filterMap_cons_some hg, filterMap_cons_some hh, map_cons, map_cons, hv]
      exact Nat.add_le_add_left hr _

/-! ## Stable sorting -/

/-- **A stable sort** does not move those that are in order among themselves. -/
theorem filter_mergeSort {le : α → α → Bool}
    (htr : ∀ a b c, le a b = true → le b c = true → le a c = true)
    (htl : ∀ a b, (le a b || le b a) = true) (p : α → Bool)
    (hsr : (l.filter p).Pairwise fun a b => le a b = true) :
    (l.mergeSort le).filter p = l.filter p := by
  have hsb : (l.filter p).Sublist ((l.mergeSort le).filter p) := by
    have hk := (sublist_mergeSort htr htl hsr filter_sublist).filter p
    rwa [filter_filter, funext fun a => Bool.and_self (p a)] at hk
  have hlen : (l.filter p).length = ((l.mergeSort le).filter p).length :=
    ((mergeSort_perm l le).filter p).length_eq.symm
  exact (hsb.eq_of_length hlen).symm

end MediaKit.Lib
