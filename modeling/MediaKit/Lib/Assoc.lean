import Mathlib.Data.List.Induction

/-!
# Ordered maps

A map kept as the list of its entries in the order of their keys, each key once. What is
stored under a key is read by `List.lookup`.
-/

namespace MediaKit.Lib

open List

variable {κ β : Type} [DecidableEq κ] [LT κ] [DecidableLT κ]

/-- The map with `v` stored under `k`. -/
def assocInsert (k : κ) (v : β) : List (κ × β) → List (κ × β)
  | [] => [(k, v)]
  | (k', v') :: m =>
    if k = k' then (k, v) :: m
    else if k < k' then (k, v) :: (k', v') :: m
    else (k', v') :: assocInsert k v m

/-- The entries stored one after the other, so that the last one of a key stays. -/
def assocOf (l : List (κ × β)) : List (κ × β) := l.foldl (fun m e => assocInsert e.1 e.2 m) []

section Lookup

variable [BEq κ] [LawfulBEq κ]

theorem lookup_assocInsert_self (k : κ) (v : β) :
    ∀ m : List (κ × β), (assocInsert k v m).lookup k = some v
  | [] => lookup_cons_self
  | (k', v') :: m => by
    rw [assocInsert]
    by_cases hk : k = k'
    · rw [if_pos hk]
      exact lookup_cons_self
    · rw [if_neg hk]
      by_cases hlt : k < k'
      · rw [if_pos hlt]
        exact lookup_cons_self
      · rw [if_neg hlt, lookup_cons, beq_false_of_ne hk]
        exact lookup_assocInsert_self k v m

theorem lookup_assocInsert_of_ne {j k : κ} (h : j ≠ k) (v : β) :
    ∀ m : List (κ × β), (assocInsert k v m).lookup j = m.lookup j
  | [] => by rw [assocInsert, lookup_cons, beq_false_of_ne h]
  | (k', v') :: m => by
    rw [assocInsert]
    by_cases hk : k = k'
    · rw [if_pos hk, lookup_cons, lookup_cons, ← hk, beq_false_of_ne h]
    · rw [if_neg hk]
      by_cases hlt : k < k'
      · rw [if_pos hlt, lookup_cons, beq_false_of_ne h]
      · rw [if_neg hlt, lookup_cons, lookup_cons, lookup_assocInsert_of_ne h v m]

theorem lookup_assocOf (k : κ) (l : List (κ × β)) : (assocOf l).lookup k = l.reverse.lookup k := by
  induction l using reverseRecOn with
  | nil => rfl
  | append_singleton l e ih =>
    rw [assocOf, foldl_append, foldl_cons, reverse_concat, lookup_cons]
    by_cases hk : k = e.1
    · rw [hk, beq_self_eq_true]
      exact lookup_assocInsert_self e.1 e.2 _
    · rw [beq_false_of_ne hk]
      exact (lookup_assocInsert_of_ne hk e.2 _).trans ih

end Lookup

end MediaKit.Lib
