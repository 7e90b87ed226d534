import Mathlib.Logic.Function.Basic

/-!
# Registries

Objects that are shared by handles and found by their keys: a table from keys to handles and a heap
from handles to objects. An object keeps its key; an object that is taken out of the table stays in
the heap, for those who hold its handle. The structure carries what ties the two together, so that a
handle in the table always has an object and only one key (`names_inj`). -/

namespace MediaKit.Lib

open Option Function

section PartialMap

variable {κ β : Type} [DecidableEq κ] {f : κ → Option β} {k k' : κ} {b : β}

theorem of_update {o : Option β} (h : update f k o k' = some b) :
    k' = k ∧ o = some b ∨ k' ≠ k ∧ f k' = some b := by
  by_cases hk : k' = k
  · exact .inl ⟨hk, by rwa [hk, update_self] at h⟩
  · exact .inr ⟨hk, by rwa [update_of_ne hk] at h⟩

theorem of_update_none (h : update f k none k' = some b) : k' ≠ k ∧ f k' = some b := by
  obtain ⟨-, ⟨⟩⟩ | h := of_update h
  exact h

end PartialMap

structure Registry {κ ω : Type} (key : ω → κ) where
  names : κ → Option Nat
  heap : Nat → Option ω
  /-- The next unused handle. -/
  next : Nat
  named : ∀ k h, names k = some h → ∃ o, heap h = some o ∧ key o = k
  fresh : ∀ h, next ≤ h → heap h = none

namespace Registry

variable {κ ω : Type} {key : ω → κ}

def empty : Registry key where
  names _ := none
  heap _ := none
  next := 0
  named _ _ h := by cases h
  fresh _ _ := rfl

variable (r : Registry key)

theorem lt_next {h : Nat} {o : ω} (ho : r.heap h = some o) : h < r.next := by
  by_contra hle
  rw [r.fresh h (Nat.le_of_not_lt hle)] at ho
  cases ho

theorem names_inj {k k' : κ} {h : Nat} (hk : r.names k = some h) (hk' : r.names k' = some h) :
    k = k' := by
  obtain ⟨o, ho, rfl⟩ := r.named k h hk
  obtain ⟨o', ho', rfl⟩ := r.named k' h hk'
  rw [ho] at ho'
  cases ho'
  rfl

/-- A handle is out of the table if it is not under the key of its object. -/
theorem not_named_iff {h : Nat} : (∀ k, r.names k ≠ some h) ↔ ∀ o ∈ r.heap h,
    r.names (key o) ≠ some h := by
  constructor
  · intro hot o _
    exact hot (key o)
  · intro hon k hk
    obtain ⟨o, ho, rfl⟩ := r.named k h hk
    exact hon o ho hk

/-- An object is changed and keeps its key. -/
def modify (r : Registry key) (h : Nat) (f : ω → ω) (hf : ∀ o, key (f o) = key o) :
    Registry key where
  names := r.names
  heap := update r.heap h ((r.heap h).map f)
  next := r.next
  named k h' hk := by
    obtain ⟨o, ho, hky⟩ := r.named k h' hk
    by_cases heq : h' = h
    · subst heq
      exact ⟨f o, by rw [update_self, ho, map_some], (hf o).trans hky⟩
    · exact ⟨o, (update_of_ne heq ..).trans ho, hky⟩
  fresh h' hle := by
    by_cases heq : h' = h
    · subst heq
      rw [update_self, r.fresh h' hle, map_none]
    · rw [update_of_ne heq, r.fresh h' hle]

theorem heap_modify_self (h : Nat) (f : ω → ω) (hf : ∀ o, key (f o) = key o) :
    (r.modify h f hf).heap h = (r.heap h).map f := update_self ..

theorem heap_modify_of_ne {h h' : Nat} (hne : h' ≠ h) (f : ω → ω) (hf : ∀ o, key (f o) = key o) :
    (r.modify h f hf).heap h' = r.heap h' := update_of_ne hne ..

variable [DecidableEq κ]

/-- The handle under the key, or that of a new object. -/
def getOrInsert (r : Registry key) (o : ω) : Registry key × Nat :=
  match hk : r.names (key o) with
  | some h => (r, h)
  | none =>
    ({ names := update r.names (key o) (some r.next)
       heap := update r.heap r.next (some o)
       next := r.next + 1
       named := by
         intro k h hn
         rcases of_update hn with ⟨rfl, ⟨⟩⟩ | ⟨-, hn⟩
         · exact ⟨o, update_self .., rfl⟩
         · obtain ⟨o', ho', hky⟩ := r.named k h hn
           exact ⟨o', (update_of_ne (Nat.ne_of_lt (r.lt_next ho')) ..).trans ho', hky⟩
       fresh := by
         intro h hle
         rw [update_of_ne (Nat.ne_of_gt hle), r.fresh h (Nat.le_of_succ_le hle)] }, r.next)

/-- An object leaves the table. -/
def remove (r : Registry key) (k : κ) : Registry key where
  names := update r.names k none
  heap := r.heap
  next := r.next
  named k' h hn := r.named k' h (of_update_none hn).2
  fresh := r.fresh

theorem getOrInsert_of_some {o : ω} {h : Nat} (hk : r.names (key o) = some h) :
    r.getOrInsert o = (r, h) := by
  unfold getOrInsert
  split
  case h_1 h' hk' =>
    rw [hk] at hk'
    cases hk'
    rfl
  case h_2 hk' =>
    rw [hk] at hk'
    cases hk'

/-- What a call finds or makes is in the table, everything else is as before. -/
theorem getOrInsert_spec (o : ω) : (r.getOrInsert o).1.names (key o) = some (r.getOrInsert o).2 ∧
    (∀ k, k ≠ key o → (r.getOrInsert o).1.names k = r.names k) ∧
    (∀ h, h < r.next → (r.getOrInsert o).1.heap h = r.heap h) ∧ r.next ≤ (r.getOrInsert o).1.next ∧
    (r.names (key o) = none → (r.getOrInsert o).1.heap (r.getOrInsert o).2 = some o) := by
  unfold getOrInsert
  split
  case h_1 h hk =>
    refine ⟨hk, fun _ _ => rfl, fun _ _ => rfl, Nat.le_refl _, fun hno => ?_⟩
    rw [hk] at hno
    cases hno
  case h_2 hk =>
    exact ⟨update_self .., fun k hne => update_of_ne hne .., fun h hlt =>
      update_of_ne (Nat.ne_of_lt hlt) .., Nat.le_succ _, fun _ => update_self ..⟩

theorem getOrInsert_of_none {o : ω} (hk : r.names (key o) = none) :
    (r.getOrInsert o).2 = r.next ∧ (r.getOrInsert o).1.next = r.next + 1 := by
  unfold getOrInsert
  split
  case h_1 h hk' =>
    rw [hk] at hk'
    cases hk'
  case h_2 => exact ⟨rfl, rfl⟩

theorem heap_getOrInsert (o : ω) {h : Nat} {o' : ω} (ho : r.heap h = some o') :
    (r.getOrInsert o).1.heap h = some o' :=
  ((r.getOrInsert_spec o).2.2.1 h (r.lt_next ho)).trans ho

end Registry

end MediaKit.Lib
