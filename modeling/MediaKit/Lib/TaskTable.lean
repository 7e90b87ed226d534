import Mathlib.Data.List.Perm.Basic
import Mathlib.Data.List.Nodup
import MediaKit.Lib.Registry

/-!
# Tables of tasks

A table has at most one entry for a key, and every entry was put in for a task. Entry and task
share a marker that is used once. Whoever takes an entry out tells its task to stop, so that
every task is in the table or told (`Filed`).
-/

namespace MediaKit.Lib

open List Function

/-- A flag is set, or is about to be. -/
def Told (stopped : Nat → Bool) (stopping : List Nat) (m : Nat) : Prop :=
  stopped m = true ∨ m ∈ stopping

/-- Who sets the flag stays told, and nobody else is. -/
theorem told_store {stopped : Nat → Bool} {stopping : List Nat} {m : Nat} (hm : m ∈ stopping)
    (m' : Nat) : Told (update stopped m true) (stopping.erase m) m' ↔ Told stopped stopping m' := by
  by_cases heq : m' = m
  · subst heq
    exact iff_of_true (.inl (update_self ..)) (.inr hm)
  · exact or_congr (by rw [update_of_ne heq]) (mem_erase_of_ne heq)

variable {κ ε τ : Type} {marker : ε → Nat} {key : τ → κ} {mark : τ → Nat} {active : κ → Option ε}
  {tasks rest : List τ} {told told' : Nat → Prop} {next : Nat} {c : τ} {e : ε} {k : κ}

/-- The table and the tasks fit together. -/
structure Filed (marker : ε → Nat) (key : τ → κ) (mark : τ → Nat) (active : κ → Option ε)
    (tasks : List τ) (told : Nat → Prop) (next : Nat) : Prop where
  /-- No two tasks share a marker. -/
  distinct : (tasks.map mark).Nodup
  /-- A task without an entry has been told to stop. -/
  orphans : ∀ c ∈ tasks, (∃ e, active (key c) = some e ∧ marker e = mark c) ∨ told (mark c)
  fresh : ∀ c ∈ tasks, mark c < next

namespace Filed

section

variable (h : Filed marker key mark active tasks told next)
include h

/-- Tasks move, or are dropped. -/
theorem of_subperm (hsb : rest.Subperm tasks) (ht : ∀ m, told m → told' m) :
    Filed marker key mark active rest told' next where
  distinct := by
    obtain ⟨l, hp, hs⟩ := hsb
    exact (hp.map _).nodup_iff.mp (h.distinct.sublist (hs.map _))
  orphans c hc := (h.orphans c (hsb.subset hc)).imp_right (ht _)
  fresh c hc := h.fresh c (hsb.subset hc)

variable [DecidableEq κ]

/-- A new entry and its task, under a key that is free. -/
theorem add (hk : active (key c) = none) (hm : marker e = mark c) (hn : mark c = next) :
    Filed marker key mark (update active (key c) (some e)) (c :: tasks) told (next + 1) where
  distinct := by
    refine nodup_cons.mpr ⟨fun hmem => ?_, h.distinct⟩
    obtain ⟨c', hc, heq⟩ := mem_map.mp hmem
    exact Nat.ne_of_lt (h.fresh c' hc) (heq.trans hn)
  orphans c' hc := by
    rcases mem_cons.mp hc with rfl | hc
    · exact .inl ⟨e, update_self .., hm⟩
    · refine (h.orphans c' hc).imp_left fun ⟨e', he, hm'⟩ =>
        ⟨e', (update_of_ne (fun heq => ?_) ..).trans he, hm'⟩
      -- the key was free, so this is the entry of another key
      rw [heq, hk] at he
      cases he
  fresh c' hc := by
    rcases mem_cons.mp hc with rfl | hc
    · exact hn ▸ Nat.lt_succ_self _
    · exact Nat.lt_succ_of_lt (h.fresh c' hc)

/-- An entry is taken out, and its task is told. -/
theorem takeOut (hky : active k = some e) (ht : ∀ m, told m → told' m) (he : told' (marker e)) :
    Filed marker key mark (update active k none) tasks told' next where
  distinct := h.distinct
  orphans c hc := by
    rcases h.orphans c hc with ⟨e', he', hm⟩ | hs
    · by_cases hk : key c = k
      · rw [hk, hky] at he'
        cases he'
        exact .inr (hm ▸ he)
      · exact .inl ⟨e', (update_of_ne hk ..).trans he', hm⟩
    · exact .inr (ht _ hs)
  fresh := h.fresh

/-- A task ends and clears its key, where no entry but its own is. -/
theorem finish (hp : tasks.Perm (c :: rest)) (ho : ∀ e ∈ active (key c), marker e = mark c) :
    Filed marker key mark (update active (key c) none) rest told next := by
  have hnd := (hp.map mark).nodup_iff.mp h.distinct
  rw [map_cons, nodup_cons] at hnd
  have hin : ∀ c' ∈ rest, c' ∈ tasks := fun c' hc => hp.mem_iff.mpr (mem_cons_of_mem _ hc)
  refine ⟨hnd.2, fun c' hc => ?_, fun c' hc => h.fresh c' (hin c' hc)⟩
  refine (h.orphans c' (hin c' hc)).imp_left fun ⟨e, he, hm⟩ =>
    ⟨e, (update_of_ne (fun hk => hnd.1 ?_) ..).trans he, hm⟩
  exact mem_map.mpr ⟨c', hc, hm.symm.trans (ho e (hk ▸ he))⟩

end

end Filed

end MediaKit.Lib
