import Mathlib.Data.List.Basic

/-!
# Schedules

Several actors share a state and take turns. A schedule is the list of their actions, and `step`
says what one action does to the state; `none` is an action that is not possible there, so that a
schedule with one is no run. Since every beginning of a run is a run, what holds at the end of every
run holds at all times.

The rules are `run_invariant`, for what every action keeps, and `run_invariant_of`, for what an
action keeps under a condition: it holds along the runs whose actions all meet the condition where
they are taken (`Along`). Where an action keeps a property exactly under the condition, so does a
run (`run_iff_along`, `run_always_iff`). -/

namespace MediaKit.Lib

open List Option

variable {σ α : Type}

/-- The state behind a schedule. -/
def runSchedule (step : σ → α → Option σ) : σ → List α → Option σ
  | s, [] => some s
  | s, a :: as =>
    match step s a with
    | none => none
    | some s' => runSchedule step s' as

/-- Every action of the schedule meets the condition where it is taken. -/
def Along (step : σ → α → Option σ) (ok : σ → α → Prop) : σ → List α → Prop
  | _, [] => True
  | s, a :: as => ok s a ∧ ∀ s', step s a = some s' → Along step ok s' as

instance decidableAlong (step : σ → α → Option σ) (ok : σ → α → Prop) [∀ s a, Decidable (ok s a)] :
    (s : σ) → (as : List α) → Decidable (Along step ok s as)
  | _, [] => .isTrue trivial
  | s, a :: as =>
    match h : step s a with
    | none => decidable_of_iff (ok s a) ⟨fun hok => ⟨hok, by simp [h]⟩, fun hok => hok.1⟩
    | some s' =>
      have := decidableAlong step ok s' as
      decidable_of_iff (ok s a ∧ Along step ok s' as)
        ⟨fun hok => ⟨hok.1, by simp [h, hok.2]⟩, fun hok => ⟨hok.1, hok.2 s' h⟩⟩

variable {step : σ → α → Option σ} {ok : σ → α → Prop} {I : σ → Prop}

/-- A schedule is a run exactly if every action is possible where it is taken. -/
theorem run_isSome_iff : ∀ {as : List α} {s : σ},
    (runSchedule step s as).isSome = true ↔ Along step (fun s a => (step s a).isSome = true) s
      as := by
  intro as
  induction as with
  | nil => exact fun {s} => iff_of_true rfl trivial
  | cons a as ih =>
    intro s
    simp only [runSchedule, Along]
    cases h : step s a with
    | none => simp
    | some s' => simp [ih]

theorem of_runSchedule_cons {a : α} {as : List α} {s s' : σ}
    (h : runSchedule step s (a :: as) = some s') :
    ∃ t, step s a = some t ∧ runSchedule step t as = some s' := by
  rw [runSchedule] at h
  cases ha : step s a with
  | none => rw [ha] at h; cases h
  | some t => exact ⟨t, rfl, by rwa [ha] at h⟩

/-- What every action keeps under a condition, a run keeps whose actions all meet it. -/
theorem run_invariant_of (hs : ∀ s a s', I s → ok s a → step s a = some s' → I s') :
    ∀ {as : List α} {s s' : σ}, I s → Along step ok s as → runSchedule step s as = some s' →
    I s' := by
  intro as
  induction as with
  | nil =>
    intro s s' h _ hrun
    cases hrun
    exact h
  | cons a as ih =>
    intro s s' h hok hrun
    obtain ⟨t, ha, hrun⟩ := of_runSchedule_cons hrun
    exact ih (hs s a t h hok.1 ha) (hok.2 t ha) hrun

theorem run_invariant (hs : ∀ s a s', I s → step s a = some s' → I s') {as : List α} {s s' : σ}
    (h : I s) (hrun : runSchedule step s as = some s') : I s' := by
  have hal : ∀ {as : List α} {s : σ}, Along step (fun _ _ => True) s as := by
    intro as
    induction as with
    | nil => exact fun {_} => trivial
    | cons a as ih => exact fun {_} => ⟨trivial, fun _ _ => ih⟩
  exact run_invariant_of (fun s a s' hI _ => hs s a s' hI) h hal hrun

/-- A property that each action keeps exactly if it meets the condition holds behind exactly the
runs whose actions all meet it. -/
theorem run_iff_along {P : σ → Prop} (hi : ∀ s a s', I s → step s a = some s' → I s')
    (hs : ∀ s a s', I s → step s a = some s' → (P s' ↔ P s ∧ ok s a)) :
    ∀ {as : List α} {s s' : σ}, I s → runSchedule step s as = some s' →
    (P s' ↔ P s ∧ Along step ok s as) := by
  intro as
  induction as with
  | nil =>
    intro s s' _ hrun
    cases hrun
    exact (and_iff_left trivial).symm
  | cons a as ih =>
    intro s s' h hrun
    obtain ⟨t, ha, hrun⟩ := of_runSchedule_cons hrun
    rw [ih (hi s a t h ha) hrun, hs s a t h ha, and_assoc, Along, ha]
    simp only [some.injEq, forall_eq']

/-- A property that an action keeps exactly if it meets the condition holds at all times of exactly
the runs whose actions all meet it. (It may come back after it was lost, so its end says less.) -/
theorem run_always_iff {P : σ → Prop} (hi : ∀ s a s', I s → P s → step s a = some s' → I s')
    (hs : ∀ s a s', I s → P s → step s a = some s' → (P s' ↔ ok s a)) :
    ∀ {as : List α} {s s' : σ}, I s → P s → runSchedule step s as = some s' →
      ((∀ n t, runSchedule step s (as.take n) = some t → P t) ↔ Along step ok s as) := by
  intro as
  induction as with
  | nil =>
    intro s s' _ hP _
    refine iff_of_true (fun n t ht => ?_) trivial
    rw [take_nil] at ht
    cases ht
    exact hP
  | cons a as ih =>
    intro s s' hI hP hrun
    obtain ⟨t, ha, hrun⟩ := of_runSchedule_cons hrun
    have hc : ∀ n, runSchedule step s ((a :: as).take (n + 1)) = runSchedule step t (as.take n) :=
      fun n => by
      rw [take_succ_cons, runSchedule, ha]
    have hok := hs s a t hI hP ha
    have hI' := hi s a t hI hP ha
    constructor
    · intro hall
      have hPt : P t := hall 1 t (by rw [hc, take_zero, runSchedule])
      refine ⟨hok.mp hPt, fun t' ht' => ?_⟩
      rw [ha] at ht'
      cases ht'
      exact (ih hI' hPt hrun).mp fun n u hu => hall (n + 1) u ((hc n).trans hu)
    · intro hal n u hu
      have hPt := hok.mpr hal.1
      cases n with
      | zero =>
        cases hu
        exact hP
      | succ n => exact (ih hI' hPt hrun).mpr (hal.2 t ha) n u ((hc n).symm.trans hu)

end MediaKit.Lib
