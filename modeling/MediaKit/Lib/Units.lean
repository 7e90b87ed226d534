import MediaKit.Lib.Reader

/-!
# Streams made of units

A unit is a stretch of bytes that a reader takes as a whole: with anything behind it, the
unit is taken and nothing else, and at any part of it the reader waits. A stream of units
is read unit by unit, however it is cut into pieces (`Units.feedAll_of_append`).
-/

namespace MediaKit.Lib

open List Option

variable {σ α β : Type} {next : Reader σ α β}

/-- The reader takes `u` as a whole, from the state `s` to `s'`, and produces `o`. -/
structure IsUnit (next : Reader σ α β) (s : σ) (u : List α) (s' : σ) (o : List β) : Prop where
  taken : ∀ t, next s (u ++ t) = .take s' o t
  waits : ∀ p q, p ++ q = u → q ≠ [] → next s p = .wait

/-- Units one after the other. -/
inductive Units (next : Reader σ α β) : σ → List (List α) → σ → List β → Prop
  | nil (s : σ) : Units next s [] s []
  | cons {s s' s'' : σ} {u : List α} {us : List (List α)} {o o' : List β}
    (h : IsUnit next s u s' o) (hs : Units next s' us s'' o') :
    Units next s (u :: us) s'' (o ++ o')

theorem Units.append {s s' s'' : σ} {us vs : List (List α)} {o o' : List β}
    (h : Units next s us s' o) (h' : Units next s' vs s'' o') :
    Units next s (us ++ vs) s'' (o ++ o') := by
  induction h with
  | nil => exact h'
  | cons hu _ ih =>
    rw [append_assoc]
    exact .cons hu (ih h')

variable {us : List (List α)}

/-- At the end of a stream of units nothing is left to take: the reader waits there. -/
theorem Units.eq_nil_of_wait {s s' : σ} {o : List β}
    (h : Units next s us s' o) (hw : next s us.flatten = .wait) : us = [] := by
  cases h with
  | nil => rfl
  | cons hu hs =>
    rw [flatten_cons, hu.taken] at hw
    cases hw

section Reading

variable (hs : Shrinks next) (he : ∀ s, next s [] = .wait)
include hs he

/-- One read of the beginning of a stream: whole units are taken, and the rest waits. -/
theorem Units.feed_of_append {s s' : σ} {o : List β}
    (h : Units next s us s' o) : ∀ {b t : List α}, b ++ t = us.flatten →
      ∃ vs s₁ o₁ o₂ r, feed next s b = some (s₁, o₁, r) ∧ Units next s₁ vs s' o₂ ∧ o = o₁ ++ o₂ ∧
      r ++ t = vs.flatten := by
  induction h with
  | nil s =>
    intro b t hb
    obtain ⟨rfl, rfl⟩ := append_eq_nil_iff.mp hb
    exact ⟨[], s, [], [], [], feed_of_wait (he s), .nil s, rfl, rfl⟩
  | @cons s s' s'' u us o o' hu hus ih =>
    intro b t hb
    rcases append_eq_append_iff.mp hb with ⟨q, hq, ht⟩ | ⟨r, rfl, hr⟩
    · by_cases hnil : q = []
      · -- the bytes end with the first unit
        subst hnil
        rw [append_nil] at hq
        have htk := hu.taken []
        rw [append_nil, hq] at htk
        refine ⟨us, s', o, o', [], ?_, hus, rfl, ht⟩
        rw [feed_of_take hs htk, feed_of_wait (he s'), Fed.prepend_some, append_nil]
      · -- they end within it
        refine ⟨u :: us, s, [], o ++ o', b, ?_, .cons hu hus, rfl, ?_⟩
        · exact feed_of_wait (hu.waits b q hq.symm hnil)
        · rw [hb, flatten_cons]
    · -- the first unit is taken, and the bytes behind it are read
      obtain ⟨vs, s₁, o₁, o₂, r', hf, hvs, ho, hr'⟩ := ih hr.symm
      refine ⟨vs, s₁, o ++ o₁, o₂, r', ?_, hvs, ?_, hr'⟩
      · rw [feed_of_take hs (hu.taken r), hf]
        rfl
      · rw [ho, append_assoc]

/-- **A stream of units is read unit by unit**, however it is cut, and nothing is left. -/
theorem Units.feedAll_of_append {s' : σ} {ps : List (List α)} :
    ∀ {s : σ} {us : List (List α)} {o : List β} {buf : List α}, Units next s us s' o →
      next s buf = .wait → buf ++ ps.flatten = us.flatten →
        feedAll next s buf ps = some (s', o, []) := by
  induction ps with
  | nil =>
    intro s us o buf h hw hb
    rw [flatten_nil, append_nil] at hb
    rw [hb] at hw
    obtain rfl := h.eq_nil_of_wait hw
    cases h
    rw [hb]
    rfl
  | cons p ps ih =>
    intro s us o buf h hw hb
    rw [flatten_cons, ← append_assoc] at hb
    obtain ⟨vs, s₁, o₁, o₂, r, hf, hvs, rfl, hr⟩ := h.feed_of_append hs he hb
    rw [feedAll, hf, bind_some, ih hvs (feed_waits hs s _ hf) hr]
    rfl

theorem Units.feed_flatten {s s' : σ} {o : List β}
    (h : Units next s us s' o) : feed next s us.flatten = some (s', o, []) := by
  have hal : feedAll next s [] [us.flatten] = some (s', o, []) :=
    h.feedAll_of_append hs he (he s) (by simp)
  rw [feedAll, nil_append] at hal
  cases hf : feed next s us.flatten with
  | none =>
    rw [hf] at hal
    cases hal
  | some q =>
    rw [hf, bind_some, feedAll, Fed.prepend_some, append_nil] at hal
    exact hal

end Reading

end MediaKit.Lib
