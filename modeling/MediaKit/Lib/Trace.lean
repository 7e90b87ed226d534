import Mathlib.Data.List.Induction

/-!
# Machines that keep a log

A machine reads inputs one by one, changes its state and adds entries to a log.
`Justified P log` says of a log that every entry is warranted by the entries
before it, and `Owed opens closes log x` that something was opened in it and not
closed since.

The run rule is `runLog_invariant`. Its invariant relates the state, the log and a
ghost that is computed from the `outcome` of each step alone; the rule holds for the
runs in which every step meets a condition on the ghost and the outcome (`Guarded`).
Under such a condition, inputs without an effect can be erased (`runLog_filter`).
-/

namespace MediaKit.Lib

open List

variable {σ ι ε ο γ κ : Type}

/-! ## Logs -/

/-- Every entry is warranted by the entries before it. -/
def Justified (P : List ε → ε → Prop) (log : List ε) : Prop :=
  ∀ before e after, log = before ++ e :: after → P before e

theorem justified_nil (P : List ε → ε → Prop) : Justified P [] := by
  intro before e after h
  simp at h

theorem Justified.concat {P : List ε → ε → Prop} {log : List ε} {e : ε} (h : Justified P log)
    (he : P log e) : Justified P (log ++ [e]) := by
  intro before x after heq
  rcases append_eq_append_iff.mp heq with ⟨as, rfl, hr⟩ | ⟨bs, rfl, hr⟩
  · rcases cons_eq_append_iff.mp hr with ⟨rfl, hx⟩ | ⟨as', -, hx⟩
    · obtain ⟨rfl, -⟩ := List.cons.inj hx
      rwa [append_nil]
    · simp at hx
  · cases bs with
    | nil =>
      obtain ⟨rfl, -⟩ := List.cons.inj hr
      rwa [append_nil] at he
    | cons b bs =>
      obtain ⟨rfl, -⟩ := List.cons.inj hr
      exact h before x bs rfl

theorem Justified.append {P : List ε → ε → Prop} {log new : List ε} (h : Justified P log)
    (hn : ∀ e ∈ new, ∀ before, P (log ++ before) e) : Justified P (log ++ new) := by
  induction new using reverseRecOn with
  | nil => rwa [append_nil]
  | append_singleton new e ih =>
    rw [← append_assoc]
    refine (ih fun e' he' => hn e' (mem_append_left _ he')).concat ?_
    exact hn e (mem_append_right _ (mem_singleton_self e)) new

/-- Something was opened and has not been closed since. -/
def Owed (opens closes : ε → κ → Prop) (log : List ε) (x : κ) : Prop :=
  ∃ before e after, log = before ++ e :: after ∧ opens e x ∧ ∀ e' ∈ after, ¬ closes e' x

theorem not_owed_nil (opens closes : ε → κ → Prop) (x : κ) : ¬ Owed opens closes [] x := by
  rintro ⟨before, e, after, h, -⟩
  simp at h

theorem Owed.exists_opens {opens closes : ε → κ → Prop} {log : List ε} {x : κ}
    (h : Owed opens closes log x) : ∃ e ∈ log, opens e x := by
  obtain ⟨before, e, after, rfl, ho, -⟩ := h
  exact ⟨e, by simp, ho⟩

theorem owed_append {opens closes : ε → κ → Prop} {log new : List ε} {x : κ}
    (h : Owed opens closes (log ++ new) x) :
    (Owed opens closes log x ∧ ∀ e ∈ new, ¬ closes e x) ∨ Owed opens closes new x := by
  obtain ⟨before, e, after, heq, ho, hc⟩ := h
  rcases append_eq_append_iff.mp heq with ⟨as, rfl, hr⟩ | ⟨bs, rfl, hr⟩
  · exact .inr ⟨as, e, after, hr, ho, hc⟩
  · cases bs with
    | nil => exact .inr ⟨[], e, after, by simpa using hr.symm, ho, hc⟩
    | cons b bs =>
      obtain ⟨rfl, rfl⟩ := hr
      refine .inl ⟨⟨before, e, bs, rfl, ho, ?_⟩, ?_⟩
      · exact fun e' he' => hc e' (mem_append_left _ he')
      · exact fun e' he' => hc e' (mem_append_right _ he')

/-! ## Runs -/

/-- The state and the log after some inputs. -/
def runLog (step : σ → ι → σ × List ε) : σ → List ι → σ × List ε
  | s, [] => (s, [])
  | s, i :: is =>
    let r := step s i
    let q := runLog step r.1 is
    (q.1, r.2 ++ q.2)

/-- Every step of the run meets the condition `ok` on its outcome and on what the
outcomes before it amount to. -/
def Guarded (step : σ → ι → σ × List ε) (outcome : σ → ι → ο) (note : γ → ο → γ)
    (ok : γ → ο → Prop) : γ → σ → List ι → Prop
  | _, _, [] => True
  | g, s, i :: is =>
    ok g (outcome s i) ∧ Guarded step outcome note ok (note g (outcome s i)) (step s i).1 is

instance decidableGuarded (step : σ → ι → σ × List ε) (outcome : σ → ι → ο) (note : γ → ο → γ)
    (ok : γ → ο → Prop) [∀ g o, Decidable (ok g o)] :
    ∀ (g : γ) (s : σ) (is : List ι), Decidable (Guarded step outcome note ok g s is)
  | _, _, [] => .isTrue trivial
  | g, s, i :: is =>
    have := decidableGuarded step outcome note ok (note g (outcome s i)) (step s i).1 is
    inferInstanceAs (Decidable (_ ∧ _))

variable {step : σ → ι → σ × List ε} {outcome : σ → ι → ο} {note : γ → ο → γ} {ok : γ → ο → Prop}

/-- **The run rule.** What each step preserves that meets the condition, a run
preserves whose steps all meet it. -/
theorem runLog_invariant {I : γ → σ → List ε → Prop}
    (hs : ∀ g s log i, I g s log → ok g (outcome s i) → I (note g (outcome s i))
      (step s i).1 (log ++ (step s i).2)) :
    ∀ (is : List ι) (g : γ) (s : σ) (log : List ε), I g s log →
    Guarded step outcome note ok g s is →
      ∃ g', I g' (runLog step s is).1 (log ++ (runLog step s is).2) := by
  intro is
  induction is with
  | nil =>
    intro g s log h _
    exact ⟨g, by simpa [runLog] using h⟩
  | cons i is ih =>
    intro g s log h hg
    obtain ⟨hok, hr⟩ := hg
    obtain ⟨g', h'⟩ := ih _ _ _ (hs g s log i h hok) hr
    refine ⟨g', ?_⟩
    rw [append_assoc] at h'
    exact h'

/-- **The erasure rule.** Inputs that change nothing and log nothing where they arrive
can be left out of a run. -/
theorem runLog_filter {keep : ι → Bool}
    (hs : ∀ g s i, keep i = false → ok g (outcome s i) → step s i = (s, [])) :
    ∀ (is : List ι) (g : γ) (s : σ), Guarded step outcome note ok g s is →
    runLog step s (is.filter keep) = runLog step s is := by
  intro is
  induction is with
  | nil => intro g s _; rfl
  | cons i is ih =>
    intro g s hg
    obtain ⟨hok, hrs⟩ := hg
    have hrun := ih _ _ hrs
    cases hk : keep i with
    | true =>
      rw [filter_cons_of_pos hk, runLog, runLog, hrun]
    | false =>
      rw [filter_cons_of_neg (by simp [hk]), runLog]
      rw [hs g s i hk hok] at hrun ⊢
      exact hrun

variable (step : σ → ι → σ × List ε)

theorem runLog_append (s : σ) (is js : List ι) : runLog step s (is ++ js) =
      ((runLog step (runLog step s is).1 js).1, (runLog step s is).2 ++
        (runLog step (runLog step s is).1 js).2) := by
  induction is generalizing s with
  | nil => rfl
  | cons i is ih =>
    simp only [cons_append, runLog]
    rw [ih, append_assoc]

theorem runLog_concat (s : σ) (is : List ι) (i : ι) : (runLog step s (is ++ [i])).2 =
      (runLog step s is).2 ++ (step (runLog step s is).1 i).2 := by
  rw [runLog_append, runLog, runLog, append_nil]

theorem runLog_concat_fst (s : σ) (is : List ι) (i : ι) :
    (runLog step s (is ++ [i])).1 = (step (runLog step s is).1 i).1 := by
  rw [runLog_append, runLog, runLog]

variable {step}

/-- The run rule for an invariant that speaks of the inputs read so far. -/
theorem runLog_invariant_inputs {ok : ι → Prop} {I : List ι → σ → List ε → Prop} {s : σ}
    (h : I [] s [])
    (hs : ∀ is s log i, I is s log → ok i → I (is ++ [i]) (step s i).1 (log ++ (step s i).2))
    (is : List ι) (hok : ∀ i ∈ is, ok i) : I is (runLog step s is).1 (runLog step s is).2 := by
  induction is using reverseRecOn with
  | nil => exact h
  | append_singleton is i ih =>
    rw [runLog_concat_fst, runLog_concat]
    refine hs _ _ _ _ (ih fun i' hi' => hok i' (mem_append_left _ hi')) ?_
    exact hok i (mem_append_right _ (mem_singleton_self i))

/-- The run rule up to the last input, whose outcome meets the condition there. -/
theorem runLog_invariant_last {I : γ → σ → List ε → Prop}
    (hs : ∀ g s log i, I g s log → ok g (outcome s i) → I (note g (outcome s i))
      (step s i).1 (log ++ (step s i).2))
    (is : List ι) (last : ι) (g : γ) (s : σ) (log : List ε) (h : I g s log)
    (hg : Guarded step outcome note ok g s (is ++ [last])) :
    ∃ g', I g' (runLog step s is).1 (log ++ (runLog step s is).2) ∧
    ok g' (outcome (runLog step s is).1 last) := by
  induction is generalizing g s log with
  | nil => exact ⟨g, by simpa [runLog] using h, hg.1⟩
  | cons i is ih =>
    obtain ⟨hok, hr⟩ := hg
    obtain ⟨g', h', hl⟩ := ih _ _ _ (hs g s log i h hok) hr
    refine ⟨g', ?_, hl⟩
    rw [append_assoc] at h'
    exact h'

end MediaKit.Lib
