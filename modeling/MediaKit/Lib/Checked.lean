import MediaKit.Lib.Schedule
import MediaKit.Lib.Text

/-!
# Operations that can fault

A program stops at an index or a slice out of range, at a position inside a character, at
a division by zero and at an overflow. Here such an operation returns an `Option`, and
`none` is the fault. What a function of such operations returns is then `none` exactly
when it does not come to its end.

The run rule is `isSome_foldlM_iff`: where one step comes to its end exactly under a condition on
the state before it, a run does so exactly if all the steps that it reaches meet the condition
(`Along`). -/

namespace MediaKit.Lib

open List Option

variable {α σ ι : Type}

/-! ## Lists -/

/-- `&b[i..j]`. -/
def slice (b : List α) (i j : Nat) : Option (List α) :=
  if i ≤ j ∧ j ≤ b.length then some ((b.take j).drop i) else none

theorem slice_of_le {b : List α} {i j : Nat} (hij : i ≤ j) (hj : j ≤ b.length) :
    slice b i j = some ((b.take j).drop i) :=
  if_pos ⟨hij, hj⟩

/-- `&b[i..]`. -/
theorem slice_to_end {b : List α} {i : Nat} (hi : i ≤ b.length) :
    slice b i b.length = some (b.drop i) := by
  rw [slice_of_le hi le_rfl, take_length]

/-! ## Numbers -/

variable (a b : Nat)

/-- `a + b` for `usize`. -/
def addUsize : Option Nat := if a + b < 2 ^ 64 then some (a + b) else none

theorem addUsize_of_lt {a b : Nat} (h : a + b < 2 ^ 64) : addUsize a b = some (a + b) := if_pos h

theorem addUsize_cases : addUsize a b = none ∨ addUsize a b = some (a + b) := by
  by_cases h : a + b < 2 ^ 64
  · exact .inr (if_pos h)
  · exact .inl (if_neg h)

/-- `a - b` for `usize`. -/
def subUsize : Option Nat := if b ≤ a then some (a - b) else none

theorem subUsize_of_le {a b : Nat} (h : b ≤ a) : subUsize a b = some (a - b) := if_pos h

/-- `a + b` for `u32`. -/
def addU32 : Option Nat := if a + b < 2 ^ 32 then some (a + b) else none

theorem addU32_of_lt {a b : Nat} (h : a + b < 2 ^ 32) : addU32 a b = some (a + b) := if_pos h

theorem of_addU32 {a b c : Nat} (h : addU32 a b = some c) : c = a + b ∧ a + b < 2 ^ 32 := by
  rw [addU32] at h
  split at h
  next hlt => exact ⟨(some.inj h).symm, hlt⟩
  next => cases h

/-- The sum of `u64` numbers. -/
def sumU64 (l : List Nat) : Option Nat := l.foldlM addUsize 0

theorem sumU64_of_lt {l : List Nat} (h : l.sum < 2 ^ 64) : sumU64 l = some l.sum := by
  have hf : ∀ (l : List Nat) (a : Nat), a + l.sum < 2 ^ 64 →
      l.foldlM addUsize a = some (a + l.sum) := by
    intro l
    induction l with
    | nil => exact fun a _ => rfl
    | cons x l ih =>
      intro a ha
      rw [sum_cons] at ha ⊢
      rw [foldlM_cons, addUsize_of_lt (by omega), bind_eq_bind, bind_some, ih _ (by omega),
        add_assoc]
  rw [sumU64, hf l 0 (by omega), zero_add]

theorem of_sumU64 {l : List Nat} {total : Nat} (h : sumU64 l = some total) : total = l.sum := by
  have hf : ∀ (l : List Nat) (a : Nat), l.foldlM addUsize a = some total → total = a + l.sum := by
    intro l
    induction l with
    | nil => exact fun a ha => (some.inj ha).symm
    | cons x l ih =>
      intro a ha
      rw [foldlM_cons] at ha
      rcases addUsize_cases a x with had | had
      · rw [had] at ha
        cases ha
      · rw [had] at ha
        rw [ih (a + x) ha, sum_cons, add_assoc]
  rw [hf l 0 h, zero_add]

/-- `a * b` for `u64`. -/
def mulU64 : Option Nat := if a * b < 2 ^ 64 then some (a * b) else none

theorem mulU64_of_lt {a b : Nat} (h : a * b < 2 ^ 64) : mulU64 a b = some (a * b) := if_pos h

theorem of_mulU64 {a b c : Nat} (h : mulU64 a b = some c) : c = a * b ∧ a * b < 2 ^ 64 := by
  rw [mulU64] at h
  split at h
  next hlt => exact ⟨(some.inj h).symm, hlt⟩
  next => cases h

/-- `a / b` for unsigned numbers. -/
def divChecked : Option Nat := if b = 0 then none else some (a / b)

/-- `a.div_ceil(b)`. -/
def divCeilChecked : Option Nat := if b = 0 then none else some ((a + b - 1) / b)

/-- A byte string that fits into memory: no allocation exceeds `isize::MAX`. -/
structure Slice where
  bytes : Bytes
  fits : bytes.length < 2 ^ 63

/-! ## Strings -/

/-- A string cut at a byte position, which must not lie inside a character. -/
def splitAtByte : Nat → Str → Option (Str × Str)
  | 0, s => some ([], s)
  | _ + 1, [] => none
  | n + 1, c :: s =>
    if c.utf8Size ≤ n + 1 then (splitAtByte (n + 1 - c.utf8Size) s).map fun p =>
      (c :: p.1, p.2) else none

@[simp] theorem splitAtByte_zero (s : Str) : splitAtByte 0 s = some ([], s) := by cases s <;> rfl

theorem splitAtByte_cons {n : Nat} (hn : 0 < n) (c : Char) (s : Str) : splitAtByte n (c :: s) =
      if c.utf8Size ≤ n then (splitAtByte (n - c.utf8Size) s).map fun p =>
        (c :: p.1, p.2) else none := by
  cases n with
  | zero => exact absurd hn (lt_irrefl 0)
  | succ n => rfl

theorem splitAtByte_append (r : Str) : ∀ a : Str, splitAtByte (byteLen a) (a ++ r) = some (a, r)
  | [] => splitAtByte_zero r
  | c :: a => by
    have hpos := c.utf8Size_pos
    rw [byteLen_cons, cons_append, splitAtByte_cons (by omega), if_pos (by omega),
      Nat.add_sub_cancel_left,
      splitAtByte_append r a]
    rfl

theorem of_splitAtByte : ∀ {s a r : Str} {n : Nat}, splitAtByte n s = some (a, r) → s = a ++ r ∧
    byteLen a = n
  | s, a, r, 0, h => by
    rw [splitAtByte_zero] at h
    cases h
    exact ⟨rfl, rfl⟩
  | [], a, r, n + 1, h => by cases h
  | c :: s, a, r, n + 1, h => by
    rw [splitAtByte] at h
    split at h
    next hc =>
      obtain ⟨⟨a', r'⟩, hs, heq⟩ := map_eq_some_iff.mp h
      cases heq
      obtain ⟨rfl, hlen⟩ := of_splitAtByte hs
      refine ⟨rfl, ?_⟩
      rw [byteLen_cons, hlen]
      omega
    next => cases h

/-- The position lies inside a character. -/
def InsideChar (s : Str) (n : Nat) : Prop :=
  ∃ x c y, s = x ++ c :: y ∧ byteLen x < n ∧ n < byteLen x + c.utf8Size

theorem splitAtByte_eq_none_iff : ∀ {s : Str} {n : Nat}, n ≤ byteLen s →
    (splitAtByte n s = none ↔ InsideChar s n)
  | s, 0, _ => by
    rw [splitAtByte_zero]
    refine iff_of_false nofun ?_
    rintro ⟨x, c, y, -, h, -⟩
    exact absurd h (Nat.not_lt_zero _)
  | [], n + 1, h => absurd h (Nat.not_succ_le_zero n)
  | c :: s, n + 1, h => by
    rw [byteLen_cons] at h
    rw [splitAtByte]
    by_cases hc : c.utf8Size ≤ n + 1
    · rw [if_pos hc, map_eq_none_iff, splitAtByte_eq_none_iff (by omega)]
      constructor
      · rintro ⟨x, d, y, rfl, hlt, hgt⟩
        refine ⟨c :: x, d, y, rfl, ?_, ?_⟩
        · rw [byteLen_cons]
          omega
        · rw [byteLen_cons]
          omega
      · rintro ⟨x, d, y, heq, hlt, hgt⟩
        cases x with
        | nil =>
          cases heq
          rw [show byteLen [] = 0 from rfl] at hgt
          omega
        | cons e x =>
          cases heq
          rw [byteLen_cons] at hlt hgt
          exact ⟨x, d, y, rfl, by omega, by omega⟩
    · rw [if_neg hc]
      refine iff_of_true rfl ⟨[], c, s, rfl, Nat.succ_pos n, ?_⟩
      omega

/-! ## Outcomes -/

/-- A computation that can fault, or give up without a result. -/
inductive Outcome (α : Type) where
  | fault
  | fail
  | done (a : α)

namespace Outcome

def bind {β : Type} (x : Outcome α) (f : α → Outcome β) : Outcome β :=
  match x with
  | .fault => .fault
  | .fail => .fail
  | .done a => f a

instance : Monad Outcome where
  pure := .done
  bind := bind

/-- A checked operation. -/
def ofChecked : Option α → Outcome α
  | some a => .done a
  | none => .fault

/-- An operation that gives up. -/
def ofOption : Option α → Outcome α
  | some a => .done a
  | none => .fail

/-- There is no fault, and a result meets the condition. -/
def Ensures (x : Outcome α) (Q : α → Prop) : Prop :=
  match x with
  | .fault => False
  | .fail => True
  | .done a => Q a

variable {Q : α → Prop}

/-- **The rule of sequence.** -/
theorem Ensures.bind {β : Type} {x : Outcome α} {f : α → Outcome β} {R : β → Prop}
    (hx : x.Ensures Q) (hf : ∀ a, Q a → (f a).Ensures R) : (x >>= f).Ensures R := by
  cases x with
  | fault => exact hx
  | fail => trivial
  | done a => exact hf a hx

theorem Ensures.imp {x : Outcome α} {Q R : α → Prop} (hx : x.Ensures Q) (h : ∀ a, Q a → R a) :
    x.Ensures R := by
  cases x with
  | fault => exact hx
  | fail => trivial
  | done a => exact h a hx

theorem ensures_ofOption {o : Option α} (h : ∀ a, o = some a → Q a) : (ofOption o).Ensures Q := by
  cases o with
  | none => trivial
  | some a => exact h a rfl

theorem ensures_ofChecked {o : Option α} {a : α} (h : o = some a) (hq : Q a) :
    (ofChecked o).Ensures Q := by
  rw [h]
  exact hq

end Outcome

/-! ## Errors -/

/-- Why there is no result: a fault, or an error that the caller gets. -/
inductive Stop (ε : Type) where
  | fault
  | error (e : ε)
  deriving DecidableEq

variable {ε : Type}
  {β : Type}

/-- A checked operation in a function that returns errors. -/
def checked : Option α → Except (Stop ε) α
  | some a => .ok a
  | none => .error .fault

/-- `ok_or` and `context`. -/
def orError (e : ε) : Option α → Except (Stop ε) α
  | some a => .ok a
  | none => .error (.error e)

/-- The results of a reader whose errors are texts. -/
abbrev Parse (α : Type) := Except (Stop String) α

/-- `bail!`. -/
def bail (text : String) : Parse α := .error (.error text)

@[simp] theorem checked_some (a : α) : (checked (some a) : Except (Stop ε) α) = .ok a := rfl

@[simp] theorem orError_some (e : ε) (a : α) : orError e (some a) = .ok a := rfl

@[simp] theorem ok_bind (a : α) (f : α → Except ε β) : (Except.ok a >>= f) = f a := rfl

theorem of_bind_ok {x : Except ε α} {f : α → Except ε β} {b : β} (h : (x >>= f) = .ok b) :
    ∃ a, x = .ok a ∧ f a = .ok b := by
  cases x with
  | error e => cases h
  | ok a => exact ⟨a, rfl, h⟩

/-! ## Runs -/

/-- **The run rule.** -/
theorem isSome_foldlM_iff {step : σ → ι → Option σ} {ok : σ → ι → Prop} {Inv : σ → Prop}
    (hst : ∀ s i, Inv s → ((step s i).isSome = true ↔ ok s i))
    (hin : ∀ s i s', Inv s → step s i = some s' → Inv s') :
    ∀ (is : List ι) (s : σ), Inv s → ((is.foldlM step s).isSome = true ↔ Along step ok s is)
  | [], s, _ => iff_of_true rfl trivial
  | i :: is, s, hs => by
    rw [foldlM_cons]
    have ho := hst s i hs
    cases hi : step s i with
    | none =>
      rw [hi] at ho
      refine iff_of_false (fun h => absurd h (by simp)) ?_
      exact fun h => absurd (ho.mpr h.1) (by simp)
    | some s' =>
      rw [hi] at ho
      show (foldlM step s' is).isSome = true ↔ _
      rw [isSome_foldlM_iff hst hin is s' (hin s i s' hs hi)]
      constructor
      · intro h
        refine ⟨ho.mp rfl, fun s'' hs'' => ?_⟩
        rw [hi, some.injEq] at hs''
        rwa [← hs'']
      · exact fun h => h.2 s' hi

end MediaKit.Lib
