import MediaKit.Lib.Utf8

/-!
# Operations on strings

The `str` methods that the protocol parsers use, on lists of characters:
`split_once`, `split` (`List.splitOn`), `find`, `lines`, `trim` and its variants,
`strip_prefix`, `strip_suffix`, `to_ascii_lowercase` and `parse` for unsigned numbers.
-/

namespace MediaKit.Lib

open List Option

variable {a s : Str} {c : Char}

/-- `s.split_once(c)`: the parts before and behind the first `c`. -/
def splitOnce (c : Char) : Str → Option (Str × Str)
  | [] => none
  | x :: s => if x = c then some ([], s) else (splitOnce c s).map fun p => (x :: p.1, p.2)

/-- The part before the first `c` ends there. -/
theorem notMem_of_splitOnce {p : Str × Str} (h : splitOnce c s = some p) : c ∉ p.1 := by
  induction s generalizing p with
  | nil => cases h
  | cons x s ih =>
    rw [splitOnce] at h
    by_cases hx : x = c
    · rw [if_pos hx, some.injEq] at h
      rw [← h]
      exact not_mem_nil
    · rw [if_neg hx, map_eq_some_iff] at h
      obtain ⟨q, hq, rfl⟩ := h
      rw [mem_cons, not_or]
      exact ⟨fun he => hx he.symm, ih hq⟩

theorem splitOnce_append_cons (ha : c ∉ a) (b : Str) : splitOnce c (a ++ c :: b) = some (a, b) := by
  induction a with
  | nil => exact if_pos rfl
  | cons x a ih =>
    rw [mem_cons, not_or] at ha
    rw [cons_append, splitOnce, if_neg fun he => ha.1 he.symm, ih ha.2]
    rfl

/-- A string is cut in one way at its first `c`. -/
theorem append_cons_inj {a' b b' : Str} (ha : c ∉ a) (ha' : c ∉ a')
    (h : a ++ c :: b = a' ++ c :: b') : a = a' ∧ b = b' := by
  have hs := splitOnce_append_cons ha b
  rw [h, splitOnce_append_cons ha', some.injEq, Prod.mk.injEq] at hs
  exact ⟨hs.1.symm, hs.2.symm⟩

/-- `s.splitn(3, c)` where it has three parts. -/
def splitThree (c : Char) (s : Str) : Option (Str × Str × Str) :=
  (splitOnce c s).bind fun p => (splitOnce c p.2).map fun q => (p.1, q.1, q.2)

/-- `s.find(pat)` for a non-empty `pat`, as the parts before and behind the first copy. -/
def splitOncePat (pat : Str) : Str → Option (Str × Str)
  | [] => none
  | c :: s =>
    if pat.isPrefixOf (c :: s) then some ([], (c :: s).drop pat.length)
    else (splitOncePat pat s).map fun p => (c :: p.1, p.2)

theorem length_le_of_splitOncePat {pat : Str} {p : Str × Str}
    (h : splitOncePat pat s = some p) : pat.length ≤ s.length := by
  induction s generalizing p with
  | nil => simp [splitOncePat] at h
  | cons c s ih =>
    rw [splitOncePat] at h
    by_cases hp : pat.isPrefixOf (c :: s) = true
    · have hpr : pat <+: c :: s := isPrefixOf_iff_prefix.mp hp
      exact hpr.length_le
    · rw [if_neg hp, map_eq_some_iff] at h
      obtain ⟨q, hq, -⟩ := h
      exact Nat.le_succ_of_le (ih hq)

theorem splitOncePat_append {pat b : Str} (h : splitOncePat pat s = some (a, b)) (t : Str) :
    splitOncePat pat (s ++ t) = some (a, b ++ t) := by
  induction s generalizing a with
  | nil => simp [splitOncePat] at h
  | cons c s ih =>
    rw [splitOncePat] at h
    rw [cons_append, splitOncePat, ← cons_append]
    by_cases hp : pat.isPrefixOf (c :: s) = true
    · rw [if_pos hp, some.injEq] at h
      obtain ⟨rfl, rfl⟩ := h
      have hpr : pat <+: c :: s := isPrefixOf_iff_prefix.mp hp
      have hl : pat.isPrefixOf (c :: s ++ t) = true :=
        isPrefixOf_iff_prefix.mpr (hpr.trans (prefix_append _ _))
      rw [if_pos hl, drop_append_of_le_length hpr.length_le]
    · rw [if_neg hp, map_eq_some_iff] at h
      obtain ⟨q, hq, heq⟩ := h
      obtain ⟨rfl, rfl⟩ := Prod.mk.inj heq
      -- a copy that starts here and runs into `t` would be longer than the one in `s`
      have hp' : ¬ pat.isPrefixOf (c :: s ++ t) = true := by
        intro hl
        have hpr := isPrefixOf_iff_prefix.mp hl
        apply hp
        apply isPrefixOf_iff_prefix.mpr
        exact prefix_of_prefix_length_le hpr (prefix_append _ _)
          (Nat.le_succ_of_le (length_le_of_splitOncePat hq))
      rw [if_neg hp', ih hq]
      rfl

/-- `char::is_whitespace`: the Unicode property White_Space. -/
def isWhitespace (c : Char) : Bool :=
  let n := c.toNat
  decide (0x09 ≤ n ∧ n ≤ 0x0D ∨ n = 0x20 ∨ n = 0x85 ∨ n = 0xA0 ∨ n = 0x1680 ∨
    0x2000 ≤ n ∧ n ≤ 0x200A ∨ n = 0x2028 ∨ n = 0x2029 ∨ n = 0x202F ∨ n = 0x205F ∨ n = 0x3000)

/-- `s.trim()`. -/
def trim (s : Str) : Str := ((s.dropWhile isWhitespace).reverse.dropWhile isWhitespace).reverse

/-- `s.lines()`: a line feed ends a line, together with a carriage return before it. -/
def lines (s : Str) : List Str :=
  go [] s
where
  /-- `cur` is the beginning of the line, reversed. -/
  go : Str → Str → List Str
    | [], [] => []
    | cur, [] => [cur.reverse]
    | cur, '\n' :: s => (if cur.head? = some '\r' then cur.tail else cur).reverse :: go [] s
    | cur, c :: s => go (c :: cur) s

/-- `s.split("\r\n")`. -/
def splitCrlf : Str → List Str
  | [] => [[]]
  | '\r' :: '\n' :: s => [] :: splitCrlf s
  | c :: s =>
    match splitCrlf s with
    | [] => [[c]]
    | l :: ls => (c :: l) :: ls

theorem splitCrlf_crlf (s : Str) : splitCrlf ('\r' :: '\n' :: s) = [] :: splitCrlf s := by
  rw [splitCrlf]

theorem splitCrlf_ne_nil (s : Str) : splitCrlf s ≠ [] := by
  fun_cases splitCrlf s <;> simp [*]

/-- A character that does not begin a line end belongs to the first line. -/
theorem splitCrlf_cons (h : ¬ (c = '\r' ∧ s.head? = some '\n')) :
    ∃ l ls, splitCrlf s = l :: ls ∧ splitCrlf (c :: s) = (c :: l) :: ls := by
  cases hs : splitCrlf s with
  | nil => exact absurd hs (splitCrlf_ne_nil s)
  | cons l ls =>
    refine ⟨l, ls, rfl, ?_⟩
    rw [splitCrlf]
    · rw [hs]
    · rintro s' rfl rfl
      exact h ⟨rfl, rfl⟩

theorem splitCrlf_append_crlf : ∀ x y : Str,
    splitCrlf (x ++ '\r' :: '\n' :: y) = splitCrlf x ++ splitCrlf y
  | [], y => splitCrlf_crlf y
  | c :: x, y => by
    by_cases hc : c = '\r' ∧ x.head? = some '\n'
    · obtain ⟨rfl, hx⟩ := hc
      cases x with
      | nil => cases hx
      | cons d x =>
        cases hx
        have ih := splitCrlf_append_crlf x y
        show splitCrlf ('\r' :: '\n' :: (x ++ '\r' :: '\n' :: y)) = _
        rw [splitCrlf_crlf, ih]
        rfl
    · have ih := splitCrlf_append_crlf x y
      have hc' : ¬ (c = '\r' ∧ (x ++ '\r' :: '\n' :: y).head? = some '\n') := by
        cases x with
        | nil => exact fun h => absurd (some.inj h.2) (by decide)
        | cons d x => exact hc
      obtain ⟨l, ls, hx, hcx⟩ := splitCrlf_cons hc
      obtain ⟨l', ls', hxy, hcy⟩ := splitCrlf_cons hc'
      rw [hx, hxy] at ih
      obtain ⟨rfl, rfl⟩ := List.cons.inj ih
      rw [cons_append, hcx, hcy]
      rfl

def isDigit (c : Char) : Bool := decide ('0' ≤ c ∧ c ≤ '9')

/-- `s.parse()` for an unsigned integer below `bound`: digits, behind at most one `+`. -/
def parseUnsigned (bound : Nat) (s : Str) : Option Nat :=
  let digits := match s with
    | '+' :: c :: r => c :: r
    | _ => s
  if digits.isEmpty ∨ ¬ digits.all isDigit then none
  else
    let n := digits.foldl (fun n c => n * 10 + (c.toNat - '0'.toNat)) 0
    if n < bound then some n else none

/-- `s.split_whitespace()`. -/
def splitWhitespace (s : Str) : List Str := (s.splitOnP isWhitespace).filter fun part =>
  !part.isEmpty

/-- `s.contains(pat)` for a non-empty `pat`. -/
def contains (pat s : Str) : Bool := (splitOncePat pat s).isSome

def hexDigit (c : Char) : Option Nat :=
  if isDigit c then some (c.toNat - 48)
  else if 'a' ≤ c ∧ c ≤ 'f' then some (c.toNat - 87)
  else if 'A' ≤ c ∧ c ≤ 'F' then some (c.toNat - 55)
  else none

/-- `u8::from_str_radix(s, 16)`: digits, behind at most one `+`. -/
def parseHexByte (s : Str) : Option UInt8 :=
  let digits := match s with
    | '+' :: c :: r => c :: r
    | _ => s
  if digits.isEmpty then none
  else
    match digits.foldlM (fun n c => (hexDigit c).map (n * 16 + ·)) 0 with
    | some n => if n < 256 then some (UInt8.ofNat n) else none
    | none => none

/-- `s.strip_prefix(pat)`. -/
def stripPre (pat s : Str) : Option Str :=
  if pat.isPrefixOf s then some (s.drop pat.length) else none

/-- `s.strip_suffix(pat)`. -/
def stripSuf (pat s : Str) : Option Str :=
  if pat.isSuffixOf s then some (s.take (s.length - pat.length)) else none

/-- `s.trim_end_matches(c)`. -/
def trimEnd (c : Char) (s : Str) : Str := (s.reverse.dropWhile (· == c)).reverse

/-- `s.trim_matches(c)`. -/
def trimMatches (c : Char) (s : Str) : Str := trimEnd c (s.dropWhile (· == c))

/-- `s.to_ascii_lowercase()`. -/
def asciiLower (s : Str) : Str := s.map Char.toLower

/-- `s.replace(pat, by)` for a non-empty `pat`. Each copy takes a character, so the length
bounds the rounds. -/
def replaceAll (pat rep s : Str) : Str :=
  go s.length s
where
  go : Nat → Str → Str
    | 0, s => s
    | n + 1, s =>
      match splitOncePat pat s with
      | none => s
      | some (before, behind) => before ++ rep ++ go n behind

/-- `s.trim_start_matches(pat)` for a non-empty `pat`: every copy at the front is
removed. Each removes a character, so the length bounds the rounds. -/
def trimStartMatches (pat s : Str) : Str :=
  go s.length s
where
  go : Nat → Str → Str
    | 0, s => s
    | n + 1, s => if pat.isPrefixOf s then go n (s.drop pat.length) else s

end MediaKit.Lib
