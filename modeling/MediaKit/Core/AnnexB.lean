import MediaKit.Core.Payload

/-!
# NAL units behind start codes

Three functions of the source cut bytes at start codes: `annex_b_nalu_ranges` of
`crates/core/src/payload.rs`, `H264Parser::parse_annexb` of `crates/codec/src/h264.rs` and
`split_nalus` of `crates/webrtc/src/whip.rs`. They test the codes in different orders and end in
different ways, and find the same units (`splitters_agree`), on any bytes.

The proofs go along the bytes as the loops do: a start code, or a byte at which none begins
(`code_induction`).

Mirroring notes vs the Rust source:
  * A position in the bytes is what is left from it on, with what was passed since the last start
    code.
  * `split_nalus` returns the type of a unit, its first byte, with it. It is left out.
-/

namespace MediaKit.Core

open Lib List

/-- The loop of `parse_annexb`. `unit` is what was passed since `start`. -/
def parseAnnexbLoop (unit : Option Bytes) (rest : Bytes) : List Bytes :=
  if rest = [] then unit.toList.filter (!·.isEmpty)
  else if rest.take 3 = [0, 0, 1] then unit.toList ++ parseAnnexbLoop (some []) (rest.drop 3)
  else if rest.take 4 = [0, 0, 0, 1] then unit.toList ++ parseAnnexbLoop (some []) (rest.drop 4)
  else parseAnnexbLoop (unit.map (· ++ rest.take 1)) (rest.drop 1)
termination_by rest.length
decreasing_by
  all_goals
    have := length_pos_iff.mpr ‹rest ≠ []›
    rw [length_drop]
    omega

def parseAnnexb (data : Bytes) : List Bytes := parseAnnexbLoop none data

/-- The inner loop of `split_nalus`: a unit, and what is left. -/
def takeUnit : Bytes → Bytes × Bytes
  | [] => ([], [])
  | x :: rest =>
    if (x :: rest).take 4 = [0, 0, 0, 1] ∨ (x :: rest).take 3 = [0, 0, 1] then ([], x :: rest)
    else (x :: (takeUnit rest).1, (takeUnit rest).2)

/-- The outer loop. -/
def splitNalusLoop : Nat → Bytes → List Bytes
  | 0, _ => []
  | fuel + 1, rest =>
    let unit := fun rest =>
      (if (takeUnit rest).1.isEmpty then [] else [(takeUnit rest).1]) ++
      splitNalusLoop fuel (takeUnit rest).2
    if rest = [] then []
    else if rest.take 4 = [0, 0, 0, 1] then unit (rest.drop 4)
    else if rest.take 3 = [0, 0, 1] then unit (rest.drop 3)
    else splitNalusLoop fuel (rest.drop 1)

def splitNalus (data : Bytes) : List Bytes := splitNalusLoop data.length data

/-! ## Along the bytes -/

variable {data c pre rest : Bytes} {x : UInt8} {fuel i : Nat}

/-- No start code begins here, of either length. -/
theorem startsWithAnnexB_eq_false : startsWithAnnexB data = false ↔ data.take 3 ≠ [0, 0, 1] ∧
    data.take 4 ≠ [0, 0, 0, 1] := by
  rw [startsWithAnnexB, Bool.or_eq_false_iff, decide_eq_false_iff_not, decide_eq_false_iff_not]

/-- A start code has at least three bytes, so that a loop gets on. -/
theorem length_code (hc : c = [0, 0, 1] ∨ c = [0, 0, 0, 1]) : 3 ≤ c.length := by
  rcases hc with rfl | rfl <;> simp

/-- **Induction along the bytes**: a start code, or a byte at which none begins. -/
theorem code_induction {P : Bytes → Prop} (nil : P [])
    (code : ∀ c rest, c = [0, 0, 1] ∨ c = [0, 0, 0, 1] → P rest → P (c ++ rest))
    (other : ∀ x rest, startsWithAnnexB (x :: rest) = false → P rest → P (x :: rest))
    (data : Bytes) : P data := by
  induction hn : data.length using Nat.strongRecOn generalizing data with
  | ind n ih =>
    subst hn
    cases hcd : startsWithAnnexB data with
    | true =>
      rw [startsWithAnnexB, Bool.or_eq_true, decide_eq_true_eq, decide_eq_true_eq] at hcd
      obtain ⟨c, rest, hc, rfl⟩ : ∃ c rest, (c = [0, 0, 1] ∨ c = [0, 0, 0, 1]) ∧ data = c ++
          rest := by
        rcases hcd with h | h
        · exact ⟨_, _, .inl h, (take_append_drop 3 data).symm⟩
        · exact ⟨_, _, .inr h, (take_append_drop 4 data).symm⟩
      have hlen := length_code hc
      exact code c rest hc (ih rest.length (by rw [length_append]; omega) rest rfl)
    | false =>
      cases data with
      | nil => exact nil
      | cons x rest => exact other x rest hcd (ih rest.length (Nat.lt_succ_self _) rest rfl)

/-- At the end an open unit is returned unless it is empty. -/
theorem parseAnnexbLoop_nil (unit : Option Bytes) :
    parseAnnexbLoop unit [] = unit.toList.filter (!·.isEmpty) := by
  rw [parseAnnexbLoop, if_pos rfl]

/-- A start code ends the unit and begins the next. -/
theorem parseAnnexbLoop_code (hc : c = [0, 0, 1] ∨ c = [0, 0, 0, 1]) (unit : Option Bytes)
    (rest : Bytes) :
    parseAnnexbLoop unit (c ++ rest) = unit.toList ++ parseAnnexbLoop (some []) rest := by
  rcases hc with rfl | rfl <;> rw [parseAnnexbLoop] <;> simp

/-- Any other byte belongs to the unit. -/
theorem parseAnnexbLoop_other (h : startsWithAnnexB (x :: rest) = false) (unit : Option Bytes) :
    parseAnnexbLoop unit (x :: rest) = parseAnnexbLoop (unit.map (· ++ [x])) rest := by
  obtain ⟨h3, h4⟩ := startsWithAnnexB_eq_false.mp h
  rw [parseAnnexbLoop, if_neg h3, if_neg h4]
  rfl

/-- Nothing begins in no bytes. -/
theorem annexBStarts_nil : annexBStarts fuel i [] = [] := by cases fuel <;> rfl

/-- A start code is noted with its end. -/
theorem annexBStarts_code (hc : c = [0, 0, 1] ∨ c = [0, 0, 0, 1]) :
    annexBStarts (fuel + 1) i (c ++ rest) = (i, i + c.length) ::
      annexBStarts fuel (i + c.length) rest := by
  rcases hc with rfl | rfl <;> rw [annexBStarts] <;> simp

/-- Any other byte is passed. -/
theorem annexBStarts_other (h : startsWithAnnexB (x :: rest) = false) :
    annexBStarts (fuel + 1) i (x :: rest) = annexBStarts fuel (i + 1) rest := by
  obtain ⟨h3, h4⟩ := startsWithAnnexB_eq_false.mp h
  rw [annexBStarts]
  split
  next hs =>
    -- nor is there a start code behind it
    cases fuel with
    | zero => rfl
    | succ fuel => rw [annexBStarts, if_pos (Nat.lt_of_succ_lt hs)]
  next => rfl

/-! ## Ranges -/

/-- The length of a range and its bytes. -/
def rangeUnit (data : Bytes) (range : Nat × Nat) : Nat × Bytes :=
  (range.2 - range.1, (data.take range.2).drop range.1)

/-- What comes of some ranges. -/
def rangeUnits (data : Bytes) (ranges : List (Nat × Nat)) : List (Nat × Bytes) :=
  (ranges.filter fun range => range.1 < range.2).map (rangeUnit data)

def unitsWithLength (units : List Bytes) : List (Nat × Bytes) :=
  (units.filter (!·.isEmpty)).map fun n => (n.length, n)

/-- Empty units do not count. -/
theorem unitsWithLength_filter (units : List Bytes) :
    unitsWithLength (units.filter (!·.isEmpty)) = unitsWithLength units := by
  rw [unitsWithLength, filter_filter]
  simp only [Bool.and_self]
  rfl

/-- The range that ends here is the unit that ends here. -/
theorem rangeUnits_cons {start : Nat} (h : start ≤ pre.length) (ranges : List (Nat × Nat))
    (units : List Bytes) (hm : rangeUnits (pre ++ rest) ranges = unitsWithLength units) :
    rangeUnits (pre ++ rest) ((start, pre.length) :: ranges) =
      unitsWithLength (pre.drop start :: units) := by
  have hu : rangeUnit (pre ++ rest) (start, pre.length) =
      ((pre.drop start).length, pre.drop start) := by
    rw [rangeUnit, take_left, length_drop]
  have hs : decide (start < pre.length) = !(pre.drop start).isEmpty := by
    rw [Bool.eq_iff_iff, decide_eq_true_iff, Bool.not_eq_true', isEmpty_eq_false_iff,
      ← length_pos_iff, length_drop]
    omega
  rw [rangeUnits, unitsWithLength, filter_cons, filter_cons, ← hs]
  split
  · rw [map_cons, hu]
    exact congrArg _ hm
  · exact hm

/-- The ranges from some bytes on, when `pre` has been passed and a unit may have begun at
`start`. -/
theorem rangeUnits_eq (rest : Bytes) : ∀ (pre : Bytes) (start : Option Nat) (fuel : Nat),
    (∀ b ∈ start, b ≤ pre.length) → rest.length ≤ fuel →
    rangeUnits (pre ++ rest) ((start.toList ++ (annexBStarts fuel pre.length rest).map Prod.snd).zip
        (((annexBStarts fuel pre.length rest).drop (1 - start.toList.length)).map Prod.fst ++
          [(pre ++ rest).length])) =
      unitsWithLength (parseAnnexbLoop (start.map pre.drop) rest) := by
  induction rest using code_induction with
  | nil =>
    intro pre start fuel hs _
    rw [annexBStarts_nil, parseAnnexbLoop_nil, unitsWithLength_filter]
    cases start with
    | none => rfl
    | some b =>
      have hls : rangeUnits (pre ++ []) _ = _ := rangeUnits_cons (hs b rfl) [] [] rfl
      rw [append_nil] at hls ⊢
      exact hls
  | code c rest hc ih =>
    intro pre start fuel hs hf
    have hlen := length_code hc
    rw [length_append] at hf
    obtain ⟨fuel, rfl⟩ := Nat.exists_eq_add_of_le' (show 1 ≤ fuel by omega)
    have hm := ih (pre ++ c) (some (pre ++ c).length) fuel (fun b hb => (Option.some.inj hb).ge)
      (by omega)
    rw [Option.map_some, drop_length, append_assoc, length_append] at hm
    rw [annexBStarts_code hc, parseAnnexbLoop_code hc]
    cases start with
    | none => exact hm
    | some b => exact rangeUnits_cons (hs b rfl) _ _ hm
  | other x rest h ih =>
    intro pre start fuel hs hf
    obtain ⟨fuel, rfl⟩ := Nat.exists_eq_add_of_le' (Nat.one_le_of_lt hf)
    have hm := ih (pre ++ [x]) start fuel
      (fun b hb => by have := hs b hb; rw [length_append]; omega) (Nat.le_of_succ_le_succ hf)
    rw [append_assoc, length_append] at hm
    rw [annexBStarts_other h, parseAnnexbLoop_other h]
    cases start with
    | none => exact hm
    | some b =>
      rw [Option.map_some, drop_append_of_le_length (hs b rfl)] at hm
      exact hm

/-- **The ranges are the units** of `parse_annexb` that are not empty. -/
theorem map_annexBNaluRanges (data : Bytes) :
    (annexBNaluRanges data).map (rangeUnit data) = unitsWithLength (parseAnnexb data) := by
  have hal := rangeUnits_eq data [] none data.length nofun le_rfl
  rw [annexBNaluRanges, ← drop_one]
  exact hal

/-! ## Units behind start codes -/

/-- NAL units behind start codes. -/
def annexBOf (nalus : List Bytes) : Bytes := nalus.flatMap fun n => annexBStartCode ++ n

/-- What may stand behind a unit. -/
def Behind (s : Bytes) : Prop := s = [] ∨ ∃ t, s = 0 :: 0 :: 0 :: 1 :: t

/-- Behind a unit there is nothing or another start code. -/
theorem behind_annexBOf (nalus : List Bytes) : Behind (annexBOf nalus) := by
  cases nalus with
  | nil => exact .inl rfl
  | cons n nalus => exact .inr ⟨_, rfl⟩

/-- No `00 00 01` begins in a unit. -/
theorem not_code_front {n s : Bytes} (hn : ¬ [0, 0, 1] <:+: n) (hs : Behind s) :
    (n ++ s).take 3 ≠ [0, 0, 1] := by
  intro h
  match n with
  | [] => rcases hs with rfl | ⟨t, rfl⟩ <;> cases h
  | [a] => rcases hs with rfl | ⟨t, rfl⟩ <;> cases h
  | [a, b] => rcases hs with rfl | ⟨t, rfl⟩ <;> cases h
  | a :: b :: c :: n =>
    obtain ⟨rfl, rfl, rfl⟩ : a = 0 ∧ b = 0 ∧ c = 1 := by simpa using h
    exact hn (List.IsPrefix.isInfix ⟨n, rfl⟩)

/-- What is left of a unit has no start code either. -/
theorem noCode_tail {n : Bytes} (hn : ¬ [0, 0, 1] <:+: x :: n) : ¬ [0, 0, 1] <:+: n :=
  fun h => hn (h.trans (suffix_cons x n).isInfix)

/-- A unit without a start code is passed as a whole. -/
theorem parseAnnexbLoop_unit {s : Bytes} (hs : Behind s) :
    ∀ {n : Bytes} (unit : Bytes), ¬ [0, 0, 1] <:+: n →
    parseAnnexbLoop (some unit) (n ++ s) = parseAnnexbLoop (some (unit ++ n)) s
  | [], unit, _ => by rw [append_nil]; rfl
  | x :: n, unit, hn => by
    have hc : startsWithAnnexB (x :: (n ++ s)) = false := by
      refine startsWithAnnexB_eq_false.mpr ⟨not_code_front hn hs, fun h => ?_⟩
      exact not_code_front (noCode_tail hn) hs (List.cons.inj h).2
    rw [cons_append, parseAnnexbLoop_other hc, Option.map_some,
      parseAnnexbLoop_unit hs _ (noCode_tail hn), append_assoc]
    rfl

/-- The loop finds the units that were written. -/
theorem parseAnnexbLoop_annexBOf {nalus : List Bytes} (h : ∀ n ∈ nalus, ¬ [0, 0, 1] <:+: n) :
    ∀ unit : Option Bytes, (parseAnnexbLoop unit (annexBOf nalus)).filter (!·.isEmpty) =
      (unit.toList ++ nalus).filter (!·.isEmpty) := by
  induction nalus with
  | nil =>
    intro unit
    rw [annexBOf, flatMap_nil, parseAnnexbLoop_nil, filter_filter, append_nil]
    simp only [Bool.and_self]
  | cons n ns ih =>
    intro unit
    obtain ⟨hn, hns⟩ := forall_mem_cons.mp h
    have hd : annexBOf (n :: ns) = [0, 0, 0, 1] ++ (n ++ annexBOf ns) := append_assoc ..
    rw [hd, parseAnnexbLoop_code (.inr rfl), parseAnnexbLoop_unit (behind_annexBOf ns) [] hn,
      filter_append, ih hns, ← filter_append]
    rfl

/-- **NAL units are found again** behind their start codes. -/
theorem annexBNaluRanges_annexBOf {nalus : List Bytes} (hne : ∀ n ∈ nalus, n ≠ [])
    (h : ∀ n ∈ nalus, ¬ [0, 0, 1] <:+: n) :
    (annexBNaluRanges (annexBOf nalus)).map (rangeUnit (annexBOf nalus)) = nalus.map fun n =>
      (n.length, n) := by
  rw [map_annexBNaluRanges, unitsWithLength, parseAnnexb, parseAnnexbLoop_annexBOf h,
    Option.toList_none, nil_append, filter_eq_self.mpr]
  intro n hn
  rw [Bool.not_eq_true', isEmpty_eq_false_iff]
  exact hne n hn

/-! ## `split_nalus` -/

/-- The inner loop stops at a start code. -/
theorem takeUnit_code (hc : c = [0, 0, 1] ∨ c = [0, 0, 0, 1]) (rest : Bytes) :
    takeUnit (c ++ rest) = ([], c ++ rest) := by
  rcases hc with rfl | rfl <;> exact if_pos (by simp)

/-- The inner loop takes any other byte. -/
theorem takeUnit_other (h : startsWithAnnexB (x :: rest) = false) :
    takeUnit (x :: rest) = (x :: (takeUnit rest).1, (takeUnit rest).2) := by
  obtain ⟨h3, h4⟩ := startsWithAnnexB_eq_false.mp h
  exact if_neg (not_or.mpr ⟨h4, h3⟩)

/-- What the inner loop takes is the unit of `parse_annexb`. -/
theorem parseAnnexbLoop_takeUnit (rest : Bytes) :
    ∀ unit : Bytes, (takeUnit rest).2.length ≤ rest.length ∧
    (parseAnnexbLoop (some unit) rest).filter (!·.isEmpty) =
      ((unit ++ (takeUnit rest).1) :: parseAnnexbLoop none (takeUnit rest).2).filter
        (!·.isEmpty) := by
  induction rest using code_induction with
  | nil =>
    intro unit
    refine ⟨le_rfl, ?_⟩
    rw [takeUnit, parseAnnexbLoop_nil, parseAnnexbLoop_nil, filter_filter, append_nil]
    simp
  | code c rest hc ih =>
    intro unit
    refine ⟨by rw [takeUnit_code hc], ?_⟩
    rw [takeUnit_code hc, parseAnnexbLoop_code hc, parseAnnexbLoop_code hc, append_nil]
    rfl
  | other x rest h ih =>
    intro unit
    obtain ⟨hle, heq⟩ := ih (unit ++ [x])
    rw [takeUnit_other h, parseAnnexbLoop_other h]
    refine ⟨Nat.le_succ_of_le hle, heq.trans ?_⟩
    rw [append_assoc]
    rfl

/-- With enough fuel the outer loop has the units of `parse_annexb`. -/
theorem splitNalusLoop_eq : ∀ {fuel : Nat} {rest : Bytes}, rest.length ≤ fuel →
    splitNalusLoop fuel rest = (parseAnnexbLoop none rest).filter (!·.isEmpty) := by
  intro fuel
  induction fuel with
  | zero =>
    intro rest h
    rw [length_eq_zero_iff.mp (Nat.le_zero.mp h), parseAnnexbLoop_nil]
    rfl
  | succ fuel ih =>
    intro rest
    induction rest using code_induction with
    | nil =>
      intro _
      rw [parseAnnexbLoop_nil]
      rfl
    | code c rest hc _ =>
      intro h
      have hlen := length_code hc
      rw [length_append] at h
      obtain ⟨hle, heq⟩ := parseAnnexbLoop_takeUnit rest []
      have hs : splitNalusLoop (fuel + 1) (c ++ rest) =
          (if (takeUnit rest).1.isEmpty then [] else [(takeUnit rest).1]) ++
          splitNalusLoop fuel (takeUnit rest).2 := by
        rcases hc with rfl | rfl <;> rw [splitNalusLoop] <;> simp
      rw [hs, ih (by omega), parseAnnexbLoop_code hc, Option.toList_none, nil_append, heq,
        nil_append, filter_cons]
      cases (takeUnit rest).1.isEmpty <;> rfl
    | other x rest h _ =>
      intro hf
      obtain ⟨h3, h4⟩ := startsWithAnnexB_eq_false.mp h
      rw [splitNalusLoop, if_neg (cons_ne_nil _ _), if_neg h4, if_neg h3, parseAnnexbLoop_other h]
      exact ih (Nat.le_of_succ_le_succ hf)

/-- **The three splitters agree**, on any bytes. -/
theorem splitters_agree (data : Bytes) :
    (parseAnnexb data).filter (!·.isEmpty) =
      (annexBNaluRanges data).map (fun range => (data.take range.2).drop range.1) ∧
      splitNalus data = (annexBNaluRanges data).map fun range =>
        (data.take range.2).drop range.1 := by
  have hr := congrArg (map Prod.snd) (map_annexBNaluRanges data)
  rw [unitsWithLength, map_map, map_map] at hr
  have hu : (annexBNaluRanges data).map (fun range => (data.take range.2).drop range.1) =
      (parseAnnexb data).filter (!·.isEmpty) :=
    hr.trans (map_id' _)
  rw [hu]
  exact ⟨rfl, splitNalusLoop_eq le_rfl⟩

end MediaKit.Core
