import Mathlib.Order.WellFounded
import MediaKit.Ps.Demuxer

/-!
# The first entity

`find_start_code` looks for the first place at which a pack header, a system header, a map or
a packet begins. Behind a start code of another kind it goes on four bytes further, though
the next start code may begin with the last of them.

> `findStartCode_isLeast_iff`: the first entity is found unless an odd number of start codes
> stand in a row right in front of it, counted from where the search begins.
-/

namespace MediaKit.Ps

open Lib List

variable {data : Bytes} {fuel i m : Nat}

/-- An entity begins here, behind a start code of three bytes or of four. -/
def StartsEntity (b : Bytes) : Prop :=
  StartsCode b ∧ isPsEntity (b.getD 3 0) ∨ 5 ≤ b.length ∧ b.take 4 = [0, 0, 0, 1] ∧
    isPsEntity (b.getD 4 0)

/-- The places of the entities from `start` on. -/
def entitiesFrom (data : Bytes) (start : Nat) : Set Nat :=
  {i | start ≤ i ∧ StartsEntity (data.drop i)}

/-- The start codes of three bytes in a row at the end of some bytes, which are read backwards. -/
def codesAtEnd : Bytes → Nat
  | 1 :: 0 :: 0 :: r => codesAtEnd r + 1
  | _ => 0

/-- An entity has at least four bytes. -/
theorem four_le_of_startsEntity (h : StartsEntity data) : 4 ≤ data.length := by
  rcases h with h | h
  · exact h.1.1
  · exact Nat.le_of_succ_le h.1

theorem codesAtEnd_of_ne {l : Bytes} (h : ∀ r, l ≠ 1 :: 0 :: 0 :: r) : codesAtEnd l = 0 := by
  unfold codesAtEnd
  split
  next r => exact absurd rfl (h r)
  next => rfl

/-- A byte in front is not part of the row unless it completes a start code. -/
theorem codesAtEnd_concat {l : Bytes} {x : UInt8} (h : (l ++ [x]).reverse.take 3 ≠ [0, 0, 1]) :
    codesAtEnd (l ++ [x]) = codesAtEnd l := by
  fun_induction codesAtEnd l with
  | case1 r ih =>
    refine congrArg (· + 1) (ih fun hr => h ?_)
    have hlen := congrArg length hr
    rw [length_take] at hlen
    rw [cons_append, cons_append, cons_append, reverse_cons, reverse_cons, reverse_cons,
      append_assoc, append_assoc,
      take_append_of_le_length (by simp only [length_cons, length_nil] at hlen; omega), hr]
  | case2 l hl =>
    refine codesAtEnd_of_ne fun r hr => ?_
    match l, hr with
    | [_, _], hr =>
      cases hr
      exact h rfl
    | _ :: _ :: _ :: l, hr =>
      cases hr
      exact hl _ rfl

/-- A start code in front, and the byte that was taken for its id, leave the row as it is or make it
two longer. -/
theorem codesAtEnd_append (l : Bytes) (x : UInt8) :
    codesAtEnd (l ++ [x, 1, 0, 0]) % 2 = codesAtEnd l % 2 := by
  fun_induction codesAtEnd l with
  | case1 r ih =>
    rw [cons_append, cons_append, cons_append, codesAtEnd]
    omega
  | case2 l hl =>
    by_cases hr : ∃ r, l ++ [x, 1, 0, 0] = 1 :: 0 :: 0 :: r
    · obtain ⟨r, hr⟩ := hr
      match l, hr with
      | [_, _], hr =>
        cases hr
        rfl
      | _ :: _ :: _ :: l, hr =>
        cases hr
        exact absurd rfl (hl _)
    · rw [codesAtEnd_of_ne fun r h => hr ⟨r, h⟩]

/-- What the scan returns is the place of an entity. -/
theorem startsEntity_of_scan {k : Nat} (h : scanStartCode fuel i data = some k) :
    StartsEntity (data.drop (k - i)) := by
  fun_induction scanStartCode fuel i data with
  | case1 => cases h
  | case2 => cases h
  | case3 fuel i data hlen ht hid =>
    obtain rfl := Option.some.inj h
    rw [Nat.sub_self]
    exact .inl ⟨⟨Nat.le_of_not_lt hlen, ht⟩, hid⟩
  | case5 fuel i data hlen ht hc =>
    obtain rfl := Option.some.inj h
    rw [Nat.sub_self]
    exact .inr hc
  | case4 fuel i data _ _ _ ih =>
    have hle := (scanStartCode_le h).1
    have := ih h
    rwa [drop_drop, show 4 + (k - (i + 4)) = k - i by omega] at this
  | case6 fuel i data _ _ _ ih =>
    have hle := (scanStartCode_le h).1
    have := ih h
    rwa [drop_drop, show 1 + (k - (i + 1)) = k - i by omega] at this

/-- A start code with a byte behind it. -/
theorem exists_of_code {data : Bytes} (hlen : ¬ data.length < 4) (ht : data.take 3 = [0, 0, 1]) :
    ∃ x r, data = 0 :: 0 :: 1 :: x :: r := by
  rw [← take_append_drop 3 data, ht]
  cases hd : data.drop 3 with
  | nil =>
    have := congrArg length hd
    rw [length_drop, length_nil] at this
    omega
  | cons x r => exact ⟨x, r, rfl⟩

/-- **The scan** returns the first entity, `m` bytes ahead, just if the row in front of it is
even. -/
theorem scanStartCode_iff (hfl : data.length ≤ fuel) (hm : StartsEntity (data.drop m))
    (hfs : ∀ j < m, ¬ StartsEntity (data.drop j)) :
    scanStartCode fuel i data = some (i + m) ↔ codesAtEnd (data.take m).reverse % 2 = 0 := by
  have hfr := four_le_of_startsEntity hm
  rw [length_drop] at hfr
  fun_induction scanStartCode fuel i data generalizing m with
  | case1 => omega
  | case2 => omega
  | case3 fuel i data hlen ht hid =>
    obtain rfl : m = 0 := Nat.eq_zero_of_not_pos fun hpos =>
      hfs 0 hpos (.inl ⟨⟨Nat.le_of_not_lt hlen, ht⟩, hid⟩)
    exact iff_of_true rfl rfl
  | case5 fuel i data hlen ht hc =>
    obtain rfl : m = 0 := Nat.eq_zero_of_not_pos fun hpos => hfs 0 hpos (.inr hc)
    exact iff_of_true rfl rfl
  | case4 fuel i data hlen ht hid ih =>
    obtain ⟨x, r, rfl⟩ := exists_of_code hlen ht
    by_cases hlw : m < 4
    · -- the entity does not begin inside of the start code
      obtain rfl | rfl | rfl | rfl : m = 0 ∨ m = 1 ∨ m = 2 ∨ m = 3 := by omega
      · rcases hm with h | h
        · exact absurd h.2 hid
        · cases h.2.1
      · exact absurd hm (by simp [StartsEntity, StartsCode])
      · exact absurd hm (by simp [StartsEntity, StartsCode])
      · refine iff_of_false (fun h => ?_) (by simp [codesAtEnd])
        have := (scanStartCode_le h).1
        omega
    · obtain ⟨m, rfl⟩ := Nat.exists_eq_add_of_le' (Nat.le_of_not_lt hlw)
      have hr : (((0 : UInt8) :: 0 :: 1 :: x :: r).take (m + 4)).reverse = (r.take m).reverse ++
          [x, 1, 0, 0] := by
        simp only [take_succ_cons, reverse_cons, append_assoc, cons_append, nil_append]
      rw [hr, codesAtEnd_append, show i + (m + 4) = i + 4 + m by omega]
      rw [length_cons, length_cons, length_cons, length_cons] at hfl hfr
      exact ih (show r.length ≤ fuel by omega) hm (fun j hj => hfs (j + 4) (by omega))
        (show 4 ≤ r.length - m by omega)
  | case6 fuel i data hlen ht hc ih =>
    cases m with
    | zero =>
      rcases hm with h | h
      · exact absurd h.1.2 ht
      · exact absurd h hc
    | succ m =>
      obtain ⟨x, r, rfl⟩ := exists_cons_of_length_pos (show 0 < data.length by omega)
      rw [length_cons] at hfl hfr
      have hr : codesAtEnd ((x :: r).take (m + 1)).reverse = codesAtEnd (r.take m).reverse := by
        rw [take_succ_cons, reverse_cons]
        apply codesAtEnd_concat
        rw [reverse_append, reverse_reverse]
        intro h
        apply ht
        have hlen := congrArg length h
        rw [length_take] at hlen
        rw [← h, reverse_singleton, singleton_append, ← take_succ_cons, take_take]
        simp only [length_append, length_reverse, length_cons, length_nil, length_take] at hlen
        rw [min_eq_left (by omega)]
      rw [hr, show i + (m + 1) = i + 1 + m by omega]
      exact ih (show r.length ≤ fuel by omega) hm (fun j hj => hfs (j + 1) (by omega))
        (show 4 ≤ r.length - m by omega)

/-- **The first entity is found** just if the start codes that stand in a row in front of it are
even in number. -/
theorem findStartCode_isLeast_iff (data : Bytes) (start : Nat) :
    ((∀ i, findStartCode data start = some i ↔ IsLeast (entitiesFrom data start) i) ∧
      (findStartCode data start = none ↔ entitiesFrom data start = ∅)) ↔
    ∀ m, IsLeast (entitiesFrom data start) m →
      codesAtEnd ((data.take m).drop start).reverse % 2 = 0 := by
  have hsn : ∀ i, findStartCode data start = some i → i ∈ entitiesFrom data start := by
    intro i h
    have hle := (findStartCode_le h).1
    have hen := startsEntity_of_scan h
    rw [drop_drop, Nat.add_sub_cancel' hle] at hen
    exact ⟨hle, hen⟩
  have hfn : ∀ m, IsLeast (entitiesFrom data start) m →
      (findStartCode data start = some m ↔ codesAtEnd ((data.take m).drop start).reverse % 2 =
        0) := by
    rintro m ⟨⟨hle, hm⟩, hls⟩
    obtain ⟨k, rfl⟩ := Nat.exists_eq_add_of_le hle
    rw [← drop_drop] at hm
    rw [drop_take, Nat.add_sub_cancel_left]
    refine scanStartCode_iff (by rw [length_drop]; exact Nat.sub_le _ _) hm fun j hj hst => ?_
    rw [drop_drop] at hst
    have := hls ⟨Nat.le_add_right start j, hst⟩
    omega
  constructor
  · intro h m hm
    exact (hfn m hm).mp ((h.1 m).mpr hm)
  · intro hev
    -- if there is an entity, there is a first one, and it is found
    have hsm : ∀ j ∈ entitiesFrom data start, ∃ m, IsLeast (entitiesFrom data start) m ∧
        findStartCode data start = some m := by
      intro j hj
      obtain ⟨m, hm, hmn⟩ := Nat.lt_wfRel.wf.has_min _ ⟨j, hj⟩
      have hls : IsLeast (entitiesFrom data start) m :=
        ⟨hm, fun k hk => Nat.le_of_not_lt (hmn k hk)⟩
      exact ⟨m, hls, (hfn m hls).mpr (hev m hls)⟩
    refine ⟨fun i => ⟨fun h => ?_, fun hi => (hfn i hi).mpr (hev i hi)⟩, fun h => ?_, fun h => ?_⟩
    · obtain ⟨m, hm, hfd⟩ := hsm i (hsn i h)
      rwa [Option.some.inj (h.symm.trans hfd)]
    · apply Set.eq_empty_of_forall_notMem
      intro j hj
      obtain ⟨m, -, hfd⟩ := hsm j hj
      rw [h] at hfd
      cases hfd
    · apply Option.eq_none_iff_forall_ne_some.mpr
      intro i hi
      have := hsn i hi
      rw [h] at this
      exact this

/-- The packet at 3 is passed over: its start code begins with the id of another one. -/
theorem entity_passed_over : 3 ∈ entitiesFrom [0, 0, 1, 0, 0, 1, 0xE0] 0 ∧
    findStartCode [0, 0, 1, 0, 0, 1, 0xE0] 0 = none :=
  ⟨⟨Nat.zero_le 3, .inl ⟨by decide, by decide⟩⟩, by decide⟩

end MediaKit.Ps
