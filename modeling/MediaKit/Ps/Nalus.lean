import MediaKit.Core.AnnexB
import MediaKit.Ps.RoundTrip

/-!
# NAL units through a program stream

`extract_nalus_from_pes` cuts the payload of one PES packet into NAL units. Its inner loop
stops three bytes before the end of the payload (`pos + 4 <= payload.len()`), so the last
unit of every payload loses its end. A payload whose last bytes are a start code is the only
one that is used up.

How much is lost is counted in bytes. A payload yields at most as many bytes as it has, one
more if it begins with a start code of three bytes, and one less if it does not end in
a start code (`bounded_extractNalusFromPes`). A payload that begins with `00 00 01` is preceded by
one that ends in `00`, so over a whole frame less comes out than went in (`yield_payloads_lt`), and
no frame that has units at all comes through (`ps_nalus_iff`).

Mirroring notes vs the Rust source:
  * A position in the payload is what is left from it on.
  * The second part, for length prefixes, is entered only if no start code was found and
    the payload begins with one; it is never reached (`lengthPrefixedNalus_unreached`).
-/

namespace MediaKit.Ps

open Lib MediaKit.Core Gb28181 List

/-! ## Extraction -/

variable {s : Bytes} {x : UInt8}
  {data nal p payload : Bytes} {cs nals : List Bytes}

/-- `00 00 01` or `00 00 00 01` at the front. -/
def startsNalu (data : Bytes) : Bool :=
  data.getD 0 0xFF = 0 && data.getD 1 0xFF = 0 &&
    (data.getD 2 0xFF = 1 || data.getD 2 0xFF = 0 && data.getD 3 0xFF = 1)

/-- The inner loop: the bytes of a unit, and what is left. -/
def takeNalu : Bytes → Bytes × Bytes
  | [] => ([], [])
  | x :: rest =>
    if (x :: rest).length < 4 ∨ startsNalu (x :: rest) then ([], x :: rest)
    else (x :: (takeNalu rest).1, (takeNalu rest).2)

/-- The outer loop: whether a start code was found, and the units. -/
def annexBNalus : Nat → Bytes → Bool × List Bytes
  | 0, _ => (false, [])
  | fuel + 1, data =>
    if data.length < 4 then (false, [])
    else if startsNalu data then
      let found := takeNalu (data.drop (if data.getD 2 0 = 1 then 3 else 4))
      (true, (annexBStartCode ++ found.1) :: (annexBNalus fuel found.2).2)
    else annexBNalus fuel (data.drop 1)

/-- The units behind lengths of four bytes, or of two near the end. -/
def lengthPrefixedNalus : Nat → Bytes → List Bytes
  | 0, _ => []
  | fuel + 1, data =>
    if data.length < 2 then []
    else
      let prefixLen := if 4 ≤ data.length then 4 else 2
      let naluLen := ofBe (data.take prefixLen)
      let rest := data.drop prefixLen
      if rest.length < naluLen then []
      else (annexBStartCode ++ rest.take naluLen) :: lengthPrefixedNalus fuel (rest.drop naluLen)

def extractNalusFromPes (payload : Bytes) : List Bytes :=
  let found := annexBNalus (payload.length + 1) payload
  if found.1 then found.2
  else if 5 ≤ payload.length ∧ payload.take 4 = [0, 0, 0, 1] then
    lengthPrefixedNalus payload.length (payload.drop 4)
  else []

theorem startsNalu_cases (hlen : 4 ≤ data.length) (h : startsNalu data) :
    (∃ rest, data = 0 :: 0 :: 1 :: rest) ∨ ∃ rest, data = 0 :: 0 :: 0 :: 1 :: rest := by
  match data, hlen with
  | a :: b :: c :: d :: rest, _ =>
    simp only [startsNalu, Bool.and_eq_true, Bool.or_eq_true, decide_eq_true_eq] at h
    obtain ⟨⟨rfl, rfl⟩, rfl | ⟨rfl, rfl⟩⟩ := h
    · exact .inl ⟨_, rfl⟩
    · exact .inr ⟨_, rfl⟩

theorem annexBNalus_of_not_found : ∀ {fuel : Nat} {data : Bytes},
    (annexBNalus fuel data).1 = false →
    (annexBNalus fuel data).2 = []
  | 0, _, _ => rfl
  | fuel + 1, data, h => by
    rw [annexBNalus] at h ⊢
    split
    · rfl
    next hlen =>
      rw [if_neg hlen] at h
      split
      next hs =>
        rw [if_pos hs] at h
        cases h
      next hs =>
        rw [if_neg hs] at h
        exact annexBNalus_of_not_found h

/-- The part for length prefixes is never reached: it is for payloads that begin with a start
code. -/
theorem lengthPrefixedNalus_unreached (hlen : 5 ≤ payload.length)
    (hc : payload.take 4 = [0, 0, 0, 1]) : (annexBNalus (payload.length + 1) payload).1 = true := by
  have hst : startsNalu payload = true := by
    have hsp := take_append_drop 4 payload
    rw [hc] at hsp
    rw [← hsp]
    rfl
  rw [annexBNalus, if_neg (by omega), if_pos hst]

theorem extractNalusFromPes_eq (payload : Bytes) :
    extractNalusFromPes payload = (annexBNalus (payload.length + 1) payload).2 := by
  unfold extractNalusFromPes
  dsimp only
  split
  · rfl
  next hn =>
    have hf : (annexBNalus (payload.length + 1) payload).1 = false := by simpa using hn
    rw [annexBNalus_of_not_found hf, if_neg]
    intro hc
    exact hn (lengthPrefixedNalus_unreached hc.1 hc.2)

/-! ## Counting bytes -/

/-- The bytes of some units together. -/
def yield (nalus : List Bytes) : Nat := (nalus.map List.length).sum

@[simp] theorem yield_nil : yield [] = 0 := rfl

@[simp] theorem yield_cons (nalu : Bytes) (nalus : List Bytes) : yield (nalu :: nalus) =
    nalu.length + yield nalus := sum_cons

theorem yield_append (a b : List Bytes) : yield (a ++ b) = yield a + yield b := by
  unfold yield
  rw [map_append, sum_append]

/-- A start code of three bytes counts for four. -/
def gain (s : Bytes) : Nat := if s.take 3 = [0, 0, 1] then 1 else 0

/-- Every `00 00 01` but one at the very beginning is the end of a start code of four bytes. -/
def Aligned (s : Bytes) : Prop := ∀ p x q, s = p ++ x :: 0 :: 0 :: 1 :: q → x = 0

theorem Aligned.right (h : Aligned (p ++ s)) : Aligned s := by
  intro p' x q hs
  exact h (p ++ p') x q (by rw [hs, append_assoc])

theorem Aligned.left {t : Bytes} (h : Aligned (s ++ t)) : Aligned s := by
  intro p x q hs
  exact h p x (q ++ t) (by rw [hs, append_assoc]; rfl)

/-- A list that begins with `00 00 01`. -/
theorem eq_of_take_code (h : s.take 3 = [0, 0, 1]) : ∃ q, s = 0 :: 0 :: 1 :: q := by
  have hs := take_append_drop 3 s
  rw [h] at hs
  exact ⟨_, hs.symm⟩

theorem Aligned.head (h : Aligned (x :: s)) (hs : s.take 3 = [0, 0, 1]) : x = 0 := by
  obtain ⟨q, rfl⟩ := eq_of_take_code hs
  exact h [] x q rfl

theorem aligned_cons (h : Aligned s) (hx : s.take 3 = [0, 0, 1] → x = 0) : Aligned (x :: s) := by
  intro p y q hs
  cases p with
  | nil =>
    obtain ⟨rfl, rfl⟩ := List.cons.inj hs
    exact hx rfl
  | cons z p => exact h p y q (List.cons.inj hs).2

/-- Where a unit begins behind a zero, its start code has four bytes. -/
theorem not_code_tail (h : Aligned (x :: s)) (hx : ¬ startsNalu (x :: s)) :
    s.take 3 ≠ [0, 0, 1] := by
  intro hs
  obtain rfl := h.head hs
  obtain ⟨q, rfl⟩ := eq_of_take_code hs
  exact hx rfl

/-! ## One unit -/

theorem takeNalu_append : ∀ data : Bytes, (takeNalu data).1 ++ (takeNalu data).2 = data
  | [] => rfl
  | x :: rest => by
    rw [takeNalu]
    split
    · rfl
    · rw [cons_append, takeNalu_append rest]

theorem takeNalu_ne_nil : ∀ {data : Bytes}, data ≠ [] → (takeNalu data).2 ≠ []
  | x :: rest, _ => by
    rw [takeNalu]
    split
    · exact cons_ne_nil _ _
    next hs =>
      refine takeNalu_ne_nil ?_
      intro hnil
      exact hs (.inl (by rw [hnil]; exact (by decide : 1 < 4)))

/-- What is left does not begin with a start code of three bytes. -/
theorem takeNalu_code : ∀ {data : Bytes}, Aligned data → data.take 3 ≠ [0, 0, 1] →
    (takeNalu data).2.take 3 ≠ [0, 0, 1]
  | [], _, h => h
  | x :: rest, ha, h => by
    rw [takeNalu]
    split
    · exact h
    next hst =>
      have hn : ¬ startsNalu (x :: rest) := fun hs => hst (.inr hs)
      exact takeNalu_code (Aligned.right (p := [x]) ha) (not_code_tail ha hn)

/-! ## One payload -/

/-- No more bytes than there are, but for a first start code of three bytes; and at least one
less unless the bytes end in a start code. -/
def Bounded (n : Nat) (s : Bytes) : Prop :=
  n ≤ s.length + gain s ∧ (s ≠ [] → ¬ [0, 0, 1] <:+ s → n < s.length + gain s)

theorem gain_of_ne (h : s.take 3 ≠ [0, 0, 1]) : gain s = 0 := if_neg h

/-- A unit behind a start code, with what comes of the bytes that are left. -/
theorem bounded_unit {n : Nat} (ha : Aligned (p ++ [0, 0, 1] ++ data))
    (hg : p.length + gain (p ++ [0, 0, 1] ++ data) = 1) (ih : Bounded n (takeNalu data).2) :
    Bounded (4 + (takeNalu data).1.length + n) (p ++ [0, 0, 1] ++ data) := by
  have hd : data.take 3 ≠ [0, 0, 1] := by
    intro hc
    have ha' : Aligned (1 :: data) := Aligned.right (p := p ++ [0, 0]) (by simpa using ha)
    exact absurd (ha'.head hc) (by decide)
  have hsp := takeNalu_append data
  have hsm := congrArg List.length hsp
  rw [length_append] at hsm
  have hln : (p ++ [0, 0, 1] ++ data).length = p.length + 3 + data.length := by
    rw [length_append, length_append]
    rfl
  obtain ⟨hle, hlt⟩ := ih
  rw [gain_of_ne (takeNalu_code ha.right hd)] at hle hlt
  refine ⟨by omega, fun _ he => ?_⟩
  have hne : data ≠ [] := by
    rintro rfl
    exact he (by rw [append_nil]; exact suffix_append _ _)
  have hsf : (takeNalu data).2 <:+ p ++ [0, 0, 1] ++ data :=
    List.IsSuffix.trans ⟨_, hsp⟩ (suffix_append _ _)
  have := hlt (takeNalu_ne_nil hne) fun h => he (h.trans hsf)
  omega

/-- **One payload.** -/
theorem bounded_annexBNalus {fuel : Nat} : ∀ {data : Bytes}, data.length < fuel → Aligned data →
    Bounded (yield (annexBNalus fuel data).2) data := by
  induction fuel with
  | zero => intro data h; omega
  | succ fuel ih =>
    intro data hf ha
    rw [annexBNalus]
    split
    next hlen =>
      refine ⟨Nat.zero_le _, fun hne _ => ?_⟩
      have := length_pos_iff.mpr hne
      show 0 < _
      omega
    next hlen =>
      split
      next hst =>
        have haf : ∀ rest : Bytes, rest.length < fuel → Aligned rest →
            Bounded (yield (annexBNalus fuel (takeNalu rest).2).2) (takeNalu rest).2 := by
          intro rest hlt har
          have hsp := takeNalu_append rest
          refine ih ?_ (Aligned.right (p := (takeNalu rest).1) (by rwa [hsp]))
          have := congrArg List.length hsp
          rw [length_append] at this
          omega
        have hy : ∀ (unit : Bytes) (units : List Bytes),
            yield ((annexBStartCode ++ unit) :: units) = 4 + unit.length + yield units := by
          intro unit units
          rw [yield_cons, length_append]
          rfl
        rcases startsNalu_cases (Nat.le_of_not_lt hlen) hst with ⟨rest, rfl⟩ | ⟨rest, rfl⟩
        · show Bounded (yield ((annexBStartCode ++ (takeNalu rest).1) ::
            (annexBNalus fuel (takeNalu rest).2).2)) ([] ++ [0, 0, 1] ++ rest)
          rw [hy]
          simp only [length_cons] at hf
          exact bounded_unit ha rfl (haf rest (by omega) (Aligned.right (p := [0, 0, 1]) ha))
        · show Bounded (yield ((annexBStartCode ++ (takeNalu rest).1) ::
            (annexBNalus fuel (takeNalu rest).2).2)) ([0] ++ [0, 0, 1] ++ rest)
          rw [hy]
          simp only [length_cons] at hf
          exact bounded_unit ha rfl (haf rest (by omega) (Aligned.right (p := [0, 0, 0, 1]) ha))
      next hst =>
        obtain ⟨x, rest, rfl⟩ : ∃ x rest, data = x :: rest := by
          cases data with
          | nil => exact absurd (Nat.zero_lt_succ 3) hlen
          | cons x rest => exact ⟨x, rest, rfl⟩
        have hln : rest.length < fuel := by simpa using hf
        have hle := (ih hln (Aligned.right (p := [x]) ha)).1
        rw [gain_of_ne (not_code_tail ha hst)] at hle
        rw [drop_one, tail_cons]
        refine ⟨?_, fun _ _ => ?_⟩
        · rw [length_cons]
          omega
        · rw [length_cons]
          omega

theorem bounded_extractNalusFromPes (ha : Aligned payload) :
    Bounded (yield (extractNalusFromPes payload)) payload := by
  rw [extractNalusFromPes_eq]
  exact bounded_annexBNalus (Nat.lt_succ_self _) ha

/-! ## All payloads of a frame -/

theorem extract_flatMap_of_flatten_nil (h : cs.flatten = []) :
    cs.flatMap extractNalusFromPes = [] := by
  rw [flatMap_eq_nil_iff]
  intro c hc
  rw [flatten_eq_nil_iff.mp h c hc]
  rfl

/-- **A frame in any payloads**: less comes out than went in. -/
theorem yield_payloads_lt : ∀ {cs : List Bytes}, Aligned cs.flatten → cs.flatten ≠ [] →
    ¬ [0, 0, 1] <:+ cs.flatten →
      yield (cs.flatMap extractNalusFromPes) < cs.flatten.length + gain cs.flatten
  | [], _, hne, _ => absurd rfl hne
  | c :: cs, ha, hne, he => by
    rw [flatten_cons] at ha hne he ⊢
    rw [flatMap_cons, yield_append]
    obtain ⟨hle, hlt⟩ := bounded_extractNalusFromPes ha.left
    by_cases hr : cs.flatten = []
    · -- the last payload with bytes in it
      rw [hr, append_nil] at hne he ⊢
      rw [extract_flatMap_of_flatten_nil hr, yield_nil]
      exact hlt hne he
    · have ih := yield_payloads_lt ha.right hr fun h => he (h.trans (suffix_append _ _))
      rw [length_append]
      by_cases hc : c = []
      · subst hc
        rw [nil_append]
        have : yield (extractNalusFromPes []) = 0 := rfl
        omega
      have hg : gain c ≤ gain (c ++ cs.flatten) := by
        unfold gain
        split
        next h3 =>
          obtain ⟨q, rfl⟩ := eq_of_take_code h3
          exact Nat.le_refl 1
        · exact Nat.zero_le _
      by_cases hcd : cs.flatten.take 3 = [0, 0, 1]
      · -- the start code is cut behind its first byte: the payload before ends in a zero
        obtain ⟨q, hq⟩ := eq_of_take_code hcd
        obtain ⟨init, x, rfl⟩ : ∃ init x, c = init ++ [x] :=
          ⟨c.dropLast, c.getLast hc, (dropLast_append_getLast hc).symm⟩
        obtain rfl : x = 0 := ha init x q (by rw [hq, append_assoc]; rfl)
        have hnt : ¬ [0, 0, 1] <:+ init ++ [0] := by
          rintro ⟨t, ht⟩
          have := congrArg getLast? ht
          simp at this
        have hlt' := hlt hc hnt
        have ho : gain cs.flatten = 1 := if_pos hcd
        omega
      · rw [gain_of_ne hcd] at ih
        omega

/-! ## Frames of NAL units -/

/-- A NAL unit as it stands between start codes. -/
structure NalUnit (nal : Bytes) : Prop where
  ne_nil : nal ≠ []
  no_zeros : ¬ [0, 0, 0] <:+: nal
  no_code : ¬ [0, 0, 1] <:+: nal
  no_trailing_zero : nal.getLast? ≠ some 0

/-- A frame of units, each behind a start code of four bytes. -/
structure AnnexBFrame (frame : MediaFrame) (nals : List Bytes) : Prop where
  video : frame.frameType = .video
  codec : frame.codec = .h264 ∨ frame.codec = .h265
  sample : frame.configFrame = false
  format : declaredOrDetectedVideoFormat frame = .annexB
  data : frame.data = nals.flatMap (annexBStartCode ++ ·)
  units : ∀ nal ∈ nals, NalUnit nal

theorem aligned_unit (hs : Behind s) (ha : Aligned s) :
    ∀ {nal : Bytes}, ¬ [0, 0, 1] <:+: nal → Aligned (nal ++ s)
  | [], _ => ha
  | x :: nal, hn => by
    have ht := noCode_tail hn
    exact aligned_cons (aligned_unit hs ha ht) fun h => absurd h (not_code_front ht hs)

theorem aligned_units : ∀ {nals : List Bytes}, (∀ nal ∈ nals, NalUnit nal) →
    Aligned (nals.flatMap (annexBStartCode ++ ·))
  | [], _ => by
    intro p x q h
    simp at h
  | nal :: nals, h => by
    have hno := (h nal mem_cons_self).no_code
    have ih := aligned_units fun n hn => h n (mem_cons_of_mem _ hn)
    have hb := behind_annexBOf nals
    have hu := aligned_unit hb ih hno
    -- the four bytes of the start code one by one
    refine aligned_cons (aligned_cons (aligned_cons (aligned_cons hu ?_) ?_) ?_) fun _ => rfl
    · exact fun hc => absurd hc (not_code_front hno hb)
    · intro hc; cases hc
    · intro hc; cases hc

theorem not_code_suffix {init : Bytes} (h : NalUnit nal) :
    ¬ [0, 0, 1] <:+ init ++ (annexBStartCode ++ nal) := by
  intro hsf
  have hu : [0, 0, 1] <:+ 0 :: 0 :: 0 :: 1 :: nal := by
    rcases suffix_or_suffix_of_suffix hsf (suffix_append init _) with hs | hs
    · exact hs
    · have hle := hs.length_le
      rw [length_append] at hle
      exact absurd hle (Nat.not_le.mpr (show 3 < 4 + nal.length by omega))
  rcases suffix_cons_iff.mp hu with heq | hu
  · cases heq
  rcases suffix_cons_iff.mp hu with heq | hu
  · exact h.ne_nil (by simpa using heq.symm)
  rcases suffix_cons_iff.mp hu with heq | hu
  · cases heq
  rcases suffix_cons_iff.mp hu with heq | hu
  · cases heq
  · exact h.no_code hu.isInfix

theorem yield_units (nals : List Bytes) : yield (nals.map (annexBStartCode ++ ·)) =
    (nals.flatMap (annexBStartCode ++ ·)).length := by
  induction nals with
  | nil => rfl
  | cons nal nals ih =>
    rw [map_cons, yield_cons, ih, flatMap_cons, ← length_append]

/-- However a frame of units is cut into payloads, something of it is missing. -/
theorem extract_ne_units (h : ∀ nal ∈ nals, NalUnit nal) (hne : nals ≠ [])
    (hc : cs.flatten = nals.flatMap (annexBStartCode ++ ·)) :
    cs.flatMap extractNalusFromPes ≠ nals.map (annexBStartCode ++ ·) := by
  intro heq
  obtain ⟨init, nal, rfl⟩ : ∃ init nal, nals = init ++ [nal] :=
    ⟨nals.dropLast, nals.getLast hne, (dropLast_append_getLast hne).symm⟩
  have hnl := h nal (mem_append_right _ (mem_singleton_self nal))
  have hen : ¬ [0, 0, 1] <:+ cs.flatten := by
    rw [hc, flatMap_append, flatMap_singleton]
    exact not_code_suffix hnl
  have hg : gain cs.flatten = 0 := by
    rw [hc]
    have hnil : ¬ [0, 0, 1] <:+: ([] : Bytes) := by decide
    exact gain_of_ne (not_code_front hnil (behind_annexBOf (init ++ [nal])))
  have hne' : cs.flatten ≠ [] := by
    rw [hc, flatMap_append, flatMap_singleton]
    simp [annexBStartCode]
  have hlt := yield_payloads_lt (hc ▸ aligned_units h) hne' hen
  rw [heq, yield_units, ← hc, hg] at hlt
  exact lt_irrefl _ hlt

theorem muxFrame_annexB {m : PsMuxer} {frame : MediaFrame}
    (h : AnnexBFrame frame nals) : m.carried frame = frame.data ∧
      ∃ m' bytes, m.muxFrame frame = (m', .ok bytes) := by
  have hs : videoSampleAnnexB frame = .ok frame.data := by
    unfold videoSampleAnnexB
    rw [h.sample, h.format]
    rfl
  have hp : ∀ m : PsMuxer, m.elementaryPayload frame = .ok frame.data := by
    intro m
    unfold PsMuxer.elementaryPayload
    rw [h.sample, hs]
    rcases h.codec with hc | hc
    · rw [hc]; rfl
    · rw [hc]; rfl
  have hm : frame.frameType ≠ .metadata := by rw [h.video]; nofun
  have hac : ¬ (frame.codec = .aac ∧ frame.configFrame) := by
    rw [h.sample]
    nofun
  obtain ⟨track, ht⟩ : ∃ track, psTrack frame.codec = .ok track := by
    rcases h.codec with hc | hc
    · rw [hc]; exact ⟨_, rfl⟩
    · rw [hc]; exact ⟨_, rfl⟩
  constructor
  · unfold PsMuxer.carried
    rw [if_neg (fun hor => hor.elim hm hac), hp m]
  · unfold PsMuxer.muxFrame
    rw [if_neg hm, ht]
    dsimp only
    rw [if_neg hac, hp]
    dsimp only
    split
    · exact ⟨_, _, rfl⟩
    · exact ⟨_, _, rfl⟩

/-- **NAL units do not come through**: the units of the packets are those of the frame only if
the frame has none. -/
theorem ps_nalus_iff {m : PsMuxer} {frame : MediaFrame} {nals : List Bytes}
    (h : AnnexBFrame frame nals) :
    (∃ bytes, (m.muxFrame frame).2 = .ok bytes ∧
      ((PsDemuxer.new.push bytes).drainPes.2.flatMap fun pes => extractNalusFromPes pes.data) =
        nals.map (annexBStartCode ++ ·)) ↔ nals = [] := by
  obtain ⟨hcr, m', bytes, hmx⟩ := muxFrame_annexB (m := m) h
  obtain ⟨us, types', group, hus, hun, hcs⟩ := muxFrame_spec hmx []
  have hpc : (PsDemuxer.new.push bytes).drainPes.2 = group := by
    have hf := hun.feed_flatten shrinks_psNext psNext_nil
    have hd := drainPes_eq_feed (PsDemuxer.new.push bytes)
    rw [push_new, ← hus] at hd ⊢
    have heq := hd.symm.trans hf
    simp only [Option.some.injEq, Prod.mk.injEq] at heq
    exact heq.2.1
  have hpy : (group.map (·.data)).flatten = nals.flatMap (annexBStartCode ++ ·) := by
    rw [hcs.payload, hcr, h.data]
  have hmp : (group.flatMap fun pes => extractNalusFromPes pes.data) =
      (group.map (·.data)).flatMap extractNalusFromPes := by
    rw [flatMap_map]
  rw [hmx]
  constructor
  · rintro ⟨bytes', hb, heq⟩
    obtain rfl := Except.ok.inj hb
    rw [hpc, hmp] at heq
    apply Classical.byContradiction
    intro hne
    exact extract_ne_units h.units hne hpy heq
  · rintro rfl
    refine ⟨bytes, rfl, ?_⟩
    rw [hpc, hmp, extract_flatMap_of_flatten_nil hpy]
    rfl

/-- A key picture of one unit. -/
def picture : MediaFrame :=
  ⟨0, .video, .h264, 0, 1000, 1000, [0, 0, 0, 1, 0x65, 1, 2, 3], .annexB, true, false⟩

theorem annexBFrame_picture : AnnexBFrame picture [[0x65, 1, 2, 3]] where
  video := rfl
  codec := .inl rfl
  sample := rfl
  format := rfl
  data := rfl
  units nal hn := by
    obtain rfl := mem_singleton.mp hn
    exact ⟨by decide, by decide, by decide, by decide⟩

theorem ps_nalus_iff_picture :
    (∃ bytes, ((PsMuxer.new [.video .h264]).muxFrame picture).2 = .ok bytes ∧
      ((PsDemuxer.new.push bytes).drainPes.2.flatMap fun pes => extractNalusFromPes pes.data) =
        [[0x65, 1, 2, 3]].map (annexBStartCode ++ ·)) ↔ [[0x65, 1, 2, 3]] = ([] : List Bytes) :=
  ps_nalus_iff annexBFrame_picture

/-- **The end of the last unit is lost.** -/
theorem ps_nalus_truncated : ∃ bytes,
    ((PsMuxer.new [.video .h264]).muxFrame picture).2 = .ok bytes ∧
    ((PsDemuxer.new.push bytes).drainPes.2.flatMap fun pes => extractNalusFromPes pes.data) =
      [[0, 0, 0, 1, 0x65]] ∧
    [[0, 0, 0, 1, 0x65]] ≠ [[0x65, 1, 2, 3]].map (annexBStartCode ++ ·) :=
  ⟨_, rfl, by decide +kernel, by decide +kernel⟩

end MediaKit.Ps
