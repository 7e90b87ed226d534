import MediaKit.Fmp4.Demuxer

/-!
# Boxes seen by their position

The reader keeps where a box lies, not what lies in it. `View data v kind body` says that at the
place `v` there is a box of this kind with this body; the lemmas say which views a walk over
written boxes returns (`View.boxViews`) and what `child` finds among them (`View.child`).
-/

namespace MediaKit.Fmp4

open MediaKit.Core Lib List

/-- At the place `v` there is a box of this kind with this body. -/
structure View (data : Bytes) (v : BoxView) (kind body : Bytes) : Prop where
  kind : v.kind = kind
  dataStart : v.dataStart = v.start + 8
  stop : v.stop = v.dataStart + body.length
  inData : ∃ rest, Behind data v.dataStart body rest

/-- The views of boxes that begin at `start`. -/
def viewsFrom : Nat → List (Bytes × Bytes) → List BoxView
  | _, [] => []
  | start, b :: l => ⟨b.1, start, start + 8, start + (8 + b.2.length)⟩ ::
    viewsFrom (start + (8 + b.2.length)) l

section

variable {data rest : Bytes}

theorem boxSize_box {kind body : Bytes} {stop offset : Nat} (h : BoxAt data offset kind body rest)
    (hs : 8 + body.length < 2 ^ 32) : boxSize data stop offset = .ok (8, 8 + body.length) := by
  have hr : readU32 data offset = .ok (8 + body.length) := by
    rw [readU32, h.sizeAt.u32At hs]
    rfl
  rw [boxSize, hr, ok_bind, if_neg (by omega), if_neg (by omega)]
  rfl

theorem boxViewsFrom_boxes (hd : data.length < 2 ^ 64) (l : List (Bytes × Bytes)) :
    ∀ (fuel start : Nat), Boxed l →
    l.length < fuel → Behind data start (boxes l) rest →
      boxViewsFrom data (start + (boxes l).length) fuel start = .ok (viewsFrom start l) := by
  induction l with
  | nil =>
    intro fuel start _ hf _
    obtain ⟨fuel, rfl⟩ := Nat.exists_eq_add_of_lt hf
    rw [length_nil, boxViewsFrom, boxes_nil, length_nil, if_neg (by omega)]
    rfl
  | cons b l ih =>
    intro fuel start hbx hf hat
    obtain ⟨hk, hsz⟩ := hbx.head
    cases fuel with
    | zero => exact absurd hf (Nat.not_lt_zero _)
    | succ fuel =>
      have hp : Behind data start (box b.1 b.2 ++ boxes l) rest := hat
      have hbo := hp.fst.box hk
      have hn : Behind data (start + (8 + b.2.length)) (boxes l) rest := by
        have hsn := hp.snd
        rwa [length_box hk] at hsn
      have hlen := hn.length
      have hst : start + (boxes (b :: l)).length = start + (8 + b.2.length) + (boxes l).length := by
        rw [boxes_cons, length_append, length_box hk]
        omega
      have hkn : slice data (start + 4) (start + 8) = some b.1 := by
        have hsl := hbo.kindAt.slice
        rwa [hk] at hsl
      have hm : (start + (8 + b.2.length)) % 2 ^ 64 = start + (8 + b.2.length) :=
        Nat.mod_eq_of_lt (by omega)
      have hlt := ih fuel (start + (8 + b.2.length)) hbx.tail (Nat.lt_of_succ_lt_succ hf) hn
      rw [boxViewsFrom, hst, if_pos (by omega), boxSize_box hbo hsz, ok_bind, hkn, checked_some,
        ok_bind]
      rw [hm, if_neg (by omega), hlt]
      rfl

variable {l : List (Bytes × Bytes)}

theorem length_le_boxes (h : Boxed l) : 8 * l.length ≤ (boxes l).length := by
  induction l with
  | nil => exact le_refl 0
  | cons b l ih =>
    have hr := ih h.tail
    rw [boxes_cons, length_append, length_box h.head.1, length_cons]
    omega

theorem forall₂_viewsFrom (l : List (Bytes × Bytes)) :
    ∀ start, Boxed l → Behind data start (boxes l) rest →
    Forall₂ (fun v b => View data v b.1 b.2) (viewsFrom start l) l := by
  induction l with
  | nil => exact fun _ _ _ => Forall₂.nil
  | cons b l ih =>
    intro start hb hat
    have hk := hb.head.1
    have hp : Behind data start (box b.1 b.2 ++ boxes l) rest := hat
    have hn : Behind data (start + (8 + b.2.length)) (boxes l) rest := by
      have hs := hp.snd
      rwa [length_box hk] at hs
    refine Forall₂.cons ⟨rfl, rfl, ?_, _, (hp.fst.box hk).bodyAt⟩ (ih _ hb.tail hn)
    rw [add_assoc]

theorem boxViews_boxes {start : Nat} (hd : data.length < 2 ^ 64) (hb : Boxed l)
    (hat : Behind data start (boxes l) rest) :
    ∃ vs, boxViews data start (start + (boxes l).length) = .ok vs ∧
    Forall₂ (fun v b => View data v b.1 b.2) vs l := by
  have hc := length_le_boxes hb
  have hlen := hat.length
  exact ⟨_, boxViewsFrom_boxes hd l _ _ hb (by omega) hat, forall₂_viewsFrom l start hb hat⟩

variable {b : Bytes × Bytes}

theorem find_views {vs : List BoxView} {kind : Bytes}
    (h : Forall₂ (fun v b => View data v b.1 b.2) vs l) (hf : l.find? (·.1 == kind) = some b) :
    ∃ v, vs.find? (·.kind == kind) = some v ∧ View data v b.1 b.2 := by
  induction h with
  | nil => cases hf
  | @cons v c vs l hv _ ih =>
    rw [find?_cons] at hf ⊢
    rw [hv.kind]
    cases hk : c.1 == kind with
    | true =>
      rw [hk] at hf
      obtain rfl := Option.some.inj hf
      exact ⟨v, rfl, hv⟩
    | false =>
      rw [hk] at hf
      exact ih hf

theorem filter_views {vs : List BoxView} (kind : Bytes)
    (h : Forall₂ (fun v b => View data v b.1 b.2) vs l) :
    Forall₂ (fun v b => View data v b.1 b.2) (vs.filter (·.kind == kind))
      (l.filter (·.1 == kind)) := by
  induction h with
  | nil => exact Forall₂.nil
  | @cons v c vs l hv _ ih =>
    rw [filter_cons, filter_cons, hv.kind]
    by_cases hk : (c.1 == kind) = true
    · rw [if_pos hk, if_pos hk]
      exact Forall₂.cons hv ih
    · rw [if_neg hk, if_neg hk]
      exact ih

variable {v : BoxView} {k content : Bytes}

theorem View.body (h : View data v k content) : v.body data = .ok content := by
  obtain ⟨rest, hat⟩ := h.inData
  rw [BoxView.body, h.stop, hat.slice]
  rfl

theorem View.boxViews (h : View data v k (boxes l)) (hd : data.length < 2 ^ 64)
    (hb : Boxed l) : ∃ vs, Fmp4.boxViews data v.dataStart v.stop = .ok vs ∧
      Forall₂ (fun v b => View data v b.1 b.2) vs l := by
  obtain ⟨rest, hat⟩ := h.inData
  rw [h.stop]
  exact boxViews_boxes hd hb hat

/-- **A child** of a written box. -/
theorem View.child {target : Bytes} (h : View data v k (boxes l))
    (hd : data.length < 2 ^ 64) (hb : Boxed l) (hf : l.find? (·.1 == target) = some b) :
    ∃ w, Fmp4.child data v target = .ok (some w) ∧ View data w b.1 b.2 := by
  obtain ⟨vs, hvs, hvi⟩ := h.boxViews hd hb
  obtain ⟨w, hw, hvw⟩ := find_views hvi hf
  refine ⟨w, ?_, hvw⟩
  rw [Fmp4.child, hvs, ok_bind, hw]
  rfl

/-- The nested boxes fit into their size fields because the outermost one does. -/
theorem View.inner (h : View data v k (boxes l)) (target : Bytes)
    (hd : data.length < 2 ^ 64) (hk : ∀ b ∈ l, b.1.length = 4) (hs : (boxes l).length < 2 ^ 32)
    (hf : l.find? (·.1 == target) = some b) :
    ∃ w, Fmp4.child data v target = .ok (some w) ∧ View data w b.1 b.2 ∧ b.2.length < 2 ^ 32 := by
  obtain ⟨w, hw, hv⟩ := h.child hd (boxed_of_length hk hs) hf
  exact ⟨w, hw, hv, lt_of_le_of_lt (length_body_le (mem_of_find?_eq_some hf)) hs⟩

theorem readU32_be32 {rest : Bytes} {pos n : Nat} (hat : Behind data pos (be32 n) rest)
    (hn : n < 2 ^ 32) : readU32 data pos = .ok n := by
  rw [readU32, hat.u32At hn]
  rfl

end

end MediaKit.Fmp4
