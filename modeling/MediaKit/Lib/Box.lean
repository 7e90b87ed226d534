import MediaKit.Lib.Checked

/-!
# Boxes

The container format of ISO base media files: a box is a 32-bit size that counts its own
eight octets of header, a kind of four octets, and a body, which may itself be a sequence
of boxes.

A reader stands at a position of the data. The lemmas say what it sees there when a box
begins at this position (`Behind data pos part rest`: from `pos` on the data is `part`
followed by `rest`); they do not depend on how the reader walks.
-/

namespace MediaKit.Lib

open List Option

variable {α : Type}

/-! ## Positions -/

variable {n pos : Nat} {l : List (Bytes × Bytes)} {b : Bytes × Bytes}

/-- From the position on, the data is `part` and then `rest`. -/
def Behind (data : List α) (pos : Nat) (part rest : List α) : Prop :=
  pos ≤ data.length ∧ data.drop pos = part ++ rest

/-- What is appended stands behind what was there. -/
theorem behind_append (pre part rest : List α) :
    Behind (pre ++ (part ++ rest)) pre.length part rest :=
  ⟨by rw [length_append]; omega, drop_left⟩

/-- The data stands at its own beginning. -/
theorem behind_self (l : List α) : Behind l 0 l [] := ⟨Nat.zero_le _, (append_nil l).symm⟩

variable {data part rest : List α}

/-- The data ends with the rest. -/
theorem Behind.length (h : Behind data pos part rest) :
    data.length = pos + part.length + rest.length := by
  have hlen := congrArg List.length h.2
  rw [length_drop, length_append] at hlen
  have hpos := h.1
  omega

/-- Behind the part the rest begins. -/
theorem Behind.next (h : Behind data pos part rest) : data.drop (pos + part.length) = rest := by
  rw [← drop_drop, h.2, drop_left]

/-- The first half of a part stands where the part does. -/
theorem Behind.fst {data a b rest : List α} (h : Behind data pos (a ++ b) rest) :
    Behind data pos a (b ++ rest) :=
  ⟨h.1, by rw [h.2, append_assoc]⟩

/-- The second half of a part stands behind the first. -/
theorem Behind.snd {data a b rest : List α} (h : Behind data pos (a ++ b) rest) :
    Behind data (pos + a.length) b rest := by
  refine ⟨?_, h.fst.next⟩
  have hlen := h.length
  rw [length_append] at hlen
  omega

/-- A reader that knows the length has the part. -/
theorem Behind.take (h : Behind data pos part rest) : (data.drop pos).take part.length = part := by
  rw [h.2, take_left]

/-- The same for a reader that checks the bounds. -/
theorem Behind.slice (h : Behind data pos part rest) :
    slice data pos (pos + part.length) = some part := by
  have hlen := h.length
  rw [slice_of_le (by omega) (by omega), drop_take, Nat.add_sub_cancel_left, h.take]

/-! ## Numbers in the data -/

/-- The 32-bit number at a position. -/
def u32At (data : Bytes) (pos : Nat) : Option Nat :=
  if pos + 4 ≤ data.length then some (ofBe ((data.drop pos).take 4)) else none

/-- Four octets keep a number that fits into them. -/
theorem ofBe_be32 (h : n < 2 ^ 32) : ofBe (be32 n) = n := ofBe_four n h

/-- The number that was written is read at its position. -/
theorem Behind.ofBe_take {data rest : Bytes} (h : Behind data pos (be32 n) rest) (hn : n < 2 ^ 32) :
    ofBe ((data.drop pos).take 4) = n := by
  have ht : (data.drop pos).take 4 = be32 n := h.take
  rw [ht, ofBe_be32 hn]

/-- The same for a reader that checks the bounds. -/
theorem Behind.u32At {data rest : Bytes} (h : Behind data pos (be32 n) rest) (hn : n < 2 ^ 32) :
    u32At data pos = some n := by
  have hlen := h.length
  rw [length_be32] at hlen
  rw [Lib.u32At, if_pos (by omega), h.ofBe_take hn]

/-- The octets written by a 64-bit big-endian `put`. -/
def be64 (n : Nat) : Bytes := be32 (n >>> 32) ++ be32 n

@[simp] theorem length_be64 (n : Nat) : (be64 n).length = 8 := rfl

/-- Eight octets keep a number that fits into them. -/
theorem ofBe_be64 (h : n < 2 ^ 64) : ofBe (be64 n) = n := by
  simp only [be64, be32, ofBe, cons_append, nil_append, foldl_cons, foldl_nil, UInt8.toNat_ofNat']
  omega

/-- The unity matrix of `mvhd` and `tkhd`. -/
def unityMatrix : Bytes := [0x00010000, 0, 0, 0, 0x00010000, 0, 0, 0, 0x40000000].flatMap be32

/-- The 64-bit number at a position. -/
def u64At (data : Bytes) (pos : Nat) : Option Nat :=
  if pos + 8 ≤ data.length then some (ofBe ((data.drop pos).take 8)) else none

/-- As `Behind.u32At`, for eight octets. -/
theorem Behind.u64At {data rest : Bytes} (h : Behind data pos (be64 n) rest) (hn : n < 2 ^ 64) :
    u64At data pos = some n := by
  have hlen := h.length
  rw [length_be64] at hlen
  have ht : (data.drop pos).take 8 = be64 n := h.take
  rw [Lib.u64At, if_pos (by omega), ht, ofBe_be64 hn]

/-- The first `n` numbers of a table. -/
def u32s : Nat → Bytes → Option (List Nat)
  | 0, _ => some []
  | n + 1, data => do
    let x ← u32At data 0
    let xs ← u32s n (data.drop 4)
    return x :: xs

/-- **A table of numbers** is read back, whatever follows it. -/
theorem u32s_flatMap (rest : Bytes) : ∀ l : List Nat, (∀ x ∈ l, x < 2 ^ 32) →
    u32s l.length (l.flatMap be32 ++ rest) = some l
  | [], _ => rfl
  | x :: l, h => by
    have hat : Behind ((x :: l).flatMap be32 ++ rest) 0 (be32 x) (l.flatMap be32 ++ rest) :=
      ⟨Nat.zero_le _, rfl⟩
    have hx := hat.u32At (h x mem_cons_self)
    have hd : ((x :: l).flatMap be32 ++ rest).drop 4 = l.flatMap be32 ++ rest := rfl
    rw [length_cons, u32s, hx, hd, bind_eq_bind, u32s_flatMap rest l fun y hy =>
      h y (mem_cons_of_mem x hy)]
    rfl

/-! ## Boxes -/

/-- Four letters as octets. -/
def tag (a b c d : Char) : Bytes := [a, b, c, d].map fun c => UInt8.ofNat c.toNat

@[simp] theorem length_tag (a b c d : Char) : (tag a b c d).length = 4 := rfl

def box (kind body : Bytes) : Bytes := be32 (8 + body.length) ++ (kind ++ body)

/-- The size field counts the header too. -/
theorem length_box {kind : Bytes} (hk : kind.length = 4) (body : Bytes) :
    (box kind body).length = 8 + body.length := by
  rw [box, length_append, length_append, length_be32]
  omega

/-- Boxes one after the other. -/
def boxes (l : List (Bytes × Bytes)) : Bytes := l.flatMap fun b => box b.1 b.2

@[simp] theorem boxes_nil : boxes [] = [] := rfl

@[simp] theorem boxes_cons (b : Bytes × Bytes) (l : List (Bytes × Bytes)) : boxes (b :: l) =
    box b.1 b.2 ++ boxes l := rfl

/-- Boxes behind boxes are a longer sequence of boxes. -/
theorem boxes_append (l l' : List (Bytes × Bytes)) : boxes (l ++ l') = boxes l ++ boxes l' :=
  flatMap_append

/-- Kinds of four octets, and sizes that fit into the size field. -/
def Boxed (l : List (Bytes × Bytes)) : Prop := ∀ b ∈ l, b.1.length = 4 ∧ 8 + b.2.length < 2 ^ 32

/-- The first box can be written. -/
theorem Boxed.head (h : Boxed (b :: l)) : b.1.length = 4 ∧ 8 + b.2.length < 2 ^ 32 :=
  h b mem_cons_self

/-- The boxes behind the first can be written. -/
theorem Boxed.tail (h : Boxed (b :: l)) : Boxed l :=
  fun c hc => h c (mem_cons_of_mem b hc)

/-- Sizes fit when the boxes together are short enough. -/
theorem boxed_of_length (hk : ∀ b ∈ l, b.1.length = 4)
    (h : (boxes l).length < 2 ^ 32) : Boxed l := by
  induction l with
  | nil => exact fun b hb => absurd hb not_mem_nil
  | cons c l ih =>
    have hc := hk c mem_cons_self
    rw [boxes_cons, length_append, length_box hc] at h
    intro b hb
    rcases mem_cons.mp hb with heq | hin
    · subst heq
      exact ⟨hc, by omega⟩
    · exact ih (fun b hb => hk b (mem_cons_of_mem c hb)) (by omega) b hin

/-- No body is longer than the boxes together. -/
theorem length_body_le (h : b ∈ l) : b.2.length ≤ (boxes l).length := by
  obtain ⟨front, back, rfl⟩ := append_of_mem h
  rw [boxes, flatMap_append, flatMap_cons, length_append, length_append, box, length_append,
    length_append]
  omega

/-- What stands where a box begins. -/
structure BoxAt (data : Bytes) (pos : Nat) (kind body rest : Bytes) : Prop where
  sizeAt : Behind data pos (be32 (8 + body.length)) (kind ++ (body ++ rest))
  kindAt : Behind data (pos + 4) kind (body ++ rest)
  bodyAt : Behind data (pos + 8) body rest
  next : data.drop (pos + (8 + body.length)) = rest

/-- **A box begins here**: its size, its kind, its body and the next box are at their places. -/
theorem Behind.box {data kind body rest : Bytes} (hk : kind.length = 4)
    (h : Behind data pos (box kind body) rest) : BoxAt data pos kind body rest := by
  have hs := h.fst
  rw [append_assoc] at hs
  have hkn := h.snd.fst
  have hb := h.snd.snd
  rw [hk, length_be32, add_assoc] at hb
  refine ⟨hs, hkn, hb, ?_⟩
  rw [← length_box hk]
  exact h.next

end MediaKit.Lib
