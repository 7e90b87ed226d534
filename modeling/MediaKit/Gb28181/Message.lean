import MediaKit.Gb28181.Sip
import MediaKit.Lib.Checked

/-!
# SIP messages

`crates/srt/src/gb28181/sip.rs`: `parse_sip` reads a datagram as lossy text, line by line. The
body is put together from its lines again, with a line feed behind each, and is then cut at the
Content-Length.

Mirroring notes vs the Rust source:
  * A panic is `none`: `truncate` stops the server at a position inside a character.
  * The loop over the lines has two parts, up to the first empty line and behind it.
  * The headers are a map, the newest entry first; so the Content-Length is that of the map.
  * `split` gives a first line for every text, and `parse_sip` a message.

Where the body has line ends of its own, or the Content-Length is zero, what comes out is not
what was declared (`parsed_body_iff`).
-/

namespace MediaKit.Gb28181

open Lib List Option

variable {body text : Str} {n : Nat}

open Utf8

/-- A `SipMessage` with the fields that only the server reads. -/
structure ParsedSip extends SipMessage where
  method : Option Str
  status : Option Nat
  body : Str

/-- A header line. -/
def headerOf (line : Str) : Option (Str × Str) :=
  (splitOnce ':' line).map fun p => (asciiLower (trim p.1), trim p.2)

variable (ls : List Str)

/-- The headers of some lines. -/
def headerMap : List (Str × Str) := (ls.filterMap headerOf).reverse

/-- The Content-Length that some header lines declare. -/
def declaredLength : Option Nat :=
  ((headerMap ls).lookup "content-length".toList).bind (parseUnsigned (2 ^ 64))

/-- The lines of the body, put together. -/
def bodyText : Str := ls.flatMap (· ++ ['\n'])

/-- `truncate`, for a length that is given and exceeded. -/
def truncateBody (n : Nat) (body : Str) : Option Str :=
  if 0 < n ∧ n < byteLen body then (splitAtByte n body).map Prod.fst else some body

/-- Method, status and address of a first line. -/
def startLine (first : Str) : Option Str × Option Nat × Str :=
  let part := fun i => (splitWhitespace first).getD i []
  if "SIP/2.0".toList.isPrefixOf (part 0) then (none, parseUnsigned (2 ^ 16) (part 1), part 2)
  else (some (part 0), none, part 1)

variable (buf : Bytes)

/-- The lines behind the first one. -/
def sipLines : List Str := (splitCrlf (lossy buf)).tail

def headerLines : List Str := ls.takeWhile fun l => !l.isEmpty

def bodyLines : List Str := (ls.dropWhile fun l => !l.isEmpty).tail

def parseSip : Option ParsedSip :=
  let (method, status, uri) := startLine ((splitCrlf (lossy buf)).headD [])
  let head := headerLines (sipLines buf)
  (truncateBody ((declaredLength head).getD 0) (bodyText (bodyLines (sipLines buf)))).map
  fun body =>
    { uri := uri, headers := headerMap head, method := method, status := status, body := body }

/-! ## Where the parser faults -/

/-- The Content-Length lies inside a character of the body that is put together. -/
def CutsChar : Prop :=
  ∃ n, declaredLength (headerLines (sipLines buf)) = some n ∧
    n < byteLen (bodyText (bodyLines (sipLines buf))) ∧
    InsideChar (bodyText (bodyLines (sipLines buf))) n

theorem truncateBody_eq_none_iff : truncateBody n body = none ↔ n < byteLen body ∧
    InsideChar body n := by
  unfold truncateBody
  by_cases h : 0 < n ∧ n < byteLen body
  · rw [if_pos h, map_eq_none_iff, splitAtByte_eq_none_iff (le_of_lt h.2)]
    exact ⟨fun hin => ⟨h.2, hin⟩, fun hin => hin.2⟩
  · rw [if_neg h]
    refine iff_of_false nofun fun hin => h ⟨?_, hin.1⟩
    obtain ⟨x, c, y, -, hlt, -⟩ := hin.2
    exact Nat.zero_lt_of_lt hlt

theorem parseSip_eq_none_iff : parseSip buf = none ↔ CutsChar buf := by
  unfold parseSip CutsChar
  rw [map_eq_none_iff, truncateBody_eq_none_iff]
  cases declaredLength (headerLines (sipLines buf)) with
  | none =>
    refine iff_of_false ?_ (by simp)
    rintro ⟨-, x, c, y, -, hlt, -⟩
    exact absurd hlt (Nat.not_lt_zero _)
  | some n => simp

/-! ## The body -/

/-- A header block, an empty line and a body, with a Content-Length that ends at a character. -/
structure Framed (buf head body : Bytes) (n : Nat) : Prop where
  eq : buf = head ++ [0x0D, 0x0A, 0x0D, 0x0A] ++ body
  header : [] ∉ sipLines head
  utf8 : Valid body
  declared : declaredLength (sipLines head) = some n
  le : n ≤ body.length
  boundary : Valid (body.take n)

theorem lossy_framed (head : Bytes) {body : Bytes} (h : decode body = some text) :
    lossy (head ++ [0x0D, 0x0A, 0x0D, 0x0A] ++ body) =
      lossy head ++ '\r' :: '\n' :: '\r' :: '\n' :: text := by
  have hcr : (0x0D : UInt8) ≤ 0x7F := by decide
  have hlf : (0x0A : UInt8) ≤ 0x7F := by decide
  have hr : lossy (0x0A :: 0x0D :: 0x0A :: body) = '\n' :: '\r' :: '\n' :: text := by
    rw [← lossy_of_decode h]
    exact (lossy_append_ascii [] hlf _).trans
      (congrArg ('\n' :: ·) ((lossy_append_ascii [] hcr _).trans
        (congrArg ('\r' :: ·) (lossy_append_ascii [] hlf body))))
  rw [append_assoc]
  show lossy (head ++ 0x0D :: 0x0A :: 0x0D :: 0x0A :: body) = _
  rw [lossy_append_ascii head hcr, hr]
  rfl

theorem lines_framed {head body : Bytes} (hh : [] ∉ sipLines head) (h : decode body = some text) :
    headerLines (sipLines (head ++ [0x0D, 0x0A, 0x0D, 0x0A] ++ body)) = sipLines head ∧
      bodyLines (sipLines (head ++ [0x0D, 0x0A, 0x0D, 0x0A] ++ body)) = splitCrlf text := by
  have hln : sipLines (head ++ [0x0D, 0x0A, 0x0D, 0x0A] ++ body) = sipLines head ++ [] ::
      splitCrlf text := by
    unfold sipLines
    rw [lossy_framed head h, splitCrlf_append_crlf, splitCrlf_crlf,
      tail_append_of_ne_nil (splitCrlf_ne_nil _)]
  have hal : ∀ l ∈ sipLines head, (!l.isEmpty) = true := by
    intro l hl
    rw [Bool.not_eq_true', isEmpty_eq_false_iff]
    exact fun hnil => hh (hnil ▸ hl)
  unfold headerLines bodyLines
  rw [hln, takeWhile_append_of_pos hal, dropWhile_append_of_pos hal]
  exact ⟨append_nil _, rfl⟩

/-- The text of the body after it was put together from its lines. -/
def rebuilt (text : Str) : Str := bodyText (splitCrlf text)

theorem rebuilt_cons {c : Char} {s : Str} (h : ¬ (c = '\r' ∧ s.head? = some '\n')) :
    rebuilt (c :: s) = c :: rebuilt s := by
  obtain ⟨l, ls, hs, hcs⟩ := splitCrlf_cons h
  unfold rebuilt
  rw [hcs, hs]
  rfl

theorem rebuilt_ne_nil (s : Str) : rebuilt s ≠ [] := by
  obtain ⟨l, ls, hs⟩ := exists_cons_of_ne_nil (splitCrlf_ne_nil s)
  unfold rebuilt bodyText
  rw [hs]
  simp

/-- A line end starts in the first `n` bytes. -/
def LineEndBelow (text : Str) (n : Nat) : Prop :=
  ∃ x y, text = x ++ '\r' :: '\n' :: y ∧ byteLen x < n

theorem rebuilt_append (r : Str) : ∀ {a : Str}, ¬ LineEndBelow (a ++ r) (byteLen a) →
    rebuilt (a ++ r) = a ++ rebuilt r
  | [], _ => rfl
  | c :: a, h => by
    have hpos := c.utf8Size_pos
    have hc : ¬ (c = '\r' ∧ (a ++ r).head? = some '\n') := by
      intro hc
      obtain ⟨y, hy⟩ := head?_eq_some_iff.mp hc.2
      refine h ⟨[], y, ?_, ?_⟩
      · rw [cons_append, hy, hc.1]
        rfl
      · exact lt_of_lt_of_le hpos (Nat.le_add_right _ _)
    have ha : ¬ LineEndBelow (a ++ r) (byteLen a) := by
      intro hb
      obtain ⟨x, y, heq, hlt⟩ := hb
      refine h ⟨c :: x, y, by rw [cons_append, heq]; rfl, ?_⟩
      rw [byteLen_cons, byteLen_cons]
      omega
    rw [cons_append, rebuilt_cons hc, rebuilt_append r ha]
    rfl

theorem rebuilt_ne (r t : Str) : ∀ {a : Str}, LineEndBelow (a ++ r) (byteLen a) →
    rebuilt (a ++ r) ≠ a ++ t
  | [], h, _ => by
    obtain ⟨x, y, -, hlt⟩ := h
    exact absurd hlt (Nat.not_lt_zero _)
  | c :: a, h, heq => by
    by_cases hc : c = '\r' ∧ (a ++ r).head? = some '\n'
    · obtain ⟨y, hy⟩ := head?_eq_some_iff.mp hc.2
      rw [cons_append, hy, hc.1] at heq
      exact absurd (List.cons.inj heq).1 (by decide)
    · rw [cons_append, rebuilt_cons hc] at heq
      refine rebuilt_ne r t ?_ (List.cons.inj heq).2
      obtain ⟨x, y, ht, hlt⟩ := h
      cases x with
      | nil =>
        obtain ⟨rfl, hr⟩ := List.cons.inj ht
        exact absurd ⟨rfl, congrArg head? hr⟩ hc
      | cons d x =>
        obtain ⟨rfl, hr⟩ := List.cons.inj ht
        refine ⟨x, y, hr, ?_⟩
        rw [byteLen_cons, byteLen_cons] at hlt
        omega

/-- What `truncate` leaves is a beginning of the text. -/
theorem prefix_of_truncateBody {a : Str} (h : truncateBody n body = some a) :
    ∃ t, body = a ++ t := by
  unfold truncateBody at h
  split at h
  · obtain ⟨⟨a', r⟩, hs, heq⟩ := map_eq_some_iff.mp h
    cases heq
    exact ⟨r, (of_splitAtByte hs).1⟩
  · cases h
    exact ⟨[], (append_nil _).symm⟩

theorem truncate_rebuilt_iff (a r : Str) : truncateBody (byteLen a) (rebuilt (a ++ r)) = some a ↔
      0 < byteLen a ∧ ¬ LineEndBelow (a ++ r) (byteLen a) := by
  constructor
  · intro h
    obtain ⟨t, ht⟩ := prefix_of_truncateBody h
    refine ⟨Nat.pos_of_ne_zero fun hz => ?_, fun hb => rebuilt_ne r t hb ht⟩
    have hnil : a = [] := by
      cases a with
      | nil => rfl
      | cons c a =>
        have hpos := c.utf8Size_pos
        rw [byteLen_cons] at hz
        omega
    rw [hnil] at h
    exact rebuilt_ne_nil r (some.inj h)
  · intro h
    have hl : byteLen a < byteLen (a ++ rebuilt r) := by
      obtain ⟨c, s, hs⟩ := exists_cons_of_ne_nil (rebuilt_ne_nil r)
      have hpos := c.utf8Size_pos
      rw [byteLen_append, hs, byteLen_cons]
      omega
    rw [rebuilt_append r h.2, truncateBody, if_pos ⟨h.1, hl⟩, splitAtByte_append]
    rfl

/-- **The parsed body** is what was declared exactly if something is declared, and no line
end starts in it. -/
theorem parsed_body_iff {buf head body : Bytes} {n : Nat} (h : Framed buf head body n) {text : Str}
    (ht : decode body = some text) :
    (∃ msg, parseSip buf = some msg ∧ decode (body.take n) = some msg.body) ↔ 0 < n ∧
    ¬ LineEndBelow text n := by
  obtain ⟨a, ha⟩ := isSome_iff_exists.mp h.boundary
  have hlen : byteLen a = n := by
    rw [byteLen_of_decode ha, length_take]
    exact min_eq_left h.le
  -- the text is that of the declared bytes and that of the others
  obtain ⟨r, rfl⟩ : ∃ r, text = a ++ r := by
    rw [← take_append_drop n body, decode_append ha] at ht
    obtain ⟨r, -, hr⟩ := map_eq_some_iff.mp ht
    exact ⟨r, hr.symm⟩
  obtain ⟨hh, hbd⟩ := lines_framed h.header ht
  have hp : (∃ msg, parseSip buf = some msg ∧ decode (body.take n) = some msg.body) ↔
      truncateBody n (rebuilt (a ++ r)) = some a := by
    unfold parseSip
    dsimp only
    rw [h.eq, hh, hbd, h.declared, ha]
    show (∃ msg, (truncateBody n (rebuilt (a ++ r))).map _ = some msg ∧ _) ↔ _
    constructor
    · intro hms
      obtain ⟨msg, heq, hmB⟩ := hms
      obtain ⟨b, hb, rfl⟩ := map_eq_some_iff.mp heq
      rw [hb, some.inj hmB]
    · intro hc
      exact ⟨_, by rw [hc]; rfl, rfl⟩
  rw [hp, ← hlen]
  exact truncate_rebuilt_iff a r

end MediaKit.Gb28181
