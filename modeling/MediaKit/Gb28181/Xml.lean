import MediaKit.Lib.Checked

/-!
# The XML of GB28181 messages

`crates/srt/src/gb28181/xml.rs`: a small parser for the bodies of MESSAGE requests. It walks
the bytes of the text by position, and gives up (`none` in the source, `fail` here) where the text
is not well formed.

Mirroring notes vs the Rust source:
  * A loop that stops at a byte or at the end is `scan`. Its body cannot fault; the slices and the
    search behind a position can, and they are checked.
  * An element and its content call each other. They share one supply of rounds, and the end of the
    supply is a fault, so `parseXml_ensures` says that it never ends.
  * The attributes are a map; the last one of a name counts.
-/

namespace MediaKit.Gb28181

open Lib List

/-- An element. -/
structure XmlNode where
  name : Str
  text : Str
  attrs : List (Str × Str)
  children : List XmlNode

namespace XmlNode

def child (node : XmlNode) (name : Str) : Option XmlNode :=
  node.children.find? fun c => c.name == name

def textOf (node : XmlNode) (name : Str) : Option Str := (node.child name).map XmlNode.text

mutual

/-- `collect_descendants`. -/
def descendantsNamed (name : Str) : XmlNode → List XmlNode
  | ⟨_, _, _, children⟩ => descendantsOf name children

def descendantsOf (name : Str) : List XmlNode → List XmlNode
  | [] => []
  | c :: cs => (if c.name = name then [c] else []) ++ descendantsNamed name c ++
    descendantsOf name cs

end

end XmlNode

namespace Xml

/-! ## Scanning -/

def isBlank (b : UInt8) : Bool := b = 0x20 || b = 0x09 || b = 0x0D || b = 0x0A

/-- The first position from `pos` on where `stop` holds, or the end. -/
def scan (stop : UInt8 → Bool) (bytes : Bytes) (pos : Nat) : Nat :=
  pos + ((bytes.drop pos).takeWhile fun b => !stop b).length

def skipWs (bytes : Bytes) (pos : Nat) : Nat := scan (fun b => !isBlank b) bytes pos

def startsWith (bytes : Bytes) (pos : Nat) (pat : Bytes) : Bool := pat.isPrefixOf (bytes.drop pos)

def findByte (bytes : Bytes) (start : Nat) (needle : UInt8) : Outcome Nat := do
  let rest ← .ofChecked (slice bytes start bytes.length)
  let i ← .ofOption (rest.findIdx? (· == needle))
  return start + i

/-- The rounds of `skip_until`. -/
def skipUpTo (bytes pat : Bytes) : Nat → Nat → Option Nat
  | 0, _ => none
  | fuel + 1, i =>
    if bytes.length < i + pat.length then none
    else if startsWith bytes i pat then some (i + pat.length)
    else skipUpTo bytes pat fuel (i + 1)

def skipUntil (bytes : Bytes) (start : Nat) (pat : Bytes) : Option Nat :=
  skipUpTo bytes pat (bytes.length + 1) start

def unescape (s : Str) : Str :=
  [("&lt;", "<"), ("&gt;", ">"), ("&quot;", "\""), ("&apos;", "'"), ("&amp;", "&")].foldl
    (fun s e => replaceAll e.1.toList e.2.toList s) s

/-! ## Elements -/

/-- The attributes of an element, whether it ends with its tag, and the position behind the tag. -/
def parseAttrs (bytes : Bytes) : Nat → Nat → List (Str × Str) →
    Outcome (List (Str × Str) × Bool × Nat)
  | 0, _, _ => .fault
  | fuel + 1, pos, attrs => do
    let p := skipWs bytes pos
    if bytes.length ≤ p then .fail
    else if bytes[p]? = some 0x3E then return (attrs, false, p + 1)
    else if bytes[p]? = some 0x2F ∧ bytes[p + 1]? = some 0x3E then return (attrs, true, p + 2)
    else
      let nameEnd := scan (fun b => b = 0x3D || b = 0x3E || b = 0x2F || isBlank b) bytes p
      let name ← .ofChecked (slice bytes p nameEnd)
      if name = [] then .fail
      else
        let p := skipWs bytes nameEnd
        if bytes.length ≤ p ∨ bytes[p]? ≠ some 0x3D then .fail
        else
          let p := skipWs bytes (p + 1)
          let quote ← .ofOption bytes[p]?
          if quote ≠ 0x22 ∧ quote ≠ 0x27 then .fail
          else
            let valueEnd := scan (· = quote) bytes (p + 1)
            if bytes.length ≤ valueEnd then .fail
            else
              let value ← .ofChecked (slice bytes (p + 1) valueEnd)
              let key := Utf8.lossy name
              parseAttrs bytes fuel (valueEnd + 1)
                ((key, Utf8.lossy value) :: attrs.filter fun a => a.1 != key)

mutual

/-- `parse_element`: the element that begins at `pos`, and the position behind it. -/
def parseElement (bytes : Bytes) : Nat → Nat → Outcome (XmlNode × Nat)
  | 0, _ => .fault
  | fuel + 1, pos =>
    if bytes[pos + 1]? = some 0x3F ∨ bytes[pos + 1]? = some 0x21 then .fail
    else
      let nameEnd := scan (fun b => b = 0x3E || b = 0x2F || isBlank b) bytes (pos + 1)
      if bytes.length ≤ nameEnd then .fail
      else do
        let name ← .ofChecked (slice bytes (pos + 1) nameEnd)
        if name = [] then .fail
        else
          let (attrs, selfClosing, p) ← parseAttrs bytes (bytes.length + 1) nameEnd []
          if selfClosing then return (⟨Utf8.lossy name, [], attrs, []⟩, p)
          else parseContent bytes fuel p ⟨Utf8.lossy name, [], attrs, []⟩

/-- The loop over the content of an element, which is collected in `node`. -/
def parseContent (bytes : Bytes) : Nat → Nat → XmlNode → Outcome (XmlNode × Nat)
  | 0, _, _ => .fault
  | fuel + 1, p, node => do
    let lt ← findByte bytes p 0x3C
    let chunk ← .ofChecked (slice bytes p lt)
    let node := { node with text := node.text ++ unescape (Utf8.lossy chunk) }
    if bytes.length ≤ lt + 1 then .fail
    else if bytes[lt + 1]? = some 0x2F then
      let q := scan (· = 0x3E) bytes (lt + 2)
      if bytes.length ≤ q then .fail
      else
        let close ← .ofChecked (slice bytes (lt + 2) q)
        if trim (Utf8.lossy close) ≠ node.name then .fail else return (node, q + 1)
    else if bytes[lt + 1]? = some 0x3F then
      let p ← .ofOption (skipUntil bytes (lt + 1) [0x3F, 0x3E])
      parseContent bytes fuel p node
    else if bytes[lt + 1]? = some 0x21 then
      let p ← .ofOption (skipUntil bytes (lt + 1) [0x2D, 0x2D, 0x3E])
      parseContent bytes fuel p node
    else
      let (child, p) ← parseElement bytes fuel lt
      parseContent bytes fuel p { node with children := node.children ++ [child] }

end

variable {bytes : Bytes}
  {p start : Nat} {pat : Bytes}

/-- What stands in front of the first element is skipped. -/
def skipProlog (bytes : Bytes) : Nat → Nat → Outcome Nat
  | 0, _ => .fault
  | fuel + 1, pos => do
    let pos := skipWs bytes pos
    if startsWith bytes pos [0x3C, 0x3F] then
      let pos ← .ofOption (skipUntil bytes pos [0x3F, 0x3E])
      skipProlog bytes fuel pos
    else if startsWith bytes pos [0x3C, 0x21, 0x2D, 0x2D] then
      let pos ← .ofOption (skipUntil bytes pos [0x2D, 0x2D, 0x3E])
      skipProlog bytes fuel pos
    else return pos

def parseXml (input : Str) : Outcome XmlNode := do
  let bytes := Utf8.encode input
  let pos ← skipProlog bytes (bytes.length + 1) 0
  if bytes.length ≤ pos ∨ bytes[pos]? ≠ some 0x3C then .fail
  else
    let (node, _) ← parseElement bytes (2 * bytes.length) pos
    return node

/-! ## The parser does not fault -/

theorem le_scan (stop : UInt8 → Bool) (bytes : Bytes) (pos : Nat) : pos ≤ scan stop bytes pos :=
  Nat.le_add_right _ _

theorem scan_le (stop : UInt8 → Bool) {pos : Nat} (h : pos ≤ bytes.length) :
    scan stop bytes pos ≤ bytes.length := by
  have hle := ((bytes.drop pos).takeWhile_sublist fun b => !stop b).length_le
  rw [length_drop] at hle
  unfold scan
  omega

theorem ensures_findByte (h : start ≤ bytes.length) (needle : UInt8) :
    (findByte bytes start needle).Ensures fun i => start ≤ i ∧ i < bytes.length := by
  apply (Outcome.ensures_ofChecked (slice_to_end h) rfl).bind
  intro rest hr
  apply (Outcome.ensures_ofOption (fun i hi => hi)).bind
  intro i hi
  have hlt := (findIdx?_eq_some_iff_getElem.mp hi).choose
  rw [← hr, length_drop] at hlt
  exact ⟨Nat.le_add_right _ _, show start + i < bytes.length by omega⟩

theorem skipUpTo_spec : ∀ {fuel i p : Nat}, skipUpTo bytes pat fuel i = some p →
    i + pat.length ≤ p ∧ p ≤ bytes.length
  | fuel + 1, i, p, h => by
    rw [skipUpTo] at h
    split at h
    · cases h
    split at h
    · cases h
      omega
    · have := skipUpTo_spec h
      omega

theorem skipUntil_spec (h : skipUntil bytes start pat = some p) : start + pat.length ≤ p ∧
    p ≤ bytes.length := skipUpTo_spec h

theorem lt_length_of_getElem? {b : UInt8} (h : bytes[p]? = some b) : p < bytes.length :=
  (List.getElem?_eq_some_iff.mp h).choose

theorem ensures_slice {i j : Nat} (hij : i ≤ j) (hj : j ≤ bytes.length) :
    (Outcome.ofChecked (slice bytes i j)).Ensures fun _ => True :=
  Outcome.ensures_ofChecked (slice_of_le hij hj) trivial

/-- **The attributes.** A round goes on behind a value, so the rounds suffice. -/
theorem ensures_parseAttrs {bytes : Bytes} : ∀ {fuel pos : Nat} {attrs : List (Str × Str)},
    pos ≤ bytes.length → bytes.length - pos < fuel →
      (parseAttrs bytes fuel pos attrs).Ensures fun r => pos < r.2.2 ∧ r.2.2 ≤ bytes.length
  | 0, _, _, _, h => absurd h (Nat.not_lt_zero _)
  | fuel + 1, pos, attrs, hpos, hf => by
    rw [parseAttrs]
    have hp : pos ≤ skipWs bytes pos := le_scan _ _ _
    generalize skipWs bytes pos = p at hp ⊢
    dsimp only
    by_cases hen : bytes.length ≤ p
    · rw [if_pos hen]
      trivial
    rw [if_neg hen]
    by_cases hgt : bytes[p]? = some 0x3E
    · rw [if_pos hgt]
      exact ⟨show pos < p + 1 by omega, show p + 1 ≤ bytes.length by omega⟩
    rw [if_neg hgt]
    by_cases hs : bytes[p]? = some 0x2F ∧ bytes[p + 1]? = some 0x3E
    · have hlt := lt_length_of_getElem? hs.2
      rw [if_pos hs]
      exact ⟨show pos < p + 2 by omega, show p + 2 ≤ bytes.length by omega⟩
    rw [if_neg hs]
    have hnm : p ≤ scan (fun b => b = 0x3D || b = 0x3E || b = 0x2F || isBlank b) bytes p :=
      le_scan _ _ _
    have hnE : scan (fun b => b = 0x3D || b = 0x3E || b = 0x2F || isBlank b) bytes p ≤
      bytes.length := scan_le _ (by omega)
    generalize scan (fun b => b = 0x3D || b = 0x3E || b = 0x2F || isBlank b) bytes p =
      nameEnd at hnm hnE ⊢
    apply (ensures_slice hnm hnE).bind
    intro name _
    split
    · trivial
    have hp₂ : nameEnd ≤ skipWs bytes nameEnd := le_scan _ _ _
    generalize skipWs bytes nameEnd = p₂ at hp₂ ⊢
    split
    · trivial
    next heq =>
      have hp₃ : p₂ + 1 ≤ skipWs bytes (p₂ + 1) := le_scan _ _ _
      generalize skipWs bytes (p₂ + 1) = p₃ at hp₃ ⊢
      apply (Outcome.ensures_ofOption fun _ h => lt_length_of_getElem? h).bind
      intro quote hlt₃
      split
      · trivial
      have hv : p₃ + 1 ≤ scan (· = quote) bytes (p₃ + 1) := le_scan _ _ _
      generalize scan (· = quote) bytes (p₃ + 1) = valueEnd at hv ⊢
      split
      · trivial
      next hq =>
        apply (ensures_slice hv (by omega)).bind
        intro value _
        have hrs := @ensures_parseAttrs bytes fuel (valueEnd + 1)
          ((Utf8.lossy name, Utf8.lossy value) :: attrs.filter fun a => a.1 != Utf8.lossy name)
          (by omega) (by omega)
        exact hrs.imp fun r hr => ⟨by omega, hr.2⟩

/-- **An element, and the content of one.** Both go on behind where they began, so two rounds for
each byte suffice. -/
theorem ensures_parseElement {bytes : Bytes} : ∀ {fuel : Nat},
    (∀ {pos : Nat}, pos < bytes.length → 2 * (bytes.length - pos) ≤ fuel →
      (parseElement bytes fuel pos).Ensures fun r => pos < r.2 ∧ r.2 ≤ bytes.length) ∧
    (∀ {p : Nat} {node : XmlNode}, p ≤ bytes.length → 2 * (bytes.length - p) < fuel →
      (parseContent bytes fuel p node).Ensures fun r => p < r.2 ∧ r.2 ≤ bytes.length)
  | 0 => ⟨fun h h' => by omega, fun _ h => absurd h (Nat.not_lt_zero _)⟩
  | fuel + 1 => by
    have ih := @ensures_parseElement bytes fuel
    constructor
    · intro pos hpos hf
      rw [parseElement]
      split
      · trivial
      dsimp only
      have hn : pos + 1 ≤ scan (fun b => b = 0x3E || b = 0x2F || isBlank b) bytes (pos + 1) :=
        le_scan _ _ _
      split
      · trivial
      next he =>
        apply (ensures_slice hn (by omega)).bind
        intro name _
        split
        · trivial
        apply (ensures_parseAttrs (by omega) (by omega)).bind
        intro r hr
        obtain ⟨attrs, selfClosing, p⟩ := r
        dsimp only at hr ⊢
        split
        · exact ⟨show pos < p by omega, hr.2⟩
        · exact (ih.2 hr.2 (by omega)).imp fun r hr' => ⟨by omega, hr'.2⟩
    · intro p node hp hf
      apply (ensures_findByte hp 0x3C).bind
      intro lt hlt
      apply (ensures_slice hlt.1 (le_of_lt hlt.2)).bind
      intro chunk _
      dsimp only
      split
      · trivial
      next he =>
      split
      · -- the end tag
        have hq : lt + 2 ≤ scan (· = 0x3E) bytes (lt + 2) := le_scan _ _ _
        generalize scan (· = 0x3E) bytes (lt + 2) = q at hq ⊢
        split
        · trivial
        apply (ensures_slice hq (by omega)).bind
        intro close _
        split
        · trivial
        · exact ⟨show p < q + 1 by omega, show q + 1 ≤ bytes.length by omega⟩
      split
      · apply (Outcome.ensures_ofOption fun _ h => skipUntil_spec h).bind
        intro p' hp'
        exact (ih.2 hp'.2 (by omega)).imp fun r hr => ⟨by omega, hr.2⟩
      split
      · apply (Outcome.ensures_ofOption fun _ h => skipUntil_spec h).bind
        intro p' hp'
        exact (ih.2 hp'.2 (by omega)).imp fun r hr => ⟨by omega, hr.2⟩
      · apply (ih.1 hlt.2 (by omega)).bind
        intro r hr
        obtain ⟨child, p'⟩ := r
        exact (ih.2 hr.2 (by dsimp only at hr; omega)).imp fun r hr' =>
          ⟨by dsimp only at hr; omega, hr'.2⟩

theorem ensures_skipProlog : ∀ {fuel pos : Nat}, pos ≤ bytes.length →
    bytes.length - pos < fuel → (skipProlog bytes fuel pos).Ensures fun _ => True
  | 0, _, _, h => absurd h (Nat.not_lt_zero _)
  | fuel + 1, pos, hpos, hf => by
    rw [skipProlog]
    have hp : pos ≤ skipWs bytes pos := le_scan _ _ _
    split
    · apply (Outcome.ensures_ofOption fun _ h => skipUntil_spec h).bind
      intro p' hp'
      simp only [length_cons] at hp'
      exact ensures_skipProlog hp'.2 (by omega)
    split
    · apply (Outcome.ensures_ofOption fun _ h => skipUntil_spec h).bind
      intro p' hp'
      simp only [length_cons] at hp'
      exact ensures_skipProlog hp'.2 (by omega)
    · trivial

/-- **The parser** faults on no text. -/
theorem parseXml_ensures (input : Str) : (parseXml input).Ensures fun _ => True := by
  apply (ensures_skipProlog (Nat.zero_le _) (by omega)).bind
  intro pos _
  split
  · trivial
  next hpos =>
    apply (ensures_parseElement.1 (show pos < _ by omega) (by omega)).bind
    intro r _
    trivial

/-- **Every text is parsed or refused.** -/
theorem parseXml_returns (input : Str) : parseXml input ≠ .fault := by
  intro h
  have hs := parseXml_ensures input
  rwa [h] at hs

end Xml

end MediaKit.Gb28181
