import Mathlib.Data.List.Basic
import MediaKit.Lib.Text

/-!
# RTSP requests and responses

`crates/rtsp/src/parser.rs`: `RtspParser::parse_request` and `parse_response` on a
buffer that may hold less or more than one message. The two functions differ in the
first line only, so both are `parseMessage` with the reading of that line.

Mirroring notes vs the Rust source:
- The whole buffer goes through `str::from_utf8` before anything else is looked at,
  bytes behind the message included.
- `header_end` is an octet index; the model has the header's characters, and their
  octets are counted (`byteLen`).
- `body_start + content_length` is a `usize` sum: past `2^64` it panics in a checked
  build; in an unchecked one it wraps below `body_start`, and the slice
  `data[body_start..total_len]` panics.
- `headers` is a map; here a list, latest entry first.
-/

namespace MediaKit.Rtsp

open Lib List Option

/-- A header map: the latest entry of a name counts. -/
abbrev Headers := List (Str × Str)

def Headers.get (h : Headers) (name : Str) : Option Str :=
  (h.find? fun p => p.1 = name).map Prod.snd

structure RtspRequest where
  method : Str
  uri : Str
  version : Str
  headers : Headers
  body : Bytes
  deriving DecidableEq

structure RtspResponse where
  version : Str
  statusCode : Nat
  reason : Str
  headers : Headers
  body : Bytes
  deriving DecidableEq

/-- The outcome of a parser: `None`, a panic, or a message and its length. -/
inductive Parse (μ : Type) where
  | incomplete
  | panic
  | done (msg : μ) (consumed : Nat)
  deriving DecidableEq

variable {μ : Type}

/-- The loop over the header lines. -/
def headerFields (ls : List Str) : Headers :=
  ls.foldl (fun h line => match splitOnce ':' line with
    | some (key, value) => (trim key, trim value) :: h
    | none => h) []

def contentLength (h : Headers) : Nat :=
  ((h.get "Content-Length").bind (parseUnsigned (2 ^ 64))).getD 0

/-- What the header text says: the message but for its body, and the body's length. -/
def parseHead (start : Str → Str → Str → Option (Headers → Bytes → μ)) (header : Str) :
    Option ((Bytes → μ) × Nat) :=
  match lines header with
  | [] => none
  | first :: rest =>
    match splitThree ' ' first with
    | none => none
    | some (a, b, c) =>
      let headers := headerFields rest
      (start a b c).map fun make => (make headers, contentLength headers)

/-- The head of a buffer that holds a complete header: the message but for its body,
`body_start` and the length of the body. -/
def head (start : Str → Str → Str → Option (Headers → Bytes → μ)) (data : Bytes) :
    Option ((Bytes → μ) × Nat × Nat) :=
  match Utf8.decode data with
  | none => none
  | some text =>
    match splitOncePat "\r\n\r\n" text with
    | none => none
    | some (header, _) =>
      (parseHead start header).map fun p => (p.1, byteLen header + 4, p.2)

/-- `parse_request` and `parse_response`, but for the first line. -/
def parseMessage (start : Str → Str → Str → Option (Headers → Bytes → μ)) (data : Bytes) :
    Parse μ :=
  match head start data with
  | none => .incomplete
  | some (make, bodyStart, contentLength) =>
    let totalLen := bodyStart + contentLength
    if 2 ^ 64 ≤ totalLen then .panic
    else if data.length < totalLen then .incomplete
    else .done (make ((data.drop bodyStart).take contentLength)) totalLen

def requestLine (method uri version : Str) : Option (Headers → Bytes → RtspRequest) :=
  some fun headers body => ⟨method, uri, version, headers, body⟩

def statusLine (version code reason : Str) : Option (Headers → Bytes → RtspResponse) :=
  (parseUnsigned (2 ^ 16) code).map fun statusCode headers body =>
    ⟨version, statusCode, reason, headers, body⟩

def parseRequest (data : Bytes) : Parse RtspRequest := parseMessage requestLine data

def parseResponse (data : Bytes) : Parse RtspResponse := parseMessage statusLine data

/-! ## The bytes behind a message -/

section Tail

variable {start : Str → Str → Str → Option (Headers → Bytes → μ)}
  {data : Bytes}

theorem valid_of_head {h : (Bytes → μ) × Nat × Nat}
    (hh : head start data = some h) : Utf8.Valid data := by
  unfold head at hh
  unfold Utf8.Valid
  cases hd : Utf8.decode data with
  | none => rw [hd] at hh; cases hh
  | some text => rfl

theorem parseMessage_of_not_valid (h : ¬ Utf8.Valid data) :
    parseMessage start data = .incomplete := by
  unfold parseMessage
  cases hh : head start data with
  | none => rfl
  | some q => exact absurd (valid_of_head hh) h

theorem head_append {h : (Bytes → μ) × Nat × Nat} (hh : head start data = some h)
    {t : Bytes} (ht : Utf8.Valid t) : head start (data ++ t) = some h := by
  obtain ⟨more, hm⟩ := isSome_iff_exists.mp ht
  unfold head at hh ⊢
  cases hd : Utf8.decode data with
  | none => rw [hd] at hh; cases hh
  | some text =>
    rw [hd] at hh
    dsimp only at hh
    rw [Utf8.decode_append hd, hm]
    simp only [map_some]
    cases hs : splitOncePat "\r\n\r\n" text with
    | none => rw [hs] at hh; cases hh
    | some q =>
      rw [hs] at hh
      rw [splitOncePat_append hs]
      exact hh

/-- **What follows a message matters by being text or not**, and in no other way. -/
theorem parseMessage_append_iff {m : Bytes} (hm : parseMessage start m ≠ .incomplete) (t : Bytes) :
    parseMessage start (m ++ t) = parseMessage start m ↔ Utf8.Valid t := by
  cases hh : head start m with
  | none =>
    refine absurd ?_ hm
    rw [parseMessage, hh]
  | some q =>
    obtain ⟨make, bodyStart, len⟩ := q
    have hv := valid_of_head hh
    constructor
    · intro heq
      by_contra ht
      rw [parseMessage_of_not_valid (fun h => ht ((Utf8.valid_append_iff hv t).mp h))] at heq
      exact hm heq.symm
    · intro ht
      unfold parseMessage at hm ⊢
      rw [hh] at hm
      rw [head_append hh ht, hh]
      dsimp only at hm ⊢
      by_cases hov : 2 ^ 64 ≤ bodyStart + len
      · rw [if_pos hov, if_pos hov]
      · rw [if_neg hov] at hm
        rw [if_neg hov, if_neg hov]
        have hle : bodyStart + len ≤ m.length := by
          by_contra hlt
          rw [if_pos (by omega)] at hm
          exact hm rfl
        rw [if_neg (by rw [length_append]; omega), if_neg (by omega),
          drop_append_of_le_length (by omega),
          take_append_of_le_length (by rw [length_drop]; omega)]

/-- A parser panics exactly when the announced length does not fit. -/
theorem parseMessage_eq_panic_iff (data : Bytes) : parseMessage start data = .panic ↔
      ∃ make bodyStart len, head start data = some (make, bodyStart, len) ∧
      2 ^ 64 ≤ bodyStart + len := by
  unfold parseMessage
  cases hh : head start data with
  | none => simp
  | some q =>
    obtain ⟨make, bodyStart, len⟩ := q
    dsimp only
    constructor
    · intro h
      refine ⟨make, bodyStart, len, rfl, ?_⟩
      by_contra hov
      rw [if_neg hov] at h
      split at h <;> cases h
    · rintro ⟨make', bodyStart', len', heq, hov⟩
      obtain ⟨rfl, rfl, rfl⟩ : make = make' ∧ bodyStart = bodyStart' ∧ len = len' := by
        simpa using heq
      rw [if_pos hov]

theorem four_le_of_head {make : Bytes → μ} {bodyStart len : Nat}
    (hh : head start data = some (make, bodyStart, len)) : 4 ≤ bodyStart := by
  unfold head at hh
  split at hh
  next => cases hh
  next =>
    split at hh
    next => cases hh
    next header rest _ =>
      rw [map_eq_some_iff] at hh
      obtain ⟨p, -, hp⟩ := hh
      obtain ⟨-, rfl, -⟩ : p.1 = make ∧ byteLen header + 4 = bodyStart ∧ p.2 = len := by
        simpa using hp
      exact Nat.le_add_left 4 _

/-- A message takes at least its blank line and lies within the buffer. -/
theorem consumed_of_done {msg : μ} {n : Nat}
    (h : parseMessage start data = .done msg n) : 4 ≤ n ∧ n ≤ data.length := by
  unfold parseMessage at h
  cases hh : head start data with
  | none => rw [hh] at h; cases h
  | some q =>
    have h4 := four_le_of_head hh
    rw [hh] at h
    dsimp only at h
    split at h
    next => cases h
    next =>
      split at h
      next => cases h
      next hlen =>
        obtain ⟨-, rfl⟩ := Parse.done.inj h
        omega

end Tail

end MediaKit.Rtsp
