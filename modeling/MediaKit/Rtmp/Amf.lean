import MediaKit.Lib.Utf8

/-!
# AMF0 values

`crates/rtmp/src/amf.rs`. Numbers are kept as the bits of the `f64` that travels
on the wire; `F64` has the two things that are done with them.

The decoder is written with a fuel argument: every call takes at least one byte
off the buffer, so any fuel above its length gives the same result
(`decode_fuel`).
-/

namespace MediaKit.Rtmp

open Lib List

/-! ## Numbers -/

namespace F64

def zero : UInt64 := 0
def one : UInt64 := 0x3FF0000000000000
def two : UInt64 := 0x4000000000000000
def three : UInt64 := 0x4008000000000000

variable (a : UInt64)

def exponent : Nat := (a.toNat >>> 52) % 2048

def mantissa : Nat := a.toNat % 2 ^ 52

def negative : Bool := decide (2 ^ 63 ≤ a.toNat)

/-- `(a - n).abs() < 0.001` for `n` one of 1 and 2. A number so close to `n` is
positive with an exponent between 1022 and 1024, where it is a multiple of
`2 ^ -60`; the `f64` nearest to 0.001 is `1152921504606847 / 2 ^ 60`. The
subtraction is exact whenever its result is that small, and rounding is monotone,
so the exact comparison decides. -/
def near (n : Nat) : Bool :=
  !negative a && decide (1022 ≤ exponent a ∧ exponent a ≤ 1024 ∧
    (((2 ^ 52 + mantissa a) * 2 ^ (exponent a - 1015) : Nat) - (n * 2 ^ 60 : Nat) : Int).natAbs
      < 1152921504606847)

/-- `a as u32`: towards zero, saturating, NaN to 0. -/
def toU32 : UInt32 :=
  if negative a ∨ (exponent a = 2047 ∧ mantissa a ≠ 0) ∨ exponent a < 1023 then 0
  else if 1055 ≤ exponent a then 0xFFFFFFFF
  else UInt32.ofNat ((2 ^ 52 + mantissa a) >>> (1075 - exponent a))

end F64

/-! ## Values -/

inductive AmfValue where
  | number (bits : UInt64)
  | boolean (b : Bool)
  | string (s : Str)
  | object (pairs : List (Str × AmfValue))
  | null
  | undefined
  | ecmaArray (pairs : List (Str × AmfValue))
  | strictArray (values : List AmfValue)
  | date (time : UInt64) (timezone : Int16)

namespace AmfEncoder

/-- A big-endian 64-bit `put`. -/
def be64 (n : Nat) : Bytes := be32 (n >>> 32) ++ be32 n

/-- The key of `encode_property`. -/
def encodeKey (key : Str) : Bytes :=
  (if 0xFFFF < byteLen key then be32 (byteLen key) else be16 (byteLen key)) ++ Utf8.encode key

mutual

def encodeValue : AmfValue → Bytes
  | .number n => 0x00 :: be64 n.toNat
  | .boolean b => [0x01, if b then 1 else 0]
  | .string s =>
    (if 0xFFFF < byteLen s then 0x0C :: be32 (byteLen s) else 0x02 :: be16 (byteLen s)) ++
      Utf8.encode s
  | .object pairs => 0x03 :: (encodeProperties pairs ++ [0x00, 0x00, 0x09])
  | .null => [0x05]
  | .undefined => [0x06]
  | .ecmaArray pairs =>
    0x08 :: (be32 pairs.length ++ encodeProperties pairs ++ [0x00, 0x00, 0x09])
  | .strictArray _ => []
  | .date _ _ => []

def encodeProperties : List (Str × AmfValue) → Bytes
  | [] => []
  | (key, value) :: pairs => encodeKey key ++ encodeValue value ++ encodeProperties pairs

end

def encode (values : List AmfValue) : Bytes := values.flatMap encodeValue

end AmfEncoder

namespace AmfDecoder

mutual

/-- `decode_value`: the value and the bytes behind it. -/
def decodeValue : Nat → Bytes → Except String (AmfValue × Bytes)
  | 0, _ => .error "fuel"
  | _ + 1, [] => .error "Unexpected end of AMF data"
  | n + 1, typeId :: buf =>
    if typeId = 0x00 then
      if buf.length < 8 then .error "Not enough data for AMF number"
      else .ok (.number (UInt64.ofNat (ofBe (buf.take 8))), buf.drop 8)
    else if typeId = 0x01 then
      match buf with
      | [] => .error "Not enough data for AMF boolean"
      | b :: rest => .ok (.boolean (b != 0), rest)
    else if typeId = 0x02 then
      if buf.length < 2 then .error "Not enough data for AMF string length"
      else
        let len := ofBe (buf.take 2)
        let rest := buf.drop 2
        if rest.length < len then
          .error s!"Not enough data for AMF string (need {len} bytes, have {rest.length})"
        else .ok (.string (Utf8.lossy (rest.take len)), rest.drop len)
    else if typeId = 0x03 then
      match decodeObject n buf with
      | .error e => .error e
      | .ok (pairs, rest) => .ok (.object pairs, rest)
    else if typeId = 0x05 then .ok (.null, buf)
    else if typeId = 0x06 then .ok (.undefined, buf)
    else if typeId = 0x08 then
      if buf.length < 4 then .error "Not enough data for AMF ecma array count"
      else
        match decodeObject n (buf.drop 4) with
        | .error e => .error e
        | .ok (pairs, rest) => .ok (.ecmaArray pairs, rest)
    else .error s!"Unsupported AMF type: {typeId}"

/-- `decode_object`: the pairs up to the end marker or the end of the data. -/
def decodeObject : Nat → Bytes → Except String (List (Str × AmfValue) × Bytes)
  | 0, _ => .error "fuel"
  | n + 1, buf =>
    if buf.length < 2 then .ok ([], buf)
    else
      let keyLen := ofBe (buf.take 2)
      let rest := buf.drop 2
      if keyLen = 0 then .ok ([], rest.drop 1)
      else if rest.length < keyLen then .ok ([], rest)
      else
        let key := Utf8.lossy (rest.take keyLen)
        let rest := rest.drop keyLen
        if rest.isEmpty then .ok ([], rest)
        else
          match decodeValue n rest with
          | .error e => .error e
          | .ok (value, rest) =>
            match decodeObject n rest with
            | .error e => .error e
            | .ok (pairs, rest) => .ok ((key, value) :: pairs, rest)

end

def decodeLoop : Nat → Bytes → Except String (List AmfValue)
  | 0, _ => .error "fuel"
  | n + 1, buf =>
    if buf.isEmpty then .ok []
    else
      match decodeValue (buf.length + 1) buf with
      | .error e => .error e
      | .ok (value, rest) =>
        match decodeLoop n rest with
        | .error e => .error e
        | .ok values => .ok (value :: values)

def decode (data : Bytes) : Except String (List AmfValue) := decodeLoop (data.length + 1) data

/-! ### The fuel is never the reason to stop -/

/-- A value takes at least its type byte, and pairs give nothing back. -/
theorem decode_shrinks : ∀ n : Nat, (∀ b v r, decodeValue n b = .ok (v, r) → r.length < b.length) ∧
    (∀ b ps r, decodeObject n b = .ok (ps, r) → r.length ≤ b.length) := by
  intro n
  induction n with
  | zero => exact
    ⟨fun _ _ _ h => by simp [decodeValue] at h, fun _ _ _ h => by simp [decodeObject] at h⟩
  | succ n ih =>
    obtain ⟨ihv, iho⟩ := ih
    constructor
    · intro b v r h
      cases b with
      | nil => simp [decodeValue] at h
      | cons ty buf =>
        -- what is left of an object is bounded by induction, the rest is dropped bytes
        simp only [decodeValue] at h
        repeat' split at h
        all_goals grind
    · intro b ps r h
      simp only [decodeObject] at h
      repeat' split at h
      all_goals grind

theorem decode_fuel :
    ∀ n : Nat, (∀ m b, b.length < n → b.length < m → decodeValue n b = decodeValue m b) ∧
    (∀ m b, b.length < n → b.length < m → decodeObject n b = decodeObject m b) := by
  intro n
  induction n with
  | zero => exact ⟨fun _ _ h => absurd h (by omega), fun _ _ h => absurd h (by omega)⟩
  | succ n ih =>
    obtain ⟨ihv, iho⟩ := ih
    constructor
    · intro m b hn hm
      cases m with
      | zero => omega
      | succ m =>
        cases b with
        | nil => rfl
        | cons ty buf =>
          simp only [length_cons] at hn hm
          simp only [decodeValue]
          rw [iho m buf (by omega) (by omega), iho m (buf.drop 4) (by rw [length_drop]; omega)
            (by rw [length_drop]; omega)]
    · intro m b hn hm
      cases m with
      | zero => omega
      | succ m =>
        simp only [decodeObject]
        by_cases h2 : b.length < 2
        · simp only [h2, if_true]
        have hlen : ∀ k, ((b.drop 2).drop k).length ≤ b.length - 2 := by
          intro k
          simp only [length_drop]
          omega
        have hk := hlen (ofBe (b.take 2))
        rw [ihv m _ (by omega) (by omega)]
        split
        · rfl
        split
        · rfl
        split
        · rfl
        split
        · rfl
        cases hv : decodeValue m ((b.drop 2).drop (ofBe (b.take 2))) with
        | error e => rfl
        | ok q =>
          have := (decode_shrinks m).1 _ _ _ hv
          simp only
          rw [iho m q.2 (by omega) (by omega)]

end AmfDecoder

end MediaKit.Rtmp
