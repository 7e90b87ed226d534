import MediaKit.Core.Payload

/-!
# FLV payloads

`crates/core/src/payload.rs`, `flv_payload`: the body of an FLV tag or of an RTMP media message,
made from any other representation. The composition time is a signed number of 24 bits.

Mirroring notes vs the Rust source:
  * The difference of the two timestamps wraps, as in a release build. A build with overflow checks
    panics where `pts as i64 - dts as i64` does not fit into 64 bits.
-/

namespace MediaKit.Core

open Lib

/-- The three low octets of a number. -/
def be24 (n : Nat) : Bytes := [UInt8.ofNat (n >>> 16), UInt8.ofNat (n >>> 8), UInt8.ofNat n]

/-- The three low octets of a signed number. -/
def signed24 (n : Int) : Bytes := be24 (n % 2 ^ 24).toNat

/-- `(pts as i64 - dts as i64).clamp(..)`; conversion and difference wrap. -/
def compositionTime (pts dts : UInt64) : Int :=
  max (-8388608) (min (Int.bmod ((pts.toNat : Int) - dts.toNat) (2 ^ 64)) 8388607)

def flvVideoCodec : CodecId → Option UInt8
  | .h264 => some 7
  | .h265 => some 12
  | _ => none

variable (frame : MediaFrame)

/-- The first octets of a video payload. -/
def flvVideoHeader (codecId : UInt8) : Bytes :=
  let frameType : UInt8 := if frame.keyFrame || frame.configFrame then 1 else 2
  [frameType <<< 4 ||| codecId, if frame.configFrame then 0 else 1] ++
    signed24 (if frame.configFrame then 0 else compositionTime frame.pts frame.dts)

/-- The configuration or the sample behind the header of a video payload. -/
def flvVideoBody : Except Error Bytes :=
  if frame.configFrame then videoDecoderConfig frame else videoSampleLengthPrefixed frame

/-- The configuration or the sample behind the header of an AAC payload. -/
def flvAacBody : Except Error Bytes :=
  if frame.configFrame then aacAudioSpecificConfig frame else aacRawPayload frame

def flvPayload : Except Error Bytes :=
  if frame.frameType = .metadata ∨ frame.payloadFormat = .flv then .ok frame.data
  else
    match frame.frameType with
    | .video =>
      match flvVideoCodec frame.codec with
      | none => .error (.unsupported ("FLV video payload for " ++ frame.codec.debug))
      | some codecId => do
        let body ← flvVideoBody frame
        return flvVideoHeader frame codecId ++ body
    | .audio =>
      match frame.codec with
      | .aac => do
        let body ← flvAacBody frame
        return [0xAF, if frame.configFrame then 0 else 1] ++ body
      | .g711a => .ok (0x72 :: frame.data)
      | .g711u => .ok (0x82 :: frame.data)
      | .mp3 => .ok (0x2F :: frame.data)
      | codec => .error (.unsupported ("FLV audio payload for " ++ codec.debug))
    | .metadata => .ok frame.data

def signedI24 (high middle low : UInt8) : Int :=
  let value := ofBe [high, middle, low]
  if 2 ^ 23 ≤ value then (value : Int) - 2 ^ 24 else value

@[simp] theorem length_be24 (n : Nat) : (be24 n).length = 3 := rfl

theorem ofBe_be24 {n : Nat} (h : n < 2 ^ 24) : ofBe (be24 n) = n := by
  have hz : ∀ l : Bytes, ofBe (0 :: l) = ofBe l := fun _ => rfl
  rw [← hz]
  exact ofBe_three n h

theorem signedI24_signed24 {n : Int} (hlw : -(2 ^ 23) ≤ n) (hh : n < 2 ^ 23) :
    ∃ a b c, signed24 n = [a, b, c] ∧ signedI24 a b c = n := by
  have hlt : (n % 2 ^ 24).toNat < 2 ^ 24 := by omega
  have hb : ((n % 2 ^ 24).toNat : Int) = n % 2 ^ 24 := Int.toNat_of_nonneg (by omega)
  rw [signed24]
  generalize (n % 2 ^ 24).toNat = m at hlt hb
  refine ⟨UInt8.ofNat (m >>> 16), UInt8.ofNat (m >>> 8), UInt8.ofNat m, rfl, ?_⟩
  have hv := ofBe_be24 hlt
  rw [be24] at hv
  rw [signedI24]
  split <;> omega

theorem compositionTime_bounds (pts dts : UInt64) :
    -(2 ^ 23) ≤ compositionTime pts dts ∧ compositionTime pts dts < 2 ^ 23 := by
  rw [compositionTime]
  omega

theorem compositionTime_eq {pts dts : UInt64}
    (h : ((pts.toNat : Int) - dts.toNat).natAbs < 2 ^ 23) :
    compositionTime pts dts = (pts.toNat : Int) - dts.toNat := by
  have hb : Int.bmod ((pts.toNat : Int) - dts.toNat) (2 ^ 64) = (pts.toNat : Int) - dts.toNat :=
    Int.bmod_eq_of_le (by omega) (by omega)
  rw [compositionTime]
  omega

end MediaKit.Core
