import MediaKit.Core.Rtp
import MediaKit.Lib.LengthPrefixed

/-!
# The H.264 depacketizer of WHIP

`crates/webrtc/src/h264_rtp.rs`: `H264RtpDepacketizer` turns RTP payloads into NAL units behind
start codes. Unlike the depacketizer of RTSP it returns every NAL unit as soon as it is complete.

`push_encode` is its step: it collects pieces as `Lib.Fragments` describes, behind a start code, and
a fragment without a beginning is discarded.

Mirroring notes vs the Rust source:
  * The loop over an aggregation packet is `prefixedUnits`.
  * The payload is what the packet has behind its header; `&payload[2..]` follows the test for two
    octets. -/

namespace MediaKit.Webrtc

open Lib MediaKit.Core List Option

structure H264RtpDepacketizer where
  fuNalu : Bytes
  fuActive : Bool
  deriving DecidableEq

namespace H264RtpDepacketizer

variable {buf : Option Bytes} {d : H264RtpDepacketizer}

def new : H264RtpDepacketizer := ⟨[], false⟩

/-- A fragment is added to the NAL unit, or discarded. -/
def extend (d : H264RtpDepacketizer) (payload : Bytes) : Option H264RtpDepacketizer :=
  let fuHeader := payload.getD 1 0
  if fuHeader &&& 0x80 ≠ 0 then
    let reconstructed := (payload.getD 0 0 &&& 0xE0) ||| (fuHeader &&& 0x1F)
    some ⟨annexBStartCode ++ [reconstructed] ++ payload.drop 2, true⟩
  else if d.fuActive then some ⟨d.fuNalu ++ payload.drop 2, true⟩
  else none

def push (d : H264RtpDepacketizer) (payload : Bytes) : H264RtpDepacketizer × Option Bytes :=
  let naluType := payload.getD 0 0 &&& 0x1F
  if payload = [] then (d, none)
  else if naluType = 28 then
    if payload.length < 2 then (d, none)
    else
      match d.extend payload with
      | none => (d, none)
      | some d' => if payload.getD 1 0 &&& 0x40 ≠ 0 then (⟨[], false⟩, some d'.fuNalu)
        else (d', none)
  else if naluType = 24 then
    let out := (prefixedUnits 2 payload.length (payload.drop 1)).1.flatMap fun nalu =>
      annexBStartCode ++ nalu
    (d, if out = [] then none else some out)
  else (d, some (annexBStartCode ++ payload))

/-- What the depacketizer holds of a NAL unit. -/
def held (d : H264RtpDepacketizer) : Option Bytes := if d.fuActive then some d.fuNalu else none

/-- A piece that is read as what it is. -/
def Readable : Piece UInt8 → Prop
  | .whole u => u ≠ [] ∧ u.getD 0 0 &&& 0x1F ≠ 24 ∧ u.getD 0 0 &&& 0x1F ≠ 28
  | .part head _ _ _ => head.length = 1

/-- A fragment opens the NAL unit or is added to the one that is open. -/
theorem extend_fragment (hb : d.held = buf.map (annexBStartCode ++ ·)) (b : UInt8)
    (start stop : Bool) (body : Bytes) :
    d.extend (((b &&& 0xE0) ||| 28) :: fuHeader (b &&& 0x1F) start stop :: body) =
      ((if start then some [b] else buf).map (· ++ body)).map fun x =>
        ⟨annexBStartCode ++ x, true⟩ := by
  obtain ⟨-, hh, hl⟩ := h264_head b
  obtain ⟨hs, -, -⟩ := fuHeader_bits start stop _ hl
  have hfu := fuHeader_type start stop b
  rw [extend]
  simp only [getD_cons_succ, getD_cons_zero, hfu, hh]
  cases start with
  | true =>
    rw [if_pos (hs.mpr rfl)]
    rfl
  | false =>
    rw [if_neg (fun h => Bool.false_ne_true (hs.mp h))]
    rw [held] at hb
    cases hac : d.fuActive with
    | true =>
      rw [hac] at hb
      obtain ⟨x, hx, hn⟩ := map_eq_some_iff.mp hb.symm
      rw [hx, ← hn]
      rfl
    | false =>
      rw [hac] at hb
      rw [map_eq_none_iff.mp hb.symm]
      rfl

/-- **A payload.** -/
theorem push_encode (hb : d.held = buf.map (annexBStartCode ++ ·))
    {piece : Piece UInt8} (hp : Readable piece) :
    (d.push (h264Format.encode piece)).1.held =
      (collect none buf piece).1.map (annexBStartCode ++ ·) ∧
      (d.push (h264Format.encode piece)).2.toList =
        (collect none buf piece).2.map (annexBStartCode ++ ·) := by
  cases piece with
  | whole u =>
    obtain ⟨hne, hag, hf⟩ := hp
    have he : h264Format.encode (.whole u) = u := rfl
    rw [he, push, if_neg hne, if_neg hf, if_neg hag]
    exact ⟨hb, rfl⟩
  | part head start stop body =>
    obtain ⟨b, rfl⟩ := length_eq_one_iff.mp hp
    obtain ⟨ht, -, hl⟩ := h264_head b
    obtain ⟨-, hs, -⟩ := fuHeader_bits start stop _ hl
    have hex := extend_fragment hb b start stop body
    have he : h264Format.encode (.part [b] start stop body) =
        ((b &&& 0xE0) ||| 28) :: fuHeader (b &&& 0x1F) start stop :: body := rfl
    rw [he, push, if_neg (cons_ne_nil _ _), getD_cons_zero, if_pos ht, if_neg (by simp), hex,
      getD_cons_succ, getD_cons_zero, collect]
    generalize ho : (if start then some [b] else buf) = open'
    cases open' with
    | none =>
      -- nothing is open, and nothing was
      have hno : buf = none := by
        cases start with
        | true => cases ho
        | false => exact ho
      rw [hno] at hb
      cases stop <;> exact ⟨hb, rfl⟩
    | some x =>
      cases stop with
      | true =>
        simp only [map_some]
        rw [if_pos (hs.mpr rfl)]
        exact ⟨rfl, rfl⟩
      | false =>
        simp only [map_some]
        rw [if_neg (fun h => Bool.false_ne_true (hs.mp h))]
        exact ⟨rfl, rfl⟩

end H264RtpDepacketizer

end MediaKit.Webrtc
