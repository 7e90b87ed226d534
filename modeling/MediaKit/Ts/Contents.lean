import Mathlib.Data.List.GetD
import MediaKit.Core.Payload
import MediaKit.Ts.Demuxer

/-!
# Audio packets

What the demuxer takes out of an audio packet: `publish_audio` makes one frame of all the ADTS
frames in it, of which `aac_raw_payload` takes off the first header only (`adts_delivered_iff`). -/

namespace MediaKit.Ts

open Lib MediaKit.Core List

/-! ## Audio packets -/

/-- A complete ADTS frame: behind the header, of seven octets or with a checksum of nine, stands the
access unit, and the header says the length of both. -/
structure AdtsFrame where
  header : Bytes
  raw : Bytes
  sync : header.getD 0 0 = 0xFF ∧ header.getD 1 0 &&& 0xF6 = 0xF0
  headerLen : header.length = if header.getD 1 0 &&& 0x01 ≠ 0 then 7 else 9
  length : ((header.getD 3 0 &&& 0x03).toNat <<< 11) + ((header.getD 4 0).toNat <<< 3) +
    (header.getD 5 0 >>> 5).toNat = header.length + raw.length

def AdtsFrame.bytes (f : AdtsFrame) : Bytes := f.header ++ f.raw

theorem AdtsFrame.seven_le (f : AdtsFrame) : 7 ≤ f.header.length := by
  rw [f.headerLen]
  split <;> omega

/-- What is taken off in front of some bytes is the header, if anything is left. -/
theorem stripAdtsHeader_append (f : AdtsFrame) (t : Bytes) : stripAdtsHeader (f.header ++ t) =
    if t = [] then .error (.codec "ADTS frame contains no AAC payload") else .ok t := by
  have hs := f.seven_le
  have hg : ∀ i, i < 7 → (f.header ++ t).getD i 0 = f.header.getD i 0 := fun i hi =>
    getD_append _ _ _ _ (by omega)
  have had : isAdts (f.header ++ t) = true := by
    rw [isAdts, hg 0 (by decide), hg 1 (by decide), f.sync.1, f.sync.2]
    simpa using Nat.le_add_right_of_le hs
  rw [stripAdtsHeader, adtsHeaderLen, had, hg 1 (by decide), ← f.headerLen]
  show (if (f.header ++ t).length ≤ f.header.length then _
    else Except.ok ((f.header ++ t).drop f.header.length)) = _
  simp

/-- **Every access unit of a packet is delivered** exactly if there is one, and it is not empty. -/
theorem adts_delivered_iff (frames : List AdtsFrame) (hne : frames ≠ []) (pts dts : Option UInt64)
    (fallback : UInt32) :
    (publishAudio (frames.flatMap AdtsFrame.bytes) pts dts fallback).2.map aacRawPayload =
      frames.map (fun f => .ok f.raw) ↔
      ∃ f, frames = [f] ∧ f.raw ≠ [] := by
  obtain ⟨f, fs, rfl⟩ := exists_cons_of_ne_nil hne
  have hsv := f.seven_le
  have hd : (f :: fs).flatMap AdtsFrame.bytes = f.header ++ (f.raw ++ fs.flatMap AdtsFrame.bytes) :=
    append_assoc ..
  have hsy : f.header.getD 1 0 &&& 0xF0 = 0xF0 := by
    have han := congrArg (· &&& 0xF0) f.sync.2
    rwa [UInt8.and_assoc] at han
  -- one frame is published, with the whole payload
  have ho : (publishAudio ((f :: fs).flatMap AdtsFrame.bytes) pts dts fallback).2.map
    aacRawPayload =
      [stripAdtsHeader (f.header ++ (f.raw ++ fs.flatMap AdtsFrame.bytes))] := by
    rw [hd, publishAudio, if_neg (by rw [length_append]; omega), if_pos]
    · rfl
    · rw [getD_append _ _ _ _ (by omega), getD_append _ _ _ _ (by omega)]
      exact ⟨f.sync.1, hsy⟩
  rw [ho, stripAdtsHeader_append]
  cases fs with
  | nil => simp
  | cons g gs => simp

/-- A frame of one octet. -/
def tone (x : UInt8) : AdtsFrame :=
  ⟨[0xFF, 0xF1, 0x50, 0x80, 0x01, 0x1F, 0xFC], [x], ⟨rfl, rfl⟩, rfl, rfl⟩

theorem tone_delivered : (publishAudio ([tone 1].flatMap AdtsFrame.bytes) none none 0).2.map
    aacRawPayload = [.ok [1]] :=
  (adts_delivered_iff [tone 1] (cons_ne_nil _ _) none none 0).mpr ⟨tone 1, rfl, cons_ne_nil _ _⟩

/-- Two frames in a packet: the second one stays in the first access unit, with its header. -/
theorem tones_merged : (publishAudio ([tone 1, tone 2].flatMap AdtsFrame.bytes) none none 0).2.map
    aacRawPayload = [.ok (1 :: (tone 2).bytes)] := rfl

end MediaKit.Ts
