import MediaKit.Core.Frame

/-!
# Payload representations

`crates/core/src/payload.rs`: what a frame carries, taken out of the representation that
its publisher chose. The muxers ask here for decoder configurations, samples and access
units, and get either the bytes or an error.

Mirroring notes vs the Rust source:
  * A loop over positions is a recursion over the bytes that are left; where a round can
    take more than one byte, their number bounds the rounds.
  * `flv_payload` is in `MediaKit.Core.FlvPayload`.
-/

namespace MediaKit.Core

open Lib

/-- The errors of `payload.rs`. -/
inductive Error where
  | codec (text : String)
  | unsupported (text : String)
  deriving DecidableEq

/-- The `Debug` text of a codec. -/
def CodecId.debug : CodecId → String
  | .h264 => "H264" | .h265 => "H265" | .aac => "AAC" | .g711a => "G711A" | .g711u => "G711U"
  | .opus => "Opus" | .mp3 => "Mp3" | .l16 => "L16" | .vp8 => "VP8" | .vp9 => "VP9" | .av1 => "AV1"
  | .jpeg => "JPEG" | .mp2v => "MP2V" | .mp2a => "MP2A"
  | .unknown n => "Unknown(" ++ toString n.toNat ++ ")"

/-- The `Debug` text of a payload format. -/
def PayloadFormat.debug : PayloadFormat → String
  | .unknown => "Unknown" | .flv => "Flv" | .avcc => "Avcc" | .hvcc => "Hvcc" | .annexB => "AnnexB"
  | .aacAudioSpecificConfig => "AacAudioSpecificConfig" | .aacRaw => "AacRaw" | .adts => "Adts"
  | .opus => "Opus" | .raw => "Raw" | .amf0 => "Amf0"

def flvVideoHeaderLen : Nat := 5

def flvAudioHeaderLen : Nat := 2

/-! ## Which representation -/

variable (data : Bytes)

def startsWithAnnexB : Bool := data.take 3 = [0, 0, 1] || data.take 4 = [0, 0, 0, 1]

def isAdts : Bool :=
  decide (7 ≤ data.length) && data.getD 0 0 == 0xFF && data.getD 1 0 &&& 0xF6 == 0xF0

variable (frame : MediaFrame)

def declaredOrDetectedVideoFormat : PayloadFormat :=
  if frame.payloadFormat ≠ .unknown then frame.payloadFormat
  else
    let data := frame.data
    if startsWithAnnexB data then .annexB
    else if flvVideoHeaderLen ≤ data.length ∧
        (data.getD 0 0 &&& 0x0F = 7 ∨ data.getD 0 0 &&& 0x0F = 12) ∧ data.getD 1 0 &&& 0x0F ≤ 1 then
      .flv
    else if frame.codec = .h265 then .hvcc
    else .avcc

def declaredOrDetectedAacFormat : PayloadFormat :=
  if frame.payloadFormat ≠ .unknown then frame.payloadFormat
  else
    let data := frame.data
    if 2 ≤ data.length ∧ data.getD 0 0 >>> 4 = 10 ∧ data.getD 1 0 ≤ 1 then .flv
    else if isAdts data then .adts
    else if frame.configFrame then .aacAudioSpecificConfig
    else .aacRaw

/-! ## Annex-B and length prefixes -/

def annexBStartCode : Bytes := [0, 0, 0, 1]

/-- The start codes of the bytes, which stand at `i`, each with where it ends. -/
def annexBStarts : Nat → Nat → Bytes → List (Nat × Nat)
  | 0, _, _ => []
  | fuel + 1, i, data =>
    if data.length < 3 then []
    else if data.take 4 = [0, 0, 0, 1] then (i, i + 4) :: annexBStarts fuel (i + 4) (data.drop 4)
    else if data.take 3 = [0, 0, 1] then (i, i + 3) :: annexBStarts fuel (i + 3) (data.drop 3)
    else annexBStarts fuel (i + 1) (data.drop 1)

/-- `annex_b_nalu_ranges`: from behind a start code to the next one or the end. -/
def annexBNaluRanges : List (Nat × Nat) :=
  let starts := annexBStarts data.length 0 data
  let ends := starts.tail.map Prod.fst ++ [data.length]
  ((starts.map Prod.snd).zip ends).filter fun range => range.1 < range.2

def annexBToLengthPrefixed : Except Error Bytes :=
  let ranges := annexBNaluRanges data
  if ranges.isEmpty then .error (.codec "Annex-B payload contains no NAL units")
  else
    .ok (ranges.flatMap fun range =>
      be32 (range.2 - range.1) ++ (data.take range.2).drop range.1)

/-- The loop of `length_prefixed_to_annex_b`. -/
def lengthPrefixedUnits : Nat → Bytes → Except Error Bytes
  | 0, data =>
    if data.isEmpty then .ok [] else .error (.codec "invalid length-prefixed video payload")
  | fuel + 1, data =>
    if 4 ≤ data.length then
      let len := ofBe (data.take 4)
      let rest := data.drop 4
      if len = 0 ∨ rest.length < len then .error (.codec "invalid length-prefixed NAL unit")
      else do
        let units ← lengthPrefixedUnits fuel (rest.drop len)
        return annexBStartCode ++ rest.take len ++ units
    else if data.isEmpty then .ok []
    else .error (.codec "invalid length-prefixed video payload")

def lengthPrefixedToAnnexB : Except Error Bytes := do
  let out ← lengthPrefixedUnits data.length data
  if out.isEmpty then .error (.codec "invalid length-prefixed video payload") else .ok out

/-! ## Video -/

/-- `video_decoder_config`: the configuration record, without an FLV header. -/
def videoDecoderConfig : Except Error Bytes :=
  if frame.codec ≠ .h264 ∧ frame.codec ≠ .h265 then
    .error (.unsupported ("video decoder config for " ++ frame.codec.debug))
  else
    let format := declaredOrDetectedVideoFormat frame
    let flvConfig := decide (format = .flv ∧ 1 < frame.data.length ∧
      frame.data.getD 1 0 &&& 0x0F = 0)
    if !frame.configFrame && !flvConfig then
      .error (.codec "expected a video configuration frame")
    else
      let other : Except Error Bytes := .error (.unsupported
        ("cannot derive " ++ frame.codec.debug ++ " decoder config from " ++ format.debug))
      match format with
      | .flv =>
        if frame.data.length ≤ flvVideoHeaderLen ∨ frame.data.getD 1 0 &&& 0x0F ≠ 0 then
          .error (.codec "invalid FLV video configuration payload")
        else .ok (frame.data.drop flvVideoHeaderLen)
      | .avcc => if frame.codec = .h264 then .ok frame.data else other
      | .hvcc => if frame.codec = .h265 then .ok frame.data else other
      | .unknown => .ok frame.data
      | _ => other

def videoSampleLengthPrefixed : Except Error Bytes :=
  if frame.configFrame then .error (.codec "expected a video media sample")
  else if frame.codec ≠ .h264 ∧ frame.codec ≠ .h265 then
    .error (.unsupported ("length-prefixed sample for " ++ frame.codec.debug))
  else
    match declaredOrDetectedVideoFormat frame with
    | .flv =>
      if frame.data.length ≤ flvVideoHeaderLen ∨ frame.data.getD 1 0 &&& 0x0F ≠ 1 then
        .error (.codec "invalid FLV video media payload")
      else .ok (frame.data.drop flvVideoHeaderLen)
    | .avcc | .hvcc | .unknown => .ok frame.data
    | .annexB => annexBToLengthPrefixed frame.data
    | other => .error (.unsupported
        ("cannot convert " ++ other.debug ++ " video payload to a length-prefixed sample"))

def videoSampleAnnexB : Except Error Bytes :=
  if frame.configFrame then .error (.codec "expected a video media sample")
  else
    match declaredOrDetectedVideoFormat frame with
    | .annexB => .ok frame.data
    | .flv => do
      let sample ← videoSampleLengthPrefixed frame
      lengthPrefixedToAnnexB sample
    | .avcc | .hvcc | .unknown => lengthPrefixedToAnnexB frame.data
    | other => .error (.unsupported ("cannot convert " ++ other.debug ++
      " video payload to Annex-B"))

/-- `append_u16_nalus`: `count` units behind 16-bit lengths, as Annex-B, and the rest. -/
def appendU16Nalus : Nat → Bytes → Except Error (Bytes × Bytes)
  | 0, data => .ok ([], data)
  | count + 1, data =>
    if data.length < 2 then .error (.codec "truncated AVC NAL length")
    else
      let len := ofBe (data.take 2)
      let rest := data.drop 2
      if rest.length < len then .error (.codec "truncated AVC NAL unit")
      else do
        let units ← appendU16Nalus count (rest.drop len)
        return (annexBStartCode ++ rest.take len ++ units.1, units.2)

/-- The units of one array of an HEVC record; those that are no parameter set are skipped. -/
def hevcNalus (nalType : UInt8) : Nat → Bytes → Except Error (Bytes × Bytes)
  | 0, data => .ok ([], data)
  | count + 1, data =>
    if data.length < 2 then .error (.codec "truncated HEVC NAL length")
    else
      let len := ofBe (data.take 2)
      let rest := data.drop 2
      if rest.length < len then .error (.codec "truncated HEVC NAL unit")
      else do
        let units ← hevcNalus nalType count (rest.drop len)
        let unit := if 32 ≤ nalType ∧ nalType ≤ 34 then annexBStartCode ++ rest.take len else []
        return (unit ++ units.1, units.2)

/-- The arrays of an HEVC record. -/
def hevcArrays : Nat → Bytes → Except Error Bytes
  | 0, _ => .ok []
  | count + 1, data =>
    if data.length < 3 then .error (.codec "truncated HEVC NAL array")
    else do
      let nalus ← hevcNalus (data.getD 0 0 &&& 0x3F) (ofBe ((data.drop 1).take 2)) (data.drop 3)
      let arrays ← hevcArrays count nalus.2
      return nalus.1 ++ arrays

/-- `video_config_annex_b`: the parameter sets of a configuration frame. -/
def videoConfigAnnexB : Except Error Bytes := do
  let config ← videoDecoderConfig frame
  let out ←
    match frame.codec with
    | .h264 =>
      if config.length < 6 then .error (.codec "invalid AVCDecoderConfigurationRecord")
      else do
        let sps ← appendU16Nalus (config.getD 5 0 &&& 0x1F).toNat (config.drop 6)
        match sps.2 with
        | [] => .error (.codec "missing AVC PPS count")
        | numPps :: rest => do
          let pps ← appendU16Nalus numPps.toNat rest
          pure (sps.1 ++ pps.1)
    | .h265 =>
      if config.length < 23 then .error (.codec "invalid HEVCDecoderConfigurationRecord")
      else hevcArrays (config.getD 22 0).toNat (config.drop 23)
    | codec => .error (.unsupported ("Annex-B decoder configuration for " ++ codec.debug))
  if out.isEmpty then .error (.codec "decoder configuration has no parameter sets") else .ok out

/-! ## AAC -/

def adtsHeaderLen : Except Error Nat :=
  if !isAdts data then .error (.codec "invalid ADTS payload")
  else .ok (if data.getD 1 0 &&& 0x01 ≠ 0 then 7 else 9)

def stripAdtsHeader : Except Error Bytes := do
  let headerLen ← adtsHeaderLen data
  if data.length ≤ headerLen then .error (.codec "ADTS frame contains no AAC payload")
  else .ok (data.drop headerLen)

def audioSpecificConfigFromAdts : Except Error Bytes := do
  let _ ← adtsHeaderLen data
  let profile := ((data.getD 2 0 >>> 6) &&& 0x03) + 1
  let frequencyIndex := (data.getD 2 0 >>> 2) &&& 0x0F
  let channels := ((data.getD 2 0 &&& 0x01) <<< 2) ||| ((data.getD 3 0 >>> 6) &&& 0x03)
  return [(profile <<< 3) ||| (frequencyIndex >>> 1), (frequencyIndex <<< 7) ||| (channels <<< 3)]

def aacAudioSpecificConfig : Except Error Bytes :=
  let format := declaredOrDetectedAacFormat frame
  let flvConfig := decide (format = .flv ∧ 1 < frame.data.length ∧ frame.data.getD 1 0 = 0)
  if frame.codec ≠ .aac ∨ !frame.configFrame && !flvConfig then
    .error (.codec "expected an AAC configuration frame")
  else
    match format with
    | .flv =>
      if frame.data.length ≤ flvAudioHeaderLen ∨ frame.data.getD 1 0 ≠ 0 then
        .error (.codec "invalid FLV AAC configuration payload")
      else .ok (frame.data.drop flvAudioHeaderLen)
    | .aacAudioSpecificConfig | .unknown => .ok frame.data
    | .adts => audioSpecificConfigFromAdts frame.data
    | other => .error (.unsupported
        ("cannot derive AAC AudioSpecificConfig from " ++ other.debug))

def aacRawPayload : Except Error Bytes :=
  if frame.codec ≠ .aac ∨ frame.configFrame then .error (.codec "expected an AAC media frame")
  else
    match declaredOrDetectedAacFormat frame with
    | .flv =>
      if frame.data.length ≤ flvAudioHeaderLen ∨ frame.data.getD 1 0 ≠ 1 then
        .error (.codec "invalid FLV AAC media payload")
      else .ok (frame.data.drop flvAudioHeaderLen)
    | .aacRaw | .unknown => .ok frame.data
    | .adts => stripAdtsHeader frame.data
    | other => .error (.unsupported ("cannot derive raw AAC payload from " ++ other.debug))

/-! ## Samples and configurations -/

theorem videoDecoderConfig_of_sample {f : MediaFrame} {data : Bytes}
    (h : videoSampleLengthPrefixed f = .ok data) :
    f.configFrame = false ∧ ∃ e, videoDecoderConfig f = .error e := by
  rw [videoSampleLengthPrefixed] at h
  cases hfl : f.configFrame with
  | true =>
    rw [hfl] at h
    cases h
  | false =>
    refine ⟨rfl, ?_⟩
    rw [hfl, if_neg Bool.false_ne_true] at h
    rw [videoDecoderConfig]
    split at h
    next hcd =>
      rw [if_pos hcd]
      exact ⟨_, rfl⟩
    next hcd =>
      rw [if_neg hcd]
      have hfv : decide (declaredOrDetectedVideoFormat f = .flv ∧ 1 < f.data.length ∧
          f.data.getD 1 0 &&& 0x0F = 0) = false := by
        refine decide_eq_false fun hcn => ?_
        rw [hcn.1] at h
        rw [if_pos (.inr (by rw [hcn.2.2]; decide))] at h
        cases h
      dsimp only
      rw [hfv, hfl]
      exact ⟨_, rfl⟩

theorem aacAudioSpecificConfig_of_sample {f : MediaFrame} {data : Bytes}
    (h : aacRawPayload f = .ok data) :
    f.configFrame = false ∧ ∃ e, aacAudioSpecificConfig f = .error e := by
  rw [aacRawPayload] at h
  split at h
  next => cases h
  next hn =>
    have hfl : f.configFrame = false := Bool.eq_false_iff.mpr fun ht => hn (.inr ht)
    have hfv : decide (declaredOrDetectedAacFormat f = .flv ∧ 1 < f.data.length ∧ f.data.getD 1 0 =
        0) = false := by
      refine decide_eq_false fun hc => ?_
      rw [hc.1] at h
      rw [if_pos (.inr (by rw [hc.2.2]; decide))] at h
      cases h
    refine ⟨hfl, ?_⟩
    rw [aacAudioSpecificConfig, hfv, hfl]
    exact ⟨_, if_pos (.inr rfl)⟩

/-! ## Frames for a muxer -/

/-- A frame with the AAC configuration. -/
structure AudioConfig (asc : Bytes) (f : MediaFrame) : Prop where
  kind : f.frameType = .audio
  codec : f.codec = .aac
  taken : (f.configFrame || isConfigFrame f) = true
  record : aacAudioSpecificConfig f = .ok asc

/-- The payload and the key-frame flag of a video sample. -/
def pushedVideoOf (f : MediaFrame) : Option (Bytes × Bool) :=
  if f.frameType = .video then (videoSampleLengthPrefixed f).toOption.map (·, f.keyFrame) else none

/-- The payload of an audio sample. -/
def pushedAudioOf (f : MediaFrame) : Option Bytes :=
  if f.frameType = .audio then (aacRawPayload f).toOption else none

/-- The timestamp of the first frame, where a recording begins. -/
def baseOf (frames : List MediaFrame) : UInt32 := (frames.head?.map (·.timestamp)).getD 0

end MediaKit.Core
