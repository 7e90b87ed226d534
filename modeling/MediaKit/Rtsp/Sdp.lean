import MediaKit.Core.Frame
import MediaKit.Lib.Checked

/-!
# The session description of a publisher

`crates/rtsp/src/session.rs`: `parse_sdp` reads payload types, codecs and decoder
configurations from the body of an ANNOUNCE.

Mirroring notes vs the Rust source:
  * A panic is `none`. The only one is in `hex_decode`, which cuts its text every two bytes
    without a look at the characters. It is reached with a configuration for AAC, and
    `HexFaults` says for which ones.
  * Positions in a text are what is left from them on.
  * The Base64 decoder is a parameter; it returns an error for what it cannot decode.
  * `to_lowercase` is the ASCII one. The names that are looked for consist of ASCII characters, and
    of the characters outside ASCII only the Kelvin sign and the dotted capital I have a lower case
    with one: a `k`, which no name has, and an `i` in front of a combining dot. -/

namespace MediaKit.Rtsp.Push

open Lib MediaKit.Core Option

structure SdpInfo where
  videoPt : UInt8
  audioPt : UInt8
  videoCodec : CodecId
  sps : Option Bytes
  pps : Option Bytes
  vps : Option Bytes
  audioConfig : Option Bytes
  audioSampleRate : UInt32
  deriving DecidableEq

def SdpInfo.default : SdpInfo := ⟨96, 97, .h264, none, none, none, none, 44100⟩

/-- `parse::<u8>().ok()`. -/
def parsePt (s : Str) : Option UInt8 := (parseUnsigned 256 s).map UInt8.ofNat

def extractParam (params key : Str) : Option Str :=
  ((params.splitOn ';').findSome? fun kv => stripPre (key ++ ['=']) (trim kv)).map trim

/-- The rounds of `hex_decode`: a round takes two bytes, and the text has an even number. -/
def hexPairs : Nat → Str → Option (Option Bytes)
  | 0, _ => some (some [])
  | n + 1, s =>
    match splitAtByte 2 s with
    | none => none
    | some (pair, rest) =>
      match parseHexByte pair with
      | none => some none
      | some byte => (hexPairs n rest).map fun out => out.map (byte :: ·)

def hexDecode (s : Str) : Option (Option Bytes) :=
  let s := trim s
  if byteLen s % 2 ≠ 0 then some none else hexPairs (byteLen s / 2) s

section Lines

variable (base64 : Str → Option Bytes)
  (info : SdpInfo) (rest : Str)

/-- `m=`: the payload type of a track. -/
def mediaLine : SdpInfo :=
  match splitWhitespace rest with
  | media :: _ :: _ :: pt :: _ =>
    match parsePt pt with
    | some pt =>
      if media = "video" then { info with videoPt := pt }
      else if media = "audio" then { info with audioPt := pt }
      else info
    | none => info
  | _ => info

/-- `a=rtpmap:`: the codec of video, the sample rate of audio. -/
def rtpmapLine : SdpInfo :=
  match splitWhitespace rest with
  | pt :: codec :: _ =>
    match parsePt pt with
    | some pt =>
      let codec := asciiLower codec
      if contains "h265" codec ∨ contains "hevc" codec then
        if pt = info.videoPt then { info with videoCodec := .h265 } else info
      else if (contains "mpeg4-generic" codec ∨ contains "aac" codec) ∧
          pt = info.audioPt then
        match (codec.splitOn '/')[1]?.bind (parseUnsigned (2 ^ 32)) with
        | some rate => { info with audioSampleRate := UInt32.ofNat rate }
        | none => info
      else info
    | none => info
  | _ => info

/-- The parameter sets of the video track. -/
def videoFmtp (params : Str) : SdpInfo :=
  if info.videoCodec = .h265 then
    let set := fun (key : String) (old : Option Bytes) =>
      match extractParam params key.toList with
      | some v => base64 (trim v)
      | none => old
    { info with
      vps := set "sprop-vps" info.vps
      sps := set "sprop-sps" info.sps
      pps := set "sprop-pps" info.pps }
  else
    match extractParam params "sprop-parameter-sets" with
    | some sets =>
      let part := fun i => (sets.splitOn ',')[i]?.bind fun s => base64 (trim s)
      { info with sps := part 0, pps := part 1 }
    | none => info

/-- The payload type and the parameters of an `a=fmtp:` line. -/
def fmtpParts : Option (UInt8 × Str) :=
  (splitOnce ' ' rest).bind fun p => (parsePt p.1).map fun pt => (pt, p.2)

/-- `a=fmtp:`: the decoder configurations. -/
def fmtpLine : Option SdpInfo :=
  match fmtpParts rest with
  | some (pt, params) =>
    if pt = info.videoPt then some (videoFmtp base64 info params)
    else if pt = info.audioPt then
      match extractParam params "config" with
      | some config => (hexDecode config).map fun bytes => { info with audioConfig := bytes }
      | none => some info
    else some info
  | none => some info

/-- One line of the description. -/
def sdpLine (line : Str) : Option SdpInfo :=
  let line := trim line
  match stripPre "m=" line with
  | some rest => some (mediaLine info rest)
  | none =>
    match stripPre "a=rtpmap:" line with
    | some rest => some (rtpmapLine info rest)
    | none =>
      match stripPre "a=fmtp:" line with
      | some rest => fmtpLine base64 info rest
      | none => some info

def parseSdp (body : Bytes) : Option SdpInfo :=
  (lines (Utf8.lossy body)).foldlM (sdpLine base64) SdpInfo.default

end Lines

/-! ## Where the parser faults -/

/-- The first pair that is not made of two one-byte characters, behind hexadecimal pairs only, does
not end at a character: it is no character of two bytes. -/
def HexFaults : Str → Prop
  | [] => False
  | [a] => a.utf8Size ≠ 2
  | a :: b :: rest =>
    if a.utf8Size = 1 ∧ b.utf8Size = 1 then (parseHexByte [a, b]).isSome = true ∧ HexFaults rest
    else a.utf8Size ≠ 2

theorem splitAtByte_of_ones {a b : Char} (ha : a.utf8Size = 1) (hb : b.utf8Size = 1) (rest : Str) :
    splitAtByte 2 (a :: b :: rest) = some ([a, b], rest) := by
  rw [splitAtByte, ha]
  rw [splitAtByte, hb, splitAtByte_zero]
  rfl

theorem splitAtByte_of_two {a : Char} (ha : a.utf8Size = 2) (rest : Str) :
    splitAtByte 2 (a :: rest) = some ([a], rest) := by
  rw [splitAtByte, ha, splitAtByte_zero]
  rfl

theorem hexDigit_of_two {a : Char} (ha : a.utf8Size = 2) : hexDigit a = none := by
  have hb : 0x7F < a.toNat := by
    unfold Char.utf8Size at ha
    dsimp only at ha
    split at ha
    · cases ha
    next h => exact Nat.not_le.mp fun hle => h (UInt32.le_iff_toNat_le.mpr hle)
  have hle : ∀ c : Char, c.toNat ≤ 0x7F → ¬ a ≤ c := fun c hc h =>
    absurd (UInt32.le_iff_toNat_le.mp h) (Nat.not_le.mpr (lt_of_le_of_lt hc hb))
  unfold hexDigit isDigit
  rw [if_neg (by simp [hle '9' (by decide)]), if_neg (fun h => hle 'f' (by decide) h.2),
    if_neg (fun h => hle 'F' (by decide) h.2)]

theorem parseHexByte_of_two {a : Char} (ha : a.utf8Size = 2) : parseHexByte [a] = none := by
  unfold parseHexByte
  simp [hexDigit_of_two ha]

/-- **The rounds fault** exactly on the texts that `HexFaults` describes. -/
theorem hexPairs_eq_none_iff : ∀ (s : Str), byteLen s % 2 = 0 →
    (hexPairs (byteLen s / 2) s = none ↔ HexFaults s)
  | [], _ => by
    show some (some []) = none ↔ False
    simp
  | [a], h => by
    have hlen : byteLen [a] = a.utf8Size := by rw [byteLen_cons]; rfl
    have hpos := a.utf8Size_pos
    have hle := a.utf8Size_le_four
    rw [hlen] at h ⊢
    unfold HexFaults
    by_cases ht : a.utf8Size = 2
    · rw [ht]
      rw [hexPairs, splitAtByte_of_two ht]
      simp [parseHexByte_of_two ht]
    · have hf : a.utf8Size = 4 := by omega
      rw [hf]
      rw [hexPairs, splitAtByte, hf]
      simp
  | a :: b :: rest, h => by
    have hlen : byteLen (a :: b :: rest) = a.utf8Size + (b.utf8Size + byteLen rest) := by
      rw [byteLen_cons, byteLen_cons]
    have hps := a.utf8Size_pos
    have hpb := b.utf8Size_pos
    obtain ⟨n, hn⟩ : ∃ n, byteLen (a :: b :: rest) / 2 = n + 1 :=
      ⟨byteLen (a :: b :: rest) / 2 - 1, by omega⟩
    rw [hn, hexPairs, HexFaults]
    by_cases hon : a.utf8Size = 1 ∧ b.utf8Size = 1
    · -- two characters of a byte each: a round that ends at a character
      have hr := hexPairs_eq_none_iff rest (by omega)
      have hnr : n = byteLen rest / 2 := by omega
      rw [if_pos hon, splitAtByte_of_ones hon.1 hon.2]
      dsimp only
      cases hb : parseHexByte [a, b] with
      | none => simp
      | some byte =>
        rw [map_eq_none_iff, hnr, hr]
        simp
    · rw [if_neg hon]
      by_cases ht : a.utf8Size = 2
      · rw [splitAtByte_of_two ht]
        simp [parseHexByte_of_two ht, ht]
      · -- the cut lies inside a character
        have hno : splitAtByte 2 (a :: b :: rest) = none := by
          rw [splitAtByte]
          by_cases hone : a.utf8Size = 1
          · rw [hone]
            show ((splitAtByte 1 (b :: rest)).map fun p => (a :: p.1, p.2)) = none
            rw [splitAtByte, if_neg (by omega)]
            rfl
          · exact if_neg (by omega)
        rw [hno]
        exact iff_of_true rfl ht

/-- The configuration for AAC that a line brings, given the payload types so far. -/
def configOf (info : SdpInfo) (line : Str) : Option Str :=
  let line := trim line
  if (stripPre "m=" line).isSome ∨ (stripPre "a=rtpmap:" line).isSome then none
  else
    ((stripPre "a=fmtp:" line).bind fmtpParts).bind fun p =>
      if p.1 ≠ info.videoPt ∧ p.1 = info.audioPt then extractParam p.2 "config" else none

/-- A line whose configuration can be cut every two bytes, as far as it is read. -/
def LineOk (info : SdpInfo) (line : Str) : Prop :=
  ∀ config, configOf info line = some config → byteLen (trim config) % 2 = 0 →
    ¬ HexFaults (trim config)

theorem isSome_hexDecode_iff (s : Str) :
    (hexDecode s).isSome = true ↔ (byteLen (trim s) % 2 = 0 → ¬ HexFaults (trim s)) := by
  unfold hexDecode
  by_cases he : byteLen (trim s) % 2 = 0
  · rw [if_neg (not_not_intro he), isSome_iff_ne_none, ne_eq, hexPairs_eq_none_iff _ he]
    exact ⟨fun h _ => h, fun h => h he⟩
  · rw [if_pos he]
    exact iff_of_true rfl fun h => absurd h he

/-- **One line** faults exactly at its configuration. -/
theorem isSome_sdpLine_iff (base64 : Str → Option Bytes) (info : SdpInfo) (line : Str) :
    (sdpLine base64 info line).isSome = true ↔ LineOk info line := by
  unfold sdpLine LineOk configOf
  dsimp only
  cases stripPre "m=" (trim line) with
  | some rest => simp
  | none =>
    cases stripPre "a=rtpmap:" (trim line) with
    | some rest => simp
    | none =>
      cases stripPre "a=fmtp:" (trim line) with
      | none => simp
      | some rest =>
        dsimp only
        rw [if_neg (by simp), bind_some]
        unfold fmtpLine
        cases fmtpParts rest with
        | none => simp
        | some p =>
          obtain ⟨pt, params⟩ := p
          dsimp only
          rw [bind_some]
          by_cases hv : pt = info.videoPt
          · simp [hv]
          · by_cases ha : pt = info.audioPt
            · rw [if_neg hv, if_pos ha, if_pos ⟨hv, ha⟩]
              cases extractParam params "config" with
              | none => simp
              | some config =>
                dsimp only
                rw [isSome_map, isSome_hexDecode_iff]
                constructor
                · intro h config' heq
                  rwa [← some.inj heq]
                · exact fun h => h config rfl
            · simp [hv, ha]

/-- **The parser** comes to its end exactly if all configurations can be cut. -/
theorem isSome_parseSdp_iff (base64 : Str → Option Bytes) (body : Bytes) :
    (parseSdp base64 body).isSome = true ↔
      Along (sdpLine base64) LineOk SdpInfo.default (lines (Utf8.lossy body)) :=
  @isSome_foldlM_iff _ _ _ _ (fun _ => True)
    (fun info line _ => isSome_sdpLine_iff base64 info line) (fun _ _ _ _ _ => trivial) _ _ trivial

end MediaKit.Rtsp.Push
