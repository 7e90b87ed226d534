import MediaKit.Gb28181.RtpServer
import MediaKit.Rtsp.DepacketizerSafety

/-!
# RTP packets at the ingest

`handle_rtp` of `RtpDepacketizer` takes off the fixed header and the contributing sources. The
receiver of `rtp_server.rs` takes off the header extension and the padding too, so the two agree on
packets with neither (`payloads_agree_iff`). -/

namespace MediaKit.Rtsp.Push

open Lib MediaKit.Core List

/-! ## The header -/

/-- A packet of version 2 whose header extension and padding are as long as they say. -/
structure RtpPacket where
  first : UInt8
  second : UInt8
  -- sequence number, timestamp and source
  fields : Bytes
  csrc : Bytes
  ext : Bytes
  payload : Bytes
  padding : Bytes
  version : first >>> 6 = 2
  fields_length : fields.length = 10
  csrc_length : csrc.length = (first &&& 0x0F).toNat * 4
  ext_flag : (first >>> 4) &&& 0x1 = 1 ↔ ext ≠ []
  ext_length : ext ≠ [] → ext.length = 4 + ofBe ((ext.drop 2).take 2) * 4
  padding_flag : (first >>> 5) &&& 0x1 = 1 ↔ padding ≠ []
  padding_length : padding ≠ [] → (padding.getLast?.getD 0).toNat = padding.length
  payload_ne_nil : payload ≠ []

namespace RtpPacket

variable (p : RtpPacket)

/-- The fixed header and the contributing sources. -/
def header : Bytes := p.first :: p.second :: (p.fields ++ p.csrc)

def bytes : Bytes := p.header ++ (p.ext ++ (p.payload ++ p.padding))

theorem length_header : p.header.length = 12 + (p.first &&& 0x0F).toNat * 4 := by
  rw [header, length_cons, length_cons, length_append, p.fields_length, p.csrc_length]
  omega

/-- The receiver of `rtp_server.rs` finds the payload. -/
theorem payloadOf_bytes : Gb28181.payloadOf p.bytes = p.payload := by
  have hf : p.bytes.getD 0 0 = p.first := rfl
  have hb : (if (p.first >>> 4) &&& 0x1 = 1 ∧ 12 + (p.first &&& 0x0F).toNat * 4 + 4 ≤
    p.bytes.length then
        12 + (p.first &&& 0x0F).toNat * 4 + 4 + ofBe
          ((p.bytes.drop (12 + (p.first &&& 0x0F).toNat * 4 + 2)).take 2) * 4
      else 12 + (p.first &&& 0x0F).toNat * 4) = p.header.length + p.ext.length := by
    rw [← p.length_header]
    by_cases he : p.ext = []
    · rw [if_neg fun h => p.ext_flag.mp h.1 he, he, length_nil, add_zero]
    · have hlen := p.ext_length he
      have ht : (p.bytes.drop (p.header.length + 2)).take 2 = (p.ext.drop 2).take 2 := by
        rw [bytes, drop_length_add_append, drop_append_of_le_length (by omega),
          take_append_of_le_length (by rw [length_drop]; omega)]
      rw [if_pos ⟨p.ext_flag.mpr he, by rw [bytes, length_append, length_append]; omega⟩, ht]
      omega
  rw [Gb28181.payloadOf, hf, hb, bytes, drop_length_add_append, drop_left]
  by_cases hp : p.padding = []
  · rw [if_neg fun h => p.padding_flag.mp h.1 hp, hp, append_nil]
  · have hls : ((p.payload ++ p.padding).getLast?.getD 0).toNat = p.padding.length := by
      rw [getLast?_append_of_ne_nil _ hp, p.padding_length hp]
    rw [hls, length_append, Nat.add_sub_cancel, if_pos ⟨p.padding_flag.mpr hp, Nat.le_add_left _ _⟩,
      take_left]

/-- `RtpDepacketizer` hands on everything behind the contributing sources. -/
theorem arrived_bytes {d : RtpDepacketizer} {channel : UInt8} {media : FrameType}
    (hm : d.mediaOf (p.second &&& 0x7F) channel = some media) :
    (d.arrived channel p.bytes).map (·.data) = some (p.ext ++ (p.payload ++ p.padding)) := by
  have hf : p.bytes.getD 0 0 = p.first := rfl
  have hs : p.bytes.getD 1 0 = p.second := rfl
  have hpos := length_pos_iff.mpr p.payload_ne_nil
  rw [RtpDepacketizer.arrived, hf, hs, hm, mul_comm 4, ← p.length_header,
    if_neg (by rw [bytes, length_append, length_append, length_append]; omega)]
  exact congrArg some drop_left

end RtpPacket

/-- **The two parsers agree** on the packets without header extension and padding. What `handleRtp`
hands on is `arrived` (`handleRtp_eq`). -/
theorem payloads_agree_iff (p : RtpPacket) {d : RtpDepacketizer} {channel : UInt8}
    {media : FrameType} (hmedia : d.mediaOf (p.second &&& 0x7F) channel = some media) :
    (d.arrived channel p.bytes).map (·.data) = some (Gb28181.payloadOf p.bytes) ↔ p.ext = [] ∧
    p.padding = [] := by
  rw [p.payloadOf_bytes, p.arrived_bytes hmedia, Option.some.injEq]
  constructor
  · intro heq
    have hlen := congrArg length heq
    rw [length_append, length_append] at hlen
    exact ⟨eq_nil_of_length_eq_zero (by omega), eq_nil_of_length_eq_zero (by omega)⟩
  · rintro ⟨hex, hp⟩
    rw [hex, hp, append_nil, nil_append]

/-- The depacketizer of a video track, where the source gives none of its parameter sets. -/
def videoTrack : RtpDepacketizer := .new .default 0 2 (some .video)

theorem plain_agrees :
    ∃ p : RtpPacket, p.payload = [0x41] ∧
      (videoTrack.arrived 0 p.bytes).map (·.data) = some (Gb28181.payloadOf p.bytes) := by
  let p : RtpPacket := ⟨0x80, 96, replicate 10 0, [], [], [0x41], [], rfl, rfl,
    rfl, by decide, nofun, by decide, nofun, nofun⟩
  exact ⟨p, rfl, (@payloads_agree_iff p videoTrack 0 .video rfl).mpr ⟨rfl, rfl⟩⟩

/-- Padding arrives as payload. -/
theorem padding_delivered :
    ∃ p : RtpPacket, p.payload = [0x41] ∧
      (videoTrack.arrived 0 p.bytes).map (·.data) = some [0x41, 0x01] ∧
      Gb28181.payloadOf p.bytes = [0x41] :=
  ⟨⟨0xA0, 96, replicate 10 0, [], [], [0x41], [1], rfl, rfl,
    rfl, by decide, nofun, by decide, fun _ => rfl, nofun⟩,
    rfl, rfl, rfl⟩

end MediaKit.Rtsp.Push
