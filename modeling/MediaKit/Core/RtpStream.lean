import MediaKit.Core.Rtp

/-!
# The packets of a track

What one call of `RtpPacketizer::packetize` sends: some payloads under one timestamp, numbered on
(`numbered`).

`packetize_returns_iff` says when a call comes to an end: `with_payload_mtu` takes sizes that leave
no room behind the head of a fragment. -/

namespace MediaKit.Core

open Lib List Option

/-- The NAL units of a video frame, as `packetize_video` finds them. -/
def videoNalus (frame : MediaFrame) : List Bytes :=
  if frame.codec = .h264 ∨ frame.codec = .h265 then
    match if frame.configFrame then videoConfigAnnexB frame else videoSampleAnnexB frame with
    | .ok annexB => annexBNalus annexB
    | .error _ => []
  else []

namespace RtpPacketizer

variable {p p' : RtpPacketizer} {frame : MediaFrame} {f : NaluFormat} {nalu : Bytes} {t : UInt32}
  {l : Bool} {out : RtpPacketizer × List Bytes}

theorem packetizeVideo_cases (p : RtpPacketizer) (frame : MediaFrame) :
    ((∃ e, p.packetizeVideo frame = .error (.error e)) ∧ videoNalus frame = []) ∨
      p.packetizeVideo frame = checked (packetizeNalus (packetizeNalu (formatOf frame.codec))
        (p.timestamp frame.timestamp) p (videoNalus frame)) := by
  unfold packetizeVideo videoNalus
  cases if frame.configFrame then videoConfigAnnexB frame else videoSampleAnnexB frame with
  | error e =>
    refine .inl ⟨?_, ite_self _⟩
    cases frame.codec <;> exact ⟨_, rfl⟩
  | ok annexB =>
    cases frame.codec with
    | h264 | h265 => exact .inr rfl
    | _ => exact .inl ⟨⟨_, rfl⟩, rfl⟩

theorem audioPayload_error {e : Stop RtpError} (h : audioPayload frame = .error e) :
    ∃ e', e = .error e' := by
  unfold audioPayload at h
  cases hc : frame.codec <;> rw [hc] at h
  case aac =>
    cases ha : aacRawPayload frame <;> rw [ha] at h <;> cases h
    exact ⟨_, rfl⟩
  all_goals
    cases h
    try exact ⟨_, rfl⟩

theorem packetizeAudio_cases (p : RtpPacketizer) (frame : MediaFrame) :
    (∃ e, p.packetizeAudio frame = .error (.error e)) ∨
    p.packetizeAudio frame = .ok (p, []) ∨ ∃ payload before, frame.configFrame = false ∧
      audioPayload frame = .ok (payload, before) ∧
      p.packetizeAudio frame = .ok
        (numbered (p.timestamp frame.timestamp) p [(true, before ++ payload)]) := by
  unfold packetizeAudio
  by_cases hc : frame.configFrame = true
  · exact .inr (.inl (if_pos hc))
  rw [if_neg hc]
  cases ha : audioPayload frame with
  | error e =>
    obtain ⟨e', rfl⟩ := audioPayload_error ha
    exact .inl ⟨e', rfl⟩
  | ok out =>
    obtain ⟨payload, before⟩ := out
    by_cases hnil : payload = []
    · exact .inr (.inl (if_pos hnil))
    · refine .inr (.inr ⟨payload, before, Bool.eq_false_iff.mpr hc, rfl, ?_⟩)
      show (if payload = [] then _ else _) = _
      rw [if_neg hnil]
      rfl

/-! ## A call comes to an end -/

/-- The payloads for the NAL units of a frame. -/
def payloadsOf (f : NaluFormat) (mtu : Nat) : List Bytes → List (Bool × Bytes)
  | [] => []
  | nalu :: nalus => f.payloads nalus.isEmpty (f.sending mtu nalu).pieces ++ payloadsOf f mtu nalus

theorem numbered_append {b : List (Bool × Bytes)} : ∀ {a : List (Bool × Bytes)} {p : RtpPacketizer},
    numbered t p (a ++ b) =
    ((numbered t (numbered t p a).1 b).1, (numbered t p a).2 ++ (numbered t (numbered t p a).1 b).2)
  | [], p => rfl
  | x :: a, p => by
    rw [cons_append, numbered, numbered_append]
    rfl

theorem packetizeNalus_of_room : ∀ {nalus : List Bytes} {p : RtpPacketizer},
    (∀ nalu ∈ nalus, f.HasRoom p.mtu nalu) →
    packetizeNalus (packetizeNalu f) t p nalus = some (numbered t p (payloadsOf f p.mtu nalus))
  | [], _, _ => rfl
  | nalu :: nalus, p, h => by
    obtain ⟨hnl, hns⟩ := forall_mem_cons.mp h
    have hm := @packetizeNalus_of_room nalus
      (numbered t p (f.payloads nalus.isEmpty (f.sending p.mtu nalu).pieces)).1
      (by rw [numbered_track]; exact hns)
    rw [packetizeNalus, packetizeNalu_of_room hnl, bind_eq_bind, bind_some, hm, payloadsOf,
      numbered_append, numbered_track]
    rfl

theorem hasRoom_of_packetizeNalus : ∀ {nalus : List Bytes} {p : RtpPacketizer}
    {out : RtpPacketizer × List Bytes},
    packetizeNalus (packetizeNalu f) t p nalus = some out → ∀ nalu ∈ nalus, f.HasRoom p.mtu nalu
  | [], _, _, _ => nofun
  | nalu :: nalus, p, out, h => by
    obtain ⟨one, ho, h⟩ := bind_eq_some_iff.mp h
    obtain ⟨more, hm, -⟩ := bind_eq_some_iff.mp h
    obtain ⟨sequence, hp⟩ := (packetizeNalu_spec ho).1
    have hal := hasRoom_of_packetizeNalus hm
    rw [hp] at hal
    exact forall_mem_cons.mpr ⟨hasRoom_of_packetizeNalu ho, hal⟩

/-- **When `packetize` returns**, whatever size was asked for: audio always, and video if every NAL
unit has room. -/
theorem packetize_returns_iff (p : RtpPacketizer) (mtu : Nat) (frame : MediaFrame) :
    (p.withPayloadMtu mtu).packetize frame ≠ .error .fault ↔
    (frame.frameType = .video → ∀ nalu ∈ videoNalus frame,
      (formatOf frame.codec).HasRoom (min (max mtu 1) 65523) nalu) := by
  cases hk : frame.frameType with
  | metadata =>
    refine iff_of_true ?_ fun h => by cases h
    rw [packetize, hk]
    intro h
    cases h
  | audio =>
    refine iff_of_true ?_ fun h => by cases h
    rw [packetize, hk]
    obtain ⟨e, h⟩ | h | ⟨_, _, -, -, h⟩ := packetizeAudio_cases (p.withPayloadMtu mtu) frame <;>
    · rw [h]
      intro hf
      cases hf
  | video =>
    rw [packetize, hk, forall_prop_of_true rfl]
    obtain ⟨⟨e, he⟩, hn⟩ | hs := packetizeVideo_cases (p.withPayloadMtu mtu) frame
    · rw [he, hn]
      exact iff_of_true (fun h => by cases h) (forall_mem_nil _)
    · rw [hs]
      cases ho : packetizeNalus (packetizeNalu (formatOf frame.codec))
        ((p.withPayloadMtu mtu).timestamp frame.timestamp)
          (p.withPayloadMtu mtu) (videoNalus frame) with
      | none =>
        refine iff_of_false (fun h => h rfl) fun ha => ?_
        rw [packetizeNalus_of_room ha] at ho
        cases ho
      | some out => exact iff_of_true (fun h => by cases h) (hasRoom_of_packetizeNalus ho)

/-- No room for a single octet of H.264: the loop does not move on. -/
theorem two_octets_stuck : ((RtpPacketizer.new 1 96 90000).withPayloadMtu 2).packetize
    ((MediaFrame.newVideo 0 .h264 0 0 0 [0, 0, 0, 1, 0x65, 1, 2] true).withPayloadFormat .annexB) =
      .error .fault := by
  decide +kernel

end RtpPacketizer

end MediaKit.Core
