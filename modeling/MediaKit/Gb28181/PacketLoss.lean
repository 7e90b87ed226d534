import MediaKit.Gb28181.ElementaryStream

/-!
# Lost packets of an elementary stream

`handle_rtp` does not look at sequence numbers. Whether the fragments in `fu_buf` belong together it
judges by the marks on the first and the last one alone: a fragment that was lost in between is not
missed, and H.264 does not even wait for a first one.

A unit is handed on in part exactly if its last fragment arrives, another one was lost, and the
buffer then holds enough to be published (`unspliced_iff_unbroken`). -/

namespace MediaKit.Gb28181

open Lib MediaKit.Core List RtpPacketizer

variable {P T : Type} (demux : Demuxers P T) {r : RtpStreamReceiver} {codec : CodecId}
  {groups : List (Bytes × List Bytes)} {p : RtpPacketizer} {calls : List NaluCall}

theorem handleAll_eq_runLog (d : Depacketizer P T) (packets : List Bytes) :
    handleAll demux r d packets = runLog (handleRtp demux r) d packets := by
  induction packets generalizing d with
  | nil => rfl
  | cons packet packets ih =>
    rw [handleAll, runLog, ih]

/-- `publish_video` drops what is too short for a NAL unit behind a start code. -/
theorem data_publishVideos (ptsMs : UInt64) (us : List Bytes) : ∀ videoCodec : CodecId,
    (publishVideos ptsMs videoCodec us).2.map MediaFrame.data = us.filter fun u =>
      5 ≤ u.length := by
  induction us with
  | nil => exact fun _ => rfl
  | cons u us ih =>
    intro videoCodec
    rw [publishVideos, map_append, ih, publishVideo]
    split
    next hs => rw [filter_cons_of_neg (by simpa using hs)]; rfl
    next hl => rw [filter_cons_of_pos (by simpa using hl)]; rfl

/-- Every frame that a NAL unit's packets publish is that unit, and none of them was lost. -/
def Unspliced (r : RtpStreamReceiver) (keep : Nat → Nat → Bool)
    (groups : List (Bytes × List Bytes)) : Prop :=
  ∀ a ∈ arrivals (handleRtp demux r) (.new demux) keep groups, ∀ f ∈ a.out,
    f.data = startCode ++ a.sent ∧ a.complete = true

/-- Every frame that is published is one of the NAL units. -/
def OnlyOriginals (r : RtpStreamReceiver) (keep : Nat → Nat → Bool)
    (groups : List (Bytes × List Bytes)) : Prop :=
  ∀ f ∈ (handleAll demux r (.new demux) (keptEach keep groups)).2, ∃ n ∈ groups.map Prod.fst,
    f.data = startCode ++ n

theorem Unspliced.onlyOriginals {keep : Nat → Nat → Bool}
    (h : Unspliced demux r keep groups) : OnlyOriginals demux r keep groups := by
  intro f hf
  rw [handleAll_eq_runLog, ← flatMap_arrivals, mem_flatMap] at hf
  obtain ⟨a, ha, hf⟩ := hf
  refine ⟨a.sent, ?_, (h a ha f hf).1⟩
  rw [← map_sent_arrivals (handleRtp demux r) (.new demux) keep]
  exact mem_map_of_mem ha

def CarriesPiece (p : RtpPacketizer) (codec : CodecId) (packet : Bytes) (piece : Piece UInt8) :
    Prop :=
  ∃ plain timestamp marker, Legible codec plain ∧
    p.Carries timestamp marker ((formatOf codec).encode plain) packet ∧
    piece = plain.behind startCode

theorem handleRtp_carriesPiece (hr : OpenedFor r codec) (hx : Accepts r p.ssrc)
    {d : Depacketizer P T} {buf : Option Bytes} {packet : Bytes} {piece : Piece UInt8}
    (hb : held codec d = buf) (h : CarriesPiece p codec packet piece) :
    held codec (handleRtp demux r d packet).1 = (collect (idle codec) buf piece).1 ∧
      (handleRtp demux r d packet).2.map MediaFrame.data = (collect (idle codec) buf piece).2.filter
        fun u => 5 ≤ u.length := by
  obtain ⟨plain, timestamp, marker, hp, hc, rfl⟩ := h
  subst hb
  have hs := handleRtp_carries demux hr hx hp hc d
  refine ⟨held_collect (hr.imp And.left And.left) d _ plain (by rw [hs]; rfl), ?_⟩
  rw [hs]
  exact data_publishVideos _ _ _

theorem alike_of_answers (h : Forall₂ (p.Answers (formatOf codec)) calls groups) :
    ∀ {keep : Nat → Nat → Bool}, NoneStructured p codec keep calls →
      Alike (fun sent unit => unit = startCode ++ sent) (CarriesPiece p codec) keep groups
        ((calls.map fun c => ((formatOf codec).sending p.mtu c.nalu).behind startCode).map fun s =>
          (s.unit, s.pieces)) := by
  induction h with
  | nil => exact fun _ => .nil
  | @cons c group calls groups hg _ ih =>
    intro keep hpl
    obtain ⟨hs, hu, hc⟩ := hg
    rw [map_cons, map_cons]
    refine .cons ?_ ?_ ?_ (ih fun k => hpl (k + 1))
    · rw [unit_behind, hu, hs]
    · rw [pieces_behind, length_map]
      exact (Forall₂.length_eq hc).symm
    · rw [pieces_behind, kept_map, forall₂_map_right_iff]
      have hk := forall₂_kept hc (keep 0)
      have hl : ∀ piece ∈ kept (keep 0) ((formatOf codec).sending p.mtu c.nalu).pieces,
          Legible codec piece := by
        intro piece hpc
        have hmem := mem_of_mem_kept hpc
        refine legible_pieces hmem fun hf => hpl 0 c rfl ?_ hf
        rw [pieces_of_fits (mem_pieces_sending hmem).1 hf] at hpc
        exact keep_of_mem_kept hpc
      have hb := (forall₂_and_left _ _).mpr ⟨hl, hk⟩
      exact (hb.imp fun piece packet hp => ⟨piece, _, _, hp.1, hp.2, rfl⟩).flip

/-- At a receiver that takes the source, the losses break no unit that would be published. -/
def Intact (r : RtpStreamReceiver) (p : RtpPacketizer) (codec : CodecId) (keep : Nat → Nat → Bool)
    (calls : List NaluCall) : Prop :=
  Accepts r p.ssrc → Unbroken 5 ((idle codec).map List.length) ((idle codec).map List.length) keep
    (calls.map fun c => ((formatOf codec).sending p.mtu c.nalu).behind startCode)

theorem unspliced_of_foreign (hx : ¬ Accepts r p.ssrc)
    (h : Forall₂ (p.Answers (formatOf codec)) calls groups)
    (keep : Nat → Nat → Bool) : Unspliced demux r keep groups := by
  have hs : ∀ g ∈ groups, ∀ packet ∈ g.2, ∀ d : Depacketizer P T,
      (handleRtp demux r d packet).2 = [] := by
    intro g hg packet hp d
    obtain ⟨c, -, han⟩ := exists_mem_of_forall₂ h hg
    obtain ⟨piece, -, sequence, rfl⟩ := exists_mem_of_forall₂ han.2.2 hp
    rw [handleRtp_foreign demux r _ _ _ _ _ _ hx]
  intro a ha f hf
  rw [arrivals_silent hs a ha] at hf
  cases hf

/-- **Lost packets.** Nothing but NAL units of which no packet was lost is published exactly if the
losses break no unit: where the last fragment of a unit arrives and the buffer then holds enough to
publish, all of the unit arrived. -/
theorem unspliced_iff_unbroken (hr : OpenedFor r codec) {p p' : RtpPacketizer}
    {calls : List RtpPacketizer.NaluCall} {groups : List (Bytes × List Bytes)}
    (h : packetizeCalls (packetizeNalu (formatOf codec)) p calls = some (p', groups))
    {keep : Nat → Nat → Bool} (hplain : NoneStructured p codec keep calls) :
    (Unspliced demux r keep groups ↔ Intact r p codec keep calls) ∧
      (Intact r p codec keep calls → OnlyOriginals demux r keep groups) := by
  have hif : Unspliced demux r keep groups ↔ Intact r p codec keep calls := by
    obtain ⟨-, han⟩ := packetizeCalls_spec h
    by_cases hx : Accepts r p.ssrc
    · have hh : held codec (Depacketizer.new demux) = idle codec := by
        rcases hr with ⟨rfl, -⟩ | ⟨rfl, -⟩ <;> rfl
      have hsm := arrivals_sim (handleRtp demux r) (collect (idle codec))
        (R := fun d buf => held codec d = buf)
        (Q := fun frames us => frames.map MediaFrame.data = us.filter fun u => 5 ≤ u.length)
        rfl (fun ha hb => by rw [map_append, filter_append, ha, hb])
        (fun _ _ _ _ => handleRtp_carriesPiece demux hr hx) (alike_of_answers han hplain) hh
      rw [Intact, ← arrivals_intact_iff]
      refine Iff.trans (forall_mem_iff_of_forall₂ ?_ hsm) ⟨fun hal _ => hal, fun hal => hal hx⟩
      rintro a a' ⟨hsn, hc, ho⟩
      -- the frames are what is long enough of what comes out
      have hm : (∀ f ∈ a.out, f.data = startCode ++ a.sent ∧ a.complete = true) ↔
          ∀ x ∈ a.out.map MediaFrame.data, x = a'.sent ∧ a'.complete = true := by
        rw [forall_mem_map, hsn, hc]
      rw [hm, ho]
      exact forall_congr' fun x => by rw [mem_filter, decide_eq_true_iff, and_imp]
    · exact iff_of_true (unspliced_of_foreign demux hx han keep) fun hx' => absurd hx' hx
  exact ⟨hif, fun hin => (hif.mpr hin).onlyOriginals⟩

/-- A picture of thirteen octets. -/
def picture : Bytes := [0x65, 1, 2, 3, 4, 5, 6, 7, 8, 9, 10, 11, 12]

/-- Its three packets, with five octets of the picture in each. -/
def pictureGroups : List (Bytes × List Bytes) :=
  [(picture, [rtpHeader 96 false 0 3600 7 ++ [0x7C, 0x85, 1, 2, 3, 4, 5],
    rtpHeader 96 false 1 3600 7 ++ [0x7C, 0x05, 6, 7, 8, 9, 10], rtpHeader 96 true 2 3600 7 ++
    [0x7C, 0x45, 11, 12]])]

theorem packetizeCalls_picture :
    packetizeCalls packetizeH264Nalu ((new 7 96 90000).withPayloadMtu 7)
      [⟨picture, 3600, true⟩] = some (⟨7, 96, 3, 90000, 7⟩, pictureGroups) := by
  decide +kernel

/-- Without its last packet, nothing of the picture is published. -/
theorem onlyOriginals_without_last : OnlyOriginals noDemuxers ⟨.h264, some 7⟩
    (fun _ i => i != 2) pictureGroups := by
  refine (unspliced_iff_unbroken noDemuxers (.inl ⟨rfl, rfl⟩) packetizeCalls_picture ?_).2 ?_
  · intro k c hc _ hf
    cases k with
    | zero =>
      cases hc
      exact absurd hf (by decide)
    | succ k => cases hc
  · intro _
    exact trivial

/-- Without the packet in the middle, the first and the last part of the picture are published as a
NAL unit. -/
theorem not_onlyOriginals_without_middle :
    ¬ OnlyOriginals noDemuxers ⟨.h264, some 7⟩ (fun _ i => i != 1) pictureGroups := by
  intro h
  have hfr : (handleAll noDemuxers ⟨.h264, some 7⟩ (.new noDemuxers)
    (keptEach (fun _ i => i != 1) pictureGroups)).2.map
      MediaFrame.data = [startCode ++ [0x65, 1, 2, 3, 4, 5, 11, 12]] := by
    decide +kernel
  obtain ⟨f, hf, hd⟩ :=
    mem_map.mp (hfr ▸ mem_singleton_self (startCode ++ [0x65, 1, 2, 3, 4, 5, 11, 12]))
  obtain ⟨n, hn, hn'⟩ := h f hf
  rw [mem_singleton.mp hn, hd] at hn'
  exact absurd hn' (by decide)

end MediaKit.Gb28181
