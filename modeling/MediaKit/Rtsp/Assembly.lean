import MediaKit.Core.Rtp
import MediaKit.Lib.AccessUnits
import MediaKit.Lib.Select
import MediaKit.Rtsp.DepacketizerSafety

/-!
# Access units at the depacketizer

The depacketizer collects the NAL units of a frame as `Lib.AccessUnits` describes: units from
fragments only behind a first fragment, and the frame at the packet with the marker. For H.264 the
marker of a fragment that is ignored is ignored too (`return` in `handle_video_rtp`), for H.265 it
counts.

`handleVideoRtp_brings` is the step of that correspondence (`Shows`): the frames that are published,
apart from configurations, are what is emitted, without parameter sets (`frameOf`). -/

namespace MediaKit.Rtsp.Push

open Lib MediaKit.Core List

/-! ## NAL units -/

/-- A parameter set, which goes into the configuration. -/
def isParam (codec : CodecId) (nalu : Bytes) : Bool :=
  if codec = .h265 then ([32, 33, 34] : Bytes).contains ((nalu.getD 0 0 >>> 1) &&& 0x3F)
  else ([7, 8] : Bytes).contains (nalu.getD 0 0 &&& 0x1F)

/-- A picture that does not depend on others. -/
def isIdr (codec : CodecId) (nalu : Bytes) : Bool :=
  if codec = .h265 then decide ((19 : UInt8) ≤ (nalu.getD 0 0 >>> 1) &&& 0x3F ∧
    (nalu.getD 0 0 >>> 1) &&& 0x3F ≤ 21)
  else decide (nalu.getD 0 0 &&& 0x1F = 5)

/-- The key flag: H.264 reads it from the last fragment, H.265 from the unit. -/
def marksOf (codec : CodecId) (head unit : Bytes) : Bool :=
  isIdr codec (if codec = .h265 then unit else head)

/-- The frame of some NAL units. -/
def naluFrame (codec : CodecId) (ts : UInt32) (nalus : List Bytes) (key : Bool) : MediaFrame :=
  let ms := ts / 90
  let first : UInt8 := if codec = .h265 then (if key then 0x1C else 0x2C)
    else (if key then 0x17 else 0x27)
  (MediaFrame.newVideo 0 codec ms ms.toUInt64 ms.toUInt64 ([first, 0x01, 0, 0, 0] ++
    lengthPrefixed nalus)
    key).withPayloadFormat .flv

/-- The frame of what is emitted; parameter sets alone are no frame. -/
def frameOf (codec : CodecId) (e : Emitted UInt32 UInt8) : Option MediaFrame :=
  let nalus := e.units.filter fun n => !isParam codec n
  if nalus = [] then none else some (naluFrame codec e.tag nalus e.key)

namespace RtpDepacketizer

/-- What never changes. -/
def setup (d : RtpDepacketizer) : UInt8 × UInt8 × UInt8 × UInt8 × Option FrameType × CodecId :=
  (d.videoPt, d.audioPt, d.videoChan, d.audioChan, d.forceMedia, d.videoCodec)

theorem mediaOf_setup {d d' : RtpDepacketizer} (h : d'.setup = d.setup) (pt channel : UInt8) :
    d'.mediaOf pt channel = d.mediaOf pt channel := by
  simp only [setup, Prod.mk.injEq] at h
  obtain ⟨hvp, hap, hvc, hac, hf, -⟩ := h
  rw [mediaOf, mediaOf, hvp, hap, hvc, hac, hf]

theorem codec_setup {d d' : RtpDepacketizer} (h : d'.setup = d.setup) :
    d'.videoCodec = d.videoCodec :=
  congrArg (fun s => s.2.2.2.2.2) h

/-! ## Completed frames -/

/-- The frames that are no configuration. -/
def samples (frames : List MediaFrame) : List MediaFrame := frames.filter fun f => !f.configFrame

theorem samples_append (frames frames' : List MediaFrame) :
    samples (frames ++ frames') = samples frames ++ samples frames' :=
  filter_append _ _

/-- The frames are the given ones and configurations from parameter sets that satisfy `S`. -/
abbrev Publishes (S : Bytes → Prop) (frames given : List MediaFrame) : Prop :=
  samples frames = given ∧ ∀ f ∈ frames, f.configFrame = true → IsConfig S f

/-- **A frame is completed.** -/
theorem emitVideoFrame_eq {S : Bytes → Prop} {d : RtpDepacketizer} {codec : CodecId}
    (hcd : IsH26x codec) (hd : d.videoCodec = codec) (hne : d.pendingNalus ≠ [])
    (hfl : [] ∉ d.pendingNalus) (hS : ∀ x ∈ d.params, S x) :
    ∃ sent frames, d.emitVideoFrame = some
      ({ d with configSent := sent, pendingNalus := [], videoKey := false }, frames) ∧
      Publishes S frames (frameOf codec ⟨d.pendingVideoTs, d.pendingNalus, d.videoKey⟩).toList := by
  obtain ⟨sent, config, hcf, hal⟩ := d.videoConfig_spec hS
  have hno : samples config = [] := by
    rw [samples, filter_eq_nil_iff]
    intro f hf
    rw [(hal f hf).config]
    exact Bool.false_ne_true
  -- the configuration and a frame, if there is one
  have he : ∀ (nalus : List Bytes) (frame : MediaFrame), frame.configFrame = false →
      Publishes S (config ++ if nalus = [] then [] else [frame])
        (if nalus = [] then none else some frame).toList := by
    intro nalus frame hfr
    rw [Publishes, samples_append, hno, nil_append]
    split
    next => exact ⟨rfl, fun f hf _ => hal f (by rwa [append_nil] at hf)⟩
    next =>
      refine ⟨filter_cons_of_pos (by simp [hfr]), fun f hf hcn => ?_⟩
      rcases mem_append.mp hf with hf | hf
      · exact hal f hf
      · rw [mem_singleton.mp hf, hfr] at hcn
        cases hcn
  rw [emitVideoFrame, if_neg hne, hcf]
  simp only [Option.bind_eq_bind, Option.bind_some]
  rcases hcd with rfl | rfl
  · rw [if_neg (by rw [hd]; exact nofun), frameNalus_eq, if_neg hfl]
    exact ⟨sent, _, rfl, he _ _ rfl⟩
  · rw [if_pos hd, frameNalus_eq, if_neg hfl]
    exact ⟨sent, _, rfl, he _ _ rfl⟩

/-! ## The correspondence -/

/-- What the depacketizer holds of a unit in fragments. -/
def held (d : RtpDepacketizer) : Option Bytes := if d.fuActive then some d.fuBuf else none

/-- The depacketizer of a stream, at the state of an assembly, with parameter sets of which `S`
holds. -/
structure Shows (S : Bytes → Prop) (d₀ d : RtpDepacketizer) (s : Assembly UInt8) : Prop where
  setup_eq : d.setup = d₀.setup
  buf : d.held = s.buf
  pending : d.pendingNalus = s.pending
  key : d.videoKey = s.key
  open_ : ∀ buf, s.buf = some buf → (formatOf d₀.videoCodec).headLen ≤ buf.length
  full : [] ∉ s.pending
  params : ∀ x ∈ d.params, S x

variable {S : Bytes → Prop}
  {s : Assembly UInt8} {d d₀ : RtpDepacketizer} {head payload : Bytes} {pt : UInt8}
  {marks : Bytes → Bytes → Bool} {e : RtpDepacketizer} {codec : CodecId} {start : Bool}
  {piece : Piece UInt8} {packets : List Bytes} {tagged : List (Tagged UInt32 UInt8)}
  {channel : UInt8}

theorem Shows.emit (h : Shows S d₀ d s) (hcd : IsH26x d₀.videoCodec) {ts : UInt32}
    (hts : d.pendingVideoTs = ts) :
    ∃ d' frames, d.emitVideoFrame = some (d', frames) ∧ Shows S d₀ d' (s.emit ts).1 ∧
      Publishes S frames ((s.emit ts).2.filterMap (frameOf d₀.videoCodec)) := by
  rw [Assembly.emit]
  by_cases hnil : s.pending = []
  · rw [if_pos hnil, emitVideoFrame, if_pos (h.pending.trans hnil)]
    exact ⟨d, [], rfl, h, rfl, forall_mem_nil _⟩
  · rw [if_neg hnil]
    obtain ⟨sent, frames, he, hf, hcn⟩ :=
      emitVideoFrame_eq hcd (codec_setup h.setup_eq) (h.pending ▸ hnil)
        (h.pending ▸ h.full) h.params
    refine ⟨_, frames, he, ⟨h.setup_eq, h.buf, rfl, rfl, h.open_, not_mem_nil, h.params⟩, ?_, hcn⟩
    rw [hf, hts, h.pending, h.key, filterMap_cons_eq_append]
    exact (append_nil _).symm

theorem Shows.join {d' : RtpDepacketizer} (h : Shows S d₀ d s) {out : Option Bytes × List Bytes}
    (hs : d'.setup = d.setup) (hh : d'.held = out.1)
    (hpn : d'.pendingNalus = d.pendingNalus ++ out.2)
    (hk : d'.videoKey = (d.videoKey || out.2.any (marks head)))
    (ho : ∀ buf, out.1 = some buf → (formatOf d₀.videoCodec).headLen ≤ buf.length) (hf : [] ∉ out.2)
    (hpr : ∀ x ∈ d'.params, x ∈ d.params ∨ x ∈ out.2) (hS : ∀ u ∈ out.2, S u) :
    Shows S d₀ d' (s.join marks head out) where
  setup_eq := hs.trans h.setup_eq
  buf := hh
  pending := hpn.trans (congrArg (· ++ out.2) h.pending)
  key := hk.trans (congrArg (· || out.2.any (marks head)) h.key)
  open_ := ho
  full := fun hmem => (mem_append.mp hmem).elim h.full hf
  params := fun x hx => (hpr x hx).elim (h.params x) (hS x)

/-- A payload that the depacketizer takes for the piece that it carries. -/
def Readable (codec : CodecId) : Piece UInt8 → Prop
  | .whole u =>
    if codec = .h265 then 2 ≤ u.length ∧ (u.getD 0 0 >>> 1) &&& 0x3F ≠ 48 ∧
      (u.getD 0 0 >>> 1) &&& 0x3F ≠ 49
    else 1 ≤ u.getD 0 0 &&& 0x1F ∧ u.getD 0 0 &&& 0x1F ≤ 23
  | .part head _ _ _ => head.length = (formatOf codec).headLen

instance (codec : CodecId) (piece : Piece UInt8) : Decidable (Readable codec piece) := by
  unfold Readable
  cases piece <;> infer_instance

/-- A unit that the depacketizer passes over. -/
def PassedOver (codec : CodecId) (u : Bytes) : Prop :=
  u ≠ [] ∧ if codec = .h265 then u.length < 2
    else ¬ (1 ≤ u.getD 0 0 &&& 0x1F ∧ u.getD 0 0 &&& 0x1F ≤ 23) ∧ u.getD 0 0 &&& 0x1F ≠ 24 ∧
      u.getD 0 0 &&& 0x1F ≠ 28

/-- The same but for a unit in fragments. -/
structure Kept (d e : RtpDepacketizer) : Prop where
  setup_eq : e.setup = d.setup
  key : e.videoKey = d.videoKey
  ts : e.pendingVideoTs = d.pendingVideoTs
  pending : e.pendingNalus = d.pendingNalus
  params : e.params = d.params

theorem Kept.fragments (h : Kept d e) (fuBuf : Bytes) (fuActive : Bool) :
    Kept d { e with fuBuf, fuActive } :=
  ⟨h.setup_eq, h.key, h.ts, h.pending, h.params⟩

/-- Behind a look at a unit, which may be kept as a parameter set. -/
structure Looked (idr : Bool) (n : Bytes) (d e : RtpDepacketizer) : Prop where
  setup_eq : e.setup = d.setup
  key : e.videoKey = (d.videoKey || idr)
  ts : e.pendingVideoTs = d.pendingVideoTs
  pending : e.pendingNalus = d.pendingNalus
  held : e.held = d.held
  params : ∀ x ∈ e.params, x ∈ d.params ∨ x = n

theorem looked_observeNalu (d : RtpDepacketizer) (b : UInt8) (n : Bytes) :
    Looked (b &&& 0x1F = 5) (b :: n) d (d.observeNalu (b :: n)) := by
  rw [observeNalu]
  split_ifs
  all_goals exact ⟨rfl, by simp [*], rfl, rfl, rfl, by simp only [mem_params]; grind⟩

theorem looked_observeHevcNalu (d : RtpDepacketizer) (b b' : UInt8) (n : Bytes) :
    Looked ((19 : UInt8) ≤ (b >>> 1) &&& 0x3F ∧ (b >>> 1) &&& 0x3F ≤ 21)
      (b :: b' :: n) d (d.observeHevcNalu (b :: b' :: n)) := by
  rw [observeHevcNalu]
  split_ifs
  all_goals exact ⟨rfl, by simp [*], rfl, rfl, rfl, by simp only [mem_params]; grind⟩

/-- A unit that is long enough is looked at. -/
theorem looked_look {n : Bytes} (d : RtpDepacketizer) (h : (formatOf codec).headLen ≤ n.length) :
    Looked (isIdr codec n) n d (look codec d n) := by
  unfold formatOf at h
  unfold isIdr look
  split_ifs at h ⊢
  · match n, h with
    | b :: b' :: n, _ => exact looked_observeHevcNalu d b b' n
  · match n, h with
    | b :: n, _ => exact looked_observeNalu d b n

theorem looked_lookLast {n : Bytes} (d : RtpDepacketizer) (first : UInt8) (second : Bytes)
    (h : (formatOf codec).headLen ≤ n.length) :
    Looked (marksOf codec (first :: second) n) n d (lookLast codec first d n) := by
  have hl := looked_look d h
  unfold marksOf lookLast
  unfold look at hl
  split_ifs at hl ⊢ with hc
  · exact hl
  · exact ⟨rfl, by rw [isIdr, if_neg hc]; rfl, rfl, rfl, rfl, fun x => .inl⟩

/-- Behind the header of a fragment. -/
structure Begun (d e : RtpDepacketizer) (start : Bool) (header : Bytes) : Prop
    extends Kept d e where
  held : e.held = if start then some header else d.held

theorem begun_startFragment (d : RtpDepacketizer) (start : Bool) (header : Bytes) :
    Begun d (d.startFragment start header) start header := by
  cases start <;> exact ⟨⟨rfl, rfl, rfl, rfl, rfl⟩, rfl⟩

theorem headLen_pos (codec : CodecId) : 0 < (formatOf codec).headLen := by
  rw [formatOf]
  split <;> decide

theorem Readable.length {u : Bytes} (h : Readable codec (.whole u)) :
    (formatOf codec).headLen ≤ u.length := by
  rw [Readable] at h
  rw [formatOf]
  split_ifs at h ⊢
  · exact h.1
  · exact length_pos_iff.mpr fun hnil => absurd (hnil ▸ h.1) (by decide)

theorem content_passedOver (h : PassedOver codec payload) :
    content codec payload = .other true := by
  rw [PassedOver] at h
  rw [content]
  split_ifs at h ⊢ <;> grind

/-- A piece, as it is read. -/
def Content.ofPiece : Piece UInt8 → Content
  | .whole u => .unit u
  | .part head start stop body => .fragment (head.getD 0 0) head.tail start stop body

/-- **The payload of a piece** is read as that piece. -/
theorem content_encode (h : Readable codec piece) :
    content codec ((formatOf codec).encode piece) = .ofPiece piece := by
  cases piece with
  | whole u =>
    show content codec u = .unit u
    rw [Readable] at h
    rw [content]
    split_ifs at h ⊢ <;> grind
  | part head start stop body =>
    rw [Readable] at h
    by_cases hc : codec = .h265
    · rw [formatOf, if_pos hc] at h ⊢
      obtain ⟨b, b', rfl⟩ := length_eq_two.mp h
      obtain ⟨ht, hfr, hl⟩ := h265_head b
      obtain ⟨hsr, hst, hfu⟩ := fuHeader_bits start stop _ hl
      show content codec (((b &&& 0x81) ||| ((49 : UInt8) <<< (1 : UInt8))) :: b' ::
        fuHeader ((b >>> 1) &&& 0x3F) start stop :: body) = _
      rw [content, if_pos hc, if_neg (by simp)]
      simp [ht, hfr, hsr, hst, hfu, Content.ofPiece]
    · rw [formatOf, if_neg hc] at h ⊢
      obtain ⟨b, rfl⟩ := length_eq_one_iff.mp h
      obtain ⟨ht, hfr, hl⟩ := h264_head b
      obtain ⟨hsr, hst, -⟩ := fuHeader_bits start stop _ hl
      show content codec (((b &&& 0xE0) ||| 28) :: fuHeader (b &&& 0x1F) start stop :: body) = _
      rw [content, if_neg hc]
      simp [ht, hfr, hsr, hst, fuHeader_type, Content.ofPiece]

section

variable (h : Shows S d₀ d s)
include h

theorem Shows.quiet (he : Kept d e) {buf : Option Bytes}
    (hh : e.held = buf) (ho : ∀ b, buf = some b → (formatOf d₀.videoCodec).headLen ≤ b.length) :
    Shows S d₀ e (s.join marks head (buf, [])) :=
  h.join he.setup_eq hh (he.pending.trans (append_nil _).symm)
    (he.key.trans (Bool.or_false _).symm) ho
    not_mem_nil (fun _ hx => .inl (he.params ▸ hx)) nofun

theorem Shows.look {n : Bytes} {e' : RtpDepacketizer} (he : Kept d e)
    (hl : Looked (marks head n) n e e')
    (ho : ∀ b, e.held = some b → (formatOf d₀.videoCodec).headLen ≤ b.length)
    (hlen : (formatOf d₀.videoCodec).headLen ≤ n.length) (hS : S n) :
    Shows S d₀ (e'.queue n) (s.join marks head (e.held, [n])) := by
  have hne := ne_nil_of_length_pos ((headLen_pos _).trans_le hlen)
  refine h.join (hl.setup_eq.trans he.setup_eq) hl.held
    (congrArg (· ++ [n]) (hl.pending.trans he.pending)) ?_ ho
    (fun hmem => hne (mem_singleton.mp hmem).symm)
    (fun x hx => (hl.params x hx).imp (he.params ▸ ·) mem_singleton.mpr)
    (forall_mem_singleton.mpr hS)
  show e'.videoKey = (d.videoKey || [n].any (marks head))
  rw [hl.key, he.key, any_cons, any_nil, Bool.or_false]

/-- **The step.** The state behind a piece. -/
theorem Shows.receive (hp : Readable d₀.videoCodec piece)
    (hS : ∀ u ∈ (collect none s.buf piece).2, S u) :
    Shows S d₀ (receive d₀.videoCodec d (.ofPiece piece))
      (s.join (marksOf d₀.videoCodec) piece.head (collect none s.buf piece)) ∧
      (RtpDepacketizer.receive d₀.videoCodec d (.ofPiece piece)).pendingVideoTs =
        d.pendingVideoTs := by
  cases piece with
  | whole u =>
    have hl : Looked (marksOf d₀.videoCodec u u) u d (RtpDepacketizer.look d₀.videoCodec d u) := by
      rw [marksOf, ite_self]
      exact looked_look d hp.length
    rw [collect, ← h.buf]
    exact ⟨h.look ⟨rfl, rfl, rfl, rfl, rfl⟩ hl (h.buf ▸ h.open_) hp.length (hS _ mem_cons_self),
      hl.ts⟩
  | part head start stop body =>
    obtain ⟨first, second, rfl⟩ := exists_cons_of_length_pos
      (Nat.lt_of_lt_of_eq (headLen_pos _) hp.symm)
    have he := d.begun_startFragment start (first :: second)
    rw [Content.ofPiece, getD_cons_zero, tail_cons, RtpDepacketizer.receive]
    rw [collect, ← h.buf, ← he.held] at hS ⊢
    have ho : ∀ b, (d.startFragment start (first :: second)).held = some b →
        (formatOf d₀.videoCodec).headLen ≤ b.length := by
      intro b hb
      rw [he.held] at hb
      split at hb
      · rw [← Option.some.inj hb]
        exact hp.ge
      · exact h.open_ b (h.buf ▸ hb)
    generalize d.startFragment start (first :: second) = e at he hS ho
    cases hac : e.fuActive with
    | false =>
      have hh : e.held = none := if_neg (by simp [hac])
      rw [hh, Option.map_none, Option.toList_none, ite_self]
      exact ⟨h.quiet he.toKept hh (fun _ hb => by cases hb), he.ts⟩
    | true =>
      have hh : e.held = some e.fuBuf := if_pos hac
      have hlen : (formatOf d₀.videoCodec).headLen ≤ (e.fuBuf ++ body).length := by
        rw [length_append]
        exact Nat.le_add_right_of_le (ho _ hh)
      rw [hh] at hS ⊢
      cases stop with
      | true =>
        have hl := looked_lookLast e.takeFragments first second hlen
        exact ⟨h.look (he.fragments [] false) hl (fun _ hb => by cases hb) hlen
          (hS _ mem_cons_self), hl.ts.trans he.ts⟩
      | false =>
        exact ⟨h.quiet (he.fragments (e.fuBuf ++ body) true) rfl fun buf hbf =>
          Option.some.inj hbf ▸ hlen, he.ts⟩

/-- The marker counts, but for H.264 not that of a fragment without a beginning. -/
theorem Shows.counts (hc : IsH26x d₀.videoCodec) (piece : Piece UInt8) :
    counts d₀.videoCodec d (.ofPiece piece) =
      !(decide (d₀.videoCodec = .h264) && piece.orphan s.buf) := by
  cases piece with
  | whole u => exact (congrArg not (Bool.and_false _)).symm
  | part head start stop body =>
    rw [Content.ofPiece, RtpDepacketizer.counts, Piece.orphan, ← h.buf, held]
    rcases hc with h | h
    all_goals rw [h]; cases start <;> cases d.fuActive <;> rfl

end

/-! ## Packets -/

/-- What a payload is to the depacketizer: a piece, or nothing that it looks at. -/
def Brings (codec : CodecId) (payload : Bytes) : Option (Piece UInt8) → Prop
  | some piece => Readable codec piece ∧ payload = (formatOf codec).encode piece
  | none => PassedOver codec payload

theorem Brings.ne_nil {piece : Option (Piece UInt8)} (h : Brings codec payload piece) :
    payload ≠ [] := by
  match piece, h with
  | none, h => exact h.1
  | some (.part head start stop body), h =>
    rw [h.2, formatOf]
    split
    · exact cons_ne_nil _ _
    · exact cons_ne_nil _ _
  | some (.whole u), ⟨hr, hp⟩ =>
    rw [hp]
    exact ne_nil_of_length_pos ((headLen_pos _).trans_le hr.length)

/-- **A packet.** The frames that are published, apart from configurations, are what the assembly
emits. -/
theorem handleVideoRtp_brings (h : Shows S d₀ d s) (hc : IsH26x d₀.videoCodec)
    {piece : Option (Piece UInt8)} (hpc : Brings d₀.videoCodec payload piece)
    (hS : ∀ q, piece = some q → ∀ u ∈ (collect none s.buf q).2, S u) (marker : Bool) (ts : UInt32) :
    ∃ d' frames, d.handleVideoRtp payload marker ts = some (d', frames) ∧
      Shows S d₀ d' (assemble (d₀.videoCodec = .h264)
        (marksOf d₀.videoCodec) s ⟨ts, marker, piece⟩).1 ∧
      Publishes S frames ((assemble (d₀.videoCodec = .h264)
        (marksOf d₀.videoCodec) s ⟨ts, marker, piece⟩).2.filterMap (frameOf d₀.videoCodec)) := by
  have hst : Shows S d₀ { d with pendingVideoTs := ts } s :=
    ⟨h.setup_eq, h.buf, h.pending, h.key, h.open_, h.full, h.params⟩
  -- the queue behind the packet, and whether its marker counts
  have hen : ∀ (counts : Bool) (d' : RtpDepacketizer) (t : Assembly UInt8), Shows S d₀ d' t →
    d'.pendingVideoTs = ts →
      ∃ d'' frames, (if counts then d'.emitVideoFrame else some (d', [])) = some (d'', frames) ∧
        Shows S d₀ d'' (if counts then t.emit ts else (t, [])).1 ∧
        Publishes S frames ((if counts then t.emit ts else (t, [])).2.filterMap
          (frameOf d₀.videoCodec)) := by
    intro counts d' t hsh hd'
    cases counts with
    | true => exact hsh.emit hc hd'
    | false => exact ⟨d', [], rfl, hsh, rfl, forall_mem_nil _⟩
  have hrun := fun hf => handleVideoRtp_eq d hpc.ne_nil hf marker ts
  generalize he : ({ d with pendingVideoTs := ts } : RtpDepacketizer) = e at hrun hst
  have hts : e.pendingVideoTs = ts := he ▸ rfl
  rw [codec_setup h.setup_eq] at hrun
  match piece, hpc with
  | none, hpc =>
    rw [content_passedOver hpc] at hrun
    rw [hrun nofun, assemble_none]
    exact hen marker e s hst hts
  | some piece, ⟨hrd, hpy⟩ =>
    obtain ⟨hj, hts'⟩ := hst.receive hrd (hS piece rfl)
    rw [hpy, content_encode hrd] at hrun
    rw [hpy, hrun (by cases piece <;> exact nofun), h.counts hc piece, assemble_some,
      Bool.and_comm marker]
    exact hen _ _ _ hj (hts'.trans hts)

theorem marker_octet (marker : Bool) :
    ∀ pt : UInt8, pt &&& 0x80 = 0 → (pt ||| (if marker then 0x80 else 0)) &&& 0x7F = pt ∧
      ((pt ||| (if marker then 0x80 else 0)) &&& 0x80 ≠ 0 ↔ marker = true) := by
  refine forall_octet ?_
  cases marker <;> decide +kernel

theorem arrived_rtpHeader (d : RtpDepacketizer) (channel : UInt8) (hpt : pt &&& 0x80 = 0)
    (marker : Bool) (sequence : UInt16) (ts ssrc : UInt32) (hne : payload ≠ []) :
    d.arrived channel (rtpHeader pt marker sequence ts ssrc ++ payload) =
      (d.mediaOf pt channel).map fun media => ⟨media, marker, ts, payload⟩ := by
  obtain ⟨hpt', hmk⟩ := marker_octet marker pt hpt
  have hmr : decide ((pt ||| (if marker then 0x80 else 0)) &&& 0x80 ≠ 0) = marker :=
    Bool.eq_iff_iff.mpr (decide_eq_true_iff.trans hmk)
  have hlen : ¬ (rtpHeader pt marker sequence ts ssrc ++ payload).length <
      12 + 4 * ((0x80 : UInt8) &&& 0x0F).toNat + 1 := by
    have hpos := length_pos_iff.mpr hne
    have hh : (rtpHeader pt marker sequence ts ssrc).length = 12 := rfl
    have hz : ((0x80 : UInt8) &&& 0x0F).toNat = 0 := by decide
    rw [length_append, hh, hz]
    omega
  have hts : UInt32.ofNat (ofBe (((rtpHeader pt marker sequence ts ssrc ++ payload).take 8).drop 4))
      = ts := by
    show UInt32.ofNat (ofBe (be32 ts.toNat)) = ts
    rw [be32, ofBe_four _ ts.toNat_lt, UInt32.ofNat_toNat]
  have hf : (rtpHeader pt marker sequence ts ssrc ++ payload).getD 0 0 = 0x80 := rfl
  have hs : (rtpHeader pt marker sequence ts ssrc ++ payload).getD 1 0 =
    pt ||| (if marker then 0x80 else 0) := rfl
  rw [arrived, hf, hs, if_neg hlen, hpt', hts, hmr]
  rfl

/-- One packet after the other. -/
def handleAll (channel : UInt8) : RtpDepacketizer → List Bytes →
    Option (RtpDepacketizer × List MediaFrame)
  | d, [] => some (d, [])
  | d, packet :: packets => do
    let one ← d.handleRtp channel packet
    let more ← handleAll channel one.1 packets
    return (more.1, one.2 ++ more.2)

/-- A packet of the track that brings a piece. -/
def IsPacket (codec : CodecId) (pt : UInt8) (t : Tagged UInt32 UInt8) (packet : Bytes) : Prop :=
  ∃ sequence ssrc payload, packet = rtpHeader pt t.mark sequence t.tag ssrc ++ payload ∧
    Brings codec payload t.piece

/-- Everything that an assembly hands on or keeps has the property. -/
def Handles (S : Bytes → Prop) (run : Assembly UInt8 × List (Emitted UInt32 UInt8)) : Prop :=
  (∀ e ∈ run.2, ∀ u ∈ e.units, S u) ∧ ∀ u ∈ run.1.pending, S u

/-- **Some packets.** -/
theorem handleAll_assemble (hcd : IsH26x d₀.videoCodec)
    (hpt : pt &&& 0x80 = 0) (hmd : d₀.mediaOf pt channel = some .video)
    (h : Forall₂ (IsPacket d₀.videoCodec pt) tagged packets) :
    ∀ {d : RtpDepacketizer} {s : Assembly UInt8}, Shows S d₀ d s →
      Handles S (runLog (assemble (d₀.videoCodec = .h264) (marksOf d₀.videoCodec)) s tagged) →
      ∃ d' frames, handleAll channel d packets = some (d', frames) ∧
        Publishes S frames ((runLog (assemble (d₀.videoCodec = .h264) (marksOf d₀.videoCodec)) s
          tagged).2.filterMap (frameOf d₀.videoCodec)) := by
  induction h with
  | nil => exact fun _ _ => ⟨_, [], rfl, rfl, forall_mem_nil _⟩
  | @cons t packet tagged packets hpc _ ih =>
    intro d s hs hh
    obtain ⟨sequence, ssrc, payload, rfl, hb⟩ := hpc
    rw [runLog] at hh ⊢
    -- what the packet brings is handed on or kept
    have hS : ∀ q, t.piece = some q → ∀ u ∈ (collect none s.buf q).2, S u := by
      intro q hq u hu
      rcases pending_assemble _ (marksOf d₀.videoCodec) t (.inr ⟨q, hq, hu⟩) with ⟨e, he, hue⟩ | hu
      · exact hh.1 e (mem_append_left _ he) u hue
      · rcases pending_runLog _ (marksOf d₀.videoCodec) tagged hu with ⟨e, he, hue⟩ | hu
        · exact hh.1 e (mem_append_right _ he) u hue
        · exact hh.2 u hu
    obtain ⟨d₁, frames₁, ho, hs₁, hfr₁, hcn₁⟩ := handleVideoRtp_brings hs hcd hb hS t.mark t.tag
    obtain ⟨d₂, frames₂, hmr, hfr₂, hcn₂⟩ :=
      ih hs₁ ⟨fun e he => hh.1 e (mem_append_right _ he), hh.2⟩
    have hr : d.handleRtp channel (rtpHeader pt t.mark sequence t.tag ssrc ++ payload) =
        some (d₁, frames₁) := by
      rw [handleRtp_eq, d.arrived_rtpHeader channel hpt _ _ _ _ hb.ne_nil,
        mediaOf_setup hs.setup_eq, hmd]
      exact ho
    refine ⟨d₂, frames₁ ++ frames₂, ?_, ?_, ?_⟩
    · rw [handleAll, hr]
      simp only [Option.bind_eq_bind, Option.bind_some]
      rw [hmr]
      rfl
    · rw [samples_append, hfr₁, hfr₂, ← filterMap_append]
    · exact fun f hf => (mem_append.mp hf).elim (hcn₁ f) (hcn₂ f)

theorem shows_new (info : SdpInfo) (videoChan audioChan : UInt8) (forceMedia : Option FrameType)
    (hS : ∀ x ∈ (RtpDepacketizer.new info videoChan audioChan forceMedia).params, S x) :
    Shows S (.new info videoChan audioChan forceMedia) (.new info videoChan audioChan forceMedia)
      ⟨none, [], false⟩ :=
  ⟨rfl, rfl, rfl, rfl, nofun, not_mem_nil, hS⟩

/-- **Some packets of a publisher**, whatever its parameter sets are. -/
theorem handleAll_new {info : SdpInfo} (hc : IsH26x info.videoCodec) (videoChan audioChan : UInt8)
    (forceMedia : Option FrameType) (hpt : pt &&& 0x80 = 0)
    (hm : (RtpDepacketizer.new info videoChan audioChan forceMedia).mediaOf pt channel =
      some .video)
    (h : Forall₂ (IsPacket info.videoCodec pt) tagged packets) :
    ∃ d' frames, handleAll channel (.new info videoChan audioChan forceMedia) packets =
      some (d', frames) ∧
      samples frames = (runLog (assemble (info.videoCodec = .h264) (marksOf info.videoCodec))
        ⟨none, [], false⟩ tagged).2.filterMap (frameOf info.videoCodec) := by
  have hsh : Shows (fun _ => True) (.new info videoChan audioChan forceMedia)
    (.new info videoChan audioChan forceMedia)
      ⟨none, [], false⟩ := shows_new info videoChan audioChan forceMedia fun _ _ => trivial
  obtain ⟨d', frames, ho, hsm, -⟩ := handleAll_assemble hc hpt hm h hsh
    ⟨fun _ _ _ _ => trivial, fun _ _ => trivial⟩
  exact ⟨d', frames, ho, hsm⟩

end RtpDepacketizer

end MediaKit.Rtsp.Push
