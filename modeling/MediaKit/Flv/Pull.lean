import MediaKit.Flv.RoundTrip
import MediaKit.Lib.Reader
import MediaKit.Lib.Trace

/-!
# Pulling FLV over HTTP

`pull_flv` (`crates/http/src/pull_client.rs`) feeds what it reads to a demuxer, tries the header
until it is there once, and then publishes frames until `parse_tag` has none. `flvNext` is one round
of that as a reader of the library. Whatever it takes is decided by the bytes in front of it, so
that it does not matter how the stream is cut (`pull_boundaries`).

Mirroring notes vs the Rust source:
  * The frames are returned. The loop ends with the body; the stop of the task is left out.
  * Every frame takes bytes of the buffer, whose length bounds the rounds of `while let
    Some(frame)`. -/

namespace MediaKit.Flv

open MediaKit.Core Lib List Option FlvDemuxer

/-- Frames until there is none. -/
def FlvDemuxer.parseTags : Nat → FlvDemuxer → FlvDemuxer × List MediaFrame
  | 0, d => (d, [])
  | fuel + 1, d =>
    match d.parseTag with
    | (some frame, d) => ((parseTags fuel d).1, frame :: (parseTags fuel d).2)
    | (none, d) => (d, [])

/-- `pull_flv`, between two reads. -/
structure FlvPull where
  headerParsed : Bool
  demuxer : FlvDemuxer

namespace FlvPull

def new : FlvPull := ⟨false, .new⟩

def readTags (d : FlvDemuxer) : FlvPull × List MediaFrame :=
  let out := d.parseTags (d.buffer.length + 1)
  (⟨true, out.1⟩, out.2)

/-- One chunk of the body. -/
def chunk (p : FlvPull) (data : Bytes) : FlvPull × List MediaFrame :=
  let d := p.demuxer.feed data
  if p.headerParsed then readTags d
  else
    match d.parseHeader with
    | (none, d) => (⟨false, d⟩, [])
    | (some _, d) => readTags d

end FlvPull

/-- One round: the header, or one tag. -/
def flvNext : Bool → Bytes → Attempt Bool UInt8 MediaFrame
  | false, b =>
    match parseHeader ⟨b⟩ with
    | (none, _) => .wait
    | (some _, d) => .take true [] d.buffer
  | true, b =>
    match tagStep b with
    | .stop => .wait
    | .skip rest => .take true [] rest
    | .frame frame rest => .take true [frame] rest

/-! ## Rounds -/

/-- **What a round takes** is some bytes at the front, whatever stands behind them. -/
theorem flvNext_cases (s : Bool) (b : Bytes) : flvNext s b = .wait ∨ ∃ o n, 0 < n ∧ n ≤ b.length ∧
    ∀ t, flvNext s (b ++ t) = .take true o ((b ++ t).drop n) := by
  cases s with
  | true =>
    obtain hst | ⟨frame, n, hpos, hle, ht⟩ := tagStep_cases b
    · rw [flvNext, hst]
      exact .inl rfl
    · refine .inr ⟨frame.toList, n, hpos, hle, fun t => ?_⟩
      rw [flvNext, ht]
      cases frame <;> rfl
  | false =>
    rw [flvNext, parseHeader]
    dsimp only
    split_ifs with hsh hm hsz
    · exact .inl rfl
    · exact .inl rfl
    · exact .inl rfl
    · refine .inr ⟨[], ofBe ((b.drop 5).take 4), by omega, by omega, fun t => ?_⟩
      have hf : ((b ++ t).drop 5).take 4 = (b.drop 5).take 4 := by
        rw [drop_append_of_le_length (by omega),
          take_append_of_le_length (by rw [length_drop]; omega)]
      rw [flvNext, parseHeader]
      rw [take_append_of_le_length (by omega), hf, if_neg (by rw [length_append]; omega), if_neg hm,
        if_neg (by rw [length_append]; omega)]

theorem shrinks_flvNext : Shrinks flvNext := by
  intro s b s' o r h
  obtain hw | ⟨o', n, hpos, hle, ht⟩ := flvNext_cases s b
  · rw [hw] at h
    cases h
  · have hs := ht []
    rw [append_nil, h] at hs
    cases hs
    rw [length_drop]
    omega

theorem extends_flvNext : Extends flvNext := by
  intro s b t
  obtain hw | ⟨o', n, -, hle, ht⟩ := flvNext_cases s b
  · rw [hw]
    exact ⟨nofun, nofun⟩
  · have hs := ht []
    rw [append_nil] at hs
    rw [hs]
    refine ⟨fun s' o r h => ?_, nofun⟩
    cases h
    rw [ht, drop_append_of_le_length hle]

/-! ## The driver -/

/-- The loop over the tags is the loop of the reader. -/
theorem feed_parseTags (b : Bytes) {fuel : Nat} (hf : b.length ≤ fuel) : feed flvNext true b =
    some (true, (parseTags (fuel + 1) ⟨b⟩).2, (parseTags (fuel + 1) ⟨b⟩).1.buffer) := by
  cases h : tagStep b with
  | stop =>
    have hn : flvNext true b = .wait := by rw [flvNext, h]
    rw [feed_of_wait hn, parseTags, parseTag_of_stop h]
  | skip rest =>
    have hn : flvNext true b = .take true [] rest := by rw [flvNext, h]
    have hlt := shrinks_flvNext _ _ _ _ _ hn
    rw [feed_of_take shrinks_flvNext hn, Fed.prepend_nil,
      feed_parseTags rest (show rest.length ≤ fuel by omega),
      parseTags, parseTags, parseTag_of_skip h]
  | frame frame rest =>
    have hn : flvNext true b = .take true [frame] rest := by rw [flvNext, h]
    have hlt := shrinks_flvNext _ _ _ _ _ hn
    obtain ⟨fuel, rfl⟩ := Nat.exists_eq_succ_of_ne_zero (show fuel ≠ 0 by omega)
    have ht : parseTags (fuel + 2) ⟨b⟩ =
        ((parseTags (fuel + 1) ⟨rest⟩).1, frame :: (parseTags (fuel + 1) ⟨rest⟩).2) := by
      rw [parseTags, parseTag_of_frame h]
    rw [feed_of_take shrinks_flvNext hn, feed_parseTags rest (show rest.length ≤ fuel by omega), ht]
    rfl
termination_by b.length

/-- **One chunk.** -/
theorem feed_chunk (p : FlvPull) (data : Bytes) :
    feed flvNext p.headerParsed (p.demuxer.buffer ++ data) =
    some ((p.chunk data).1.headerParsed, (p.chunk data).2, (p.chunk data).1.demuxer.buffer) := by
  obtain ⟨parsed, ⟨b⟩⟩ := p
  rw [FlvPull.chunk]
  cases parsed with
  | true => exact feed_parseTags (b ++ data) le_rfl
  | false =>
    rw [if_neg Bool.false_ne_true]
    rcases h : parseHeader ⟨b ++ data⟩ with ⟨_ | v, d⟩
    · have hn : flvNext false (b ++ data) = .wait := by rw [flvNext, h]
      have hs : d = ⟨b ++ data⟩ := by
        rw [parseHeader] at h
        dsimp only at h
        split_ifs at h
        · cases h; rfl
        · cases h; rfl
        · cases h; rfl
        · cases h
      simp only [FlvDemuxer.feed, h, feed_of_wait hn, hs]
    · have hn : flvNext false (b ++ data) = .take true [] d.buffer := by rw [flvNext, h]
      simp only [FlvDemuxer.feed, h, feed_of_take shrinks_flvNext hn, Fed.prepend_nil]
      exact feed_parseTags d.buffer le_rfl

theorem feedAll_chunks : ∀ (pieces : List Bytes) (p : FlvPull),
    feedAll flvNext p.headerParsed p.demuxer.buffer pieces =
    some ((runLog FlvPull.chunk p pieces).1.headerParsed, (runLog FlvPull.chunk p pieces).2,
      (runLog FlvPull.chunk p pieces).1.demuxer.buffer)
  | [], p => rfl
  | piece :: pieces, p => by
    rw [feedAll, feed_chunk, bind_some, feedAll_chunks pieces]
    rfl

/-- **Read boundaries do not matter**: a pull publishes what it publishes for the whole stream at
once. -/
theorem pull_boundaries (pieces : List Bytes) :
    (runLog FlvPull.chunk .new pieces).2 = (runLog FlvPull.chunk .new [pieces.flatten]).2 := by
  have hc : ∀ ps, feedAll flvNext false [] ps = feed flvNext false ps.flatten := fun ps =>
    feedAll_eq_feed_of_cuts shrinks_flvNext shrinks_flvNext extends_flvNext
      (fun _ _ => .inr rfl) rfl ps
      fun _ _ _ _ _ _ _ hf => feed_waits shrinks_flvNext _ _ hf
  have hal := (hc pieces).trans ((congrArg _ flatten_singleton).symm.trans
    (hc [pieces.flatten]).symm)
  rw [show ([] : Bytes) = FlvPull.new.demuxer.buffer from rfl,
    show false = FlvPull.new.headerParsed from rfl, feedAll_chunks,
    feedAll_chunks] at hal
  exact congrArg (fun q => q.2.1) (Option.some.inj hal)

end MediaKit.Flv
