import Mathlib.Data.List.Nodup
import MediaKit.Core.GopCache

/-!
# Joining a live stream

A publisher runs `publish_and_cache` (`crates/core/src/media_source.rs`): it writes a
frame into the cache and then sends it to the subscribers, in two steps under two
locks. A player that joins reads the cache and subscribes, also in two steps: the RTMP
and the HTTP-FLV player read first, the embedded SDK subscribes first. The steps of the
two may interleave in every way (`schedule`). The receiver never lags: it gets what is
sent after it subscribed.

A player should get the published media frames from a video key frame on, each once
and in order (`StartsAtKey`). Whether it does is settled by two counts
(`join_startsAtKey_iff`): of the media frames in the cache when it was read and of those
sent when the player subscribed. Unless they are equal, frames between the two are lost
or come twice; and with no key frame in the cache the player starts wherever it is.

Mirroring notes vs the Rust source:
- The frames are stamped with their place in the publication, so that a frame that
  comes twice is not taken for two equal ones.
- What a player makes of a frame on its connection (`media_frame_to_rtmp_message`,
  `write_tag`) is left out; the HTTP-FLV player skips live configuration frames.
-/

namespace MediaKit.Core

open List GopCache Prod

/-- A published frame and its place in the publication. -/
abbrev Stamped := MediaFrame × Nat

inductive JoinStep where
  | readCache
  | subscribe
  deriving DecidableEq

inductive Player where
  | rtmp
  | httpFlv
  | sdk
  deriving DecidableEq

namespace Player

/-- `handle_play`, `handle_flv_stream` and `EmbeddedMediaKit::subscribe`. -/
def join : Player → List JoinStep
  | rtmp | httpFlv => [.readCache, .subscribe]
  | sdk => [.subscribe, .readCache]

/-- The live frames that a player takes. -/
def takes : Player → MediaFrame → Bool
  | httpFlv, f => !isConfigFrame f
  | rtmp, _ | sdk, _ => true

end Player

/-- Who makes the next step. -/
inductive Actor where
  | publisher
  | player
  deriving DecidableEq

structure JoinState where
  /-- The frames that `publish_and_cache` is still to be called with. -/
  todo : List Stamped
  /-- The frame between the cache write and the send. -/
  inFlight : Option Stamped
  cache : GopCache Stamped
  sent : List Stamped
  /-- What the player still has to do. -/
  steps : List JoinStep
  cached : List Stamped
  /-- The frames that the cache had seen when it was read. -/
  readAt : Nat
  /-- The frames that had been sent when the player subscribed. -/
  subscribedAt : Nat
  deriving DecidableEq

variable (player : Player)

namespace JoinState

def start (published : List MediaFrame) : JoinState where
  todo := published.zipIdx
  inFlight := none
  cache := .new
  sent := []
  steps := player.join
  cached := []
  readAt := 0
  subscribedAt := 0

def step (s : JoinState) : Actor → JoinState
  | .publisher =>
    match s.inFlight with
    | some f => { s with inFlight := none, sent := s.sent ++ [f] }
    | none =>
      match s.todo with
      | [] => s
      | f :: todo =>
        { s with todo := todo, inFlight := some f, cache := s.cache.cacheFrame fst f }
  | .player =>
    match s.steps with
    | [] => s
    | .readCache :: steps =>
      { s with
        steps := steps
        cached := s.cache.getLatestGopFrames fst
        readAt := s.sent.length + s.inFlight.toList.length }
    | .subscribe :: steps => { s with steps := steps, subscribedAt := s.sent.length }

def run (published : List MediaFrame) (schedule : List Actor) : JoinState :=
  schedule.foldl step (start player published)

/-- Publisher and player have made all their steps. -/
def Complete (s : JoinState) : Prop := s.todo = [] ∧ s.inFlight = none ∧ s.steps = []

instance (s : JoinState) : Decidable s.Complete := inferInstanceAs (Decidable (_ ∧ _ ∧ _))

/-- The media frames that the player gets: from the cache, then live. -/
def delivered (s : JoinState) : List Stamped :=
  (s.cached ++ (s.sent.drop s.subscribedAt).filter fun f => player.takes f.1).filter
    (mediaAt fst)

end JoinState

open JoinState

/-- The media frames of a publication. -/
def mediaFrames (published : List MediaFrame) : List Stamped :=
  published.zipIdx.filter (mediaAt fst)

/-- How many of the first `n` published frames are media frames. -/
def mediaCount (published : List MediaFrame) (n : Nat) : Nat :=
  ((published.zipIdx.take n).filter (mediaAt fst)).length

/-- The frames from a video key frame on; nothing when there is no key frame. -/
def StartsAtKey (frames got : List Stamped) : Prop :=
  (∃ k f, frames[k]? = some f ∧ isKey f.1 = true ∧ got = frames.drop k) ∨
    (got = [] ∧ frames.any (keyAt fst) = false)

/-- The counts fit: with a key frame in the cache they are equal; without one, the first
frame behind the subscription is a key frame, or there is no key frame at all. -/
def CountsFit (frames : List Stamped) (readAt subscribedAt : Nat) : Prop :=
  if (frames.take readAt).any (keyAt fst) then readAt = subscribedAt
  else
    ((frames[subscribedAt]?.map fun f => isKey f.1).getD
      (!frames.any (keyAt fst))) = true

instance (frames : List Stamped) (readAt subscribedAt : Nat) :
    Decidable (CountsFit frames readAt subscribedAt) :=
  inferInstanceAs (Decidable (ite _ _ _))

/-! ## What is delivered -/

/-- The last GOP of the cache and the live frames, as parts of the publication. -/
theorem startsAtKey_iff {frames : List Stamped} (hnd : frames.Nodup) {a b : Nat}
    (ha : a ≤ frames.length) (hb : b ≤ frames.length) :
    StartsAtKey frames (latestGop (keyAt fst) (frames.take a) ++ frames.drop b) ↔
    CountsFit frames a b := by
  unfold CountsFit
  have hh : ∀ k, (frames.drop k)[0]? = frames[k]? := by
    intro k
    rw [getElem?_drop, add_zero]
  rcases latestGop_cases (keyAt fst) (frames.take a) with ⟨hno, hgp⟩ |
    ⟨before, f, after, ht, hk, -, hgp⟩
  · rw [if_neg (by rw [hno]; exact Bool.false_ne_true), hgp, nil_append]
    cases hfb : frames[b]? with
    | some f =>
      refine ⟨?_, fun hk => .inl ⟨b, f, hfb, hk, rfl⟩⟩
      rintro (⟨k, f', hf', hk, hgt⟩ | ⟨hnil, -⟩)
      · rw [← hh, hgt, hh, hf'] at hfb
        rw [← Option.some.inj hfb]
        exact hk
      · rw [← hh, hnil] at hfb
        cases hfb
    | none =>
      have hnil : frames.drop b = [] := drop_eq_nil_of_le (getElem?_eq_none_iff.mp hfb)
      rw [Option.map_none, Option.getD_none, Bool.not_eq_true']
      refine ⟨?_, fun hk => .inr ⟨hnil, hk⟩⟩
      rintro (⟨k, f', hf', -, hgt⟩ | ⟨-, hk⟩)
      · rw [← hh, ← hgt, hnil] at hf'
        cases hf'
      · exact hk
  · have han : (frames.take a).any (keyAt fst) = true := by
      rw [ht]
      simp [hk]
    have hfr : frames = before ++ (f :: after ++ frames.drop a) := by
      rw [← append_assoc, ← ht, take_append_drop]
    have hd : frames.drop before.length = f :: after ++ frames.drop a :=
      (congrArg (drop before.length) hfr).trans drop_left
    have hp : frames[before.length]? = some f := by
      rw [← hh, hd]
      rfl
    rw [if_pos han, hgp]
    constructor
    · rintro (⟨k, f', hf', -, hgt⟩ | ⟨hnil, -⟩)
      · -- both start at the same frame, and a frame has one place
        have hs : frames[before.length]? = frames[k]? := by
          rw [hp, ← hh k, ← hgt]
          rfl
        obtain ⟨hlt, -⟩ := List.getElem?_eq_some_iff.mp hp
        obtain rfl : before.length = k := (getElem?_inj hlt hnd).mp hs
        have hlen := congrArg List.length (append_cancel_left (hgt.trans hd))
        rw [length_drop, length_drop] at hlen
        omega
      · cases hnil
    · rintro rfl
      exact .inl ⟨before.length, f, hp, hk, hd.symm⟩

/-! ## Runs -/

/-- What a run keeps: the cache has seen what was sent and what is in flight, and the
player has read what it had seen at the time. -/
structure JoinInv (published : List Stamped) (s : JoinState) : Prop where
  order : published = s.sent ++ s.inFlight.toList ++ s.todo
  cache : s.cache.Holds fst
    ((s.sent ++ s.inFlight.toList).filter (mediaAt fst))
  read : .readCache ∉ s.steps → s.cached.filter (mediaAt fst) =
    latestGop (keyAt fst)
      ((published.take s.readAt).filter (mediaAt fst))

theorem joinInv_start (published : List MediaFrame) :
    JoinInv published.zipIdx (.start player published) where
  order := rfl
  cache := holds_new fst
  read h := by
    cases player <;> simp [start, Player.join] at h

theorem joinInv_step {published : List Stamped} {s : JoinState} (inv : JoinInv published s)
    (actor : Actor) : JoinInv published (s.step actor) := by
  cases actor with
  | publisher =>
    unfold step
    dsimp only
    split
    next f hf =>
      have ho := inv.order
      have hc := inv.cache
      rw [hf] at ho hc
      refine ⟨?_, ?_, inv.read⟩
      · simpa using ho
      · simpa using hc
    next hf =>
      split
      next => exact inv
      next f todo ht =>
        have ho := inv.order
        have hc := inv.cache
        rw [hf] at ho hc
        refine ⟨?_, ?_, inv.read⟩
        · rw [ho, ht]
          simp
        · have hn := holds_cacheFrame hc f
          simpa using hn
  | player =>
    unfold step
    dsimp only
    split
    next => exact inv
    next steps hs =>
      refine ⟨inv.order, inv.cache, fun _ => ?_⟩
      rw [filter_getLatestGopFrames inv.cache, inv.order, take_left' (by rw [length_append])]
    next steps hs =>
      refine ⟨inv.order, inv.cache, fun h => inv.read ?_⟩
      rw [hs]
      simpa using h

theorem joinInv_run (published : List MediaFrame) (schedule : List Actor) :
    JoinInv published.zipIdx (.run player published schedule) := by
  exact foldlRecOn schedule _ (joinInv_start player published)
    fun s inv actor _ => joinInv_step inv actor

variable (published : List MediaFrame)

theorem nodup_mediaFrames : (mediaFrames published).Nodup := by
  refine List.Nodup.filter _ (List.Nodup.of_map snd ?_)
  rw [zipIdx_map_snd]
  exact nodup_range'

theorem mediaFrames_eq_append (n : Nat) :
    mediaFrames published = (published.zipIdx.take n).filter (mediaAt fst) ++
      (published.zipIdx.drop n).filter (mediaAt fst) := by
  rw [mediaFrames, ← filter_append, take_append_drop]

/-- The media frames among the first `n` are the first `mediaCount`. -/
theorem filter_take_eq (n : Nat) : (published.zipIdx.take n).filter (mediaAt fst) =
      (mediaFrames published).take (mediaCount published n) := by
  rw [mediaFrames_eq_append published n, mediaCount, take_left]

theorem filter_drop_eq (n : Nat) : (published.zipIdx.drop n).filter (mediaAt fst) =
      (mediaFrames published).drop (mediaCount published n) := by
  rw [mediaFrames_eq_append published n, mediaCount, drop_left]

theorem mediaCount_le (n : Nat) : mediaCount published n ≤ (mediaFrames published).length := by
  exact ((take_sublist n _).filter _).length_le

theorem filter_takes (fs : List Stamped) :
    (fs.filter fun f => player.takes f.1).filter (mediaAt fst) = fs.filter (mediaAt fst) := by
  rw [filter_filter]
  refine filter_congr fun f _ => ?_
  cases player with
  | httpFlv => simp [Player.takes, mediaAt, isMedia]
  | rtmp | sdk => simp [Player.takes]

theorem delivered_eq {player : Player} {published : List MediaFrame} {schedule : List Actor}
    (hc : (run player published schedule).Complete) :
    (run player published schedule).delivered player = latestGop (keyAt fst)
      ((mediaFrames published).take
        (mediaCount published (run player published schedule).readAt)) ++
      (mediaFrames published).drop
        (mediaCount published (run player published schedule).subscribedAt) := by
  have inv := joinInv_run player published schedule
  obtain ⟨ht, hf, hs⟩ := hc
  have ho := inv.order
  rw [ht, hf, Option.toList_none, append_nil, append_nil] at ho
  rw [delivered, filter_append, filter_takes, inv.read (by simp [hs]), filter_take_eq, ← ho,
    filter_drop_eq]

/-- **A player joins in step exactly when its two counts fit**: for every player, every
publication and every interleaving of the two. -/
theorem join_startsAtKey_iff (player : Player) (published : List MediaFrame)
    (schedule : List Actor) (hc : (run player published schedule).Complete) :
    StartsAtKey (mediaFrames published)
        ((run player published schedule).delivered player) ↔
      CountsFit (mediaFrames published)
        (mediaCount published (run player published schedule).readAt)
        (mediaCount published (run player published schedule).subscribedAt) := by
  rw [delivered_eq hc]
  exact startsAtKey_iff (nodup_mediaFrames published) (mediaCount_le published _)
    (mediaCount_le published _)

/-- A key frame and the frame behind it. -/
def twoFrames : List MediaFrame :=
  [.newVideo 0 .h264 0 0 0 [0x17, 1, 0, 0, 0, 1] true,
   .newVideo 0 .h264 40 40 40 [0x27, 1, 0, 0, 0, 2] false]

/-- Joining while nothing is published. -/
theorem join_startsAtKey_quiet : (run .rtmp twoFrames
      [.publisher, .publisher, .player, .player, .publisher, .publisher]).Complete ∧
    StartsAtKey (mediaFrames twoFrames) ((run .rtmp twoFrames
      [.publisher, .publisher, .player, .player, .publisher, .publisher]).delivered .rtmp) :=
  ⟨by decide +kernel,
    (join_startsAtKey_iff .rtmp twoFrames [.publisher, .publisher, .player, .player, .publisher,
      .publisher] (by decide +kernel)).mpr (by decide +kernel)⟩

/-- The second frame is published between the two steps of the player: the RTMP player
never gets it and the SDK gets it twice. And a frame that is in flight while the RTMP
player makes both steps also comes twice. -/
theorem join_not_startsAtKey : ¬ StartsAtKey (mediaFrames twoFrames) ((run .rtmp twoFrames
      [.publisher, .publisher, .player, .publisher, .publisher, .player]).delivered .rtmp) ∧
    ¬ StartsAtKey (mediaFrames twoFrames) ((run .httpFlv twoFrames
      [.publisher, .player, .player, .publisher, .publisher, .publisher]).delivered .httpFlv) ∧
    ¬ StartsAtKey (mediaFrames twoFrames) ((run .sdk twoFrames
      [.publisher, .publisher, .player, .publisher, .publisher, .player]).delivered .sdk) := by
  refine ⟨?_, ?_, ?_⟩
  all_goals
    rw [delivered_eq (by decide +kernel), startsAtKey_iff (nodup_mediaFrames _) (mediaCount_le _ _)
      (mediaCount_le _ _)]
    decide +kernel

end MediaKit.Core
