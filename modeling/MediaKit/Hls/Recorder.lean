import MediaKit.Lib.Schedule

/-!
# Recording to HLS

`HlsRecorder::record` (`crates/hls/src/recorder.rs`) beside the stop of the recorder supervisor
(`crates/server/src/main.rs`), which calls `notify_waiters` on the `Notify` that both share. The
call marks the `notified()` future of a recorder that is in `select!` and leaves nothing behind for
one that is not. Each turn of the loop makes a new future, so a mark is lost when `select!`, which
tries its ready branches in a random order, takes the branch of the receiver.

Mirroring notes vs the Rust source:
  * the channel is the list of the frames that wait in it; a lag drops its first ones.
  * of the muxer the model keeps the frames pushed into it; whether a push ends a segment, and the
    index of the segment, is an argument of the step, and so is whether a file is written.
  * `taken` and `atStop` are for the statements only.
-/

namespace MediaKit.Hls

open Lib List Option

variable {φ : Type}

/-- Where the recorder is. -/
inductive RecorderPhase (φ : Type) where
  /-- Before the loop. -/
  | starting
  /-- In `select!`, with the mark of its `notified()` future. -/
  | waiting (notified : Bool)
  /-- Behind `recv`, before `push_frame`. -/
  | holding (frame : φ)
  /-- Behind `push_frame`, with the index of the segment that it writes. -/
  | writing (idx : Option Nat)
  | ended
  deriving DecidableEq

structure Recorder (φ : Type) where
  phase : RecorderPhase φ
  /-- Frames in the channel. -/
  queue : List φ
  /-- Frames pushed into the muxer. -/
  added : List φ
  playlist : List Nat
  /-- Frames that the recorder was given: the cached ones, then those from the channel. -/
  taken : List φ
  /-- What had been taken at the first stop. -/
  atStop : Option (List φ)
  deriving DecidableEq

namespace Recorder

def new : Recorder φ := ⟨.starting, [], [], [], [], none⟩

inductive Action (φ : Type) where
  /-- The directory is made or not; then the cached configuration frames are pushed and the channel
  is joined. -/
  | start (created : Bool) (configFrames : List φ)
  | publish (frame : φ)
  | receive
  | push (idx : Option Nat)
  | written (ok : Bool)
  | lag (n : Nat)
  /-- The branch of the signal, with the index of the last segment if one is flushed and written. -/
  | stopSignal (flushed : Option Nat)
  /-- The channel is closed and empty. -/
  | closed (flushed : Option Nat)
  /-- The supervisor's `notify_waiters`. -/
  | stop

def step (s : Recorder φ) : Action φ → Option (Recorder φ)
  | .start created configFrames =>
    match s.phase with
    | .starting =>
      if created then some
        { s with phase := .waiting false, taken := configFrames, added := configFrames }
      else some { s with phase := .ended }
    | _ => none
  | .publish frame =>
    match s.phase with
    | .starting | .ended => some s
    | _ => some { s with queue := s.queue ++ [frame] }
  | .receive =>
    match s.phase, s.queue with
    | .waiting _, frame :: rest =>
      some { s with phase := .holding frame, queue := rest, taken := s.taken ++ [frame] }
    | _, _ => none
  | .push idx =>
    match s.phase with
    | .holding frame => some { s with phase := .writing idx, added := s.added ++ [frame] }
    | _ => none
  | .written ok =>
    match s.phase with
    | .writing idx =>
      some { s with
        phase := .waiting false, playlist := if ok then s.playlist ++ idx.toList else s.playlist }
    | _ => none
  | .lag n =>
    match s.phase with
    | .waiting _ => some { s with phase := .writing none, queue := s.queue.drop n }
    | _ => none
  | .stopSignal flushed =>
    match s.phase with
    | .waiting true => some { s with phase := .ended, playlist := s.playlist ++ flushed.toList }
    | _ => none
  | .closed flushed =>
    match s.phase, s.queue with
    | .waiting _, [] => some { s with phase := .ended, playlist := s.playlist ++ flushed.toList }
    | _, _ => none
  | .stop =>
    -- no permit is stored: the call says nothing to a recorder that is not waiting
    let phase := match s.phase with
      | .waiting _ => .waiting true
      | phase => phase
    some { s with phase, atStop := s.atStop.or (some s.taken) }

/-- Only frames that had been taken by the time of the stop are added. -/
def Heeded (s : Recorder φ) : Prop := ∀ taken ∈ s.atStop, s.added <+: taken

/-- A stop finds the recorder in `select!` or ended, and there the signal goes first. -/
def Prompt (s : Recorder φ) : Action φ → Prop
  | .stop => s.phase = .ended ∨ s.phase = .waiting false ∨ s.phase = .waiting true
  | .receive | .lag _ => s.phase ≠ .waiting true
  | _ => True

instance [DecidableEq φ] (s : Recorder φ) : (a : Action φ) → Decidable (Prompt s a)
  | .stop => inferInstanceAs (Decidable (_ ∨ _))
  | .receive | .lag _ => inferInstanceAs (Decidable (_ ≠ _))
  | .start .. | .publish _ | .push _ | .written _ | .stopSignal _ | .closed _ => .isTrue trivial

/-- The frame that the recorder is busy with. -/
def held (s : Recorder φ) : List φ :=
  match s.phase with
  | .holding frame => [frame]
  | _ => []

/-- What holds while every stop is heeded: behind a stop the recorder waits with the mark or has
ended. -/
structure Stopping (s : Recorder φ) : Prop where
  taken : s.taken = s.added ++ s.held
  marked : ∀ taken ∈ s.atStop, s.taken = taken ∧ (s.phase = .waiting true ∨ s.phase = .ended)

variable {s s' : Recorder φ}

theorem Stopping.heeded (h : s.Stopping) : s.Heeded := fun taken ht => by
  rw [← (h.marked taken ht).1, h.taken]
  exact prefix_append _ _

theorem Stopping.atStop_eq_none (h : s.Stopping) (hw : s.phase ≠ .waiting true)
    (he : s.phase ≠ .ended) : s.atStop = none := by
  cases hs : s.atStop with
  | none => rfl
  | some taken => exact ((h.marked taken hs).2.elim hw he).elim

theorem stopping_of_none (htk : s.taken = s.added ++ s.held) (hn : s.atStop = none) : s.Stopping :=
  ⟨htk, fun taken ht => by rw [hn] at ht; cases ht⟩

theorem stopping_stop {phase : RecorderPhase φ} (h : s.Stopping)
    (hp : phase = .waiting true ∨ phase = .ended)
    (hi : s.held = []) : Stopping { s with phase, atStop := s.atStop.or (some s.taken) } := by
  refine ⟨?_, fun taken ht => ⟨?_, hp⟩⟩
  · rw [h.taken, hi]
    rcases hp with rfl | rfl <;> rfl
  · cases hs : s.atStop with
    | none => rw [hs] at ht; exact some.inj ht
    | some r => rw [hs] at ht; exact some.inj ht ▸ (h.marked r hs).1

theorem stopping_step (h : s.Stopping) (a : Action φ) (hok : Prompt s a) (hs : s.step a = some s') :
    s'.Stopping := by
  have htk := h.taken
  have hn := h.atStop_eq_none
  rcases s with ⟨phase, queue, added, playlist, taken, atStop⟩
  cases a with
  | stop =>
    cases hs
    rcases hok with rfl | rfl | rfl
    · exact stopping_stop h (.inr rfl) rfl
    · exact stopping_stop h (.inl rfl) rfl
    · exact stopping_stop h (.inl rfl) rfl
  | publish frame => cases phase <;> cases hs <;> exact ⟨htk, h.marked⟩
  | start created configFrames =>
    cases phase <;> try cases hs
    have hn := hn nofun nofun
    cases created <;> cases hs
    · exact stopping_of_none htk hn
    · exact stopping_of_none (append_nil _).symm hn
  | receive =>
    cases phase <;> try cases hs
    cases queue with
    | nil => cases hs
    | cons frame rest =>
      cases hs
      -- a mark would be lost here
      have hn := hn hok nofun
      refine stopping_of_none ?_ hn
      rw [show taken = added ++ [] from htk, append_nil]
      rfl
  | push idx =>
    cases phase <;> cases hs
    exact stopping_of_none (htk.trans (append_nil _).symm) (hn nofun nofun)
  | written ok =>
    cases phase <;> cases hs
    exact stopping_of_none htk (hn nofun nofun)
  | lag n =>
    cases phase <;> cases hs
    exact stopping_of_none htk (hn hok nofun)
  | stopSignal flushed =>
    rcases phase with _ | (_ | _) | _ | _ | _ <;> cases hs
    exact ⟨htk, fun t ht => ⟨(h.marked t ht).1, .inr rfl⟩⟩
  | closed flushed =>
    cases phase <;> cases queue <;> cases hs
    exact ⟨htk, fun t ht => ⟨(h.marked t ht).1, .inr rfl⟩⟩

/-- **A stop is heeded** in every run in which it finds the recorder in `select!` or ended, and in
which `select!` takes the branch of the signal once it is there: no frame is added that had not been
taken before. -/
theorem stop_heeded (schedule : List (Action φ)) (s : Recorder φ)
    (hrun : runSchedule step .new schedule = some s)
    (hok : Along step Prompt .new schedule) : s.Heeded :=
  (run_invariant_of (fun _ a _ => fun h => stopping_step h a) (stopping_of_none rfl rfl) hok
    hrun).heeded

/-- Two frames are recorded, the recorder is stopped in `select!` and a third frame stays in the
channel. -/
private def stoppedWaiting : List (Action Nat) :=
  [.start true [0], .publish 1, .receive, .push none, .written true, .publish 2, .receive,
    .push (some 0), .written true, .publish 3, .stop, .stopSignal (some 1)]

theorem stopped_waiting_heeded : ∃ s, runSchedule step .new stoppedWaiting = some s ∧
    s.added = [0, 1, 2] ∧ s.Heeded := by
  obtain ⟨s, hs, ha, hok⟩ : ∃ s, runSchedule step .new stoppedWaiting = some s ∧
    s.added = [0, 1, 2] ∧
      Along step Prompt .new stoppedWaiting := by decide +kernel
  exact ⟨s, hs, ha, stop_heeded stoppedWaiting s hs hok⟩

/-- A stop during the write of a segment, and one whose mark is lost to a frame. -/
theorem stop_missed :
    (∃ s, runSchedule step .new [.start true [], .publish 1, .receive, .push (some 0), .stop,
      .written true, .publish 2,
      .receive, .push none] = some s ∧ s.atStop = some [1] ∧ s.added = [1, 2]) ∧
    ∃ s, runSchedule step .new [.start true [], .publish 1, .stop, .receive, .push none] = some s ∧
    s.atStop = some [] ∧
      s.added = [1] := by
  decide +kernel

end Recorder

end MediaKit.Hls
