import MediaKit.Core.MediaSource

/-!
# Sources that stay open

Who closes sources: `close_stream` of the manager, which takes the source out as well; the `DELETE`
of a WHIP session (`handle_delete` of `crates/webrtc/src/server.rs`), which closes the source of the
session and then its stream; and the end of a transcoding session
(`crates/transcode/src/manager.rs`), which closes the destination and leaves it in the manager.

Main result: `sources_serve_iff`. At all times of a run every source in the manager delivers what is
published into it, exactly if the spawned `stop` of each deleted transcoding session finds its
destination out of the manager.

Mirroring notes vs the Rust source:
- The operations are complete steps in sequence. `del_transcode` spawns the `stop` of the session,
  which is a step of its own at any later time.
- Of a transcoding session what the manager of sessions needs: names and sources. The ffmpeg
  process, the loop that feeds it and what is only reported (codecs, counters, times) are left out;
  the loop publishes into the destination, which opens and closes nothing. -/

namespace MediaKit.Transcode

open MediaKit.Core Lib Option Function

structure TranscodeConfig where
  name : Str
  dstApp : Option Str
  dstStream : Option Str

structure TranscodeSession where
  key : Str
  vhost : Str
  app : Str
  stream : Str
  dstApp : Str
  dstStream : Str
  source : Nat
  dest : Nat
  deriving DecidableEq

structure TranscodeSystem where
  sources : SourceManager
  sessions : Str → Option TranscodeSession
  /-- The sessions whose `stop` is spawned. -/
  stopping : List TranscodeSession
  /-- The sources of the WHIP sessions, by their resource. -/
  publishSessions : Str → Option Nat

namespace TranscodeSystem

def new : TranscodeSystem := ⟨.empty, fun _ => none, [], fun _ => none⟩

variable (s : TranscodeSystem)

/-- `add_transcode`, and the session whose info it returns. -/
def addTranscode (vhost app stream : Str) (config : TranscodeConfig) :
    TranscodeSystem × TranscodeSession :=
  let name := config.dstStream.getD (stream ++ config.name)
  let dstApp := config.dstApp.getD app
  let key := streamKey vhost app stream ++ '/' :: name
  match s.sessions key with
  | some existing => (s, existing)
  | none =>
    let source := s.sources.getOrCreate vhost app stream
    let dest := source.1.getOrCreate vhost dstApp name
    let session := ⟨key, vhost, app, stream, dstApp, name, source.2, dest.2⟩
    ({ s with sources := dest.1, sessions := update s.sessions key (some session) }, session)

/-- `del_transcode`: whether there was a session. -/
def delTranscode (key : Str) : TranscodeSystem × Bool :=
  match s.sessions key with
  | some session =>
    ({ s with sessions := update s.sessions key none, stopping := session :: s.stopping }, true)
  | none => (s, false)

def stop (session : TranscodeSession) : Option TranscodeSystem :=
  if session ∈ s.stopping then
    some { s with
      stopping := s.stopping.erase session, sources := s.sources.closeSource session.dest }
  else none

/-- A WHIP session is negotiated. -/
def whipPublish (resource vhost app stream : Str) : Option TranscodeSystem :=
  if (s.publishSessions resource).isSome then none
  else
    let source := s.sources.getOrCreate vhost app stream
    some { s with
      sources := source.1, publishSessions := update s.publishSessions resource (some source.2) }

/-- `handle_delete` for a WHIP resource, to its end: whether there was a session. -/
def handleDelete (resource : Str) : TranscodeSystem × Bool :=
  match s.publishSessions resource with
  | none => (s, false)
  | some h =>
    match s.sources.heap h with
    | none => (s, false)
    | some source =>
      -- `session.close()` and then `close_stream` with the identity of its source
      ({ s with
          sources := ((s.sources.closeSource h).closeStream source.vhost source.app source.stream).1
          publishSessions := update s.publishSessions resource none }, true)

end TranscodeSystem

open TranscodeSystem

inductive SourceAction where
  | getOrCreate (vhost app stream : Str)
  | remove (vhost app stream : Str)
  | closeStream (vhost app stream : Str)
  | addTranscode (vhost app stream : Str) (config : TranscodeConfig)
  | delTranscode (key : Str)
  | stop (session : TranscodeSession)
  | whipPublish (resource vhost app stream : Str)
  | whipDelete (resource : Str)

def TranscodeSystem.step (s : TranscodeSystem) : SourceAction → Option TranscodeSystem
  | .getOrCreate vhost app stream =>
      some { s with sources := (s.sources.getOrCreate vhost app stream).1 }
  | .remove vhost app stream => some { s with sources := s.sources.removeSource vhost app stream }
  | .closeStream vhost app stream =>
    some { s with sources := (s.sources.closeStream vhost app stream).1 }
  | .addTranscode vhost app stream config => some (s.addTranscode vhost app stream config).1
  | .delTranscode key => some (s.delTranscode key).1
  | .stop session => s.stop session
  | .whipPublish resource vhost app stream => s.whipPublish resource vhost app stream
  | .whipDelete resource => some (s.handleDelete resource).1

/-! ## Every source in the manager is open -/

/-- Each source in the manager has its sender and delivers. -/
def Serving (m : SourceManager) : Prop :=
  ∀ id h, m.names id = some h → ∃ src, m.heap h = some src ∧ src.IsOpen ∧ src.Serves

def AllOpen (m : SourceManager) : Prop := ∀ id h, m.names id = some h → m.OpenAt h

theorem serving_iff (m : SourceManager) : Serving m ↔ AllOpen m := by
  unfold Serving AllOpen SourceManager.OpenAt
  simp only [MediaSource.serves_iff, and_self]

namespace AllOpen

variable {m : SourceManager}

theorem getOrCreate (h : AllOpen m) (vhost app stream : Str) :
    AllOpen (m.getOrCreate vhost app stream).1 := by
  intro id n hn
  obtain ⟨hs, ho, -⟩ := m.getOrInsert_spec (.new vhost app stream)
  by_cases hid : id = streamKey vhost app stream
  · subst hid
    have hn' : (m.getOrCreate vhost app stream).2 = n := some.inj (hs.symm.trans hn)
    rw [← hn']
    exact m.openAt_getOrCreate_self fun n' hn' => h _ n' hn'
  · exact m.openAt_getOrCreate _ _ _ (h id n ((ho id hid).symm.trans hn))

theorem removeSource (h : AllOpen m) (vhost app stream : Str) :
    AllOpen (m.removeSource vhost app stream) := by
  intro id n hn
  exact h id n (of_update_none hn).2

/-- `close_stream` of the one id that may have a closed source. -/
theorem closeId {id : Str} (h : ∀ id' n, id' ≠ id → m.names id' = some n → m.OpenAt n) :
    AllOpen (m.closeId id).1 := by
  intro id' n hn
  rw [m.closeId_names] at hn
  obtain ⟨hid, hn⟩ := of_update_none hn
  exact (m.openAt_closeId fun heq => hid (m.names_inj hn heq)).mpr (h id' n hid hn)

/-- A source is closed by its holder: all are open if it is not in the manager. -/
theorem closeSource_iff (h : AllOpen m) (n : Nat) :
    AllOpen (m.closeSource n) ↔ ∀ id, m.names id ≠ some n := by
  constructor
  · intro hop id hid
    exact m.not_openAt_closeSource n (hop id n hid)
  · intro hot id n' hn'
    have hne : n' ≠ n := fun heq => hot id (heq ▸ hn')
    exact (m.openAt_closeSource hne).mpr (h id n' hn')

end AllOpen

/-- The `stop` of a session finds the destination out of the manager. -/
def StopsDetached (s : TranscodeSystem) : SourceAction → Prop
  | .stop session => ∀ id, s.sources.names id ≠ some session.dest
  | _ => True

instance (s : TranscodeSystem) : (a : SourceAction) → Decidable (StopsDetached s a)
  | .stop session =>
      decidable_of_iff (∀ src ∈ s.sources.heap session.dest, s.sources.names src.id ≠
        some session.dest)
      s.sources.not_named_iff.symm
  | .getOrCreate .. | .remove .. | .closeStream .. | .addTranscode .. | .delTranscode
    _ | .whipPublish .. | .whipDelete _ =>
    .isTrue trivial

theorem allOpen_step {s s' : TranscodeSystem} {a : SourceAction} (h : AllOpen s.sources)
    (hs : s.step a = some s') : AllOpen s'.sources ↔ StopsDetached s a := by
  cases a with
  | getOrCreate vhost app stream =>
    cases hs
    exact iff_of_true (h.getOrCreate vhost app stream) trivial
  | remove vhost app stream =>
    cases hs
    exact iff_of_true (h.removeSource vhost app stream) trivial
  | closeStream vhost app stream =>
    cases hs
    exact iff_of_true (AllOpen.closeId fun id n _ hn => h id n hn) trivial
  | addTranscode vhost app stream config =>
    cases hs
    refine iff_of_true ?_ trivial
    unfold addTranscode
    simp only
    split
    · exact h
    · exact (h.getOrCreate _ _ _).getOrCreate _ _ _
  | delTranscode key =>
    cases hs
    refine iff_of_true ?_ trivial
    unfold delTranscode
    split <;> exact h
  | stop session =>
    obtain ⟨-, ⟨⟩⟩ := ite_none_right_eq_some.mp hs
    exact h.closeSource_iff session.dest
  | whipPublish resource vhost app stream =>
    simp only [step, whipPublish] at hs
    split at hs
    · cases hs
    · cases hs
      exact iff_of_true (h.getOrCreate vhost app stream) trivial
  | whipDelete resource =>
    cases hs
    refine iff_of_true ?_ trivial
    unfold handleDelete
    split
    · exact h
    case h_2 n hn =>
      split
      · exact h
      case h_2 source hsr =>
        -- the source that is closed here is in the manager under its own id at most, which goes
        -- next
        refine AllOpen.closeId fun id n' hid hn' => ?_
        have hne : n' ≠ n := by
          rintro rfl
          obtain ⟨o, ho, hk⟩ := s.sources.named id n' hn'
          rw [hsr] at ho
          cases ho
          exact hid (hk.symm.trans source.id_eq)
        exact (s.sources.openAt_closeSource hne).mpr (h id n' hn')

/-- **At all times every source in the manager serves**, exactly in the runs in which no transcoding
session is stopped while its destination is in the manager. -/
theorem sources_serve_iff (as : List SourceAction) (s : TranscodeSystem)
    (hrun : runSchedule step .new as = some s) :
    (∀ n t, runSchedule step .new (as.take n) = some t → Serving t.sources) ↔
      Along step StopsDetached .new as := by
  simp only [serving_iff]
  exact run_always_iff (I := fun _ => True) (P := fun s => AllOpen s.sources)
    (fun _ _ _ _ _ _ => trivial)
    (fun _ _ _ _ h hs => allOpen_step h hs) trivial (fun _ _ hn => by cases hn) hrun

/-- The destination is closed as a stream before its session is deleted. -/
theorem closed_before_deleted : let as : List SourceAction :=
  [.addTranscode ['v'] ['a'] ['s'] ⟨['o'], none, none⟩, .closeStream ['v'] ['a'] ['s', 'o'],
      .delTranscode "v/a/s/so", .stop ⟨"v/a/s/so", ['v'], ['a'], ['s'], ['a'], ['s', 'o'], 0, 1⟩]
    ∃ s, runSchedule step .new as = some s ∧
      ∀ n t, runSchedule step .new (as.take n) = some t → Serving t.sources := by
  intro as
  have hs : (runSchedule step .new as).isSome = true := by decide +kernel
  obtain ⟨s, hrun⟩ := isSome_iff_exists.mp hs
  exact ⟨s, hrun, (sources_serve_iff as s hrun).mpr (by decide +kernel)⟩

/-- A transcoding session is added and deleted: its destination is still found, and delivers
nothing. -/
theorem destination_left_closed : let as : List SourceAction :=
  [.addTranscode ['v'] ['a'] ['s'] ⟨['o'], none, none⟩, .delTranscode "v/a/s/so",
      .stop ⟨"v/a/s/so", ['v'], ['a'], ['s'], ['a'], ['s', 'o'], 0, 1⟩,
      .getOrCreate ['v'] ['a'] ['s', 'o']]
    ∃ s, runSchedule step .new as = some s ∧ s.sources.get ['v'] ['a'] ['s', 'o'] = some 1 ∧
      (∃ src, s.sources.heap 1 = some src ∧ ¬src.IsOpen ∧ ¬src.Serves) ∧ ¬Serving s.sources := by
  intro as
  obtain ⟨s, hrun, hg, src, hsc, htx⟩ : ∃ s, runSchedule step .new as = some s ∧
      s.sources.get ['v'] ['a'] ['s', 'o'] = some 1 ∧ ∃ src, s.sources.heap 1 = some src ∧
      src.frameTx.isSome ≠ true := by
    decide +kernel
  have hn : ¬src.IsOpen := htx
  refine ⟨s, hrun, hg, ⟨src, hsc, hn, fun hsr => hn (src.serves_iff.mp hsr)⟩, fun hsv => ?_⟩
  obtain ⟨src', hsc', ho, -⟩ := hsv _ 1 hg
  rw [hsc] at hsc'
  cases hsc'
  exact hn ho

end MediaKit.Transcode
