import MediaKit.Lib.Trace
import MediaKit.Rtmp.Session

/-!
# Which streams an RTMP session may touch

`StreamsRespected` is what a log of `RtmpSession` should show: frames and track
changes only in sources that an accepted publish returned, `close_stream` and
`StreamUnPublish` only for streams of an accepted publish, and every such stream
closed in the end. (`get_or_create` is called by an accepted publish and by nothing
else, so its entry in the log stands for the acceptance.)

The code does not keep this: `handle_publish` sets `is_publisher` and the name
before it asks the hook and `StreamAuth`, `cleanup` acts on whatever names are
stored, and a second publish or a play drops the first stream without closing it.
`session_streams_respected`: in every run that avoids the three (`Lease.ok`) the log
is as it should be.
-/

namespace MediaKit.Rtmp

open Lib MediaKit.Core List Option SessionEffect

/-- A stream, by its app and its name. -/
abbrev StreamName := Str × Str

namespace SessionEffect

/-- The source whose frames or tracks an effect changes. -/
def writesTo : SessionEffect → Option SourceHandle
  | clearTracks h | pushTrack h _ | publishAndCache h _ => some h
  | _ => none

/-- The stream that an effect ends. -/
def ends : SessionEffect → Option StreamName
  | streamUnPublish app stream | closeStream app stream => some (app, stream)
  | _ => none

end SessionEffect

/-- An accepted publish of `n` stands in the log. -/
def Accepted (log : List SessionEffect) (n : StreamName) (h : SourceHandle) : Prop :=
  .getOrCreate n.1 n.2 h ∈ log

/-- An accepted publish opens its stream. -/
def Opens (e : SessionEffect) (n : StreamName) : Prop := ∃ h, e = .getOrCreate n.1 n.2 h

def Closes (e : SessionEffect) (n : StreamName) : Prop := e = .closeStream n.1 n.2

/-- What the log of a session should show. -/
structure StreamsRespected (log : List SessionEffect) : Prop where
  writes : Justified (fun past e => ∀ h, e.writesTo = some h → ∃ n, Accepted past n h) log
  ends : Justified (fun past e => ∀ n, e.ends = some n → ∃ h, Accepted past n h) log
  closed : ∀ n, ¬ Owed Opens Closes log n

/-! ## Runs -/

/-- A message with the answers it meets, or the `cleanup` at the end of `run`. -/
inductive SessionInput where
  | message (env : SessionEnv) (msg : RtmpMessage)
  | cleanup

variable (s : RtmpSession)

namespace RtmpSession

def step : SessionInput → RtmpSession × List SessionEffect
  | .message env msg => s.handleMessage env msg
  | .cleanup => s.cleanup

end RtmpSession

/-- How a step was decided, without its effects. -/
inductive SessionOutcome where
  | accepted (n : StreamName) (h : SourceHandle)
  | refused
  | played (otherSource : Bool)
  | renamed
  | media
  | cleaned
  | other
  deriving DecidableEq

namespace RtmpSession

variable (env : SessionEnv) (s : RtmpSession)

/-- A publish, by the answer it got. -/
def publishOutcome (values : List AmfValue) : SessionOutcome :=
  match (s.handlePublish env values).2 with
  | .getOrCreate app stream h :: _ => .accepted (app, stream) h
  | _ => .refused

/-- A command that may set the names, by whether it did. -/
def renameOutcome (s' : RtmpSession) : SessionOutcome :=
  if (s'.app, s'.streamName) = (s.app, s.streamName) then .other else .renamed

def namedOutcome (cmd : Str) (values : List AmfValue) : SessionOutcome :=
  if cmd = "connect" ∨ cmd = "releaseStream" then
    s.renameOutcome (s.handleNamed env cmd values).1
  else if cmd = "publish" then s.publishOutcome env values
  else if cmd = "play" then .played (decide ((s.handlePlay env values).source ≠ s.source))
  else if cmd = "deleteStream" ∨ cmd = "closeStream" then .cleaned
  else .other

def commandOutcome (data : Bytes) : SessionOutcome :=
  match namedValues data with
  | some (cmd, values) => s.namedOutcome env cmd values
  | none => .other

/-- `onMetaData` is the data message that reaches a source. -/
def isMetaData (data : Bytes) : Bool := (namedValues data).any fun p => p.1 = "onMetaData".toList

def outcome : SessionInput → SessionOutcome
  | .message env (.amf0Command _ _ data) => s.commandOutcome env data
  | .message _ (.amf0Data _ _ data) => if isMetaData data then .media else .other
  | .message _ (.video _ _ data) => if (normalizeEnhancedVideo data).isSome then .media else .other
  | .message _ (.audio _ _ _) => .media
  | .message _ _ => .other
  | .cleanup => .cleaned

end RtmpSession

/-! ## The lease: what the outcomes amount to -/

/-- The last publish or play command. -/
inductive LastCommand where
  | none
  | refusedPublish
  | acceptedPublish (n : StreamName)
  deriving DecidableEq

/-- The last publish or play command, the accepted stream that no cleanup has
followed yet, and whether the session holds the source of a play. -/
structure Lease where
  last : LastCommand
  pending : Option StreamName
  viewing : Bool
  deriving DecidableEq

namespace Lease

def new : Lease := ⟨.none, none, false⟩

def note (g : Lease) : SessionOutcome → Lease
  | .accepted n _ => ⟨.acceptedPublish n, some n, false⟩
  | .refused => { g with last := .refusedPublish }
  | .played otherSource => ⟨.none, g.pending, g.viewing || otherSource⟩
  | .cleaned => { g with pending := none, viewing := false }
  | .renamed | .media | .other => g

/-- The steps that keep the lease: no cleanup while the last publish was refused,
no media then into the source of a play, no change of the names while the last
publish was accepted, and no play or other stream before its cleanup. -/
def ok (g : Lease) : SessionOutcome → Prop
  | .accepted n _ => g.pending = none ∨ g.pending = some n
  | .played _ => g.pending = none
  | .renamed => g.last = .none ∨ g.last = .refusedPublish
  | .media => g.last = .refusedPublish → g.viewing = false
  | .cleaned => g.last ≠ .refusedPublish
  | .refused | .other => True

instance decidableOk (g : Lease) : ∀ o, Decidable (g.ok o)
  | .accepted _ _ => inferInstanceAs (Decidable (_ ∨ _))
  | .played _ => inferInstanceAs (Decidable (_ = _))
  | .renamed => inferInstanceAs (Decidable (_ ∨ _))
  | .media => inferInstanceAs (Decidable (_ → _))
  | .cleaned => inferInstanceAs (Decidable (_ ≠ _))
  | .refused | .other => .isTrue trivial

end Lease

/-! ## What one step can do -/

namespace RtmpSession

variable (env : SessionEnv) (s : RtmpSession)
  {es : List SessionEffect} {t : RtmpSession}

/-- A media message changes no field, and what it writes goes to the source of a
session whose publisher flag is set. -/
def MediaEffects (es : List SessionEffect) : Prop :=
  ∀ e ∈ es, e.ends = none ∧ (∀ n, ¬ Opens e n) ∧
    ∀ h, e.writesTo = some h → s.isPublisher = true ∧ s.source = some h

theorem mediaEffects_nil : MediaEffects s [] := by
  intro e he
  simp at he

variable {s : RtmpSession}

theorem mediaEffects_of_writesTo {source : SourceHandle} (hp : s.isPublisher = true)
    (hs : s.source = some source)
    (hes : ∀ e ∈ es, e.writesTo = some source) : MediaEffects s es := by
  intro e he
  have hw := hes e he
  refine ⟨?_, ?_, fun h hh => ⟨hp, ?_⟩⟩
  · cases e <;> simp_all [writesTo, ends]
  · rintro n ⟨h, rfl⟩
    simp [writesTo] at hw
  · rw [hs, ← hw, hh]

/-- The two media branches: a track if the source lacks it, then the frame. -/
theorem writesTo_track_frame {p : Prop} [Decidable p] (source : SourceHandle) (track : TrackInfo)
    (frame : MediaFrame) :
    ∀ e ∈ (if p then [pushTrack source track] else []) ++
      [.publishAndCache source frame], e.writesTo = some source := by
  intro e he
  rw [mem_append, mem_singleton] at he
  rcases he with he | rfl
  · split at he
    · rw [mem_singleton.mp he, writesTo]
    · simp at he
  · rfl

theorem mediaEffects_handleVideo (timestamp : UInt32) (data : Bytes) :
    MediaEffects s (s.handleVideo env timestamp data) ∧
      ((normalizeEnhancedVideo data).isSome = false → s.handleVideo env timestamp data = []) := by
  unfold handleVideo
  split
  next hp =>
    split
    next source data' hs hn =>
      exact ⟨mediaEffects_of_writesTo hp hs (writesTo_track_frame source _ _), by simp [hn]⟩
    next => exact ⟨s.mediaEffects_nil, fun _ => rfl⟩
  next => exact ⟨s.mediaEffects_nil, fun _ => rfl⟩

theorem mediaEffects_handleAudio (timestamp : UInt32) (data : Bytes) :
    MediaEffects s (s.handleAudio env timestamp data) := by
  unfold handleAudio
  split
  next hp =>
    split
    next source hs => exact mediaEffects_of_writesTo hp hs (writesTo_track_frame source _ _)
    next => exact s.mediaEffects_nil
  next => exact s.mediaEffects_nil

/-- A data message that is no `onMetaData` writes nothing. -/
theorem mediaEffects_handleData (data : Bytes) :
    MediaEffects s (s.handleData data) ∧ (isMetaData data = false → s.handleData data = []) := by
  unfold handleData isMetaData
  split
  next cmd values hv =>
    rw [hv, any_some, decide_eq_false_iff_not]
    by_cases hc : cmd = "onMetaData" ∧ s.isPublisher = true
    · rw [if_pos hc]
      refine ⟨?_, fun h => absurd hc.1 h⟩
      split
      next source hs => exact mediaEffects_of_writesTo hc.2 hs (by simp [writesTo])
      next => exact s.mediaEffects_nil
    · rw [if_neg hc]
      exact ⟨s.mediaEffects_nil, fun _ => rfl⟩
  next => exact ⟨s.mediaEffects_nil, fun _ => rfl⟩

variable (values : List AmfValue)

/-- A publish, accepted or refused: both kinds set the flag and the name. -/
theorem handlePublish_cases : (∃ name h, h = env.getOrCreate s.app name ∧
      s.handlePublish env values = (⟨some h, s.app, name, true⟩,
        [.getOrCreate s.app name h, .clearTracks h, .streamPublish s.app name])) ∨
    (∃ name, s.handlePublish env values = ({ s with streamName := name, isPublisher := true },
      [])) := by
  unfold handlePublish
  dsimp only
  split
  next => exact .inr ⟨_, rfl⟩
  next =>
    split
    next => exact .inr ⟨_, rfl⟩
    next => exact .inl ⟨_, _, rfl, rfl⟩

theorem handlePlay_cases : ∃ name source, s.handlePlay env values =
      { s with isPublisher := false, streamName := name, source := source } := by
  unfold handlePlay
  dsimp only
  split
  next => exact ⟨_, _, rfl⟩
  next =>
    split
    next => exact ⟨_, _, rfl⟩
    next =>
      split
      next => exact ⟨_, _, rfl⟩
      next => split <;> exact ⟨_, _, rfl⟩

/-- `t` is `s` but for the names. -/
def Renamed (s t : RtmpSession) : Prop := t.source = s.source ∧ t.isPublisher = s.isPublisher

theorem renamed_parseTcUrl (h : Renamed s t) (tcUrl : Str) : Renamed s (parseTcUrl t tcUrl) := by
  unfold parseTcUrl
  dsimp only
  split <;> exact h

/-- `connect` sets the names and nothing else. -/
theorem renamed_handleConnect : Renamed s (s.handleConnect values) := by
  unfold handleConnect
  dsimp only
  split
  next pairs _ =>
    refine foldlRecOn pairs _ (show Renamed s s from ⟨rfl, rfl⟩) ?_
    intro t ht p _
    split
    next =>
      split
      next => exact renamed_parseTcUrl ht _
      next => exact ht
    next => exact ht
  next => exact ⟨rfl, rfl⟩

/-- What a step can do, with the outcome that says so and the answers of the manager. -/
inductive StepCase (getOrCreate : Str → Str → SourceHandle) (s : RtmpSession) :
    SessionOutcome → RtmpSession × List SessionEffect → Prop
  | accepted (name : Str) (h : SourceHandle) (hh : h = getOrCreate s.app name) :
    StepCase getOrCreate s (.accepted (s.app, name) h) (⟨some h, s.app, name, true⟩,
      [.getOrCreate s.app name h, .clearTracks h, .streamPublish s.app name])
  | refused (name : Str) :
    StepCase getOrCreate s .refused ({ s with streamName := name, isPublisher := true }, [])
  | played (name : Str) (source : Option SourceHandle) :
    StepCase getOrCreate s (.played (decide (source ≠ s.source)))
      ({ s with isPublisher := false, streamName := name, source := source }, [])
  | renamed (t : RtmpSession) (ht : Renamed s t) : StepCase getOrCreate s .renamed (t, [])
  | media (es : List SessionEffect) (hes : MediaEffects s es) :
    StepCase getOrCreate s .media (s, es)
  | cleaned : StepCase getOrCreate s .cleaned s.cleanup
  | other : StepCase getOrCreate s .other (s, [])

variable {getOrCreate : Str → Str → SourceHandle}

theorem stepCase_rename (ht : Renamed s t) :
    StepCase getOrCreate s (s.renameOutcome t) (t, []) := by
  unfold renameOutcome
  split
  next h =>
    obtain rfl : t = s := by
      rcases s with ⟨source, app, name, flag⟩
      rcases t with ⟨source', app', name', flag'⟩
      simp_all [Renamed]
    exact .other
  next => exact .renamed t ht

theorem stepCase_publish :
    StepCase env.getOrCreate s (s.publishOutcome env values) (s.handlePublish env values) := by
  unfold publishOutcome
  rcases s.handlePublish_cases env values with ⟨name, h, hh, heq⟩ | ⟨name, heq⟩
  · rw [heq]
    exact .accepted name h hh
  · rw [heq]
    exact .refused name

theorem stepCase_named (cmd : Str) (values : List AmfValue) :
    StepCase env.getOrCreate s (s.namedOutcome env cmd values) (s.handleNamed env cmd values) := by
  unfold namedOutcome
  by_cases hr : cmd = "connect" ∨ cmd = "releaseStream"
  · rw [if_pos hr, handleNamed]
    by_cases hc : cmd = "connect"
    · rw [if_pos hc]
      exact stepCase_rename (s.renamed_handleConnect values)
    · rw [if_neg hc, if_pos (hr.resolve_left hc)]
      split
      next key _ => exact stepCase_rename ⟨rfl, rfl⟩
      next => exact stepCase_rename ⟨rfl, rfl⟩
  · rw [if_neg hr, handleNamed, if_neg fun h => hr (.inl h), if_neg fun h => hr (.inr h)]
    split
    next => exact s.stepCase_publish env values
    next =>
      split
      next =>
        obtain ⟨name, source, h⟩ := s.handlePlay_cases env values
        rw [h]
        exact .played name source
      next =>
        split
        next => exact .cleaned
        next => exact .other

theorem stepCase_media {b : Bool} (h : MediaEffects s es ∧ (b = false → es = [])) :
    StepCase getOrCreate s (if b then .media else .other) (s, es) := by
  cases b with
  | true => exact .media es h.1
  | false =>
    rw [h.2 rfl]
    exact .other

theorem step_cases (i : SessionInput) (getOrCreate : Str → Str → SourceHandle)
    (hi : ∀ env msg, i = .message env msg → env.getOrCreate = getOrCreate) :
    StepCase getOrCreate s (s.outcome i) (s.step i) := by
  cases i with
  | cleanup => exact .cleaned
  | message env msg =>
    rw [← hi env msg rfl]
    cases msg with
    | amf0Command _ _ data =>
      show StepCase env.getOrCreate s (s.commandOutcome env data) (s.handleCommand env data)
      unfold commandOutcome
      split
      next cmd values hv =>
        rw [handleCommand, hv]
        exact s.stepCase_named env cmd values
      next hv =>
        rw [handleCommand, hv]
        exact .other
    | amf0Data _ _ data => exact s.stepCase_media (s.mediaEffects_handleData data)
    | video _ timestamp data =>
      exact s.stepCase_media (s.mediaEffects_handleVideo env timestamp data)
    | audio _ timestamp data => exact .media _ (s.mediaEffects_handleAudio env timestamp data)
    | _ => exact .other

end RtmpSession

/-! ## The lease holds -/

/-- What the lease says about the fields and the log. -/
structure LeaseInv (g : Lease) (s : RtmpSession) (log : List SessionEffect) : Prop where
  writes : Justified (fun past e => ∀ h, e.writesTo = some h → ∃ n, Accepted past n h) log
  ends : Justified (fun past e => ∀ n, e.ends = some n → ∃ h, Accepted past n h) log
  /-- The flag is set by a publish only. -/
  flag : g.last = .none → s.isPublisher = false ∧ g.pending = none
  held : ∀ n, g.last = .acceptedPublish n → s.isPublisher = true ∧ (s.app, s.streamName) = n ∧
    g.viewing = false ∧ (∃ h, Accepted log n h) ∧ ∀ n', g.pending = some n' → n' = n
  source : ∀ h, s.source = some h → g.viewing = true ∨ ∃ n, Accepted log n h
  owed : ∀ n, Owed Opens Closes log n → g.pending = some n

theorem leaseInv_new : LeaseInv .new .new [] where
  writes := justified_nil _
  ends := justified_nil _
  flag _ := ⟨rfl, rfl⟩
  held n h := by simp [Lease.new] at h
  source h hs := by simp [RtmpSession.new] at hs
  owed n h := absurd h (not_owed_nil _ _ n)

theorem Accepted.append {log : List SessionEffect} {n : StreamName} {h : SourceHandle}
    (ha : Accepted log n h) (new : List SessionEffect) : Accepted (log ++ new) n h :=
  mem_append_left new ha

namespace LeaseInv

variable {g : Lease} {s : RtmpSession} {log : List SessionEffect}

section

variable (inv : LeaseInv g s log)
include inv

/-- A step without effects that keeps `pending` only has to explain the fields. -/
theorem quiet {g' : Lease} {s' : RtmpSession} (hp : g'.pending = g.pending)
    (flag : g'.last = .none → s'.isPublisher = false ∧ g'.pending = none)
    (held : ∀ n, g'.last = .acceptedPublish n → g.last = .acceptedPublish n ∧ g'.viewing =
      g.viewing ∧ s' = s)
    (source : ∀ h, s'.source = some h → g'.viewing = true ∨ ∃ n, Accepted log n h) :
    LeaseInv g' s' (log ++ []) := by
  rw [append_nil]
  refine ⟨inv.writes, inv.ends, flag, ?_, source, ?_⟩
  · intro n hn
    obtain ⟨hg, hv, rfl⟩ := held n hn
    rw [hv, hp]
    exact inv.held n hg
  · intro n hn
    rw [hp]
    exact inv.owed n hn

theorem accepted {name : Str} {h : SourceHandle}
    (hok : g.pending = none ∨ g.pending = some (s.app, name)) :
    LeaseInv ⟨.acceptedPublish (s.app, name), some (s.app, name), false⟩ ⟨some h, s.app, name, true⟩
      (log ++ [.getOrCreate s.app name h, .clearTracks h, .streamPublish s.app name]) := by
  have hin : Accepted (log ++ [.getOrCreate s.app name h]) (s.app, name) h :=
    mem_append_right _ (mem_singleton_self _)
  have hlg : log ++ [.getOrCreate s.app name h, .clearTracks h, .streamPublish s.app name] =
      log ++ [.getOrCreate s.app name h] ++ [.clearTracks h] ++ [.streamPublish s.app name] := by
    simp
  have hin' := (hin.append [.clearTracks h]).append [.streamPublish s.app name]
  rw [hlg]
  refine ⟨?_, ?_, ?_, ?_, ?_, ?_⟩
  · refine ((inv.writes.concat ?_).concat ?_).concat ?_
    · intro h' hw
      simp [writesTo] at hw
    · intro h' hw
      obtain rfl : h = h' := some.inj hw
      exact ⟨_, hin⟩
    · intro h' hw
      simp [writesTo] at hw
  · refine ((inv.ends.concat ?_).concat ?_).concat ?_ <;>
      · intro n hn
        simp [SessionEffect.ends] at hn
  · intro hl
    simp at hl
  · intro n hn
    obtain rfl : (s.app, name) = n := LastCommand.acceptedPublish.inj hn
    exact ⟨rfl, rfl, rfl, ⟨h, hin'⟩, fun n' hn' => (some.inj hn').symm⟩
  · intro h' hs
    obtain rfl : h = h' := some.inj hs
    exact .inr ⟨_, hin'⟩
  · intro n hn
    rw [← hlg] at hn
    -- a stream that is still open is the one that was pending, or the one just opened
    rcases owed_append hn with ⟨hn, -⟩ | hn
    · rcases hok with hp | hp
      · rw [inv.owed n hn] at hp
        simp at hp
      · rw [inv.owed n hn] at hp
        exact hp.symm
    · obtain ⟨e, he, h', rfl⟩ := hn.exists_opens
      simp only [mem_cons, getOrCreate.injEq, not_mem_nil, reduceCtorEq, or_false] at he
      rw [← he.1, ← he.2.1]

theorem media {es : List SessionEffect} (hes : s.MediaEffects es)
    (hok : g.last = .refusedPublish → g.viewing = false) : LeaseInv g s (log ++ es) := by
  refine ⟨inv.writes.append ?_, inv.ends.append ?_, inv.flag, ?_, ?_, ?_⟩
  · intro e he before h hw
    obtain ⟨hp, hs⟩ := (hes e he).2.2 h hw
    have hv : g.viewing = false := by
      cases hl : g.last with
      | none =>
        rw [(inv.flag hl).1] at hp
        simp at hp
      | refusedPublish => exact hok hl
      | acceptedPublish n => exact (inv.held n hl).2.2.1
    rcases inv.source h hs with hv' | ⟨n, hn⟩
    · rw [hv] at hv'
      simp at hv'
    · exact ⟨n, hn.append before⟩
  · intro e he before n hn
    rw [(hes e he).1] at hn
    simp at hn
  · intro n hn
    obtain ⟨hp, hn', hv, ⟨h, ha⟩, hpn⟩ := inv.held n hn
    exact ⟨hp, hn', hv, ⟨h, ha.append es⟩, hpn⟩
  · intro h hs
    exact (inv.source h hs).imp_right fun ⟨n, hn⟩ => ⟨n, hn.append es⟩
  · intro n hn
    rcases owed_append hn with ⟨hn, -⟩ | hn
    · exact inv.owed n hn
    · obtain ⟨e, he, ho⟩ := hn.exists_opens
      exact absurd ho ((hes e he).2.1 n)

theorem cleaned (hok : g.last ≠ .refusedPublish) :
    LeaseInv { g with pending := none, viewing := false } s.cleanup.1 (log ++ s.cleanup.2) := by
  unfold RtmpSession.cleanup
  cases hl : g.last with
  | refusedPublish => exact absurd hl hok
  | none =>
    obtain ⟨hp, hpn⟩ := inv.flag hl
    rw [if_neg (by simp [hp])]
    refine inv.quiet hpn.symm (fun _ => ⟨hp, rfl⟩) (fun n hn => ?_) (fun h hs => ?_)
    · simp at hn
    · simp at hs
  | acceptedPublish n =>
    obtain ⟨hp, rfl, hv, ⟨h, ha⟩, hpn⟩ := inv.held n hl
    rw [if_pos hp]
    refine ⟨?_, ?_, ?_, ?_, ?_, ?_⟩
    · refine inv.writes.append ?_
      intro e he before h' hw
      rcases mem_cons.mp he with rfl | he
      · simp [writesTo] at hw
      · rw [mem_singleton.mp he] at hw
        simp [writesTo] at hw
    · refine inv.ends.append ?_
      intro e he before n hn
      have hnm : n = (s.app, s.streamName) := by
        rcases mem_cons.mp he with rfl | he
        · exact (some.inj hn).symm
        · rw [mem_singleton.mp he] at hn
          exact (some.inj hn).symm
      exact ⟨h, hnm ▸ ha.append before⟩
    · intro hn
      simp at hn
    · intro n hn
      obtain rfl : (s.app, s.streamName) = n := LastCommand.acceptedPublish.inj hn
      exact ⟨hp, rfl, rfl, ⟨h, ha.append _⟩, fun n' hn' => by simp at hn'⟩
    · intro h' hs
      simp at hs
    · intro n hn
      rcases owed_append hn with ⟨hn, hc⟩ | hn
      · -- what was open is the stream that is closed here
        obtain rfl := hpn n (inv.owed n hn)
        exact absurd rfl (hc (.closeStream s.app s.streamName) (by simp))
      · obtain ⟨e, he, h', rfl⟩ := hn.exists_opens
        simp at he

end

end LeaseInv

theorem leaseInv_step {g : Lease} {s : RtmpSession} {log : List SessionEffect} {i : SessionInput}
    (inv : LeaseInv g s log) (hok : g.ok (s.outcome i)) :
    LeaseInv (g.note (s.outcome i)) (s.step i).1 (log ++ (s.step i).2) := by
  obtain ⟨answers, hi⟩ : ∃ answers, ∀ env msg, i = .message env msg → env.getOrCreate =
      answers := by
    cases i with
    | cleanup => exact ⟨fun _ _ => 0, nofun⟩
    | message env msg => exact ⟨env.getOrCreate, by rintro _ _ ⟨⟩; rfl⟩
  have hc := s.step_cases i answers hi
  generalize s.outcome i = o at hc hok
  generalize s.step i = r at hc
  cases hc with
  | accepted name h _ => exact inv.accepted hok
  | refused name =>
    refine inv.quiet rfl (fun h => ?_) (fun n h => ?_) inv.source
    · simp [Lease.note] at h
    · simp [Lease.note] at h
  | played name source =>
    refine inv.quiet rfl (fun _ => ⟨rfl, hok⟩) (fun n h => ?_) (fun h hs => ?_)
    · simp [Lease.note] at h
    · by_cases hsm : source = s.source
      · exact (inv.source h (hsm ▸ hs)).imp_left fun hv => by simp [Lease.note, hv]
      · exact .inl (by simp [Lease.note, hsm])
  | renamed t ht =>
    refine inv.quiet rfl (fun h => ?_) (fun n h => ?_) (fun h hs => ?_)
    · exact ⟨ht.2.trans (inv.flag h).1, (inv.flag h).2⟩
    · have hl : g.last = .acceptedPublish n := h
      rcases hok with hok | hok <;> simp [hl] at hok
    · exact inv.source h (ht.1 ▸ hs)
  | media es hes => exact inv.media hes hok
  | cleaned => exact inv.cleaned hok
  | other => exact inv.quiet rfl inv.flag (fun n h => ⟨h, rfl, rfl⟩) inv.source

/-- A run of a new session that ends with `cleanup`. -/
def sessionLog (is : List SessionInput) : List SessionEffect :=
  (runLog RtmpSession.step .new (is ++ [.cleanup])).2

/-- Every step of the run, the last `cleanup` included, keeps the lease. -/
def KeepsLease (is : List SessionInput) : Prop :=
  Guarded RtmpSession.step RtmpSession.outcome Lease.note Lease.ok .new .new (is ++ [.cleanup])

/-- **A session that keeps its lease touches only streams that it was accepted to
publish**, and it has closed them all in the end. -/
theorem session_streams_respected (is : List SessionInput) (hl : KeepsLease is) :
    StreamsRespected (sessionLog is) := by
  obtain ⟨g, hi, hok⟩ := runLog_invariant_last (I := LeaseInv) (fun g s log i => leaseInv_step)
    is .cleanup _ _ [] leaseInv_new hl
  have he := hi.cleaned hok
  unfold sessionLog
  rw [runLog_concat]
  refine ⟨he.writes, he.ends, fun n hn => ?_⟩
  have hp := he.owed n hn
  simp at hp

/-! ## Runs -/

/-- Everyone may play; who may publish is `pub`; the one source is `1`. -/
def oneSource (pub : Bool) : SessionEnv where
  onPublish _ _ _ := none
  onPlay _ _ _ := none
  check _ _ action _ := pub || decide (action = "play")
  getOrCreate _ _ := 1
  getOrPull _ _ := some 1
  tracks _ := []
  writeOk := true

/-- `publish` or `play` of a stream. -/
def command (name stream : String) : RtmpMessage :=
  .amf0Command 1 0 (AmfEncoder.encode [.string name.toList, .number F64.zero, .null,
    .string stream.toList])

def aacFrame : RtmpMessage := .audio 1 0 [0xAF, 1, 0]

/-- Publish, and one frame. -/
def publishOnce : List SessionInput :=
  [.message (oneSource true) (command "publish" "cam"), .message (oneSource true) aacFrame]

theorem session_streams_respected_publish :
    KeepsLease publishOnce ∧ StreamsRespected (sessionLog publishOnce) := by
  have hl : KeepsLease publishOnce := by
    unfold KeepsLease
    decide +kernel
  exact ⟨hl, session_streams_respected _ hl⟩

/-- A refused publish ends the stream of whoever publishes it; after a play it even
writes into the source that is being played; and a play in the middle of a publish
leaves the published stream open. -/
theorem session_streams_not_respected :
    ¬ StreamsRespected (sessionLog [.message (oneSource false) (command "publish" "cam")]) ∧
    ¬ StreamsRespected (sessionLog [.message (oneSource false) (command "play" "cam"),
      .message (oneSource false) (command "publish" "cam"), .message (oneSource false) aacFrame]) ∧
    ¬ StreamsRespected (sessionLog [.message (oneSource true) (command "publish" "cam"),
      .message (oneSource true) (command "play" "cam")]) := by
  refine ⟨fun h => ?_, fun h => ?_, fun h => ?_⟩
  · obtain ⟨_, hin⟩ := h.ends [] (.streamUnPublish [] "cam")
      [.closeStream [] "cam"] (by decide +kernel) _ rfl
    simp [Accepted] at hin
  · obtain ⟨_, hin⟩ := h.writes [] (.publishAndCache 1 ((MediaFrame.newAudio 1 .aac 0 0 0
      [0xAF, 1, 0]).withPayloadFormat .flv)) [.streamUnPublish [] "cam",
      .closeStream [] "cam"] (by decide +kernel) _ rfl
    simp [Accepted] at hin
  · refine h.closed ([], "cam") ⟨[], .getOrCreate [] "cam" 1,
      [.clearTracks 1, .streamPublish [] "cam"], by decide +kernel, ⟨1, rfl⟩, ?_⟩
    intro e he
    rcases mem_cons.mp he with rfl | he
    · simp [Closes]
    · rw [mem_singleton.mp he]
      simp [Closes]

end MediaKit.Rtmp
