import MediaKit.Lib.Trace
import MediaKit.Rtsp.Session

/-!
# Which streams an RTSP session may touch

`AnnouncedOnly` is what a log of `RtspSession` should show: tracks, frames, events
and closings only for streams whose ANNOUNCE passed `is_authenticated` before.
(`get_or_create` is called by such an ANNOUNCE and by nothing else.)

The code does not keep this. `handle_announce` sets `is_publisher` and the names
before the check; `handle_describe` overwrites the names, and the source with one
that may only be played; RECORD, TEARDOWN and `cleanup` act on whatever is stored.
`session_announced_only`: in every run in which a publisher describes no other
stream, and whose RECORDs and closings do not follow a refused ANNOUNCE, the log is
as it should be.
-/

namespace MediaKit.Rtsp

open Lib MediaKit.Core List Option RtspSession

/-- The stream that an effect changes or reports on. -/
def RtspEffect.touches : RtspEffect → Option StreamName
  | getOrCreate _ => none
  | setTracks source _ | publishAndCache source _ => some source.name
  | streamPublish n | streamUnPublish n | closeStream n => some n

/-- An ANNOUNCE of `n` passed the check. -/
def Announced (log : List RtspEffect) (n : StreamName) : Prop := ∃ id, .getOrCreate ⟨n, id⟩ ∈ log

/-- What the log of a session should show. -/
def AnnouncedOnly (log : List RtspEffect) : Prop :=
  Justified (fun past e => ∀ n, e.touches = some n → Announced past n) log

theorem Announced.append {log : List RtspEffect} {n : StreamName} (h : Announced log n)
    (new : List RtspEffect) : Announced (log ++ new) n :=
  h.imp fun _ hid => mem_append_left new hid

/-! ## Runs -/

/-- A request with the answers it meets, a packet with the frames it yields, or the
`cleanup` at the end of `run`. -/
inductive RtspInput where
  | request (env : RtspEnv) (r : RtspRequest)
  | rtp (frames : List MediaFrame)
  | udp (task : Nat) (frames : List MediaFrame)
  | cleanup

namespace RtspSession

def step (s : RtspSession) : RtspInput → RtspSession × List RtspEffect
  | .request env r => s.handleRequest env r
  | .rtp frames => (s, s.handleRtp frames)
  | .udp task frames => (s, s.handleUdp task frames)
  | .cleanup => s.cleanup

end RtspSession

/-- How a step was decided, without its effects. -/
inductive RtspOutcome where
  | described (n : StreamName)
  | announced (n : StreamName)
  | refused
  | played
  | recorded
  | cleaned
  | other
  deriving DecidableEq

/-- The outcome of a step: the method, its stream and the answer of the check. -/
def RtspInput.outcome : RtspInput → RtspOutcome
  | .request env r =>
    if r.method = "DESCRIBE" then .described (uriName r.uri)
    else if r.method = "SETUP" then .other
    else if r.method = "PLAY" then .played
    else if r.method = "ANNOUNCE" then
      if env.isAuthenticated then .announced (uriName r.uri) else .refused
    else if r.method = "RECORD" then .recorded
    else if r.method = "TEARDOWN" then .cleaned
    else .other
  | .rtp _ | .udp _ _ => .other
  | .cleanup => .cleaned

/-- The last ANNOUNCE that no PLAY has followed. -/
inductive LastAnnounce where
  | none
  | refused
  | accepted (n : StreamName)
  deriving DecidableEq

namespace LastAnnounce

def note (g : LastAnnounce) : RtspOutcome → LastAnnounce
  | .announced n => .accepted n
  | .refused => .refused
  | .played => .none
  | _ => g

/-- A publisher describes its own stream only; nothing is recorded or closed while
the last ANNOUNCE was refused. -/
def ok (g : LastAnnounce) : RtspOutcome → Prop
  | .described n => g = .none ∨ g = .refused ∨ g = .accepted n
  | .recorded | .cleaned => g ≠ .refused
  | _ => True

instance decidableOk (g : LastAnnounce) : ∀ o, Decidable (g.ok o)
  | .described _ => inferInstanceAs (Decidable (_ ∨ _ ∨ _))
  | .recorded | .cleaned => inferInstanceAs (Decidable (_ ≠ _))
  | .announced _ | .refused | .played | .other => .isTrue trivial

end LastAnnounce

/-! ## The authorisation holds -/

/-- The sources that packets reach. -/
def RtspSession.receivers (s : RtspSession) : List Source := s.depak.toList ++ s.udpTasks

/-- What the last ANNOUNCE says about the fields and the log. -/
structure AnnounceInv (g : LastAnnounce) (s : RtspSession) (log : List RtspEffect) : Prop where
  log_ok : AnnouncedOnly log
  /-- The flag is set by an ANNOUNCE and cleared by a PLAY. -/
  flag : g = .none → s.isPublisher = false
  own : ∀ n, g = .accepted n → Announced log n ∧ s.name = n ∧
    ∀ source, s.source = some source → source.name = n
  receivers : ∀ r ∈ s.receivers, Announced log r.name

theorem announceInv_new : AnnounceInv .none .new [] where
  log_ok := justified_nil _
  flag _ := rfl
  own n h := by cases h
  receivers r h := by simp [receivers, new] at h

namespace AnnounceInv

variable {g g' : LastAnnounce} {s t : RtspSession} {log : List RtspEffect} {source : Source}
  (inv : AnnounceInv g s log)
include inv

/-- A step whose effects touch announced streams only has to explain the fields. -/
theorem extend {es : List RtspEffect} (hes : ∀ e ∈ es, ∀ n, e.touches = some n → Announced log n)
    (flag : g' = .none → t.isPublisher = false)
    (own : ∀ n, g' = .accepted n → Announced (log ++ es) n ∧ t.name = n ∧ ∀ source,
      t.source = some source → source.name = n)
    (receivers : ∀ r ∈ t.receivers, Announced log r.name) : AnnounceInv g' t (log ++ es) := by
  refine ⟨inv.log_ok.append ?_, flag, own, fun r h => (receivers r h).append es⟩
  intro e he before n hn
  exact (hes e he n hn).append before

/-- A step without effects. -/
theorem quiet (flag : g' = .none → t.isPublisher = false)
    (own : ∀ n, g' = .accepted n → Announced log n ∧ t.name = n ∧ ∀ source, t.source = some source →
      source.name = n)
    (receivers : ∀ r ∈ t.receivers, Announced log r.name) : AnnounceInv g' t (log ++ []) := by
  rw [append_nil]
  exact ⟨inv.log_ok, flag, own, receivers⟩

theorem idle : AnnounceInv g s (log ++ []) := inv.quiet inv.flag inv.own inv.receivers

theorem packet (frames : List MediaFrame) (hr : source ∈ s.receivers) :
    AnnounceInv g s (log ++ frames.map (.publishAndCache source)) := by
  refine inv.extend (fun e he n hn => ?_) inv.flag (fun n h => ?_) inv.receivers
  · obtain ⟨frame, -, rfl⟩ := mem_map.mp he
    exact some.inj hn ▸ inv.receivers source hr
  · obtain ⟨ha, hrs⟩ := inv.own n h
    exact ⟨ha.append _, hrs⟩

variable (env : RtspEnv) (r : RtspRequest)

theorem describe (hok : g.ok (.described (uriName r.uri))) :
    AnnounceInv g (s.handleDescribe env r) (log ++ []) := by
  have hnm : ∀ n, g = .accepted n → uriName r.uri = n := by
    rintro n rfl
    rcases hok with h | h | h <;> cases h
    rfl
  have hon : ∀ n, g = .accepted n → Announced log n ∧ uriName r.uri = n ∧ ∀ source,
      s.source = some source → source.name = n :=
    fun n hn => ⟨(inv.own n hn).1, hnm n hn, (inv.own n hn).2.2⟩
  unfold handleDescribe
  dsimp only
  split
  · exact inv.quiet inv.flag hon inv.receivers
  · split
    · refine inv.quiet inv.flag (fun n hn => ⟨(inv.own n hn).1, hnm n hn, fun source h => ?_⟩)
        inv.receivers
      cases h
      exact hnm n hn
    · split <;> exact inv.quiet inv.flag hon inv.receivers

theorem setup : AnnounceInv g (s.handleSetup env r) (log ++ []) := by
  unfold handleSetup
  dsimp only
  repeat' split
  all_goals exact inv.quiet inv.flag inv.own inv.receivers

omit inv in
/-- A session that plays sends to nobody else, and is no publisher. -/
theorem plays (hp : s.isPublisher = false) : ((s.lookUp env).startPlay env).isPublisher = false ∧
    ((s.lookUp env).startPlay env).receivers = s.receivers := by
  have hs : ∀ s : RtspSession, s.takeSockets.isPublisher = s.isPublisher ∧
      s.takeSockets.receivers = s.receivers := by
    intro s
    unfold takeSockets
    split_ifs <;> exact ⟨rfl, rfl⟩
  have hl : (s.lookUp env).isPublisher = s.isPublisher ∧ (s.lookUp env).receivers =
      s.receivers := by
    unfold lookUp
    repeat' split
    all_goals exact ⟨rfl, rfl⟩
  rw [← hp, ← hl.1, ← hl.2]
  unfold startPlay
  split_ifs
  · exact hs { s.lookUp env with vodAsset := false }
  · exact ⟨rfl, rfl⟩
  · exact ⟨rfl, rfl⟩
  · exact hs _
  · exact ⟨rfl, rfl⟩

theorem play : AnnounceInv .none (s.handlePlay env r) (log ++ []) := by
  have hp : (s.handlePlay env r).isPublisher = false ∧
      (s.handlePlay env r).receivers = s.receivers := by
    unfold handlePlay
    dsimp only
    generalize ht : (if s.app.isEmpty = true then parseUri { s with isPublisher := false } r.uri
      else { s with isPublisher := false }) = t
    have hst : t.isPublisher = false ∧ t.receivers = s.receivers := by
      rw [← ht]
      split <;> exact ⟨rfl, rfl⟩
    split
    · exact hst
    · rw [← hst.2]
      exact plays env hst.1
  exact inv.quiet (fun _ => hp.1) nofun (hp.2 ▸ inv.receivers)

theorem announce :
    AnnounceInv (g.note (if env.isAuthenticated then .announced (uriName r.uri) else .refused))
      (s.handleAnnounce env r).1 (log ++ (s.handleAnnounce env r).2) := by
  unfold handleAnnounce
  cases env.isAuthenticated with
  | false => exact inv.quiet nofun nofun inv.receivers
  | true =>
    refine inv.extend (by simp [RtspEffect.touches]) nofun (fun n hn => ?_) inv.receivers
    cases hn
    refine ⟨⟨_, mem_append_right _ mem_cons_self⟩, rfl, fun source h => ?_⟩
    cases h
    rfl

theorem announced_own (hok : g ≠ .refused) (hp : s.isPublisher = true) :
    g = .accepted s.name ∧ Announced log s.name := by
  cases g with
  | none => rw [inv.flag rfl] at hp; cases hp
  | refused => exact absurd rfl hok
  | accepted n =>
    obtain ⟨ha, rfl, -⟩ := inv.own n rfl
    exact ⟨rfl, ha⟩

theorem record (hok : g ≠ .refused) :
    AnnounceInv g (s.handleRecord env).1 (log ++ (s.handleRecord env).2) := by
  unfold handleRecord
  split
  · exact inv.idle
  next hp =>
    split
    · exact inv.idle
    next source hs =>
      obtain ⟨hg, ha⟩ := inv.announced_own hok (by simpa using fun h => hp (.inr h))
      have hsr := (inv.own _ hg).2.2 source hs
      have hon : ∀ es n, g = .accepted n → Announced (log ++ es) n ∧ s.name = n ∧
          ∀ source, s.source = some source → source.name = n := fun es n hn =>
            (inv.own n hn).imp_left fun h => h.append es
      have hes : ∀ tracks, ∀ e ∈ [RtspEffect.setTracks source tracks, .streamPublish s.name], ∀ n,
          e.touches = some n → Announced log n := by
        intro tracks e he n hn
        simp only [mem_cons, not_mem_nil, or_false] at he
        rcases he with rfl | rfl
        · exact some.inj hn ▸ hsr ▸ ha
        · exact some.inj hn ▸ ha
      -- a receiver is one that was there, or gets what is recorded
      have hrc : ∀ r, r ∈ s.receivers ∨ r = source → Announced log r.name := by
        rintro r (hr | rfl)
        · exact inv.receivers r hr
        · rwa [hsr]
      dsimp only
      split
      · refine inv.extend (hes _) inv.flag (hon _) fun r hr => hrc r ?_
        rcases mem_append.mp hr with hr | hr
        · exact .inr (by simpa using hr)
        · exact .inl (mem_append_right _ hr)
      · refine inv.extend (hes _) inv.flag (hon _) fun r hr => hrc r ?_
        have hnw : ∀ b : Bool, r ∈ (if b then [source] else []) → r = source := fun b hb => by
          cases b <;> simp_all
        simp only [RtspSession.receivers, spawnReceivers, mem_append] at hr ⊢
        tauto

theorem cleaned (hok : g ≠ .refused) : AnnounceInv g s.cleanup.1 (log ++ s.cleanup.2) := by
  refine inv.extend (fun e he n hn => ?_) inv.flag (fun n h => ?_) fun r h => ?_
  · unfold cleanup at he
    cases hp : s.isPublisher with
    | false => simp [hp] at he
    | true =>
      have ha := (inv.announced_own hok hp).2
      simp only [hp, if_true, mem_cons, not_mem_nil, or_false] at he
      rcases he with rfl | rfl <;> exact some.inj hn ▸ ha
  · obtain ⟨ha, hnm, -⟩ := inv.own n h
    exact ⟨ha.append _, hnm, fun source h => by cases h⟩
  · exact inv.receivers r (mem_append_right _ (show r ∈ s.udpTasks from h))

end AnnounceInv

theorem announceInv_step {g : LastAnnounce} {s : RtspSession} {log : List RtspEffect}
    {i : RtspInput} (inv : AnnounceInv g s log) (hok : g.ok i.outcome) :
    AnnounceInv (g.note i.outcome) (s.step i).1 (log ++ (s.step i).2) := by
  cases i with
  | cleanup => exact inv.cleaned hok
  | rtp frames =>
    show AnnounceInv g s (log ++ s.handleRtp frames)
    unfold handleRtp
    split
    · split
      next source hd => exact inv.packet frames (by simp [receivers, hd])
      · exact inv.idle
    · exact inv.idle
  | udp task frames =>
    show AnnounceInv g s (log ++ s.handleUdp task frames)
    unfold handleUdp
    split
    next source hi => exact inv.packet frames (mem_append_right _ (mem_of_getElem? hi))
    · exact inv.idle
  | request env r =>
    simp only [RtspInput.outcome, step, handleRequest] at hok ⊢
    split_ifs at hok ⊢
    · exact inv.describe env r hok
    · exact inv.setup env r
    · exact inv.play env r
    next ha => simpa only [if_pos ha] using inv.announce env r
    next ha => simpa only [if_neg ha] using inv.announce env r
    · exact inv.record env hok
    · exact inv.cleaned hok
    · exact inv.idle

/-- The log of a new session that ends with `cleanup`. -/
def rtspLog (is : List RtspInput) : List RtspEffect := (runLog step .new (is ++ [.cleanup])).2

/-- Every step of the run, the last `cleanup` included, meets the condition. -/
def KeepsAnnounced (is : List RtspInput) : Prop :=
  Guarded step (fun _ i => i.outcome) LastAnnounce.note LastAnnounce.ok .none .new
    (is ++ [.cleanup])

/-- **A session that keeps to its announced stream touches no other.** -/
theorem session_announced_only (is : List RtspInput) (h : KeepsAnnounced is) :
    AnnouncedOnly (rtspLog is) := by
  have hs : ∀ g s log (i : RtspInput), AnnounceInv g s log → g.ok i.outcome →
      AnnounceInv (g.note i.outcome) (s.step i).1 (log ++ (s.step i).2) :=
    fun g s log i => announceInv_step
  obtain ⟨g, hi⟩ := runLog_invariant hs (is ++ [RtspInput.cleanup]) _ _ [] announceInv_new h
  exact hi.log_ok

/-! ## Runs -/

/-- Every stream exists, as source `1`; whether the check passes is `ok`. -/
def oneSource (ok : Bool) : RtspEnv where
  isAuthenticated := ok
  getOrCreate _ := 1
  getOrPull _ := some 1
  openVod _ := false
  parseSdp _ := ⟨.h264, false⟩
  bindOk := true
  writeOk := true

/-- A request without a header or a body. -/
def bare (method uri : String) : RtspRequest := ⟨method.toList, uri.toList, "RTSP/1.0", [], []⟩

/-- ANNOUNCE and RECORD. -/
def recording : List RtspInput :=
  [.request (oneSource true) (bare "ANNOUNCE" "rtsp://h/live/cam"),
    .request (oneSource true) (bare "RECORD" "rtsp://h/live/cam")]

theorem session_announced_only_publish :
    KeepsAnnounced recording ∧ AnnouncedOnly (rtspLog recording) := by
  have hk : KeepsAnnounced recording := by
    unfold KeepsAnnounced
    decide +kernel
  exact ⟨hk, session_announced_only _ hk⟩

/-- A refused ANNOUNCE closes the stream; RECORD behind DESCRIBE and a refused ANNOUNCE
replaces its tracks; and an accepted ANNOUNCE followed by DESCRIBE of another stream
lets RECORD replace the tracks of that one. -/
theorem session_not_announced_only :
    ¬ AnnouncedOnly (rtspLog [.request (oneSource false) (bare "ANNOUNCE" "rtsp://h/live/cam")]) ∧
    ¬ AnnouncedOnly (rtspLog [.request (oneSource true) (bare "DESCRIBE" "rtsp://h/live/cam"),
      .request (oneSource false) (bare "ANNOUNCE" "rtsp://h/live/cam"),
      .request (oneSource true) (bare "RECORD" "rtsp://h/live/cam")]) ∧
    ¬ AnnouncedOnly (rtspLog [.request (oneSource true) (bare "ANNOUNCE" "rtsp://h/live/own"),
      .request (oneSource true) (bare "DESCRIBE" "rtsp://h/live/cam"),
      .request (oneSource true) (bare "RECORD" "rtsp://h/live/own")]) := by
  refine ⟨fun h => ?_, fun h => ?_, fun h => ?_⟩
  · obtain ⟨id, hid⟩ := h [] (.streamUnPublish ("live", "cam"))
      [.closeStream ("live", "cam")] (by decide +kernel) _ rfl
    cases hid
  · obtain ⟨id, hid⟩ := h [] (.setTracks ⟨("live", "cam"), 1⟩ [.video .h264])
      [.streamPublish ("live", "cam"), .streamUnPublish ("live", "cam"),
       .closeStream ("live", "cam")] (by decide +kernel) _ rfl
    cases hid
  · obtain ⟨id, hid⟩ := h [.getOrCreate ⟨("live", "own"), 1⟩]
      (.setTracks ⟨("live", "cam"), 1⟩ [.video .h264])
      [.streamPublish ("live", "cam"), .streamUnPublish ("live", "cam"),
       .closeStream ("live", "cam")] (by decide +kernel) _ rfl
    simp at hid

end MediaKit.Rtsp
