import Mathlib.Data.List.Perm.Subperm
import MediaKit.Core.Proxy

/-!
# Stream pushers

`StreamPusherControl` of `crates/core/src/stream_pusher.rs`, `run_pusher_supervisor` and
`spawn_push_task` of `crates/server/src/main.rs`, and the `start` functions of the four push
clients. A pusher is an entry in the table of active pushers and a task that sends a local stream to
a remote server. Unlike a pull, a push whose stream is not there yet is parked: the supervisor keeps
it in `pending` until the stream is published.

Main result: `pushers_coherent`. The table and the tasks fit together as long as no task ends while
the table has a successor's entry under its key (the end takes out whatever is there), and no client
that replays the cache without a look at its flag is started for a request that was taken back.

Mirroring notes vs the Rust source:
- A step is one operation on the table, on the channel, on `pending` or on a flag; `add` and
  `remove` are two steps each. The receiver of the channel stays open.
- The `Arc<AtomicBool>` and the `Arc<Notify>` of an entry and its task are their marker, a number
  that is used once.
- Whether a stream is live, what a client finds in the cache and when it fails are answers from
  outside. A client is the sequence of its looks at the flag and of the frames it sends; `cached`
  counts the frames of the cache that it has packets for.
- `notify_waiters` follows the store to the flag, and reaches only a client that waits: a client may
  be notified when its flag is set, and need not be.
- `cancelled` and `sent` are for the statements only: whether the flag of a task was set when it was
  spawned, and the tasks at each frame that they sent. -/

namespace MediaKit.Server

open MediaKit.Core Lib List Option Function

/-! ## The clients -/

variable {sent : Bool} {ev : PushEvent} {phase phase' : PushPhase}

inductive PushProtocol where
  | whip
  | rtsp
  | srt
  | rtmp
  deriving DecidableEq

open PushProtocol

/-- The choice of `spawn_push_task`. -/
def PushProtocol.ofUrl (dstUrl : Str) : PushProtocol :=
  if "whip://".toList.isPrefixOf dstUrl ∨ "whips://".toList.isPrefixOf dstUrl then .whip
  else if "rtsp://".toList.isPrefixOf dstUrl ∨ "rtsps://".toList.isPrefixOf dstUrl then .rtsp
  else if "srt://".toList.isPrefixOf dstUrl then .srt
  else .rtmp

/-- Where a client is. -/
inductive PushPhase where
  | starting
  /-- A WHIP client whose source has tracks. -/
  | negotiating
  | replaying (left : Nat)
  /-- At the look at the flag with which the loop begins. -/
  | checking
  /-- In `select!`. -/
  | waiting
  /-- At the look at the flag behind `select!`, with a frame. -/
  | received
  /-- `start` has returned. -/
  | ending
  deriving DecidableEq

inductive PushEvent where
  /-- `wait_for_tracks` looks at the flag and finds tracks. -/
  | tracks
  /-- The remote server has accepted the stream. -/
  | ready (cached : Nat)
  | replay
  | enter
  | check
  | frame
  | notified
  /-- A tick of the timer, or frames that were missed. -/
  | again
  | fail
  deriving DecidableEq

variable (stopped : Bool)

/-- `rtmp_push_client::start`: the next phase, and whether a frame was sent. -/
def rtmpClient : PushPhase → PushEvent → Option (PushPhase × Bool)
  | .starting, .ready _ => some (.checking, false)
  | .checking, .check => some (if stopped then .ending else .waiting, false)
  | .waiting, .notified => some (if stopped then .ending else .checking, false)
  | .waiting, .frame => some (.checking, true)
  | .waiting, .again => some (.checking, false)
  | _, _ => none

/-- `zlmediakit_webrtc::push_client::start`. -/
def whipClient : PushPhase → PushEvent → Option (PushPhase × Bool)
  | .starting, .tracks => some (if stopped then .ending else .negotiating, false)
  | .negotiating, .ready cached => some (.replaying cached, false)
  | .replaying (left + 1), .replay => some (.replaying left, true)
  | .replaying 0, .enter => some (.checking, false)
  | .checking, .check => some (if stopped then .ending else .waiting, false)
  | .waiting, .notified => some (.checking, false)
  | .waiting, .frame => some (.checking, true)
  | .waiting, .again => some (.checking, false)
  | _, _ => none

/-- `rtsp_push_start` and `zlmediakit_srt::push_client::start`: the flag is read only when there is
a frame from the source. -/
def replayClient : PushPhase → PushEvent → Option (PushPhase × Bool)
  | .starting, .ready cached => some (.replaying cached, false)
  | .replaying (left + 1), .replay => some (.replaying left, true)
  | .replaying 0, .enter => some (.waiting, false)
  | .waiting, .notified => some (.ending, false)
  | .waiting, .frame => some (.received, false)
  | .waiting, .again => some (.waiting, false)
  | .received, .check => some (if stopped then (.ending, false) else (.waiting, true))
  | _, _ => none

def PushProtocol.client : PushProtocol → Bool → PushPhase → PushEvent → Option (PushPhase × Bool)
  | .rtmp => rtmpClient
  | .whip => whipClient
  | .rtsp => replayClient
  | .srt => replayClient

variable (p : PushProtocol)

/-- One step of a client. It may fail wherever it is. -/
def PushProtocol.advance (phase : PushPhase) (ev : PushEvent) : Option (PushPhase × Bool) :=
  if phase = .ending then none
  else if ev = .fail then some (.ending, false)
  else p.client stopped phase ev

/-- The phases of a client that was stopped before it started and finds nothing in the cache. -/
def PushProtocol.Quiet : PushProtocol → PushPhase → Prop
  | .rtmp, phase => phase = .starting ∨ phase = .checking ∨ phase = .ending
  | .whip, phase => phase = .starting ∨ phase = .ending
  | _, phase => phase = .starting ∨ phase = .replaying 0 ∨ phase = .waiting ∨ phase = .received ∨
    phase = .ending

theorem PushProtocol.quiet_starting : p.Quiet .starting := by
  cases p <;> exact .inl rfl

theorem PushProtocol.quiet_ending : p.Quiet .ending := by
  cases p <;> simp [Quiet]

theorem replayClient_quiet (hq : rtsp.Quiet phase) (hr : ∀ cached, ev = .ready cached → cached = 0)
    (hs : replayClient true phase ev = some (phase', sent)) : rtsp.Quiet phase' ∧ sent = false := by
  rcases hq with rfl | rfl | rfl | rfl | rfl <;> cases ev <;> cases hs
  case inl.ready cached =>
    obtain rfl := hr cached rfl
    exact ⟨.inr (.inl rfl), rfl⟩
  all_goals exact ⟨by simp [Quiet], rfl⟩

/-- A client whose flag is set stays quiet, if it finds nothing in the cache where it does not look
at the flag before. -/
theorem PushProtocol.advance_quiet {p : PushProtocol}
    (hq : p.Quiet phase) (hr : ∀ cached, ev = .ready cached → cached = 0 ∨ p = .rtmp ∨ p = .whip)
    (hs : p.advance true phase ev = some (phase', sent)) : p.Quiet phase' ∧ sent = false := by
  unfold advance at hs
  split at hs
  · cases hs
  split at hs
  · cases hs
    exact ⟨p.quiet_ending, rfl⟩
  cases p with
  | rtmp =>
    rcases hq with rfl | rfl | rfl <;> cases ev <;> cases hs <;> exact ⟨by simp [Quiet], rfl⟩
  | whip =>
    -- its first look at the flag is its last step
    rcases hq with rfl | rfl <;> cases ev <;> cases hs
    exact ⟨.inr rfl, rfl⟩
  | rtsp | srt => exact replayClient_quiet hq (fun cached h => by simpa using hr cached h) hs

/-! ## The table and the supervisor -/

structure PusherEntry where
  dstUrl : Str
  marker : Nat
  deriving DecidableEq

structure PusherCmd where
  dstUrl : Str
  key : Str
  marker : Nat
  deriving DecidableEq

structure PushTask where
  cmd : PusherCmd
  phase : PushPhase
  cancelled : Bool
  deriving DecidableEq

open PushTask

def PushTask.protocol (t : PushTask) : PushProtocol := .ofUrl t.cmd.dstUrl

structure PusherSystem where
  active : Str → Option PusherEntry
  /-- The commands of `add` calls between the table and the channel. -/
  submitting : List PusherCmd
  queue : List PusherCmd
  /-- The requests whose stream is not live, at most one for a key. -/
  pending : List PusherCmd
  running : List PushTask
  stopped : Nat → Bool
  /-- The markers of `remove` calls between the table and the flag. -/
  stopping : List Nat
  /-- The next unused marker. -/
  next : Nat
  sent : List PushTask

inductive PusherAction where
  | add (dstUrl vhost app stream : Str)
  | send (c : PusherCmd)
  | receive (live : Bool)
  /-- The supervisor receives `StreamPublish`. -/
  | publish (vhost app stream : Str)
  | remove (vhost app stream : Str)
  | store (marker : Nat)
  | work (t : PushTask) (ev : PushEvent)
  | taskEnd (t : PushTask)

namespace PusherSystem

def new : PusherSystem := ⟨fun _ => none, [], [], [], [], fun _ => false, [], 0, []⟩

variable (s : PusherSystem)

/-- `add` at the table: whether the pusher is new. -/
def add (dstUrl key : Str) : PusherSystem × Bool :=
  match s.active key with
  | some _ => (s, false)
  | none =>
    ({ s with
        active := update s.active key (some ⟨dstUrl, s.next⟩)
        submitting := ⟨dstUrl, key, s.next⟩ :: s.submitting
        next := s.next + 1 }, true)

variable (c : PusherCmd)

/-- `add` at the channel. -/
def send : Option PusherSystem :=
  if c ∈ s.submitting then some
    { s with submitting := s.submitting.erase c, queue := s.queue ++ [c] } else none

def spawnPushTask : PusherSystem :=
  { s with running := ⟨c, .starting, s.stopped c.marker⟩ :: s.running }

/-- The supervisor takes a command. -/
def receive (live : Bool) : Option PusherSystem :=
  match s.queue with
  | [] => none
  | c :: queue =>
    let s := { s with queue := queue }
    if live then some (s.spawnPushTask c)
    else some { s with pending := c :: s.pending.filter fun c' => c'.key ≠ c.key }

variable (key : Str)

/-- The supervisor takes a `StreamPublish`. -/
def publish : PusherSystem :=
  match s.pending.find? fun c => c.key = key with
  | none => s
  | some c => { s with pending := s.pending.erase c }.spawnPushTask c

/-- `remove` at the table: whether there was a pusher. -/
def remove : PusherSystem × Bool :=
  match s.active key with
  | none => (s, false)
  | some e =>
    ({ s with active := update s.active key none, stopping := e.marker :: s.stopping }, true)

/-- `remove` at the flag. -/
def store (marker : Nat) : Option PusherSystem :=
  if marker ∈ s.stopping then
    some { s with stopping := s.stopping.erase marker, stopped := update s.stopped marker true }
  else none

/-- A step of the client of a task. -/
def work (t : PushTask) (ev : PushEvent) : Option PusherSystem :=
  if t ∈ s.running ∧ (ev = .notified → s.stopped t.cmd.marker = true) then
    (t.protocol.advance (s.stopped t.cmd.marker) t.phase ev).map fun r =>
      { s with
        running := { t with phase := r.1 } :: s.running.erase t
        sent := if r.2 then t :: s.sent else s.sent }
  else none

/-- The end of a task: `active.remove(&key)`, whatever is there. -/
def taskEnd (t : PushTask) : Option PusherSystem :=
  if t ∈ s.running ∧ t.phase = .ending then
    some { s with active := update s.active t.cmd.key none, running := s.running.erase t }
  else none

def step : PusherAction → Option PusherSystem
  | .add dstUrl vhost app stream => some (s.add dstUrl (streamKey vhost app stream)).1
  | .send c => s.send c
  | .receive live => s.receive live
  | .publish vhost app stream => some (s.publish (streamKey vhost app stream))
  | .remove vhost app stream => some (s.remove (streamKey vhost app stream)).1
  | .store marker => s.store marker
  | .work t ev => s.work t ev
  | .taskEnd t => s.taskEnd t

/-! ## Coherence -/

/-- The entry of a request is in the table. -/
def Listed : Prop := ∃ e, s.active c.key = some e ∧ e.marker = c.marker

/-- The request has been told to stop, or is about to be. -/
def Told : Prop := s.stopped c.marker = true ∨ c.marker ∈ s.stopping

/-- The requests that are submitted, queued, parked or running. -/
def cmds : List PusherCmd := s.submitting ++ (s.queue ++ (s.pending ++ s.running.map cmd))

/-- An action that keeps the table and the tasks together: a task ends while its own entry or none
is in the table, and a task that was cancelled and does not look at its flag first finds nothing in
the cache. -/
def Tidy : PusherAction → Prop
  | .work t (.ready cached) => t.cancelled = true → cached = 0 ∨ t.protocol = .rtmp ∨
      t.protocol = .whip
  | .taskEnd t => ∀ e ∈ s.active t.cmd.key, e.marker = t.cmd.marker
  | _ => True

/-- The table and the requests fit together. -/
abbrev Filed : Prop :=
  Lib.Filed PusherEntry.marker PusherCmd.key PusherCmd.marker s.active s.cmds
    (Lib.Told s.stopped s.stopping) s.next

/-- The cancelled tasks send nothing. -/
structure Hushed : Prop where
  quiet : ∀ t ∈ s.running, t.cancelled = true → s.stopped t.cmd.marker = true ∧
    t.protocol.Quiet t.phase
  unsent : ∀ t ∈ s.sent, t.cancelled = false

variable {s s' : PusherSystem}

instance decidableTidy (s : PusherSystem) : (a : PusherAction) → Decidable (s.Tidy a)
  | .work _ (.ready _) => inferInstanceAs (Decidable (_ → _ ∨ _))
  | .taskEnd t => inferInstanceAs (Decidable (∀ e ∈ s.active t.cmd.key, _))
  | .work _ .tracks | .work _ .replay | .work _ .enter | .work _ .check | .work _ .frame |
    .work _ .notified
  | .work _ .again | .work _ .fail => .isTrue trivial
  | .add .. | .send _ | .receive _ | .publish .. | .remove .. | .store _ => .isTrue trivial

/-! ### The table -/

theorem cmds_spawnPushTask : (s.spawnPushTask c).cmds.Perm (c :: s.cmds) := by
  have hm : (s.submitting ++ (s.queue ++ s.pending) ++ c :: s.running.map cmd).Perm
      (c :: (s.submitting ++ (s.queue ++ s.pending) ++ s.running.map cmd)) := perm_middle
  simpa only [cmds, spawnPushTask, map_cons, append_assoc] using hm

namespace Filed

section

variable (h : s.Filed)
include h

theorem add (dstUrl key : Str) : (s.add dstUrl key).1.Filed := by
  unfold PusherSystem.add
  cases hk : s.active key with
  | some e => exact h
  | none => exact Lib.Filed.add (c := ⟨dstUrl, key, s.next⟩) (e := ⟨dstUrl, s.next⟩) h hk rfl rfl

theorem send {c : PusherCmd} (hs : s.send c = some s') : s'.Filed := by
  obtain ⟨hmem, ⟨⟩⟩ := ite_none_right_eq_some.mp hs
  refine h.of_subperm (List.Perm.subperm ?_) fun _ => id
  -- the command goes from the front of the one list to the back of the other
  have hf : (s.submitting.erase c ++ s.queue ++ c :: (s.pending ++ s.running.map cmd)).Perm
      (c :: (s.submitting.erase c ++ s.queue ++ (s.pending ++ s.running.map cmd))) := perm_middle
  have hb := (perm_cons_erase hmem).append_right (s.queue ++ (s.pending ++ s.running.map cmd))
  simp only [cmds, append_assoc] at hf hb ⊢
  exact hf.trans hb.symm

theorem receive {live : Bool} (hs : s.receive live = some s') : s'.Filed := by
  unfold PusherSystem.receive at hs
  split at hs
  · cases hs
  case h_2 c queue hq =>
    have hc : s.cmds.Perm (c :: { s with queue := queue }.cmds) := by
      simpa only [cmds, hq, cons_append] using perm_middle
    cases live with
    | true =>
      cases hs
      exact h.of_subperm ((cmds_spawnPushTask c).trans hc.symm).subperm fun _ => id
    | false =>
      cases hs
      refine h.of_subperm ?_ fun _ => id
      -- an older request for the key is dropped
      let rest := s.pending.filter (fun c' => c'.key ≠ c.key) ++ s.running.map cmd
      have hsb : (s.submitting ++ (queue ++ rest)).Sublist { s with queue := queue }.cmds :=
        filter_sublist.append_right _ |>.append_left _ |>.append_left _
      have hf : (s.submitting ++ queue ++ c :: rest).Perm (c :: (s.submitting ++ queue ++ rest)) :=
        perm_middle
      rw [append_assoc, append_assoc] at hf
      exact hf.subperm.trans ((hsb.cons_cons c).subperm.trans hc.symm.subperm)

theorem publish : (s.publish key).Filed := by
  unfold PusherSystem.publish
  cases hfn : s.pending.find? fun c => c.key = key with
  | none => exact h
  | some c =>
    refine h.of_subperm (List.Perm.subperm ?_) fun _ => id
    refine (cmds_spawnPushTask c).trans (List.Perm.symm ?_)
    have hp := (perm_cons_erase (mem_of_find?_eq_some hfn)).append_right (s.running.map cmd)
    refine (hp.append_left _ |>.append_left _).trans ?_
    have hfr : (s.submitting ++ s.queue ++ c :: (s.pending.erase c ++ s.running.map cmd)).Perm
        (c :: (s.submitting ++ s.queue ++ (s.pending.erase c ++ s.running.map cmd))) := perm_middle
    simpa only [cmds, append_assoc, cons_append] using hfr

theorem remove : (s.remove key).1.Filed := by
  unfold PusherSystem.remove
  cases hk : s.active key with
  | none => exact h
  | some e => exact h.takeOut hk (fun m => Or.imp_right (mem_cons_of_mem _)) (.inr
    (mem_cons_self ..))

theorem store {marker : Nat} (hs : s.store marker = some s') : s'.Filed := by
  obtain ⟨hmem, ⟨⟩⟩ := ite_none_right_eq_some.mp hs
  exact h.of_subperm (.refl _) fun m => (Lib.told_store hmem m).mpr

theorem work {t : PushTask} {ev : PushEvent} (hs : s.work t ev = some s') : s'.Filed := by
  obtain ⟨hmem, hs⟩ := ite_none_right_eq_some.mp hs
  obtain ⟨r, -, rfl⟩ := map_eq_some_iff.mp hs
  refine h.of_subperm (List.Perm.subperm ?_) fun _ => id
  have hr := (perm_cons_erase hmem.1).map cmd
  exact (hr.symm.append_left _ |>.append_left _ |>.append_left _)

/-- The end of a task takes out no entry but its own, as long as there is none but its own under its
key. -/
theorem taskEnd {t : PushTask} (htd : s.Tidy (.taskEnd t)) (hs : s.taskEnd t = some s') :
    s'.Filed := by
  obtain ⟨hmem, ⟨⟩⟩ := ite_none_right_eq_some.mp hs
  -- the requests are the one that ends and the others
  have hcm : s.cmds.Perm (t.cmd :: { s with running := s.running.erase t }.cmds) := by
    have hr := (perm_cons_erase hmem.1).map cmd
    exact (hr.append_left _ |>.append_left _ |>.append_left _).trans
      (cmds_spawnPushTask (s := { s with running := s.running.erase t }) t.cmd)
  exact h.finish hcm htd

end

end Filed

theorem filed_step {a : PusherAction} (h : s.Filed) (ht : s.Tidy a) (hs : s.step a = some s') :
    s'.Filed := by
  cases a with
  | add dstUrl vhost app stream =>
    cases hs
    exact h.add dstUrl _
  | send c => exact h.send hs
  | receive live => exact h.receive hs
  | publish vhost app stream =>
    cases hs
    exact h.publish _
  | remove vhost app stream =>
    cases hs
    exact h.remove _
  | store marker => exact h.store hs
  | work t ev => exact h.work hs
  | taskEnd t => exact h.taskEnd ht hs

/-! ### The frames -/

namespace Hushed

/-- A task that is cancelled is so because its flag is set. -/
theorem spawnPushTask (h : s.Hushed) (c : PusherCmd) : (s.spawnPushTask c).Hushed where
  quiet t ht hc := by
    rcases mem_cons.mp ht with rfl | ht
    · exact ⟨hc, quiet_starting _⟩
    · exact h.quiet t ht hc
  unsent := h.unsent

theorem work (h : s.Hushed) {t : PushTask} {ev : PushEvent} (htd : s.Tidy (.work t ev))
    (hs : s.work t ev = some s') : s'.Hushed := by
  obtain ⟨hmem, hs⟩ := ite_none_right_eq_some.mp hs
  obtain ⟨⟨phase, sent⟩, had, rfl⟩ := map_eq_some_iff.mp hs
  have hq : t.cancelled = true → s.stopped t.cmd.marker = true ∧ t.protocol.Quiet phase ∧
      sent = false := by
    intro hc
    obtain ⟨hst, hp⟩ := h.quiet t hmem.1 hc
    rw [hst] at had
    refine ⟨hst, advance_quiet hp (fun cached hev => ?_) had⟩
    subst hev
    exact htd hc
  refine ⟨fun t' ht' hc => ?_, fun t' ht' => ?_⟩
  · rcases mem_cons.mp ht' with rfl | ht'
    · exact ⟨(hq hc).1, (hq hc).2.1⟩
    · exact h.quiet t' (mem_of_mem_erase ht') hc
  · cases sent with
    | false => exact h.unsent t' ht'
    | true =>
      rcases mem_cons.mp ht' with rfl | ht'
      · exact Bool.eq_false_iff.mpr fun hc => Bool.noConfusion (hq hc).2.2
      · exact h.unsent t' ht'

end Hushed

theorem hushed_step {a : PusherAction} (h : s.Hushed) (htd : s.Tidy a) (hs : s.step a = some s') :
    s'.Hushed := by
  cases a with
  | add dstUrl vhost app stream =>
    cases hs
    unfold add
    split
    · exact h
    · exact ⟨h.quiet, h.unsent⟩
  | send c =>
    obtain ⟨-, ⟨⟩⟩ := ite_none_right_eq_some.mp hs
    exact ⟨h.quiet, h.unsent⟩
  | receive live =>
    simp only [step, receive] at hs
    split at hs
    · cases hs
    case h_2 c queue _ =>
      have hq : { s with queue := queue }.Hushed := ⟨h.quiet, h.unsent⟩
      split at hs
      · cases hs
        exact hq.spawnPushTask c
      · cases hs
        exact ⟨h.quiet, h.unsent⟩
  | publish vhost app stream =>
    cases hs
    unfold publish
    split
    · exact h
    case h_2 c _ =>
      have hp : { s with pending := s.pending.erase c }.Hushed := ⟨h.quiet, h.unsent⟩
      exact hp.spawnPushTask c
  | remove vhost app stream =>
    cases hs
    unfold remove
    split
    · exact h
    · exact ⟨h.quiet, h.unsent⟩
  | store marker =>
    obtain ⟨-, ⟨⟩⟩ := ite_none_right_eq_some.mp hs
    refine ⟨fun t ht hc => (h.quiet t ht hc).imp_left fun hm => ?_, h.unsent⟩
    by_cases heq : t.cmd.marker = marker
    · rw [heq]
      exact update_self ..
    · exact (update_of_ne heq ..).trans hm
  | work t ev => exact h.work htd hs
  | taskEnd t =>
    obtain ⟨-, ⟨⟩⟩ := ite_none_right_eq_some.mp hs
    exact ⟨fun t' ht => h.quiet t' (mem_of_mem_erase ht), h.unsent⟩

theorem filed_new : new.Filed := ⟨nodup_nil, forall_mem_nil _, forall_mem_nil _⟩

theorem hushed_new : new.Hushed := ⟨forall_mem_nil _, forall_mem_nil _⟩

end PusherSystem

open PusherSystem in
/-- **The pusher table is coherent**: in every run whose actions are tidy, each running task has its
own entry in the table or has been told to stop, and a task whose request was removed before it was
spawned has never sent a frame. -/
theorem pushers_coherent (schedule : List PusherAction) (s : PusherSystem)
    (hrun : runSchedule step .new schedule = some s) (htidy : Along step Tidy .new schedule) :
    (∀ t ∈ s.running, s.Listed t.cmd ∨ s.Told t.cmd) ∧ ∀ t ∈ s.sent, t.cancelled = false := by
  have hf : s.Filed := run_invariant_of (fun _ _ _ => filed_step) filed_new htidy hrun
  have hh : s.Hushed := run_invariant_of (fun _ _ _ => hushed_step) hushed_new htidy hrun
  refine ⟨fun t ht => hf.orphans t.cmd ?_, hh.unsent⟩
  exact mem_append_right _ (mem_append_right _ (mem_append_right _ (mem_map_of_mem ht)))

/-- The request of a pusher of the stream `v/a/s`. -/
private def pusherCmd (dstUrl : Str) (marker : Nat) : PusherCmd :=
  ⟨dstUrl, streamKey ['v'] ['a'] ['s'], marker⟩

/-- A pusher whose stream comes later, that sends a frame, is removed and ends; a second one that is
removed while it is parked and started all the same; and a third one that runs. -/
private def pushedAgain : List PusherAction :=
  let url := "rtmp://r"
  let first := pusherCmd url 0
  let second := pusherCmd url 1
  [.add url ['v'] ['a'] ['s'], .send first, .receive false, .publish ['v'] ['a'] ['s'],
    .work ⟨first, .starting, false⟩ (.ready 2), .work ⟨first, .checking, false⟩ .check,
    .work ⟨first, .waiting, false⟩ .frame, .remove ['v'] ['a'] ['s'], .store 0,
    .work ⟨first, .checking, false⟩ .check, .taskEnd ⟨first, .ending, false⟩,
    .add url ['v'] ['a'] ['s'], .send second, .receive false, .remove ['v'] ['a'] ['s'], .store 1,
    .publish ['v'] ['a'] ['s'], .work ⟨second, .starting, true⟩
      (.ready 2), .work ⟨second, .checking, true⟩ .check,
    .taskEnd ⟨second, .ending, true⟩,
    .add url ['v'] ['a'] ['s'], .send (pusherCmd url 2), .receive true]

theorem pushed_again_coherent : ∃ s, runSchedule PusherSystem.step .new pushedAgain = some s ∧
    s.running ≠ [] ∧ s.sent ≠ [] ∧
    (∀ t ∈ s.running, s.Listed t.cmd ∨ s.Told t.cmd) ∧ ∀ t ∈ s.sent, t.cancelled = false := by
  obtain ⟨s, hs, hr, hsn⟩ : ∃ s, runSchedule PusherSystem.step .new pushedAgain = some s ∧
    s.running ≠ [] ∧
      s.sent ≠ [] := by decide +kernel
  exact ⟨s, hs, hr, hsn, pushers_coherent pushedAgain s hs (by decide +kernel)⟩

/-- A pusher is removed and added again, and its first task ends behind the start of the second: the
entry of the second is gone. -/
private def overtaken : List PusherAction :=
  let url := "rtmp://r"
  [.add url ['v'] ['a'] ['s'], .send (pusherCmd url 0), .receive true, .remove ['v'] ['a']
    ['s'], .store 0, .add url ['v'] ['a'] ['s'], .send (pusherCmd url 1), .receive true,
    .work ⟨pusherCmd url 0, .starting, false⟩ .fail, .taskEnd ⟨pusherCmd url 0, .ending, false⟩]

/-- An RTSP pusher is removed while it is parked. When the stream is published, it is started and
sends what is cached. -/
private def takenBack : List PusherAction :=
  let url := "rtsp://r"
  [.add url ['v'] ['a'] ['s'], .send (pusherCmd url 0), .receive false, .remove ['v'] ['a']
    ['s'], .store 0,
    .publish ['v'] ['a'] ['s'], .work ⟨pusherCmd url 0, .starting, true⟩ (.ready 1),
    .work ⟨pusherCmd url 0, .replaying 1, true⟩ .replay]

theorem pushers_lost :
    (∃ s, runSchedule PusherSystem.step .new overtaken = some s ∧ ∃ t ∈ s.running,
      ¬ s.Listed t.cmd ∧ ¬ s.Told t.cmd) ∧
    ∃ s, runSchedule PusherSystem.step .new takenBack = some s ∧ ∃ t ∈ s.sent,
      t.cancelled = true := by
  refine ⟨?_, by decide +kernel⟩
  obtain ⟨s, hs, t, ht, hk, htl⟩ : ∃ s, runSchedule PusherSystem.step .new overtaken = some s ∧
    ∃ t ∈ s.running,
      s.active t.cmd.key = none ∧ ¬ (s.stopped t.cmd.marker = true ∨ t.cmd.marker ∈
        s.stopping) := by decide +kernel
  refine ⟨s, hs, t, ht, ?_, htl⟩
  rintro ⟨e, he, -⟩
  rw [hk] at he
  cases he

end MediaKit.Server
