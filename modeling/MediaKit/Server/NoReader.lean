import MediaKit.Core.Proxy
import MediaKit.Core.Subscribers

/-!
# Idle pulls

`run_no_reader_supervisor` of `crates/server/src/main.rs`: when the last player of an on-demand pull
has left, a task waits for the delay, looks whether there is still no player, and stops the pull. It
looks twice, before and behind the hook call, and the second look, the count, the table of proxies,
the removal and the closing are steps of their own.

Main result: `idle_pull_unread`. The task stops the pull under a reader only if the reader registers
behind the last count, or on a source that came in the place of the one that is counted.

Mirroring notes vs the Rust source:
- One stream, with an id that `split_source_id` takes apart again. Its sources are numbered in the
  order of their creation; at most one is registered. Players register on a source that they have
  looked up, so on any that was ever there.
- The supervisor receives the events of the bus in order, and may miss some (`Lagged`). A task that
  is aborted ends when it is next suspended, which may be never: `cancel` is possible and not
  forced.
- `checks` is for the statements only: the number of subscribers, on the source of the task and on
  the registered one, at each `remove` and `close_stream` of a task. -/

namespace MediaKit.Server

open MediaKit.Core Lib List Option Function

/-- Where a delayed stop task is; the number is its `source`. -/
inductive StopPhase where
  | sleeping
  | found (source : Nat)
  | counted (source : Nat)
  | hooking (source : Nat)
  | hooked (source : Nat)
  | same (source : Nat)
  | idle (source : Nat)
  | onDemand (source : Nat)
  | removed (source : Nat)
  | returned
  deriving DecidableEq

structure StopTask where
  number : Nat
  phase : StopPhase
  aborted : Bool
  deriving DecidableEq

structure PullSystem where
  registered : Option Nat
  nextSource : Nat
  subscribers : Nat → Subscribers
  /-- The entry of the stream in the table of proxies. -/
  entry : Option ProxyEntry
  /-- What is on the bus for the supervisor. -/
  bus : List SubscriberEvent
  pending : Option Nat
  tasks : List StopTask
  nextTask : Nat
  checks : List Nat

inductive PullAction where
  /-- `get_or_create` of a publisher or of a pull task. -/
  | create
  /-- `close_stream` or `remove` of someone else. -/
  | unregister
  | addProxy (e : ProxyEntry)
  | removeProxy
  | player (source : Nat) (a : SubscriberAction)
  | receive
  | lag
  | cancel (t : StopTask)
  | advance (t : StopTask)

namespace PullSystem

def new : PullSystem := ⟨none, 0, fun _ => .new true, none, [], none, [], 0, []⟩

variable (s : PullSystem)

def count (source : Nat) : Nat := (s.subscribers source).subscriberCount

def isOnDemand : Bool := s.entry.any ProxyEntry.onDemand

/-- `task.abort()` of the pending task. -/
def abortPending : PullSystem :=
  { s with
    tasks := s.tasks.map fun t => if some t.number =
      s.pending then { t with aborted := true } else t
    pending := none }

def receive : Option PullSystem :=
  match s.bus with
  | [] => none
  | .streamPlay _ :: bus => some { s.abortPending with bus := bus }
  | .noReader :: bus =>
    some { s.abortPending with
      bus := bus, tasks := ⟨s.nextTask, .sleeping, false⟩ :: s.abortPending.tasks, pending :=
        some s.nextTask,
      nextTask := s.nextTask + 1 }
  | .streamStop _ :: bus => some { s with bus := bus }

def setPhase (t : StopTask) (phase : StopPhase) : PullSystem :=
  { s with tasks := { t with phase := phase } :: s.tasks.erase t }

/-- The counts at a `remove` or `close_stream` of a task. -/
def check (source : Nat) : PullSystem :=
  { s with checks := s.checks ++ s.count source :: (s.registered.map s.count).toList }

def advance (t : StopTask) : Option PullSystem :=
  match t.phase with
  | .sleeping =>
    match s.registered with
    | none => some (s.setPhase t .returned)
    | some source => some (s.setPhase t (.found source))
  | .found source => some (s.setPhase t (if s.count source ≠ 0 then .returned else .counted source))
  | .counted source => some (s.setPhase t (if s.isOnDemand then .hooking source else .returned))
  | .hooking source => some (s.setPhase t (.hooked source))
  | .hooked source =>
    some (s.setPhase t (if s.registered = some source then .same source else .returned))
  | .same source => some (s.setPhase t (if s.count source = 0 then .idle source else .returned))
  | .idle source => some (s.setPhase t (if s.isOnDemand then .onDemand source else .returned))
  | .onDemand source =>
    some { (s.check source).setPhase t (if s.entry.isSome then .removed source else .returned) with
      entry := none }
  | .removed source => some { (s.check source).setPhase t .returned with registered := none }
  | .returned => none

def step : PullAction → Option PullSystem
  | .create =>
    match s.registered with
    | some _ => some s
    | none => some { s with registered := some s.nextSource, nextSource := s.nextSource + 1 }
  | .unregister => some { s with registered := none }
  | .addProxy e => some { s with entry := s.entry.or (some e) }
  | .removeProxy => some { s with entry := none }
  | .player source a =>
    if source < s.nextSource then
      ((s.subscribers source).step a).map fun subscribers =>
        { s with
          subscribers := update s.subscribers source subscribers
          bus := s.bus ++ (subscribers.events.drop (s.subscribers source).events.length).map
            Prod.fst }
    else none
  | .receive => s.receive
  | .lag => some { s with bus := s.bus.tail }
  | .cancel t => if t ∈ s.tasks ∧ t.aborted then some { s with tasks := s.tasks.erase t } else none
  | .advance t => if t ∈ s.tasks then s.advance t else none

end PullSystem

/-! ## No reader at the end -/

def StopPhase.source : StopPhase → Option Nat
  | .sleeping | .returned => none
  | .found source | .counted source | .hooking source | .hooked source | .same source |
    .idle source | .onDemand source
  | .removed source => some source

/-- The sources that a task in this phase expects nobody to read: behind the second look those that
replace its own, behind the last count also its own. -/
def StopPhase.Expects : StopPhase → Nat → Prop
  | .same source, h => source < h
  | .idle source, h | .onDemand source, h | .removed source, h => source ≤ h
  | _, _ => False

instance : (p : StopPhase) → (h : Nat) → Decidable (p.Expects h)
  | .same _, _ => inferInstanceAs (Decidable (_ < _))
  | .idle _, _ | .onDemand _, _ | .removed _, _ => inferInstanceAs (Decidable (_ ≤ _))
  | .sleeping, _ | .found _, _ | .counted _, _ | .hooking _, _ | .hooked _, _ | .returned,
    _ => .isFalse id

/-- No player registers on a source that a task expects nobody to read. -/
def Unjoined (s : PullSystem) : PullAction → Prop
  | .player h (.register _) => ∀ t ∈ s.tasks, ¬t.phase.Expects h
  | _ => True

instance (s : PullSystem) : (a : PullAction) → Decidable (Unjoined s a)
  | .player _ (.register _) => inferInstanceAs (Decidable (∀ t ∈ _, _))
  | .player _ (.join _) | .player _ (.leave ..) | .player _ (.remove _) | .player _ (.announce _)
  | .create | .unregister | .addProxy _ | .removeProxy | .receive | .lag | .cancel _ | .advance _ =>
    .isTrue trivial

/-- What holds at all times if nobody does. -/
structure Idle (s : PullSystem) : Prop where
  newest : ∀ h, s.registered = some h → h + 1 = s.nextSource
  fresh : ∀ h, s.nextSource ≤ h → (s.subscribers h).map = []
  known : ∀ t ∈ s.tasks, ∀ source ∈ t.phase.source, source < s.nextSource
  expected : ∀ t ∈ s.tasks, ∀ h, t.phase.Expects h → (s.subscribers h).map = []
  checks : ∀ n ∈ s.checks, n = 0

namespace Idle

variable {s s' : PullSystem}
  {t : StopTask}

/-- A step after which a task expects no more than some task did before. -/
theorem mono (h : Idle s) (hnw : ∀ n, s'.registered = some n → n + 1 = s'.nextSource)
    (hnx : s.nextSource ≤ s'.nextSource)
    (hsb : ∀ n, (s.subscribers n).map = [] → (s'.subscribers n).map = [])
    (hts : ∀ t ∈ s'.tasks, t.phase = .sleeping ∨ ∃ t₀ ∈ s.tasks, t₀.phase = t.phase)
    (hc : s'.checks = s.checks) : Idle s' where
  newest := hnw
  fresh n hn := hsb n (h.fresh n (le_trans hnx hn))
  known t ht source hsr := by
    rcases hts t ht with hsl | ⟨t₀, ht₀, heq⟩
    · rw [hsl] at hsr
      cases hsr
    · exact lt_of_lt_of_le (h.known t₀ ht₀ source (heq ▸ hsr)) hnx
  expected t ht n hn := by
    rcases hts t ht with hsl | ⟨t₀, ht₀, heq⟩
    · rw [hsl] at hn
      exact hn.elim
    · exact hsb n (h.expected t₀ ht₀ n (heq ▸ hn))
  checks := hc ▸ h.checks

theorem mono_tasks (h : Idle s)
    (ht : ∀ t ∈ s'.tasks, t.phase = .sleeping ∨ ∃ t₀ ∈ s.tasks, t₀.phase = t.phase)
    (hr : s'.registered = s.registered) (hnx : s'.nextSource = s.nextSource)
    (hs : s'.subscribers = s.subscribers) (hc : s'.checks = s.checks) : Idle s' := by
  refine h.mono (fun n hn => ?_) (le_of_eq hnx.symm) (fun n hn => ?_) ht hc
  · rw [hnx]
    exact h.newest n (hr ▸ hn)
  · rwa [hs]

theorem abortPending_tasks (ht : t ∈ s.abortPending.tasks) :
    ∃ t₀ ∈ s.tasks, t₀.phase = t.phase := by
  obtain ⟨t₀, ht₀, rfl⟩ := mem_map.mp ht
  refine ⟨t₀, ht₀, ?_⟩
  split <;> rfl

section

variable (h : Idle s)
include h

theorem receive (hs : s.receive = some s') : Idle s' := by
  unfold PullSystem.receive at hs
  split at hs
  case h_1 => cases hs
  case h_2 =>
    cases hs
    exact h.mono_tasks (fun t ht => .inr (abortPending_tasks ht)) rfl rfl rfl rfl
  case h_3 =>
    cases hs
    refine h.mono_tasks (fun t ht => ?_) rfl rfl rfl rfl
    rcases mem_cons.mp ht with rfl | ht
    · exact .inl rfl
    · exact .inr (abortPending_tasks ht)
  case h_4 =>
    cases hs
    exact h.mono_tasks (fun t ht => .inr ⟨t, ht, rfl⟩) rfl rfl rfl rfl

theorem player {n : Nat} {a : SubscriberAction} {subscribers : Subscribers}
    (hok : Unjoined s (.player n a)) (hn : n < s.nextSource)
    (hs : (s.subscribers n).step a = some subscribers) (bus : List SubscriberEvent) :
    Idle { s with subscribers := update s.subscribers n subscribers, bus := bus } := by
  -- whatever is expected to be empty is not the source of this player, or the player does not
  -- register
  have hk : ∀ m, (∀ session, a = .register session → m ≠ n) → (s.subscribers m).map = [] →
      (update s.subscribers n subscribers m).map = [] := by
    intro m hm hem
    by_cases heq : m = n
    · subst heq
      rw [update_self]
      exact Subscribers.step_map_nil hs (fun session ha => hm session ha rfl) hem
    · rwa [update_of_ne heq]
  refine ⟨h.newest, fun m hm => hk m (fun _ _ heq => ?_) (h.fresh m hm), h.known,
    fun t ht m hm => hk m (fun session ha heq => ?_) (h.expected t ht m hm), h.checks⟩
  · subst heq
    exact Nat.not_le_of_lt hn hm
  · subst heq ha
    exact hok t ht hm

theorem setPhase {phase : StopPhase} (hk : ∀ source ∈ phase.source, source < s.nextSource)
    (he : ∀ n, phase.Expects n → (s.subscribers n).map = []) : Idle (s.setPhase t phase) where
  newest := h.newest
  fresh := h.fresh
  known u hu := by
    rcases mem_cons.mp hu with rfl | hu
    · exact hk
    · exact h.known u (mem_of_mem_erase hu)
  expected u hu := by
    rcases mem_cons.mp hu with rfl | hu
    · exact he
    · exact h.expected u (mem_of_mem_erase hu)
  checks := h.checks

theorem return_ (t : StopTask) : Idle (s.setPhase t .returned) :=
  h.setPhase (fun _ hs => nomatch hs) fun _ hn => hn.elim

theorem check (ht : t ∈ s.tasks) (source : Nat) (hs : t.phase.source = some source)
    (he : ∀ n, source ≤ n → t.phase.Expects n) : Idle (s.check source) := by
  have hz : ∀ n, source ≤ n → s.count n = 0 := fun n hn => by
    rw [PullSystem.count, Subscribers.subscriberCount, h.expected t ht n (he n hn), length_nil]
  refine ⟨h.newest, h.fresh, h.known, h.expected, fun n hn => ?_⟩
  rcases mem_append.mp hn with hn | hn
  · exact h.checks n hn
  rcases mem_cons.mp hn with rfl | hn
  · exact hz source le_rfl
  · -- the registered source is the newest one
    obtain ⟨m, hm, rfl⟩ := map_eq_some_iff.mp (mem_toList.mp hn)
    have hlt := h.known t ht source hs
    have hnw := h.newest m hm
    exact hz m (by omega)

theorem advance (ht : t ∈ s.tasks) (hs : s.advance t = some s') : Idle s' := by
  have hk := h.known t ht
  have he := h.expected t ht
  unfold PullSystem.advance at hs
  split at hs
  case h_1 hp =>
    split at hs
    · cases hs
      exact h.return_ t
    case h_2 source hsr =>
      cases hs
      refine h.setPhase (fun m hm => ?_) fun _ hn => hn.elim
      cases hm
      have := h.newest source hsr
      omega
  case h_2 source hp =>
    rw [hp] at hk
    cases hs
    split
    · exact h.return_ t
    · exact h.setPhase hk fun _ hn => hn.elim
  case h_3 source hp =>
    rw [hp] at hk
    cases hs
    split
    · exact h.setPhase hk fun _ hn => hn.elim
    · exact h.return_ t
  case h_4 source hp =>
    rw [hp] at hk
    cases hs
    exact h.setPhase hk fun _ hn => hn.elim
  case h_5 source hp =>
    rw [hp] at hk
    cases hs
    split
    case isTrue hsm =>
      -- what would replace the source is not there yet
      refine h.setPhase hk fun n hn => h.fresh n ?_
      rw [← h.newest source hsm]
      exact hn
    case isFalse => exact h.return_ t
  case h_6 source hp =>
    rw [hp] at hk he
    cases hs
    split
    case isTrue hcn =>
      refine h.setPhase hk fun n hn => ?_
      rcases Nat.lt_or_eq_of_le hn with hlt | rfl
      · exact he n hlt
      · exact eq_nil_of_length_eq_zero hcn
    case isFalse => exact h.return_ t
  case h_7 source hp =>
    rw [hp] at hk he
    cases hs
    split
    · exact h.setPhase hk he
    · exact h.return_ t
  case h_8 source hp =>
    have hch := h.check ht source (by rw [hp]; rfl) (fun n hn => by rw [hp]; exact hn)
    rw [hp] at hk he
    cases hs
    refine mono_tasks (s := (s.check source).setPhase t _) ?_ (fun u hu => .inr ⟨u, hu, rfl⟩) rfl
      rfl rfl rfl
    split
    · exact hch.setPhase hk he
    · exact hch.return_ t
  case h_9 source hp =>
    have hch := h.check ht source (by rw [hp]; rfl) (fun n hn => by rw [hp]; exact hn)
    cases hs
    exact (hch.return_ t).mono (fun n hn => nomatch hn) le_rfl (fun _ => id)
      (fun u hu => .inr ⟨u, hu, rfl⟩) rfl
  case h_10 => cases hs

theorem step {a : PullAction} (hok : Unjoined s a) (hs : s.step a = some s') : Idle s' := by
  have hsm : ∀ {t : StopTask}, t ∈ s.tasks → t.phase = .sleeping ∨ ∃ t₀ ∈ s.tasks,
      t₀.phase = t.phase :=
    fun ht => .inr ⟨_, ht, rfl⟩
  cases a with
  | create =>
    simp only [PullSystem.step] at hs
    split at hs
    · cases hs
      exact h
    · cases hs
      refine h.mono (fun n hn => ?_) (Nat.le_succ _) (fun _ => id) (fun _ => hsm) rfl
      cases hn
      rfl
  | unregister =>
    cases hs
    exact h.mono (fun n hn => nomatch hn) le_rfl (fun _ => id) (fun _ => hsm) rfl
  | addProxy e =>
    cases hs
    exact h.mono_tasks (fun _ => hsm) rfl rfl rfl rfl
  | removeProxy =>
    cases hs
    exact h.mono_tasks (fun _ => hsm) rfl rfl rfl rfl
  | player n b =>
    obtain ⟨hn, hs⟩ := ite_none_right_eq_some.mp hs
    obtain ⟨subscribers, hsb, rfl⟩ := map_eq_some_iff.mp hs
    exact h.player hok hn hsb _
  | receive => exact h.receive hs
  | lag =>
    cases hs
    exact h.mono_tasks (fun _ => hsm) rfl rfl rfl rfl
  | cancel t =>
    obtain ⟨-, ⟨⟩⟩ := ite_none_right_eq_some.mp hs
    exact h.mono_tasks (fun _ hu => hsm (mem_of_mem_erase hu)) rfl rfl rfl rfl
  | advance t =>
    obtain ⟨ht, hs⟩ := ite_none_right_eq_some.mp hs
    exact h.advance ht hs

end

end Idle

theorem idle_new : Idle .new := by
  refine ⟨fun n hn => ?_, fun _ _ => rfl, forall_mem_nil _, forall_mem_nil _, forall_mem_nil _⟩
  cases hn

/-- **An idle pull is stopped without readers**, behind every run in which nobody registers on its
source after the last count or on a source that replaces it after the second look: at each removal
of a proxy and each `close_stream` by a stop task there is no subscriber on the source of the task,
nor on the registered one. -/
theorem idle_pull_unread (as : List PullAction) (s : PullSystem)
    (hrun : runSchedule PullSystem.step .new as = some s)
    (hok : Along PullSystem.step Unjoined .new as) : ∀ n ∈ s.checks, n = 0 :=
  (run_invariant_of (I := Idle) (fun _ _ _ h => h.step) idle_new hok hrun).checks

/-- The task of a stream, up to where it has looked a second time and counted. -/
private def untilIdle : List PullAction :=
  [.create, .addProxy ⟨['u'], 0, true⟩,
    .player 0 (.register ['a']), .player 0 (.join (⟨0, ['a']⟩, [.streamPlay ['a']])), .receive,
    .player 0 (.leave ⟨0, ['a']⟩ true), .player 0 (.remove ⟨0, ['a']⟩),
    .player 0 (.announce (⟨0, ['a']⟩, [.streamStop ['a'], .noReader])), .player 0
      (.announce (⟨0, ['a']⟩, [.noReader])),
    .receive, .receive,
    .advance ⟨0, .sleeping, false⟩, .advance ⟨0, .found 0, false⟩, .advance ⟨0, .counted 0, false⟩,
    .advance ⟨0, .hooking 0, false⟩, .advance ⟨0, .hooked 0, false⟩, .advance ⟨0, .same 0, false⟩]

/-- The last player leaves, and the pull is stopped. -/
theorem idle_pull_stopped :
    let as := untilIdle ++
      [.advance ⟨0, .idle 0, false⟩, .advance ⟨0, .onDemand 0, false⟩, .advance
        ⟨0, .removed 0, false⟩]
    ∃ s, runSchedule PullSystem.step .new as = some s ∧ s.registered = none ∧ s.checks.length = 4 ∧
      ∀ n ∈ s.checks, n = 0 := by
  intro as
  obtain ⟨s, hrun, hc, hl⟩ : ∃ s, runSchedule PullSystem.step .new as = some s ∧
    s.registered = none ∧
      s.checks.length = 4 := by decide +kernel
  exact ⟨s, hrun, hc, hl, idle_pull_unread as s hrun (by decide +kernel)⟩

/-- A player that registers behind the last count loses its stream. -/
theorem reader_closed :
    let as := untilIdle ++
      [.player 0 (.register ['b']), .player 0 (.join (⟨1, ['b']⟩, [.streamPlay ['b']])),
      .advance ⟨0, .idle 0, false⟩, .advance ⟨0, .onDemand 0, false⟩,
      .advance ⟨0, .removed 0, false⟩]
    ∃ s, runSchedule PullSystem.step .new as = some s ∧ s.registered = none ∧
      (s.subscribers 0).live = [⟨1, ['b']⟩] ∧
      s.checks = [1, 1, 1, 1] := by
  decide +kernel

end MediaKit.Server
