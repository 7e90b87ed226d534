import MediaKit.Lib.Schedule
import MediaKit.Lib.Text

/-!
# Subscribers of a source

`register_subscriber`, `add_subscriber`, `remove_subscriber` and `SubscriberGuard` of
`crates/core/src/media_source.rs`: a player keeps a guard while it plays, and its session is in the
map of the source. The map goes by the session id and not by the guard, a guard that is dropped
leaves the removal to a spawned task, and events are published when the lock on the map has been
released.

Main result: `subscribers_accounted`. In the runs in which no removal hits the id of another guard
and no player joins between a removal that leaves the map empty and its event, the map has every
live guard and `NoReader` is published on an empty map.

Mirroring notes vs the Rust source:
- A step is one update of the map under its lock or one publication.
- The guards are numbered in the order of the calls. A guard that is dropped outside a runtime
  spawns nothing, and its session stays in the map.
- `events` has each event with the number of subscribers at that moment; the number is for the
  statements only. Without an event bus nothing is published. -/

namespace MediaKit.Core

open Lib List

inductive SubscriberEvent where
  | streamPlay (session : Str)
  | streamStop (session : Str)
  | noReader
  deriving DecidableEq

structure Guard where
  number : Nat
  session : Str
  deriving DecidableEq

structure Subscribers where
  map : List Str
  eventBus : Bool
  /-- Calls of `register_subscriber` behind the update of the map, with their event. -/
  joining : List (Guard × List SubscriberEvent)
  live : List Guard
  /-- Calls of `remove_subscriber` before the update of the map. -/
  removing : List Guard
  /-- Calls of `remove_subscriber` behind it, with the events that are left. -/
  announcing : List (Guard × List SubscriberEvent)
  next : Nat
  events : List (SubscriberEvent × Nat)
  deriving DecidableEq

namespace Subscribers

def new (eventBus : Bool) : Subscribers := ⟨[], eventBus, [], [], [], [], 0, []⟩

variable (s : Subscribers)

def subscriberCount : Nat := s.map.length

/-- `eb.publish` of one event or none. -/
def publish (es : List SubscriberEvent) : Subscribers :=
  { s with events := s.events ++ es.map fun e => (e, s.subscriberCount) }

/-- `add_subscriber` at the map. -/
def addSubscriber (session : Str) : Subscribers :=
  let first := s.map.isEmpty && !s.map.contains session
  { s with
    map := s.map.insert session
    joining := (⟨s.next, session⟩, if first && s.eventBus then [.streamPlay session] else []) ::
      s.joining
    next := s.next + 1 }

/-- The rest of `register_subscriber`. -/
def join (t : Guard × List SubscriberEvent) : Option Subscribers :=
  if t ∈ s.joining then some
    { s.publish t.2 with joining := s.joining.erase t, live := t.1 :: s.live } else none

/-- `close` of a guard, or its drop. -/
def leave (g : Guard) (runtime : Bool) : Option Subscribers :=
  if g ∈ s.live then
    some { s with
      live := s.live.erase g, removing := if runtime then g :: s.removing else s.removing }
  else none

/-- `remove_subscriber` at the map. -/
def removeSubscriber (g : Guard) : Option Subscribers :=
  if g ∈ s.removing then
    let removed := s.map.contains g.session
    let map := s.map.erase g.session
    let events := if removed && s.eventBus then .streamStop g.session ::
      if map.isEmpty then [.noReader] else [] else []
    some { s with map := map, removing := s.removing.erase g, announcing := (g, events) ::
      s.announcing }
  else none

/-- The next event of a `remove_subscriber`. -/
def announce (t : Guard × List SubscriberEvent) : Option Subscribers :=
  if t ∈ s.announcing then
    match t.2 with
    | [] => some { s with announcing := s.announcing.erase t }
    | e :: es => some { s.publish [e] with announcing := (t.1, es) :: s.announcing.erase t }
  else none

end Subscribers

inductive SubscriberAction where
  | register (session : Str)
  | join (t : Guard × List SubscriberEvent)
  | leave (g : Guard) (runtime : Bool)
  | remove (g : Guard)
  | announce (t : Guard × List SubscriberEvent)

def Subscribers.step (s : Subscribers) : SubscriberAction → Option Subscribers
  | .register session => some (s.addSubscriber session)
  | .join t => s.join t
  | .leave g runtime => s.leave g runtime
  | .remove g => s.removeSubscriber g
  | .announce t => s.announce t

theorem Subscribers.step_map_nil {s s' : Subscribers} {a : SubscriberAction}
    (hs : s.step a = some s')
    (ha : ∀ session, a ≠ .register session) (h : s.map = []) : s'.map = [] := by
  cases a with
  | register session => exact absurd rfl (ha session)
  | join t =>
    obtain ⟨-, ⟨⟩⟩ := Option.ite_none_right_eq_some.mp hs
    exact h
  | leave g runtime =>
    obtain ⟨-, ⟨⟩⟩ := Option.ite_none_right_eq_some.mp hs
    exact h
  | remove g =>
    obtain ⟨-, ⟨⟩⟩ := Option.ite_none_right_eq_some.mp hs
    simp only [h, erase_nil]
  | announce t =>
    obtain ⟨-, hs⟩ := Option.ite_none_right_eq_some.mp hs
    split at hs
    all_goals
      cases hs
      exact h

/-! ## Accounting -/

/-- What the map and the events owe to the guards. -/
structure Accounted (s : Subscribers) : Prop where
  joining : ∀ t ∈ s.joining, t.1.session ∈ s.map ∧ .noReader ∉ t.2
  live : ∀ g ∈ s.live, g.session ∈ s.map
  announcing : ∀ t ∈ s.announcing, .noReader ∈ t.2 → s.map = []
  events : ∀ e ∈ s.events, e.1 = .noReader → e.2 = 0

/-- A removal does not hit the id of a guard that is live or about to be, and no player joins while
a `NoReader` is due. -/
def Orderly (s : Subscribers) : SubscriberAction → Prop
  | .register _ => ∀ t ∈ s.announcing, .noReader ∉ t.2
  | .remove g => ∀ g' ∈ s.joining.map Prod.fst ++ s.live, g'.session ≠ g.session
  | _ => True

instance (s : Subscribers) : (a : SubscriberAction) → Decidable (Orderly s a)
  | .register _ => inferInstanceAs (Decidable (∀ t ∈ _, _))
  | .remove _ => inferInstanceAs (Decidable (∀ g' ∈ _, _))
  | .join _ | .leave .. | .announce _ => .isTrue trivial

namespace Accounted

variable {s s' : Subscribers}
  {t : Guard × List SubscriberEvent} {g : Guard}

section

variable (h : Accounted s)
include h

theorem register {session : Str} (hok : Orderly s (.register session)) :
    Accounted (s.addSubscriber session) where
  joining t ht := by
    rcases mem_cons.mp ht with rfl | ht
    · refine ⟨mem_insert_self .., ?_⟩
      split <;> simp
    · exact ⟨mem_insert_of_mem (h.joining t ht).1, (h.joining t ht).2⟩
  live g hg := mem_insert_of_mem (h.live g hg)
  announcing t ht hd := absurd hd (hok t ht)
  events := h.events

theorem join (hs : s.join t = some s') : Accounted s' := by
  obtain ⟨ht, ⟨⟩⟩ := Option.ite_none_right_eq_some.mp hs
  obtain ⟨hmem, hp⟩ := h.joining t ht
  refine ⟨fun u hu => h.joining u (mem_of_mem_erase hu), fun g hg => ?_, h.announcing,
    fun e he hn => ?_⟩
  · rcases mem_cons.mp hg with rfl | hg
    · exact hmem
    · exact h.live g hg
  · rcases mem_append.mp he with he | he
    · exact h.events e he hn
    · -- the event of a registration is not a `NoReader`
      obtain ⟨e', he', rfl⟩ := mem_map.mp he
      exact absurd (hn ▸ he') hp

theorem leave {runtime : Bool} (hs : s.leave g runtime = some s') : Accounted s' := by
  obtain ⟨-, ⟨⟩⟩ := Option.ite_none_right_eq_some.mp hs
  exact ⟨h.joining, fun g' hg' => h.live g' (mem_of_mem_erase hg'), h.announcing, h.events⟩

theorem remove (hok : Orderly s (.remove g)) (hs : s.removeSubscriber g = some s') :
    Accounted s' := by
  obtain ⟨-, ⟨⟩⟩ := Option.ite_none_right_eq_some.mp hs
  refine ⟨fun t ht => ⟨?_, (h.joining t ht).2⟩, fun g' hg' => ?_, fun t ht hd => ?_, h.events⟩
  · refine (mem_erase_of_ne (hok t.1 ?_)).mpr (h.joining t ht).1
    exact mem_append_left _ (mem_map_of_mem ht)
  · exact (mem_erase_of_ne (hok g' (mem_append_right _ hg'))).mpr (h.live g' hg')
  · rcases mem_cons.mp ht with rfl | ht
    · split at hd
      · rcases mem_cons.mp hd with hd | hd
        · cases hd
        · split at hd
          case isTrue he => exact isEmpty_iff.mp he
          case isFalse => cases hd
      · cases hd
    · -- with a `NoReader` due the map was empty before
      rw [h.announcing t ht hd]
      rfl

theorem announce (hs : s.announce t = some s') : Accounted s' := by
  obtain ⟨ht, hs⟩ := Option.ite_none_right_eq_some.mp hs
  split at hs
  · cases hs
    exact ⟨h.joining, h.live, fun u hu => h.announcing u (mem_of_mem_erase hu), h.events⟩
  case h_2 e es hes =>
    cases hs
    have hd : ∀ e' ∈ e :: es, e' = .noReader → s.map = [] := fun e' he' heq => by
      subst heq
      exact h.announcing t ht (hes ▸ he')
    refine ⟨h.joining, h.live, fun u hu hu' => ?_, fun e' he' hn => ?_⟩
    · rcases mem_cons.mp hu with rfl | hu
      · exact hd .noReader (mem_cons_of_mem _ hu') rfl
      · exact h.announcing u (mem_of_mem_erase hu) hu'
    · rcases mem_append.mp he' with he' | he'
      · exact h.events e' he' hn
      · obtain rfl := mem_singleton.mp he'
        simp only [Subscribers.subscriberCount, hd e (mem_cons_self ..) hn, length_nil]

theorem step {a : SubscriberAction} (hok : Orderly s a) (hs : s.step a = some s') :
    Accounted s' := by
  cases a with
  | register session =>
    cases hs
    exact h.register hok
  | join t => exact h.join hs
  | leave g runtime => exact h.leave hs
  | remove g => exact h.remove hok hs
  | announce t => exact h.announce hs

end

end Accounted

theorem accounted_new (eventBus : Bool) : Accounted (.new eventBus) :=
  ⟨forall_mem_nil _, forall_mem_nil _, forall_mem_nil _, forall_mem_nil _⟩

/-- **Every live guard counts, and `NoReader` means no reader**, behind every orderly run. -/
theorem subscribers_accounted (eventBus : Bool) (as : List SubscriberAction) (s : Subscribers)
    (hrun : runSchedule Subscribers.step (.new eventBus) as = some s)
    (hok : Along Subscribers.step Orderly (.new eventBus) as) :
    (s.live ≠ [] → 1 ≤ s.subscriberCount) ∧ ∀ e ∈ s.events, e.1 = .noReader → e.2 = 0 := by
  have h : Accounted s := run_invariant_of (fun _ _ _ h => h.step) (accounted_new eventBus) hok hrun
  refine ⟨fun hl => ?_, h.events⟩
  obtain ⟨g, hg⟩ := exists_mem_of_ne_nil _ hl
  exact length_pos_of_mem (h.live g hg)

/-- Two players, the first of which leaves. -/
theorem second_player_counts : let as : List SubscriberAction :=
  [.register ['a'], .join (⟨0, ['a']⟩, [.streamPlay ['a']]), .register ['b'],
      .join (⟨1, ['b']⟩, []), .leave ⟨0, ['a']⟩ true, .remove ⟨0, ['a']⟩]
    ∃ s, runSchedule Subscribers.step (.new true) as = some s ∧ s.live = [⟨1, ['b']⟩] ∧
      1 ≤ s.subscriberCount := by
  intro as
  obtain ⟨s, hrun, hl⟩ : ∃ s, runSchedule Subscribers.step (.new true) as = some s ∧
      s.live = [⟨1, ['b']⟩] := by
    decide +kernel
  refine ⟨s, hrun, hl, (subscribers_accounted true as s hrun (by decide +kernel)).1 ?_⟩
  rw [hl]
  exact cons_ne_nil _ _

/-- A second PLAY in one session registers its id again, and the guard of the first is dropped: the
map is empty while the second plays. And a player that joins between the removal of the last one and
its event is there when `NoReader` comes. -/
theorem subscribers_misled : (∃ s, runSchedule Subscribers.step (.new true)
        [.register ['a'], .join (⟨0, ['a']⟩, [.streamPlay ['a']]), .register ['a'],
          .join (⟨1, ['a']⟩, []), .leave ⟨0, ['a']⟩ true, .remove ⟨0, ['a']⟩] = some s ∧
      s.live = [⟨1, ['a']⟩] ∧ s.subscriberCount = 0) ∧
    ∃ s, runSchedule Subscribers.step (.new true)
        [.register ['a'], .join (⟨0, ['a']⟩, [.streamPlay ['a']]), .leave ⟨0, ['a']⟩ true, .remove
          ⟨0, ['a']⟩, .register ['b'], .join (⟨1, ['b']⟩, [.streamPlay ['b']]), .announce
            (⟨0, ['a']⟩, [.streamStop ['a'], .noReader]),
          .announce (⟨0, ['a']⟩, [.noReader])] = some s ∧
      s.live = [⟨1, ['b']⟩] ∧ (SubscriberEvent.noReader, 1) ∈ s.events := by
  constructor
  · refine ⟨_, rfl, ?_⟩
    decide +kernel
  · refine ⟨_, rfl, ?_⟩
    decide +kernel

end MediaKit.Core
