import MediaKit.Lib.Schedule
import MediaKit.Lib.TaskTable
import MediaKit.Lib.Text

/-!
# Stream proxies

`crates/core/src/stream_proxy.rs` (`StreamProxyControl`) and `run_proxy_supervisor` in
`crates/server/src/main.rs`: a proxy is an entry in the table of active proxies and a pull task.
`add` puts the entry in and sends the command to the supervisor, which starts the task; `remove`
takes the entry out and tells the task to stop; a task that ends takes its own entry out.

Main result: `proxies_coherent`. Whatever the order in which callers, the supervisor and the tasks
take their steps, the table, the channel and the tasks fit together.

Mirroring notes vs the Rust source:
- A step is one operation on the table, on the channel or on a flag; `add` and `remove` are two
  steps each.
- The `Arc<AtomicBool>` of an entry and its task is their marker, a number that is used once.
  `Arc::ptr_eq` compares markers.
- `DashMap` is a partial map. The receiver of the channel stays open, as it does while the
  supervisor runs; a task is there from the step in which the supervisor receives its command to the
  step in which it takes its own entry out. -/

namespace MediaKit.Core

open Lib List Option Function

/-- `format!("{}/{}/{}", vhost, app, stream)`, for sources and for proxies. -/
def streamKey (vhost app stream : Str) : Str := vhost ++ '/' :: (app ++ '/' :: stream)

structure ProxyEntry where
  url : Str
  marker : Nat
  onDemand : Bool
  deriving DecidableEq

def ProxyEntry.belongsTo (e : ProxyEntry) (marker : Nat) : Bool := decide (e.marker = marker)

/-- A command, and then the task that it starts. -/
structure ProxyCmd where
  url : Str
  key : Str
  marker : Nat
  deriving DecidableEq

structure ProxySystem where
  active : Str → Option ProxyEntry
  /-- The commands of `add` calls between the table and the channel. -/
  submitting : List ProxyCmd
  queue : List ProxyCmd
  running : List ProxyCmd
  stopped : Nat → Bool
  /-- The markers of `remove` calls between the table and the flag. -/
  stopping : List Nat
  /-- The next unused marker. -/
  next : Nat

namespace ProxySystem

def new : ProxySystem := ⟨fun _ => none, [], [], [], fun _ => false, [], 0⟩

/-- The tasks that are submitted, queued or running. -/
def tasks (s : ProxySystem) : List ProxyCmd := s.submitting ++ (s.queue ++ s.running)

/-- The command with a marker, and the others. -/
def pick (marker : Nat) : List ProxyCmd → Option (ProxyCmd × List ProxyCmd)
  | [] => none
  | c :: cs => if c.marker = marker then some (c, cs) else (pick marker cs).map fun r =>
    (r.1, c :: r.2)

/-- `add_inner` at the table: whether the proxy is new. -/
def addInner (s : ProxySystem) (url key : Str) (onDemand : Bool) : ProxySystem × Bool :=
  match s.active key with
  | some _ => (s, false)
  | none =>
    ({ s with
        active := update s.active key (some ⟨url, s.next, onDemand⟩)
        submitting := ⟨url, key, s.next⟩ :: s.submitting
        next := s.next + 1 }, true)

/-- `add_inner` at the channel. -/
def send (s : ProxySystem) (marker : Nat) : Option ProxySystem :=
  (pick marker s.submitting).map fun r => { s with submitting := r.2, queue := s.queue ++ [r.1] }

/-- The supervisor takes a command and starts its task. -/
def receive (s : ProxySystem) : Option ProxySystem :=
  match s.queue with
  | [] => none
  | c :: queue => some { s with queue := queue, running := c :: s.running }

/-- `remove` at the table: whether there was a proxy. -/
def remove (s : ProxySystem) (key : Str) : ProxySystem × Bool :=
  match s.active key with
  | none => (s, false)
  | some e =>
    ({ s with active := update s.active key none, stopping := e.marker :: s.stopping }, true)

/-- `remove` at the flag. -/
def store (s : ProxySystem) (marker : Nat) : Option ProxySystem :=
  if marker ∈ s.stopping then
    some { s with stopping := s.stopping.erase marker, stopped := update s.stopped marker true }
  else none

/-- The end of a task: whether it took its own entry out (`remove_if`). -/
def taskEnd (s : ProxySystem) (marker : Nat) : Option (ProxySystem × Bool) :=
  (pick marker s.running).map fun r =>
    let s := { s with running := r.2 }
    match s.active r.1.key with
    | none => (s, false)
    | some e =>
      if e.belongsTo marker then ({ s with active := update s.active r.1.key none }, true)
        else (s, false)

end ProxySystem

open ProxySystem

inductive ProxyAction where
  | add (url key : Str) (onDemand : Bool)
  | send (marker : Nat)
  | receive
  | remove (key : Str)
  | store (marker : Nat)
  | taskEnd (marker : Nat)

def ProxySystem.step (s : ProxySystem) : ProxyAction → Option ProxySystem
  | .add url key onDemand => some (s.addInner url key onDemand).1
  | .send marker => s.send marker
  | .receive => s.receive
  | .remove key => some (s.remove key).1
  | .store marker => s.store marker
  | .taskEnd marker => (s.taskEnd marker).map Prod.fst

/-! ## Coherence -/

/-- The entry of a task is in the table. -/
def ProxySystem.Listed (s : ProxySystem) (c : ProxyCmd) : Prop :=
  ∃ e, s.active c.key = some e ∧ e.marker = c.marker

/-- The table, the channel and the tasks fit together. -/
structure Coherent (s : ProxySystem) : Prop where
  filed : Filed ProxyEntry.marker ProxyCmd.key ProxyCmd.marker s.active s.tasks
    (Told s.stopped s.stopping) s.next
  /-- An entry has the marker of a task for its key. -/
  entries : ∀ key e, s.active key = some e → ∃ c ∈ s.tasks, c.key = key ∧ c.marker = e.marker

variable {marker : Nat}

theorem pick_spec : ∀ {l : List ProxyCmd} {r : ProxyCmd × List ProxyCmd},
    pick marker l = some r → l.Perm (r.1 :: r.2) ∧ r.1.marker = marker := by
  intro l
  induction l with
  | nil => intro r h; cases h
  | cons c cs ih =>
    intro r h
    rw [pick] at h
    split at h
    · cases h
      exact ⟨.refl _, ‹_›⟩
    · cases hp : pick marker cs with
      | none => rw [hp] at h; cases h
      | some q =>
        rw [hp] at h
        cases h
        obtain ⟨hpr, hm⟩ := ih hp
        exact ⟨(hpr.cons c).trans (.swap _ _ _), hm⟩

/-- The end of a task, in one step: the entry goes exactly if it belongs to the task. -/
theorem ProxySystem.taskEnd_eq (s : ProxySystem) (marker : Nat) : s.taskEnd marker =
    (pick marker s.running).map fun r => ({ s with
      running := r.2
      active := if (s.active r.1.key).any (·.belongsTo marker) then update s.active r.1.key none
        else s.active },
      (s.active r.1.key).any (·.belongsTo marker)) := by
  unfold taskEnd
  congr 1
  funext r
  cases hk : s.active r.1.key with
  | none => simp [hk]
  | some e => cases ho : e.belongsTo marker <;> simp [hk, ho]

theorem own_iff {s : ProxySystem} {key : Str} :
    (s.active key).any (·.belongsTo marker) = true ↔ ∃ e, s.active key = some e ∧
    e.marker = marker := by
  simp [Option.any_eq_true, ProxyEntry.belongsTo]

namespace Coherent

variable {s s' : ProxySystem}

section

variable (h : Coherent s)
include h

theorem eq_of_marker {c c' : ProxyCmd} (hc : c ∈ s.tasks) (hc' : c' ∈ s.tasks)
    (heq : c.marker = c'.marker) : c = c' :=
  inj_on_of_nodup_map h.filed.distinct hc hc' heq

theorem key_eq {key key' : Str} {e e' : ProxyEntry} (he : s.active key = some e)
    (he' : s.active key' = some e') (heq : e.marker = e'.marker) : key = key' := by
  obtain ⟨c, hc, rfl, hm⟩ := h.entries key e he
  obtain ⟨c', hc', rfl, hm'⟩ := h.entries key' e' he'
  rw [h.eq_of_marker hc hc' (hm.trans (heq.trans hm'.symm))]

theorem of_perm (ha : s'.active = s.active) (hp : s.tasks.Perm s'.tasks)
    (ht : ∀ m, Told s.stopped s.stopping m → Told s'.stopped s'.stopping m)
    (hn : s'.next = s.next) : Coherent s' where
  filed := by
    rw [ha, hn]
    exact h.filed.of_subperm hp.symm.subperm ht
  entries key e he := by
    obtain ⟨c, hc, hk⟩ := h.entries key e (ha ▸ he)
    exact ⟨c, hp.mem_iff.mp hc, hk⟩

theorem addInner (url key : Str) (onDemand : Bool) : Coherent (s.addInner url key onDemand).1 := by
  unfold ProxySystem.addInner
  cases hk : s.active key with
  | some e => exact h
  | none =>
    refine ⟨h.filed.add (c := ⟨url, key, s.next⟩) hk rfl rfl, fun k e he => ?_⟩
    rcases of_update he with ⟨rfl, ⟨⟩⟩ | ⟨-, he⟩
    · exact ⟨_, mem_cons_self .., rfl, rfl⟩
    · obtain ⟨c, hc, hck⟩ := h.entries k e he
      exact ⟨c, mem_cons_of_mem _ hc, hck⟩

theorem send (hs : s.send marker = some s') : Coherent s' := by
  obtain ⟨r, hr, rfl⟩ := map_eq_some_iff.mp hs
  obtain ⟨hp, -⟩ := pick_spec hr
  refine h.of_perm rfl ?_ (fun m hm => hm) rfl
  have hmv : (r.2 ++ (s.queue ++ [r.1] ++ s.running)).Perm
      (r.1 :: (r.2 ++ (s.queue ++ s.running))) := by
    rw [append_assoc, singleton_append, ← append_assoc, ← append_assoc]
    exact perm_middle
  exact (hp.append_right _).trans hmv.symm

theorem receive (hs : s.receive = some s') : Coherent s' := by
  unfold ProxySystem.receive at hs
  split at hs
  · cases hs
  case h_2 c queue hq =>
    cases hs
    refine h.of_perm rfl ?_ (fun m hm => hm) rfl
    rw [tasks, hq]
    exact List.Perm.append_left _ perm_middle.symm

theorem remove (key : Str) : Coherent (s.remove key).1 := by
  unfold ProxySystem.remove
  cases hk : s.active key with
  | none => exact h
  | some e =>
    have ht : ∀ m, Told s.stopped s.stopping m → Told s.stopped (e.marker :: s.stopping) m :=
      fun m =>
      Or.imp_right (mem_cons_of_mem _)
    exact ⟨h.filed.takeOut hk ht (.inr (mem_cons_self ..)),
      fun k e' he => h.entries k e' (of_update_none he).2⟩

theorem store (hs : s.store marker = some s') : Coherent s' := by
  obtain ⟨hmem, ⟨⟩⟩ := ite_none_right_eq_some.mp hs
  exact h.of_perm rfl (.refl _) (fun m => (told_store hmem m).mpr) rfl

theorem taskEnd {r : ProxySystem × Bool} (hs : s.taskEnd marker = some r) : Coherent r.1 := by
  rw [taskEnd_eq] at hs
  obtain ⟨q, hq, rfl⟩ := map_eq_some_iff.mp hs
  obtain ⟨hp, hm⟩ := pick_spec hq
  -- the tasks are the one that ends and the others
  have ht : s.tasks.Perm (q.1 :: (s.submitting ++ (s.queue ++ q.2))) := by
    refine (List.Perm.append_left _ (List.Perm.append_left _ hp)).trans ?_
    rw [← append_assoc, ← append_assoc]
    exact perm_middle
  have hen : ∀ key e, s.active key = some e → ¬ (q.1.key = key ∧ e.marker = marker) →
      ∃ c ∈ s.submitting ++ (s.queue ++ q.2), c.key = key ∧ c.marker = e.marker := by
    intro key e he hne
    obtain ⟨c, hc, hk, hcm⟩ := h.entries key e he
    rcases mem_cons.mp (ht.mem_iff.mp hc) with rfl | hc
    · exact absurd ⟨hk, hcm.symm.trans hm⟩ hne
    · exact ⟨c, hc, hk, hcm⟩
  cases ho : (s.active q.1.key).any (·.belongsTo marker) with
  | false =>
    -- without its own entry under its key, the table stays as it is
    refine ⟨h.filed.of_subperm ((sublist_cons_self ..).subperm.trans ht.symm.subperm) fun _ => id,
      fun key e he => ?_⟩
    exact hen key e he fun ⟨hk, hem⟩ => Bool.eq_false_iff.mp ho (own_iff.mpr ⟨e, hk ▸ he, hem⟩)
  | true =>
    obtain ⟨e, hky, hem⟩ := own_iff.mp ho
    refine ⟨h.filed.finish ht fun e' he => ?_, fun key e' he => ?_⟩
    · rw [hky] at he
      cases he
      exact hem.trans hm.symm
    · obtain ⟨hk, he⟩ := of_update_none he
      exact hen key e' he fun heq => hk heq.1.symm

end

end Coherent

theorem coherent_new : Coherent .new := by
  refine ⟨⟨nodup_nil, forall_mem_nil _, forall_mem_nil _⟩, fun key e he => ?_⟩
  cases he

theorem coherent_step {s s' : ProxySystem} {a : ProxyAction} (h : Coherent s)
    (hs : s.step a = some s') : Coherent s' := by
  cases a with
  | add url key onDemand =>
    cases hs
    exact h.addInner url key onDemand
  | send marker => exact h.send hs
  | receive => exact h.receive hs
  | remove key =>
    cases hs
    exact h.remove key
  | store marker => exact h.store hs
  | taskEnd marker =>
    obtain ⟨r, hr, rfl⟩ := map_eq_some_iff.mp hs
    exact h.taskEnd hr

theorem taskEnd_own {s : ProxySystem} {r : ProxySystem × Bool} (hs : s.taskEnd marker = some r)
    {key : Str} {e : ProxyEntry} (he : s.active key = some e) (hne : e.marker ≠ marker) :
    r.1.active key = some e := by
  rw [taskEnd_eq] at hs
  obtain ⟨q, -, rfl⟩ := map_eq_some_iff.mp hs
  split
  next ho =>
    obtain ⟨e', hky, hm⟩ := own_iff.mp ho
    refine (update_of_ne (fun hk => hne ?_) ..).trans he
    rw [hk, hky] at he
    cases he
    exact hm
  next => exact he

/-- **The proxy table is coherent at all times**: in every run, each entry has the marker of exactly
one task that is being submitted, queued or running, no two entries and no two tasks share a marker,
a task that is queued or running without an entry has been told to stop or is about to be, and the
end of a task takes out its own entry only. -/
theorem proxies_coherent (schedule : List ProxyAction) (s : ProxySystem)
    (hrun : runSchedule step .new schedule = some s) :
    (∀ key e, s.active key = some e → ∃! c, c ∈ s.tasks ∧ c.marker = e.marker) ∧
    (∀ key key' e e', s.active key = some e → s.active key' = some e' → e.marker = e'.marker →
      key = key') ∧
    (s.tasks.map ProxyCmd.marker).Nodup ∧
    (∀ c ∈ s.queue ++ s.running, s.Listed c ∨ s.stopped c.marker = true ∨ c.marker ∈ s.stopping) ∧
    (∀ marker r, s.taskEnd marker = some r → ∀ key e, s.active key = some e → e.marker ≠ marker →
      r.1.active key = some e) := by
  have h : Coherent s := run_invariant (fun _ _ _ => coherent_step) coherent_new hrun
  refine ⟨fun key e he => ?_, fun _ _ _ _ => h.key_eq, h.filed.distinct, fun c hc => ?_,
    fun _ _ hs _ _ => taskEnd_own hs⟩
  · obtain ⟨c, hc, -, hm⟩ := h.entries key e he
    exact ⟨c, ⟨hc, hm⟩, fun c' hc' => h.eq_of_marker hc'.1 hc (hc'.2.trans hm.symm)⟩
  · exact h.filed.orphans c (mem_append_right _ hc)

/-- A proxy that is stopped and started again: the first task ends when the second is there
already. -/
private def restarted : List ProxyAction :=
  [.add ['u'] ['k'] false, .send 0, .receive, .remove ['k'], .add ['u'] ['k'] true, .store 0,
    .send 1, .taskEnd 0, .receive]

theorem restarted_coherent : ∃ s, runSchedule step .new restarted = some s ∧ ∃ e,
    s.active ['k'] = some e ∧
    ∃! c, c ∈ s.tasks ∧ c.marker = e.marker := by
  obtain ⟨s, hs, hen⟩ : ∃ s, runSchedule step .new restarted = some s ∧
      (s.active ['k']).isSome := by
    decide +kernel
  obtain ⟨e, he⟩ := isSome_iff_exists.mp hen
  exact ⟨s, hs, e, he, (proxies_coherent restarted s hs).1 ['k'] e he⟩

end MediaKit.Core
