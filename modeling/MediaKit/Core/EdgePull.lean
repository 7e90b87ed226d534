import MediaKit.Core.Proxy

/-!
# Edge pulls

`get_or_pull` of `crates/core/src/media_source.rs`: a play request for a stream that is not there
starts pulls from the origins, one after the other, and waits for each until the source has media,
the pull has ended or the time is up. Before the next origin it removes the pull from the table of
proxies.

Two things can go wrong, since the table goes by the name of the stream:
  * the entry that is removed may be another one by then (`giveUp_own_iff`);
  * a pull task whose entry was removed does not close its stream when it ends, so that a source
    that it has registered stays (`no_ghost_streams`).

Mirroring notes vs the Rust source:
- Each look at the sources, at the table and at the cache is a step of its own; the deadline may
  pass at any time.
- `origins` are the URLs behind `render_origin_url`. Without a proxy control `get_or_pull` returns
  as without origins.
- The last three fields of `EdgeSystem` are for the statements only.
-/

namespace MediaKit.Core

open Lib List Option Function ProxySystem

/-- Where a call of `get_or_pull` is. -/
inductive PullPhase where
  | locking
  | rechecking
  | probing
  | waitingOther
  | attempting
  | waiting (marker : Nat)
  /-- A source was found while the call waits, for its own proxy or for another; next is the look at
  its cache. -/
  | checking (marker : Option Nat) (source : Nat)
  | givingUp (marker : Nat)
  | returned (source : Option Nat)
  deriving DecidableEq

structure Pull where
  key : Str
  origins : List Str
  phase : PullPhase
  deriving DecidableEq

/-- A proxy that was added: by a call of `get_or_pull`, or by someone else. -/
structure Added where
  marker : Nat
  key : Str
  owner : Option Nat
  deriving DecidableEq

structure EdgeSystem where
  proxy : ProxySystem
  sources : Str → Option Nat
  /-- The sources with a frame in their cache. -/
  cached : Nat → Bool
  nextSource : Nat
  /-- The calls of `get_or_pull`. -/
  pulls : Nat → Option Pull
  /-- The single-flight locks, by their holder. -/
  lock : Str → Option Nat
  /-- The pull tasks that have called `get_or_create`. -/
  registered : List Nat
  /-- The tasks that have taken their entry out and are about to close their stream. -/
  closing : List ProxyCmd
  added : List Added
  /-- The proxies that were removed from the table or have ended. -/
  gone : Nat → Bool
  /-- The calls that have removed a proxy, with the call that had added it. -/
  removed : List (Nat × Option Nat)

def EdgeSystem.new : EdgeSystem :=
  ⟨.new, fun _ => none, fun _ => false, 0, fun _ => none, fun _ => none, [], [], [],
    fun _ => false, []⟩

/-- What a call of `get_or_pull` does next. -/
inductive PullAction where
  | acquire
  | recheck
  | probe
  /-- A waiting call looks for the source. -/
  | look
  /-- It looks at the cache of the source that it has found. -/
  | check
  /-- The time is up, or the pull has ended. -/
  | expire
  | attempt
  | giveUp

inductive EdgeAction where
  /-- `get_or_pull` is called and looks for the source. -/
  | call (i : Nat) (key : Str) (origins : List Str)
  | pull (i : Nat) (action : PullAction)
  | apiAdd (url key : Str)
  | apiRemove (key : Str)
  | send (marker : Nat)
  | receive
  | store (marker : Nat)
  /-- The pull client of a task calls `get_or_create`. -/
  | register (marker : Nat)
  /-- It publishes a frame. -/
  | media (source : Nat)
  | taskEnd (marker : Nat)
  | close (marker : Nat)

variable (i : Nat)
  (p : Pull)

namespace EdgeSystem

variable (s : EdgeSystem)

def setPhase (phase : PullPhase) : EdgeSystem :=
  { s with pulls := update s.pulls i (some { p with phase := phase }) }

/-- `return`, which also lets the lock go. -/
def finish (result : Option Nat) : EdgeSystem :=
  { s.setPhase i p (.returned result) with lock := update s.lock p.key none }

/-- An `add` at the table. -/
def add (url key : Str) (onDemand : Bool) (owner : Option Nat) : EdgeSystem × Bool :=
  let r := s.proxy.addInner url key onDemand
  if r.2 then ({ s with proxy := r.1, added := ⟨s.proxy.next, key, owner⟩ :: s.added }, true)
    else (s, false)

/-- A `remove` at the table, and the marker of what it took out. -/
def remove (key : Str) : EdgeSystem × Option Nat :=
  match s.proxy.active key with
  | none => (s, none)
  | some e =>
    ({ s with proxy := (s.proxy.remove key).1, gone := update s.gone e.marker true }, some e.marker)

variable (marker : Nat)

/-- The call that has added a proxy; `none` for a proxy that someone else has added. -/
def ownerOf : Option Nat := (s.added.find? fun a => a.marker = marker).bind Added.owner

/-- `get_or_create` of a pull task. -/
def register : Option EdgeSystem :=
  (pick marker s.proxy.running).map fun r =>
    let s := { s with registered := marker :: s.registered }
    match s.sources r.1.key with
    | some _ => s
    | none =>
      { s with
        sources := update s.sources r.1.key (some s.nextSource), nextSource := s.nextSource + 1 }

/-- The end of a pull task at the table. -/
def taskEnd : Option EdgeSystem :=
  match pick marker s.proxy.running, s.proxy.taskEnd marker with
  | some r, some (proxy, true) =>
    some { s with proxy := proxy, closing := r.1 :: s.closing, gone := update s.gone marker true }
  | some _, some (proxy, false) => some { s with proxy := proxy }
  | _, _ => none

/-- `close_stream` at the end of a pull task. -/
def close : Option EdgeSystem :=
  (pick marker s.closing).map fun r =>
    { s with closing := r.2, sources := update s.sources r.1.key none }

/-- A step of the call `i`, as its phase has it. -/
def pullStep : PullAction → Option EdgeSystem
  | .acquire =>
    if p.phase = .locking ∧ s.lock p.key = none then
      some { s.setPhase i p .rechecking with lock := update s.lock p.key (some i) }
    else none
  | .recheck =>
    if p.phase = .rechecking then
      match s.sources p.key with
      | some source => some (s.finish i p (some source))
      | none => some (s.setPhase i p .probing)
    else none
  | .probe =>
    if p.phase = .probing then
      some (s.setPhase i p (if (s.proxy.active p.key).isSome then .waitingOther else .attempting))
    else none
  | .look =>
    match p.phase, s.sources p.key with
    | .waitingOther, some source => some (s.setPhase i p (.checking none source))
    | .waiting marker, some source => some (s.setPhase i p (.checking (some marker) source))
    | _, _ => none
  | .check =>
    match p.phase with
    | .checking marker source =>
      some (if s.cached source then s.finish i p (some source)
        else s.setPhase i p (marker.elim .waitingOther .waiting))
    | _ => none
  | .expire =>
    match p.phase with
    | .waitingOther => some (s.setPhase i p .attempting)
    | .waiting marker => some (s.setPhase i p (.givingUp marker))
    | _ => none
  | .attempt =>
    if p.phase = .attempting then
      match p.origins with
      | [] => some (s.finish i p none)
      | url :: origins =>
        let r := s.add url p.key true (some i)
        some (r.1.setPhase i { p with origins := origins } (if r.2 then .waiting s.proxy.next
          else .attempting))
    else none
  | .giveUp =>
    match p.phase with
    | .givingUp _ =>
      let r := s.remove p.key
      let s := r.1.setPhase i p .attempting
      some (match r.2 with
        | none => s
        | some marker => { s with removed := s.removed ++ [(i, s.ownerOf marker)] })
    | _ => none

def step : EdgeAction → Option EdgeSystem
  | .call i key origins =>
    match s.pulls i with
    | some _ => none
    | none =>
      some (s.setPhase i ⟨key, origins, .locking⟩ (match s.sources key with
        | some source => .returned (some source)
        | none => .locking))
  | .apiAdd url key => some (s.add url key false none).1
  | .apiRemove key => some (s.remove key).1
  | .send marker => (s.proxy.send marker).map fun proxy => { s with proxy := proxy }
  | .receive => s.proxy.receive.map fun proxy => { s with proxy := proxy }
  | .store marker => (s.proxy.store marker).map fun proxy => { s with proxy := proxy }
  | .register marker => s.register marker
  | .media source => some { s with cached := update s.cached source true }
  | .taskEnd marker => s.taskEnd marker
  | .close marker => s.close marker
  | .pull i action => (s.pulls i).bind fun p => s.pullStep i p action

end EdgeSystem

variable {s : EdgeSystem}

open EdgeSystem

theorem EdgeSystem.add_taken {key : Str} {e : ProxyEntry} (url : Str) (onDemand : Bool)
    (owner : Option Nat) (h : s.proxy.active key = some e) :
    s.add url key onDemand owner = (s, false) := by
  simp [add, addInner, h]

theorem EdgeSystem.add_free {key : Str} (url : Str) (onDemand : Bool) (owner : Option Nat)
    (h : s.proxy.active key = none) : s.add url key onDemand owner = ({ s with
          proxy := { s.proxy with
            active := update s.proxy.active key (some ⟨url, s.proxy.next, onDemand⟩)
            submitting := ⟨url, key, s.proxy.next⟩ :: s.proxy.submitting
            next := s.proxy.next + 1 }
          added := ⟨s.proxy.next, key, owner⟩ :: s.added }, true) := by
  simp [add, addInner, h]

/-- The end of a pull task, by whether the entry under its key is its own. -/
theorem EdgeSystem.taskEnd_eq (s : EdgeSystem) (marker : Nat) : s.taskEnd marker =
    (pick marker s.proxy.running).map fun r =>
      if (s.proxy.active r.1.key).any (·.belongsTo marker) then { s with
        proxy := { s.proxy with running := r.2, active := update s.proxy.active r.1.key none }
        closing := r.1 :: s.closing
        gone := update s.gone marker true }
      else { s with proxy := { s.proxy with running := r.2 } } := by
  rw [taskEnd, ProxySystem.taskEnd_eq]
  cases pick marker s.proxy.running with
  | none => rfl
  | some r => cases ho : (s.proxy.active r.1.key).any (·.belongsTo marker) <;> simp [ho]

/-! ## The table and what was added -/

/-- The proxy that a call has started and waits for. -/
def PullPhase.marker : PullPhase → Option Nat
  | .waiting m | .givingUp m => some m
  | .checking m _ => m
  | _ => none

/-- The entries of the table are the proxies that were added and are not gone, and no entry is older
than the proxy that a call of `get_or_pull` has started for its key. -/
structure Ledger (s : EdgeSystem) : Prop where
  listed : ∀ key e, s.proxy.active key = some e → ∃ a ∈ s.added, a.marker = e.marker ∧ a.key = key ∧
    s.gone a.marker = false
  present : ∀ a ∈ s.added, s.gone a.marker = false → ∃ e, s.proxy.active a.key = some e ∧
    e.marker = a.marker
  unique : (s.added.map Added.marker).Nodup
  fresh : ∀ a ∈ s.added, a.marker < s.proxy.next
  past : ∀ m, s.gone m = true → m < s.proxy.next
  own : ∀ i p m, s.pulls i = some p → p.phase.marker = some m →
    (∃ a ∈ s.added, a.marker = m ∧ a.key = p.key ∧ a.owner = some i) ∧
      ∀ e, s.proxy.active p.key = some e → m ≤ e.marker

namespace Ledger

variable {s s' : EdgeSystem}

section

variable (h : Ledger s)
include h

theorem eq_of_marker {a b : Added} (ha : a ∈ s.added) (hb : b ∈ s.added)
    (heq : a.marker = b.marker) :
    a = b := inj_on_of_nodup_map h.unique ha hb heq

theorem key_eq {key key' : Str} {e e' : ProxyEntry} (he : s.proxy.active key = some e)
    (he' : s.proxy.active key' = some e') (heq : e.marker = e'.marker) : key = key' := by
  obtain ⟨a, ha, hm, rfl, -⟩ := h.listed key e he
  obtain ⟨b, hb, hm', rfl, -⟩ := h.listed key' e' he'
  rw [h.eq_of_marker ha hb (hm.trans (heq.trans hm'.symm))]

/-- An entry is taken out. -/
theorem takeOut {key : Str} {e : ProxyEntry} (hky : s.proxy.active key = some e) {p : ProxySystem}
    (hac : p.active = update s.proxy.active key none) (hnx : p.next = s.proxy.next) :
    Ledger { s with proxy := p, gone := update s.gone e.marker true } where
  listed k e' he := by
    rw [hac] at he
    obtain ⟨hk, he⟩ := of_update_none he
    obtain ⟨a, ha, hm, hak, hg⟩ := h.listed k e' he
    have hne : a.marker ≠ e.marker := fun heq => hk (h.key_eq he hky (hm.symm.trans heq))
    exact ⟨a, ha, hm, hak, (update_of_ne hne ..).trans hg⟩
  present a ha hg := by
    have hne : a.marker ≠ e.marker := fun heq => by
      dsimp only at hg
      rw [heq, update_self] at hg
      cases hg
    obtain ⟨e', he', hm⟩ := h.present a ha ((update_of_ne hne ..).symm.trans hg)
    have hk : a.key ≠ key := fun heq => by
      rw [heq, hky] at he'
      cases he'
      exact hne hm.symm
    exact ⟨e', by rw [hac, update_of_ne hk, he'], hm⟩
  unique := h.unique
  fresh a ha := hnx ▸ h.fresh a ha
  past m hg := by
    rw [hnx]
    by_cases hm : m = e.marker
    · obtain ⟨a, ha, heq, -⟩ := h.listed key e hky
      exact hm ▸ heq ▸ h.fresh a ha
    · exact h.past m ((update_of_ne hm ..).symm.trans hg)
  own i p m hp hm := by
    obtain ⟨ho, hb⟩ := h.own i p m hp hm
    refine ⟨ho, fun e' he' => ?_⟩
    rw [hac] at he'
    exact hb e' (of_update_none he').2

theorem remove (key : Str) : Ledger (s.remove key).1 := by
  unfold EdgeSystem.remove
  cases hk : s.proxy.active key with
  | none => exact h
  | some e =>
    apply h.takeOut hk
    · simp only [ProxySystem.remove, hk]
    · simp only [ProxySystem.remove, hk]

theorem add (url key : Str) (onDemand : Bool) (owner : Option Nat) :
    Ledger (s.add url key onDemand owner).1 := by
  cases hky : s.proxy.active key with
  | some e => rwa [add_taken url onDemand owner hky]
  | none =>
    rw [add_free url onDemand owner hky]
    have hgn : s.gone s.proxy.next = false := by
      by_contra hg
      exact lt_irrefl _ (h.past _ (Bool.eq_true_of_not_eq_false hg))
    refine ⟨fun k e he => ?_, fun a ha hg => ?_, ?_, fun a ha => ?_, fun m hg => ?_,
      fun i p m hp hm => ?_⟩
    · rcases of_update he with ⟨rfl, ⟨⟩⟩ | ⟨-, he⟩
      · exact ⟨_, mem_cons_self .., rfl, rfl, hgn⟩
      · obtain ⟨a, ha, hr⟩ := h.listed k e he
        exact ⟨a, mem_cons_of_mem _ ha, hr⟩
    · rcases mem_cons.mp ha with rfl | ha
      · exact ⟨_, update_self .., rfl⟩
      · obtain ⟨e, he, hm⟩ := h.present a ha hg
        have hk : a.key ≠ key := fun heq => by
          rw [heq, hky] at he
          cases he
        exact ⟨e, (update_of_ne hk ..).trans he, hm⟩
    · refine nodup_cons.mpr ⟨fun hmem => ?_, h.unique⟩
      obtain ⟨a, ha, hm⟩ := mem_map.mp hmem
      exact Nat.ne_of_lt (h.fresh a ha) hm
    · rcases mem_cons.mp ha with rfl | ha
      · exact Nat.lt_succ_self _
      · exact Nat.lt_succ_of_lt (h.fresh a ha)
    · exact Nat.lt_succ_of_lt (h.past m hg)
    · obtain ⟨⟨a, ha, ham, hr⟩, hb⟩ := h.own i p m hp hm
      refine ⟨⟨a, mem_cons_of_mem _ ha, ham, hr⟩, fun e he => ?_⟩
      rcases of_update he with ⟨-, ⟨⟩⟩ | ⟨-, he⟩
      · exact ham ▸ le_of_lt (h.fresh a ha)
      · exact hb e he

/-- A call of `get_or_pull` goes on, and waits for a proxy of its own or for none. -/
theorem setPhase {i : Nat} {p : Pull} {phase : PullPhase}
    (hp : ∀ m, phase.marker = some m →
      (∃ a ∈ s.added, a.marker = m ∧ a.key = p.key ∧ a.owner = some i) ∧
      ∀ e, s.proxy.active p.key = some e → m ≤ e.marker) : Ledger (s.setPhase i p phase) where
  listed := h.listed
  present := h.present
  unique := h.unique
  fresh := h.fresh
  past := h.past
  own j q m hq hm := by
    rcases of_update hq with ⟨rfl, ⟨⟩⟩ | ⟨-, hq⟩
    · exact hp m hm
    · exact h.own j q m hq hm

theorem setPhase_idle (phase : PullPhase) (hp : phase.marker = none) :
    Ledger (s.setPhase i p phase) :=
  h.setPhase fun m hm => by rw [hp] at hm; cases hm

theorem finish (result : Option Nat) : Ledger (s.finish i p result) :=
  { h.setPhase_idle i p (.returned result) rfl with }

theorem attempt (url : Str) (origins : List Str) :
    Ledger ((s.add url p.key true (some i)).1.setPhase i { p with origins := origins }
      (if (s.add url p.key true (some i)).2 then .waiting s.proxy.next else .attempting)) := by
  cases hk : s.proxy.active p.key with
  | some e =>
    rw [add_taken url true (some i) hk]
    exact h.setPhase_idle i _ _ rfl
  | none =>
    have had := h.add url p.key true (some i)
    rw [add_free url true (some i) hk] at had ⊢
    refine had.setPhase fun m hm => ?_
    cases hm
    refine ⟨⟨_, mem_cons_self .., rfl, rfl, rfl⟩, fun e he => ?_⟩
    simp only [update_self, some.injEq] at he
    rw [← he]

theorem ownerOf_eq {a : Added} (ha : a ∈ s.added) : s.ownerOf a.marker = a.owner := by
  unfold ownerOf
  cases hf : s.added.find? fun b => b.marker = a.marker with
  | none => exact absurd (find?_eq_none.mp hf a ha) (by simp)
  | some b =>
    have hm := find?_some hf
    have hb := h.eq_of_marker (mem_of_find?_eq_some hf) ha (of_decide_eq_true hm)
    rw [hb, bind_some]

end

end Ledger

theorem ledger_new : Ledger .new := by
  refine ⟨fun key e he => ?_, forall_mem_nil _, nodup_nil, forall_mem_nil _, fun m hm => ?_,
    fun i p m hp => ?_⟩
  · cases he
  · cases hm
  · cases hp

/-! ## What goes wrong, and when -/

/-- Every proxy that a call of `get_or_pull` has removed was added by that call. -/
def OwnRemovals (s : EdgeSystem) : Prop := ∀ r ∈ s.removed, r.2 = some r.1

/-- When a call gives up, every proxy that someone else has added for the stream since the call
added its own has been removed or has ended. -/
def Undisturbed (s : EdgeSystem) : EdgeAction → Prop
  | .pull i .giveUp => ∀ p m, s.pulls i = some p → p.phase = .givingUp m → ∀ a ∈ s.added,
      a.key = p.key → m < a.marker →
      a.owner ≠ some i → s.gone a.marker = true
  | _ => True

/-- A registered source has a pull task that will look after it: one that runs, or one that is about
to close the stream. -/
def NoGhost (s : EdgeSystem) : Prop :=
  ∀ key, s.sources key ≠ none →
    (∃ c ∈ s.proxy.running, c.key = key ∧ c.marker ∈ s.registered) ∨ ∃ c ∈ s.closing, c.key = key

/-- A pull task that ends finds its own entry in the table if it has called `get_or_create`. -/
def EndsListed (s : EdgeSystem) : EdgeAction → Prop
  | .taskEnd marker => marker ∈ s.registered →
      ∀ r ∈ pick marker s.proxy.running, ∃ e ∈ s.proxy.active r.1.key, e.marker = marker
  | _ => True

instance (s : EdgeSystem) : (a : EdgeAction) → Decidable (EndsListed s a)
  | .taskEnd marker => inferInstanceAs (Decidable (_ → ∀ r ∈ pick marker _, ∃ e ∈ _, _))
  | .call .. | .pull .. | .apiAdd .. | .apiRemove _ | .send _ | .receive | .store _ | .register
    _ | .media _
  | .close _ => .isTrue trivial

/-- The proxy that a call finds in the table when it gives up is its own exactly if nobody else has
one there. -/
theorem Ledger.own_iff_undisturbed (h : Ledger s) {i m : Nat} {p : Pull} {e : ProxyEntry}
    (hp : s.pulls i = some p) (hph : p.phase = .givingUp m) (he : s.proxy.active p.key = some e) :
    s.ownerOf e.marker = some i ↔ Undisturbed s (.pull i .giveUp) := by
  obtain ⟨a, ha, hm, hk, hg⟩ := h.listed p.key e he
  obtain ⟨⟨b, hb, hbm, hbk, hon⟩, hbn⟩ := h.own i p m hp (by rw [hph]; rfl)
  rw [← hm, h.ownerOf_eq ha]
  constructor
  · intro hown p' m' hp' _ c hc hck _ hne
    rw [hp] at hp'
    cases hp'
    by_contra hcg
    -- another proxy that is not gone would be the entry itself
    obtain ⟨e', he', hem⟩ := h.present c hc (Bool.eq_false_of_not_eq_true hcg)
    rw [hck, he] at he'
    cases he'
    rw [h.eq_of_marker hc ha (hem.symm.trans hm.symm)] at hne
    exact hne hown
  · intro hq
    rcases Nat.lt_or_eq_of_le (hbn e he) with hlt | heq
    · by_contra hne
      have := hq p m hp hph a ha hk (hm ▸ hlt) hne
      rw [hg] at this
      cases this
    · rw [h.eq_of_marker ha hb (hm.trans (heq.symm.trans hbm.symm)), hon]

variable {s' : EdgeSystem}

namespace NoGhost

theorem register (h : NoGhost s) {marker : Nat} (hs : s.register marker = some s') :
    NoGhost s' := by
  obtain ⟨r, hpc, rfl⟩ := map_eq_some_iff.mp hs
  obtain ⟨hpr, hm⟩ := pick_spec hpc
  have ho : ∀ sources : Str → Option Nat, (∀ key, key ≠ r.1.key → sources key = s.sources key) →
      NoGhost { s with registered := marker :: s.registered, sources := sources } := by
    intro sources hsr key hky
    by_cases hk : key = r.1.key
    · exact .inl ⟨r.1, hpr.mem_iff.mpr mem_cons_self, hk.symm, hm ▸ mem_cons_self⟩
    · dsimp only at hky
      rw [hsr key hk] at hky
      rcases h key hky with ⟨c, hc, hck, hcm⟩ | hcl
      · exact .inl ⟨c, hc, hck, mem_cons_of_mem _ hcm⟩
      · exact .inr hcl
  dsimp only
  split
  · exact ho s.sources fun _ _ => rfl
  · exact ho _ fun key hne => update_of_ne hne ..

theorem taskEnd (h : NoGhost s) {marker : Nat} (hl : EndsListed s (.taskEnd marker))
    (hs : s.taskEnd marker = some s') : NoGhost s' := by
  rw [EdgeSystem.taskEnd_eq] at hs
  obtain ⟨r, hpc, rfl⟩ := map_eq_some_iff.mp hs
  obtain ⟨hpr, hm⟩ := pick_spec hpc
  split
  all_goals
    intro key hk
    rcases h key hk with ⟨c, hc, hck, hcm⟩ | ⟨c, hc, hck⟩
  · rcases mem_cons.mp (hpr.mem_iff.mp hc) with rfl | hc
    · exact .inr ⟨_, mem_cons_self, hck⟩
    · exact .inl ⟨c, hc, hck, hcm⟩
  · exact .inr ⟨c, mem_cons_of_mem _ hc, hck⟩
  next hf =>
    rcases mem_cons.mp (hpr.mem_iff.mp hc) with rfl | hc
    · -- the task has registered its source, so the entry is its own
      exact absurd (own_iff.mpr (hl (hm ▸ hcm) r hpc)) hf
    · exact .inl ⟨c, hc, hck, hcm⟩
  · exact .inr ⟨c, hc, hck⟩

theorem close (h : NoGhost s) {marker : Nat} (hs : s.close marker = some s') : NoGhost s' := by
  obtain ⟨r, hpc, rfl⟩ := map_eq_some_iff.mp hs
  obtain ⟨hpr, -⟩ := pick_spec hpc
  intro key hky
  have hk : key ≠ r.1.key := fun heq => hky (by rw [heq]; exact update_self ..)
  rcases h key (fun hn => hky ((update_of_ne hk ..).trans hn)) with hrun | ⟨c, hc, hck⟩
  · exact .inl hrun
  · rcases mem_cons.mp (hpr.mem_iff.mp hc) with rfl | hc
    · exact absurd hck.symm hk
    · exact .inr ⟨c, hc, hck⟩

end NoGhost

/-- What is said of a step. -/
structure Keeps (s s' : EdgeSystem) (a : EdgeAction) : Prop where
  ledger : Ledger s'
  own : OwnRemovals s' ↔ OwnRemovals s ∧ Undisturbed s a
  noGhost : EndsListed s a → NoGhost s → NoGhost s'

/-- Most steps take nothing out and leave the sources and their tasks alone. -/
theorem Keeps.quiet {a : EdgeAction} (h : Ledger s') (ha : Undisturbed s a)
    (hr : s'.removed = s.removed) (hg : NoGhost s → NoGhost s') : Keeps s s' a := by
  refine ⟨h, ?_, fun _ => hg⟩
  rw [OwnRemovals, hr]
  exact (and_iff_left ha).symm

/-- At the table, only a call that gives up is of interest. -/
theorem add_keeps (h : Ledger s) (url key : Str) (onDemand : Bool) (owner : Option Nat) :
    Keeps s (s.add url key onDemand owner).1 (.apiAdd url key) := by
  have had := h.add url key onDemand owner
  cases hk : s.proxy.active key with
  | some e =>
    rw [add_taken url onDemand owner hk]
    exact .quiet h trivial rfl id
  | none =>
    rw [add_free url onDemand owner hk] at had ⊢
    exact .quiet had trivial rfl id

theorem remove_keeps (h : Ledger s) (key : Str) : Keeps s (s.remove key).1 (.apiRemove key) := by
  have hr := h.remove key
  unfold EdgeSystem.remove ProxySystem.remove at hr ⊢
  cases hk : s.proxy.active key <;> rw [hk] at hr <;> exact .quiet hr trivial rfl id

/-- A step of a call, by what the call does. -/
theorem Ledger.keeps_pull (h : Ledger s) {i : Nat} {p : Pull} {action : PullAction}
    (hp : s.pulls i = some p)
    (hs : s.pullStep i p action = some s') : Keeps s s' (.pull i action) := by
  cases action <;> simp only [pullStep] at hs
  case acquire =>
    obtain ⟨-, ⟨⟩⟩ := ite_none_right_eq_some.mp hs
    exact .quiet { h.setPhase_idle i p .rechecking rfl with } trivial rfl id
  case recheck =>
    obtain ⟨-, hs⟩ := ite_none_right_eq_some.mp hs
    split at hs
    all_goals cases hs
    · exact .quiet (h.finish i p _) trivial rfl id
    · exact .quiet (h.setPhase_idle i p _ rfl) trivial rfl id
  case probe =>
    obtain ⟨-, ⟨⟩⟩ := ite_none_right_eq_some.mp hs
    exact .quiet (h.setPhase_idle i p _ (by split <;> rfl)) trivial rfl id
  case look =>
    split at hs
    case h_3 => cases hs
    all_goals cases hs
    case h_1 => exact .quiet (h.setPhase_idle i p _ rfl) trivial rfl id
    case h_2 marker source hph _ =>
      exact .quiet (h.setPhase fun m hm => h.own i p m hp (by rw [hph]; exact hm)) trivial rfl id
  case check =>
    split at hs
    case h_2 => cases hs
    case h_1 marker source hph =>
      cases hs
      split
      · exact .quiet (h.finish i p _) trivial rfl id
      · -- the call waits for what it has waited for before
        refine .quiet (h.setPhase fun m hm => h.own i p m hp ?_) trivial rfl id
        rw [hph]
        cases marker <;> exact hm
  case expire =>
    split at hs
    case h_3 => cases hs
    all_goals
      cases hs
      refine .quiet ?_ trivial rfl id
    case h_1 => exact h.setPhase_idle i p _ rfl
    case h_2 marker hph => exact h.setPhase fun m hm => h.own i p m hp (by rw [hph]; exact hm)
  case attempt =>
    obtain ⟨-, hs⟩ := ite_none_right_eq_some.mp hs
    split at hs
    · cases hs
      exact .quiet (h.finish i p none) trivial rfl id
    case h_2 url origins _ =>
      cases hs
      have had := add_keeps h url p.key true (some i)
      exact ⟨h.attempt i p url origins, had.own, had.noGhost⟩
  case giveUp =>
    split at hs
    case h_2 => cases hs
    case h_1 m hph =>
      cases hs
      have hld := (h.remove p.key).setPhase_idle i p .attempting rfl
      unfold EdgeSystem.remove at hld ⊢
      cases hk : s.proxy.active p.key with
      | some e =>
        rw [hk] at hld
        refine ⟨{ hld with }, ?_, fun _ hg => ?_⟩
        · rw [← h.own_iff_undisturbed hp hph hk]
          exact forall_mem_append.trans (and_congr_right fun _ => forall_mem_singleton)
        · simp only [ProxySystem.remove, hk]
          exact hg
      | none =>
        rw [hk] at hld
        -- there is no entry, so whatever was added is gone
        refine ⟨hld, (and_iff_left fun q m' hq hm' a ha hak _ _ => ?_).symm, fun _ hg => hg⟩
        rw [hp] at hq
        cases hq
        by_contra hgn
        obtain ⟨e, he, -⟩ := h.present a ha (Bool.eq_false_of_not_eq_true hgn)
        rw [hak, hk] at he
        cases he

theorem Ledger.keeps {a : EdgeAction} (h : Ledger s) (hs : s.step a = some s') : Keeps s s' a := by
  cases a with
  | call i key origins =>
    simp only [EdgeSystem.step] at hs
    split at hs
    · cases hs
    · cases hs
      exact .quiet (h.setPhase_idle i _ _ (by split <;> rfl)) trivial rfl id
  | apiAdd url key =>
    cases hs
    exact add_keeps h url key false none
  | apiRemove key =>
    cases hs
    exact remove_keeps h key
  | send marker =>
    obtain ⟨q, hq, rfl⟩ := map_eq_some_iff.mp hs
    obtain ⟨r, -, rfl⟩ := map_eq_some_iff.mp hq
    exact .quiet { h with } trivial rfl id
  | receive =>
    obtain ⟨q, hq, rfl⟩ := map_eq_some_iff.mp hs
    unfold receive at hq
    split at hq
    · cases hq
    · cases hq
      refine .quiet { h with } trivial rfl fun hg key hk => ?_
      exact (hg key hk).imp_left fun ⟨c, hc, hck⟩ => ⟨c, mem_cons_of_mem _ hc, hck⟩
  | store marker =>
    obtain ⟨q, hq, rfl⟩ := map_eq_some_iff.mp hs
    obtain ⟨-, ⟨⟩⟩ := ite_none_right_eq_some.mp hq
    exact .quiet { h with } trivial rfl id
  | register marker =>
    refine ⟨?_, ?_, fun _ hg => hg.register hs⟩
    all_goals
      obtain ⟨r, -, rfl⟩ := map_eq_some_iff.mp hs
      dsimp only
      split
    · exact { h with }
    · exact { h with }
    · exact (and_iff_left trivial).symm
    · exact (and_iff_left trivial).symm
  | media source =>
    cases hs
    exact .quiet { h with } trivial rfl id
  | taskEnd marker =>
    refine ⟨?_, ?_, fun hls hg => hg.taskEnd hls hs⟩
    all_goals
      rw [EdgeSystem.step, EdgeSystem.taskEnd_eq] at hs
      obtain ⟨r, hpc, rfl⟩ := map_eq_some_iff.mp hs
      split
    next ho =>
      obtain ⟨e, he, rfl⟩ := own_iff.mp ho
      exact { h.takeOut he (p := { s.proxy with
        running := r.2, active := update s.proxy.active r.1.key none }) rfl rfl with }
    · exact { h with }
    · exact (and_iff_left trivial).symm
    · exact (and_iff_left trivial).symm
  | close marker =>
    refine ⟨?_, ?_, fun _ hg => hg.close hs⟩
    all_goals obtain ⟨r, -, rfl⟩ := map_eq_some_iff.mp hs
    · exact { h with }
    · exact (and_iff_left trivial).symm
  | pull i action =>
    obtain ⟨p, hp, hs⟩ := bind_eq_some_iff.mp hs
    exact h.keeps_pull hp hs

/-- **The ledger is kept**, however calls, requests and pull tasks interleave. -/
theorem ledger_run (as : List EdgeAction) (s : EdgeSystem)
    (hrun : runSchedule EdgeSystem.step .new as = some s) : Ledger s :=
  run_invariant (fun _ _ _ h hs => (h.keeps hs).ledger) ledger_new hrun

/-- A call of `get_or_pull` up to where its pull task runs. -/
def pulling : List EdgeAction :=
  [.call 0 ['k'] [['u']], .pull 0 .acquire, .pull 0 .recheck, .pull 0 .probe, .pull 0 .attempt,
    .send 0, .receive]

/-- A call that waits for the pull it has started, whose entry is in the table. -/
theorem ledger_waiting :
    let as := pulling
    ∃ s, runSchedule EdgeSystem.step .new as = some s ∧
      s.proxy.active ['k'] = some ⟨['u'], 0, true⟩ ∧
      s.pulls 0 = some ⟨['k'], [], .waiting 0⟩ ∧ Ledger s := by
  intro as
  obtain ⟨s, hrun, ha, hp⟩ : ∃ s, runSchedule EdgeSystem.step .new as = some s ∧
      s.proxy.active ['k'] = some ⟨['u'], 0, true⟩ ∧ s.pulls 0 = some ⟨['k'], [], .waiting 0⟩ := by
    decide +kernel
  exact ⟨s, hrun, ha, hp, ledger_run as s hrun⟩

/-- The proxies that calls of `get_or_pull` remove are their own exactly in the runs in which no
call gives up while someone else's newer proxy has the key. -/
theorem giveUp_own_iff (as : List EdgeAction) (s : EdgeSystem)
    (hrun : runSchedule EdgeSystem.step .new as = some s) :
    OwnRemovals s ↔ Along EdgeSystem.step Undisturbed .new as := by
  have hrn := run_iff_along (I := Ledger) (P := OwnRemovals) (fun _ _ _ h hs => (h.keeps hs).ledger)
    (fun _ _ _ h hs => (h.keeps hs).own) ledger_new hrun
  rw [hrn]
  exact and_iff_right (forall_mem_nil _)

/-- A call whose pull delivers nothing: its own proxy is removed, and so nothing came in between. -/
theorem timeout_own :
    let as := pulling ++ [.pull 0 .expire, .pull 0 .giveUp]
    ∃ s, runSchedule EdgeSystem.step .new as = some s ∧ s.removed = [(0, some 0)] ∧
      Along EdgeSystem.step Undisturbed .new as := by
  intro as
  obtain ⟨s, hrun, hrm⟩ : ∃ s, runSchedule EdgeSystem.step .new as = some s ∧
      s.removed = [(0, some 0)] := by
    decide +kernel
  refine ⟨s, hrun, hrm, (giveUp_own_iff as s hrun).mp fun r hr => ?_⟩
  rw [hrm, mem_singleton] at hr
  rw [hr]

/-- The pull ends, the API adds a proxy for the stream, and the call, whose wait is over, removes
that one. -/
theorem persistent_removed :
    let as := pulling ++ [.taskEnd 0, .close 0, .apiAdd ['v']
      ['k'], .pull 0 .expire, .pull 0 .giveUp]
    ∃ s, runSchedule EdgeSystem.step .new as = some s ∧ s.removed = [(0, none)] ∧
      s.proxy.active ['k'] = none ∧
      ¬OwnRemovals s := by
  intro as
  obtain ⟨s, hrun, hrm, hac⟩ : ∃ s, runSchedule EdgeSystem.step .new as = some s ∧
    s.removed = [(0, none)] ∧
      s.proxy.active ['k'] = none := by decide +kernel
  refine ⟨s, hrun, hrm, hac, fun ho => ?_⟩
  have := ho (0, none) (by rw [hrm]; exact mem_singleton_self _)
  cases this

/-! ## What a pull leaves behind -/

/-- Behind every run in which each pull task that has registered its source still has its entry when
it ends: once the pull tasks for a stream have ended there is no source for it, and a call of
`get_or_pull` goes on to the origins. -/
theorem no_ghost_streams (as : List EdgeAction) (s : EdgeSystem)
    (hrun : runSchedule EdgeSystem.step .new as = some s)
    (hlisted : Along EdgeSystem.step EndsListed .new as) (key : Str)
    (hended : ∀ c ∈ s.proxy.running ++ s.closing, c.key ≠ key) :
    s.sources key = none ∧
    (∀ i origins, s.pulls i = none → s.step (.call i key origins) =
      some (s.setPhase i ⟨key, origins, .locking⟩ .locking)) ∧
    ∀ i p, s.pulls i = some p → p.key = key → p.phase = .rechecking →
      s.step (.pull i .recheck) = some (s.setPhase i p .probing) := by
  have hin : Ledger s ∧ NoGhost s := run_invariant_of (I := fun s => Ledger s ∧ NoGhost s)
    (fun _ _ _ h hok hs => ⟨(h.1.keeps hs).ledger, (h.1.keeps hs).noGhost hok h.2⟩)
    ⟨ledger_new, fun _ h => absurd rfl h⟩ hlisted hrun
  have hn : s.sources key = none := by
    by_contra hsm
    rcases hin.2 key hsm with ⟨c, hc, hck, -⟩ | ⟨c, hc, hck⟩
    · exact hended c (mem_append_left _ hc) hck
    · exact hended c (mem_append_right _ hc) hck
  refine ⟨hn, fun i origins hi => ?_, fun i p hi hk hp => ?_⟩
  · simp only [EdgeSystem.step, hi, hn]
  · simp only [EdgeSystem.step, hi, bind_some, EdgeSystem.pullStep, hp, if_true, hk, hn]

/-- A pull that ends before the time is up closes its stream. -/
theorem early_end_clean :
    let as := pulling ++
      [.register 0, .taskEnd 0, .close 0, .pull 0 .expire, .pull 0 .giveUp, .pull 0 .attempt]
    ∃ s, runSchedule EdgeSystem.step .new as = some s ∧
      s.pulls 0 = some ⟨['k'], [], .returned none⟩ ∧
      s.registered = [0] ∧ s.sources ['k'] = none := by
  intro as
  obtain ⟨s, hrun, hrt, hrg, he⟩ : ∃ s, runSchedule EdgeSystem.step .new as = some s ∧
      s.pulls 0 = some ⟨['k'], [], .returned none⟩ ∧ s.registered = [0] ∧ s.proxy.running ++
      s.closing = [] := by
    decide +kernel
  refine ⟨s, hrun, hrt, hrg, (no_ghost_streams as s hrun (by decide +kernel) ['k'] ?_).1⟩
  rw [he]
  exact forall_mem_nil _

/-- A pull that connects and delivers nothing: the call removes the entry and returns without a
source, the task ends and closes nothing, and the next call returns the source that is left, which
has no media. -/
theorem ghost_left :
    let as := pulling ++
      [.register 0, .pull 0 .expire, .pull 0 .giveUp, .pull 0 .attempt, .store 0, .taskEnd 0,
      .call 1 ['k'] [['u']]]
    ∃ s, runSchedule EdgeSystem.step .new as = some s ∧
      s.pulls 0 = some ⟨['k'], [], .returned none⟩ ∧
      s.proxy.tasks ++ s.closing = [] ∧ s.sources ['k'] = some 0 ∧ s.cached 0 = false ∧
      s.pulls 1 = some ⟨['k'], [['u']], .returned (some 0)⟩ := by
  decide +kernel

end MediaKit.Core
