import MediaKit.Lib.Schedule
import MediaKit.Lib.TaskTable
import MediaKit.Lib.Text

/-!
# RTP senders

`RtpSenderManager` of `crates/core/src/rtp.rs`: a sender is an entry in the table of active senders
and a task that sends a stream to an RTP destination. `start` looks for an entry, sets up the socket
and then inserts; a task that ends looks whether the entry is its own and then removes what is
there; `stop` collects keys and then removes what it finds under them.

Main result: `senders_coherent_iff`. At all times of a run each sender is in the table with its own
token, and there is at most one for a key, exactly if nothing comes between a look at the table and
the change that rests on it: no `start` inserts over another sender and no task removes another
sender's entry.

Mirroring notes vs the Rust source:
- A step is one operation on the table or on a flag. Behind the insertion `start` awaits nothing
  before it spawns the task, so the task is there from the insertion on.
- The `Arc<RtpSenderEntry>` is shared by the table and the task; its `stopped` is looked up by the
  token, a number that is used once (`Uuid::new_v4`).
- Whether the muxer, the source and the socket are there, and when a task leaves its loop, are
  answers from outside. `stop` visits the entries of the table one by one, and other steps may come
  in between.
- `payload_type` and `only_audio` of a request, and the counters of an entry, are left out: no
  operation on the table reads them. -/

namespace MediaKit.Core

open Lib List Option Function

inductive RtpDataType where
  | es
  | ps
  | ts
  deriving DecidableEq

structure RtpSendRequest where
  vhost : Str
  app : Str
  stream : Str
  ssrc : Nat
  dstHost : Str
  dstPort : Nat
  srcPort : Nat
  isUdp : Bool
  dataType : RtpDataType
  passive : Bool
  ssrcMultiSend : Bool
  deriving DecidableEq

def RtpSendRequest.key (r : RtpSendRequest) : Str :=
  let base := r.vhost ++ '/' :: (r.app ++ '/' :: (r.stream ++ '/' :: Nat.toDigits 10 r.ssrc))
  if r.ssrcMultiSend then
    base ++ '/' :: (r.dstHost ++ ':' ::
      (Nat.toDigits 10 r.dstPort ++ ':' :: (Nat.toDigits 10 r.srcPort ++ ':' ::
      (toString r.passive).toList)))
  else base

structure RtpSenderEntry where
  token : Nat
  request : RtpSendRequest
  deriving DecidableEq

/-- The key of the table under which `start` inserts the entry. -/
def RtpSenderEntry.key (e : RtpSenderEntry) : Str := e.request.key

/-- Where the task of a sender is. -/
inductive SenderPhase where
  | sending
  /-- Behind the loop. -/
  | leaving
  /-- Behind the look at the table, which had the task's own token. -/
  | matched
  deriving DecidableEq

structure RtpSenders where
  active : Str → Option RtpSenderEntry
  /-- The `start` calls between the look at the table and the insertion. -/
  starting : List RtpSendRequest
  /-- The tasks, by their entries. -/
  running : List RtpSenderEntry
  phase : Nat → SenderPhase
  /-- The keys that `stop` calls have collected. -/
  collected : List Str
  /-- The tokens of `stop` calls between the table and the flag. -/
  stopping : List Nat
  stopped : Nat → Bool
  /-- The next unused token. -/
  next : Nat

inductive RtpSenderAction where
  | start (hasMuxer hasSource : Bool) (r : RtpSendRequest)
  /-- The name, the socket or the connection of a `start` fails. -/
  | abandon (r : RtpSendRequest)
  | insert (r : RtpSendRequest)
  | leave (e : RtpSenderEntry)
  | compare (e : RtpSenderEntry)
  | remove (e : RtpSenderEntry)
  | collect (vhost app stream : Str) (ssrc : Option Nat) (key : Str)
  | stop (key : Str)
  | store (token : Nat)

namespace RtpSenders

def new : RtpSenders := ⟨fun _ => none, [], [], fun _ => .sending, [], [], fun _ => false, 0⟩

variable (s : RtpSenders)

/-- `start` up to its look at the table. -/
def startCheck (hasMuxer hasSource : Bool) (r : RtpSendRequest) : Except String Unit :=
  if r.dataType = .ts ∧ hasMuxer = false then .error "TS-over-RTP muxer is not configured"
  else if r.passive = false ∧ r.dstPort = 0 then .error "dst_port must be greater than zero"
  else if r.passive = true ∧ r.isUdp = true then
    .error "passive UDP RTP sending is not implemented; use TCP passive mode"
  else if hasSource = false then .error "media source not found"
  else if (s.active r.key).isSome then .error "RTP sender already exists for this stream and SSRC"
  else .ok ()

def start (hasMuxer hasSource : Bool) (r : RtpSendRequest) : RtpSenders :=
  match s.startCheck hasMuxer hasSource r with
  | .error _ => s
  | .ok () => { s with starting := r :: s.starting }

def abandon (r : RtpSendRequest) : Option RtpSenders :=
  if r ∈ s.starting then some { s with starting := s.starting.erase r } else none

/-- `start` from its insertion on: `active.insert` replaces what is there. -/
def insert (r : RtpSendRequest) : Option RtpSenders :=
  if r ∈ s.starting then
    some { s with
      active := update s.active r.key (some ⟨s.next, r⟩)
      starting := s.starting.erase r
      running := ⟨s.next, r⟩ :: s.running
      phase := update s.phase s.next .sending
      next := s.next + 1 }
  else none

/-- The task leaves its loop: it was stopped, the source is closed, or a packet could not be
sent. -/
def leave (e : RtpSenderEntry) : Option RtpSenders :=
  if e ∈ s.running ∧ s.phase e.token = .sending then
    some { s with phase := update s.phase e.token .leaving }
  else none

/-- The task looks whether its key still has its token, and ends if it has not. -/
def compare (e : RtpSenderEntry) : Option RtpSenders :=
  if e ∈ s.running ∧ s.phase e.token = .leaving then
    if (s.active e.key).any fun current => current.token = e.token then
      some { s with phase := update s.phase e.token .matched }
    else some { s with running := s.running.erase e }
  else none

/-- The task removes what its key has, and ends. -/
def remove (e : RtpSenderEntry) : Option RtpSenders :=
  if e ∈ s.running ∧ s.phase e.token = .matched then
    some { s with active := update s.active e.key none, running := s.running.erase e }
  else none

/-- `stop` visits an entry. -/
def collect (vhost app stream : Str) (ssrc : Option Nat) (key : Str) : RtpSenders :=
  match s.active key with
  | none => s
  | some e =>
    if e.request.vhost = vhost ∧ e.request.app = app ∧ e.request.stream = stream ∧
        (ssrc.all fun value => e.request.ssrc = value) = true then
      { s with collected := key :: s.collected }
    else s

/-- `stop` at the table. -/
def stop (key : Str) : Option RtpSenders :=
  if key ∈ s.collected then
    let s := { s with collected := s.collected.erase key }
    match s.active key with
    | none => some s
    | some e => some
      { s with active := update s.active key none, stopping := e.token :: s.stopping }
  else none

/-- `stop` at the flag. -/
def store (token : Nat) : Option RtpSenders :=
  if token ∈ s.stopping then
    some { s with stopping := s.stopping.erase token, stopped := update s.stopped token true }
  else none

def step : RtpSenderAction → Option RtpSenders
  | .start hasMuxer hasSource r => some (s.start hasMuxer hasSource r)
  | .abandon r => s.abandon r
  | .insert r => s.insert r
  | .leave e => s.leave e
  | .compare e => s.compare e
  | .remove e => s.remove e
  | .collect vhost app stream ssrc key => some (s.collect vhost app stream ssrc key)
  | .stop key => s.stop key
  | .store token => s.store token

/-! ## Coherence -/

/-- The sender has been stopped, or is about to be. -/
def Told (token : Nat) : Prop := s.stopped token = true ∨ token ∈ s.stopping

instance decidableTold (token : Nat) : Decidable (s.Told token) :=
  inferInstanceAs (Decidable (_ ∨ _))

/-- The table has the token of the sender under its key. -/
def Listed (e : RtpSenderEntry) : Prop :=
  ∃ current, s.active e.key = some current ∧ current.token = e.token

/-- The senders of a key that run and are not stopped. -/
def live (key : Str) : List RtpSenderEntry :=
  s.running.filter fun e => e.key = key ∧ ¬ s.Told e.token

structure Coherent : Prop where
  listed : ∀ e ∈ s.running, ¬ s.Told e.token → s.Listed e
  single : ∀ key, (s.live key).length ≤ 1

/-- An action that changes only what the look before it has seen: a `start` inserts where nothing
is, and a task removes its own entry or none. -/
def Unraced : RtpSenderAction → Prop
  | .insert r => s.active r.key = none
  | .remove e => ∀ current ∈ s.active e.key, current.token = e.token
  | _ => True

instance decidableUnraced (s : RtpSenders) : (a : RtpSenderAction) → Decidable (s.Unraced a)
  | .insert _ => inferInstanceAs (Decidable (_ = _))
  | .remove e => inferInstanceAs (Decidable (∀ current ∈ s.active e.key, _))
  | .start .. | .abandon _ | .leave _ | .compare _ | .collect .. | .stop _ | .store _ =>
    .isTrue trivial

/-- What no schedule breaks. -/
structure Tracked : Prop where
  /-- No two tasks share a token. -/
  distinct : (s.running.map RtpSenderEntry.token).Nodup
  fresh : ∀ e ∈ s.running, e.token < s.next
  told : ∀ token, s.Told token → token < s.next
  /-- An entry of the table is under its key, has a task and has not been told to stop. -/
  entries : ∀ key e, s.active key = some e → e ∈ s.running ∧ e.key = key ∧ ¬ s.Told e.token

variable {s} {s' : RtpSenders}

theorem Tracked.eq_of_token (h : s.Tracked) {e e' : RtpSenderEntry} (he : e ∈ s.running)
    (he' : e' ∈ s.running) (heq : e.token = e'.token) : e = e' :=
  inj_on_of_nodup_map h.distinct he he' heq

theorem Tracked.listed_iff (h : s.Tracked) {e : RtpSenderEntry} (he : e ∈ s.running) :
    s.Listed e ↔ s.active e.key = some e := by
  refine ⟨fun ⟨current, hc, ht⟩ => ?_, fun ha => ⟨e, ha, rfl⟩⟩
  rw [hc, h.eq_of_token (h.entries _ _ hc).1 he ht]

theorem Tracked.coherent_iff (h : s.Tracked) :
    s.Coherent ↔ ∀ e ∈ s.running, ¬ s.Told e.token → s.active e.key = some e := by
  constructor
  · intro hc e he ht
    exact (h.listed_iff he).mp (hc.listed e he ht)
  · intro hal
    refine ⟨fun e he ht => (h.listed_iff he).mpr (hal e he ht), fun key => ?_⟩
    have hl : ∀ e ∈ s.live key, s.active key = some e := by
      intro e he
      obtain ⟨hmem, hk⟩ := mem_filter.mp he
      obtain ⟨hk, ht⟩ := of_decide_eq_true hk
      exact hk ▸ hal e hmem ht
    have hn : (s.live key).Nodup := (List.Nodup.of_map _ h.distinct).filter _
    -- all of them are the one entry of the key
    cases hk : s.live key with
    | nil => exact Nat.zero_le _
    | cons e rest =>
      rw [hk] at hl hn
      have hr : ∀ e' ∈ rest, e' = e := fun e' he' =>
        some.inj ((hl e' (mem_cons_of_mem _ he')).symm.trans (hl e (mem_cons_self ..)))
      cases rest with
      | nil => exact le_rfl
      | cons e' _ =>
        have heq := hr e' (mem_cons_self ..)
        exact absurd (heq ▸ mem_cons_self ..) (nodup_cons.mp hn).1

/-- The table, the tasks and the flags stay as they are. -/
structure Same (s s' : RtpSenders) : Prop where
  active : s'.active = s.active
  running : s'.running = s.running
  told : ∀ token, s'.Told token ↔ s.Told token
  next : s'.next = s.next

theorem Same.tracked (hs : Same s s') (h : s.Tracked) : s'.Tracked where
  distinct := hs.running ▸ h.distinct
  fresh e he := hs.next ▸ h.fresh e (hs.running ▸ he)
  told token ht := hs.next ▸ h.told token ((hs.told token).mp ht)
  entries key e he := by
    obtain ⟨hmem, hk, htl⟩ := h.entries key e (hs.active ▸ he)
    exact ⟨hs.running ▸ hmem, hk, fun ht => htl ((hs.told _).mp ht)⟩

theorem Same.coherent (hs : Same s s') (h : s.Tracked) (hc : s.Coherent) : s'.Coherent := by
  refine (hs.tracked h).coherent_iff.mpr fun e he htl => ?_
  rw [hs.active]
  exact h.coherent_iff.mp hc e (hs.running ▸ he) fun ht => htl ((hs.told _).mpr ht)

/-- What an action can do to the table, the tasks and the flags. -/
inductive Effect (s s' : RtpSenders) : RtpSenderAction → Prop
  | same {a} (hunraced : s.Unraced a) (hsame : Same s s') : Effect s s' a
  | insert {r} (hactive : s'.active = update s.active r.key (some ⟨s.next, r⟩))
      (hrunning : s'.running = ⟨s.next, r⟩ :: s.running)
      (htold : ∀ token, s'.Told token ↔ s.Told token)
      (hnext : s'.next = s.next + 1) : Effect s s' (.insert r)
  | ended {e} (hmem : e ∈ s.running) (hforeign : s.active e.key ≠ some e)
      (hsame : Same { s with running := s.running.erase e } s') : Effect s s' (.compare e)
  | removed {e} (hmem : e ∈ s.running) (hsame : Same { s with
      active := update s.active e.key none, running :=
        s.running.erase e } s') : Effect s s' (.remove e)
  | stopped {key e} (hentry : s.active key = some e)
    (hactive : s'.active = update s.active key none)
      (hrunning : s'.running = s.running) (htold : ∀ token, s'.Told token ↔ token = e.token ∨
        s.Told token)
      (hnext : s'.next = s.next) : Effect s s' (.stop key)

theorem Same.refl (s : RtpSenders) : Same s s := ⟨rfl, rfl, fun _ => .rfl, rfl⟩

theorem store_told {token : Nat} (hs : s.store token = some s') : Same s s' := by
  obtain ⟨hmem, ⟨⟩⟩ := ite_none_right_eq_some.mp hs
  exact ⟨rfl, rfl, told_store hmem, rfl⟩

variable {a : RtpSenderAction}

theorem step_effect (hs : s.step a = some s') : Effect s s' a := by
  cases a with
  | start hasMuxer hasSource r =>
    cases hs
    refine .same trivial ?_
    unfold start
    split
    · exact .refl s
    · exact ⟨rfl, rfl, fun _ => .rfl, rfl⟩
  | abandon r =>
    obtain ⟨-, ⟨⟩⟩ := ite_none_right_eq_some.mp hs
    exact .same trivial ⟨rfl, rfl, fun _ => .rfl, rfl⟩
  | insert r =>
    obtain ⟨-, ⟨⟩⟩ := ite_none_right_eq_some.mp hs
    exact .insert rfl rfl (fun _ => .rfl) rfl
  | leave e =>
    obtain ⟨-, ⟨⟩⟩ := ite_none_right_eq_some.mp hs
    exact .same trivial ⟨rfl, rfl, fun _ => .rfl, rfl⟩
  | compare e =>
    obtain ⟨hmem, hs⟩ := ite_none_right_eq_some.mp hs
    split at hs
    · cases hs
      exact .same trivial ⟨rfl, rfl, fun _ => .rfl, rfl⟩
    case isFalse han =>
      cases hs
      refine .ended hmem.1 (fun ho => han ?_) (.refl _)
      rw [ho]
      exact decide_eq_true rfl
  | remove e =>
    obtain ⟨hmem, ⟨⟩⟩ := ite_none_right_eq_some.mp hs
    exact .removed hmem.1 (.refl _)
  | collect vhost app stream ssrc key =>
    cases hs
    refine .same trivial ?_
    unfold collect
    split
    · exact .refl s
    · split
      · exact ⟨rfl, rfl, fun _ => .rfl, rfl⟩
      · exact .refl s
  | stop key =>
    obtain ⟨-, hs⟩ := ite_none_right_eq_some.mp hs
    split at hs
    · cases hs
      exact .same trivial ⟨rfl, rfl, fun _ => .rfl, rfl⟩
    case h_2 e he =>
      cases hs
      refine .stopped he rfl rfl (fun token => ?_) rfl
      rw [Told, mem_cons, or_left_comm]
      rfl
  | store token => exact .same trivial (store_told hs)

section

variable (h : s.Tracked)
include h

theorem Tracked.erase {e : RtpSenderEntry} {active : Str → Option RtpSenderEntry}
    (ha : ∀ key e', active key = some e' → s.active key = some e' ∧ e' ≠ e) :
    { s with active := active, running := s.running.erase e }.Tracked where
  distinct := h.distinct.sublist (erase_sublist.map _)
  fresh e' he' := h.fresh e' (mem_of_mem_erase he')
  told := h.told
  entries key e' he' := by
    obtain ⟨hin, hne⟩ := ha key e' he'
    obtain ⟨hmem, hk⟩ := h.entries key e' hin
    exact ⟨(mem_erase_of_ne hne).mpr hmem, hk⟩

/-- The entry of a key that is not the sender's is another entry. -/
theorem Tracked.ne_of_key {e e' : RtpSenderEntry} {key : Str} (he' : s.active key = some e')
    (hk : key ≠ e.key) : e' ≠ e := by
  rintro rfl
  exact hk (h.entries key e' he').2.1.symm

theorem tracked_effect (hef : Effect s s' a) : s'.Tracked := by
  cases hef with
  | same _ hs => exact hs.tracked h
  | @insert r hac hr htl hnx =>
    have hnw : ¬ s.Told s.next := fun ht => lt_irrefl _ (h.told _ ht)
    refine ⟨?_, ?_, fun token ht => ?_, fun key e he => ?_⟩
    · rw [hr, map_cons, nodup_cons]
      refine ⟨fun hmem => ?_, h.distinct⟩
      obtain ⟨e, he, htk⟩ := mem_map.mp hmem
      exact Nat.ne_of_lt (h.fresh e he) htk
    · rw [hr, hnx]
      exact forall_mem_cons.mpr ⟨Nat.lt_succ_self _, fun e he => Nat.lt_succ_of_lt (h.fresh e he)⟩
    · rw [hnx]
      exact Nat.lt_succ_of_lt (h.told token ((htl token).mp ht))
    · rw [hac] at he
      rw [hr]
      rcases of_update he with ⟨rfl, ⟨⟩⟩ | ⟨-, he⟩
      · exact ⟨mem_cons_self .., rfl, fun ht => hnw ((htl _).mp ht)⟩
      · obtain ⟨hmem, hk, ht⟩ := h.entries key e he
        exact ⟨mem_cons_of_mem _ hmem, hk, fun ht' => ht ((htl _).mp ht')⟩
  | ended hmem hf hs =>
    refine hs.tracked (h.erase fun key e' he' => ⟨he', ?_⟩)
    rintro rfl
    exact hf ((h.entries key e' he').2.1 ▸ he')
  | @removed e hmem hs =>
    refine hs.tracked (h.erase fun key e' he' => ?_)
    obtain ⟨hky, he'⟩ := of_update_none he'
    exact ⟨he', h.ne_of_key he' hky⟩
  | @stopped key e hen hac hr htl hnx =>
    refine ⟨hr ▸ h.distinct, hr ▸ hnx ▸ h.fresh, fun token ht => ?_, fun key' e' he' => ?_⟩
    · rw [hnx]
      rcases (htl token).mp ht with rfl | ht
      · exact h.fresh e (h.entries key e hen).1
      · exact h.told token ht
    · rw [hac] at he'
      obtain ⟨hky, he'⟩ := of_update_none he'
      obtain ⟨hmem, hk, ht⟩ := h.entries key' e' he'
      refine ⟨hr ▸ hmem, hk, fun ht' => ?_⟩
      rcases (htl _).mp ht' with htk | ht'
      · -- two entries with one token have one key
        have heq := h.eq_of_token hmem (h.entries key e hen).1 htk
        exact hky (hk.symm.trans (heq ▸ (h.entries key e hen).2.1))
      · exact ht ht'

/-- Inserting keeps every sender in the table exactly if the key was free. -/
theorem coherent_insert_iff (hc : s.Coherent) (h' : s'.Tracked) {r : RtpSendRequest}
    (hac : s'.active = update s.active r.key (some ⟨s.next, r⟩))
    (hr : s'.running = ⟨s.next, r⟩ :: s.running) (htl : ∀ token, s'.Told token ↔ s.Told token) :
    s'.Coherent ↔ s.active r.key = none := by
  rw [h'.coherent_iff, hr, hac]
  constructor
  · intro hal
    by_contra hs
    obtain ⟨e, he⟩ := ne_none_iff_exists'.mp hs
    obtain ⟨hmem, hk, ht⟩ := h.entries _ e he
    have hl := hal e (mem_cons_of_mem _ hmem) fun ht' => ht ((htl _).mp ht')
    rw [hk, update_self] at hl
    -- the key has the new token now
    have htk : s.next = e.token := congrArg RtpSenderEntry.token (some.inj hl)
    exact Nat.ne_of_gt (h.fresh e hmem) htk
  · intro hf e he ht
    rcases mem_cons.mp he with rfl | he
    · exact update_self ..
    · have hl := h.coherent_iff.mp hc e he fun ht' => ht ((htl _).mpr ht')
      have hk : e.key ≠ r.key := by
        intro hk
        rw [hk, hf] at hl
        cases hl
      exact (update_of_ne hk ..).trans hl

/-- Removing under its key keeps every other sender in the table exactly if the entry there is the
task's own, or none. -/
theorem coherent_removed_iff (hc : s.Coherent) (h' : s'.Tracked) {e : RtpSenderEntry}
    (hmem : e ∈ s.running)
    (hs : Same { s with active := update s.active e.key none, running := s.running.erase e } s') :
    s'.Coherent ↔ ∀ current ∈ s.active e.key, current.token = e.token := by
  have hr : s'.running = s.running.erase e := hs.running
  have hac : s'.active = update s.active e.key none := hs.active
  have htl : ∀ token, s'.Told token ↔ s.Told token := hs.told
  rw [h'.coherent_iff, hr, hac]
  constructor
  · intro hal current hcr
    by_contra hne
    obtain ⟨hin, hk, ht⟩ := h.entries _ current hcr
    have hot : current ≠ e := fun heq => hne (heq ▸ rfl)
    have hl := hal current ((mem_erase_of_ne hot).mpr hin) fun ht' => ht ((htl _).mp ht')
    exact (of_update_none hl).1 hk
  · intro hon e' he' ht
    have hin := mem_of_mem_erase he'
    have hl := h.coherent_iff.mp hc e' hin fun ht' => ht ((htl _).mpr ht')
    have hne : e' ≠ e := by
      rintro rfl
      exact (List.Nodup.of_map _ h.distinct).not_mem_erase he'
    have hk : e'.key ≠ e.key := fun hk => hne (h.eq_of_token hin hmem (hon e' (hk ▸ hl)))
    exact (update_of_ne hk ..).trans hl

theorem coherent_effect_iff (hc : s.Coherent) (hef : Effect s s' a) :
    s'.Coherent ↔ s.Unraced a := by
  have h' := tracked_effect h hef
  have hl := h.coherent_iff.mp hc
  cases hef with
  | same hu hs => exact iff_of_true (hs.coherent h hc) hu
  | insert hac hr htl _ => exact coherent_insert_iff h hc h' hac hr htl
  | ended hmem hf hs =>
    refine iff_of_true (h'.coherent_iff.mpr fun e' he' ht => ?_) trivial
    rw [hs.active]
    exact hl e' (mem_of_mem_erase (hs.running ▸ he')) fun ht' => ht ((hs.told _).mpr ht')
  | removed hmem hs => exact coherent_removed_iff h hc h' hmem hs
  | @stopped key e hen hac hr htl _ =>
    refine iff_of_true (h'.coherent_iff.mpr fun e' he' ht => ?_) trivial
    rw [hr] at he'
    have hin := hl e' he' fun ht' => ht ((htl _).mpr (.inr ht'))
    have hk : e'.key ≠ key := by
      intro hk
      rw [hk, hen] at hin
      cases hin
      exact ht ((htl _).mpr (.inl rfl))
    rw [hac]
    exact (update_of_ne hk ..).trans hin

end

theorem tracked_new : new.Tracked := by
  refine ⟨nodup_nil, forall_mem_nil _, fun token ht => ?_, fun key e he => ?_⟩
  · rcases ht with ht | ht <;> cases ht
  · cases he

theorem coherent_new : new.Coherent := ⟨forall_mem_nil _, fun _ => Nat.zero_le _⟩

/-- **The sender table is coherent at all times of exactly the runs without a race**: each sender
that runs and is not stopped is in the table with its own token, and there is at most one for a key,
as long as every `start` finds its key still free when it inserts and every task finds its own
entry, or none, when it removes; the first action that does not breaks it. -/
theorem senders_coherent_iff (schedule : List RtpSenderAction) (s : RtpSenders)
    (hrun : runSchedule step .new schedule = some s) :
    (∀ n t, runSchedule step .new (schedule.take n) = some t → t.Coherent) ↔
    Along step Unraced .new schedule :=
  run_always_iff (fun _ _ _ h _ hs => tracked_effect h (step_effect hs))
    (fun _ _ _ h hc hs => coherent_effect_iff h hc (step_effect hs)) tracked_new coherent_new hrun

/-- **What is left of the table by any race**: no entry is stale. -/
theorem senders_tracked (schedule : List RtpSenderAction) (s : RtpSenders)
    (hrun : runSchedule step .new schedule = some s) :
    s.Tracked := run_invariant (fun _ _ _ h hs => tracked_effect h (step_effect hs))
    tracked_new hrun

/-- A request to send the stream `v/a/s` by UDP. -/
private def udpRequest : RtpSendRequest :=
  ⟨['v'], ['a'], ['s'], 1, ['h'], 9000, 0, true, .ps, false, false⟩

/-- A sender is started, stopped and started again, and the first task ends behind the second
start. -/
private def startedAgain : List RtpSenderAction :=
  [.start false true udpRequest, .insert udpRequest, .collect ['v'] ['a'] ['s'] none udpRequest.key,
    .stop udpRequest.key,
    .start false true udpRequest, .insert udpRequest, .store 0, .leave ⟨0, udpRequest⟩,
    .compare ⟨0, udpRequest⟩]

theorem started_again_coherent : ∃ s, runSchedule step .new startedAgain = some s ∧
    s.running = [⟨1, udpRequest⟩] ∧
    ∀ n t, runSchedule step .new (startedAgain.take n) = some t → t.Coherent := by
  obtain ⟨s, hs, hr⟩ : ∃ s, runSchedule step .new startedAgain = some s ∧
      s.running = [⟨1, udpRequest⟩] := by
    decide +kernel
  exact ⟨s, hs, hr, (senders_coherent_iff startedAgain s hs).mpr (by decide +kernel)⟩

/-- Two `start` calls look at the table before either inserts. -/
private def startedTwice : List RtpSenderAction :=
  [.start false true udpRequest, .start false true udpRequest, .insert udpRequest, .insert
    udpRequest]

/-- Between the look of an ending task at its token and its removal, its sender is stopped and
started again. -/
private def removedLate : List RtpSenderAction :=
  [.start false true udpRequest, .insert udpRequest, .leave ⟨0, udpRequest⟩, .compare
    ⟨0, udpRequest⟩,
    .collect ['v'] ['a'] ['s'] none udpRequest.key, .stop udpRequest.key, .store 0, .start false
    true udpRequest, .insert udpRequest, .remove ⟨0, udpRequest⟩]

theorem senders_tracked_twice : ∃ s, runSchedule step .new startedTwice = some s ∧ s.Tracked :=
  ⟨_, rfl, senders_tracked startedTwice _ rfl⟩

theorem senders_raced :
    (∃ s, runSchedule step .new startedTwice = some s ∧ s.live udpRequest.key =
      [⟨1, udpRequest⟩, ⟨0, udpRequest⟩]) ∧
    ∃ s, runSchedule step .new removedLate = some s ∧ ∃ e ∈ s.running, ¬ s.Told e.token ∧
    ¬ s.Listed e := by
  refine ⟨by decide +kernel, ?_⟩
  obtain ⟨s, hs, e, he, ht, hk⟩ : ∃ s, runSchedule step .new removedLate = some s ∧
      ∃ e ∈ s.running, ¬ s.Told e.token ∧ s.active e.key = none := by decide +kernel
  refine ⟨s, hs, e, he, ht, ?_⟩
  rintro ⟨current, hc, -⟩
  rw [hk] at hc
  cases hc

end RtpSenders

end MediaKit.Core
