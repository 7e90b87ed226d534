import MediaKit.Core.Auth
import MediaKit.Rtmp.SessionSafety
import MediaKit.Transcode.Manager

/-!
# Publishers of one name

RTMP sessions (`crates/rtmp/src/session.rs`) and WHIP sessions (`crates/webrtc/src/server.rs`) that
publish under the same name share a source: `get_or_create` gives the second the source of the
first. When a session ends, it closes the stream by its name, and so the source of everybody else.

Main result: `publications_kept_iff`. At all times of a run every session that publishes has its
source in the manager, open and under its name, exactly if no session ends while another one has the
name, and none starts in the middle of a `DELETE`.

Mirroring notes vs the Rust source:
- An RTMP session is the session of `MediaKit.Rtmp.Session`; its `get_or_create` is answered by the
  manager, and what it does to sources (`SessionEffect`) is done to the manager. A message is one
  step, since it makes one call of the manager at most.
- A WHIP session has its source from the beginning of its negotiation. Its end (a `DELETE`, or the
  watcher of the connection) is three steps: out of the map of sessions, `source.close()`,
  `close_stream`. `delete_at_once` connects them with the one step of `MediaKit.Transcode`.
- `publishing` is for the statements only: the id under which a session has been given its source,
  until it ends. An RTMP session ends with its cleanup or turns away with a play. -/

namespace MediaKit.Server

open MediaKit.Core Lib Rtmp Transcode List Option Function

inductive WhipPhase where
  | negotiating
  | publishing
  /-- Out of the map of sessions. -/
  | removed
  /-- Its source is closed. -/
  | closed
  deriving DecidableEq

inductive Publisher where
  | rtmp (i : Nat)
  | whip (resource : Str)
  deriving DecidableEq

structure PublishSystem where
  sources : SourceManager
  rtmp : Nat → RtmpSession
  whip : Str → Option (WhipPhase × SourceHandle)
  publishing : Publisher → Option Str

inductive PublishAction where
  | rtmp (i : Nat) (input : SessionInput)
  | whipPublish (resource vhost app stream : Str)
  | whipAccept (resource : Str)
  | whipFail (resource : Str)
  | whipRemove (resource : Str)
  | whipClose (resource : Str)
  | whipCloseStream (resource : Str)

/-- What an effect of an RTMP session does to the manager. -/
def applyEffect (m : SourceManager) : SessionEffect → SourceManager
  | .getOrCreate app stream _ => (m.getOrCreate defaultVhost app stream).1
  | .publishAndCache source frame => m.modify source (fun src => src.publishAndCache frame)
    fun src =>
    src.publishAndCache_id frame
  | .closeStream app stream => (m.closeStream defaultVhost app stream).1
  | .clearTracks _ | .pushTrack _ _ | .streamPublish _ _ | .streamUnPublish _ _ => m

namespace PublishSystem

def new : PublishSystem := ⟨.empty, fun _ => .new, fun _ => none, fun _ => none⟩

variable (s : PublishSystem)

/-- The source that a session publishes into. -/
def target : Publisher → Option SourceHandle
  | .rtmp i => if (s.rtmp i).isPublisher then (s.rtmp i).source else none
  | .whip resource => (s.whip resource).map Prod.snd

/-- `get_or_create` is answered by the manager. -/
def answered : SessionInput → SessionInput
  | .message env msg =>
    .message { env with
      getOrCreate := fun app stream => (s.sources.getOrCreate defaultVhost app stream).2 } msg
  | .cleanup => .cleanup

def rtmpStep (i : Nat) (input : SessionInput) : PublishSystem :=
  let input := s.answered input
  let r := (s.rtmp i).step input
  { s with
    sources := r.2.foldl applyEffect s.sources
    rtmp := update s.rtmp i r.1
    publishing := match (s.rtmp i).outcome input with
      | .accepted n _ => update s.publishing (.rtmp i) (some (streamKey defaultVhost n.1 n.2))
      | .played _ | .cleaned => update s.publishing (.rtmp i) none
      | .refused | .renamed | .media | .other => s.publishing }

def setWhip (resource : Str) (session : Option (WhipPhase × SourceHandle)) : PublishSystem :=
  { s with whip := update s.whip resource session }

def step : PublishAction → Option PublishSystem
  | .rtmp i input => some (s.rtmpStep i input)
  | .whipPublish resource vhost app stream =>
    match s.whip resource with
    | some _ => none
    | none =>
      let source := s.sources.getOrCreate vhost app stream
      some { s.setWhip resource (some (.negotiating, source.2)) with
        sources := source.1
        publishing := update s.publishing (.whip resource) (some (streamKey vhost app stream)) }
  | .whipAccept resource =>
    match s.whip resource with
    | some (.negotiating, h) => some (s.setWhip resource (some (.publishing, h)))
    | _ => none
  | .whipFail resource =>
    match s.whip resource with
    | some (.negotiating, _) =>
      some { s.setWhip resource none with publishing := update s.publishing (.whip resource) none }
    | _ => none
  | .whipRemove resource =>
    match s.whip resource with
    | some (.publishing, h) =>
      some { s.setWhip resource (some (.removed, h)) with
        publishing := update s.publishing (.whip resource) none }
    | _ => none
  | .whipClose resource =>
    match s.whip resource with
    | some (.removed, h) =>
      some { s.setWhip resource (some (.closed, h)) with sources := s.sources.closeSource h }
    | _ => none
  | .whipCloseStream resource =>
    match s.whip resource with
    | some (.closed, h) =>
      (s.sources.heap h).map fun source =>
        { s.setWhip resource none with
          sources := (s.sources.closeStream source.vhost source.app source.stream).1 }
    | _ => none

end PublishSystem

/-! ## What is kept -/

variable (s : PublishSystem)

open PublishSystem

/-- Every session that publishes has its source in the manager, open and under its name. -/
def Kept : Prop :=
  ∀ p id, s.publishing p = some id → ∃ h, s.target p = some h ∧ s.sources.names id = some h ∧
    s.sources.OpenAt h

/-- Nobody but `p` publishes under the id. -/
def Alone (p : Publisher) (id : Str) : Prop := ∀ q, q ≠ p → s.publishing q ≠ some id

/-- The id is not that of a source which a `DELETE` has closed and not yet taken out. -/
def Settled (id : Str) : Prop :=
  ∀ resource h, s.whip resource = some (.closed, h) → s.sources.names id ≠ some h

/-- A session closes a stream, or a source, only if no other session publishes there; a session
starts only on a settled name. -/
def Considerate : PublishAction → Prop
  | .rtmp i input =>
    match (s.rtmp i).outcome (s.answered input) with
    | .accepted n _ => Settled s (streamKey defaultVhost n.1 n.2)
    | .cleaned =>
      (s.rtmp i).isPublisher = true → Alone s (.rtmp i)
      (streamKey defaultVhost (s.rtmp i).app (s.rtmp i).streamName)
    | .refused | .played _ | .renamed | .media | .other => True
  | .whipPublish _ vhost app stream => Settled s (streamKey vhost app stream)
  | .whipClose resource => ∀ h, s.whip resource = some (.removed, h) → ∀ q id,
    s.publishing q = some id → s.target q ≠ some h
  | .whipCloseStream resource =>
    ∀ h, s.whip resource = some (.closed, h) → ∀ src ∈ s.sources.heap h, ∀ q,
      s.publishing q ≠ some src.id
  | .whipAccept _ | .whipFail _ | .whipRemove _ => True

/-- Only a `DELETE` in progress leaves a closed source in the manager. -/
structure Sound (s : PublishSystem) : Prop where
  held : ∀ resource phase h, s.whip resource = some (phase, h) → ∃ src, s.sources.heap h = some src
  closed : ∀ resource h, s.whip resource = some (.closed, h) → ¬s.sources.OpenAt h
  opened : ∀ id h, s.sources.names id = some h → s.sources.OpenAt h ∨ ∃ resource,
    s.whip resource = some (.closed, h)

section Step

variable {s s' : PublishSystem}
  {app id resource stream vhost : Str} {p q : Publisher} {n : SourceHandle} {t : RtmpSession}
  {i : Nat} {x : Option (WhipPhase × SourceHandle)}

theorem Sound.next (h : Sound s) (he : s.sources.Evolves s'.sources)
    (hh : ∀ r phase n, s'.whip r = some (phase, n) →
      (∃ phase', s.whip r = some (phase', n)) ∨ ∃ src, s'.sources.heap n = some src)
    (hc : ∀ r n, s'.whip r = some (.closed, n) → s.whip r = some (.closed, n) ∨
      ¬s'.sources.OpenAt n)
    (hon : ∀ id n, s'.sources.names id = some n → s'.sources.OpenAt n ∨ ∃ r,
      s'.whip r = some (.closed, n)) :
    Sound s' where
  held r phase n hr := by
    rcases hh r phase n hr with ⟨phase', hr'⟩ | hs
    · exact he.stays (h.held r phase' n hr').choose_spec
    · exact hs
  closed r n hr hop := by
    rcases hc r n hr with hr' | hn
    · exact h.closed r n hr' (he.opened (h.held r _ n hr').choose_spec hop)
    · exact hn hop
  opened := hon

theorem Sound.getOrCreate (h : Sound s)
    (hsr : s'.sources = (s.sources.getOrCreate vhost app stream).1)
    (hw : ∀ r, s'.whip r = s.whip r ∨
      s.whip r = none ∧ s'.whip r = some
        (.negotiating, (s.sources.getOrCreate vhost app stream).2)) : Sound s' := by
  obtain ⟨hnm, hns, -⟩ := s.sources.getOrInsert_spec (.new vhost app stream)
  have hkp : ∀ r n, s.whip r = some (.closed, n) → s'.whip r = some (.closed, n) := fun r n hr => by
    rcases hw r with heq | ⟨hno, -⟩
    · rw [heq, hr]
    · rw [hno] at hr
      cases hr
  refine h.next (hsr ▸ s.sources.evolves_getOrCreate vhost app stream) (fun r phase n hr => ?_)
    (fun r n hr => ?_)
    fun id n hn => ?_
  · rcases hw r with heq | ⟨-, hnw⟩
    · exact .inl ⟨phase, heq ▸ hr⟩
    · rw [hnw] at hr
      cases hr
      obtain ⟨src, hsc, -⟩ := (s.sources.getOrCreate vhost app stream).1.named _ _ hnm
      exact .inr ⟨src, hsr ▸ hsc⟩
  · rcases hw r with heq | ⟨-, hnw⟩
    · exact .inl (heq ▸ hr)
    · rw [hnw] at hr
      cases hr
  · rw [hsr] at hn ⊢
    have hold : ∀ n, s.sources.names id = some n →
      (s.sources.getOrCreate vhost app stream).1.OpenAt n ∨
        ∃ r, s'.whip r = some (.closed, n) := fun n hn => by
      rcases h.opened id n hn with hop | ⟨r, hr⟩
      · exact .inl (s.sources.openAt_getOrCreate _ _ _ hop)
      · exact .inr ⟨r, hkp r n hr⟩
    by_cases hid : id = streamKey vhost app stream
    · subst hid
      cases hk : s.sources.names (streamKey vhost app stream) with
      | some n' =>
        have hf : s.sources.getOrCreate vhost app stream = (s.sources, n') :=
          s.sources.getOrInsert_of_some hk
        rw [hf, hk] at hn
        cases hn
        exact hold n hk
      | none =>
        have hn' : (s.sources.getOrCreate vhost app stream).2 = n := some.inj (hnm.symm.trans hn)
        rw [← hn']
        refine .inl (s.sources.openAt_getOrCreate_self fun n'' hn'' => ?_)
        rw [SourceManager.get, hk] at hn''
        cases hn''
    · exact hold n ((hns id hid).symm.trans hn)

/-- A stream is closed, and with it a `DELETE` of its source may be over. -/
theorem Sound.closeId (h : Sound s) (hs : s'.sources = (s.sources.closeId id).1)
    (hw : ∀ r, s'.whip r = s.whip r ∨ s'.whip r = none ∧ ∀ phase n, s.whip r = some (phase, n) →
      ∀ id', s.sources.names id' = some n → id' = id) : Sound s' := by
  have hb : ∀ r phase n, s'.whip r = some (phase, n) → s.whip r = some (phase, n) :=
    fun r phase n hr => by
    rcases hw r with heq | ⟨hno, -⟩
    · rwa [← heq]
    · rw [hno] at hr
      cases hr
  refine h.next (hs ▸ s.sources.evolves_closeId id)
    (fun r phase n hr => .inl ⟨phase, hb r phase n hr⟩)
    (fun r n hr => .inl (hb r .closed n hr)) fun id' n hn => ?_
  rw [hs, s.sources.closeId_names] at hn
  obtain ⟨hne, hn⟩ := of_update_none hn
  rcases h.opened id' n hn with hop | ⟨r, hr⟩
  · refine .inl ?_
    rw [hs]
    exact (s.sources.openAt_closeId fun heq => hne (s.sources.names_inj hn heq)).mpr hop
  · rcases hw r with heq | ⟨-, hon⟩
    · exact .inr ⟨r, heq.trans hr⟩
    · exact absurd (hon .closed n hr id' hn) hne

theorem Sound.same (h : Sound s) (he : s.sources.Evolves s'.sources)
    (hnm : s'.sources.names = s.sources.names) (hop : ∀ n, s.sources.OpenAt n → s'.sources.OpenAt n)
    (hh : ∀ r phase n, s'.whip r = some (phase, n) → ∃ phase', s.whip r = some (phase', n))
    (hc : ∀ r n, s'.whip r = some (.closed, n) ↔ s.whip r = some (.closed, n)) : Sound s' := by
  refine h.next he (fun r phase n hr => .inl (hh r phase n hr))
    (fun r n hr => .inl ((hc r n).mp hr))
    fun id n hn => ?_
  rcases h.opened id n (hnm ▸ hn) with ho | ⟨r, hr⟩
  · exact .inl (hop n ho)
  · exact .inr ⟨r, (hc r n).mpr hr⟩

theorem Kept.same (h : Kept s) (hpb : ∀ p id, s'.publishing p = some id → s.publishing p = some id ∧
      s'.target p = s.target p)
    (hnm : s'.sources.names = s.sources.names)
    (hop : ∀ n, s.sources.OpenAt n → s'.sources.OpenAt n) : Kept s' := by
  intro p id hp
  obtain ⟨hp, ht⟩ := hpb p id hp
  obtain ⟨n, hn, hid, ho⟩ := h p id hp
  exact ⟨n, ht.trans hn, hnm ▸ hid, hop n ho⟩

theorem Kept.getOrCreate_iff (h : Kept s) (hsn : Sound s)
    (hsr : s'.sources = (s.sources.getOrCreate vhost app stream).1)
    (hp : s'.publishing = update s.publishing p (some (streamKey vhost app stream)))
    (hsl : s'.target p = some (s.sources.getOrCreate vhost app stream).2)
    (hot : ∀ q, q ≠ p → s'.target q = s.target q) :
    Kept s' ↔ Settled s (streamKey vhost app stream) := by
  obtain ⟨hnm, hns, -⟩ := s.sources.getOrInsert_spec (.new vhost app stream)
  constructor
  · intro hkp r n hr hn
    -- what it would find is closed
    obtain ⟨n', hn', -, hop⟩ := hkp p (streamKey vhost app stream) (by rw [hp, update_self])
    have hf : s.sources.getOrCreate vhost app stream = (s.sources, n) :=
      s.sources.getOrInsert_of_some hn
    rw [hsl, hf] at hn'
    rw [hsr, hf] at hop
    cases hn'
    exact hsn.closed r n hr hop
  · intro hst q id hq
    rw [hp] at hq
    rcases of_update hq with ⟨rfl, ⟨⟩⟩ | ⟨hqp, hq⟩
    · refine ⟨_, hsl, hsr ▸ hnm, ?_⟩
      rw [hsr]
      refine s.sources.openAt_getOrCreate_self fun n hn => ?_
      rcases hsn.opened _ n hn with hop | ⟨r, hr⟩
      · exact hop
      · exact absurd hn (hst r n hr)
    · obtain ⟨n, hn, hid, hop⟩ := h q id hq
      refine ⟨n, (hot q hqp).trans hn, ?_, ?_⟩
      · rw [hsr]
        by_cases hky : id = streamKey vhost app stream
        · subst hky
          have hf : s.sources.getOrCreate vhost app stream = (s.sources, n) :=
            s.sources.getOrInsert_of_some hid
          rw [hf]
          exact hid
        · exact (hns id hky).trans hid
      · rw [hsr]
        exact s.sources.openAt_getOrCreate _ _ _ hop

theorem Kept.closeId_iff (h : Kept s) (hs : s'.sources = (s.sources.closeId id).1)
    (hp : ∀ p id, s'.publishing p = some id → s.publishing p = some id ∧ s'.target p = s.target p) :
    Kept s' ↔ ∀ q, s'.publishing q ≠ some id := by
  constructor
  · intro hk q hq
    obtain ⟨n, -, hn, -⟩ := hk q id hq
    rw [hs, s.sources.closeId_names] at hn
    exact (of_update_none hn).1 rfl
  · intro hno q id' hq
    have hne : id' ≠ id := fun heq => hno q (heq ▸ hq)
    obtain ⟨hq, ht⟩ := hp q id' hq
    obtain ⟨n, hn, hid, ho⟩ := h q id' hq
    refine ⟨n, ht.trans hn, ?_, ?_⟩
    · rw [hs, s.sources.closeId_names, update_of_ne hne, hid]
    · rw [hs]
      exact (s.sources.openAt_closeId fun heq => hne (s.sources.names_inj hid heq)).mpr ho

theorem Kept.closeSource_iff (h : Kept s) (hs : s'.sources = s.sources.closeSource n)
    (hp : s'.publishing = s.publishing) (ht : s'.target = s.target) :
    Kept s' ↔ ∀ q id, s.publishing q = some id → s.target q ≠ some n := by
  constructor
  · intro hk q id hq hn
    obtain ⟨n', hn', -, ho⟩ := hk q id (hp ▸ hq)
    rw [ht, hn] at hn'
    cases hn'
    rw [hs] at ho
    exact s.sources.not_openAt_closeSource n ho
  · intro hno q id hq
    rw [hp] at hq
    obtain ⟨n', hn', hid, ho⟩ := h q id hq
    have hne : n' ≠ n := fun heq => hno q id hq (heq ▸ hn')
    refine ⟨n', ht ▸ hn', ?_, ?_⟩
    · rw [hs]
      exact hid
    · rw [hs]
      exact (s.sources.openAt_closeSource hne).mpr ho

/-! ### RTMP sessions -/

theorem foldl_applyEffect_media : ∀ {es : List SessionEffect} (m : SourceManager),
    t.MediaEffects es →
    (es.foldl applyEffect m).names = m.names ∧ m.Evolves (es.foldl applyEffect m) ∧
      ∀ n, m.OpenAt n → (es.foldl applyEffect m).OpenAt n := by
  intro es
  induction es with
  | nil => exact fun m _ => ⟨rfl, .refl m, fun _ => id⟩
  | cons e es ih =>
    intro m hes
    obtain ⟨hen, hon, -⟩ := hes e (mem_cons_self ..)
    have hone : (applyEffect m e).names = m.names ∧ m.Evolves (applyEffect m e) ∧
        ∀ n, m.OpenAt n → (applyEffect m e).OpenAt n := by
      cases e with
      | getOrCreate app stream h => exact absurd ⟨h, rfl⟩ (hon (app, stream))
      | closeStream app stream => cases hen
      | publishAndCache h frame =>
        have hid : ∀ src : MediaSource, (src.publishAndCache frame).id = src.id := fun src =>
          src.publishAndCache_id frame
        exact ⟨rfl, m.evolves_modify hid (fun src => (src.isOpen_publishAndCache frame).mp) h,
          fun n =>
          m.openAt_modify hid (fun src => (src.isOpen_publishAndCache frame).mpr) h⟩
      | clearTracks | pushTrack | streamPublish => exact ⟨rfl, .refl m, fun _ => id⟩
      | streamUnPublish app stream => cases hen
    obtain ⟨hnm, hev, hop⟩ := ih (applyEffect m e) fun e' he' => hes e' (mem_cons_of_mem _ he')
    exact ⟨hnm.trans hone.1, hone.2.1.trans hev, fun n hn => hop n (hone.2.2 n hn)⟩

theorem target_rtmp_of_ne (hq : q ≠ .rtmp i) (m : SourceManager)
    (publishing : Publisher → Option Str) :
    (PublishSystem.mk m (update s.rtmp i t) s.whip publishing).target q = s.target q := by
  cases q with
  | rtmp j =>
    have hne : j ≠ i := fun heq => hq (by rw [heq])
    simp only [PublishSystem.target, update_of_ne hne]
  | whip resource => rfl

theorem rtmp_step (h : Kept s) (hsn : Sound s) (i : Nat) (input : SessionInput) :
    Sound (s.rtmpStep i input) ∧ (Kept (s.rtmpStep i input) ↔ Considerate s (.rtmp i input)) := by
  have hcs := (s.rtmp i).step_cases (s.answered input)
    (fun app stream => (s.sources.getOrCreate defaultVhost app stream).2) (by
      cases input with
      | cleanup => nofun
      | message env msg => rintro _ _ ⟨⟩; rfl)
  unfold rtmpStep Considerate
  simp only
  generalize (s.rtmp i).outcome (s.answered input) = o at hcs ⊢
  generalize (s.rtmp i).step (s.answered input) = r at hcs ⊢
  -- a step that leaves the manager alone, and after which the session has the source that it had if
  -- it publishes
  have hqt : ∀ {t : RtmpSession} {m : SourceManager} {publishing : Publisher → Option Str},
      m.names = s.sources.names → s.sources.Evolves m → (∀ n, s.sources.OpenAt n → m.OpenAt n) →
      (∀ p id, publishing p = some id → s.publishing p = some id) →
      (∀ id, publishing (.rtmp i) = some id → t.source = (s.rtmp i).source ∧
        ((s.rtmp i).isPublisher = true → t.isPublisher = true)) →
      Sound ⟨m, update s.rtmp i t, s.whip, publishing⟩ ∧
        (Kept ⟨m, update s.rtmp i t, s.whip, publishing⟩ ↔ True) := by
    intro t m publishing hnm hev hop hpu hsl
    refine ⟨hsn.same hev hnm hop (fun r phase n hr => ⟨phase, hr⟩) fun r n => Iff.rfl,
      iff_true_intro fun p id hp => ?_⟩
    obtain ⟨n, hn, hid, ho⟩ := h p id (hpu p id hp)
    refine ⟨n, ?_, hnm ▸ hid, hop n ho⟩
    by_cases hpi : p = .rtmp i
    · subst hpi
      obtain ⟨hsr, hf⟩ := hsl id hp
      simp only [PublishSystem.target] at hn ⊢
      obtain ⟨hpb, hn⟩ := ite_none_right_eq_some.mp hn
      rw [update_self, if_pos (hf hpb), hsr, hn]
    · rw [target_rtmp_of_ne hpi, hn]
  cases hcs with
  | accepted name n hn =>
    refine ⟨hsn.getOrCreate rfl fun r => .inl rfl, h.getOrCreate_iff hsn rfl rfl ?_ fun q hq =>
      target_rtmp_of_ne hq _ _⟩
    simp only [PublishSystem.target, update_self, if_true, hn]
  | refused name =>
    exact hqt rfl (.refl _) (fun _ => id) (fun _ _ => id) fun _ _ => ⟨rfl, fun _ => rfl⟩
  | played name source =>
    exact hqt rfl (.refl _) (fun _ => id) (fun _ _ hp => (of_update_none hp).2)
      fun _ hp => absurd rfl (of_update_none hp).1
  | renamed t ht =>
    exact hqt rfl (.refl _) (fun _ => id) (fun _ _ => id) fun _ _ => ⟨ht.1, fun hp => ht.2.trans hp⟩
  | media es hes =>
    obtain ⟨hnm, hev, hop⟩ := foldl_applyEffect_media s.sources hes
    exact hqt hnm hev hop (fun _ _ => id) fun _ _ => ⟨rfl, id⟩
  | other =>
    exact hqt rfl (.refl _) (fun _ => id) (fun _ _ => id) fun _ _ => ⟨rfl, id⟩
  | cleaned =>
    cases hp : (s.rtmp i).isPublisher with
    | false =>
      simp only [RtmpSession.cleanup, hp, Bool.false_eq_true, false_implies]
      exact hqt rfl (.refl _) (fun _ => id) (fun _ _ hp => (of_update_none hp).2)
        fun _ hp => absurd rfl (of_update_none hp).1
    | true =>
      simp only [RtmpSession.cleanup, hp, true_implies]
      have hcl : applyEffect (applyEffect s.sources
        (.streamUnPublish (s.rtmp i).app (s.rtmp i).streamName))
          (.closeStream (s.rtmp i).app (s.rtmp i).streamName) =
          (s.sources.closeId (streamKey defaultVhost (s.rtmp i).app (s.rtmp i).streamName)).1 := rfl
      refine ⟨hsn.closeId hcl fun r => .inl rfl, Iff.trans (h.closeId_iff hcl fun p id hp =>
        ⟨(of_update_none hp).2, target_rtmp_of_ne (of_update_none hp).1 _ _⟩) ?_⟩
      constructor
      · intro hall q hq hid
        exact hall q ((update_of_ne hq ..).trans hid)
      · intro hal q hid
        obtain ⟨hq, hid⟩ := of_update_none hid
        exact hal q hq hid

/-! ### WHIP sessions -/

theorem target_whip_of_ne (hq : q ≠ .whip resource)
    (m : SourceManager) (publishing : Publisher → Option Str) :
    (PublishSystem.mk m s.rtmp (update s.whip resource x) publishing).target q = s.target q := by
  cases q with
  | rtmp i => rfl
  | whip r =>
    have hne : r ≠ resource := fun heq => hq (by rw [heq])
    simp only [PublishSystem.target, update_of_ne hne]

theorem whip_phase (h : Kept s) (hsn : Sound s) {phase : WhipPhase}
    (hw : s.whip resource = some (phase, n)) (hph : phase ≠ .closed)
    (hx : ∀ phase' n', x = some (phase', n') → n' = n ∧ phase' ≠ .closed)
    {publishing : Publisher → Option Str}
    (hpb : ∀ p id, publishing p = some id → s.publishing p = some id)
    (hsl : ∀ id, publishing (.whip resource) = some id → x.map Prod.snd = some n) :
    Sound ⟨s.sources, s.rtmp, update s.whip resource x, publishing⟩ ∧
      (Kept ⟨s.sources, s.rtmp, update s.whip resource x, publishing⟩ ↔ True) := by
  refine ⟨?_, iff_true_intro ?_⟩
  · refine hsn.same (.refl _) rfl (fun _ => id) (fun r phase' n' hr => ?_) fun r n' => ?_
    · rcases of_update hr with ⟨rfl, hsm⟩ | ⟨-, hr⟩
      · exact ⟨phase, (hx phase' n' hsm).1 ▸ hw⟩
      · exact ⟨phase', hr⟩
    by_cases hrs : r = resource
    · subst hrs
      simp only [update_self, hw, some.injEq, Prod.mk.injEq, hph, false_and, iff_false]
      exact fun hc => (hx _ _ hc).2 rfl
    · simp only [update_of_ne hrs]
  · refine h.same (fun p id hp => ⟨hpb p id hp, ?_⟩) rfl fun _ => id
    by_cases hpw : p = .whip resource
    · subst hpw
      simp only [PublishSystem.target, update_self, hsl id hp, hw, map_some]
    · exact target_whip_of_ne hpw _ _

theorem publish_step (h : Kept s) (hsn : Sound s) {a : PublishAction} (hs : s.step a = some s') :
    Sound s' ∧ (Kept s' ↔ Considerate s a) := by
  cases a with
  | rtmp i input =>
    cases hs
    exact rtmp_step h hsn i input
  | whipPublish resource vhost app stream =>
    simp only [step] at hs
    split at hs
    · cases hs
    case h_2 hno =>
      cases hs
      refine ⟨hsn.getOrCreate rfl fun r => ?_, h.getOrCreate_iff hsn rfl rfl ?_ fun q hq =>
        target_whip_of_ne (s := s) hq _ _⟩
      · by_cases hr : r = resource
        · subst hr
          exact .inr ⟨hno, update_self ..⟩
        · exact .inl (update_of_ne hr ..)
      · simp only [PublishSystem.target, setWhip, update_self, map_some]
  | whipAccept resource =>
    simp only [step] at hs
    split at hs
    case h_1 n hw =>
      cases hs
      exact whip_phase h hsn hw (by decide) (fun phase n' hx => by
        cases hx
        exact ⟨rfl, by decide⟩) (fun _ _ => id) fun _ _ => rfl
    case h_2 => cases hs
  | whipFail resource =>
    simp only [step] at hs
    split at hs
    case h_1 n hw =>
      cases hs
      exact whip_phase h hsn hw (by decide) (fun phase n' hx => by cases hx)
        (fun _ _ hp => (of_update_none hp).2) fun id hp => absurd rfl (of_update_none hp).1
    case h_2 => cases hs
  | whipRemove resource =>
    simp only [step] at hs
    split at hs
    case h_1 n hw =>
      cases hs
      exact whip_phase h hsn hw (by decide) (fun phase n' hx => by
        cases hx
        exact ⟨rfl, by decide⟩) (fun _ _ hp => (of_update_none hp).2) fun id hp =>
          absurd rfl (of_update_none hp).1
    case h_2 => cases hs
  | whipClose resource =>
    simp only [step] at hs
    split at hs
    case h_2 => cases hs
    case h_1 n hw =>
      cases hs
      constructor
      · refine hsn.next (s.sources.evolves_closeSource n) (fun r phase n' hr => ?_)
          (fun r n' hr => ?_) fun id n' hn' => ?_
        · rcases of_update hr with ⟨rfl, ⟨⟩⟩ | ⟨-, hr⟩
          · exact .inl ⟨_, hw⟩
          · exact .inl ⟨phase, hr⟩
        · rcases of_update hr with ⟨rfl, ⟨⟩⟩ | ⟨-, hr⟩
          · exact .inr (s.sources.not_openAt_closeSource _)
          · exact .inl hr
        · by_cases hn : n' = n
          · subst hn
            exact .inr ⟨resource, update_self ..⟩
          · rcases hsn.opened id n' hn' with ho | ⟨r, hr⟩
            · exact .inl ((s.sources.openAt_closeSource hn).mpr ho)
            · have hrs : r ≠ resource := fun heq => by
                rw [heq, hw] at hr
                cases hr
              exact .inr ⟨r, (update_of_ne hrs ..).trans hr⟩
      · refine Iff.trans (h.closeSource_iff rfl rfl (funext fun q => ?_)) ?_
        · by_cases hq : q = .whip resource
          · subst hq
            simp only [PublishSystem.target, setWhip, update_self, hw, map_some]
          · exact target_whip_of_ne (s := s) hq _ _
        · simp only [Considerate, hw, some.injEq, Prod.mk.injEq, true_and, forall_eq']
  | whipCloseStream resource =>
    simp only [step] at hs
    split at hs
    case h_2 => cases hs
    case h_1 n hw =>
      obtain ⟨src, hsr, rfl⟩ := map_eq_some_iff.mp hs
      have hc : (s.sources.closeStream src.vhost src.app src.stream).1 =
          (s.sources.closeId src.id).1 := by
        rw [src.id_eq]
        rfl
      constructor
      · refine hsn.closeId hc fun r => ?_
        by_cases hrs : r = resource
        · subst hrs
          refine .inr ⟨update_self .., fun phase n' hr id' hn' => ?_⟩
          -- its source has one id
          rw [hw] at hr
          cases hr
          obtain ⟨src', hsr', rfl⟩ := s.sources.named id' n hn'
          rw [hsr] at hsr'
          cases hsr'
          rfl
        · exact .inl (update_of_ne hrs ..)
      · refine Iff.trans (h.closeId_iff hc fun q id hq =>
          ⟨hq, target_whip_of_ne (s := s) (fun heq => ?_) _ _⟩) ?_
        · -- its source is closed, so it does not publish any more
          subst heq
          obtain ⟨n', hn', -, ho⟩ := h _ id hq
          simp only [PublishSystem.target, hw, map_some, some.injEq] at hn'
          subst hn'
          exact hsn.closed resource _ hw ho
        · simp only [Considerate, hw, some.injEq, Prod.mk.injEq, true_and, forall_eq', mem_def, hsr]
          rfl

end Step

theorem sound_new : Sound .new := by
  refine ⟨fun r phase h hr => ?_, fun r h hr => ?_, fun id h hn => ?_⟩
  · cases hr
  · cases hr
  · cases hn

/-- With nothing in between, the three steps at the end of a WHIP session are the one step of
`MediaKit.Transcode`. -/
theorem delete_at_once {s : PublishSystem} {t : TranscodeSystem} {resource : Str} {h : SourceHandle}
    {src : MediaSource} (hsr : t.sources = s.sources) (hs : s.whip resource = some (.publishing, h))
    (ht : t.publishSessions resource = some h) (hsc : s.sources.heap h = some src) :
    (runSchedule step s [.whipRemove resource, .whipClose resource, .whipCloseStream resource]).map
      sources = some (t.handleDelete resource).1.sources := by
  have hc : (s.sources.closeSource h).heap h = some src.close := by
    rw [SourceManager.closeSource, Registry.heap_modify_self, hsc]
    rfl
  simp only [runSchedule, step, hs, setWhip, update_self, hc, map_some,
    TranscodeSystem.handleDelete, ht, hsr, hsc]
  rfl

/-- **A session keeps its source whatever its predecessors do**, at all times of exactly the runs in
which no session closes a name or a source where another one publishes, and none starts on a name
whose source a `DELETE` has just closed. -/
theorem publications_kept_iff (as : List PublishAction) (s : PublishSystem)
    (hrun : runSchedule step .new as = some s) :
    (∀ n t, runSchedule step .new (as.take n) = some t → Kept t) ↔ Along step Considerate .new as :=
  run_always_iff (I := Sound) (fun _ _ _ hsn h hs => (publish_step h hsn hs).1)
    (fun _ _ _ hsn h hs => (publish_step h hsn hs).2) sound_new (fun _ _ hp => by cases hp) hrun

/-- The first session ends and closes its stream, then the second one publishes on the name and has
a source of its own. -/
theorem successor_kept : let as : List PublishAction :=
      [.whipPublish ['r'] ['v'] ['a'] ['s'], .whipAccept ['r'], .whipRemove ['r'], .whipClose ['r'],
        .whipCloseStream ['r'], .whipPublish ['q'] ['v'] ['a'] ['s'], .whipAccept ['q']]
    ∃ s, runSchedule step .new as = some s ∧
      s.publishing (.whip ['q']) = some (streamKey ['v'] ['a'] ['s']) ∧
      s.target (.whip ['q']) = some 1 ∧ s.sources.get ['v'] ['a'] ['s'] = some 1 ∧
      ∀ n t, runSchedule step .new (as.take n) = some t → Kept t := by
  intro as
  obtain ⟨s, hrun, hp, ht, hg⟩ : ∃ s, runSchedule step .new as = some s ∧
      s.publishing (.whip ['q']) = some (streamKey ['v'] ['a'] ['s']) ∧
        s.target (.whip ['q']) = some 1 ∧
      s.sources.get ['v'] ['a'] ['s'] = some 1 := by decide +kernel
  refine ⟨s, hrun, hp, ht, hg, (publications_kept_iff as s hrun).mpr ?_⟩
  -- nobody publishes while the first session closes its source and its stream
  have hno : ∀ q id, update (update (fun _ => none) (Publisher.whip ['r'])
    (some (streamKey ['v'] ['a'] ['s'])))
      (.whip ['r']) none q ≠ some id := fun q id hq => by
    by_cases hqr : q = .whip ['r'] <;> simp [hqr] at hq
  refine ⟨fun r h hr => (by cases hr),
    fun s₁ h₁ => ⟨trivial, fun s₂ h₂ => ⟨trivial, fun s₃ h₃ => ?_⟩⟩⟩
  cases h₁
  cases h₂
  cases h₃
  refine ⟨fun h _ q id hq => absurd hq (hno q id), fun s₄ h₄ => ?_⟩
  cases h₄
  refine ⟨fun h _ src _ q => hno q src.id, fun s₅ h₅ => ?_⟩
  cases h₅
  refine ⟨fun r h _ hnm => ?_, fun _ _ => ⟨trivial, fun _ _ => trivial⟩⟩
  -- the name is free again
  cases (show none = some h from hnm)

/-- A second publisher takes over a name and the first one ends: the stream of the second is gone.
So it is with a `DELETE`. -/
theorem successor_taken_down : (∃ s, runSchedule step .new
        [.rtmp 0 (.message (oneSource true) (command "publish" "cam")),
          .rtmp 1 (.message (oneSource true) (command "publish" "cam")),
            .rtmp 0 .cleanup] = some s ∧
      s.publishing (.rtmp 1) = some (streamKey defaultVhost [] "cam") ∧
        s.target (.rtmp 1) = some 0 ∧
      s.sources.get defaultVhost [] "cam" = none ∧ ¬Kept s) ∧
    ∃ s, runSchedule step .new
        [.whipPublish ['r'] ['v'] ['a'] ['s'], .whipAccept ['r'], .whipPublish ['q'] ['v'] ['a']
          ['s'], .whipAccept ['q'],
          .whipRemove ['r'], .whipClose ['r'], .whipCloseStream ['r']] = some s ∧
      s.publishing (.whip ['q']) = some (streamKey ['v'] ['a'] ['s']) ∧
        s.target (.whip ['q']) = some 0 ∧
      s.sources.get ['v'] ['a'] ['s'] = none ∧ ¬Kept s := by
  -- a session whose name is not in the manager any more has lost its source
  have hg : ∀ {as p id n}, (∃ s, runSchedule step .new as = some s ∧ s.publishing p = some id ∧
      s.target p = some n ∧ s.sources.names id = none) → ∃ s, runSchedule step .new as = some s ∧
      s.publishing p = some id ∧ s.target p = some n ∧ s.sources.names id = none ∧ ¬Kept s := by
    rintro as p id n ⟨s, hrun, hp, ht, hid⟩
    refine ⟨s, hrun, hp, ht, hid, fun hk => ?_⟩
    obtain ⟨h, -, hn, -⟩ := hk p id hp
    rw [hid] at hn
    cases hn
  constructor
  · exact hg (by decide +kernel)
  · exact hg (by decide +kernel)

end MediaKit.Server
