import MediaKit.Core.Auth
import MediaKit.Core.MediaSource
import MediaKit.Rtmp.Session
import MediaKit.Rtsp.Session

/-!
# Names of streams

A stream is a vhost, an app and a stream name. Sources and proxies are kept under the three with `/`
between them (`streamKey`), the supervisors take the id apart again (`split_source_id` of
`crates/server/src/main.rs`), and a signature is over the secret, the three and the action with `|`
between them (`generate_sign`). The parts come from the front ends: the URIs of RTSP and RTMP
(`parse_uri`, `parse_tc_url`), and paths and queries of the WebRTC server (`resolve_stream`).

Main result: `names_identified`. As long as vhost and app have neither of the two separators, a name
is never taken for another. RTSP and RTMP cut the app at the first `/`, and so do the paths of the
WebRTC server; a query can have a `/` anywhere.

Mirroring notes vs the Rust source:
- `parse_query` fills a `HashMap`: a key that comes twice has its last value.
- `sha256` is a parameter, as in `MediaKit.Core.Auth`. That two names share an authorisation is said
  up to a collision of it. -/

namespace MediaKit.Server

open MediaKit.Core Lib List Option

structure SourceName where
  vhost : Str
  app : Str
  stream : Str
  deriving DecidableEq

namespace SourceName

def key (c : SourceName) : Str := streamKey c.vhost c.app c.stream

def Full (c : SourceName) : Prop := c.vhost ≠ [] ∧ c.app ≠ [] ∧ c.stream ≠ []

/-- Neither separator is in the vhost or the app. -/
def Plain (c : SourceName) : Prop := ('/' ∉ c.vhost ∧ '/' ∉ c.app) ∧ '|' ∉ c.vhost ∧ '|' ∉ c.app

instance (c : SourceName) : Decidable c.Plain := inferInstanceAs (Decidable (_ ∧ _))

end SourceName

variable {c c' : SourceName}
  {action action' secret sign : Str} {sha256 : Bytes → Str}

def splitSourceId (id : Str) : Option SourceName :=
  match splitThree '/' id with
  | some (vhost, app, stream) =>
    if vhost.isEmpty || app.isEmpty || stream.isEmpty then none else some ⟨vhost, app, stream⟩
  | none => none

/-! ## Front ends -/

/-- `parse_query` of the WebRTC server. -/
def parseQuery (q : Str) : List (Str × Str) :=
  (q.splitOn '&').filterMap fun pair => (splitOnce '=' pair).map fun p =>
    (p.1, p.2.map fun c => if c = '+' then ' ' else c)

/-- `query.get(key)`. -/
def queryGet (query : List (Str × Str)) (key : Str) : Option Str := query.reverse.lookup key

def publishSegments (path : Str) : List Str :=
  ((trimEnd '/' (trimStartMatches "/webrtc/publish/" path)).splitOn '/').filter fun seg =>
    !seg.isEmpty

def resolveStream (segs : List Str) (query : List (Str × Str)) : SourceName :=
  match segs with
  | vhost :: app :: stream :: _ => ⟨vhost, app, stream⟩
  | _ =>
    ⟨(queryGet query "vhost").getD defaultVhost, (queryGet query "app").getD "live",
      (queryGet query "stream").getD []⟩

/-! ## Keys -/

theorem key_inj (hc : c.Plain) (hc' : c'.Plain) (h : c.key = c'.key) : c = c' := by
  obtain ⟨hv, h⟩ := append_cons_inj hc.1.1 hc'.1.1 h
  obtain ⟨ha, hs⟩ := append_cons_inj hc.1.2 hc'.1.2 h
  cases c
  cases c'
  cases hv
  cases ha
  cases hs
  rfl

theorem splitThree_key (hv : '/' ∉ c.vhost) (ha : '/' ∉ c.app) :
    splitThree '/' c.key = some (c.vhost, c.app, c.stream) := by
  simp only [splitThree, SourceName.key, streamKey, splitOnce_append_cons hv, bind_some,
    splitOnce_append_cons ha, map_some]

/-- An id is taken apart into the name that it was made of exactly if the first two parts have no
`/`. -/
theorem splitSourceId_key_iff (hf : c.Full) :
    splitSourceId c.key = some c ↔ '/' ∉ c.vhost ∧ '/' ∉ c.app := by
  constructor
  · intro h
    unfold splitSourceId splitThree at h
    split at h
    case h_2 => cases h
    case h_1 vhost app stream hs =>
      obtain ⟨p, hp, hm⟩ := bind_eq_some_iff.mp hs
      obtain ⟨q, hq, heq⟩ := map_eq_some_iff.mp hm
      split at h
      · cases h
      · cases h
        cases heq
        exact ⟨notMem_of_splitOnce hp, notMem_of_splitOnce hq⟩
  · rintro ⟨hv, ha⟩
    obtain ⟨h₁, h₂, h₃⟩ := hf
    simp [splitSourceId, splitThree_key hv ha, h₁, h₂, h₃]

/-! ## Signatures -/

/-- What `generate_sign` hashes. -/
def signText (secret : Str) (parts : List Str) : Bytes :=
  parts.foldl (fun h p => h ++ Utf8.encode "|" ++ Utf8.encode p) (Utf8.encode secret)

theorem signText_eq (secret : Str) (c : SourceName) (action : Str) :
    signText secret [c.vhost, c.app, c.stream, action] =
      Utf8.encode (secret ++ '|' :: (c.vhost ++ '|' ::
        (c.app ++ '|' :: (c.stream ++ '|' :: action)))) := by
  have hc : ∀ s : Str, Utf8.encode ('|' :: s) = Utf8.encode "|" ++ Utf8.encode s := fun s =>
    Utf8.encode_append "|" s
  simp only [signText, foldl_cons, foldl_nil, Utf8.encode_append, hc, append_assoc]

theorem signText_inj (hc : c.Plain) (hc' : c'.Plain)
    (ha : '|' ∉ action) (ha' : '|' ∉ action')
    (h : signText secret [c.vhost, c.app, c.stream, action] =
      signText secret [c'.vhost, c'.app, c'.stream, action']) :
    c = c' := by
  rw [signText_eq, signText_eq] at h
  have h := tail_eq_of_cons_eq (append_cancel_left (Utf8.encode_injective h))
  obtain ⟨hv, h⟩ := append_cons_inj hc.2.1 hc'.2.1 h
  obtain ⟨hap, h⟩ := append_cons_inj hc.2.2 hc'.2.2 h
  -- the stream may have a separator, but the action behind it has none
  have hr := congrArg reverse h
  simp only [reverse_append, reverse_cons, append_assoc] at hr
  obtain ⟨-, hs⟩ := append_cons_inj (mem_reverse.not.mpr ha) (mem_reverse.not.mpr ha') hr
  cases c
  cases c'
  cases hv
  cases hap
  cases reverse_injective hs
  rfl

/-- `validate_sign` accepts the hash alone. -/
theorem eq_of_validateSign {parts : List Str}
    (h : validateSign sha256 secret sign parts = true) : sign = sha256 (signText secret parts) := by
  have hf : ∀ (l : List (UInt8 × UInt8)) (d : UInt8),
    l.foldl (fun diff ab => diff ||| (ab.1 ^^^ ab.2)) d = 0 →
      d = 0 ∧ ∀ ab ∈ l, ab.1 = ab.2 := by
    intro l
    induction l with
    | nil => exact fun d hd => ⟨hd, forall_mem_nil _⟩
    | cons ab l ih =>
      intro d hd
      obtain ⟨hor, hl⟩ := ih _ hd
      obtain ⟨hd, hx⟩ := UInt8.or_eq_zero_iff.mp hor
      exact ⟨hd, forall_mem_cons.mpr ⟨UInt8.xor_eq_zero_iff.mp hx, hl⟩⟩
  simp only [validateSign] at h
  split at h
  · cases h
  case isFalse hlen =>
    have hal := (hf _ 0 (eq_of_beq h)).2
    refine (Utf8.encode_injective (ext_getElem (not_not.mp hlen) fun i hi hj => ?_)).symm
    exact hal _ (mem_iff_getElem.mpr ⟨i, by simp [hi, hj], getElem_zip⟩)

theorem sign_of_check {auth : StreamAuth} (he : auth.enabled = true)
    (h : auth.check sha256 c.vhost c.app c.stream action sign = true) :
    sign = sha256 (signText auth.secret [c.vhost, c.app, c.stream, action]) := by
  simp only [StreamAuth.check, he, Bool.not_true, Bool.false_eq_true, if_false] at h
  split at h
  · cases h
  · exact eq_of_validateSign h

/-- A signature that is good for two names is a collision of the hash. -/
theorem collision_of_check {auth : StreamAuth} (hc : c.Plain) (hc' : c'.Plain) (hne : c ≠ c')
    (ha : '|' ∉ action) (ha' : '|' ∉ action') (hen : auth.enabled = true)
    (h : auth.check sha256 c.vhost c.app c.stream action sign = true)
    (h' : auth.check sha256 c'.vhost c'.app c'.stream action' sign = true) :
    ∃ x y, x ≠ y ∧ sha256 x = sha256 y :=
  ⟨_, _, fun heq => hne (signText_inj hc hc' ha ha' heq),
    (sign_of_check hen h).symm.trans (sign_of_check hen h')⟩

/-- None of the parts that are signed has the separator. -/
def Unsplit (c : SourceName) (action : Str) : Prop :=
  ∀ part ∈ [c.vhost, c.app, c.stream, action], '|' ∉ part

instance (c : SourceName) (action : Str) : Decidable (Unsplit c action) :=
  inferInstanceAs (Decidable (∀ part ∈ _, _))

theorem signText_unsplit (h : Unsplit c action)
    (heq : signText secret [c'.vhost, c'.app, c'.stream, action'] =
      signText secret [c.vhost, c.app, c.stream, action]) :
    c' = c ∧ action' = action := by
  simp only [Unsplit, forall_mem_cons] at h
  obtain ⟨hv, hap, hs, ha, -⟩ := h
  rw [signText_eq, signText_eq] at heq
  have ht := tail_eq_of_cons_eq (append_cancel_left (Utf8.encode_injective heq))
  -- three separators on the right are all there are, so that there is none inside a part on the
  -- left
  have hc := congrArg (count '|') ht
  simp only [count_append, count_cons_self, count_eq_zero_of_not_mem hv,
    count_eq_zero_of_not_mem hap, count_eq_zero_of_not_mem hs, count_eq_zero_of_not_mem ha] at hc
  obtain ⟨hv', ht⟩ := append_cons_inj (count_eq_zero.mp (by omega)) hv ht
  obtain ⟨hap', ht⟩ := append_cons_inj (count_eq_zero.mp (by omega)) hap ht
  obtain ⟨hs', hac⟩ := append_cons_inj (count_eq_zero.mp (by omega)) hs ht
  cases c
  cases c'
  cases hv'
  cases hap'
  cases hs'
  exact ⟨rfl, hac⟩

/-- **A signature is good for one stream and one action exactly if no part of them has a `|`.** -/
theorem sign_authorises_one_iff (hsha : Function.Injective sha256) (secret : Str) (c : SourceName)
    (action : Str) :
    ((∀ c' action', generateSign sha256 secret [c'.vhost, c'.app, c'.stream, action'] =
        generateSign sha256 secret [c.vhost, c.app, c.stream, action] → c' = c ∧ action' = action) ↔
        Unsplit c action) ∧
    (Unsplit c action → ∀ auth : StreamAuth, auth.enabled = true → auth.secret = secret →
      ∀ c' action', auth.check sha256 c'.vhost c'.app c'.stream action'
        (generateSign sha256 secret [c.vhost, c.app, c.stream, action]) = true →
      c' = c ∧ action' = action) := by
  refine ⟨⟨fun h => ?_, fun h c' action' heq => signText_unsplit h (hsha heq)⟩, ?_⟩
  · obtain ⟨vhost, app, stream⟩ := c
    have ho : ∀ v a s act, signText secret [v, a, s, act] =
      signText secret [vhost, app, stream, action] →
        v = vhost ∧ a = app ∧ s = stream := by
      intro v a s act heq
      cases (h ⟨v, a, s⟩ act (congrArg sha256 heq)).1
      exact ⟨rfl, rfl, rfl⟩
    have ht := fun v a s act => signText_eq secret ⟨v, a, s⟩ act
    -- a separator inside a part moves to the border before the part, or behind it for the vhost
    intro part hp hmem
    obtain ⟨x, y, rfl⟩ := append_of_mem hmem
    simp only [mem_cons, not_mem_nil, or_false] at hp
    rcases hp with rfl | rfl | rfl | rfl
    · have := (ho x y app (stream ++ '|' :: action) (by rw [ht, ht]; simp)).1
      simp at this
    · have := (ho (vhost ++ '|' :: x) y stream action (by rw [ht, ht]; simp)).1
      simp at this
    · have := (ho vhost (app ++ '|' :: x) y action (by rw [ht, ht]; simp)).2.1
      simp at this
    · have := (ho vhost app (stream ++ '|' :: x) y (by rw [ht, ht]; simp)).2.2
      simp at this
  · rintro h auth hen rfl c' action' hc
    exact signText_unsplit h (hsha (sign_of_check hen hc).symm)

/-- The signatures of two names under the secret `k`. -/
def camSign : Str := "1d7b5127ba22f9ec21b77292d2154c253986c31428f89f5970fdb283787bf380"
def splitSign : Str := "e8b192a7d9e0a03a3033695e92e7288b7338291e91206d7a08d792a1a33e278e"

/-- SHA-256 of the two texts that are signed so. Every other text is kept as it is, behind a `z`. -/
def signHash (text : Bytes) : Str :=
  if text = Utf8.encode "k|__defaultVhost__|live|cam|pub" then camSign
  else if text = Utf8.encode "k|__defaultVhost__|x|y|play|pub" then splitSign
  else 'z' :: text.map fun b => Char.ofNat b.toNat

theorem signHash_injective : Function.Injective signHash := by
  have hne : camSign ≠ splitSign ∧ camSign.head? ≠ some 'z' ∧ splitSign.head? ≠ some 'z' := by
    decide +kernel
  intro a b h
  unfold signHash at h
  split_ifs at h with ha hb hb ha' hb hb' hb hb'
  · rw [ha, hb]
  · exact absurd h hne.1
  · exact absurd (congrArg head? h) hne.2.1
  · exact absurd h.symm hne.1
  · rw [ha', hb']
  · exact absurd (congrArg head? h) hne.2.2
  · exact absurd (congrArg head? h.symm) hne.2.1
  · exact absurd (congrArg head? h.symm) hne.2.2
  · refine map_injective_iff.mpr (fun x y hxy => UInt8.toNat_inj.mp ?_) (cons.inj h).2
    have hc : ∀ n < 256, (Char.ofNat n).toNat = n := by decide +kernel
    rw [← hc x.toNat x.toNat_lt, hxy, hc y.toNat y.toNat_lt]

theorem cam_sign_authorises_one : Unsplit ⟨defaultVhost, "live", "cam"⟩ "pub" ∧
    ∀ (c' : SourceName) action', generateSign signHash ['k']
      [c'.vhost, c'.app, c'.stream, action'] = camSign →
      c' = ⟨defaultVhost, "live", "cam"⟩ ∧ action' = "pub" := by
  have h : Unsplit ⟨defaultVhost, "live", "cam"⟩ "pub" := by decide
  have ho := (sign_authorises_one_iff signHash_injective ['k']
    ⟨defaultVhost, "live", "cam"⟩ "pub").1.mpr h
  have hs : camSign = generateSign signHash ['k'] [defaultVhost, "live", "cam", "pub"] := by
    decide +kernel
  exact ⟨h, fun c' action' heq => ho c' action' (heq.trans hs)⟩

/-- The signature for `play` of the app `x|y` is good for `y|play` of the app `x`. -/
theorem sign_authorises_two :
    generateSign signHash ['k'] [defaultVhost, "x|y", "play", "pub"] = splitSign ∧
    (StreamAuth.mk true ['k'] none []).check signHash defaultVhost ['x'] "y|play" "pub" splitSign =
      true := by
  decide +kernel

/-! ## Sources -/

/-- The name in the fields of a source. -/
def sourceName (src : MediaSource) : SourceName := ⟨src.vhost, src.app, src.stream⟩

/-- A sequence of `get_or_create` calls, and the sources that they return. -/
def createAll (m : SourceManager) : List SourceName → SourceManager × List Nat
  | [] => (m, [])
  | c :: cs =>
    let r := m.getOrCreate c.vhost c.app c.stream
    let rs := createAll r.1 cs
    (rs.1, r.2 :: rs.2)

def getName (m : SourceManager) (c : SourceName) : Option Nat := m.get c.vhost c.app c.stream

/-- What the calls and everything that looks names up may rely on, with all names plain. -/
structure Identified (calls : List SourceName) : Prop where
  /-- What a call has returned is what `get` finds. -/
  returned : ∀ p ∈ calls.zip (createAll .empty calls).2,
    getName (createAll .empty calls).1 p.1 = some p.2
  /-- What is found has the name that was asked for, in its fields and in its id. -/
  exact : ∀ c : SourceName, c.Plain → ∀ h, getName (createAll .empty calls).1 c = some h →
    ∃ src, (createAll .empty calls).1.heap h = some src ∧ sourceName src = c ∧
    (c.Full → splitSourceId src.id = some c)
  /-- Two names share no source, no proxy and no authorisation. -/
  apart : ∀ c c' : SourceName, c.Plain → c'.Plain → c ≠ c' →
    (∀ h, getName (createAll .empty calls).1 c = some h → getName (createAll .empty calls).1 c' ≠
      some h) ∧ c.key ≠ c'.key ∧
    ∀ (sha256 : Bytes → Str) (auth : StreamAuth) (action action' sign : Str), '|' ∉ action →
      '|' ∉ action' →
      auth.enabled = true → auth.check sha256 c.vhost c.app c.stream action sign = true →
      auth.check sha256 c'.vhost c'.app c'.stream action' sign = true → ∃ x y, x ≠ y ∧
        sha256 x = sha256 y

theorem createAll_keeps {id : Str} {h : Nat} :
    ∀ (cs : List SourceName) (m : SourceManager), m.names id = some h →
    (createAll m cs).1.names id = some h := by
  intro cs
  induction cs with
  | nil => exact fun m hm => hm
  | cons c cs ih =>
    intro m hm
    refine ih _ ?_
    by_cases hid : id = streamKey c.vhost c.app c.stream
    · subst hid
      have hf : m.getOrCreate c.vhost c.app c.stream = (m, h) := m.getOrInsert_of_some hm
      rw [hf]
      exact hm
    · exact ((m.getOrInsert_spec (.new c.vhost c.app c.stream)).2.1 id hid).trans hm

theorem createAll_returned : ∀ (cs : List SourceName) (m : SourceManager),
    ∀ p ∈ cs.zip (createAll m cs).2, getName (createAll m cs).1 p.1 = some p.2 := by
  intro cs
  induction cs with
  | nil => exact fun m => forall_mem_nil _
  | cons c cs ih =>
    intro m p hp
    rcases mem_cons.mp hp with rfl | hp
    · exact createAll_keeps cs _ (m.getOrInsert_spec (.new c.vhost c.app c.stream)).1
    · exact ih _ p hp

theorem createAll_plain : ∀ {cs : List SourceName} (m : SourceManager), (∀ c ∈ cs, c.Plain) →
    (∀ h src, m.heap h = some src → (sourceName src).Plain) →
    ∀ h src, (createAll m cs).1.heap h = some src → (sourceName src).Plain := by
  intro cs
  induction cs with
  | nil => exact fun m _ hm => hm
  | cons c cs ih =>
    intro m hcs hm
    refine ih _ (fun d hd => hcs d (mem_cons_of_mem _ hd)) fun h src hs => ?_
    cases hk : m.names (streamKey c.vhost c.app c.stream) with
    | some n =>
      have hf : m.getOrCreate c.vhost c.app c.stream = (m, n) := m.getOrInsert_of_some hk
      rw [hf] at hs
      exact hm h src hs
    | none =>
      obtain ⟨-, -, hold, -, hnw⟩ := m.getOrInsert_spec (.new c.vhost c.app c.stream)
      by_cases hlt : h < m.next
      · exact hm h src ((hold h hlt).symm.trans hs)
      · -- the one new source has the name of the call
        have hh : h = m.next := by
          have := (m.getOrCreate c.vhost c.app c.stream).1.lt_next hs
          have hnx : (m.getOrCreate c.vhost c.app c.stream).1.next = m.next + 1 :=
            (m.getOrInsert_of_none hk).2
          omega
        have hnw := hnw hk
        rw [(m.getOrInsert_of_none hk).1, ← hh] at hnw
        cases hnw.symm.trans hs
        exact hcs c (mem_cons_self ..)

/-- **Names are never taken for one another**, if no call has a separator in its vhost or app; and
without that an id is not even taken apart into its name. -/
theorem names_identified (calls : List SourceName) : ((∀ c ∈ calls, c.Plain) → Identified calls) ∧
      ∀ c : SourceName, c.Full → (splitSourceId c.key = some c ↔ '/' ∉ c.vhost ∧ '/' ∉ c.app) := by
  refine ⟨fun hp => ?_, fun c hfl => splitSourceId_key_iff hfl⟩
  have hfn : ∀ c : SourceName, c.Plain → ∀ h, getName (createAll .empty calls).1 c = some h →
      ∃ src, (createAll .empty calls).1.heap h = some src ∧ sourceName src = c ∧
      (c.Full → splitSourceId src.id = some c) := by
    intro c hc h hg
    obtain ⟨src, hsr, hid⟩ := (createAll .empty calls).1.named _ h hg
    have hsP := createAll_plain .empty hp (fun _ _ hno => by cases hno) h src hsr
    have hnm : sourceName src = c := key_inj hsP hc (src.id_eq.symm.trans hid)
    refine ⟨src, hsr, hnm, fun hfl => ?_⟩
    rw [hid]
    exact (splitSourceId_key_iff hfl).mpr hc.1
  refine ⟨createAll_returned calls .empty, hfn, fun c c' hc hc' hne =>
    ⟨fun h hg hg' => ?_, fun hk => ?_, ?_⟩⟩
  · obtain ⟨src, hsr, hnm, -⟩ := hfn c hc h hg
    obtain ⟨src', hsr', hnm', -⟩ := hfn c' hc' h hg'
    rw [hsr] at hsr'
    cases hsr'
    exact hne (hnm.symm.trans hnm')
  · exact hne (key_inj hc hc' hk)
  · intro sha256 auth action action' sign ha ha' he hch hch'
    exact collision_of_check hc hc' hne ha ha' he hch hch'

/-- Two streams of one app, one with a `/` in its name. -/
theorem slash_in_stream_identified :
    Identified [⟨defaultVhost, ['x'], "y/z"⟩, ⟨defaultVhost, ['x'], ['y']⟩] :=
  (names_identified _).1 (by decide +kernel)

/-- The query of a WHIP request and the URI of an RTSP client give one id to two names: the second
call gets the source of the first, which has other fields, and the id is taken apart into the wrong
one. With a `|` two names share their signatures. -/
theorem names_collide :
    let whip := resolveStream (publishSegments "/webrtc/publish/") (parseQuery "app=x/y&stream=z")
    let rtsp : SourceName := ⟨defaultVhost, (Rtsp.uriName "rtsp://h/x/y/z").1,
      (Rtsp.uriName "rtsp://h/x/y/z").2⟩
    whip = ⟨defaultVhost, "x/y", ['z']⟩ ∧ rtsp = ⟨defaultVhost, ['x'], "y/z"⟩ ∧ whip ≠ rtsp ∧
    (createAll .empty [whip, rtsp]).2 = [0, 0] ∧
    (((createAll .empty [whip, rtsp]).1.heap 0).map sourceName = some whip) ∧
    splitSourceId whip.key = some rtsp ∧
    signText ['k'] [defaultVhost, "x|y", ['z'], "pub"] =
      signText ['k'] [defaultVhost, ['x'], "y|z", "pub"] ∧
    (Rtmp.parseTcUrl .new "rtmp://h/x|y").app = "x|y" := by
  decide +kernel

end MediaKit.Server
