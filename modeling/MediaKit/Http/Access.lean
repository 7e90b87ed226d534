import Mathlib.Data.List.Forall2
import MediaKit.Http.Session

/-!
# HTTP playback and authorisation

Which streams a response can depend on. Two states of the server are the same for a
request (`SameFor`) when they differ at most in the media of streams that the request
is not authorised for; a request is confined (`Confined`) when the responses in all
such states are equal.

The handlers are programs of lookups (`Reading`). A reading leaks (`Leaks`) when a
lookup that it really makes finds media or cache entries of a stream that the request
may not play. The result: a request is confined exactly when its reading does not
leak (`confined_iff`). Two kinds of lookups can: `handle_dash_init` looks into the
cache of CMAF init segments before its check; and with a `/` in a host or an
application name, `a/b` + `c` and `a` + `b/c` are the same key.
-/

namespace MediaKit.Http

open Lib MediaKit.Core List

variable {F T M : Type} (mux : Muxers F T M) (sha256 : Bytes → Str)

/-! ## Two states -/

open World

/-- The same source, with the same media if the request may play it. -/
structure SameSource (w : World) (sign : Str) (s s' : MediaSource) : Prop where
  vhost : s'.vhost = s.vhost
  name : s'.name = s.name
  media : w.authorised sha256 sign s.name = true → s'.media = s.media

/-- All sources under a url are ones that the request may play. -/
def AllAuthorised (w : World) (sign url : Str) : Prop :=
  ∀ s ∈ w.sources ++ w.pulled, s.url = url → w.authorised sha256 sign s.name = true

/-- The states differ only in the media of streams that the request is not authorised
for: in what those sources hold, and in what the caches hold under their urls. -/
structure SameFor (sign : Str) (w w' : World) : Prop where
  auth : w'.auth = w.auth
  onPlay : w'.onPlay = w.onPlay
  onHttpAccess : w'.onHttpAccess = w.onHttpAccess
  sources : Forall₂ (SameSource sha256 w sign) w.sources w'.sources
  pulled : Forall₂ (SameSource sha256 w sign) w.pulled w'.pulled
  caches : ∀ url, AllAuthorised sha256 w sign url → w'.cachesOf url = w.cachesOf url

/-- The response does not depend on the media of streams that the request is not
authorised for. -/
def Confined (w : World) (path : Str) : Prop :=
  ∀ w', SameFor sha256 (signOf path) w w' →
    respond mux sha256 w' path = respond mux sha256 w path

/-! ## Leaks -/

namespace Reading

/-- A lookup that is made finds media of a stream that the request may not play, and
the response is made from them; or it finds cache entries under the url of such a
stream. -/
def Leaks (w : World) (sign : Str) : Reading → Prop
  | answer _ => False
  | media how n serve => ∃ s, w.find how n = some s ∧
      w.authorised sha256 sign s.name = false ∧ ∃ m m', serve m ≠ serve m'
  | caches how n next =>
    (∃ s, w.find how n = some s ∧ ¬ AllAuthorised sha256 w sign s.url) ∨
      (next ((w.find how n).map fun s => w.cachesOf s.url)).Leaks w sign

/-- The caches matter wherever they are looked at: two contents give two answers. -/
def Telling : Reading → Prop
  | answer _ | media _ _ _ => True
  | caches _ _ next => (∃ c c' b b', next (some c) = answer b ∧ next (some c') = answer b' ∧
      b ≠ b') ∧ ∀ found, (next found).Telling

end Reading

/-- A lookup that the request makes finds what it may not play. -/
def LeakyRequest (w : World) (path : Str) : Prop :=
  ∃ r ∈ request mux sha256 w path, r.Leaks sha256 w (signOf path)

/-! ## Lookups in two states -/

section Lookups

variable {sha256} {sign : Str} {w w' : World} {n : StreamName}

theorem SameFor.authorised (h : SameFor sha256 sign w w') (sign' : Str) (n : StreamName) :
    w'.authorised sha256 sign' n = w.authorised sha256 sign' n := by
  rw [World.authorised, World.authorised, h.auth]

theorem SameSource.id {s s' : MediaSource} (h : SameSource sha256 w sign s s') : s'.id = s.id := by
  rw [MediaSource.id, MediaSource.id, h.name, h.vhost]

theorem find?_same {l l' : List MediaSource} (h : Forall₂ (SameSource sha256 w sign) l l')
    (id : Str) :
    l.find? (fun s => s.id == id) = none ∧ l'.find? (fun s => s.id == id) = none ∨
      ∃ s s', l.find? (fun s => s.id == id) = some s ∧ l'.find? (fun s => s.id == id) = some s' ∧
        SameSource sha256 w sign s s' := by
  induction h with
  | nil => exact .inl ⟨rfl, rfl⟩
  | @cons s s' l l' hs _ ih =>
    rw [find?_cons, find?_cons, hs.id]
    cases s.id == id with
    | true => exact .inr ⟨s, s', rfl, rfl, hs⟩
    | false => exact ih

/-- A lookup finds the same source in both states, or none in either. -/
theorem find_same (h : SameFor sha256 sign w w') (how : Lookup) (n : StreamName) :
    w.find how n = none ∧ w'.find how n = none ∨
      ∃ s s', w.find how n = some s ∧ w'.find how n = some s' ∧
        SameSource sha256 w sign s s' := by
  cases how with
  | get => exact find?_same h.sources _
  | getOrPull => exact find?_same (rel_append h.sources h.pulled) _

/-- Behind a lookup that finds only what may be played, the caches are equal. -/
theorem cachesOf_same (h : SameFor sha256 sign w w') {how : Lookup}
    (hn : ∀ s, w.find how n = some s → AllAuthorised sha256 w sign s.url) :
    ((w'.find how n).map fun s => w'.cachesOf s.url) =
      (w.find how n).map fun s => w.cachesOf s.url := by
  rcases find_same h how n with ⟨h₁, h₂⟩ | ⟨s, s', h₁, h₂, hs⟩
  · rw [h₁, h₂]
    rfl
  · have hu : s'.url = s.url := by rw [MediaSource.url, MediaSource.url, hs.name]
    rw [h₁, h₂, Option.map_some, Option.map_some, hu, h.caches s.url (hn s h₁)]

end Lookups

/-! ## A reading that does not leak -/

theorem Reading.run_same {sign : Str} {w w' : World} (h : SameFor sha256 sign w w') (r : Reading)
    (hr : ¬ r.Leaks sha256 w sign) : r.run w' = r.run w := by
  induction r with
  | answer => rfl
  | media how n serve =>
    rw [run, run]
    rcases find_same h how n with ⟨h₁, h₂⟩ | ⟨s, s', h₁, h₂, hs⟩
    · rw [h₁, h₂]
    · rw [h₁, h₂, Option.map_some, Option.map_some]
      cases ha : w.authorised sha256 sign s.name with
      | true => rw [hs.media ha]
      | false =>
        -- the response is not made from the media
        have hsr : serve s'.media = serve s.media := by
          by_contra hne
          exact hr ⟨s, h₁, ha, _, _, hne⟩
        rw [hsr]
  | caches how n next ih =>
    obtain ⟨hf, hnx⟩ := not_or.mp hr
    have hal : ∀ s, w.find how n = some s → AllAuthorised sha256 w sign s.url := by
      intro s hs
      by_contra hne
      exact hf ⟨s, hs, hne⟩
    rw [run, run, cachesOf_same h hal]
    exact ih _ hnx

/-! ## A reading that leaks -/

section Leaking

variable {sha256} {sign : Str} {w : World} {n : StreamName}

theorem SameSource.refl (w : World) (sign : Str) (s : MediaSource) : SameSource sha256 w sign s s :=
  ⟨rfl, rfl, fun _ => rfl⟩

/-- The state with other entries in the caches under a url. -/
def withCaches (w : World) (url : Str) (c : Caches) : World :=
  { w with
    hlsSegments := fun u => if u = url then c.hls else w.hlsSegments u
    cmafSegments := fun u => if u = url then c.cmaf else w.cmafSegments u
    cmafInitCache := fun u => if u = url then c.cmafInit else w.cmafInitCache u
    dashSegments := fun u => if u = url then c.dash else w.dashSegments u }

theorem cachesOf_withCaches (w : World) (url : Str) (c : Caches) :
    (withCaches w url c).cachesOf url = c := by
  simp [withCaches, cachesOf]

theorem sameFor_withCaches {url : Str} (h : ¬ AllAuthorised sha256 w sign url) (c : Caches) :
    SameFor sha256 sign w (withCaches w url c) where
  auth := rfl
  onPlay := rfl
  onHttpAccess := rfl
  sources := forall₂_same.mpr fun s _ => SameSource.refl w sign s
  pulled := forall₂_same.mpr fun s _ => SameSource.refl w sign s
  caches u hu := by
    have hne : u ≠ url := fun he => h (he ▸ hu)
    simp [withCaches, cachesOf, hne]

/-- A source that the request may not play, with other media. -/
def replaced (sha256 : Bytes → Str) (w : World) (sign : Str) (m : Media) (s : MediaSource) :
    MediaSource :=
  if w.authorised sha256 sign s.name then s else { s with media := m }

theorem sameSource_replaced (m : Media) (s : MediaSource) :
    SameSource sha256 w sign s (replaced sha256 w sign m s) := by
  unfold replaced
  split
  next => exact SameSource.refl w sign s
  next h => exact ⟨rfl, rfl, fun ha => absurd ha h⟩

/-- The state with other media in the sources that the request may not play. -/
def withMedia (sha256 : Bytes → Str) (w : World) (sign : Str) (m : Media) : World :=
  { w with
    sources := w.sources.map (replaced sha256 w sign m)
    pulled := w.pulled.map (replaced sha256 w sign m) }

theorem sameFor_withMedia (m : Media) : SameFor sha256 sign w (withMedia sha256 w sign m) where
  auth := rfl
  onPlay := rfl
  onHttpAccess := rfl
  sources := forall₂_map_right_iff.mpr (forall₂_same.mpr fun s _ => sameSource_replaced m s)
  pulled := forall₂_map_right_iff.mpr (forall₂_same.mpr fun s _ => sameSource_replaced m s)
  caches _ _ := rfl

theorem find_withMedia (how : Lookup) (m : Media) :
    (withMedia sha256 w sign m).find how n = (w.find how n).map (replaced sha256 w sign m) := by
  have hr : (withMedia sha256 w sign m).reach how =
      (w.reach how).map (replaced sha256 w sign m) := by
    cases how with
    | get => rfl
    | getOrPull => exact map_append.symm
  have hid : (fun s : MediaSource => s.id == n.id defaultVhost) ∘ replaced sha256 w sign m =
      fun s => s.id == n.id defaultVhost :=
    funext fun s => congrArg (· == _) (sameSource_replaced m s).id
  rw [find, find, hr, find?_map, hid]

/-- Some state that is the same for the request gives another response. -/
theorem Reading.exists_run_ne {r : Reading} (ht : r.Telling) (hr : r.Leaks sha256 w sign) :
    ∃ w', SameFor sha256 sign w w' ∧ r.run w' ≠ r.run w := by
  -- of two states with different responses, one differs from the state at hand
  have hp {w₁ w₂ : World} {r : Reading} (h₁ : SameFor sha256 sign w w₁)
      (h₂ : SameFor sha256 sign w w₂) (hne : r.run w₁ ≠ r.run w₂) :
      ∃ w', SameFor sha256 sign w w' ∧ r.run w' ≠ r.run w := by
    by_cases h : r.run w₁ = r.run w
    · exact ⟨w₂, h₂, fun he => hne (h.trans he.symm)⟩
    · exact ⟨w₁, h₁, h⟩
  induction r with
  | answer => exact hr.elim
  | media how n serve =>
    obtain ⟨s, hs, ha, m, m', hne⟩ := hr
    refine hp (sameFor_withMedia m) (sameFor_withMedia m') ?_
    simpa [run, find_withMedia, hs, replaced, ha] using hne
  | caches how n next ih =>
    by_cases hfd : ∃ s, w.find how n = some s ∧ ¬ AllAuthorised sha256 w sign s.url
    · obtain ⟨s, hs, hal⟩ := hfd
      obtain ⟨c, c', b, b', hc, hc', hne⟩ := ht.1
      refine hp (sameFor_withCaches hal c) (sameFor_withCaches hal c') ?_
      have hrun (c : Caches) : (caches how n next).run (withCaches w s.url c) =
          (next (some c)).run (withCaches w s.url c) := by
        have hfn : (withCaches w s.url c).find how n = some s := by
          rw [← hs]
          cases how <;> rfl
        rw [run, hfn, Option.map_some, cachesOf_withCaches]
      rw [hrun, hrun, hc, hc']
      exact hne
    · obtain ⟨w', h, hne⟩ := ih _ (ht.2 _) (hr.resolve_left hfd)
      refine ⟨w', h, ?_⟩
      rw [run, run, cachesOf_same h fun s hs => by
        by_contra hal
        exact hfd ⟨s, hs, hal⟩]
      exact hne

end Leaking

/-! ## The caches matter to every handler that reads them -/

section TellingHandlers

variable {n : StreamName}

theorem sendBody_ne (contentType origin cacheControl : String) {b b' : Bytes}
    (hlen : b.length = b'.length) (hne : b ≠ b') :
    sendBody contentType origin cacheControl b ≠ sendBody contentType origin cacheControl b' := by
  intro h
  rw [sendBody, sendBody, hlen] at h
  exact hne (append_cancel_left h)

theorem telling_cachedOr {how : Lookup} {pick : Caches → Option Bytes} {rest : Reading}
    {b b' : Bytes} (c c' : Caches) (hc : pick c = some b) (hc' : pick c' = some b') (hne : b ≠ b')
    (hr : rest.Telling) : (Reading.cachedOr how n pick rest).Telling := by
  refine ⟨⟨c, c', b, b', ?_, ?_, hne⟩, fun found => ?_⟩
  · dsimp only [Option.bind_some]
    rw [hc]
    rfl
  · dsimp only [Option.bind_some]
    rw [hc']
    rfl
  · dsimp only
    cases found.bind pick with
    | none => exact hr
    | some => trivial

theorem telling_checked {w : World} {sign : Str} {r : Reading} (h : r.Telling) :
    (checked sha256 w sign n r).Telling := by
  unfold checked
  split
  next => trivial
  next => exact h

theorem telling_hookChecked {w : World} {sign : Str} {r : Reading} (h : r.Telling) :
    (hookChecked sha256 w sign n r).Telling := by
  unfold hookChecked
  split
  next => trivial
  next => exact telling_checked sha256 h

/-- A cache with one HLS and one CMAF segment. -/
def oneSegment (seg : HlsSegment) : Caches := ⟨some [seg], some [seg], none, none⟩

theorem segmentOf_one (send : Bytes → Bytes) (idx : Nat) (data : Bytes) :
    segmentOf send idx (some [⟨idx, 0, data⟩]) = some (send data) := by
  simp [segmentOf]

theorem telling_handleDashSegment (w : World) (path : Str) :
    (handleDashSegment sha256 w path).Telling := by
  unfold handleDashSegment
  split
  next => trivial
  next =>
    exact telling_checked sha256 (telling_cachedOr ⟨none, none, none, some [[0]]⟩
      ⟨none, none, none, some [[1]]⟩ rfl rfl (sendBody_ne _ _ _ rfl (by decide)) trivial)

theorem telling_segmentOf {how : Lookup} {idx : Nat} {rest : Reading}
    (contentType origin cacheControl : String) (segments : Caches → Option (List HlsSegment))
    (hs : ∀ seg, segments (oneSegment seg) = some [seg]) (hr : rest.Telling) :
    (Reading.cachedOr how n (fun c => segmentOf (sendBody contentType origin cacheControl) idx
      (segments c)) rest).Telling := by
  have hp (data : Bytes) : segmentOf (sendBody contentType origin cacheControl) idx
      (segments (oneSegment ⟨idx, 0, data⟩)) =
        some (sendBody contentType origin cacheControl data) := by
    rw [hs, segmentOf_one]
  exact telling_cachedOr _ _ (hp [0]) (hp [1]) (sendBody_ne _ _ _ rfl (by decide)) hr

/-- Playlists that begin with segment 1 and with segment 2 differ. -/
theorem telling_playlist {how : Lookup} (contentType origin cacheControl : String)
    (playlist : Caches → Str) (front : Str) (rest : Nat → Str)
    (hp : ∀ i, playlist (oneSegment ⟨i, 0, []⟩) = front ++ (Muxers.mediaSequence i ++ rest i))
    (hr : (Utf8.encode (rest 1)).length = (Utf8.encode (rest 2)).length) :
    (Reading.cachedOr how n (fun c => some (sendBody contentType origin cacheControl
      (Utf8.encode (playlist c)))) (.answer send404)).Telling := by
  have hlen : (Utf8.encode (Muxers.mediaSequence 1)).length =
      (Utf8.encode (Muxers.mediaSequence 2)).length := by decide +kernel
  refine telling_cachedOr (oneSegment ⟨1, 0, []⟩) (oneSegment ⟨2, 0, []⟩) rfl rfl
    (sendBody_ne _ _ _ ?_ fun h => ?_) trivial
  · simp only [hp, Utf8.encode_append, length_append, hlen, hr]
  · rw [hp, hp] at h
    cases append_cancel_left (Utf8.encode_injective h)

theorem length_playlistEntries (pre suf : String) :
    (Utf8.encode (mux.playlistEntries n pre suf [⟨1, 0, []⟩])).length =
      (Utf8.encode (mux.playlistEntries n pre suf [⟨2, 0, []⟩])).length := by
  have hlen : (Utf8.encode (decimal 1)).length = (Utf8.encode (decimal 2)).length := by decide
  simp only [Muxers.playlistEntries, flatMap_cons, Utf8.encode_append, length_append, hlen,
    flatMap_nil]

theorem telling_handle (w : World) (path : Str) (handler : Handler) :
    (handle mux sha256 w path handler).Telling := by
  cases handler with
  | flv | ts | fmp4 => exact telling_hookChecked sha256 trivial
  | mpd => exact telling_checked sha256 trivial
  | segment =>
    have hd := telling_handleDashSegment sha256 w path
    rw [handle, handleCmafSegment]
    split
    next => exact hd
    next =>
      split
      next => exact hd
      next => exact telling_segmentOf _ _ _ Caches.cmaf (fun _ => rfl) hd
  | dashInit =>
    rw [handle, handleDashInit]
    split
    next =>
      exact telling_cachedOr ⟨none, none, some (some [0]), none⟩
        ⟨none, none, some (some [1]), none⟩ rfl rfl (sendBody_ne _ _ _ rfl (by decide))
        (telling_checked sha256 trivial)
    next => exact telling_checked sha256 trivial
  | cmafPlaylist =>
    have has (p m x u y e : Str) :
        p ++ (m ++ x ++ u ++ y ++ e) = p ++ (m ++ (x ++ u ++ y ++ e)) := by
      simp only [append_assoc]
    rw [handle, handleCmafPlaylist]
    refine telling_hookChecked sha256 (telling_playlist _ _ _
      (fun c => mux.buildCmafPlaylist (cmafName path) (c.cmaf.getD [])) _ (fun i => _)
      (fun i => has _ _ _ _ _ (mux.playlistEntries _ _ _ [⟨i, 0, []⟩])) ?_)
    simp only [Utf8.encode_append, length_append, length_playlistEntries]
  | hlsPlaylist =>
    rw [handle, handleHlsPlaylist]
    refine telling_hookChecked sha256 (telling_playlist _ _ _
      (fun c => mux.hlsPlaylist (hlsName path) (c.hls.getD [])) _ (fun i => _) (fun i => rfl) ?_)
    exact length_playlistEntries mux _ _
  | hlsSegment =>
    rw [handle, handleHlsSegment]
    split
    next => trivial
    next =>
      dsimp only
      refine telling_hookChecked sha256 ?_
      split
      next => trivial
      next => exact telling_segmentOf _ _ _ Caches.hls (fun _ => rfl) trivial

end TellingHandlers

/-! ## Confined requests -/

variable {path : Str} {w : World}

/-- The checks and hooks, and so the lookups, are the same in both states. -/
theorem request_same {w' : World} (h : SameFor sha256 (signOf path) w w') :
    request mux sha256 w' path = request mux sha256 w path := by
  have hh (handler : Handler) :
      handle mux sha256 w' path handler = handle mux sha256 w path handler := by
    cases handler <;> simp only [handle, handleFlvStream, handleTsStream, handleFmp4Stream,
      handleLive, handleDashMpd, handleCmafSegment, handleDashSegment, handleDashInit,
      handleCmafPlaylist, handleHlsPlaylist, handleHlsSegment, hookChecked, checked, h.authorised,
      h.onPlay]
  simp only [request, h.onHttpAccess, hh]

theorem telling_request {r : Reading} (hr : r ∈ request mux sha256 w path) : r.Telling := by
  obtain ⟨handler, -, rfl⟩ := Option.map_eq_some_iff.mp hr
  split
  next => trivial
  next => exact telling_handle mux sha256 w path handler

theorem not_confined_of_leakyRequest (hl : LeakyRequest mux sha256 w path) :
    ¬ Confined mux sha256 w path := by
  intro hc
  obtain ⟨r, hr, hlk⟩ := hl
  obtain ⟨w', h, hne⟩ := Reading.exists_run_ne (telling_request mux sha256 hr) hlk
  have hrs := hc w' h
  rw [respond, respond, request_same mux sha256 h, Option.mem_def.mp hr] at hrs
  exact hne (Option.some.inj hrs)

/-- **A response depends only on media that the request is authorised for, exactly
when no lookup that the request makes finds media or cache entries of a stream that
it may not play.** -/
theorem confined_iff (w : World) (path : Str) :
    Confined mux sha256 w path ↔ ¬ LeakyRequest mux sha256 w path := by
  constructor
  · intro hc hl
    exact not_confined_of_leakyRequest mux sha256 hl hc
  · intro hl w' h
    rw [respond, respond, request_same mux sha256 h]
    refine Option.map_congr fun r hr => Reading.run_same sha256 h r fun hlk => ?_
    exact hl ⟨r, hr, hlk⟩

/-! ## Two requests that are not confined -/

namespace Sample

/-- The secret is `secret`, and no hook objects. -/
def world (sources : List MediaSource) : World where
  auth := ⟨true, "secret", none, []⟩
  onPlay _ _ := true
  onHttpAccess _ := true
  sources := sources
  pulled := []
  hlsSegments _ := none
  cmafSegments _ := none
  cmafInitCache _ := none
  dashSegments _ := none

def media : Media := ⟨[], GopCache.new, []⟩

/-- SHA-256 where the samples need it. -/
def hash (b : Bytes) : Str :=
  if b = Utf8.encode "secret|__defaultVhost__|a|b/c|play" then
    "3484943e2be20652310195eab2c48af020caf1de655c4745329c7e74a48323d5"
  else if b = Utf8.encode "secret|__defaultVhost__|a/b|c|play" then
    "a3fd88e9ec20c83f73d5eb5034505cedb1e01b29e99ebfae000e7c8d41d2e315"
  else []

/-- Muxers without output; the samples need `4.000` for the duration of a segment. -/
def silent : Muxers Unit Unit Unit where
  flvNew := ()
  flvHeader _ := ([], ())
  flvMetadata _ _ _ := ([], ())
  flvTag _ _ := some ([], ())
  tsNew := ()
  tsPush _ _ := ([], ())
  mp4New := ()
  mp4Push _ _ := ()
  mp4Init _ := ([], ())
  mp4Flush _ := (none, ())
  buildMpd _ _ _ _ := []
  seconds _ := "4.000"

/-- A camera, asked for its init segment without a signature. -/
def camera : MediaSource := ⟨defaultVhost, ⟨"live", "cam"⟩, media⟩

def cameraInit : Str := "/live/cam/init.mp4"

/-- A source whose application is `a/b`, asked for as `b/c` of `a`, with the signature
for that. -/
def nested : MediaSource := ⟨defaultVhost, ⟨"a/b", "c"⟩, media⟩

def nestedPlaylist : Str :=
  "/a/b/c.m3u8?sign=3484943e2be20652310195eab2c48af020caf1de655c4745329c7e74a48323d5"

theorem leaky_camera : LeakyRequest silent hash (world [camera]) cameraInit := by
  have hr : handlerOf (routeOf cameraInit) = some .dashInit := by decide +kernel
  have hn : initCacheName cameraInit = some camera.name := by decide +kernel
  refine ⟨handleDashInit silent hash (world [camera]) cameraInit, ?_, ?_⟩
  · rw [request, hr]
    exact congrArg some (if_neg fun h => h.2 rfl)
  · rw [handleDashInit, hn]
    refine .inl ⟨camera, by decide +kernel, fun hal => ?_⟩
    have hy := hal camera (mem_singleton.mpr rfl) rfl
    cases hy

theorem leaky_nested : LeakyRequest silent hash (world [nested]) nestedPlaylist := by
  have hr : handlerOf (routeOf nestedPlaylist) = some .hlsPlaylist := by decide +kernel
  have hy : (world [nested]).authorised hash (signOf nestedPlaylist) (hlsName nestedPlaylist) =
      true := by decide +kernel
  -- the application is part of what is signed
  have hn : (world [nested]).authorised hash (signOf nestedPlaylist) nested.name = false := by
    decide +kernel
  refine ⟨handleHlsPlaylist silent hash (world [nested]) nestedPlaylist, ?_, ?_⟩
  · rw [request, hr]
    exact congrArg some (if_neg fun h => h.2 rfl)
  · rw [handleHlsPlaylist, hookChecked, checked, hy]
    refine .inl ⟨nested, by decide +kernel, fun hal => ?_⟩
    rw [hal nested (mem_singleton.mpr rfl) rfl] at hn
    cases hn

end Sample

/-- The cached init segment of a stream is sent without a signature; and the playlist
of `a/b` + `c` is sent to a request that may play `a` + `b/c`. -/
theorem not_confined_samples :
    ((Sample.world [Sample.camera]).auth.enabled = true ∧
      ¬ Confined Sample.silent Sample.hash (Sample.world [Sample.camera]) Sample.cameraInit) ∧
    ((Sample.world [Sample.nested]).auth.enabled = true ∧
      ¬ Confined Sample.silent Sample.hash (Sample.world [Sample.nested])
        Sample.nestedPlaylist) :=
  ⟨⟨rfl, not_confined_of_leakyRequest _ _ Sample.leaky_camera⟩,
    rfl, not_confined_of_leakyRequest _ _ Sample.leaky_nested⟩

end MediaKit.Http
