import Mathlib.Data.List.Induction
import MediaKit.Core.Auth
import MediaKit.Rtsp.Session

/-!
# Authentication in an RTSP session

`crates/rtsp/src/session.rs`: `is_authenticated` and `auth_reject`, which DESCRIBE,
PLAY and ANNOUNCE call. A session draws its nonce once; `auth_reject` negotiates the
realm and sends the nonce in a challenge.

Mirroring notes vs the Rust source:
  * A step is one call of `is_authenticated` and, if that fails, of `auth_reject`. What
    `parse_uri` has kept and the answer of the hook `on_rtsp_realm` (`none` also when no
    hook is set) are part of its input.
  * `issued` is a ghost: the nonces of the challenges that were sent.
  * `check_basic` is a parameter.
  * The source looks for the `Authorization` header in the order of a `HashMap`; with
    headers that differ only in case the model takes the last one.

In every run the nonces issued are the session's own, and there is one once a realm is
known (`run_challenged`), so that a Digest header is only checked behind a challenge.
-/

namespace MediaKit.Rtsp

open Lib Lib.Digest MediaKit.Core List

/-- What authentication keeps in a session. -/
structure AuthState where
  realm : Option Str
  nonce : Str
  issued : List Str
  deriving DecidableEq

def AuthState.new (nonce : Str) : AuthState := ⟨none, nonce, []⟩

/-- A request that needs authentication. -/
structure AuthRequest where
  request : RtspRequest
  name : StreamName
  sign : Str
  action : Str
  hookRealm : Option Str

/-- The `Authorization` header of a request. -/
def authorization (request : RtspRequest) : Option Str :=
  (request.headers.find? fun p => asciiLower p.1 == "authorization").map Prod.snd

section Session

variable (sha256 : Bytes → Str) (md5 : Str → Str) (checkBasic : Str → Bool) (auth : StreamAuth)
  {st : AuthState} {nonce realm : Str} {rs : List AuthRequest}

def isAuthenticated (st : AuthState) (r : AuthRequest) : Bool :=
  if auth.check sha256 defaultVhost r.name.1 r.name.2 r.action r.sign then true
  else match authorization r.request with
    | none => false
    | some header =>
      if "basic ".toList.isPrefixOf (asciiLower header) then checkBasic header
      else match st.realm with
        | some realm => auth.checkDigest md5 realm r.request.method r.request.uri header
        | none => false

/-- The realm after `auth_reject`: the known one, or that of the hook, or the default. -/
def negotiatedRealm (st : AuthState) (hookRealm : Option Str) : Option Str :=
  match st.realm with
  | some realm => some realm
  | none =>
    match hookRealm.filter fun r => !r.isEmpty with
    | some realm => some realm
    | none => auth.defaultRealm.filter fun r => !r.isEmpty

/-- `auth_reject`: the session and the challenge, if one is sent. -/
def authReject (st : AuthState) (hookRealm : Option Str) : AuthState × Option Str :=
  match negotiatedRealm auth st hookRealm with
  | some realm =>
    ({ st with realm := some realm, issued := st.issued ++ [st.nonce] },
      some ("Basic realm=\"" ++ realm ++ "\", Digest realm=\"" ++ realm ++
        "\", nonce=\"" ++ st.nonce ++ "\""))
  | none => (st, none)

def authStep (st : AuthState) (r : AuthRequest) : AuthState :=
  if isAuthenticated sha256 md5 checkBasic auth st r then st
  else (authReject auth st r.hookRealm).1

def authRun (nonce : Str) (rs : List AuthRequest) : AuthState :=
  rs.foldl (authStep sha256 md5 checkBasic auth) (AuthState.new nonce)

/-! ## The nonces of a session -/

/-- Only the session's own nonce is issued, and it is once there is a realm. -/
structure Challenged (nonce : Str) (st : AuthState) : Prop where
  own : st.nonce = nonce
  only : ∀ n ∈ st.issued, n = nonce
  issued : st.realm.isSome = true → nonce ∈ st.issued

theorem authReject_challenged (h : Challenged nonce st)
    (hookRealm : Option Str) : Challenged nonce (authReject auth st hookRealm).1 := by
  unfold authReject
  split
  next realm _ =>
    refine ⟨h.own, fun n hn => ?_, fun _ => ?_⟩
    · rcases mem_append.mp hn with hn | hn
      · exact h.only n hn
      · rw [mem_singleton.mp hn]
        exact h.own
    · rw [← h.own]
      exact mem_append_right _ (mem_singleton.mpr rfl)
  next => exact h

theorem authStep_challenged (h : Challenged nonce st)
    (r : AuthRequest) : Challenged nonce (authStep sha256 md5 checkBasic auth st r) := by
  unfold authStep
  split
  · exact h
  · exact authReject_challenged auth h r.hookRealm

theorem run_challenged (nonce : Str) (rs : List AuthRequest) :
    Challenged nonce (authRun sha256 md5 checkBasic auth nonce rs) := by
  have hnw : Challenged nonce (AuthState.new nonce) :=
    ⟨rfl, fun n hn => absurd hn not_mem_nil, fun h => by cases h⟩
  unfold authRun
  induction rs using reverseRecOn with
  | nil => exact hnw
  | append_singleton rs r ih =>
    rw [foldl_append]
    exact authStep_challenged sha256 md5 checkBasic auth ih r

theorem mem_issued_iff (h : (authRun sha256 md5 checkBasic auth nonce rs).realm = some realm)
    (n : Str) : n ∈ (authRun sha256 md5 checkBasic auth nonce rs).issued ↔ n = nonce := by
  have hc := run_challenged sha256 md5 checkBasic auth nonce rs
  constructor
  · exact hc.only n
  · rintro rfl
    exact hc.issued (by rw [h]; rfl)

/-- In a session, an accepted response is bound exactly when it answers the session's
nonce and does not bring an address of its own. -/
theorem session_bound_iff {md5} (hm : CollisionFree md5)
    (hrl : (authRun sha256 md5 checkBasic auth nonce rs).realm = some realm)
    {method uri header : Str} {fields : Fields} {response : Str}
    (h : auth.checkDigest md5 realm method uri header = true)
    (hf : StreamAuth.digestFields header = some fields)
    (hr : fields.get "response" = some response) :
    Bound md5 (auth.credentials realm fields) (a2 method uri)
        (· ∈ (authRun sha256 md5 checkBasic auth nonce rs).issued) response ↔
      Answers nonce (StreamAuth.middle fields) ∧
      (StreamAuth.QopAuth fields → fields.get "uri" = some uri) := by
  rw [StreamAuth.bound_iff_of_checkDigest hm h hf hr]
  simp only [mem_issued_iff sha256 md5 checkBasic auth hrl, exists_eq_left]

end Session

end MediaKit.Rtsp
