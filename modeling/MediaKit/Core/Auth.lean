import MediaKit.Lib.Digest

/-!
# Stream authorisation

`crates/core/src/auth.rs`: the settings that every protocol session shares, the
signature check of publish and play requests (`check`) and the check of a Digest
`Authorization` header (`check_digest`).

Mirroring notes vs the Rust source:
  * SHA-256 and MD5 (crates `sha2` and `md5`) are parameters, as functions to the
    lowercase hexadecimal text that the source formats.
  * `secret` is the current value of `runtime_secret`; the startup snapshot and the
    lock around it are left out. Settings do not change while a request is checked.
  * `users` and the field map of a header are lists, looked up from the front; the
    header's fields are added at the front, so that a repeated field counts as the
    last one, as in a `HashMap`.
  * `check_basic` is left out.

What an accepted Digest header says is `response_of_checkDigest`: the response is the
hash of the server's realm and password, with a middle part and an address that may
both come from the header.
-/

namespace MediaKit.Core

open Lib Lib.Digest Option

/-- The host of every request that names none. -/
def defaultVhost : Str := "__defaultVhost__"

structure StreamAuth where
  enabled : Bool
  secret : Str
  defaultRealm : Option Str
  users : List (Str × Str)

variable (sha256 : Bytes → Str)

/-- `generate_sign`: the hash of the secret and the parts, with `|` between them. -/
def generateSign (secret : Str) (parts : List Str) : Str :=
  sha256 (parts.foldl (fun h p => h ++ Utf8.encode "|" ++ Utf8.encode p)
    (Utf8.encode secret))

/-- `validate_sign`: equal lengths and no octet that differs. -/
def validateSign (secret sign : Str) (parts : List Str) : Bool :=
  let expected := Utf8.encode (generateSign sha256 secret parts)
  let candidate := Utf8.encode sign
  if expected.length ≠ candidate.length then false
  else (expected.zip candidate).foldl (fun diff ab => diff ||| (ab.1 ^^^ ab.2)) (0 : UInt8) == 0

namespace StreamAuth

variable {fields : Fields} {header method realm uri : Str} {auth : StreamAuth} {md5 : Str → Str}

def check (auth : StreamAuth) (vhost app stream action sign : Str) : Bool :=
  if !auth.enabled then true
  else if sign.isEmpty then false
  else validateSign sha256 auth.secret sign [vhost, app, stream, action]

def digestPassword (auth : StreamAuth) (username : Str) : Str :=
  (auth.users.lookup username).getD auth.secret

/-- The fields of an `Authorization` header that is a Digest one. The whole header is
read in lower case. -/
def digestFields (header : Str) : Option Fields :=
  (stripPre "digest " (asciiLower (trim header))).map parseFields

def checkDigest (md5 : Str → Str) (auth : StreamAuth) (realm method uri header : Str) : Bool :=
  match digestFields header with
  | none => false
  | some fields =>
    match fields.get "realm" with
    | none => false
    | some hdrRealm =>
      if hdrRealm ≠ realm then false
      else match fields.get "nonce", fields.get "uri", fields.get "response" with
        | some nonce, some hdrUri, some response =>
          let username := (fields.get "username").getD []
          let ha1 := md5 (colons [username, realm, auth.digestPassword username])
          if fields.get "qop" = some "auth" then
            match fields.get "nc", fields.get "cnonce" with
            | some nc, some cnonce =>
              response == md5 (colons [ha1, nonce, nc, cnonce, "auth",
                md5 (colons [method, hdrUri])])
            | _, _ => false
          else response == md5 (colons [ha1, nonce, md5 (colons [method, uri])])
        | _, _, _ => false

/-! ## What an accepted header says -/

/-- `qop=auth` is among the fields. -/
def QopAuth (fields : Fields) : Prop := fields.get "qop" = some "auth"

instance (fields : Fields) : Decidable (QopAuth fields) := inferInstanceAs (Decidable (_ = _))

/-- What the fields put between the two hashes. -/
def middle (fields : Fields) : Str :=
  let nonce := (fields.get "nonce").getD []
  if QopAuth fields then
    authMiddle nonce ((fields.get "nc").getD []) ((fields.get "cnonce").getD [])
  else nonce

/-- The address that is hashed: under `qop=auth` the header's own. -/
def hashedUri (fields : Fields) (uri : Str) : Str :=
  if QopAuth fields then (fields.get "uri").getD [] else uri

/-- The credentials that the fields claim. -/
def credentials (auth : StreamAuth) (realm : Str) (fields : Fields) : Str :=
  let username := (fields.get "username").getD []
  a1 username realm (auth.digestPassword username)

theorem response_of_checkDigest (h : auth.checkDigest md5 realm method uri header = true)
    (hf : digestFields header = some fields) :
    (fields.get "uri").isSome = true ∧ fields.get "response" =
      some (kd md5 (auth.credentials realm fields) (middle fields)
        (a2 method (hashedUri fields uri))) := by
  unfold checkDigest at h
  unfold credentials middle hashedUri QopAuth
  -- every branch but two answers `false`
  repeat' split at h
  all_goals simp_all [kd, a1, a2, authMiddle, colons]

/-- The header has the address of the request, where it is the one that is hashed. -/
theorem hashedUri_eq_iff (h : (fields.get "uri").isSome = true) :
    hashedUri fields uri = uri ↔ (QopAuth fields → fields.get "uri" = some uri) := by
  obtain ⟨hdrUri, hu⟩ := isSome_iff_exists.mp h
  unfold hashedUri
  rw [hu]
  by_cases hq : QopAuth fields
  · simp [hq]
  · simp [hq]

/-- **An accepted response is bound to the request exactly when its middle part answers
an issued nonce and, under `qop=auth`, the header's address is that of the request.** -/
theorem bound_iff_of_checkDigest (hm : CollisionFree md5) {response : Str} {issued : Str → Prop}
    (h : auth.checkDigest md5 realm method uri header = true)
    (hf : digestFields header = some fields) (hr : fields.get "response" = some response) :
    Bound md5 (auth.credentials realm fields) (a2 method uri) issued response ↔
    (∃ n, issued n ∧ Answers n (middle fields)) ∧
        (QopAuth fields → fields.get "uri" = some uri) := by
  obtain ⟨hs, hrs⟩ := response_of_checkDigest h hf
  rw [hr, some.injEq] at hrs
  rw [hrs, bound_kd_iff hm, a2_uri_inj, hashedUri_eq_iff hs]
  constructor
  · rintro ⟨-, hu, hn⟩
    exact ⟨hn, hu⟩
  · rintro ⟨hn, hu⟩
    exact ⟨rfl, hu, hn⟩

end StreamAuth

end MediaKit.Core
