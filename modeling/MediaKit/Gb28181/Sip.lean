import MediaKit.Lib.Digest

/-!
# Registration of GB28181 devices

`crates/srt/src/gb28181/sip.rs`: what `handle_register` of the SIP server decides, with its own
`check_digest`. A device that is not accepted gets a challenge with a fresh nonce. What the
decision does to the tables is in `Signaling`.

Mirroring notes vs the Rust source:
  * A parsed message keeps its address and its headers; `parse_sip` stores header names
    in lower case, and `get` looks them up so.
  * `gen_nonce` and `gen_tag` read the clock; what they return is part of the input.
  * The server keeps no nonce. `issued` collects them from the challenges.
-/

namespace MediaKit.Gb28181

open Lib Lib.Digest

structure SipServerConfig where
  realm : Str
  password : Option Str

structure SipMessage where
  uri : Str
  headers : List (Str × Str)
  deriving DecidableEq

def SipMessage.get (msg : SipMessage) (name : String) : Option Str :=
  msg.headers.lookup (asciiLower name.toList)

/-- `uri_user`: the user part of a `From` header. -/
def uriUser (hdr : Str) : Option Str :=
  let s := (trim hdr).dropWhile (· == '<')
  let s := ((splitOncePat "sip:" s).map Prod.snd).getD s
  match splitOnce '@' s with
  | some (user, _) => some user
  | none =>
    match splitOnce ':' s with
    | some (user, _) => some user
    | none =>
      match splitOnce ';' s with
      | some (user, _) => some user
      | none => if s.isEmpty then none else some s

/-- The fields of an `Authorization` header. -/
def digestFields (auth : Str) : Fields := parseFields ((stripPre "Digest" auth).getD auth)

def checkDigest (md5 : Str → Str) (auth user password uri method realm : Str) : Bool :=
  let fields := digestFields auth
  match fields.get "response" with
  | none => false
  | some r =>
    let response := asciiLower r
    let realm := (fields.get "realm").getD realm
    match fields.get "nonce" with
    | none => false
    | some nonce =>
      let uri := (fields.get "uri").getD uri
      let expected := md5 (colons [md5 (colons [user, realm, password]), nonce,
        md5 (colons [method, uri])])
      expected == response

/-! ## Registration -/

/-- A response: the status line and the headers. -/
structure SipResponse where
  status : String
  headers : List (String × Str)
  deriving DecidableEq

/-- A REGISTER, with what the clock gives while it is handled. -/
structure Register where
  msg : SipMessage
  nonce : Str
  tag : Str

/-- What becomes of a REGISTER. -/
inductive Registration where
  | ignored
  | challenged (device : Str) (response : SipResponse)
  | accepted (device : Str) (expires : Nat) (response : SipResponse)

section Server

variable (md5 : Str → Str) (config : SipServerConfig)

/-- Whether the message passes the Digest authentication; without a password all do. -/
def passes (device : Str) (msg : SipMessage) : Bool :=
  match config.password.filter fun p => !p.isEmpty with
  | none => true
  | some password =>
    checkDigest md5 ((msg.get "authorization").getD []) device password msg.uri
      "REGISTER" config.realm

/-- The headers that every response repeats. -/
def echoed (r : Register) : List (String × Str) :=
  let field := fun name => (r.msg.get name).getD []
  [("Via", field "via"), ("From", field "from"), ("To", field "to" ++ ";tag=" ++ r.tag),
    ("Call-ID", field "call-id"), ("CSeq", field "cseq"), ("Contact", field "contact")]

/-- The decision of `handle_register`. No response goes out to a sender without a user. -/
def registration (r : Register) : Registration :=
  match uriUser ((r.msg.get "from").getD []) with
  | none => .ignored
  | some device =>
    if !passes md5 config device r.msg then
      let challenge := "Digest realm=\"" ++ config.realm ++ "\", nonce=\"" ++ r.nonce ++
        "\", algorithm=MD5"
      .challenged device ⟨"401 Unauthorized", echoed r ++ [("WWW-Authenticate", challenge)]⟩
    else
      let expires := ((r.msg.get "expires").bind fun e => parseUnsigned (2 ^ 64) (trim e)).getD 3600
      .accepted device expires ⟨"200 OK", echoed r ++ [("Expires", Nat.toDigits 10 expires)]⟩

/-- The challenges that were sent, by device and nonce. -/
def issued (rs : List Register) : List (Str × Str) := rs.filterMap fun r =>
  match registration md5 config r with
  | .challenged device _ => some (device, r.nonce)
  | _ => none

/-! ## What an accepted header says -/

variable {md5}

theorem response_of_checkDigest {auth user password uri method realm response : Str}
    (h : checkDigest md5 auth user password uri method realm = true)
    (hr : (digestFields auth).get "response" = some response) :
    ∃ nonce, (digestFields auth).get "nonce" = some nonce ∧
      asciiLower response = kd md5 (a1 user (((digestFields auth).get "realm").getD realm) password)
        nonce (a2 method (((digestFields auth).get "uri").getD uri)) := by
  unfold checkDigest at h
  dsimp only at h
  rw [hr] at h
  dsimp only at h
  split at h
  · cases h
  next nonce hn => exact ⟨nonce, hn, (eq_of_beq h).symm⟩

/-- The default is the expected value unless the header brings another. -/
theorem getD_eq_iff {o : Option Str} {d : Str} : o.getD d = d ↔ ∀ v, o = some v → v = d := by
  cases o with
  | none | some => simp

/-- **An accepted response is bound to the request exactly when its nonce was issued
and the header brings neither a realm nor an address of its own.** -/
theorem bound_iff_of_checkDigest (hm : CollisionFree md5)
    {auth user password uri method realm response nonce : Str} {issued : Str → Prop}
    (h : checkDigest md5 auth user password uri method realm = true)
    (hr : (digestFields auth).get "response" = some response)
    (hn : (digestFields auth).get "nonce" = some nonce) :
    Bound md5 (a1 user realm password) (a2 method uri) issued (asciiLower response) ↔
    (∃ n, issued n ∧ Answers n nonce) ∧
        (∀ hdrRealm, (digestFields auth).get "realm" = some hdrRealm → hdrRealm = realm) ∧
        (∀ hdrUri, (digestFields auth).get "uri" = some hdrUri → hdrUri = uri) := by
  obtain ⟨nonce', hn', hrs⟩ := response_of_checkDigest h hr
  rw [hn, Option.some.injEq] at hn'
  rw [hrs, ← hn', bound_kd_iff hm, a1_realm_inj, a2_uri_inj, getD_eq_iff, getD_eq_iff]
  constructor
  · rintro ⟨hrl, hu, hi⟩
    exact ⟨hi, hrl, hu⟩
  · rintro ⟨hi, hrl, hu⟩
    exact ⟨hrl, hu, hi⟩

end Server

end MediaKit.Gb28181
