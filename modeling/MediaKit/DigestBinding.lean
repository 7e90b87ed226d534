import MediaKit.Gb28181.Sip
import MediaKit.Rtsp.Auth

/-!
# What an accepted Digest header is bound to

Two servers check Digest headers: an RTSP session (`StreamAuth::check_digest`) and the
SIP server for GB28181 devices (`check_digest`). A response should answer a challenge of
this server for this request: its nonce, its realm, the method and the address of the
request.

Neither server compares the nonce of the header with those that it has sent. The RTSP
check hashes the header's address under `qop=auth`; the SIP check always takes the
header's address and its realm when there is one. `digest_bound_iff` says for every
header that a server accepts what the header must bring of itself to be bound: the
nonce of a challenge, and no realm or address of its own where the check would use it.
-/

namespace MediaKit

open Lib Lib.Digest MediaKit.Core Rtsp Gb28181 List Option

/-- **An accepted Digest response is bound to the request and to a challenge of the
server exactly when the fields of its header say so**: in every RTSP session, and in
every run of the SIP server for the challenges sent to the device. -/
theorem digest_bound_iff (md5 : Str → Str) (hmd5 : CollisionFree md5) :
    (∀ (sha256 : Bytes → Str) (checkBasic : Str → Bool) (auth : StreamAuth) (nonce : Str)
        (rs : List AuthRequest) (realm method uri header response : Str) (fields : Fields),
      (authRun sha256 md5 checkBasic auth nonce rs).realm = some realm →
      auth.checkDigest md5 realm method uri header = true →
      StreamAuth.digestFields header = some fields → fields.get "response" = some response →
      (Bound md5 (auth.credentials realm fields) (a2 method uri)
          (· ∈ (authRun sha256 md5 checkBasic auth nonce rs).issued) response ↔
        Answers nonce (StreamAuth.middle fields) ∧
        (StreamAuth.QopAuth fields → fields.get "uri" = some uri))) ∧
    (∀ (config : SipServerConfig) (rs : List Register)
      (auth user password uri method response nonce : Str),
      checkDigest md5 auth user password uri method config.realm = true →
      (digestFields auth).get "response" = some response →
      (digestFields auth).get "nonce" = some nonce →
      (Bound md5 (a1 user config.realm password) (a2 method uri)
          (fun n => (user, n) ∈ issued md5 config rs) (asciiLower response) ↔
        (∃ n, (user, n) ∈ issued md5 config rs ∧ Answers n nonce) ∧
          (∀ hdrRealm, (digestFields auth).get "realm" = some hdrRealm → hdrRealm = config.realm) ∧
          (∀ hdrUri, (digestFields auth).get "uri" = some hdrUri → hdrUri = uri))) := by
  constructor
  · intro sha256 checkBasic auth nonce rs realm method uri header response fields hrl h hf hr
    exact session_bound_iff sha256 checkBasic auth hmd5 hrl h hf hr
  · intro config rs auth user password uri method response nonce h hr hn
    exact bound_iff_of_checkDigest hmd5 h hr hn

/-! ## Samples -/

namespace Sample

/-- A hash value, as the text that is sent. -/
def hex (n : Nat) : Str := (range 32).reverse.map fun i => Nat.digitChar (n / 16 ^ i % 16)

/-- The hashes of the credentials of `u`, and of the device under its realm and under
another. -/
def userA1 : Str := hex 0x44add22b6f3179b751eafd68ee370f7d
def deviceA1 : Str := hex 0xdcf175f8c097745202f8d7b72c9b3819
def deviceOwnA1 : Str := hex 0xf61304f15f223730c508a00c57a7e5a7

/-- The hashes of the methods and addresses. -/
def describeA2 : Str := hex 0x0dfb832ac960b10c16c1635383f9e3ed
def describeOtherA2 : Str := hex 0x3e31151a5f679ca173ace6ac933f2aca
def registerA2 : Str := hex 0x8d6cd992c91e5fc88c1658dd358acc76
def registerOwnA2 : Str := hex 0xc4abe133433009a134e64ab27dc3cdf7

/-- The responses. -/
def answerResponse : Str := hex 0x8f6acc8dc419d142b538be993b007eb3
def ownNonceResponse : Str := hex 0x398c6241a5222880fe6b77ce484c52cb
def otherUriResponse : Str := hex 0xa8ebf3b8391fd1b715c5e5dd4d672310
def sipAnswerResponse : Str := hex 0x2a2075a3ac0f78eb5f704d8637987b20
def sipOwnResponse : Str := hex 0x64568594141c3b30b49bb827513e5857

def uri : Str := "rtsp://h/live/cam"
def other : Str := "rtsp://h/other"
def nonce : Str := "0123456789abcdef"
def device : Str := "34020000001320000001"
def realm : Str := "3402000000"
def sipUri : Str := "sip:3402000000"

/-- MD5 of the texts that the samples hash. -/
def table : List (Str × Str) :=
  [(a1 "u" "r" "p", userA1),
    (a2 "DESCRIBE" uri, describeA2), (a2 "DESCRIBE" other, describeOtherA2),
    (colons [userA1, nonce, describeA2], answerResponse),
    (colons [userA1, "x", describeA2], ownNonceResponse),
    (colons [userA1, authMiddle nonce "00000001" "c", describeOtherA2],
      otherUriResponse),
    (a1 device realm "p", deviceA1), (a1 device "x" "p", deviceOwnA1),
    (a2 "REGISTER" sipUri, registerA2), (a2 "REGISTER" "sip:y", registerOwnA2),
    (colons [deviceA1, "18f", registerA2], sipAnswerResponse),
    (colons [deviceOwnA1, "z", registerOwnA2], sipOwnResponse)]

/-- A text without colons for every other one: each character in unary. -/
def unary (s : Str) : Str := s.flatMap fun c => replicate c.toNat 'x' ++ ['y']

/-- A hash without collisions that agrees with MD5 on the samples. -/
def md5 (s : Str) : Str :=
  match table.find? fun p => p.1 == s with
  | some p => p.2
  | none => 'z' :: unary s

theorem unary_injective : Function.Injective unary := by
  intro s t h
  induction s generalizing t with
  | nil =>
    cases t with
    | nil => rfl
    | cons d t => simp [unary] at h
  | cons c s ih =>
    cases t with
    | nil => simp [unary] at h
    | cons d t =>
      have hy : ∀ n, 'y' ∉ replicate n 'x' := by simp
      unfold unary at h
      rw [flatMap_cons, flatMap_cons, append_assoc, append_assoc] at h
      obtain ⟨hcd, hst⟩ := append_cons_inj (hy _) (hy _) h
      have hn : c.toNat = d.toNat := by simpa using congrArg List.length hcd
      have hch : c = d := by rw [← Char.ofNat_toNat c, ← Char.ofNat_toNat d, hn]
      rw [hch, ih hst]

theorem colon_notMem_unary (s : Str) : ':' ∉ unary s := by
  simp [unary]

/-- A value is from the table, or begins with `z`. -/
theorem md5_cases (s : Str) : (∃ p ∈ table, p.1 = s ∧ md5 s = p.2) ∨ md5 s = 'z' :: unary s := by
  unfold md5
  cases h : table.find? fun p => p.1 == s with
  | some p =>
    have hk := find?_some h
    exact .inl ⟨p, mem_of_find?_eq_some h, eq_of_beq hk, rfl⟩
  | none => exact .inr rfl

/-- The values of the table differ, and none begins with `z` or contains a colon. -/
theorem table_values : (∀ p ∈ table, ∀ q ∈ table, p.2 = q.2 → p.1 = q.1) ∧ ∀ p ∈ table,
    p.2.head? ≠ some 'z' ∧ ':' ∉ p.2 := by
  decide +kernel

theorem md5_collisionFree : CollisionFree md5 where
  injective s t h := by
    rcases md5_cases s with ⟨p, hp, rfl, hs⟩ | hs <;> rcases md5_cases t with ⟨q, hq, rfl, ht⟩ | ht
    · exact table_values.1 p hp q hq (hs.symm.trans (h.trans ht))
    · exact absurd (by rw [← hs, h, ht]; rfl) (table_values.2 p hp).1
    · exact absurd (by rw [← ht, ← h, hs]; rfl) (table_values.2 q hq).1
    · exact unary_injective (List.cons.inj (hs.symm.trans (h.trans ht))).2
  colon_notMem s := by
    rcases md5_cases s with ⟨p, hp, -, hs⟩ | hs
    · rw [hs]
      exact (table_values.2 p hp).2
    · rw [hs, mem_cons, not_or]
      exact ⟨by decide, colon_notMem_unary s⟩

/-- The secret is `p`, the realm `r`. -/
def auth : StreamAuth := ⟨true, "p", some "r", []⟩

/-- A DESCRIBE without an `Authorization` header, which is challenged. -/
def describe : AuthRequest where
  request := ⟨"DESCRIBE", uri, "RTSP/1.0", [], []⟩
  name := ("live", "cam")
  sign := []
  action := "play"
  hookRealm := none

def session : AuthState := authRun (fun _ => []) md5 (fun _ => false) auth nonce [describe]

/-- An `Authorization` header. -/
def header (user realm nonce uri qop response : Str) : Str :=
  "Digest username=\"" ++ user ++ "\", realm=\"" ++ realm ++ "\", nonce=\"" ++
    nonce ++ "\", uri=\"" ++ uri ++ "\"" ++ qop ++ ", response=\"" ++ response ++ "\""

/-- The answer to the challenge. -/
def answer : Str := header "u" "r" nonce uri [] answerResponse

/-- A header with a nonce that the client made up. -/
def ownNonce : Str := header "u" "r" "x" uri [] ownNonceResponse

/-- A header for another address, under `qop=auth`. -/
def otherUri : Str :=
  header "u" "r" nonce other ", qop=auth, nc=00000001, cnonce=\"c\""
    otherUriResponse

/-- The fields of a header of this form. -/
def fields (user realm nonce uri response : Str) (qop : Fields) : Fields :=
  ("response", response) :: (qop ++ [("uri".toList, uri), ("nonce", nonce),
    ("realm", realm), ("username", user)])

def answerFields : Fields := fields "u" "r" nonce uri answerResponse []

def ownNonceFields : Fields := fields "u" "r" "x" uri ownNonceResponse []

def otherUriFields : Fields := fields "u" "r" nonce other otherUriResponse
  [("cnonce", "c"), ("nc", "00000001"), ("qop", "auth")]

def config : SipServerConfig := ⟨realm, some "p"⟩

/-- A REGISTER without an `Authorization` header, which is challenged. -/
def register : Register where
  msg := ⟨sipUri, [("from", "<sip:" ++ device ++ "@h>")]⟩
  nonce := "18f"
  tag := "0"

/-- The answer to the challenge. -/
def sipAnswer : Str := header device realm "18f" sipUri [] sipAnswerResponse

/-- A header with a nonce, a realm and an address of the client's own. -/
def sipOwn : Str := header device "x" "z" "sip:y" [] sipOwnResponse

def sipAnswerFields : Fields := fields device realm "18f" sipUri sipAnswerResponse []

def sipOwnFields : Fields := fields device "x" "z" "sip:y" sipOwnResponse []

theorem digestFields_headers : StreamAuth.digestFields answer = some answerFields ∧
      StreamAuth.digestFields ownNonce = some ownNonceFields ∧
      StreamAuth.digestFields otherUri = some otherUriFields ∧
      digestFields sipAnswer = sipAnswerFields ∧ digestFields sipOwn = sipOwnFields := by
  decide +kernel

/-- The response of an RTSP header answers a challenge of the session, for the address
`uri`. -/
def RtspBound (fields : Fields) (response : Str) : Prop :=
  Bound md5 (auth.credentials "r" fields) (a2 "DESCRIBE" uri)
    (· ∈ session.issued) response

/-- The response of a SIP header answers a challenge to the device. -/
def SipBound (response : Str) : Prop :=
  Bound md5 (a1 device config.realm "p") (a2 "REGISTER" sipUri)
    (fun n => (device, n) ∈ issued md5 config [register]) response

def rtspAccepts (header : Str) : Bool := auth.checkDigest md5 "r" "DESCRIBE" uri header

def sipAccepts (header : Str) : Bool :=
  checkDigest md5 header device "p" sipUri "REGISTER" config.realm

theorem accepts_headers : session.realm = some "r" ∧ rtspAccepts answer = true ∧
    rtspAccepts ownNonce = true ∧
      rtspAccepts otherUri = true ∧ sipAccepts sipAnswer = true ∧ sipAccepts sipOwn = true := by
  decide +kernel

end Sample

/-- A nonce that was never issued, a header for another address under `qop=auth`, and
in SIP a nonce, a realm and an address of the client's own are accepted. -/
theorem digest_not_bound : (Sample.rtspAccepts Sample.ownNonce = true ∧
      ¬ Sample.RtspBound Sample.ownNonceFields Sample.ownNonceResponse) ∧
    (Sample.rtspAccepts Sample.otherUri = true ∧
      ¬ Sample.RtspBound Sample.otherUriFields Sample.otherUriResponse) ∧
    (Sample.sipAccepts Sample.sipOwn = true ∧
      ¬ Sample.SipBound (asciiLower Sample.sipOwnResponse)) := by
  obtain ⟨-, hon, hot, -, hs⟩ := Sample.digestFields_headers
  obtain ⟨hr, -, aown, aother, -, asip⟩ := Sample.accepts_headers
  refine ⟨⟨aown, fun hb => ?_⟩, ⟨aother, fun hb => ?_⟩, asip, fun hb => ?_⟩
  · have h := (session_bound_iff _ _ _ Sample.md5_collisionFree hr aown hon rfl).mp hb
    exact absurd h.1.isPrefix (by decide +kernel)
  · have h := (session_bound_iff _ _ _ Sample.md5_collisionFree hr aother hot rfl).mp hb
    exact absurd (h.2 (by decide +kernel)) (by decide +kernel)
  · have h := (bound_iff_of_checkDigest Sample.md5_collisionFree asip (by rw [hs]; rfl)
      (by rw [hs]; rfl)).mp hb
    exact absurd (h.2.1 "x" (by decide +kernel)) (by decide +kernel)

/-- The answers to both challenges are accepted, and bound. -/
theorem digest_bound_iff_answers : (Sample.rtspAccepts Sample.answer = true ∧
      Sample.RtspBound Sample.answerFields Sample.answerResponse) ∧
    (Sample.sipAccepts Sample.sipAnswer = true ∧
      Sample.SipBound (asciiLower Sample.sipAnswerResponse)) := by
  obtain ⟨ha, -, -, hs, -⟩ := Sample.digestFields_headers
  obtain ⟨hr, aanswer, -, -, asip, -⟩ := Sample.accepts_headers
  refine ⟨⟨aanswer, ?_⟩, asip, ?_⟩
  · refine ((digest_bound_iff Sample.md5 Sample.md5_collisionFree).1 _ _ _ _ _ _ _ _ _ _ _
      hr aanswer ha rfl).mpr ⟨.inl (by decide +kernel), fun hq => ?_⟩
    exact absurd hq (by decide +kernel)
  · refine ((digest_bound_iff Sample.md5 Sample.md5_collisionFree).2 _ [Sample.register] _ _ _ _ _
      _ _ asip (by rw [hs]; rfl) (by rw [hs]; rfl)).mpr ?_
    refine ⟨⟨"18f", by decide +kernel, .inl rfl⟩, fun v hv => ?_, fun v hv => ?_⟩
    · exact some.inj (hv.symm.trans (by decide +kernel))
    · exact some.inj (hv.symm.trans (by decide +kernel))

end MediaKit
