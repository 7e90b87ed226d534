import MediaKit.Lib.Text

/-!
# Digest access authentication

The response of a client to a Digest challenge, over any hash function to text, and
the parameters of a Digest header. Both forms of a response hash the same shape: the
hash of the credentials (`a1`), a middle part, and the hash of the method and the
address (`a2`), with colons between them. The middle part is the nonce, or under
`qop=auth` the nonce with the counter, the client's nonce and the word `auth`.

`Bound`: a response that answers one of the issued nonces. For a hash without
collisions it determines what was hashed, so it is bound exactly when the middle part
belongs to an issued nonce and credentials, method and address are the expected ones
(`bound_kd_iff`).
-/

namespace MediaKit.Lib.Digest

open List

/-- The hash has no collisions, and its values contain no colon. -/
structure CollisionFree (md5 : Str → Str) : Prop where
  injective : Function.Injective md5
  colon_notMem : ∀ s, ':' ∉ md5 s

/-- The parts with colons between them. -/
def colons : List Str → Str
  | [] => []
  | [p] => p
  | p :: q :: ps => p ++ ':' :: colons (q :: ps)

def a1 (user realm password : Str) : Str := colons [user, realm, password]

def a2 (method uri : Str) : Str := colons [method, uri]

/-- The hash of the two hashes and the part between them. -/
def kd (md5 : Str → Str) (A₁ middle A₂ : Str) : Str := md5 (colons [md5 A₁, middle, md5 A₂])

/-- What stands between the hashes under `qop=auth`. -/
def authMiddle (nonce nc cnonce : Str) : Str := colons [nonce, nc, cnonce, "auth"]

/-- `t` stands between the hashes of a response to the nonce `n`. -/
def Answers (n t : Str) : Prop := t = n ∨ ∃ nc cnonce, t = authMiddle n nc cnonce

/-- The response answers an issued nonce, with or without `qop=auth`. -/
def Bound (md5 : Str → Str) (A₁ A₂ : Str) (issued : Str → Prop) (response : Str) : Prop :=
  ∃ n, issued n ∧ (response = kd md5 A₁ n A₂ ∨
    ∃ nc cnonce, response = kd md5 A₁ (authMiddle n nc cnonce) A₂)

/-! ## Injectivity -/

/-- A string is cut in one way at its last `c`. -/
theorem append_cons_inj_right {c : Char} {a a' b b' : Str} (hb : c ∉ b) (hb' : c ∉ b')
    (h : a ++ c :: b = a' ++ c :: b') : a = a' ∧ b = b' := by
  have hr := congrArg reverse h
  rw [reverse_append, reverse_append, reverse_cons, reverse_cons, append_assoc, append_assoc] at hr
  have hc := append_cons_inj (c := c) (by rwa [mem_reverse]) (by rwa [mem_reverse]) hr
  exact ⟨reverse_inj.mp hc.2, reverse_inj.mp hc.1⟩

theorem a1_realm_inj {user password realm realm' : Str} :
    a1 user realm' password = a1 user realm password ↔ realm' = realm := by
  constructor
  · intro h
    have hc := append_cancel_left h
    exact append_cancel_right (List.cons.inj hc).2
  · rintro rfl
    rfl

theorem a2_uri_inj {method uri uri' : Str} : a2 method uri' = a2 method uri ↔ uri' = uri := by
  constructor
  · intro h
    exact (List.cons.inj (append_cancel_left h)).2
  · rintro rfl
    rfl

variable {md5 : Str → Str}

theorem kd_inj (h : CollisionFree md5) {A₁ A₁' A₂ A₂' t t' : Str} :
    kd md5 A₁' t' A₂' = kd md5 A₁ t A₂ ↔ A₁' = A₁ ∧ t' = t ∧ A₂' = A₂ := by
  constructor
  · intro he
    have htx := h.injective he
    -- the first colon ends the first hash, the last one begins the second
    obtain ⟨h₁, hr⟩ := append_cons_inj (h.colon_notMem _) (h.colon_notMem _) htx
    obtain ⟨ht, h₂⟩ := append_cons_inj_right (h.colon_notMem _) (h.colon_notMem _) hr
    exact ⟨h.injective h₁, ht, h.injective h₂⟩
  · rintro ⟨rfl, rfl, rfl⟩
    rfl

/-- **A response is bound exactly when each part of what it hashes is the expected one.** -/
theorem bound_kd_iff (h : CollisionFree md5) {A₁ A₁' A₂ A₂' t : Str} {issued : Str → Prop} :
    Bound md5 A₁ A₂ issued (kd md5 A₁' t A₂') ↔ A₁' = A₁ ∧ A₂' = A₂ ∧ ∃ n, issued n ∧
    Answers n t := by
  constructor
  · rintro ⟨n, hn, he | ⟨nc, cnonce, he⟩⟩
    · obtain ⟨h₁, ht, h₂⟩ := (kd_inj h).mp he
      exact ⟨h₁, h₂, n, hn, .inl ht⟩
    · obtain ⟨h₁, ht, h₂⟩ := (kd_inj h).mp he
      exact ⟨h₁, h₂, n, hn, .inr ⟨nc, cnonce, ht⟩⟩
  · rintro ⟨rfl, rfl, n, hn, rfl | ⟨nc, cnonce, rfl⟩⟩
    · exact ⟨_, hn, .inl rfl⟩
    · exact ⟨n, hn, .inr ⟨nc, cnonce, rfl⟩⟩

/-- The middle part of a response to a nonce begins with the nonce. -/
theorem Answers.isPrefix {n t : Str} (h : Answers n t) : n <+: t := by
  rcases h with rfl | ⟨nc, cnonce, rfl⟩
  · exact prefix_rfl
  · exact prefix_append _ _

/-! ## Headers -/

/-- The parameters of a header, the last one first. -/
abbrev Fields := List (Str × Str)

/-- The loop over the parts between commas: names in lower case, values without the
quotes around them; a part without `=` is skipped. -/
def parseFields (rest : Str) : Fields :=
  (rest.splitOn ',').foldl (fun fields part => match splitOnce '=' part with
    | some (k, v) => (asciiLower (trim k), trimMatches '"' (trim v)) :: fields
    | none => fields) []

/-- The value of a parameter; of a repeated one, the last. -/
def Fields.get (fields : Fields) (name : String) : Option Str := fields.lookup name.toList

end MediaKit.Lib.Digest
