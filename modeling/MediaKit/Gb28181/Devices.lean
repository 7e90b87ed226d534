import MediaKit.Gb28181.Signaling

/-!
# Known devices and their answers

The device table and the queries of the SIP server (`crates/srt/src/gb28181/sip.rs`) over any
sequence of datagrams, expiries and calls of `query_catalog` and `query_device_info`. Only
`handle_register` authenticates. A MESSAGE makes an unknown sender known, and the answer to a query
is found by its number alone, whoever sends it.

Mirroring notes vs the Rust source:
  * a call is three steps: its number is drawn and entered in the table, the request is sent, and
    the wait ends with an answer or without one. The counter does not come round to a number that
    still waits.
  * `expire_devices` is one step for each device.
  * a datagram that stops the server is no step (`handleSip` is `none`).
  * `accepted`, the REGISTERs that passed, and `heard`, the MESSAGEs with a body, are for the
    statements only. -/

namespace MediaKit.Gb28181.Signaling

open Lib List Option

inductive QueryKind where
  | catalog
  | deviceInfo
  deriving DecidableEq

def QueryKind.cmdType : QueryKind → Str
  | catalog => "Catalog"
  | deviceInfo => "DeviceInfo"

/-- A call of `query_catalog` or `query_device_info`. -/
structure Query where
  sn : Nat
  deviceId : Str
  kind : QueryKind
  /-- How many messages had been heard when the request was sent. -/
  sentAt : Option Nat
  answer : Option XmlNode

/-- A MESSAGE with a body. -/
structure Heard where
  user : Str
  /-- Its sender was in the table, with the address that it came from. -/
  registered : Bool
  root : XmlNode

structure Site where
  server : SipServer
  snCounter : Nat
  queries : List Query
  /-- The calls that returned `Ok`. -/
  results : List Query
  accepted : List (Str × SocketAddr)
  heard : List Heard

def Site.new : Site := ⟨⟨[], [], [], []⟩, 0, [], [], [], []⟩

inductive SiteAction where
  | datagram (a : Answers) (msg : ParsedSip)
  | expire (id : Str)
  | query (kind : QueryKind) (deviceId : Str)
  | send (sn : Nat) (ok : Bool)
  /-- The answer is there, or five seconds have passed. -/
  | finish (sn : Nat)

/-- The user of the `From` header of a MESSAGE. -/
def sender (msg : ParsedSip) : Str := (uriUser (field msg "from")).getD []

def cmdType (root : XmlNode) : Option Str := root.textOf "CmdType"

def snOf (root : XmlNode) : Option Nat := (trimmed root "SN").bind (parseUnsigned (2 ^ 32))

/-- The answers among the effects. -/
def delivered (effects : List SipEffect) : List (Nat × XmlNode) :=
  effects.filterMap fun
    | .deliver sn root => some (sn, root)
    | _ => none

section Site

variable (md5 : Str → Str) (parseIp : Str → Option Str) (config : Config)

def acceptedOf (a : Answers) (msg : ParsedSip) : List (Str × SocketAddr) :=
  if msg.method = some "REGISTER" then
    ((uriUser (field msg "from")).filter fun d => passes md5 config.toSipServerConfig d
      msg.toSipMessage).toList.map (·, a.addr)
  else []

def heardOf (s : SipServer) (a : Answers) (msg : ParsedSip) : List Heard :=
  match msg.method == some "MESSAGE", Xml.parseXml msg.body with
  | true, .done root =>
    [⟨sender msg, (s.devices.lookup (sender msg)).any fun c => c.addr = a.addr, root⟩]
  | _, _ => []

/-- What `query_catalog` and `query_device_info` store. -/
def Query.store (q : Query) (root : XmlNode) (d : DeviceContact) : DeviceContact :=
  match q.kind with
  | .catalog => { d with channels := parseCatalog root }
  | .deviceInfo => { d with info := some (deviceInfoOfXml root) }

def Site.step (s : Site) : SiteAction → Option Site
  | .datagram a msg =>
    (handleSip md5 parseIp config a s.server msg).map fun r =>
      { s with
        server := r.1
        queries := s.queries.map fun q =>
          { q with answer := q.answer.or ((delivered r.2).lookup q.sn) }
        accepted := acceptedOf md5 config a msg ++ s.accepted
        heard := s.heard ++ heardOf s.server a msg }
  | .expire id => some { s with server := (unregisterDevice s.server id).1 }
  | .query kind deviceId =>
    let sn := (s.snCounter + 1) % 2 ^ 32
    -- `registered` fails for an unknown device
    if (s.server.devices.lookup deviceId).isNone ∨ s.queries.any (·.sn = sn) then none
    else
      some { s with
        server := { s.server with pendingQueries := sn :: s.server.pendingQueries }
        snCounter := sn
        queries := ⟨sn, deviceId, kind, none, none⟩ :: s.queries }
  | .send sn ok =>
    let queries := s.queries.filter (·.sn ≠ sn)
    match s.queries.find? (·.sn = sn) with
    | none => none
    | some q =>
      if ok then some
        { s with queries := { q with sentAt := q.sentAt.or (some s.heard.length) } :: queries }
      else some { s with
        server := { s.server with pendingQueries := s.server.pendingQueries.filter (· != sn) }
        queries }
  | .finish sn =>
    match s.queries.find? (·.sn = sn) with
    | none => none
    | some q =>
      let queries := s.queries.filter (·.sn ≠ sn)
      let server := { s.server with pendingQueries := s.server.pendingQueries.filter (· != sn) }
      match q.sentAt, q.answer with
      | none, _ => none
      | some _, none => some { s with server, queries }
      | some _, some root =>
        some { s with
          server := { server with devices := update q.deviceId (q.store root) server.devices }
          queries
          results := q :: s.results }

end Site

/-! ## Rows of the table -/

variable {md5 : Str → Str} {parseIp : Str → Option Str} {config : Config} {a : Answers}
  {msg : ParsedSip} {s : SipServer} {R : Str → SocketAddr → List ChannelInfo → Prop}
  {key : Str} {r : SipServer × List SipEffect}

theorem mem_of_lookup {κ α : Type} [BEq κ] [LawfulBEq κ] {m : List (κ × α)} {key : κ} {value : α}
    (h : m.lookup key = some value) : (key, value) ∈ m := by
  obtain ⟨before, after, rfl, -⟩ := lookup_eq_some_iff.mp h
  exact mem_append_right _ mem_cons_self

/-- A property of the devices, their addresses and their channels. -/
def Rows (R : Str → SocketAddr → List ChannelInfo → Prop) (s : SipServer) : Prop :=
  ∀ e ∈ s.devices, R e.1 e.2.addr e.2.channels

theorem Rows.put (h : Rows R s) {value : DeviceContact} (hn : R key value.addr value.channels) :
    Rows R { s with devices := put key value s.devices } :=
  forall_mem_cons.mpr ⟨hn, fun e he => h e (mem_filter.mp he).1⟩

theorem Rows.update (h : Rows R s) {f : DeviceContact → DeviceContact}
    (hf : ∀ v, R key v.addr v.channels → R key (f v).addr (f v).channels) :
    Rows R { s with devices := update key f s.devices } := by
  intro e he
  obtain ⟨e₀, he₀, rfl⟩ := mem_map.mp he
  split
  next hk => exact hk ▸ hf e₀.2 (hk ▸ h e₀ he₀)
  next => exact h e₀ he₀

theorem Rows.unregisterDevice (h : Rows R s) (id : Str) : Rows R (unregisterDevice s id).1 := by
  unfold Signaling.unregisterDevice
  split
  · exact h
  · exact fun e he => h e (mem_filter.mp he).1

theorem delivered_stopMedia (ctx : InviteCtx) (effects : List SipEffect) :
    delivered (stopMedia ctx :: effects) = delivered effects := by
  unfold stopMedia
  split <;> rfl

theorem delivered_append (effects effects' : List SipEffect) :
    delivered (effects ++ effects') = delivered effects ++ delivered effects' :=
  filterMap_append

theorem delivered_unregisterDevice (s : SipServer) (id : Str) :
    delivered (unregisterDevice s id).2 = [] := by
  unfold unregisterDevice
  split
  · rfl
  · induction s.active.filter _ with
    | nil => rfl
    | cons e es ih => exact (delivered_stopMedia e.2 _).trans ih

/-- A handler that leaves the table alone and answers no query. -/
def Aside (s : SipServer) (r : SipServer × List SipEffect) : Prop :=
  r.1.devices = s.devices ∧ delivered r.2 = []

theorem aside_handleResponse (s : SipServer) : Aside s (handleResponse parseIp a s msg) := by
  unfold handleResponse
  dsimp only
  repeat' split
  all_goals exact ⟨rfl, by first | rfl | exact delivered_stopMedia _ []⟩

theorem aside_handleBye (s : SipServer) : Aside s (handleBye a s msg) := by
  unfold handleBye
  dsimp only
  repeat' split
  all_goals exact ⟨rfl, by first | rfl | exact delivered_stopMedia _ _⟩

theorem aside_handleInviteReceived (s : SipServer) :
    Aside s (handleInviteReceived config a s msg) := by
  unfold handleInviteReceived
  split
  all_goals exact ⟨rfl, rfl⟩

theorem rows_handleRegister (hold : Rows R s) (hm : msg.method = some "REGISTER")
    (hr : ∀ d, (d, a.addr) ∈ acceptedOf md5 config a msg → R d a.addr []) :
    Rows R (handleRegister md5 config a s msg).1 ∧
      delivered (handleRegister md5 config a s msg).2 = [] := by
  unfold handleRegister registration
  dsimp only
  rw [show (msg.get "from").getD [] = field msg "from" from rfl]
  cases hu : uriUser (field msg "from") with
  | none => exact ⟨hold, rfl⟩
  | some d =>
    by_cases hp : (!passes md5 config.toSipServerConfig d msg.toSipMessage) = true
    · simp only [if_pos hp]
      exact ⟨hold, rfl⟩
    · simp only [if_neg hp]
      have hac : (d, a.addr) ∈ acceptedOf md5 config a msg := by
        rw [acceptedOf, if_pos hm, hu, filter_some, if_pos (by simpa using hp)]
        exact mem_singleton_self _
      split
      · exact ⟨hold.unregisterDevice d, by rw [delivered_append, delivered_unregisterDevice]; rfl⟩
      · exact ⟨hold.put (hr d hac), rfl⟩

/-- The message whose root this is answers the query with the number. -/
structure Reports (msg : ParsedSip) (sn : Nat) (root : XmlNode) : Prop where
  method : msg.method = some "MESSAGE"
  body : Xml.parseXml msg.body = .done root
  cmd : cmdType root = some "Catalog" ∨ cmdType root = some "DeviceInfo"
  number : snOf root = some sn

theorem forwardQueryResponse_spec (s : SipServer) (root : XmlNode) :
    (forwardQueryResponse s root).1.devices = s.devices ∧
    ∀ p ∈ delivered (forwardQueryResponse s root).2, p.2 = root ∧ snOf root = some p.1 := by
  unfold forwardQueryResponse
  split
  next sn hsn =>
    split
    · exact ⟨rfl, forall_mem_singleton.mpr ⟨rfl, hsn⟩⟩
    · exact ⟨rfl, forall_mem_nil _⟩
  next => exact ⟨rfl, forall_mem_nil _⟩

theorem rows_handleCommand {root : XmlNode} (hs : handleCommand s (sender msg) root = some r)
    (hold : Rows R s) (hm : msg.method = some "MESSAGE") (hb : Xml.parseXml msg.body = .done root)
    (hct : ∀ addr channels, cmdType root = some "Catalog" → R (sender msg) addr channels →
      R (sender msg) addr (parseCatalog root)) :
    Rows R r.1 ∧ ∀ p ∈ delivered r.2, Reports msg p.1 p.2 := by
  unfold handleCommand at hs
  split at hs
  next =>
    cases hs
    exact ⟨hold, forall_mem_nil _⟩
  next cmd hcm =>
    split at hs
    next =>
      split at hs
      · cases hs
        exact ⟨hold, forall_mem_nil _⟩
      · obtain ⟨three, -, rfl⟩ := map_eq_some_iff.mp hs
        refine ⟨hold.update ?_, forall_mem_nil _⟩
        exact fun v hv => hv
    next =>
      -- what is stored in the row differs, the answer goes the same way
      have hf : ∀ (t : SipServer), Rows R t →
          (cmdType root = some "Catalog" ∨ cmdType root = some "DeviceInfo") →
            Rows R (forwardQueryResponse t root).1 ∧
            ∀ p ∈ delivered (forwardQueryResponse t root).2, Reports msg p.1 p.2 := by
        intro t ht hrp
        obtain ⟨hd, han⟩ := forwardQueryResponse_spec t root
        refine ⟨fun e he => ht e (hd ▸ he), fun p hp => ?_⟩
        obtain ⟨hrt, hn⟩ := han p hp
        rw [hrt]
        exact ⟨hm, hb, hrp, hn⟩
      split at hs
      next hca =>
        cases hs
        have hca := hcm.trans (congrArg some hca)
        refine hf _ (hold.update ?_) (.inl hca)
        exact fun v => hct v.addr v.channels hca
      next =>
        split at hs
        next hi =>
          cases hs
          refine hf _ (hold.update ?_) (.inr (hcm.trans (congrArg some hi)))
          exact fun v hv => hv
        next =>
          cases hs
          exact ⟨hold, forall_mem_nil _⟩

/-- **What a datagram does to the rows and the queries.** A property of the rows stays if it holds
of an accepted device and of an unknown sender, and a catalog may come into the row of its sender;
only a report answers a query. -/
theorem rows_handleSip (hs : handleSip md5 parseIp config a s msg = some r)
    (hold : Rows R s) (hrg : ∀ d, (d, a.addr) ∈ acceptedOf md5 config a msg → R d a.addr [])
    (hu : msg.method = some "MESSAGE" → s.devices.lookup (sender msg) = none →
      R (sender msg) a.addr [])
    (hc : ∀ root addr channels, msg.method = some "MESSAGE" → Xml.parseXml msg.body = .done root →
      cmdType root = some "Catalog" → R (sender msg) addr channels →
      R (sender msg) addr (parseCatalog root)) :
    Rows R r.1 ∧ ∀ p ∈ delivered r.2, Reports msg p.1 p.2 := by
  have has : ∀ {r}, Aside s r → Rows R r.1 ∧ ∀ p ∈ delivered r.2, Reports msg p.1 p.2 :=
    fun {r} h =>
    ⟨fun e he => hold e (h.1 ▸ he), h.2 ▸ forall_mem_nil _⟩
  unfold handleSip at hs
  split at hs
  next =>
    cases hs
    exact has (aside_handleResponse s)
  next method hmt =>
    split at hs
    next hm =>
      cases hs
      obtain ⟨hrw, hn⟩ := rows_handleRegister hold (hmt.trans (congrArg some hm)) hrg
      exact ⟨hrw, hn ▸ forall_mem_nil _⟩
    next =>
      split at hs
      next hm =>
        have hmt := hmt.trans (congrArg some hm)
        obtain ⟨r, hr, rfl⟩ := map_eq_some_iff.mp hs
        rw [delivered_append, show delivered [_] = [] from rfl, append_nil]
        have ht : Rows R (touch a s (sender msg)) := by
          unfold touch
          split
          next =>
            refine hold.update ?_
            exact fun v hv => hv
          next hn => exact hold.put (hu hmt hn)
        split at hr
        next => cases hr
        next =>
          cases hr
          exact ⟨ht, forall_mem_nil _⟩
        next root hb =>
          exact rows_handleCommand hr ht hmt hb fun addr channels => hc root addr channels hmt hb
      next =>
        split at hs
        · cases hs
          exact has (aside_handleInviteReceived s)
        · split at hs
          · cases hs
            exact has (aside_handleBye s)
          · cases hs
            exact has ⟨rfl, rfl⟩

namespace Site

variable {t t' : Site} {act : SiteAction}

/-! ## Known devices -/

/-- Every device in the table was accepted, at its address. -/
def Known (s : Site) : Prop := ∀ e ∈ s.server.devices, (e.1, e.2.addr) ∈ s.accepted

/-- A MESSAGE comes from a device in the table, or from an address where its sender was accepted. -/
def Announced (s : Site) : SiteAction → Prop
  | .datagram a msg => msg.method = some "MESSAGE" →
      (s.server.devices.lookup (sender msg)).isSome = true ∨ (sender msg, a.addr) ∈ s.accepted
  | _ => True

instance (s : Site) : (act : SiteAction) → Decidable (Announced s act)
  | .datagram .. => inferInstanceAs (Decidable (_ → _ ∨ _))
  | .expire _ | .query .. | .send .. | .finish _ => .isTrue trivial

theorem known_step (h : t.Known) (hok : Announced t act)
    (hs : t.step md5 parseIp config act = some t') : t'.Known := by
  cases act with
  | datagram a msg =>
    obtain ⟨r, hr, rfl⟩ := map_eq_some_iff.mp hs
    refine (rows_handleSip (R := fun d addr _ => (d, addr) ∈ acceptedOf md5 config a msg ++
      t.accepted) hr ?_ ?_ ?_ ?_).1
    · exact fun e he => mem_append_right _ (h e he)
    · exact fun d hd => mem_append_left _ hd
    · intro hm hn
      rcases hok hm with hsm | ha
      · rw [hn] at hsm
        cases hsm
      · exact mem_append_right _ ha
    · exact fun _ _ _ _ _ _ hrw => hrw
  | expire id =>
    cases hs
    exact Rows.unregisterDevice (R := fun d addr _ => (d, addr) ∈ t.accepted) h id
  | query kind deviceId =>
    simp only [step] at hs
    split at hs <;> cases hs
    exact h
  | send sn ok =>
    simp only [step] at hs
    split at hs
    · cases hs
    · split at hs <;> cases hs <;> exact h
  | finish sn =>
    simp only [step] at hs
    split at hs
    · cases hs
    next q hq =>
      split at hs <;> cases hs
      · exact h
      · refine Rows.update (R := fun d addr _ => (d, addr) ∈ t.accepted) (s := t.server) h fun v
          hv => ?_
        unfold Query.store
        split <;> exact hv

/-- **Only accepted devices are known** in every run in which a MESSAGE from a device that is not in
the table comes from an address where it was accepted. -/
theorem devices_known (schedule : List SiteAction) (s : Site)
    (hrun : runSchedule (step md5 parseIp config) .new schedule = some s)
    (hok : Along (step md5 parseIp config) Announced .new schedule) : s.Known :=
  run_invariant_of (fun _ _ _ h hok hs => known_step h hok hs)
    (show new.Known from forall_mem_nil _) hok hrun

/-- MD5 of the texts that the samples hash. -/
private def sipMd5 (s : Str) : Str :=
  if s = "1:r:p" then "1eb04ad480138faa85bd92848182b389"
  else if s = "REGISTER:sip:h" then "bc64523ee7722d70d5bc9fe7f3481bc6"
  else if s = "1eb04ad480138faa85bd92848182b389:n:bc64523ee7722d70d5bc9fe7f3481bc6" then
    "a2886e788e8d7affc56c5742f38a42ed"
  else []

private def sipConfig : Config := ⟨⟨['r'], some ['p']⟩, []⟩

/-- A request from a port of one host. -/
private def request (port : Nat) (method user headers body : String) : SiteAction :=
  .datagram ⟨⟨['h'], port⟩, 0, [], [], [], 0, false, false⟩
    ⟨⟨"sip:h", [("from", user.toList), ("authorization", headers.toList)]⟩, some method.toList,
      none, body.toList⟩

private def registered : SiteAction :=
  request 1 "REGISTER" "sip:1@h" "Digest nonce=n,response=a2886e788e8d7affc56c5742f38a42ed" ""

theorem registered_device_known : ∃ s, runSchedule (step sipMd5 some sipConfig) .new
    [registered, request 1 "MESSAGE" "sip:1@h" "" ""] = some s ∧
      s.server.devices.map (·.1) = [['1']] ∧ s.Known := by
  obtain ⟨s, hs, hd⟩ : ∃ s, runSchedule (step sipMd5 some sipConfig) .new
    [registered, request 1 "MESSAGE" "sip:1@h" "" ""] = some s ∧
      s.server.devices.map (·.1) = [['1']] := by decide +kernel
  exact ⟨s, hs, hd, devices_known _ s hs (by decide +kernel)⟩

/-- A MESSAGE alone makes its sender known. -/
theorem stranger_known : ∃ s, runSchedule (step sipMd5 some sipConfig) .new
    [request 2 "MESSAGE" "sip:2@h" "" ""] = some s ∧ s.server.devices.map (·.1) = [['2']] ∧
    s.accepted = [] := by
  decide +kernel

/-! ## Answers to queries -/

/-- The answer is a message of the queried device, heard behind the request. -/
def Answered (heard : List Heard) (q : Query) (root : XmlNode) : Prop :=
  cmdType root = some q.kind.cmdType ∧
    ∃ n, q.sentAt = some n ∧ ∃ h ∈ heard.drop n, h.user = q.deviceId ∧ h.registered = true ∧
    h.root = root

/-- The channels come from a message of the device. -/
def Told (heard : List Heard) (deviceId : Str) (channels : List ChannelInfo) : Prop :=
  channels = [] ∨ ∃ h ∈ heard, h.user = deviceId ∧ h.registered = true ∧
    channels = parseCatalog h.root

/-- What the calls return and what is stored comes from the devices themselves. -/
def Genuine (s : Site) : Prop :=
  (∀ q ∈ s.results, ∃ root, q.answer = some root ∧ Answered s.heard q root) ∧
    ∀ e ∈ s.server.devices, Told s.heard e.1 e.2.channels

/-- A catalog comes from the address of its sender, and so does an answer to a query that waits,
which is for the sender and for what it reports, and has been sent. -/
def Faithful (s : Site) : SiteAction → Prop
  | .datagram a msg => ∀ h ∈ heardOf s.server a msg,
      (cmdType h.root = some "Catalog" → h.registered = true) ∧
      ((cmdType h.root = some "Catalog" ∨ cmdType h.root = some "DeviceInfo") →
        ∀ q ∈ s.queries, snOf h.root = some q.sn → q.answer.isNone = true →
          h.registered = true ∧ h.user = q.deviceId ∧ cmdType h.root = some q.kind.cmdType ∧
          q.sentAt.isSome = true)
  | _ => True

instance (s : Site) : (act : SiteAction) → Decidable (Faithful s act)
  | .datagram .. => inferInstanceAs (Decidable (∀ h ∈ _, _ ∧ _))
  | .expire _ | .query .. | .send .. | .finish _ => .isTrue trivial

structure Sound (s : Site) : Prop where
  genuine : s.Genuine
  answers : ∀ q ∈ s.queries, ∀ root, q.answer = some root → Answered s.heard q root
  sent : ∀ q ∈ s.queries, ∀ n, q.sentAt = some n → n ≤ s.heard.length

variable {heard : List Heard} {q : Query} {root : XmlNode}

theorem Answered.append (h : Answered heard q root) (more : List Heard) :
    Answered (heard ++ more) q root := by
  obtain ⟨hc, n, hn, e, he, hf⟩ := h
  exact ⟨hc, n, hn, e, by rw [drop_append]; exact mem_append_left _ he, hf⟩

theorem Told.append {d : Str} {channels : List ChannelInfo} (h : Told heard d channels)
    (more : List Heard) : Told (heard ++ more) d channels :=
  h.imp_right fun ⟨e, he, hf⟩ => ⟨e, mem_append_left _ he, hf⟩

theorem heardOf_eq (hm : msg.method = some "MESSAGE") (hb : Xml.parseXml msg.body = .done root) :
    heardOf s a msg =
      [⟨sender msg, (s.devices.lookup (sender msg)).any fun c => c.addr = a.addr, root⟩] := by
  rw [heardOf, hm, hb]
  rfl

theorem answered_datagram (h : t.Sound) (hok : Faithful t (.datagram a msg)) (hq : q ∈ t.queries)
    (hno : q.answer = none) (hrp : Reports msg q.sn root) :
    Answered (t.heard ++ heardOf t.server a msg) q root := by
  have hh := heardOf_eq (s := t.server) (a := a) hrp.method hrp.body
  obtain ⟨hrg, hu, hc, hs⟩ :=
    (hok _ (hh ▸ mem_singleton_self _)).2 hrp.cmd q hq hrp.number (hno ▸ rfl)
  obtain ⟨n, hn⟩ := isSome_iff_exists.mp hs
  refine ⟨hc, n, hn, _, ?_, hu, hrg, rfl⟩
  rw [drop_append_of_le_length (h.sent q hq n hn), hh]
  exact mem_append_right _ (mem_singleton_self _)

theorem sound_datagram (h : t.Sound) (hok : Faithful t (.datagram a msg))
    (hs : t.step md5 parseIp config (.datagram a msg) = some t') : t'.Sound := by
  obtain ⟨r, hr, rfl⟩ := map_eq_some_iff.mp hs
  obtain ⟨hrw, hd⟩ := rows_handleSip (R := fun d _ => Told (t.heard ++ heardOf t.server a msg) d) hr
    (fun e he => (h.genuine.2 e he).append _) (fun _ _ => .inl rfl) (fun _ _ => .inl rfl) (by
      intro root addr channels hmt hb hc _
      have hh := heardOf_eq (s := t.server) (a := a) hmt hb
      have hmem := hh ▸ mem_singleton_self _
      exact .inr ⟨_, mem_append_right _ hmem, rfl, (hok _ hmem).1 hc, rfl⟩)
  refine ⟨⟨fun q hq => ?_, hrw⟩, ?_, ?_⟩
  · obtain ⟨root, han, hf⟩ := h.genuine.1 q hq
    exact ⟨root, han, hf.append _⟩
  · intro q' hq' root han
    obtain ⟨q, hq, rfl⟩ := mem_map.mp hq'
    cases hold : q.answer with
    | some root' =>
      rw [hold] at han
      cases han
      exact (h.answers q hq root hold).append _
    | none =>
      rw [hold] at han
      exact answered_datagram (q := q) h hok hq hold (hd _ (mem_of_lookup han))
  · intro q' hq' n hn
    obtain ⟨q, hq, rfl⟩ := mem_map.mp hq'
    exact (h.sent q hq n hn).trans (length_append ▸ Nat.le_add_right _ _)

theorem sound_step (h : t.Sound) (hok : Faithful t act)
    (hs : t.step md5 parseIp config act = some t') : t'.Sound := by
  have hl : ∀ {sn}, ∀ q ∈ t.queries.filter (·.sn ≠ sn), q ∈ t.queries := fun q hq =>
    (mem_filter.mp hq).1
  cases act with
  | datagram a msg => exact sound_datagram h hok hs
  | expire id =>
    cases hs
    exact ⟨⟨h.genuine.1, Rows.unregisterDevice (R := fun d _ => Told t.heard d) h.genuine.2 id⟩,
      h.answers, h.sent⟩
  | query kind deviceId =>
    simp only [step] at hs
    split at hs <;> cases hs
    exact ⟨h.genuine, forall_mem_cons.mpr ⟨nofun, h.answers⟩, forall_mem_cons.mpr ⟨nofun, h.sent⟩⟩
  | send sn ok =>
    simp only [step] at hs
    split at hs
    · cases hs
    next q hq =>
      have hq := mem_of_find?_eq_some hq
      split at hs <;> cases hs
      · refine ⟨h.genuine, forall_mem_cons.mpr ⟨fun root hrt => ?_,
          fun q hq => h.answers q (hl q hq)⟩,
          forall_mem_cons.mpr ⟨fun n hn => ?_, fun q hq => h.sent q (hl q hq)⟩⟩
        · -- an answer came behind the request, which is sent once
          obtain ⟨hc, n, hn, hf⟩ := h.answers q hq root hrt
          exact ⟨hc, n, by rw [hn]; rfl, hf⟩
        · cases hsn : q.sentAt with
          | none => rw [hsn] at hn; exact (some.inj hn).ge
          | some m => rw [hsn] at hn; exact h.sent q hq n (hsn.trans hn)
      · exact ⟨h.genuine, fun q hq => h.answers q (hl q hq), fun q hq => h.sent q (hl q hq)⟩
  | finish sn =>
    simp only [step] at hs
    split at hs
    · cases hs
    next q hq =>
      have hq := mem_of_find?_eq_some hq
      split at hs <;> cases hs
      · exact ⟨h.genuine, fun q hq => h.answers q (hl q hq), fun q hq => h.sent q (hl q hq)⟩
      next root hsn hrt =>
        have han := h.answers q hq root hrt
        refine ⟨⟨forall_mem_cons.mpr ⟨⟨root, hrt, han⟩, h.genuine.1⟩, ?_⟩,
          fun q hq => h.answers q (hl q hq), fun q hq => h.sent q (hl q hq)⟩
        refine Rows.update (R := fun d _ => Told t.heard d) (s := t.server) h.genuine.2 fun v hv =>
          ?_
        unfold Query.store
        split
        next =>
          obtain ⟨-, n, -, e, he, hu, hrg, rfl⟩ := han
          exact .inr ⟨e, mem_of_mem_drop he, hu, hrg, rfl⟩
        next => exact hv

/-- **Answers come from the queried device** in every run in which no other message reports under a
number that waits, and catalogs come from the addresses of their senders. -/
theorem answers_genuine (schedule : List SiteAction) (s : Site)
    (hrun : runSchedule (step md5 parseIp config) .new schedule = some s)
    (hok : Along (step md5 parseIp config) Faithful .new schedule) : s.Genuine :=
  (run_invariant_of (fun _ _ _ h hok hs => sound_step h hok hs)
    (show new.Sound from ⟨⟨forall_mem_nil _, forall_mem_nil _⟩, forall_mem_nil _, forall_mem_nil _⟩)
    hok hrun).genuine

/-- The device 1 is asked for its catalog, and the user answers from the port. -/
private def asked (port : Nat) (user : String) : List SiteAction :=
  [registered, .query .catalog ['1'], .send 1 true, request port "MESSAGE" user ""
    "<R><CmdType>Catalog</CmdType><SN>1</SN><Item><DeviceID>c</DeviceID></Item></R>", .finish 1]

theorem asked_device_genuine : ∃ s, runSchedule (step sipMd5 some sipConfig) .new
    (asked 1 "sip:1@h") = some s ∧
    s.results.map (·.deviceId) = [['1']] ∧ s.Genuine := by
  obtain ⟨s, hs, hr⟩ : ∃ s,
    runSchedule (step sipMd5 some sipConfig) .new (asked 1 "sip:1@h") = some s ∧
    s.results.map (·.deviceId) = [['1']] := by decide +kernel
  exact ⟨s, hs, hr, answers_genuine _ s hs (by decide +kernel)⟩

/-- Another user answers in place of the device, and its channels are stored for the device. -/
theorem stranger_answers : ∃ s,
    runSchedule (step sipMd5 some sipConfig) .new (asked 2 "sip:2@h") = some s ∧
    s.results.map (·.deviceId) = [['1']] ∧ s.heard.map (·.user) = [['2']] ∧
    (s.server.devices.lookup ['1']).map (fun d => d.channels.map (·.channelId)) = some [['c']] := by
  decide +kernel

end Site

end MediaKit.Gb28181.Signaling
