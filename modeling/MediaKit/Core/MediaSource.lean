import MediaKit.Core.GopCache
import MediaKit.Core.Proxy

/-!
# Media sources and their manager

`MediaSource` and `MediaSourceManager` of `crates/core/src/media_source.rs`. A source is shared: the
manager has it under its id, and sessions hold it by themselves (`Arc`). Closing a source drops its
broadcast sender; taking it out of the manager does not close it, and a source that is closed
directly stays in the manager.

Main result: `serves_iff`. A source delivers what is published into it exactly as long as it has its
sender.

Mirroring notes vs the Rust source:
- The manager is a registry (`MediaKit.Lib.Registry`): ids to handles, handles to sources. An `Arc`
  is a handle.
- A receiver is its place in what was sent; of a channel whose sender is gone it is nothing. It
  keeps the last 256 frames that it has not taken, as `broadcast::channel(256)` does; frames that
  are sent without a receiver are dropped.
- The map of subscribers is in `MediaKit.Core.Subscribers`. Track lists, descriptors and the
  creation time are left out. -/

namespace MediaKit.Core

open Lib List Option Function

open Registry

/-- A `broadcast::Sender`. -/
structure Channel where
  capacity : Nat
  receivers : Nat
  sent : List MediaFrame
  capacity_pos : 0 < capacity

/-- `broadcast::channel`. -/
def Channel.new (capacity : Nat) (h : 0 < capacity) : Channel := ⟨capacity, 0, [], h⟩

/-- `tx.send`. -/
def Channel.send (c : Channel) (f : MediaFrame) : Channel :=
  if c.receivers = 0 then c else { c with sent := c.sent ++ [f] }

/-- A `broadcast::Receiver`: what was sent before it, or `none` on a channel without a sender. -/
structure Receiver where
  position : Option Nat

structure MediaSource where
  id : Str
  vhost : Str
  app : Str
  stream : Str
  frameTx : Option Channel
  gopCache : GopCache MediaFrame
  bytesIn : UInt64
  bytesOut : UInt64
  /-- `format!("{}/{}/{}", vhost, app, stream)`. -/
  id_eq : id = streamKey vhost app stream

variable (vhost app stream : Str)

namespace MediaSource

def new : MediaSource where
  id := streamKey vhost app stream
  vhost := vhost
  app := app
  stream := stream
  frameTx := some (.new 256 (by decide))
  gopCache := .new
  bytesIn := 0
  bytesOut := 0
  id_eq := rfl

variable (src : MediaSource)

def subscribe : MediaSource × Receiver :=
  match src.frameTx with
  | some tx => ({ src with frameTx := some { tx with receivers := tx.receivers + 1 } },
    ⟨some tx.sent.length⟩)
  | none => (src, ⟨none⟩)

def close : MediaSource := { src with frameTx := none }

def publishAndCache (f : MediaFrame) : MediaSource :=
  let payloadLen := UInt64.ofNat f.data.length
  let receivers := (src.frameTx.map Channel.receivers).getD 0
  { src with
    bytesIn := src.bytesIn + payloadLen
    gopCache := src.gopCache.cacheFrame (fun f => f) f
    frameTx := src.frameTx.map fun tx => tx.send f
    bytesOut := if receivers > 0 then src.bytesOut + payloadLen * UInt64.ofNat receivers
      else src.bytesOut }

/-- What a receiver of the source has not taken yet. -/
def backlog (r : Receiver) : List MediaFrame :=
  match r.position, src.frameTx with
  | some position, some tx =>
    (tx.sent.drop position).drop ((tx.sent.drop position).length - tx.capacity)
  | _, _ => []

@[simp] theorem close_id : src.close.id = src.id := rfl

@[simp] theorem publishAndCache_id (f : MediaFrame) : (src.publishAndCache f).id = src.id := rfl

/-! ## Delivery -/

/-- The source has its sender. -/
def IsOpen : Prop := src.frameTx.isSome = true

instance : Decidable src.IsOpen := inferInstanceAs (Decidable (_ = _))

theorem isOpen_publishAndCache (f : MediaFrame) : (src.publishAndCache f).IsOpen ↔ src.IsOpen := by
  simp only [IsOpen, publishAndCache, isSome_map]

theorem not_isOpen_close : ¬src.close.IsOpen := by simp [IsOpen, close]

/-- A frame that is published into the source is the last that a receiver has to take, whoever
subscribed through the source before and whatever was published in between. -/
def Serves : Prop :=
  ∀ (between : List MediaFrame) (f : MediaFrame),
    (((between ++ [f]).foldl publishAndCache src.subscribe.1).backlog src.subscribe.2).getLast? =
      some f

theorem foldl_publishAndCache (fs : List MediaFrame) :
    ∀ (src : MediaSource) {tx : Channel}, src.frameTx = some tx →
    0 < tx.receivers → (fs.foldl publishAndCache src).frameTx =
      some { tx with sent := tx.sent ++ fs } := by
  induction fs with
  | nil =>
    intro src tx htx _
    rw [foldl_nil, htx, append_nil]
  | cons f fs ih =>
    intro src tx htx hpos
    have hs : (src.publishAndCache f).frameTx = some { tx with sent := tx.sent ++ [f] } := by
      simp only [publishAndCache, htx, map_some, Channel.send, if_neg (Nat.ne_of_gt hpos)]
    rw [foldl_cons, ih _ hs hpos, append_assoc, singleton_append]

theorem serves_of_isOpen (h : src.IsOpen) : src.Serves := by
  obtain ⟨tx, htx⟩ := isSome_iff_exists.mp h
  intro between f
  have hsb : src.subscribe =
      ({ src with frameTx := some { tx with receivers := tx.receivers + 1 } },
        ⟨some tx.sent.length⟩) := by
    simp only [subscribe, htx]
  rw [hsb]
  have hsn := foldl_publishAndCache (between ++ [f])
    { src with frameTx := some { tx with receivers := tx.receivers + 1 } } rfl (Nat.succ_pos _)
  have hpos := tx.capacity_pos
  simp only [backlog, hsn, drop_left]
  -- at least one frame stays in the channel
  rw [getLast?_drop, if_neg (by simp only [length_append, length_singleton]; omega),
    getLast?_concat]

theorem not_serves_of_closed (h : ¬src.IsOpen) : ¬src.Serves := by
  intro hs
  have hn : src.frameTx = none := not_isSome_iff_eq_none.mp h
  have hl := hs [] (.newVideo 0 .h264 0 0 0 [] false)
  simp only [subscribe, hn] at hl
  cases hl

/-- **A source delivers as long as it has its sender.** -/
theorem serves_iff : src.Serves ↔ src.IsOpen :=
  ⟨fun h => by_contra fun hc => src.not_serves_of_closed hc h, src.serves_of_isOpen⟩

end MediaSource

/-! ## The manager -/

abbrev SourceManager := Registry MediaSource.id

namespace SourceManager

variable (m : SourceManager)
  {h h' : Nat} {f : MediaSource → MediaSource}

def getOrCreate : SourceManager × Nat := m.getOrInsert (.new vhost app stream)

def get : Option Nat := m.names (streamKey vhost app stream)

/-- `remove`, without the source that it returns. -/
def removeSource : SourceManager := m.remove (streamKey vhost app stream)

/-- `close` of a source that someone holds. -/
def closeSource (h : Nat) : SourceManager := m.modify h MediaSource.close MediaSource.close_id

/-- `close_stream`, for an id. -/
def closeId (id : Str) : SourceManager × Bool :=
  match m.names id with
  | some h => ((m.remove id).modify h MediaSource.close MediaSource.close_id, true)
  | none => (m, false)

def closeStream : SourceManager × Bool := m.closeId (streamKey vhost app stream)

/-- The handle is that of an open source. -/
def OpenAt (h : Nat) : Prop := ∃ src, m.heap h = some src ∧ src.IsOpen

/-- `close_stream` takes the id out of the table. -/
theorem closeId_names (id : Str) : (m.closeId id).1.names = update m.names id none := by
  unfold closeId
  split
  · rfl
  case h_2 hn =>
    refine (update_eq_self_iff.mpr ?_).symm
    exact hn.symm

theorem openAt_closeId {id : Str} (hne : m.names id ≠ some h) :
    (m.closeId id).1.OpenAt h ↔ m.OpenAt h := by
  unfold closeId
  split
  case h_1 h' hid =>
    have hh : h ≠ h' := fun heq => hne (heq ▸ hid)
    unfold OpenAt
    rw [heap_modify_of_ne _ hh]
    rfl
  case h_2 => rfl

theorem openAt_closeSource (hne : h ≠ h') : (m.closeSource h').OpenAt h ↔ m.OpenAt h := by
  unfold OpenAt closeSource
  rw [heap_modify_of_ne _ hne]

theorem not_openAt_closeSource (h : Nat) : ¬(m.closeSource h).OpenAt h := by
  rintro ⟨src, hs, ho⟩
  rw [closeSource, heap_modify_self] at hs
  obtain ⟨src', -, rfl⟩ := map_eq_some_iff.mp hs
  exact src'.not_isOpen_close ho

theorem openAt_getOrCreate (hop : m.OpenAt h) : (m.getOrCreate vhost app stream).1.OpenAt h := by
  obtain ⟨src, hs, ho⟩ := hop
  exact ⟨src, m.heap_getOrInsert _ hs, ho⟩

/-- What `get_or_create` returns is open if what it finds is. -/
theorem openAt_getOrCreate_self {vhost app stream : Str}
    (ho : ∀ h, m.get vhost app stream = some h → m.OpenAt h) :
    (m.getOrCreate vhost app stream).1.OpenAt (m.getOrCreate vhost app stream).2 := by
  cases hk : m.get vhost app stream with
  | some h =>
    have heq : m.getOrCreate vhost app stream = (m, h) := m.getOrInsert_of_some hk
    rw [heq]
    exact ho h hk
  | none => exact ⟨_, (m.getOrInsert_spec _).2.2.2.2 hk, rfl⟩

theorem openAt_modify (hf : ∀ src, (f src).id = src.id) (hop : ∀ src, src.IsOpen → (f src).IsOpen)
    (h : Nat) (ho : m.OpenAt h') : OpenAt (m.modify h f hf) h' := by
  obtain ⟨src, hs, ho⟩ := ho
  by_cases heq : h' = h
  · subst heq
    exact ⟨f src, by rw [heap_modify_self, hs, map_some], hop src ho⟩
  · exact ⟨src, by rw [heap_modify_of_ne _ heq, hs], ho⟩

/-- What all calls have in common: a source stays where it is, and is not opened again. -/
structure Evolves (m m' : SourceManager) : Prop where
  stays : ∀ {h src}, m.heap h = some src → ∃ src', m'.heap h = some src'
  opened : ∀ {h src}, m.heap h = some src → m'.OpenAt h → m.OpenAt h

theorem Evolves.refl : Evolves m m := ⟨fun hs => ⟨_, hs⟩, fun _ ho => ho⟩

theorem Evolves.trans {m₁ m₂ m₃ : SourceManager} (h : Evolves m₁ m₂) (h' : Evolves m₂ m₃) :
    Evolves m₁ m₃ where
  stays hs := h'.stays (h.stays hs).choose_spec
  opened hs ho := h.opened hs (h'.opened (h.stays hs).choose_spec ho)

theorem evolves_getOrCreate : Evolves m (m.getOrCreate vhost app stream).1 where
  stays hs := ⟨_, m.heap_getOrInsert _ hs⟩
  opened hs := by
    rintro ⟨src', hs', ho⟩
    rw [getOrCreate, m.heap_getOrInsert _ hs] at hs'
    cases hs'
    exact ⟨_, hs, ho⟩

theorem evolves_modify (hf : ∀ src, (f src).id = src.id)
    (hop : ∀ src, (f src).IsOpen → src.IsOpen) (h : Nat) : Evolves m (m.modify h f hf) where
  stays {h' src} hs := by
    by_cases heq : h' = h
    · subst heq
      exact ⟨f src, by rw [heap_modify_self, hs, map_some]⟩
    · exact ⟨src, by rw [heap_modify_of_ne _ heq, hs]⟩
  opened {h' src} hs := by
    rintro ⟨src', hs', ho⟩
    by_cases heq : h' = h
    · subst heq
      rw [heap_modify_self, hs] at hs'
      cases hs'
      exact ⟨src, hs, hop src ho⟩
    · rw [heap_modify_of_ne _ heq] at hs'
      exact ⟨src', hs', ho⟩

theorem evolves_closeSource (h : Nat) : Evolves m (m.closeSource h) :=
  m.evolves_modify MediaSource.close_id (fun src ho => absurd ho src.not_isOpen_close) h

theorem evolves_closeId (id : Str) : Evolves m (m.closeId id).1 := by
  unfold closeId
  split
  case h_1 h _ =>
    have hr : Evolves m (m.remove id) := ⟨fun hs => ⟨_, hs⟩, fun _ ho => ho⟩
    exact hr.trans (evolves_closeSource (m.remove id) h)
  case h_2 => exact Evolves.refl m

end SourceManager

end MediaKit.Core
