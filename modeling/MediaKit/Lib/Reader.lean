import Mathlib.Data.List.Induction

/-!
# Incremental readers

A connection hands its reader whatever bytes have arrived; the reader appends
them to a buffer and takes items off the front until it has to wait. `Attempt`
is the outcome of one try at the front of the buffer, `drain`/`feed` the loop
around it, and `feedAll` a whole connection: one `feed` per read.

The one property that matters is `Extends`: an attempt that takes an item (or
crashes) does the same when more bytes stand behind the buffer. From it,
`feed_append`: a buffer may be drained at any point before the rest of it arrives.

The last sections compare an eager reader, that may also take half an item,
with a careful one that waits for the whole of it (`Delays`): cuts at which both
wait cannot be observed (`feedAll_eq_feed_of_cuts`), and when every other
cut shows at the next byte these are the only ones (`feedAll_eq_feed_iff`). Where it
is the eager reader whose attempts are decided by the bytes they saw, the careful one
keeps up with it exactly as long as the two agree on everything that they come to see
(`feedAll_eq_feed_iff_throughout`).
-/

namespace MediaKit.Lib

open List Option

/-- One try at the front of the buffer: not enough bytes yet, a panic, or some
bytes taken (with the new state, the items produced and the bytes left). -/
inductive Attempt (σ α β : Type) where
  | wait
  | crash
  | take (s : σ) (out : List β) (rest : List α)

/-- The attempts of a parser, by its state and its buffer. -/
abbrev Reader (σ α β : Type) := σ → List α → Attempt σ α β

variable {σ α β : Type}

/-- The state, items and leftover bytes of a finished loop. `none` is a panic. -/
abbrev Fed (σ α β : Type) := Option (σ × List β × List α)

/-- Put the items `o` in front of those of a later loop. -/
def Fed.prepend (o : List β) (f : Fed σ α β) : Fed σ α β := f.map fun r => (r.1, o ++ r.2.1, r.2.2)

variable (o : List β)

@[simp] theorem Fed.prepend_some (s : σ) (o' : List β) (r : List α) :
    Fed.prepend o (some (s, o', r)) = some (s, o ++ o', r) := rfl

variable (f : Fed σ α β)

@[simp] theorem Fed.prepend_nil : Fed.prepend [] f = f := by
  cases f <;> rfl

variable {s : σ}

theorem Fed.prepend_head {x y : β} {f : Fed σ α β} {o : List β} {r : List α}
    (h : Fed.prepend [x] f = some (s, y :: o, r)) : x = y := by
  cases f with
  | none => cases h
  | some q =>
    simp only [Fed.prepend, map_some, singleton_append, some.injEq, Prod.mk.injEq,
      List.cons.injEq] at h
    exact h.2.1.1

theorem Fed.prepend_prepend (o o' : List β) (f : Fed σ α β) :
    Fed.prepend o (Fed.prepend o' f) = Fed.prepend (o ++ o') f := by
  cases f with
  | none => rfl
  | some r => simp [Fed.prepend]

theorem Fed.map_out_prepend : (Fed.prepend o f).map (fun q => q.2.1) =
    (f.map fun q => q.2.1).map (o ++ ·) := by
  cases f with
  | none | some => rfl

theorem Fed.map_out_prepend_append (g : List α → List β) :
    (Fed.prepend o f).map (fun q => q.2.1 ++ g q.2.2) =
      (f.map fun q => q.2.1 ++ g q.2.2).map (o ++ ·) := by
  cases f with
  | none => rfl
  | some q => exact congrArg some (append_assoc _ _ _)

/-- At most `n` attempts, stopping at the first that has to wait. -/
def drain (next : Reader σ α β) : Nat → σ → List α → Fed σ α β
  | 0, s, b => some (s, [], b)
  | n + 1, s, b =>
    match next s b with
    | .wait => some (s, [], b)
    | .crash => none
    | .take s' o r => Fed.prepend o (drain next n s' r)

/-- The loop of one read. `next` takes at least one byte each time
(`Shrinks`), so this many attempts always reach a `wait`. -/
def feed (next : Reader σ α β) (s : σ) (b : List α) : Fed σ α β :=
  drain next (b.length + 1) s b

/-- Every item consumes bytes. -/
def Shrinks (next : Reader σ α β) : Prop :=
  ∀ s b s' o r, next s b = .take s' o r → r.length < b.length

variable {next : Reader σ α β}

theorem drain_eq_of_lt (hs : Shrinks next) :
    ∀ (n m : Nat) (s : σ) (b : List α), b.length < n → b.length < m →
      drain next n s b = drain next m s b := by
  intro n
  induction n with
  | zero => intro m s b hn; omega
  | succ n ih =>
    intro m s b hn hm
    cases m with
    | zero => omega
    | succ m =>
      simp only [drain]
      cases hnx : next s b with
      | wait | crash => rfl
      | take s' o r =>
        have hlt := hs s b s' o r hnx
        simp only
        rw [ih m s' r (by omega) (by omega)]

theorem feed_of_wait {b : List α} (h : next s b = .wait) : feed next s b = some (s, [], b) := by
  simp [feed, drain, h]

theorem feed_of_crash {b : List α} (h : next s b = .crash) : feed next s b = none := by
  simp [feed, drain, h]

theorem feed_of_take (hs : Shrinks next) {s s' : σ} {b r : List α} {o : List β}
    (h : next s b = .take s' o r) : feed next s b = Fed.prepend o (feed next s' r) := by
  have hlt := hs s b s' o r h
  unfold feed
  rw [← drain_eq_of_lt hs b.length (r.length + 1) s' r hlt (by omega)]
  simp only [drain, h]

/-- Induction along the loop of one read: its last attempt waits or crashes,
every earlier one takes an item. -/
theorem feed_induction (hs : Shrinks next) {P : σ → List α → Prop}
    (wait : ∀ s b, next s b = .wait → P s b) (crash : ∀ s b, next s b = .crash → P s b)
    (take : ∀ s b s' o r, next s b = .take s' o r → P s' r → P s b) (s : σ) (b : List α) :
    P s b := by
  induction hn : b.length using Nat.strongRecOn generalizing s b with
  | ind n ih =>
    subst hn
    cases h : next s b with
    | wait => exact wait s b h
    | crash => exact crash s b h
    | take s' o r => exact take s b s' o r h (ih r.length (hs s b s' o r h) s' r rfl)

/-- Induction along a loop that ends: its last attempt waits. -/
theorem feed_some_induction (hs : Shrinks next) {s' : σ} {r : List α} {P : σ → List α → Prop}
    (hw : next s' r = .wait → P s' r)
    (ht : ∀ s b s₁ o₁ r₁, next s b = .take s₁ o₁ r₁ → P s₁ r₁ → P s b) (s : σ) (b : List α) :
    ∀ {o}, feed next s b = some (s', o, r) → P s b := by
  induction s, b using feed_induction hs with
  | wait s b h =>
    intro o hf
    rw [feed_of_wait h] at hf
    cases hf
    exact hw h
  | crash s b h =>
    intro o hf
    rw [feed_of_crash h] at hf
    cases hf
  | take s b s₁ o₁ r₁ h ih =>
    intro o hf
    rw [feed_of_take hs h] at hf
    cases hf₁ : feed next s₁ r₁ with
    | none => rw [hf₁] at hf; cases hf
    | some q =>
      rw [hf₁] at hf
      cases hf
      exact ht s b s₁ o₁ r₁ h (ih hf₁)

theorem feed_waits (hs : Shrinks next) (s : σ) (b : List α) {s' o r}
    (hf : feed next s b = some (s', o, r)) : next s' r = .wait := by
  refine feed_some_induction hs (P := fun _ _ => next s' r = .wait) id ?_ s b hf
  exact fun _ _ _ _ _ _ ih => ih

theorem feed_invariant (hs : Shrinks next) {I : σ → Prop}
    (hst : ∀ s b s' o r, I s → next s b = .take s' o r → I s') (s : σ) (b : List α) {s' o r}
    (hi : I s) (hf : feed next s b = some (s', o, r)) : I s' := by
  refine feed_some_induction hs (P := fun s _ => I s → I s') (fun _ => id) ?_ s b hf hi
  exact fun s b s₁ o₁ r₁ h ih hi => ih (hst s b s₁ o₁ r₁ hi h)

/-- An attempt that does not wait is decided by the bytes it saw: more bytes
behind them change nothing but what is left over. -/
def Extends (next : Reader σ α β) : Prop :=
  ∀ s b t, (∀ s' o r, next s b = .take s' o r → next s (b ++ t) = .take s' o (r ++ t)) ∧
    (next s b = .crash → next s (b ++ t) = .crash)

/-- Reading `b` and then `t` is reading `b ++ t`. -/
theorem feed_append (hs : Shrinks next) (he : Extends next) (s : σ) (b : List α) (t : List α) :
    feed next s (b ++ t)
      = (feed next s b).bind fun q => Fed.prepend q.2.1 (feed next q.1 (q.2.2 ++ t)) := by
  induction s, b using feed_induction hs with
  | wait s b h => simp [feed_of_wait h]
  | crash s b h =>
    rw [feed_of_crash h, feed_of_crash ((he s b t).2 h)]
    rfl
  | take s b s' o r h ih =>
    rw [feed_of_take hs h, feed_of_take hs ((he s b t).1 s' o r h), ih]
    cases feed next s' r with
    | none => rfl
    | some q =>
      simp only [bind_some, Fed.prepend_prepend]
      rfl

/-- A connection: every piece is appended to the bytes left over and drained. -/
def feedAll (next : Reader σ α β) : σ → List α → List (List α) → Fed σ α β
  | s, buf, [] => some (s, [], buf)
  | s, buf, p :: ps =>
    (feed next s (buf ++ p)).bind fun q => Fed.prepend q.2.1 (feedAll next q.1 q.2.2 ps)

/-! ## Eager readers -/

/-- `careful` waits more often than `eager`, and otherwise does the same. -/
def Delays (careful eager : Reader σ α β) : Prop :=
  ∀ s b, careful s b = .wait ∨ careful s b = eager s b

theorem Fed.prepend_inj {o : List β} {f g : Fed σ α β}
    (h : Fed.prepend o f = Fed.prepend o g) : f = g := by
  refine map_injective ?_ h
  rintro ⟨s, o₁, r⟩ ⟨s', o₂, r'⟩ hq
  simp only [Prod.mk.injEq, append_cancel_left_eq] at hq
  obtain ⟨rfl, rfl, rfl⟩ := hq
  rfl

theorem Fed.prepend_bind (k : σ → List α → Fed σ α β) :
    (Fed.prepend o f).bind (fun q => Fed.prepend q.2.1 (k q.1 q.2.2))
      = Fed.prepend o (f.bind fun q => Fed.prepend q.2.1 (k q.1 q.2.2)) := by
  cases f with
  | none => rfl
  | some q => exact (Fed.prepend_prepend o q.2.1 _).symm

variable {careful eager : Reader σ α β}

/-- A loop of the eager reader is one of the careful reader, followed by what
the eager one still takes. -/
theorem feed_eager (hc : Shrinks careful) (he : Shrinks eager) (hd : Delays careful eager) (s : σ)
    (b : List α) : feed eager s b
      = (feed careful s b).bind fun q => Fed.prepend q.2.1 (feed eager q.1 q.2.2) := by
  induction s, b using feed_induction hc with
  | wait s b h => simp [feed_of_wait h]
  | crash s b h =>
    have heq : eager s b = .crash := by rw [← (hd s b).resolve_left (by rw [h]; nofun), h]
    rw [feed_of_crash h, feed_of_crash heq]
    rfl
  | take s b s' o r h ih =>
    have heq : eager s b = .take s' o r := by rw [← (hd s b).resolve_left (by rw [h]; nofun), h]
    rw [feed_of_take hc h, feed_of_take he heq, ih]
    exact (Fed.prepend_bind o (feed careful s' r) (feed eager)).symm

theorem feed_eager_append (hc : Shrinks careful) (he : Shrinks eager) (hx : Extends careful)
    (hd : Delays careful eager) (s : σ) (b t : List α) :
    feed eager s (b ++ t)
      = (feed careful s b).bind fun q => Fed.prepend q.2.1 (feed eager q.1 (q.2.2 ++ t)) := by
  rw [feed_eager hc he hd s (b ++ t), feed_append hc hx s b t]
  cases feed careful s b with
  | none => rfl
  | some q =>
    simp only [bind_some]
    rw [feed_eager hc he hd q.1 (q.2.2 ++ t)]
    exact Fed.prepend_bind q.2.1 _ (feed eager)

theorem feedAll_concat (next : Reader σ α β) (p : List α) :
    ∀ (ps : List (List α)) (s : σ) (buf : List α), feedAll next s buf (ps ++ [p])
      = (feedAll next s buf ps).bind fun q => Fed.prepend q.2.1 (feed next q.1 (q.2.2 ++ p)) := by
  intro ps
  induction ps with
  | nil =>
    intro s buf
    cases h : feed next s (buf ++ p) with
    | none | some => simp [feedAll, h]
  | cons p' ps ih =>
    intro s buf
    simp only [cons_append, feedAll]
    cases feed next s (buf ++ p') with
    | none => rfl
    | some q =>
      simp only [bind_some]
      rw [ih q.1 q.2.2]
      exact (Fed.prepend_bind q.2.1 _ fun s b => feed next s (b ++ p)).symm

theorem feedAll_waits (hs : Shrinks next) :
    ∀ (ps : List (List α)) {s s' : σ} {buf r : List α} {o : List β}, next s buf = .wait →
      feedAll next s buf ps = some (s', o, r) → next s' r = .wait := by
  intro ps
  induction ps with
  | nil =>
    intro s s' buf r o hw h
    obtain ⟨rfl, -, rfl⟩ := h
    exact hw
  | cons p ps ih =>
    intro s s' buf r o hw h
    simp only [feedAll] at h
    cases hf : feed next s (buf ++ p) with
    | none => rw [hf] at h; cases h
    | some q =>
      rw [hf, bind_some] at h
      cases hg : feedAll next q.1 q.2.2 ps with
      | none => rw [hg] at h; cases h
      | some q' =>
        rw [hg] at h
        obtain ⟨rfl, -, rfl⟩ := h
        exact ih (feed_waits hs s (buf ++ p) hf) hg

theorem feedAll_concat_nil (hs : Shrinks next) {buf : List α} (hw : next s buf = .wait)
    (ps : List (List α)) : feedAll next s buf (ps ++ [[]]) = feedAll next s buf ps := by
  rw [feedAll_concat]
  cases h : feedAll next s buf ps with
  | none => rfl
  | some q =>
    simp [feed_of_wait (feedAll_waits hs ps hw h)]

/-- The stream ends where the eager reader waits as the careful one does. -/
def CleanEnd (careful eager : Reader σ α β) (s : σ) (stream : List α) : Prop :=
  ∀ s' o r, feed careful s stream = some (s', o, r) → eager s' r = .wait

/-- Every cut that has bytes behind it is a clean end of the bytes before it. -/
def CleanCuts (careful eager : Reader σ α β) (s : σ) (ps : List (List α)) : Prop :=
  ∀ qs rs, ps = qs ++ rs → rs.flatten ≠ [] → CleanEnd careful eager s qs.flatten

/-- What has been read at some moment of the connection `ps`: whole pieces and
a part of the next one. -/
def Snapshot (ps ts : List (List α)) : Prop :=
  ∃ qs q q' rs, ps = qs ++ (q ++ q') :: rs ∧ ts = qs ++ [q]

section EagerRuns

variable {careful eager : Reader σ α β} (hc : Shrinks careful)
  (he : Shrinks eager) (hx : Extends careful) (hd : Delays careful eager)
include hc he hx hd

theorem feed_append_of_cleanEnd {b : List α} (h : CleanEnd careful eager s b) (t : List α) :
    feed eager s (b ++ t)
      = (feed eager s b).bind fun q => Fed.prepend q.2.1 (feed eager q.1 (q.2.2 ++ t)) := by
  rw [feed_eager_append hc he hx hd s b t, feed_eager hc he hd s b]
  cases hf : feed careful s b with
  | none => rfl
  | some q =>
    obtain ⟨s', o, r⟩ := q
    simp [feed_of_wait (h s' o r hf)]

/-- **Clean cuts cannot be observed.** -/
theorem feedAll_eq_feed_of_cuts (hw : eager s [] = .wait) (ps : List (List α)) :
    CleanCuts careful eager s ps → feedAll eager s [] ps = feed eager s ps.flatten := by
  induction ps using reverseRecOn with
  | nil =>
    intro _
    rw [feedAll, flatten_nil, feed_of_wait hw]
  | append_singleton ps p ih =>
    intro hct
    have hct' : CleanCuts careful eager s ps := by
      intro qs rs heq hne
      refine hct qs (rs ++ [p]) (by rw [heq, append_assoc]) ?_
      simp [hne]
    by_cases hp : p = []
    · rw [hp, feedAll_concat_nil he hw, ih hct']
      simp
    · have hen := hct ps [p] rfl (by simpa using hp)
      rw [feedAll_concat, ih hct', flatten_append, flatten_singleton,
        feed_append_of_cleanEnd hc he hx hd hen]

/-- **The clean cuts are the invisible ones**, provided that any other end of
the bytes so far shows at the very next byte (`hs`). -/
theorem feedAll_eq_feed_iff (hw : eager s [] = .wait)
    (hs : ∀ stream s' o r x, feed careful s stream = some (s', o, r) → eager s' r ≠ .wait →
      feed eager s' (r ++ [x]) ≠ (feed eager s' r).bind fun q =>
        Fed.prepend q.2.1 (feed eager q.1 (q.2.2 ++ [x])))
    (ps : List (List α)) :
    (∀ ts, Snapshot ps ts → feedAll eager s [] ts = feed eager s ts.flatten) ↔
    CleanCuts careful eager s ps := by
  constructor
  · intro hal qs rs hps hne s' o r hf
    -- the first byte behind the cut, past empty pieces
    obtain ⟨es, x, p, rs', hrs, hes⟩ : ∃ es x p rs', rs = es ++ (x :: p) :: rs' ∧
        es.flatten = ([] : List α) := by
      clear hps
      induction rs with
      | nil => exact absurd rfl hne
      | cons p rs ih =>
        cases p with
        | cons x p => exact ⟨[], x, p, rs, rfl, rfl⟩
        | nil =>
          obtain ⟨es, x, p, rs', h, hes⟩ := ih (by simpa using hne)
          exact ⟨[] :: es, x, p, rs', by rw [h]; rfl, by simpa using hes⟩
    have hb := hal (qs ++ es ++ [[]])
      ⟨qs ++ es, [], x :: p, rs', by rw [hps, hrs]; simp, rfl⟩
    have haf := hal (qs ++ es ++ [[x]])
      ⟨qs ++ es, [x], p, rs', by rw [hps, hrs]; simp, rfl⟩
    rw [feedAll_concat_nil he hw] at hb
    rw [feedAll_concat, hb] at haf
    simp only [flatten_append, hes, append_nil, flatten_singleton] at haf
    by_contra hne'
    refine hs qs.flatten s' o r x hf hne' ?_
    rw [feed_eager_append hc he hx hd s qs.flatten [x], feed_eager hc he hd s qs.flatten, hf,
      bind_some, bind_some, Fed.prepend_bind o _ fun s b => feed eager s (b ++ [x])] at haf
    exact (Fed.prepend_inj haf).symm
  · rintro hct ts ⟨qs, q, q', rs, hps, rfl⟩
    refine feedAll_eq_feed_of_cuts hc he hx hd hw (qs ++ [q]) ?_
    intro qs' rs' heq hne
    rcases append_eq_append_iff.mp heq with ⟨as, rfl, hq⟩ | ⟨bs, rfl, hq⟩
    · rcases append_eq_singleton_iff.mp hq.symm with ⟨rfl, rfl⟩ | ⟨rfl, rfl⟩
      · refine hct (qs ++ []) ((q ++ q') :: rs) (by rw [hps]; simp) ?_
        intro h
        simp only [flatten_cons, append_eq_nil_iff] at h
        exact hne (by simp [h.1.1])
      · exact absurd rfl hne
    · refine hct qs' (bs ++ (q ++ q') :: rs) (by rw [hps]; simp) ?_
      intro h
      refine hne ?_
      rw [hq]
      simp only [flatten_append, flatten_cons, append_eq_nil_iff] at h
      simp [h.1, h.2.1.1]

end EagerRuns

/-! ## Hesitant readers -/

/-- The states and buffers that the loop of one read comes to see. -/
inductive Reaches (next : Reader σ α β) : σ → List α → σ → List α → Prop
  | refl (s : σ) (b : List α) : Reaches next s b s b
  | take {s s' s'' : σ} {b r b'' : List α} {o : List β} (h : next s b = .take s' o r)
    (hr : Reaches next s' r s'' b'') : Reaches next s b s'' b''

/-- The loop of one read crashes exactly if it comes to see something at which an attempt
crashes. -/
theorem feed_eq_none_iff (hs : Shrinks next) (s : σ) (b : List α) :
    feed next s b = none ↔ ∃ s' b', Reaches next s b s' b' ∧ next s' b' = .crash := by
  induction s, b using feed_induction hs with
  | wait s b h =>
    rw [feed_of_wait h]
    refine iff_of_false nofun ?_
    rintro ⟨s', b', hr, hc⟩
    cases hr with
    | refl => rw [h] at hc; cases hc
    | take ht _ => rw [h] at ht; cases ht
  | crash s b h => exact iff_of_true (feed_of_crash h) ⟨s, b, .refl s b, h⟩
  | take s b s₁ o r h ih =>
    rw [feed_of_take hs h, Fed.prepend, map_eq_none_iff, ih]
    constructor
    · rintro ⟨s', b', hr, hc⟩
      exact ⟨s', b', .take h hr, hc⟩
    · rintro ⟨s', b', hr, hc⟩
      cases hr with
      | refl => rw [h] at hc; cases hc
      | take ht hr =>
        rw [h] at ht
        cases ht
        exact ⟨s', b', hr, hc⟩

/-- `P` holds of everything that the loops of the reads come to see. -/
def Throughout (next : Reader σ α β) (P : σ → List α → Prop) :
    σ → List α → List (List α) → Prop
  | _, _, [] => True
  | s, buf, p :: ps =>
    (∀ s' b, Reaches next s (buf ++ p) s' b → P s' b) ∧
      ∀ s' o r, feed next s (buf ++ p) = some (s', o, r) → Throughout next P s' r ps

theorem throughout_congr {P Q : σ → List α → Prop} (h : ∀ s b, P s b ↔ Q s b) :
    ∀ (ps : List (List α)) (s : σ) (buf : List α),
      Throughout next P s buf ps ↔ Throughout next Q s buf ps := by
  intro ps
  induction ps with
  | nil => exact fun _ _ => Iff.rfl
  | cons p ps ih =>
    intro s buf
    simp only [Throughout, h, ih]

/-- A loop never leaves more than it was given. -/
theorem feed_length_le (hs : Shrinks next) (s : σ) (b : List α) {s' o r}
    (hf : feed next s b = some (s', o, r)) : r.length ≤ b.length := by
  refine feed_some_induction hs (P := fun _ b => r.length ≤ b.length) (fun _ => Nat.le_refl _)
    ?_ s b hf
  exact fun s b s₁ o₁ r₁ h ih => Nat.le_trans ih (Nat.le_of_lt (hs s b s₁ o₁ r₁ h))

section Hesitant

variable {careful eager : Reader σ α β} (hc : Shrinks careful)
  (he : Shrinks eager) (hd : Delays careful eager)
include hc he hd

/-- One read: the careful loop ends as the eager one does exactly when the two agree
on everything that the eager one comes to see. -/
theorem feed_eq_iff_of_delays (s : σ) (b : List α) : feed careful s b = feed eager s b ↔
      ∀ s' b', Reaches eager s b s' b' → careful s' b' = eager s' b' := by
  induction s, b using feed_induction he with
  | wait s b h =>
    have heq : careful s b = eager s b := by
      rcases hd s b with hw | hs
      · rw [hw, h]
      · exact hs
    rw [feed_of_wait h, feed_of_wait (heq.trans h)]
    refine iff_of_true rfl fun s' b' hr => ?_
    cases hr with
    | refl => exact heq
    | take h' _ => rw [h] at h'; cases h'
  | crash s b h =>
    rw [feed_of_crash h]
    constructor
    · intro hf s' b' hr
      cases hr with
      | refl =>
        rcases hd s b with hw | hs
        · rw [feed_of_wait hw] at hf
          cases hf
        · exact hs
      | take h' _ => rw [h] at h'; cases h'
    · intro hal
      exact feed_of_crash ((hal s b (.refl s b)).trans h)
  | take s b s₁ o r h ih =>
    rw [feed_of_take he h]
    rcases hd s b with hw | hs
    · -- the careful reader stops here, with more left over than the eager one can have
      refine iff_of_false ?_ fun hal => ?_
      · rw [feed_of_wait hw]
        intro hf
        cases hf₁ : feed eager s₁ r with
        | none => rw [hf₁] at hf; cases hf
        | some q =>
          have hle := feed_length_le he s₁ r hf₁
          have hlt := he s b s₁ o r h
          rw [hf₁, Fed.prepend_some, some.injEq, Prod.mk.injEq, Prod.mk.injEq] at hf
          rw [hf.2.2] at hlt
          omega
      · have := hal s b (.refl s b)
        rw [hw, h] at this
        cases this
    · rw [feed_of_take hc (hs.trans h)]
      constructor
      · intro hf s' b' hr
        cases hr with
        | refl => exact hs
        | take h' hr' =>
          rw [h] at h'
          cases h'
          exact ih.mp (Fed.prepend_inj hf) s' b' hr'
      · intro hal
        rw [ih.mpr fun s' b' hr => hal s' b' (.take h hr)]

/-- **Keeping up.** After every read the careful reader has handled what the eager
one makes of all the bytes so far, exactly when the two agree throughout. -/
theorem feedAll_eq_feed_iff_throughout (hx : Extends eager) :
    ∀ (ps : List (List α)) (s : σ) (buf : List α),
      (∀ qs rs, ps = qs ++ rs → qs ≠ [] → feedAll careful s buf qs =
        feed eager s (buf ++ qs.flatten)) ↔
      Throughout eager (fun s b => careful s b = eager s b) s buf ps := by
  intro ps
  induction ps with
  | nil =>
    intro s buf
    refine iff_of_true (fun qs rs h hne => absurd ?_ hne) trivial
    exact (append_eq_nil_iff.mp h.symm).1
  | cons p ps ih =>
    intro s buf
    have ho : feedAll careful s buf [p] = feed careful s (buf ++ p) := by
      simp only [feedAll]
      cases feed careful s (buf ++ p) with
      | none => rfl
      | some q => simp
    constructor
    · intro hal
      have hfr := hal [p] ps rfl (by simp)
      rw [ho, flatten_singleton] at hfr
      refine ⟨(feed_eq_iff_of_delays hc he hd s (buf ++ p)).mp hfr, ?_⟩
      intro s' o r hf
      refine (ih s' r).mp fun qs rs hps _ => ?_
      have hqs := hal (p :: qs) rs (by rw [hps, cons_append]) (by simp)
      rw [feedAll, flatten_cons, ← append_assoc, feed_append he hx, hfr, hf] at hqs
      exact Fed.prepend_inj hqs
    · rintro ⟨hfr, hr⟩ qs rs hps hne
      cases qs with
      | nil => exact absurd rfl hne
      | cons p' qs =>
        obtain ⟨rfl, ht⟩ := List.cons.inj hps
        have heq := (feed_eq_iff_of_delays hc he hd s (buf ++ p)).mpr hfr
        rw [feedAll, flatten_cons, ← append_assoc, feed_append he hx, heq]
        cases hf : feed eager s (buf ++ p) with
        | none => rfl
        | some q =>
          obtain ⟨s', o, r⟩ := q
          rw [bind_some, bind_some]
          by_cases hqs : qs = []
          · rw [hqs, flatten_nil, append_nil, feedAll, feed_of_wait (feed_waits he s (buf ++ p) hf)]
          · rw [(ih s' r).mpr (hr s' o r hf) qs rs ht hqs]

end Hesitant

end MediaKit.Lib
