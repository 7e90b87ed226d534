import MediaKit.Lib.Fragments

/-!
# Units in groups

A sender marks the last packet of a group of units. A receiver (`assemble`) collects units as in
`Lib.Fragments`, ignoring parts without a beginning, queues them, and emits the queue at a marked
packet. What it emits carries the tag of that packet, and whether one of the units was a key. With
`skips` the mark of a part that it ignores is ignored as well.

Only the last packet of a unit can be marked, so a unit does two things: what is collected joins the
queue, and the queue is emitted if its last packet counts (`runLog_assemble`).
-/

namespace MediaKit.Lib

open List Option

variable {α κ : Type}

structure Assembly (α : Type) where
  buf : Option (List α)
  pending : List (List α)
  key : Bool

structure Emitted (κ α : Type) where
  tag : κ
  units : List (List α)
  key : Bool

/-- A packet. One without a piece brings no unit, but its mark counts. -/
structure Tagged (κ α : Type) where
  tag : κ
  mark : Bool
  piece : Option (Piece α)

/-- What tells the units of a group apart, before they are complete. -/
def Piece.head : Piece α → List α
  | .whole u => u
  | .part head _ _ _ => head

def Sending.head : Sending α → List α
  | .whole u => u
  | .parts head _ => head

/-- A part that arrives while no unit is open. -/
def Piece.orphan (buf : Option (List α)) : Piece α → Bool
  | .whole _ => false
  | .part _ start _ _ => !start && buf.isNone

/-- The queue is emitted, if there is one. -/
def Assembly.emit (s : Assembly α) (tag : κ) : Assembly α × List (Emitted κ α) :=
  if s.pending = [] then (s, []) else (⟨s.buf, [], false⟩, [⟨tag, s.pending, s.key⟩])

/-- What is collected joins the queue. -/
def Assembly.join (marks : List α → List α → Bool) (s : Assembly α) (head : List α)
    (out : Option (List α) × List (List α)) : Assembly α :=
  ⟨out.1, s.pending ++ out.2, s.key || out.2.any (marks head)⟩

/-- One packet. -/
def assemble (skips : Bool) (marks : List α → List α → Bool) (s : Assembly α)
    (packet : Tagged κ α) :
    Assembly α × List (Emitted κ α) :=
  match packet.piece with
  | none => if packet.mark then s.emit packet.tag else (s, [])
  | some piece =>
    let t := s.join marks piece.head (collect none s.buf piece)
    if packet.mark && !(skips && piece.orphan s.buf) then t.emit packet.tag else (t, [])

/-- The packets of a unit, the last one marked if the unit is the last of its group. -/
def Sending.tagged (tag : κ) (last : Bool) (g : Sending α) : List (Tagged κ α) :=
  g.pieces.map fun piece => ⟨tag, last && piece.closes, some piece⟩

/-- The last packet of the unit arrives and is not skipped. -/
def Sending.closes (skips : Bool) (keep : Nat → Bool) (buf : Option (List α)) : Sending α → Bool
  | .whole _ => keep 0
  | .parts head bodies =>
    keep (bodies.length - 1) && !(skips && (gathered keep head true bodies buf).isNone)

variable (skips : Bool) (marks : List α → List α → Bool) (s : Assembly α)

theorem join_nil (head : List α) (buf : Option (List α)) : s.join marks head (buf, []) =
    { s with buf := buf } := by
  rw [Assembly.join, append_nil, any_nil, Bool.or_false]

theorem join_join (head : List α) (buf : Option (List α)) (out : Option (List α) × List (List α)) :
    (s.join marks head (buf, [])).join marks head out = s.join marks head out := by
  rw [join_nil]
  rfl

theorem assemble_none (tag : κ) (mark : Bool) :
    assemble skips marks s ⟨tag, mark, none⟩ = if mark then s.emit tag else (s, []) := rfl

theorem assemble_some (tag : κ) (mark : Bool) (piece : Piece α) :
    assemble skips marks s ⟨tag, mark, some piece⟩ =
      if mark && !(skips && piece.orphan s.buf) then
        (s.join marks piece.head (collect none s.buf piece)).emit tag
      else (s.join marks piece.head (collect none s.buf piece), []) := rfl

/-- A part behind which others follow only changes what is held. -/
theorem assemble_part (tag : κ) (last : Bool) (head body : List α) (start : Bool) :
    assemble skips marks s ⟨tag, last && (Piece.part head start false body).closes,
      some (.part head start false body)⟩ =
      (s.join marks head (collect none s.buf (.part head start false body)), []) := by
  rw [assemble, Piece.closes, Bool.and_false]
  rfl

/-- **The parts of a unit.** -/
theorem runLog_assemble_marked (tag : κ) (last : Bool) (head body : List α)
    (bodies : List (List α)) :
    ∀ (keep : Nat → Bool) (start : Bool) (s : Assembly α), runLog (assemble skips marks) s
          (kept keep ((marked head start (body :: bodies)).map fun piece =>
            ⟨tag, last && piece.closes, some piece⟩)) =
        let t := s.join marks head
          (runLog (collect none) s.buf (kept keep (marked head start (body :: bodies))))
        if last && (keep bodies.length &&
          !(skips && (gathered keep head start (body :: bodies) s.buf).isNone)) then t.emit tag
        else (t, []) := by
  induction bodies generalizing body with
  | nil =>
    intro keep start s
    cases hk : keep 0 with
    | false =>
      simp only [marked, map_cons, map_nil, kept, hk, Bool.false_eq_true, if_false,
        append_nil, runLog, Bool.false_and, Bool.and_false, join_nil]
    | true =>
      -- the last part: its mark counts unless it is an orphan
      have ho : (Piece.part head start true body).orphan s.buf =
          (gathered keep head start [body] s.buf).isNone := by
        rw [gathered, hk]
        cases start <;> cases s.buf <;> rfl
      simp only [marked, map_cons, map_nil, kept, hk, if_true, append_nil, runLog,
        Bool.true_and, isEmpty_nil, assemble, Piece.closes, Bool.and_true, ho, Piece.head]
  | cons next bodies ih =>
    intro keep start s
    rw [marked, map_cons, kept, kept, isEmpty_cons]
    cases hk : keep 0 with
    | false =>
      rw [if_neg Bool.false_ne_true, if_neg Bool.false_ne_true, nil_append, ih, gathered_lost hk]
      rfl
    | true =>
      rw [if_pos rfl, if_pos rfl, singleton_append, singleton_append, runLog, assemble_part,
        gathered_kept hk]
      have hc : collect none s.buf (.part head start false body) =
          ((if start then some head else s.buf).map (· ++ body), []) := rfl
      rw [hc]
      rw [ih, join_join]
      rfl

variable {g : Sending α}

/-- **A unit.** What is collected of it joins the queue; the queue is emitted if its last packet
counts. -/
theorem runLog_assemble (hs : g.isSent = true) (tag : κ) (last : Bool) (keep : Nat → Bool)
    (s : Assembly α) :
    runLog (assemble skips marks) s (kept keep (g.tagged tag last)) =
      let t := s.join marks g.head (runLog (collect none) s.buf (kept keep g.pieces))
      if last && g.closes skips keep s.buf then t.emit tag else (t, []) := by
  cases g with
  | parts head bodies =>
    cases bodies with
    | nil => exact absurd hs Bool.false_ne_true
    | cons body bodies =>
      exact runLog_assemble_marked skips marks tag last head body bodies keep true s
  | whole u =>
    show runLog (assemble skips marks) s (kept keep [⟨tag, last && true, some (.whole u)⟩]) = _
    rw [Sending.pieces]
    cases hk : keep 0 with
    | false =>
      simp only [Sending.closes, hk, Bool.and_false, Bool.false_eq_true, if_false, kept, append_nil,
        runLog, join_nil]
    | true =>
      simp only [Sending.closes, hk, Bool.and_true, if_true, kept, append_nil, runLog, assemble,
        Piece.orphan, Bool.and_false, Bool.not_false, collect]
      rfl

/-! ## Without loss -/

/-- The units of a group; the last one is marked. -/
def taggedAll (tag : κ) : List (Sending α) → List (Tagged κ α)
  | [] => []
  | g :: gs => g.tagged tag gs.isEmpty ++ taggedAll tag gs

theorem runLog_tagged (hs : g.isSent = true) (tag : κ) (last : Bool) {s : Assembly α}
    (hb : s.buf = none) :
    runLog (assemble skips marks) s (g.tagged tag last) =
      let t : Assembly α := ⟨none, s.pending ++ [g.unit], s.key || marks g.head g.unit⟩
      if last then t.emit tag else (t, []) := by
  have hrun := runLog_assemble skips marks hs tag last (fun _ => true) s
  have hc : g.closes skips (fun _ => true) s.buf = true := by
    cases g with
    | whole u => rfl
    | parts head bodies => simp [Sending.closes, gathered]
  rw [kept_eq_self fun _ _ => rfl, kept_eq_self fun _ _ => rfl, hc, Bool.and_true, hb,
    runLog_collect_pieces none hs, Assembly.join, any_cons, any_nil, Bool.or_false] at hrun
  exact hrun

/-- **A group.** Its units come out together. -/
theorem runLog_taggedAll (tag : κ) {gs : List (Sending α)} (hs : ∀ g ∈ gs, g.isSent = true)
    (hne : gs ≠ []) :
    ∀ {s : Assembly α}, s.buf = none →
      runLog (assemble skips marks) s (taggedAll tag gs) = (⟨none, [], false⟩,
          [⟨tag, s.pending ++ gs.map Sending.unit, s.key || gs.any fun g =>
            marks g.head g.unit⟩]) := by
  induction gs with
  | nil => exact absurd rfl hne
  | cons g gs ih =>
    intro s hb
    have ho := runLog_tagged skips marks (hs g mem_cons_self) tag gs.isEmpty hb
    rw [taggedAll, runLog_append, ho]
    cases gs with
    | nil =>
      dsimp only [isEmpty_nil]
      rw [if_pos rfl, Assembly.emit, if_neg (by simp)]
      simp only [taggedAll, runLog, append_nil, map_cons, map_nil, any_cons, any_nil, Bool.or_false]
    | cons g' gs =>
      dsimp only [isEmpty_cons]
      rw [if_neg Bool.false_ne_true, ih (fun g₁ h₁ => hs g₁ (mem_cons_of_mem g h₁))
        (cons_ne_nil _ _) rfl]
      simp only [nil_append, map_cons, any_cons, append_assoc, singleton_append, Bool.or_assoc]

/-- **Groups.** Every group with a unit comes out, and nothing else. -/
theorem runLog_groups (groups : List (κ × List (Sending α)))
    (hs : ∀ p ∈ groups, ∀ g ∈ p.2, g.isSent = true) :
    runLog (assemble skips marks) ⟨none, [], false⟩ (groups.flatMap fun p => taggedAll p.1 p.2) =
      (⟨none, [], false⟩, (groups.filter fun p => !p.2.isEmpty).map fun p =>
        ⟨p.1, p.2.map Sending.unit, p.2.any fun g => marks g.head g.unit⟩) := by
  induction groups with
  | nil => rfl
  | cons p groups ih =>
    have hr := ih fun p' hp' => hs p' (mem_cons_of_mem p hp')
    rw [flatMap_cons, runLog_append]
    by_cases hne : p.2 = []
    · rw [hne, filter_cons_of_neg (by simp [hne])]
      exact hr
    · rw [runLog_taggedAll skips marks p.1 (hs p mem_cons_self) hne rfl, hr,
        filter_cons_of_pos (by simpa using hne)]
      simp only [nil_append, Bool.false_or, map_cons, singleton_append]

/-! ## With loss -/

/-- A unit on its way: with its tag, whether it is the last of its group, and how it is sent. One
that the receiver passes over is sent in a packet without a piece. -/
structure Load (κ α : Type) where
  tag : κ
  last : Bool
  what : Option (Sending α)

namespace Load

def sending (l : Load κ α) : Sending α := l.what.getD (.whole [])

def packets (l : Load κ α) : List (Tagged κ α) :=
  match l.what with
  | none => [⟨l.tag, l.last, none⟩]
  | some g => g.tagged l.tag l.last

/-- All of the unit arrives. -/
def Delivered (keep : Nat → Bool) (l : Load κ α) : Prop :=
  ∃ g, l.what = some g ∧ g.isSent = true ∧ ∀ i < g.pieces.length, keep i = true

/-- The mark of the unit arrives, and with `skips` all of the unit. -/
def Emits (skips : Bool) (keep : Nat → Bool) (l : Load κ α) : Prop :=
  l.last = true ∧ match l.what with
    | none => keep 0 = true
    | some g => g.isSent = true ∧ keep (g.pieces.length - 1) = true ∧
        (skips = true → ∀ i < g.pieces.length, keep i = true)

end Load

variable {base : Nat} {keep : Nat → Nat → Bool}

/-- A queued unit: one that was delivered before `base`, with nothing emitted since. -/
def Waiting (loads : List (Load κ α)) (keep : Nat → Nat → Bool) (base : Nat) (u : List α) : Prop :=
  ∃ i l, loads[i]? = some l ∧ i < base ∧ l.sending.unit = u ∧ l.Delivered (keep i) ∧
    ∀ x l', loads[x]? = some l' → i ≤ x → x < base → ¬ l'.Emits skips (keep x)

/-- Units of different groups that arrive are kept apart: whenever a mark arrives behind them, one
arrived between them. -/
def Separated (shows : List α → Prop) (loads : List (Load κ α)) (keep : Nat → Nat → Bool) : Prop :=
  ∀ (i j m : Nat) (l l' l'' : Load κ α), loads[i]? = some l → loads[j]? = some l' →
    loads[m]? = some l'' → i < j → j ≤ m → l.tag ≠ l'.tag →
    shows l.sending.unit → shows l'.sending.unit → l.Delivered (keep i) → l'.Delivered (keep j) →
    l''.Emits skips (keep m) →
    ∃ (x : Nat) (e : Load κ α), loads[x]? = some e ∧ i ≤ x ∧ x < j ∧ e.Emits skips (keep x)

/-- A unit that was sent. -/
def Load.Is (l : Load κ α) (u : List α) : Prop := l.what.map Sending.unit = some u

variable {l : Load κ α}

theorem Load.Delivered.is {keep : Nat → Bool} (h : l.Delivered keep) : l.Is l.sending.unit := by
  obtain ⟨g, hg, -⟩ := h
  rw [Load.Is, Load.sending, hg]
  rfl

/-- What is emitted consists of units that were sent, those that show all with one tag. -/
def FromOneGroup (shows : List α → Prop) (loads : List (Load κ α)) (units : List (List α)) : Prop :=
  (∀ u ∈ units, ∃ l ∈ loads, l.Is u) ∧ ∃ tag, ∀ u ∈ units, shows u → ∃ l ∈ loads,
  l.tag = tag ∧ l.Is u

variable {loads : List (Load κ α)}

theorem waiting_append {units out : List (List α)}
    (hl : loads[base]? = some l) (hut : ∀ u ∈ units, Waiting skips loads keep base u)
    (ho : ∀ u ∈ out, l.sending.unit = u ∧ l.Delivered (keep base))
    (he : ¬ l.Emits skips (keep base)) :
    ∀ u ∈ units ++ out, Waiting skips loads keep (base + 1) u := by
  intro u hu
  rcases mem_append.mp hu with hu | hu
  · obtain ⟨i, l₁, hi, hlt, hun, hd, hn⟩ := hut u hu
    refine ⟨i, l₁, hi, by omega, hun, hd, fun x l' hx hix hxb => ?_⟩
    rcases Nat.lt_succ_iff_lt_or_eq.mp hxb with hxb | rfl
    · exact hn x l' hx hix hxb
    · rw [hl] at hx
      cases hx
      exact he
  · obtain ⟨hun, hd⟩ := ho u hu
    refine ⟨base, l, hl, by omega, hun, hd, fun x l' hx hix hxb => ?_⟩
    obtain rfl : x = base := by omega
    rw [hl] at hx
    cases hx
    exact he

theorem fromOneGroup_of_separated {shows : List α → Prop} (hsp : Separated skips shows loads keep)
    (hl : loads[base]? = some l) (hem : l.Emits skips (keep base)) {units out : List (List α)}
    (hut : ∀ u ∈ units, Waiting skips loads keep base u)
    (ho : ∀ u ∈ out, l.sending.unit = u ∧ l.Delivered (keep base)) :
    FromOneGroup shows loads (units ++ out) := by
  -- every unit in the queue, with nothing emitted from its arrival to the mark
  have hal : ∀ u ∈ units ++ out, ∃ i l₁, loads[i]? = some l₁ ∧ i ≤ base ∧ l₁.sending.unit = u ∧
    l₁.Delivered (keep i) ∧
      ∀ x l', loads[x]? = some l' → i ≤ x → x < base → ¬ l'.Emits skips (keep x) := by
    intro u hu
    rcases mem_append.mp hu with hu | hu
    · obtain ⟨i, l₁, hi, hlt, hr⟩ := hut u hu
      exact ⟨i, l₁, hi, le_of_lt hlt, hr⟩
    · obtain ⟨hun, hdl⟩ := ho u hu
      exact ⟨base, l, hl, le_refl base, hun, hdl, fun x l' _ h₁ h₂ => absurd h₁ (by omega)⟩
  refine ⟨fun u hu => ?_, ?_⟩
  · obtain ⟨i, l₁, hi, -, hun, hde, -⟩ := hal u hu
    exact ⟨l₁, mem_of_getElem? hi, hun ▸ hde.is⟩
  by_cases hsw : ∃ u ∈ units ++ out, shows u
  · obtain ⟨u₀, hu₀, hsh₀⟩ := hsw
    obtain ⟨i₀, l₀, hi₀, hle₀, hun₀, hde₀, hn₀⟩ := hal u₀ hu₀
    refine ⟨l₀.tag, fun u hu hsh => ?_⟩
    obtain ⟨i, l₁, hi, hle, hun, hde, hn⟩ := hal u hu
    refine ⟨l₁, mem_of_getElem? hi, ?_, hun ▸ hde.is⟩
    by_contra ht
    rcases Nat.lt_trichotomy i₀ i with hlt | rfl | hlt
    · obtain ⟨x, e, hx, h₁, h₂, he⟩ := hsp i₀ i base l₀ l₁ l hi₀ hi hl hlt hle (fun h => ht h.symm)
        (hun₀.symm ▸ hsh₀) (hun.symm ▸ hsh) hde₀ hde hem
      exact hn₀ x e hx h₁ (by omega) he
    · rw [hi₀] at hi
      exact ht (some.inj hi ▸ rfl)
    · obtain ⟨x, e, hx, h₁, h₂, he⟩ := hsp i i₀ base l₁ l₀ l hi hi₀ hl hlt hle₀ ht
        (hun.symm ▸ hsh) (hun₀.symm ▸ hsh₀) hde hde₀ hem
      exact hn x e hx h₁ (by omega) he
  · exact ⟨l.tag, fun u hu hsh => absurd ⟨u, hu, hsh⟩ hsw⟩

/-- What a load does to the queue: it brings `out`, and it emits the queue or leaves it. -/
structure Loads (keep : Nat → Bool) (l : Load κ α) (pending out : List (List α))
    (run : Assembly α × List (Emitted κ α)) : Prop where
  delivered : ∀ u ∈ out, l.sending.unit = u ∧ l.Delivered keep
  queue : l.Emits skips keep ∧ run.1.pending = [] ∧ (∀ e ∈ run.2, e.units = pending ++ out) ∨
    ¬ l.Emits skips keep ∧ run.1.pending = pending ++ out ∧ run.2 = []

theorem queue_emit (t : Assembly α) (tag : κ) :
    (t.emit tag).1.pending = [] ∧ (t.emit tag).1.buf = t.buf ∧ ∀ e ∈ (t.emit tag).2,
      e.units = t.pending := by
  rw [Assembly.emit]
  split
  next h => exact ⟨h, rfl, nofun⟩
  next => exact ⟨rfl, rfl, fun e he => by rw [mem_singleton.mp he]⟩

theorem loads_of_emit (keep : Nat → Bool) {pending : List (List α)} (out : List (List α))
    {t : Assembly α} {c : Bool} {run : Assembly α × List (Emitted κ α)}
    (hrun : run = if c then t.emit l.tag else (t, [])) (hp : t.pending = pending ++ out)
    (hc : c = true ↔ l.Emits skips keep) (ho : ∀ u ∈ out, l.sending.unit = u ∧ l.Delivered keep) :
    Loads skips keep l pending out run ∧ run.1.buf = t.buf := by
  subst hrun
  obtain ⟨hem, hb, hu⟩ := queue_emit t l.tag
  cases c with
  | true => exact ⟨⟨ho, .inl ⟨hc.mp rfl, hem, hp ▸ hu⟩⟩, hb⟩
  | false => exact ⟨⟨ho, .inr ⟨fun he => absurd (hc.mpr he) Bool.false_ne_true, hp, rfl⟩⟩, rfl⟩

/-- A unit of which everything arrives comes out, whatever was held before. -/
theorem out_of_all (hs : g.isSent = true) {keep : Nat → Bool}
    (ha : ∀ i < g.pieces.length, keep i = true)
    (buf : Option (List α)) : (runLog (collect none) buf (kept keep g.pieces)).2 = [g.unit] := by
  cases g with
  | whole u => rw [Sending.pieces, runLog_collect_whole, if_pos (ha 0 Nat.one_pos), Sending.unit]
  | parts head bodies =>
    cases bodies with
    | nil => exact absurd hs Bool.false_ne_true
    | cons body bodies =>
      rw [Sending.pieces, length_marked] at ha
      rw [Sending.pieces, runLog_collect_marked, if_pos (ha _ (Nat.lt_succ_self _)),
        gathered_of_all ha]
      rfl

theorem closes_iff (hs : g.isSent = true) (keep : Nat → Bool) (buf : Option (List α)) :
    g.closes skips keep buf = true ↔ keep (g.pieces.length - 1) = true ∧
      (skips = true → (runLog (collect none) buf (kept keep g.pieces)).2 ≠ []) := by
  cases g with
  | whole u =>
    rw [Sending.pieces, runLog_collect_whole]
    refine (and_iff_left_of_imp fun hk _ => ?_).symm
    rw [if_pos (show keep 0 = true from hk)]
    exact cons_ne_nil u []
  | parts head bodies =>
    cases bodies with
    | nil => exact absurd hs Bool.false_ne_true
    | cons body bodies =>
      rw [Sending.pieces, runLog_collect_marked, length_marked, Sending.closes, Bool.and_eq_true]
      refine and_congr_right fun hk => ?_
      rw [if_pos (show keep bodies.length = true from hk)]
      cases skips <;> cases gathered keep head true (body :: bodies) buf <;> simp

/-- **A load over a channel that loses packets.** -/
theorem runLog_load (l : Load κ α) (rest : List (Load κ α)) (s : Assembly α)
    (keep : Nat → Nat → Bool)
    (h : Unbroken 0 none (s.buf.map List.length) keep (l.sending :: rest.map Load.sending)) :
    (∃ out, Loads skips (keep 0) l s.pending out
      (runLog (assemble skips marks) s (kept (keep 0) l.packets))) ∧
      Unbroken 0 none ((runLog (assemble skips marks) s (kept (keep 0) l.packets)).1.buf.map
        List.length) (fun k => keep (k + 1)) (rest.map Load.sending) := by
  obtain ⟨tag, last, what⟩ := l
  cases what with
  | none =>
    have hrun : runLog (assemble skips marks) s (kept (keep 0) [⟨tag, last, none⟩]) =
        if last && keep 0 0 then s.emit tag else (s, []) := by
      cases hk : keep 0 0 with
      | false => simp [kept, hk, runLog]
      | true => simp [kept, hk, runLog, assemble]
    obtain ⟨hl, hb⟩ := loads_of_emit skips (keep 0) (l := ⟨tag, last, none⟩)
      [] hrun (append_nil _).symm (Bool.and_eq_true _ _ ▸ Iff.rfl) (forall_mem_nil _)
    refine ⟨⟨[], hl⟩, ?_⟩
    rw [show Load.packets ⟨tag, last, none⟩ = [⟨tag, last, none⟩] from rfl, hb]
    exact h
  | some g =>
    cases hs : g.isSent with
    | false =>
      obtain u | ⟨head, _ | ⟨body, bodies⟩⟩ := g
      · cases hs
      · exact ⟨⟨[], forall_mem_nil _, .inr ⟨fun he => absurd he.2.1 Bool.false_ne_true,
          (append_nil _).symm, rfl⟩⟩, h⟩
      · cases hs
    | true =>
      -- only a unit of which everything arrives comes out
      have hi := (arrivals_intact_iff 0 none (g :: rest.map Load.sending) s.buf keep).mpr h
      rw [map_cons, arrivals, forall_mem_cons, arrivals_intact_iff] at hi
      obtain ⟨ho, hrs⟩ := hi
      have hal : (runLog (collect none) s.buf (kept (keep 0) g.pieces)).2 ≠ [] ↔
          ∀ i < g.pieces.length, keep 0 i = true := by
        constructor
        · intro hne
          obtain ⟨u, hu⟩ := exists_mem_of_ne_nil _ hne
          exact allKept_iff.mp (ho u hu (Nat.zero_le _)).2
        · intro hal
          rw [out_of_all hs hal]
          exact cons_ne_nil _ _
      obtain ⟨hl, hb⟩ := loads_of_emit skips (keep 0) (l := ⟨tag, last, some g⟩) _
        (runLog_assemble skips marks hs tag last (keep 0) s) rfl (by
          rw [Bool.and_eq_true, closes_iff skips hs, hal]
          exact and_congr_right fun _ => (and_iff_right hs).symm)
        fun u hu => ⟨(ho u hu (Nat.zero_le _)).1.symm, g, rfl, hs,
          allKept_iff.mp (ho u hu (Nat.zero_le _)).2⟩
      exact ⟨⟨_, hl⟩, hb ▸ hrs⟩

theorem pending_emit (t : Assembly α) (tag : κ) {u : List α} (hu : u ∈ t.pending) :
    ∃ e ∈ (t.emit tag).2, u ∈ e.units := by
  rw [Assembly.emit, if_neg (ne_nil_of_mem hu)]
  exact ⟨_, mem_singleton_self _, hu⟩

/-- A unit that is queued, or that the packet brings, is emitted or queued behind the packet. -/
theorem pending_assemble (packet : Tagged κ α) {s : Assembly α} {u : List α}
    (hu : u ∈ s.pending ∨ ∃ piece, packet.piece = some piece ∧ u ∈ (collect none s.buf piece).2) :
    (∃ e ∈ (assemble skips marks s packet).2, u ∈ e.units) ∨
    u ∈ (assemble skips marks s packet).1.pending := by
  obtain ⟨tag, mark, piece⟩ := packet
  cases piece with
  | none =>
    have hu : u ∈ s.pending := hu.resolve_right fun ⟨_, h, _⟩ => nomatch h
    rw [assemble_none]
    split
    · exact .inl (pending_emit s tag hu)
    · exact .inr hu
  | some piece =>
    have hu : u ∈ (s.join marks piece.head (collect none s.buf piece)).pending := by
      rcases hu with hu | ⟨_, h, hu⟩
      · exact mem_append_left _ hu
      · cases h
        exact mem_append_right _ hu
    rw [assemble_some]
    split
    · exact .inl (pending_emit _ tag hu)
    · exact .inr hu

/-- **Loss.** Where the losses break no unit and keep the groups apart, everything that is emitted
consists of units that were sent, and of units of one group as far as they show; so does what is
left in the queue. -/
theorem emitted_fromOneGroup {shows : List α → Prop}
    (hb : Unbroken 0 none none keep (loads.map Load.sending))
    (hsp : Separated skips shows loads keep) :
    let run := runLog (assemble skips marks) ⟨none, [], false⟩
      (keptEach keep (loads.map fun l => (l, l.packets)))
    (∀ e ∈ run.2, FromOneGroup shows loads e.units) ∧ ∀ u ∈ run.1.pending, ∃ l ∈ loads, l.Is u := by
  -- from any position on, for a queue of units that wait
  have hrun : ∀ (rest : List (Load κ α)) (base : Nat) (s : Assembly α), loads.drop base = rest →
      Unbroken 0 none (s.buf.map List.length) (fun k => keep (base + k)) (rest.map Load.sending) →
      (∀ u ∈ s.pending, Waiting skips loads keep base u) →
      let run := runLog (assemble skips marks) s (keptEach (fun k => keep (base + k))
        (rest.map fun l => (l, l.packets)))
      (∀ e ∈ run.2, FromOneGroup shows loads e.units) ∧ ∀ u ∈ run.1.pending, ∃ l ∈ loads,
      l.Is u := by
    intro rest
    induction rest with
    | nil =>
      intro base s _ _ hw
      refine ⟨forall_mem_nil _, fun u hu => ?_⟩
      obtain ⟨i, l, hi, -, hun, hdl, -⟩ := hw u hu
      exact ⟨l, mem_of_getElem? hi, hun ▸ hdl.is⟩
    | cons l rest ih =>
      intro base s hdr hb hw
      have hl : loads[base]? = some l := by
        rw [← add_zero base, ← getElem?_drop, hdr]
        rfl
      have hrs : loads.drop (base + 1) = rest := by
        rw [← drop_drop, hdr]
        rfl
      have hsh : (fun k => keep (base + (k + 1))) = fun k => keep (base + 1 + k) := by
        funext k
        rw [add_assoc, add_comm 1 k]
      obtain ⟨⟨out, hld⟩, hnx⟩ := runLog_load skips marks l rest s (fun k => keep (base + k)) hb
      rw [map_cons, keptEach, runLog_append]
      rw [hsh] at hnx ⊢
      dsimp only
      rcases hld.queue with ⟨hem, hep, hut⟩ | ⟨hem, hp, hno⟩
      · obtain ⟨hm, hlf⟩ := ih (base + 1) _ hrs hnx (by rw [hep]; exact forall_mem_nil _)
        refine ⟨fun e he => ?_, hlf⟩
        rcases mem_append.mp he with he | he
        · rw [hut e he]
          exact fromOneGroup_of_separated skips hsp hl hem hw hld.delivered
        · exact hm e he
      · rw [hno, nil_append]
        exact ih (base + 1) _ hrs hnx
          (by rw [hp]; exact waiting_append skips hl hw hld.delivered hem)
  have hz : (fun k => keep (0 + k)) = keep := by
    funext k
    rw [zero_add]
  have hst := hrun loads 0 ⟨none, [], false⟩ rfl
  rw [hz] at hst
  exact hst hb (forall_mem_nil _)

theorem pending_runLog (packets : List (Tagged κ α)) :
    ∀ {s : Assembly α} {u : List α}, u ∈ s.pending →
    (∃ e ∈ (runLog (assemble skips marks) s packets).2, u ∈ e.units) ∨
    u ∈ (runLog (assemble skips marks) s packets).1.pending := by
  induction packets with
  | nil => exact fun hu => .inr hu
  | cons packet packets ih =>
    intro s u hu
    have ho := pending_assemble skips marks packet (.inl hu)
    rcases ho with ⟨e, he, hue⟩ | hu
    · exact .inl ⟨e, mem_append_left _ he, hue⟩
    · rcases ih hu with ⟨e, he, hue⟩ | hu
      · exact .inl ⟨e, mem_append_right _ he, hue⟩
      · exact .inr hu

end MediaKit.Lib
