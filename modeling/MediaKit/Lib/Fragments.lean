import Mathlib.Data.List.Forall2
import MediaKit.Lib.Chunks
import MediaKit.Lib.Trace

/-!
# Units in fragments, over a channel that loses packets

A sender cuts a unit that is too long for one packet into parts. Every part repeats the head
of the unit, and the first and the last one are marked. A receiver (`collect`) collects parts
and hands the unit on at a last part. Between units it holds `idle`: `none` if it then ignores
parts until a first one arrives, `some []` if it takes any part.

`kept keep` is what arrives of a list, `arrivals` are the runs of a machine over what arrives of
each unit. Without loss, every unit comes out (`runLog_collect_pieces`). With loss, nothing but
units of which all pieces arrived comes out exactly if the losses are `Unbroken`
(`arrivals_intact_iff`): at a last part that arrives, either the receiver holds too little
to hand anything on, or nothing of the unit was lost.
-/

namespace MediaKit.Lib

open List

variable {α β β' γ γ' δ δ' σ τ : Type}

/-! ## Loss -/

/-- What arrives of a list. -/
def kept (keep : Nat → Bool) : List β → List β
  | [] => []
  | b :: bs => (if keep 0 then [b] else []) ++ kept (fun i => keep (i + 1)) bs

/-- Nothing of a list of this length is lost. -/
def allKept (keep : Nat → Bool) (n : Nat) : Bool := (range n).all keep

theorem allKept_iff {keep : Nat → Bool} {n : Nat} :
    allKept keep n = true ↔ ∀ i < n, keep i = true := by
  rw [allKept, all_eq_true]
  exact forall_congr' fun i => by rw [mem_range]

variable {bs : List β}

theorem kept_eq_self {keep : Nat → Bool} (h : ∀ i < bs.length, keep i = true) :
    kept keep bs = bs := by
  induction bs generalizing keep with
  | nil => rfl
  | cons b bs ih =>
    rw [kept, if_pos (h 0 (Nat.zero_lt_succ _)), ih fun i hi => h (i + 1) (Nat.succ_lt_succ hi)]
    rfl

variable {E : β → β' → Prop}

theorem forall₂_kept {bs' : List β'} (h : Forall₂ E bs bs') (keep : Nat → Bool) :
    Forall₂ E (kept keep bs) (kept keep bs') := by
  induction h generalizing keep with
  | nil => exact .nil
  | cons hb _ ih =>
    rw [kept, kept]
    split
    · exact .cons hb (ih _)
    · exact ih _

theorem kept_map (f : β → β') (keep : Nat → Bool) (bs : List β) :
    kept keep (bs.map f) = (kept keep bs).map f := by
  induction bs generalizing keep with
  | nil => rfl
  | cons b bs ih =>
    rw [map_cons, kept, kept, ih]
    split <;> rfl

theorem mem_of_mem_kept {keep : Nat → Bool} {b : β} (h : b ∈ kept keep bs) : b ∈ bs := by
  induction bs generalizing keep with
  | nil => cases h
  | cons b' bs ih =>
    rw [kept, mem_append] at h
    rcases h with h | h
    · split at h
      · rw [mem_singleton.mp h]
        exact mem_cons_self
      · cases h
    · exact mem_cons_of_mem b' (ih h)

theorem keep_of_mem_kept {keep : Nat → Bool} {b b' : β} (h : b' ∈ kept keep [b]) :
    keep 0 = true := by
  cases hk : keep 0 with
  | true => rfl
  | false =>
    rw [kept, hk] at h
    cases h

/-- What comes out while what arrives of a unit does, and whether all of it arrives. -/
structure Arrival (δ γ : Type) where
  sent : δ
  complete : Bool
  out : List γ

/-- The runs over what arrives of each unit, one after the other. -/
def arrivals (step : σ → β → σ × List γ) :
    σ → (Nat → Nat → Bool) → List (δ × List β) → List (Arrival δ γ)
  | _, _, [] => []
  | s, keep, (sent, bs) :: groups =>
    let run := runLog step s (kept (keep 0) bs)
    ⟨sent, allKept (keep 0) bs.length, run.2⟩ :: arrivals step run.1 (fun k => keep (k + 1)) groups

/-- What arrives of all units. -/
def keptEach (keep : Nat → Nat → Bool) : List (δ × List β) → List β
  | [] => []
  | (_, bs) :: groups => kept (keep 0) bs ++ keptEach (fun k => keep (k + 1)) groups

variable (step : σ → β → σ × List γ)

/-- What comes out for the units is what comes out of the whole run. -/
theorem flatMap_arrivals (s : σ) (keep : Nat → Nat → Bool) (groups : List (δ × List β)) :
    (arrivals step s keep groups).flatMap Arrival.out =
      (runLog step s (keptEach keep groups)).2 := by
  induction groups generalizing s keep with
  | nil => rfl
  | cons group groups ih =>
    rw [keptEach, runLog_append, ← ih]
    rfl

theorem map_sent_arrivals (s : σ) (keep : Nat → Nat → Bool) (groups : List (δ × List β)) :
    (arrivals step s keep groups).map Arrival.sent = groups.map Prod.fst := by
  induction groups generalizing s keep with
  | nil => rfl
  | cons group groups ih => rw [arrivals, map_cons, map_cons, ih]

theorem arrivals_silent {step : σ → β → σ × List γ} {groups : List (δ × List β)}
    (h : ∀ g ∈ groups, ∀ b ∈ g.2, ∀ s, (step s b).2 = []) :
    ∀ {s : σ} {keep : Nat → Nat → Bool}, ∀ a ∈ arrivals step s keep groups, a.out = [] := by
  have hrun : ∀ (bs : List β), (∀ b ∈ bs, ∀ s, (step s b).2 = []) →
      ∀ s, (runLog step s bs).2 = [] := by
    intro bs
    induction bs with
    | nil => exact fun _ _ => rfl
    | cons b bs ih =>
      intro hbs s
      rw [runLog]
      rw [hbs b mem_cons_self, ih fun b' hb' => hbs b' (mem_cons_of_mem b hb')]
      rfl
  induction groups with
  | nil =>
    intro s keep a ha
    cases ha
  | cons group groups ih =>
    intro s keep a ha
    rw [arrivals, mem_cons] at ha
    rcases ha with rfl | ha
    · exact hrun _ (fun b hb => h group mem_cons_self b (mem_of_mem_kept hb)) s
    · exact ih (fun g hg => h g (mem_cons_of_mem group hg)) a ha

/-! ## Simulation -/

variable {R : β → β' → Prop}

theorem forall₂_append_left {l₁ l₂ : List β} {l' : List β'} (h : Forall₂ R (l₁ ++ l₂) l') :
    ∃ l₁' l₂', Forall₂ R l₁ l₁' ∧ Forall₂ R l₂ l₂' ∧ l' = l₁' ++ l₂' :=
  ⟨l'.take l₁.length, l'.drop l₁.length, (forall₂_take_append l' l₁ l₂ h.flip).flip,
    (forall₂_drop_append l' l₁ l₂ h.flip).flip, (take_append_drop _ _).symm⟩

theorem exists_mem_of_forall₂ {l : List β} {l' : List β'} (h : Forall₂ R l l') {b' : β'}
    (hb' : b' ∈ l') : ∃ b ∈ l, R b b' := by
  induction h with
  | nil => cases hb'
  | @cons b _ _ _ hb _ ih =>
    rcases mem_cons.mp hb' with rfl | hb'
    · exact ⟨b, mem_cons_self, hb⟩
    · obtain ⟨b₁, hb₁, hR⟩ := ih hb'
      exact ⟨b₁, mem_cons_of_mem b hb₁, hR⟩

theorem forall_mem_iff_of_forall₂ {A : β → Prop} {B : β' → Prop}
    (h : ∀ {b b'}, R b b' → (A b ↔ B b'))
    {l : List β} {l' : List β'} (hl : Forall₂ R l l') : (∀ b ∈ l, A b) ↔ ∀ b' ∈ l', B b' := by
  induction hl with
  | nil => exact iff_of_true nofun nofun
  | cons hb _ ih => rw [forall_mem_cons, forall_mem_cons, h hb, ih]

theorem runLog_sim {step : σ → β → σ × List γ} {step' : τ → β' → τ × List γ'} {R : σ → τ → Prop}
    {Q : List γ → List γ' → Prop} (hnil : Q [] [])
    (ha : ∀ {a b a' b'}, Q a a' → Q b b' → Q (a ++ b) (a' ++ b'))
    (hs : ∀ s t b b', R s t → E b b' → R (step s b).1 (step' t b').1 ∧
      Q (step s b).2 (step' t b').2)
    {bs' : List β'} (h : Forall₂ E bs bs') :
    ∀ {s : σ} {t : τ}, R s t → R (runLog step s bs).1 (runLog step' t bs').1 ∧
    Q (runLog step s bs).2 (runLog step' t bs').2 := by
  induction h with
  | nil => exact fun hR => ⟨hR, hnil⟩
  | cons hb _ ih =>
    intro s t hR
    obtain ⟨hR', hQ⟩ := hs s t _ _ hR hb
    obtain ⟨hR'', hQ'⟩ := ih hR'
    exact ⟨hR'', ha hQ hQ'⟩

/-- What arrives of two senders' units corresponds. -/
inductive Alike (F : δ → δ' → Prop) (E : β → β' → Prop) :
    (Nat → Nat → Bool) → List (δ × List β) → List (δ' × List β') → Prop
  | nil {keep} : Alike F E keep [] []
  | cons {keep g g' gs gs'} (sent : F g.1 g'.1) (length : g.2.length = g'.2.length)
      (pieces : Forall₂ E (kept (keep 0) g.2) (kept (keep 0) g'.2))
      (rest : Alike F E (fun k => keep (k + 1)) gs gs') :
      Alike F E keep (g :: gs) (g' :: gs')

theorem arrivals_sim (step' : τ → β' → τ × List γ') {R : σ → τ → Prop} {Q : List γ → List γ' → Prop}
    (hnil : Q [] []) (ha : ∀ {a b a' b'}, Q a a' → Q b b' → Q (a ++ b) (a' ++ b'))
    (hst : ∀ s t b b', R s t → E b b' → R (step s b).1 (step' t b').1 ∧
      Q (step s b).2 (step' t b').2)
    {F : δ → δ' → Prop} {keep : Nat → Nat → Bool} {groups : List (δ × List β)}
    {groups' : List (δ' × List β')} (h : Alike F E keep groups groups') :
    ∀ {s : σ} {t : τ}, R s t → Forall₂
      (fun a a' => F a.sent a'.sent ∧ a.complete = a'.complete ∧ Q a.out a'.out)
        (arrivals step s keep groups) (arrivals step' t keep groups') := by
  induction h with
  | nil => exact fun _ => .nil
  | cons hsn hl hp _ ih =>
    intro s t hR
    obtain ⟨hR', hQ⟩ := runLog_sim hnil ha hst hp hR
    exact .cons ⟨hsn, congrArg (allKept _) hl, hQ⟩ (ih hR')

/-! ## Pieces -/

/-- What a packet carries. -/
inductive Piece (α : Type) where
  | whole (unit : List α)
  | part (head : List α) (start stop : Bool) (body : List α)

/-- The packet is the last one of its unit. -/
def Piece.closes : Piece α → Bool
  | .whole _ => true
  | .part _ _ stop _ => stop

/-- How a unit is sent. -/
inductive Sending (α : Type) where
  | whole (unit : List α)
  | parts (head : List α) (bodies : List (List α))

def Sending.unit : Sending α → List α
  | .whole u => u
  | .parts head bodies => head ++ bodies.flatten

def marked (head : List α) : Bool → List (List α) → List (Piece α)
  | _, [] => []
  | start, body :: bodies => .part head start bodies.isEmpty body :: marked head false bodies

/-- The packets of a unit. -/
def Sending.pieces : Sending α → List (Piece α)
  | .whole u => [.whole u]
  | .parts head bodies => marked head true bodies

/-- Something is sent for the unit. -/
def Sending.isSent : Sending α → Bool
  | .whole _ => true
  | .parts _ bodies => !bodies.isEmpty

variable (pre : List α)

/-- The same with something in front of the unit. -/
def Piece.behind : Piece α → Piece α
  | .whole u => .whole (pre ++ u)
  | .part head start stop body => .part (pre ++ head) start stop body

def Sending.behind : Sending α → Sending α
  | .whole u => .whole (pre ++ u)
  | .parts head bodies => .parts (pre ++ head) bodies

theorem marked_behind (pre head : List α) (start : Bool) (bodies : List (List α)) :
    marked (pre ++ head) start bodies = (marked head start bodies).map (Piece.behind pre) := by
  induction bodies generalizing start with
  | nil => rfl
  | cons body bodies ih =>
    rw [marked, marked, ih]
    rfl

theorem pieces_behind (s : Sending α) :
    (s.behind pre).pieces = s.pieces.map (Piece.behind pre) := by
  cases s with
  | whole u => rfl
  | parts head bodies => exact marked_behind pre head true bodies

theorem isSent_behind (s : Sending α) : (s.behind pre).isSent = s.isSent := by cases s <;> rfl

theorem unit_behind (s : Sending α) : (s.behind pre).unit = pre ++ s.unit := by
  cases s with
  | whole u => rfl
  | parts head bodies => exact append_assoc pre head bodies.flatten

/-- A unit of more than `limit` elements is cut behind its first `k`, into parts of `room`. -/
def cut (limit k room : Nat) (u : List α) : Sending α :=
  if u.length ≤ limit then .whole u else .parts (u.take k) (chunks room (u.drop k))

@[simp] theorem length_marked (head : List α) (start : Bool) (bodies : List (List α)) :
    (marked head start bodies).length = bodies.length := by
  induction bodies generalizing start with
  | nil => rfl
  | cons body bodies ih => rw [marked, length_cons, length_cons, ih]

theorem unit_cut {limit k room : Nat} {u : List α} (hr : u.length ≤ limit ∨ 0 < room) :
    (cut limit k room u).unit = u := by
  rw [cut]
  split
  next => rfl
  next hl => rw [Sending.unit, flatten_chunks (hr.resolve_left hl), take_append_drop]

/-! ## The receiver -/

/-- One packet: what is held afterwards, and the unit that is handed on. -/
def collect (idle buf : Option (List α)) : Piece α → Option (List α) × List (List α)
  | .whole u => (buf, [u])
  | .part head start stop body =>
    let buf := (if start then some head else buf).map (· ++ body)
    if stop then (idle, buf.toList) else (buf, [])

/-- What is held behind the parts that arrive, before it is handed on. -/
def gathered (keep : Nat → Bool) (head : List α) (start : Bool) (bodies : List (List α))
    (buf : Option (List α)) : Option (List α) :=
  (if start && keep 0 then some head else buf).map (· ++ (kept keep bodies).flatten)

theorem gathered_lost {keep : Nat → Bool} (hk : keep 0 = false) (head : List α) (start : Bool)
    (body : List α) (bodies : List (List α)) (buf : Option (List α)) :
    gathered keep head start (body :: bodies) buf = gathered (fun i => keep (i + 1)) head false
      bodies buf := by
  rw [gathered, kept, hk, Bool.and_false]
  rfl

theorem gathered_kept {keep : Nat → Bool} (hk : keep 0 = true) (head : List α) (start : Bool)
    (body : List α) (bodies : List (List α)) (buf : Option (List α)) :
    gathered keep head start (body :: bodies) buf =
      gathered (fun i => keep (i + 1)) head false bodies
        ((if start then some head else buf).map (· ++ body)) := by
  have hap : (fun x : List α => x ++ (kept keep (body :: bodies)).flatten) =
      (fun x => x ++ (kept (fun i => keep (i + 1)) bodies).flatten) ∘ fun x => x ++ body := by
    funext x
    rw [kept, if_pos hk, singleton_append, flatten_cons, Function.comp_apply, append_assoc]
  rw [gathered, hk, Bool.and_true, hap, ← Option.map_map]
  rfl

theorem runLog_collect_whole (idle buf : Option (List α)) (u : List α) (keep : Nat → Bool) :
    runLog (collect idle) buf (kept keep [.whole u]) = (buf, if keep 0 then [u] else []) := by
  rw [kept]
  split <;> rfl

variable (idle : Option (List α))

/-- **The parts of one unit.** What was gathered is handed on if the last part arrives. -/
theorem runLog_collect_marked (head body : List α) (bodies : List (List α)) :
    ∀ (keep : Nat → Bool) (start : Bool) (buf : Option (List α)),
      runLog (collect idle) buf (kept keep (marked head start (body :: bodies))) =
        if keep bodies.length then (idle, (gathered keep head start (body :: bodies) buf).toList)
        else (gathered keep head start (body :: bodies) buf, []) := by
  induction bodies generalizing body with
  | nil =>
    intro keep start buf
    cases hk : keep 0 with
    | false => cases buf <;> simp [marked, kept, hk, runLog, gathered]
    | true => simp [marked, kept, hk, runLog, gathered, collect]
  | cons next bodies ih =>
    intro keep start buf
    rw [marked, kept]
    cases hk : keep 0 with
    | false =>
      -- the part is lost: the rest starts from what was held
      rw [if_neg Bool.false_ne_true, nil_append, ih, gathered_lost hk]
      rfl
    | true =>
      rw [if_pos rfl, singleton_append, runLog, ih, gathered_kept hk]
      rfl

theorem gathered_of_all {keep : Nat → Bool} {head body : List α} {bodies : List (List α)}
    (h : ∀ i < (body :: bodies).length, keep i = true) (buf : Option (List α)) :
    gathered keep head true (body :: bodies) buf = some (head ++ (body :: bodies).flatten) := by
  rw [gathered, h 0 (Nat.zero_lt_succ _), kept_eq_self h]
  rfl

/-- **A unit without loss.** It comes out, and a receiver that held `idle` holds it again. -/
theorem runLog_collect_pieces {s : Sending α} (h : s.isSent = true) :
    runLog (collect idle) idle s.pieces = (idle, [s.unit]) := by
  cases s with
  | whole u => rfl
  | parts head bodies =>
    cases bodies with
    | nil => exact absurd h Bool.false_ne_true
    | cons body bodies =>
      have hal := runLog_collect_marked idle head body bodies (fun _ => true) true idle
      rw [kept_eq_self fun _ _ => rfl, gathered_of_all fun _ _ => rfl] at hal
      exact hal

theorem runLog_collect_sendings (ss : List (Sending α)) (hsn : ∀ s ∈ ss, s.isSent = true) :
    runLog (collect idle) idle (ss.flatMap Sending.pieces) = (idle, ss.map Sending.unit) := by
  induction ss with
  | nil => rfl
  | cons s ss ih =>
    rw [flatMap_cons, runLog_append, runLog_collect_pieces idle (hsn s mem_cons_self),
      ih fun s' hs' => hsn s' (mem_cons_of_mem s hs')]
    rfl

/-- The losses break no unit of which the receiver hands on at least `least` elements. `size` is
how much it holds. -/
def Unbroken (least : Nat) (idle : Option Nat) :
    Option Nat → (Nat → Nat → Bool) → List (Sending α) → Prop
  | _, _, [] => True
  | size, keep, .whole _ :: ss => Unbroken least idle size (fun k => keep (k + 1)) ss
  | size, keep, .parts _ [] :: ss => Unbroken least idle size (fun k => keep (k + 1)) ss
  | size, keep, .parts head (body :: bodies) :: ss =>
    let size := (if keep 0 0 then some head.length else size).map
      (· + (kept (keep 0) (body :: bodies)).flatten.length)
    if keep 0 bodies.length then
      ((∃ n ∈ size, least ≤ n) → ∀ i < bodies.length + 1, keep 0 i = true) ∧
        Unbroken least idle idle (fun k => keep (k + 1)) ss
    else Unbroken least idle size (fun k => keep (k + 1)) ss

theorem map_length_gathered (keep : Nat → Bool) (head : List α) (bodies : List (List α))
    (buf : Option (List α)) :
    (gathered keep head true bodies buf).map List.length =
      (if keep 0 then some head.length else buf.map List.length).map
        (· + (kept keep bodies).flatten.length) := by
  rw [gathered, Bool.true_and]
  split
  · simp
  · cases buf <;> simp

/-- **Loss.** Nothing but units of which every packet arrived comes out, as far as `least` elements
come out, exactly if the losses break no unit. -/
theorem arrivals_intact_iff (least : Nat) (idle : Option (List α)) (ss : List (Sending α)) :
    ∀ (buf : Option (List α)) (keep : Nat → Nat → Bool),
      (∀ a ∈ arrivals (collect idle) buf keep (ss.map fun s => (s.unit, s.pieces)), ∀ x ∈ a.out,
        least ≤ x.length →
          x = a.sent ∧ a.complete = true) ↔
        Unbroken least (idle.map List.length) (buf.map List.length) keep ss := by
  induction ss with
  | nil => exact fun _ _ => iff_of_true nofun trivial
  | cons s ss ih =>
    intro buf keep
    rw [map_cons, arrivals, forall_mem_cons, ih]
    match s with
    | .whole u =>
      rw [Sending.pieces, runLog_collect_whole]
      refine and_iff_right ?_
      -- one packet: it arrives, and is all of the unit, or nothing comes out
      intro x hx _
      cases hk : keep 0 0 with
      | false =>
        rw [hk] at hx
        cases hx
      | true =>
        rw [hk] at hx
        refine ⟨mem_singleton.mp hx, allKept_iff.mpr fun i hi => ?_⟩
        rw [Nat.lt_one_iff.mp hi]
        exact hk
    | .parts head [] =>
      exact and_iff_right nofun
    | .parts head (body :: bodies) =>
      rw [Sending.pieces, runLog_collect_marked, Unbroken, ← map_length_gathered]
      generalize hb : gathered (keep 0) head true (body :: bodies) buf = held
      cases hls : keep 0 bodies.length with
      | false => exact and_iff_right nofun
      | true =>
        refine and_congr ⟨?_, ?_⟩ Iff.rfl
        · rintro h ⟨n, hn, hle⟩
          obtain ⟨x, rfl, rfl⟩ := Option.map_eq_some_iff.mp hn
          have hal := allKept_iff.mp (h x (mem_singleton_self x) hle).2
          rwa [length_marked] at hal
        · intro h x hx hle
          have hh : held = some x := Option.mem_toList.mp hx
          have hal := h ⟨x.length, by rw [hh]; rfl, hle⟩
          rw [gathered_of_all hal] at hb
          rw [← hb] at hh
          refine ⟨(Option.some.inj hh).symm, allKept_iff.mpr ?_⟩
          rwa [length_marked]

end MediaKit.Lib
