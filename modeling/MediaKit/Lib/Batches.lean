import Mathlib.Algebra.Order.Ring.Nat

/-!
# Inputs that arrive in batches

A machine reads its inputs in batches: a batch arrives as a whole (`arrive` is told its size), its
inputs are handled one by one up to the first that fails, and then the machine settles the batch. It
stops at the first batch that it does not live to see.

Main result: `runBatches_singletons`. Whether the inputs come in batches or one by one makes no
difference as long as no input but the last of a batch does anything that the others of the batch
could notice (`Smooth`). -/

namespace MediaKit.Lib

open List

structure BatchMachine (σ ι ε : Type) where
  size : ι → Nat
  arrive : σ → Nat → σ
  /-- The state and the log of one input, and whether it could be handled. -/
  handle : σ → ι → σ × List ε × Bool
  settle : σ → σ × List ε
  alive : σ → Bool
  /-- What is logged at the end. -/
  close : σ → List ε

namespace BatchMachine

variable {σ ι ε : Type} (M : BatchMachine σ ι ε)

def totalSize (batch : List ι) : Nat := (batch.map M.size).sum

/-- The inputs of a batch, up to the first that fails. -/
def handleAll : σ → List ι → σ × List ε
  | s, [] => (s, [])
  | s, i :: is =>
    let r := M.handle s i
    if r.2.2 then
      let q := handleAll r.1 is
      (q.1, r.2.1 ++ q.2)
    else (r.1, r.2.1)

def runBatch (s : σ) (batch : List ι) : σ × List ε :=
  let r := M.handleAll (M.arrive s (M.totalSize batch)) batch
  let q := M.settle r.1
  (q.1, r.2 ++ q.2)

/-- The log of all batches. -/
def runBatches : σ → List (List ι) → List ε
  | s, [] => M.close s
  | s, batch :: batches =>
    if M.alive s then (M.runBatch s batch).2 ++ runBatches (M.runBatch s batch).1 batches
      else M.close s

/-- The input with more of its batch behind it is handled as if it came alone, and nothing is to be
settled behind it. -/
structure Smooth (s : σ) (i : ι) (rest : Nat) : Prop where
  handled : (M.handle (M.arrive s (M.size i)) i).2.2 = true
  alive : M.alive (M.handle (M.arrive s (M.size i)) i).1 = true
  settled : M.settle (M.handle (M.arrive s (M.size i)) i).1 =
    ((M.handle (M.arrive s (M.size i)) i).1, [])
  ahead : M.handle (M.arrive s (M.size i + rest)) i =
    (M.arrive (M.handle (M.arrive s (M.size i)) i).1 rest, (M.handle (M.arrive s (M.size i)) i).2)

/-- Every input of the batch but the last one is smooth. -/
def SmoothBatch : σ → List ι → Prop
  | _, [] => True
  | _, [_] => True
  | s, i :: j :: is =>
    M.Smooth s i (M.totalSize (j :: is)) ∧
      SmoothBatch (M.handle (M.arrive s (M.size i)) i).1 (j :: is)

/-- Every batch is smooth where it arrives. -/
def SmoothRun : σ → List (List ι) → Prop
  | _, [] => True
  | s, batch :: batches => M.alive s = true → M.SmoothBatch s batch ∧
    SmoothRun (M.runBatch s batch).1 batches

variable {M}

theorem Smooth.runBatch_cons {s : σ} {i : ι} {is : List ι} (h : M.Smooth s i (M.totalSize is)) :
    M.runBatch s [i] = ((M.handle (M.arrive s (M.size i)) i).1,
      (M.handle (M.arrive s (M.size i)) i).2.1) ∧
      M.runBatch s (i :: is) = ((M.runBatch (M.runBatch s [i]).1 is).1,
        (M.runBatch s [i]).2 ++ (M.runBatch (M.runBatch s [i]).1 is).2) := by
  have ho : M.totalSize [i] = M.size i := by simp [totalSize]
  have hm : M.totalSize (i :: is) = M.size i + M.totalSize is := by simp [totalSize]
  have hal : M.runBatch s [i] = ((M.handle (M.arrive s (M.size i)) i).1,
      (M.handle (M.arrive s (M.size i)) i).2.1) := by
    simp only [runBatch, handleAll, ho, h.handled, if_true, append_nil, h.settled]
  refine ⟨hal, ?_⟩
  rw [hal]
  simp only [runBatch, handleAll, hm, h.ahead, h.handled, if_true, append_assoc]

theorem SmoothBatch.runBatches_cons {batch : List ι} (hne : batch ≠ []) (batches : List (List ι)) :
    ∀ {s : σ}, M.alive s = true → M.SmoothBatch s batch →
    M.runBatches s (batch :: batches) = M.runBatches s (batch.map (fun i => [i]) ++ batches) := by
  induction batch with
  | nil => exact absurd rfl hne
  | cons i is ih =>
    intro s hal hs
    cases is with
    | nil => rfl
    | cons j is =>
      obtain ⟨hf, hr⟩ := hs
      obtain ⟨han, hb⟩ := hf.runBatch_cons
      have hal' : M.alive (M.runBatch s [i]).1 = true := by
        rw [han]
        exact hf.alive
      rw [← (congrArg Prod.fst han : (M.runBatch s [i]).1 = _)] at hr
      have hih := ih (cons_ne_nil _ _) hal' hr
      calc M.runBatches s ((i :: j :: is) :: batches)
          = (M.runBatch s [i]).2 ++ M.runBatches (M.runBatch s [i]).1 ((j :: is) :: batches) := by
            simp only [runBatches, hal, hal', if_true, hb, append_assoc]
        _ = (M.runBatch s [i]).2 ++ M.runBatches (M.runBatch s [i]).1
          ((j :: is).map (fun i => [i]) ++ batches) := by
            rw [hih]
        _ = M.runBatches s ((i :: j :: is).map (fun i => [i]) ++ batches) := by
            rw [map_cons (l := j :: is), cons_append, runBatches, if_pos hal]

theorem runBatches_congr {batch : List ι} {s : σ} {tail tail' : List (List ι)}
    (h : M.alive s = true → M.runBatches (M.runBatch s batch).1 tail =
      M.runBatches (M.runBatch s batch).1 tail') :
    M.runBatches s (batch :: tail) = M.runBatches s (batch :: tail') := by
  simp only [runBatches]
  split
  case isTrue ha => rw [h ha]
  case isFalse => rfl

/-- **Batches cannot be observed** in a run whose batches are smooth. -/
theorem runBatches_singletons : ∀ {batches : List (List ι)} {s : σ},
    (∀ batch ∈ batches, batch ≠ []) →
    M.SmoothRun s batches → M.runBatches s batches =
      M.runBatches s (batches.flatten.map fun i => [i]) := by
  intro batches
  induction batches with
  | nil =>
    intro s _ _
    rfl
  | cons batch batches ih =>
    intro s hne hs
    cases hal : M.alive s with
    | false =>
      -- nothing is read any more
      obtain ⟨i, is, rfl⟩ := exists_cons_of_ne_nil (hne batch (mem_cons_self ..))
      simp only [flatten_cons, cons_append, map_cons, runBatches, hal, Bool.false_eq_true, if_false]
    | true =>
      obtain ⟨hbt, hr⟩ := hs hal
      have ht := ih (fun b hb => hne b (mem_cons_of_mem _ hb)) hr
      rw [runBatches_congr fun _ => ht, hbt.runBatches_cons (hne batch (mem_cons_self ..)) _ hal,
        flatten_cons, map_append]

end BatchMachine

end MediaKit.Lib
