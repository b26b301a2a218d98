import Mathlib.Algebra.Ring.Nat

/-!
# Sequence accounting and latency bounds

What the in-process bench sink and the load generator's subscriber share: the
tracker that marks every sequence number in a bitset over the population, and
the bounds every latency histogram is kept in. Counters are natural numbers;
they count messages of one run, so they saturate in no run.

## Main definitions

- `SequenceTracker.record`, `SequenceOutcome`
- `Latency` — a latency within the histogram bounds
- `LatencyClamps.bound`
-/

namespace Wafer

/-- Largest `u64`. -/
def u64Max : Nat := 2 ^ 64 - 1

/-- Largest `u32`. -/
def u32Max : Nat := 2 ^ 32 - 1

/-- `u64::saturating_add`. -/
def satAdd (a b : ℕ) : ℕ := min (a + b) (2 ^ 64 - 1)

/-- `u64::saturating_mul`. -/
def satMul (a b : ℕ) : ℕ := min (a * b) (2 ^ 64 - 1)

theorem satAdd_of_lt {a b : ℕ} (h : a + b < 2 ^ 64) : satAdd a b = a + b := by
  simp only [satAdd]
  omega

theorem satMul_of_lt {a b : ℕ} (h : a * b < 2 ^ 64) : satMul a b = a * b := by
  simp only [satMul]
  omega

def maxTrackedSequences : ℕ := 2 ^ 28

inductive SequenceOutcome
  | unique
  | duplicate
  | outOfRange
  deriving DecidableEq, Repr

def SequenceOutcome.isDuplicate : SequenceOutcome → Bool
  | duplicate => true
  | _ => false

structure SequenceTracker where
  start : Option ℕ := some 0
  finish : Option ℕ := none
  seen : List (BitVec 64) := []
  highest : Option ℕ := none
  received : ℕ := 0
  unique : ℕ := 0
  duplicates : ℕ := 0
  outOfOrder : ℕ := 0
  outOfRange : ℕ := 0
  duplicateExamples : List ℕ := []
  maxExamples : Option ℕ := none
  duplicatesTruncated : Bool := false
  deriving DecidableEq, Repr

namespace SequenceTracker

def anchorStart (t : SequenceTracker) (start : ℕ) : SequenceTracker :=
  { t with start := t.start.or (some start) }

/-- Set the exclusive population end if it is not set yet. -/
def anchorEnd (t : SequenceTracker) (finish : ℕ) : SequenceTracker :=
  { t with finish := t.finish.or (some finish) }

def indexOf (t : SequenceTracker) (seq : ℕ) : Option ℕ :=
  match t.start with
  | none => none
  | some start =>
    if seq < start then none
    else if (∀ finish ∈ t.finish, seq < finish) ∧ seq - start < maxTrackedSequences then
      some (seq - start)
    else none

/-- Word and mask of an index in the bitset. -/
def slot (index : ℕ) : ℕ × BitVec 64 := (index / 64, 1#64 <<< (index % 64))

def isSeen (t : SequenceTracker) (index : ℕ) : Bool :=
  match t.seen[(slot index).1]? with
  | some bits => bits &&& (slot index).2 ≠ 0#64
  | none => false

def mark (t : SequenceTracker) (index : ℕ) : SequenceTracker :=
  let (word, mask) := slot index
  let seen := t.seen ++ List.replicate (word + 1 - t.seen.length) 0#64
  { t with seen := seen.modify word (· ||| mask) }

def record (t : SequenceTracker) (seq : ℕ) : SequenceOutcome × SequenceTracker :=
  let t := t.anchorStart seq
  let t := { t with received := t.received + 1 }
  match t.indexOf seq with
  | none => (.outOfRange, { t with outOfRange := t.outOfRange + 1 })
  | some index =>
    if t.isSeen index then
      let t := { t with duplicates := t.duplicates + 1 }
      if ∀ limit ∈ t.maxExamples, t.duplicateExamples.length < limit then
        (.duplicate, { t with duplicateExamples := t.duplicateExamples ++ [seq] })
      else (.duplicate, { t with duplicatesTruncated := true })
    else
      let t := t.mark index
      (.unique,
        { t with
          unique := t.unique + 1
          outOfOrder := if ∃ highest ∈ t.highest, seq < highest then t.outOfOrder + 1
            else t.outOfOrder
          highest := some (t.highest.elim seq (max · seq)) })

end SequenceTracker

def latencyLowestNs : ℕ := 1000

def latencyHighestNs : ℕ := 3600000000000

/-- A latency every histogram can hold. -/
structure Latency where
  ns : ℕ
  lowest : latencyLowestNs ≤ ns
  highest : ns ≤ latencyHighestNs
  deriving DecidableEq, Repr

structure LatencyClamps where
  negative : ℕ := 0
  aboveHighest : ℕ := 0
  deriving DecidableEq, Repr

/-- The time between two stamps within the histogram bounds, counted where it was clamped. -/
def LatencyClamps.bound (c : LatencyClamps) (start stop : ℕ) : Latency × LatencyClamps :=
  if stop < start then
    (⟨latencyLowestNs, Nat.le_refl _, by decide⟩, { c with negative := c.negative + 1 })
  else if hhigh : latencyHighestNs < stop - start then
    (⟨latencyHighestNs, by decide, Nat.le_refl _⟩, { c with aboveHighest := c.aboveHighest + 1 })
  else if hlow : stop - start < latencyLowestNs then
    (⟨latencyLowestNs, Nat.le_refl _, by decide⟩, c)
  else (⟨stop - start, Nat.le_of_not_lt hlow, Nat.le_of_not_lt hhigh⟩, c)

end Wafer
