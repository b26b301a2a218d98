import Mathlib.Data.Set.Card
import Mathlib.Order.Interval.Finset.Nat
import Wafer.Lib.Double
import Wafer.Types.Measurement

/-!
# Load profiles

The load generator's shapes and the scheduler that turns a shape into offsets
from the start of the run. Offsets are nanoseconds. Rates of changing shapes and
the time steps from them are exact; a step is rounded to a nanosecond.

## Main definitions

- `LoadShape.rateAt`, `Scheduler.step` — the rate of a shape, the next offset
- `Scheduler.offset` — the offsets in order
- `pace` — the ticks in front of the end of the run

## Main results

- `Scheduler.steady_population` — the offsets of a shape of one rate
- `Scheduler.pace_steady` — the ticks of such a shape
-/

namespace Wafer

open Lib

def nanosPerSec : ℕ := 1000000000

def u128Max : ℕ := 2 ^ 128 - 1

/-- `Duration::MAX` in nanoseconds. -/
def durationMax : ℕ := (u64Max + 1) * nanosPerSec - 1

inductive LoadShape
  | steady (rate : ℕ)
  | burst (baseRate multiplier onSecs cycleSecs : ℕ)
  | ramp (startRate stepRate stepIntervalSecs maxRate : ℕ)
  | hotswapTrigger (baseRate : ℕ)
  deriving DecidableEq, Repr

namespace LoadShape

/-- Messages per second. -/
def rateAt (elapsedSecs : ℚ) : LoadShape → ℚ
  | steady rate => max rate 1
  | hotswapTrigger baseRate => max baseRate 1
  | burst baseRate multiplier onSecs cycleSecs =>
    let cycle : ℚ := max cycleSecs 1
    let phase := elapsedSecs - cycle * ⌊elapsedSecs / cycle⌋
    let mult := if phase < (min onSecs cycleSecs : ℕ) then max multiplier 1 else 1
    max ((baseRate : ℚ) * mult) 1
  | ramp startRate stepRate stepIntervalSecs maxRate =>
    let stepLen : ℚ := max stepIntervalSecs 1
    let stepIndex := min ⌊max (elapsedSecs / stepLen) 0⌋.toNat u32Max
    let raw := min (startRate + min (stepRate * stepIndex) u32Max) u32Max
    max (min raw (max maxRate startRate) : ℕ) 1

/-- The rate the shape has all the time. -/
def constantRate : LoadShape → Option ℕ
  | steady rate | hotswapTrigger rate => some rate
  | _ => none

end LoadShape

structure Scheduler where
  shape : LoadShape
  nextOffset : ℕ := 0
  emitted : ℕ := 0
  deriving DecidableEq, Repr

namespace Scheduler

def new (shape : LoadShape) : Scheduler := { shape := shape }

def peek (s : Scheduler) : ℕ := s.nextOffset

/-- The offset of message `emitted` at one rate. -/
def constantOffset (rate emitted : ℕ) : ℕ :=
  min (min (emitted * nanosPerSec) u128Max / max rate 1) u64Max

/-- `next_offset`: the offset, and the scheduler behind it. -/
def step (s : Scheduler) : ℕ × Scheduler :=
  let emitted := satAdd s.emitted 1
  let next := match s.shape with
    | .steady rate | .hotswapTrigger rate => constantOffset rate emitted
    | shape =>
      let currentRate := shape.rateAt (s.nextOffset / nanosPerSec)
      min (s.nextOffset + (roundHalfEven (nanosPerSec / currentRate)).toNat) durationMax
  (s.nextOffset, { s with nextOffset := next, emitted := emitted })

/-- The scheduler behind `n` messages. -/
def behind (s : Scheduler) (n : ℕ) : Scheduler := (fun t => t.step.2)^[n] s

/-- The offset of message `n`. -/
def offset (s : Scheduler) (n : ℕ) : ℕ := (s.behind n).step.1

/-- `pace`: each offset before the end with the one behind it. -/
def pace : ℕ → Scheduler → ℕ → Option (List (ℕ × ℕ))
  | 0, _, _ => none
  | fuel + 1, scheduler, duration =>
    let (offset, scheduler) := scheduler.step
    if duration ≤ offset then some []
    else (pace fuel scheduler duration).map ((offset, scheduler.peek) :: ·)

variable {shape : LoadShape} {rate n k seconds : ℕ}

theorem nanosPerSec_pos : 0 < nanosPerSec := by decide

theorem step_constant {s : Scheduler} (h : s.shape.constantRate = some rate) :
    s.step = (s.nextOffset, { s with
      nextOffset := constantOffset rate (satAdd s.emitted 1), emitted := satAdd s.emitted 1 }) := by
  obtain ⟨shape, next, emitted⟩ := s
  cases shape with
  | steady r =>
    obtain rfl := Option.some.inj h
    rfl
  | hotswapTrigger r =>
    obtain rfl := Option.some.inj h
    rfl
  | burst => cases h
  | ramp => cases h

theorem constantOffset_zero (rate : ℕ) : constantOffset rate 0 = 0 := by
  simp [constantOffset]

/-- Where the scheduler of one rate is behind `n` messages. -/
theorem behind_constant (h : shape.constantRate = some rate) (n : ℕ) :
    (new shape).behind n =
      ⟨shape, constantOffset rate (min n u64Max), min n u64Max⟩ := by
  induction n with
  | zero => simp [behind, new, constantOffset_zero]
  | succ n ih =>
    have hnext : satAdd (min n u64Max) 1 = min (n + 1) u64Max := by
      simp only [satAdd, u64Max]
      omega
    rw [behind, Function.iterate_succ_apply', ← behind, ih, step_constant h, hnext]

theorem offset_constant (h : shape.constantRate = some rate) (n : ℕ) :
    (new shape).offset n = constantOffset rate (min n u64Max) := by
  rw [offset, behind_constant h, step_constant h]

theorem constantOffset_mono (rate : ℕ) : Monotone (constantOffset rate) := by
  intro a b hab
  have hmul : a * nanosPerSec ≤ b * nanosPerSec := Nat.mul_le_mul_right _ hab
  exact min_le_min_right _ (Nat.div_le_div_right (min_le_min_right _ hmul))

theorem constantOffset_lt_iff {limit : ℕ} (hn : n ≤ u64Max) (hlimit : limit * nanosPerSec ≤ u64Max) :
    constantOffset rate n < limit * nanosPerSec ↔ n < max rate 1 * limit := by
  have hrate : 0 < max rate 1 := by omega
  have hexact : min (n * nanosPerSec) u128Max = n * nanosPerSec := by
    apply min_eq_left
    calc n * nanosPerSec ≤ u64Max * nanosPerSec := Nat.mul_le_mul_right _ hn
      _ ≤ u128Max := by decide
  rw [constantOffset, hexact, min_lt_iff, Nat.div_lt_iff_lt_mul hrate]
  constructor
  · rintro (h | h)
    · rw [mul_right_comm, mul_comm limit] at h
      exact lt_of_mul_lt_mul_right h (Nat.zero_le _)
    · omega
  · intro h
    left
    rw [mul_right_comm, mul_comm limit]
    exact Nat.mul_lt_mul_of_pos_right h nanosPerSec_pos

/-- Dividing moves no message over the end of a second. -/
theorem offset_lt_iff (h : shape.constantRate = some rate)
    (hlimit : (max rate 1 * seconds + 1) * nanosPerSec ≤ u64Max) (hk : k ≤ seconds) (n : ℕ) :
    (new shape).offset n < k * nanosPerSec ↔ n < max rate 1 * k := by
  have hrate : 0 < max rate 1 := by omega
  have hpopulation : max rate 1 * k ≤ max rate 1 * seconds := Nat.mul_le_mul_left _ hk
  have hfits : max rate 1 * k * nanosPerSec ≤ u64Max :=
    (Nat.mul_le_mul_right _ (by omega)).trans hlimit
  have hend : k * nanosPerSec ≤ u64Max := by
    refine le_trans (Nat.mul_le_mul_right _ ?_) hfits
    exact Nat.le_mul_of_pos_left k hrate
  have hcount : max rate 1 * k ≤ u64Max :=
    (Nat.le_mul_of_pos_right _ nanosPerSec_pos).trans hfits
  rw [offset_constant h, constantOffset_lt_iff (min_le_right _ _) hend]
  omega

/-- The offsets of a shape of one rate start at zero, never go back, and lie in each second as
many as the rate says. -/
theorem steady_population (shape : LoadShape) (rate seconds : ℕ)
    (h : shape.constantRate = some rate)
    (hlimit : (max rate 1 * seconds + 1) * nanosPerSec ≤ u64Max) :
    Monotone (new shape).offset ∧ (new shape).offset 0 = 0 ∧
      Set.encard {n | (new shape).offset n < seconds * nanosPerSec} = (max rate 1 * seconds : ℕ) ∧
        ∀ k < seconds, Set.encard {n | k * nanosPerSec ≤ (new shape).offset n ∧
          (new shape).offset n < (k + 1) * nanosPerSec} = (max rate 1 : ℕ) := by
  refine ⟨?_, ?_, ?_, fun k hk => ?_⟩
  · intro a b hab
    rw [offset_constant h, offset_constant h]
    exact constantOffset_mono rate (min_le_min_right _ hab)
  · rw [offset_constant h, Nat.zero_min, constantOffset_zero]
  · have hset : {n | (new shape).offset n < seconds * nanosPerSec} =
        ↑(Finset.range (max rate 1 * seconds)) := by
      ext n
      rw [Set.mem_ofPred_eq, offset_lt_iff h hlimit le_rfl, Finset.coe_range, Set.mem_Iio]
    rw [hset, Set.encard_coe_eq_coe_finsetCard, Finset.card_range]
  · have hset : {n | k * nanosPerSec ≤ (new shape).offset n ∧
          (new shape).offset n < (k + 1) * nanosPerSec} =
        ↑(Finset.Ico (max rate 1 * k) (max rate 1 * (k + 1))) := by
      ext n
      rw [Set.mem_ofPred_eq, offset_lt_iff h hlimit hk, ← not_lt, offset_lt_iff h hlimit hk.le,
        not_lt, Finset.coe_Ico, Set.mem_Ico]
    rw [hset, Set.encard_coe_eq_coe_finsetCard, Nat.card_Ico, Nat.mul_succ, Nat.add_sub_cancel_left]

/-- 16000 messages a second for a minute. -/
theorem steady_population_minute :
    Set.encard {n | (new (.steady 16000)).offset n < 60 * nanosPerSec} = (960000 : ℕ) :=
  (steady_population (.steady 16000) 16000 60 rfl (by decide)).2.2.1

theorem step_behind (s : Scheduler) (n : ℕ) :
    (s.behind n).step = (s.offset n, s.behind (n + 1)) := by
  have hnext : s.behind (n + 1) = (s.behind n).step.2 := Function.iterate_succ_apply' _ n s
  rw [hnext]
  rfl

theorem peek_behind (s : Scheduler) (n : ℕ) : (s.behind n).peek = s.offset n := rfl

/-- The ticks sent are those of the population, with fuel for the one that is not sent. -/
theorem pace_steady (h : shape.constantRate = some rate)
    (hlimit : (max rate 1 * seconds + 1) * nanosPerSec ≤ u64Max) :
    pace (max rate 1 * seconds + 1) (new shape) (seconds * nanosPerSec) =
      some ((List.range (max rate 1 * seconds)).map fun n =>
        ((new shape).offset n, (new shape).offset (n + 1))) := by
  -- on the messages still to come
  have hrest : ∀ j n, n + j = max rate 1 * seconds →
      pace (j + 1) ((new shape).behind n) (seconds * nanosPerSec) =
        some ((List.range' n j).map fun n =>
          ((new shape).offset n, (new shape).offset (n + 1))) := by
    intro j
    induction j with
    | zero =>
      intro n hn
      have hend : seconds * nanosPerSec ≤ (new shape).offset n :=
        not_lt.mp fun hlt => absurd ((offset_lt_iff h hlimit le_rfl n).mp hlt) (by omega)
      rw [pace, step_behind]
      dsimp only
      rw [if_pos hend]
      rfl
    | succ j ih =>
      intro n hn
      have hlt : ¬ seconds * nanosPerSec ≤ (new shape).offset n :=
        not_le.mpr ((offset_lt_iff h hlimit le_rfl n).mpr (by omega))
      rw [pace, step_behind]
      dsimp only
      rw [if_neg hlt, ih (n + 1) (by omega), peek_behind, List.range'_succ]
      rfl
  rw [List.range_eq_range']
  exact hrest _ 0 (by omega)

end Scheduler

end Wafer
