import Mathlib.Algebra.BigOperators.Ring.Finset
import Mathlib.Algebra.Order.BigOperators.Group.Finset
import Mathlib.Algebra.Order.Field.Basic
import Mathlib.Tactic.Ring

/-!
# Weighted mean and variance

Mean and variance of finitely many values whose weights sum to one, and what
becomes of both when a value is mixed in: the old weights are scaled down and
the new value takes the weight that is left.

## Main definitions

- `WeightedMean.mean`, `WeightedMean.variance`

## Main results

- `WeightedMean.sum_sq_sub` — the squares around any other centre
- `WeightedMean.mean_mix`, `WeightedMean.variance_mix` — mixing a value in
- `WeightedMean.variance_eq_zero_iff` — no variance means equal values
-/

namespace Wafer.Lib

namespace WeightedMean

open Finset

variable {ι K : Type*} [Field K] {s : Finset ι} {w x : ι → K} {a : K}

def mean (s : Finset ι) (w x : ι → K) : K := ∑ i ∈ s, w i * x i

def variance (s : Finset ι) (w x : ι → K) : K := ∑ i ∈ s, w i * (x i - mean s w x) ^ 2

/-- Around another centre the squares grow by that of its distance from the mean. -/
theorem sum_sq_sub (h : ∑ i ∈ s, w i = 1) (c : K) :
    ∑ i ∈ s, w i * (x i - c) ^ 2 = variance s w x + (mean s w x - c) ^ 2 := by
  have hexpand : ∀ d : K, ∑ i ∈ s, w i * (x i - d) ^ 2 =
      ∑ i ∈ s, w i * x i ^ 2 - 2 * d * mean s w x + d ^ 2 := by
    intro d
    have hterm : ∀ i, w i * (x i - d) ^ 2 =
        w i * x i ^ 2 - 2 * d * (w i * x i) + d ^ 2 * w i := fun i => by ring
    simp only [hterm, sum_add_distrib, sum_sub_distrib, ← mul_sum, h, mean]
    ring
  rw [variance, hexpand, hexpand]
  ring

/-- The weights after a value is mixed in with weight `a`. -/
theorem sum_mix (h : ∑ i ∈ s, w i = 1) : ∑ i ∈ s, (1 - a) * w i + a = 1 := by
  rw [← mul_sum, h]
  ring

theorem mean_mix (y : K) :
    ∑ i ∈ s, (1 - a) * w i * x i + a * y = mean s w x + a * (y - mean s w x) := by
  have hscale : ∑ i ∈ s, (1 - a) * w i * x i = (1 - a) * mean s w x := by
    rw [mean, mul_sum]
    exact sum_congr rfl fun i _ => mul_assoc _ _ _
  rw [hscale]
  ring

theorem variance_mix (h : ∑ i ∈ s, w i = 1) (y : K) :
    ∑ i ∈ s, (1 - a) * w i * (x i - (mean s w x + a * (y - mean s w x))) ^ 2 +
        a * (y - (mean s w x + a * (y - mean s w x))) ^ 2 =
      (1 - a) * (variance s w x + a * (y - mean s w x) * (y - mean s w x)) := by
  have hscale : ∀ c, ∑ i ∈ s, (1 - a) * w i * (x i - c) ^ 2 =
      (1 - a) * (variance s w x + (mean s w x - c) ^ 2) := by
    intro c
    rw [← sum_sq_sub h, mul_sum]
    exact sum_congr rfl fun i _ => mul_assoc _ _ _
  rw [hscale]
  ring

section Order

variable [LinearOrder K] [IsStrictOrderedRing K]

theorem variance_nonneg (hw : ∀ i ∈ s, 0 ≤ w i) : 0 ≤ variance s w x :=
  sum_nonneg fun i hi => mul_nonneg (hw i hi) (sq_nonneg _)

/-- With positive weights there is no variance exactly when all values are one. -/
theorem variance_eq_zero_iff (h : ∑ i ∈ s, w i = 1) (hw : ∀ i ∈ s, 0 < w i) :
    variance s w x = 0 ↔ ∀ i ∈ s, ∀ j ∈ s, x i = x j := by
  rw [variance, sum_eq_zero_iff_of_nonneg fun i hi => mul_nonneg (hw i hi).le (sq_nonneg _)]
  constructor
  · intro hzero i hi j hj
    have hmean : ∀ k ∈ s, x k = mean s w x := by
      intro k hk
      have hsq := (mul_eq_zero.mp (hzero k hk)).resolve_left (hw k hk).ne'
      exact sub_eq_zero.mp (pow_eq_zero_iff two_ne_zero |>.mp hsq)
    rw [hmean i hi, hmean j hj]
  · intro hequal i hi
    have hmean : mean s w x = x i := by
      calc mean s w x = ∑ j ∈ s, w j * x i := sum_congr rfl fun j hj => by rw [hequal j hj i hi]
        _ = x i := by rw [← sum_mul, h, one_mul]
    rw [hmean, sub_self]
    ring

end Order

end WeightedMean

end Wafer.Lib
