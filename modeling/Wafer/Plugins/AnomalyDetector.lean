import Wafer.Lib.HashMap
import Wafer.Lib.WeightedMean
import Mathlib.Algebra.BigOperators.Fin
import Mathlib.Algebra.Order.Field.Rat
import Mathlib.Tactic.NormNum

/-!
# The anomaly detector plugin

The transform guest that keeps an exponentially weighted mean and variance of
each configured field and scores a value by its distance from the mean. Numbers
are exact; `none` stands for an infinite value or none at all. The square root
is a parameter.

## Main definitions

- `EwmaAccumulator.update`, `zScore` — the accumulator of a field
- `AnomalyDetector.process` — a message, its fields scored in order
- `EwmaAccumulator.weight` — the weight a sample has after others

## Main results

- `EwmaAccumulator.feed_weighted` — the accumulator is the weighted mean and variance
- `AnomalyDetector.accumulator_run` — what each field's accumulator was fed
-/

namespace Wafer

open Lib

/-- `f64::EPSILON`. -/
def f64Epsilon : ℚ := 1 / 2 ^ 52

/-- `f64::MAX`. -/
def f64Max : ℚ := (2 ^ 53 - 1) * 2 ^ 971

structure EwmaAccumulator where
  mean : ℚ := 0
  variance : ℚ := 0
  count : ℕ := 0
  deriving DecidableEq

namespace EwmaAccumulator

def update (acc : EwmaAccumulator) (value : Option ℚ) (alpha : ℚ) : EwmaAccumulator :=
  match value with
  | none => acc
  | some value =>
    if acc.count = 0 then ⟨value, 0, acc.count + 1⟩
    else
      let diff := value - acc.mean
      ⟨acc.mean + alpha * diff, (1 - alpha) * (acc.variance + alpha * diff * diff), acc.count + 1⟩

def zScore (sqrt : ℚ → ℚ) (acc : EwmaAccumulator) (value : Option ℚ) (warmup : ℕ) : ℚ :=
  match value with
  | none => 0
  | some value =>
    if acc.count < warmup then 0
    else if acc.variance ≤ 0 then
      -- any other value is infinitely far off
      if |value - acc.mean| < f64Epsilon then 0 else f64Max
    else (value - acc.mean) / sqrt acc.variance

/-- The accumulator behind the samples. -/
def feed (alpha : ℚ) (samples : List (Option ℚ)) : EwmaAccumulator :=
  samples.foldl (fun acc value => acc.update value alpha) {}

/-- The weight of sample `i` of the samples `0` to `n`. -/
def weight (alpha : ℚ) (n i : ℕ) : ℚ :=
  if i = 0 then (1 - alpha) ^ n else alpha * (1 - alpha) ^ (n - i)

variable {alpha : ℚ} {x : ℕ → ℚ} {n i : ℕ}

theorem feed_concat (samples : List (Option ℚ)) (value : Option ℚ) :
    feed alpha (samples ++ [value]) = (feed alpha samples).update value alpha := by
  simp [feed]

theorem weight_last (alpha : ℚ) (n : ℕ) : weight alpha (n + 1) (n + 1) = alpha := by
  simp [weight]

/-- A further sample scales the weights before it. -/
theorem weight_succ (h : i ≤ n) : weight alpha (n + 1) i = (1 - alpha) * weight alpha n i := by
  rcases eq_or_ne i 0 with rfl | hi
  · simp [weight, pow_succ, mul_comm]
  · rw [weight, weight, if_neg hi, if_neg hi, Nat.succ_sub h, pow_succ]
    ring

theorem weight_pos (h0 : 0 < alpha) (h1 : alpha < 1) (n i : ℕ) : 0 < weight alpha n i := by
  have hrest : 0 < 1 - alpha := sub_pos.mpr h1
  rw [weight]
  split
  · exact pow_pos hrest n
  · exact mul_pos h0 (pow_pos hrest _)

theorem sum_weight (alpha : ℚ) (n : ℕ) : ∑ i ∈ Finset.range (n + 1), weight alpha n i = 1 := by
  induction n with
  | zero => simp [weight]
  | succ n ih =>
    rw [Finset.sum_range_succ, weight_last]
    have hscale : ∑ i ∈ Finset.range (n + 1), weight alpha (n + 1) i =
        ∑ i ∈ Finset.range (n + 1), (1 - alpha) * weight alpha n i :=
      Finset.sum_congr rfl fun i hi => weight_succ (Nat.lt_succ_iff.mp (Finset.mem_range.mp hi))
    rw [hscale, WeightedMean.sum_mix ih]

/-- The samples in order. -/
def samples (x : ℕ → ℚ) (n : ℕ) : List (Option ℚ) := (List.range (n + 1)).map fun i => some (x i)

/-- One update mixes the sample into mean and variance. -/
theorem feed_samples (alpha : ℚ) (x : ℕ → ℚ) (n : ℕ) :
    feed alpha (samples x n) =
      ⟨WeightedMean.mean (Finset.range (n + 1)) (weight alpha n) x,
        WeightedMean.variance (Finset.range (n + 1)) (weight alpha n) x, n + 1⟩ := by
  induction n with
  | zero => simp [samples, feed, update, weight, WeightedMean.mean, WeightedMean.variance]
  | succ n ih =>
    have hsnoc : samples x (n + 1) = samples x n ++ [some (x (n + 1))] := by
      simp [samples, List.range_succ]
    have hscale : ∀ f : ℕ → ℚ, ∑ i ∈ Finset.range (n + 2), weight alpha (n + 1) i * f i =
        ∑ i ∈ Finset.range (n + 1), (1 - alpha) * weight alpha n i * f i + alpha * f (n + 1) := by
      intro f
      rw [Finset.sum_range_succ, weight_last]
      congr 1
      refine Finset.sum_congr rfl fun i hi => ?_
      rw [weight_succ (Nat.lt_succ_iff.mp (Finset.mem_range.mp hi))]
    have hmean : WeightedMean.mean (Finset.range (n + 2)) (weight alpha (n + 1)) x = _ :=
      (hscale x).trans (WeightedMean.mean_mix (x (n + 1)))
    have hvariance := hscale fun i =>
      (x i - WeightedMean.mean (Finset.range (n + 2)) (weight alpha (n + 1)) x) ^ 2
    rw [hsnoc, feed_concat, ih, update, if_neg (Nat.succ_ne_zero n)]
    dsimp only
    rw [EwmaAccumulator.mk.injEq]
    refine ⟨hmean.symm, ?_, rfl⟩
    refine Eq.trans ?_ hvariance.symm
    rw [hmean]
    exact (WeightedMean.variance_mix (sum_weight alpha n) (x (n + 1))).symm

/-- Mean and variance are the exponentially weighted ones of `x 0` to `x n`, no variance means equal
samples, and a score in the warm-up is zero. -/
structure IsWeighted (alpha : ℚ) (x : ℕ → ℚ) (n : ℕ) (acc : EwmaAccumulator) : Prop where
  mean : acc.mean = ∑ i ∈ Finset.range (n + 1), weight alpha n i * x i
  variance : acc.variance = ∑ i ∈ Finset.range (n + 1), weight alpha n i * (x i - acc.mean) ^ 2
  nonneg : 0 ≤ acc.variance
  eq_zero : acc.variance = 0 ↔ ∀ i ≤ n, ∀ j ≤ n, x i = x j
  count : acc.count = n + 1
  warmup : ∀ sqrt value warmup, acc.count < warmup → acc.zScore sqrt value warmup = 0

/-- After any samples the accumulator is the exponentially weighted mean and variance. -/
theorem feed_weighted (alpha : ℚ) (h0 : 0 < alpha) (h1 : alpha < 1) (x : ℕ → ℚ) (n : ℕ) :
    IsWeighted alpha x n (feed alpha (samples x n)) := by
  have hpos : ∀ i ∈ Finset.range (n + 1), 0 < weight alpha n i := fun i _ => weight_pos h0 h1 n i
  rw [feed_samples]
  constructor
  case mean => rfl
  case variance => rfl
  case nonneg => exact WeightedMean.variance_nonneg fun i hi => (hpos i hi).le
  case eq_zero =>
    refine (WeightedMean.variance_eq_zero_iff (sum_weight alpha n) hpos).trans ?_
    simp only [Finset.mem_range, Nat.lt_succ_iff]
  case count => rfl
  case warmup =>
    intro sqrt value warmup hwarmup
    cases value with
    | none => rfl
    | some value => exact if_pos hwarmup

/-- Two samples, the second of a tenth of the weight. -/
theorem feed_weighted_tenth :
    (feed (1 / 10) (samples (fun i => 10 * i) 1)).mean = 1 := by
  rw [(feed_weighted (1 / 10) (by norm_num) (by norm_num) (fun i => 10 * i) 1).mean]
  norm_num [Finset.sum_range_succ, weight]

end EwmaAccumulator

namespace AnomalyDetector

structure AnomalyConfig where
  alpha : ℚ
  warmupSamples : ℕ
  zThreshold : ℚ
  fields : List String

/-- `validate` of a configuration that is read. -/
def validate (config : AnomalyConfig) : Option String :=
  if config.fields = [] then some "'fields' must not be empty"
  else if config.alpha ≤ 0 ∨ 1 ≤ config.alpha then some "'alpha' must be in (0, 1)"
  else none

abbrev Accumulators := HashMap String EwmaAccumulator

def init (config : AnomalyConfig) : Accumulators :=
  HashMap.collect (config.fields.map fun field => (field, {}))

def accumulator (accumulators : Accumulators) (field : String) : EwmaAccumulator :=
  (accumulators.get? field).getD {}

variable (sqrt : ℚ → ℚ) (config : AnomalyConfig)

/-- The score of a field before its value is fed. A missing value has score zero. -/
def scoreField (parsed : String → Option ℚ) (accumulators : Accumulators) (field : String) :
    Accumulators × ℚ :=
  match parsed field with
  | none => (accumulators, 0)
  | some value =>
    let acc := accumulator accumulators field
    (accumulators.insert field (acc.update (some value) config.alpha),
      acc.zScore sqrt (some value) config.warmupSamples)

structure AnomalyOutput where
  anomalyScore : ℚ
  severity : String
  fieldScores : List (String × ℚ)

def severity (maxScore : ℚ) : String :=
  if maxScore < config.zThreshold then "normal"
  else if maxScore < config.zThreshold * 2 then "warning"
  else "critical"

/-- The fields in order, with the largest score so far. -/
def scoreFields (parsed : String → Option ℚ) :
    List String → Accumulators → ℚ → Accumulators × ℚ × List (String × ℚ)
  | [], accumulators, maxScore => (accumulators, maxScore, [])
  | field :: fields, accumulators, maxScore =>
    let (accumulators, z) := scoreField sqrt config parsed accumulators field
    let (accumulators, maxScore, scores) :=
      scoreFields parsed fields accumulators (if maxScore < |z| then |z| else maxScore)
    (accumulators, maxScore, (field, z) :: scores)

/-- A message whose payload is an object, its numbers given by name. -/
def process (parsed : String → Option ℚ) (accumulators : Accumulators) :
    Accumulators × AnomalyOutput :=
  let (accumulators, maxScore, scores) :=
    scoreFields sqrt config parsed config.fields accumulators 0
  (accumulators, ⟨maxScore, severity config maxScore, scores⟩)

/-- What a message feeds a field: its value, as often as the field is configured. -/
def fed (fields : List String) (parsed : String → Option ℚ) (field : String) : List (Option ℚ) :=
  match parsed field with
  | none => []
  | some value => List.replicate (fields.count field) (some value)

variable {sqrt config} {parsed : String → Option ℚ} {accumulators : Accumulators}
  {samples : String → List (Option ℚ)}

/-- Every accumulator has been fed the samples of its field. -/
def Fed (config : AnomalyConfig) (accumulators : Accumulators)
    (samples : String → List (Option ℚ)) : Prop :=
  ∀ field, accumulator accumulators field = EwmaAccumulator.feed config.alpha (samples field)

theorem Fed.init (config : AnomalyConfig) : Fed config (init config) fun _ => [] := by
  intro field
  have hdefault : ∀ fields : List String,
      accumulator (HashMap.collect (fields.map fun f => (f, {}))) field = {} := by
    intro fields
    induction fields using List.reverseRecOn with
    | nil => rfl
    | append_singleton fields f ih =>
      rw [List.map_append, List.map_singleton, HashMap.collect_snoc, accumulator,
        HashMap.get?_insert]
      split
      · rfl
      · exact ih
  exact hdefault config.fields

theorem Fed.scoreField (h : Fed config accumulators samples) (parsed : String → Option ℚ)
    (field : String) :
    Fed config (scoreField sqrt config parsed accumulators field).1
      fun f => samples f ++ fed [field] parsed f := by
  intro f
  rw [AnomalyDetector.scoreField]
  cases hvalue : parsed field with
  | none =>
    have hnothing : fed [field] parsed f = [] := by
      rw [fed]
      split
      · rfl
      · next hf =>
        have hne : f ≠ field := by
          rintro rfl
          rw [hvalue] at hf
          cases hf
        rw [List.count_eq_zero_of_not_mem (by simpa using hne)]
        rfl
    show accumulator accumulators f = EwmaAccumulator.feed config.alpha (samples f ++ _)
    rw [hnothing, List.append_nil]
    exact h f
  | some value =>
    show accumulator (accumulators.insert field _) f =
      EwmaAccumulator.feed config.alpha (samples f ++ fed [field] parsed f)
    rw [accumulator, HashMap.get?_insert]
    split
    · next heq =>
      subst heq
      have hone : fed [f] parsed f = [some value] := by simp [fed, hvalue]
      rw [hone, EwmaAccumulator.feed_concat, ← h f]
      rfl
    · next hne =>
      have hnothing : fed [field] parsed f = [] := by
        rw [fed]
        split
        · rfl
        · rw [List.count_eq_zero_of_not_mem (by simpa using hne)]
          rfl
      rw [hnothing, List.append_nil]
      exact h f

theorem fed_cons (field : String) (fields : List String) (parsed : String → Option ℚ) (f : String) :
    fed (field :: fields) parsed f = fed [field] parsed f ++ fed fields parsed f := by
  rw [fed, fed, fed]
  cases parsed f with
  | none => rfl
  | some value =>
    dsimp only
    rw [← List.replicate_add, ← List.count_append]
    rfl

theorem Fed.process (h : Fed config accumulators samples) (parsed : String → Option ℚ) :
    Fed config (process sqrt config parsed accumulators).1
      fun f => samples f ++ fed config.fields parsed f := by
  have hfields : ∀ (fields : List String) (accumulators : Accumulators)
      (samples : String → List (Option ℚ)) (maxScore : ℚ), Fed config accumulators samples →
      Fed config (scoreFields sqrt config parsed fields accumulators maxScore).1
        fun f => samples f ++ fed fields parsed f := by
    intro fields
    induction fields with
    | nil =>
      intro accumulators samples maxScore h f
      have hnothing : fed [] parsed f = [] := by
        rw [fed]
        cases parsed f <;> rfl
      show accumulator accumulators f = EwmaAccumulator.feed config.alpha (samples f ++ fed [] parsed f)
      rw [hnothing, List.append_nil]
      exact h f
    | cons field fields ih =>
      intro accumulators samples maxScore h f
      show _ = EwmaAccumulator.feed config.alpha (samples f ++ fed (field :: fields) parsed f)
      rw [fed_cons, ← List.append_assoc]
      exact ih _ _ _ (h.scoreField parsed field) f
  exact hfields config.fields accumulators samples 0 h

/-- After any messages the accumulator of a field has been fed the values the messages have for it,
in order. -/
theorem accumulator_run (sqrt : ℚ → ℚ) (config : AnomalyConfig)
    (messages : List (String → Option ℚ)) (field : String) :
    accumulator (messages.foldl (fun accumulators parsed =>
        (process sqrt config parsed accumulators).1) (init config)) field =
      EwmaAccumulator.feed config.alpha
        (messages.flatMap fun parsed => fed config.fields parsed field) := by
  have hrun : Fed config (messages.foldl (fun accumulators parsed =>
        (process sqrt config parsed accumulators).1) (init config))
      fun f => messages.flatMap fun parsed => fed config.fields parsed f := by
    induction messages using List.reverseRecOn with
    | nil => exact Fed.init config
    | append_singleton messages parsed ih =>
      rw [List.foldl_append]
      intro f
      show _ = EwmaAccumulator.feed config.alpha ((messages ++ [parsed]).flatMap _)
      rw [List.flatMap_append, List.flatMap_singleton]
      exact ih.process parsed f
  exact hrun field

end AnomalyDetector

end Wafer
