import Wafer.Lib.Double
import Wafer.Queue.Envelope
import Wafer.Types.Measurement

/-!
# The schedule of the bench source

`BenchSource` fixes when each message is due: warm-up messages at the base rate,
then the base rate, the burst rate and the base rate again. A rate is the double
it is configured as, `none` if that is infinite or no number; the products and
quotients of rates are rounded to doubles.

## Main definitions

- `intervalNs`, `messagesFor`
- `BenchSourceConfig.burstPhaseCounts`, `scheduleOffsetNs`, `burstPhase`, `validate`
- `BenchSourceConfig.Scheduled` — the messages come in order, each in its phase

## Main results

- `BenchSourceConfig.scheduled_iff` — the configurations with such a schedule
- `BenchSourceConfig.fits_of_le` — phases of at most `2 ^ 50` messages fit
-/

namespace Wafer

open Lib

/-- The cast of a double that is no negative one to `u64`. -/
def castU64 (q : ℚ) : ℕ := min ⌊q⌋.toNat u64Max

def intervalNs (ratePerSec : Option ℚ) : Option ℕ :=
  match ratePerSec with
  | none => none
  | some rate =>
    if rate ≤ 0 then none
    else
      let interval := castU64 (toDouble (1000000000 / rate))
      if 0 < interval then some interval else none

def messagesFor (ratePerSec : Option ℚ) (seconds : ℕ) : Option ℕ :=
  match ratePerSec with
  | none => none
  | some rate =>
    let messages := toDouble (rate * toDouble seconds)
    if 2 ^ 1024 ≤ |messages| ∨ messages < 0 ∨ messages ≠ ⌊messages⌋ then none
    else some (castU64 messages)

structure BenchBurstSchedule where
  ratePerSec : Option ℚ
  startSecs : ℕ
  endSecs : ℕ
  deriving DecidableEq, Repr

structure BenchSourceConfig where
  ratePerSec : Option ℚ
  totalMessages : ℕ
  warmupMessages : ℕ := 0
  burst : Option BenchBurstSchedule := none
  deriving DecidableEq, Repr

/-- `u64::checked_sub`. -/
def checkedSub (a b : ℕ) : Option ℕ := if b ≤ a then some (a - b) else none

namespace BenchSourceConfig

/-- The messages before, in and after the burst. -/
def burstPhaseCounts (config : BenchSourceConfig) : Option (ℕ × ℕ × ℕ) := do
  let burst ← config.burst
  let before ← messagesFor config.ratePerSec burst.startSecs
  let during ← messagesFor burst.ratePerSec (burst.endSecs - burst.startSecs)
  let measured ← checkedSub config.totalMessages config.warmupMessages
  let after ← checkedSub measured (satAdd before during)
  return (before, during, after)

def measurementOffsetNs (config : BenchSourceConfig) (sequence : ℕ) : Option ℕ := do
  let burst ← config.burst
  let measurementIndex ← checkedSub sequence config.warmupMessages
  let (before, during, _) ← config.burstPhaseCounts
  let baseInterval ← intervalNs config.ratePerSec
  let burstInterval ← intervalNs burst.ratePerSec
  if measurementIndex < before then
    return satMul measurementIndex baseInterval
  else if measurementIndex < satAdd before during then
    return satAdd (satMul burst.startSecs 1000000000)
      (satMul (measurementIndex - before) burstInterval)
  else
    return satAdd (satMul burst.endSecs 1000000000)
      (satMul (measurementIndex - satAdd before during) baseInterval)

def scheduleOffsetNs (config : BenchSourceConfig) (sequence : ℕ) : ℕ :=
  let baseInterval := (intervalNs config.ratePerSec).getD 0
  match config.measurementOffsetNs sequence with
  | none => satMul sequence baseInterval
  | some offset => satAdd (satMul config.warmupMessages baseInterval) offset

def burstPhase (config : BenchSourceConfig) (sequence : ℕ) : Option BurstPhase := do
  let measurementIndex ← checkedSub sequence config.warmupMessages
  let (before, during, _) ← config.burstPhaseCounts
  return if measurementIndex < before then .before
    else if measurementIndex < satAdd before during then .burst
    else .after

/-- `Lifecycle::validate` -/
def validate (config : BenchSourceConfig) : Except String Unit :=
  if intervalNs config.ratePerSec = none then
    .error "bench source rate must be positive and finite"
  else if ∃ burst ∈ config.burst, intervalNs burst.ratePerSec = none ∨
      burst.endSecs ≤ burst.startSecs ∨ config.burstPhaseCounts = none then
    .error "bench source burst schedule is invalid for the configured population"
  else .ok ()

/-! ## Phases -/

/-- When the first measured message is due. -/
def measurementStartNs (config : BenchSourceConfig) (baseInterval : ℕ) : ℕ :=
  config.warmupMessages * baseInterval

/-- The times of a phase, relative to the start of the measurement: from the first to before the
second, or to the end of the run. -/
def phaseTimes (burst : BenchBurstSchedule) : BurstPhase → ℕ × Option ℕ
  | .before => (0, some (burst.startSecs * 1000000000))
  | .burst => (burst.startSecs * 1000000000, some (burst.endSecs * 1000000000))
  | .after => (burst.endSecs * 1000000000, none)

/-- Every message comes no earlier than the one before, the counts of the phases add up, and each
message is due within its phase. -/
structure Scheduled (config : BenchSourceConfig) : Prop where
  monotone : ∀ s t, s ≤ t → t < config.totalMessages →
    config.scheduleOffsetNs s ≤ config.scheduleOffsetNs t
  population : ∀ before during after, config.burstPhaseCounts = some (before, during, after) →
    config.warmupMessages + before + during + after = config.totalMessages
  warmup : ∀ baseInterval, intervalNs config.ratePerSec = some baseInterval →
    ∀ s < config.totalMessages, s < config.warmupMessages →
      config.scheduleOffsetNs s < config.measurementStartNs baseInterval
  phases : ∀ burst baseInterval, config.burst = some burst →
    intervalNs config.ratePerSec = some baseInterval →
    ∀ s < config.totalMessages, ∀ phase, config.burstPhase s = some phase →
      config.measurementStartNs baseInterval + (phaseTimes burst phase).1 ≤
          config.scheduleOffsetNs s ∧
        ∀ stop, (phaseTimes burst phase).2 = some stop →
          config.scheduleOffsetNs s < config.measurementStartNs baseInterval + stop

/-- A phase of `count` messages from `start` on begins within 64 bits, and its last message is due
before `stop`. -/
def PhaseFits (count interval start stop : ℕ) : Prop :=
  0 < count → start ≤ u64Max ∧ min (start + (count - 1) * interval) u64Max < stop

/-- Counts and intervals of a configuration with a burst. -/
structure Plan (config : BenchSourceConfig) (burst : BenchBurstSchedule)
    (before during after baseInterval burstInterval : ℕ) : Prop where
  burst_eq : config.burst = some burst
  counts : config.burstPhaseCounts = some (before, during, after)
  base : intervalNs config.ratePerSec = some baseInterval
  fast : intervalNs burst.ratePerSec = some burstInterval

/-- The counts add up within 64 bits and the phases fit. -/
def Fits (config : BenchSourceConfig) : Prop :=
  ∀ burst before during after baseInterval burstInterval,
    config.Plan burst before during after baseInterval burstInterval →
    let start := config.measurementStartNs baseInterval
    before + during ≤ u64Max ∧
      PhaseFits before baseInterval start (start + burst.startSecs * 1000000000) ∧
      PhaseFits during burstInterval (start + burst.startSecs * 1000000000)
        (start + burst.endSecs * 1000000000) ∧
      (0 < after → start + burst.endSecs * 1000000000 ≤ u64Max)

variable {config : BenchSourceConfig} {burst : BenchBurstSchedule}
  {before during after baseInterval burstInterval s t : ℕ}

theorem intervalNs_pos {rate : Option ℚ} {interval : ℕ} (h : intervalNs rate = some interval) :
    0 < interval := by
  simp only [intervalNs] at h
  split at h
  · cases h
  · split at h
    · cases h
    · split at h
      · next hpos =>
        obtain rfl := Option.some.inj h
        exact hpos
      · cases h

/-- A valid configuration has an interval, and a plan if it has a burst. -/
theorem base_of_valid (h : config.validate = .ok ()) :
    ∃ baseInterval, intervalNs config.ratePerSec = some baseInterval := by
  simp only [validate] at h
  split at h
  · cases h
  · next hbase => exact Option.ne_none_iff_exists'.mp hbase

theorem plan_of_valid (h : config.validate = .ok ()) (hburst : config.burst = some burst) :
    (∃ before during after baseInterval burstInterval,
      config.Plan burst before during after baseInterval burstInterval) ∧
      burst.startSecs < burst.endSecs := by
  obtain ⟨baseInterval, hbase⟩ := base_of_valid h
  simp only [validate, hbase, reduceCtorEq, if_false] at h
  split at h
  · cases h
  · next hvalid =>
    simp only [hburst, Option.mem_def, Option.some.injEq, exists_eq_left', not_or, not_le] at hvalid
    obtain ⟨hfast, horder, hcounts⟩ := hvalid
    obtain ⟨burstInterval, hfast⟩ := Option.ne_none_iff_exists'.mp hfast
    obtain ⟨⟨before, during, after⟩, hcounts⟩ := Option.ne_none_iff_exists'.mp hcounts
    exact ⟨⟨_, _, _, _, _, hburst, hcounts, hbase, hfast⟩, horder⟩

/-- The messages after the burst are those the others leave. -/
theorem counts_total (h : config.burstPhaseCounts = some (before, during, after)) :
    config.warmupMessages + satAdd before during + after = config.totalMessages := by
  simp only [burstPhaseCounts, bind, Option.bind_eq_some_iff, pure, Option.some.injEq,
    Prod.mk.injEq, checkedSub, Option.ite_none_right_eq_some] at h
  obtain ⟨_, -, _, -, _, -, _, ⟨hwarmup, rfl⟩, _, ⟨hmeasured, rfl⟩, rfl, rfl, rfl⟩ := h
  omega

theorem Plan.messages (h : config.Plan burst before during after baseInterval burstInterval) :
    messagesFor config.ratePerSec burst.startSecs = some before ∧
      messagesFor burst.ratePerSec (burst.endSecs - burst.startSecs) = some during := by
  have hcounts := h.counts
  simp only [burstPhaseCounts, h.burst_eq, bind, Option.bind_eq_some_iff, pure, Option.some.injEq,
    Prod.mk.injEq, exists_eq_left'] at hcounts
  obtain ⟨_, hbefore, _, hduring, _, -, _, -, rfl, rfl, -⟩ := hcounts
  exact ⟨hbefore, hduring⟩

/-! ## When a message is due -/

/-- The time a message is due at, past 64 bits too. -/
def dueNs (config : BenchSourceConfig) (burst : BenchBurstSchedule)
    (before during baseInterval burstInterval s : ℕ) : ℕ :=
  let start := config.measurementStartNs baseInterval
  if s < config.warmupMessages then s * baseInterval
  else if s - config.warmupMessages < before then
    start + (s - config.warmupMessages) * baseInterval
  else if s - config.warmupMessages < satAdd before during then
    start + burst.startSecs * 1000000000 + (s - config.warmupMessages - before) * burstInterval
  else
    start + burst.endSecs * 1000000000 +
      (s - config.warmupMessages - satAdd before during) * baseInterval

theorem satAdd_satMul (a b c d : ℕ) :
    satAdd (satMul a b) (satMul c d) = min (a * b + c * d) u64Max := by
  simp only [satAdd, satMul, u64Max]
  omega

theorem satAdd_satAdd_satMul (x a b c d : ℕ) (hx : x = satMul a b) (y z w : ℕ)
    (hy : y = satAdd (satMul c d) (satMul z w)) :
    satAdd x y = min (a * b + c * d + z * w) u64Max := by
  rw [hx, hy]
  simp only [satAdd, satMul, u64Max]
  omega

theorem Plan.offset_eq (h : config.Plan burst before during after baseInterval burstInterval)
    (s : ℕ) : config.scheduleOffsetNs s =
      min (config.dueNs burst before during baseInterval burstInterval s) u64Max := by
  have hsub : checkedSub s config.warmupMessages =
      if s < config.warmupMessages then none else some (s - config.warmupMessages) := by
    simp only [checkedSub]
    split <;> split <;> first | rfl | omega
  have hmeasurement : config.measurementOffsetNs s =
      if s < config.warmupMessages then none
      else if s - config.warmupMessages < before then
        some (satMul (s - config.warmupMessages) baseInterval)
      else if s - config.warmupMessages < satAdd before during then
        some (satAdd (satMul burst.startSecs 1000000000)
          (satMul (s - config.warmupMessages - before) burstInterval))
      else some (satAdd (satMul burst.endSecs 1000000000)
        (satMul (s - config.warmupMessages - satAdd before during) baseInterval)) := by
    simp only [measurementOffsetNs, h.burst_eq, h.counts, h.base, h.fast, hsub, bind, pure,
      Option.bind_some]
    split
    · rfl
    · simp only [Option.bind_some]
  simp only [scheduleOffsetNs, hmeasurement, h.base, Option.getD_some, dueNs, measurementStartNs]
  by_cases hwarmup : s < config.warmupMessages
  · simp only [hwarmup, if_true]
    rfl
  · simp only [hwarmup, if_false]
    by_cases hbefore : s - config.warmupMessages < before
    · simp only [hbefore, if_true]
      exact satAdd_satMul _ _ _ _
    · simp only [hbefore, if_false]
      by_cases hburst : s - config.warmupMessages < satAdd before during
      · simp only [hburst, if_true]
        exact satAdd_satAdd_satMul _ _ _ _ _ rfl _ _ _ rfl
      · simp only [hburst, if_false]
        exact satAdd_satAdd_satMul _ _ _ _ _ rfl _ _ _ rfl

/-- Without a burst every message is due by its number. -/
theorem offset_eq_of_none (hburst : config.burst = none)
    (hbase : intervalNs config.ratePerSec = some baseInterval) (s : ℕ) :
    config.scheduleOffsetNs s = min (s * baseInterval) u64Max := by
  have hmeasurement : config.measurementOffsetNs s = none := by
    simp only [measurementOffsetNs, hburst, bind, Option.bind_none]
  simp only [scheduleOffsetNs, hmeasurement, hbase, Option.getD_some]
  rfl

/-- The phase of a message by its number. -/
theorem Plan.phase_eq (h : config.Plan burst before during after baseInterval burstInterval)
    (s : ℕ) : config.burstPhase s =
      if s < config.warmupMessages then none
      else if s - config.warmupMessages < before then some .before
      else if s - config.warmupMessages < satAdd before during then some .burst
      else some .after := by
  simp only [burstPhase, h.counts, checkedSub, bind, pure]
  by_cases hwarmup : s < config.warmupMessages
  · simp only [hwarmup, if_true, if_neg (Nat.not_le.mpr hwarmup), Option.bind_none]
  · simp only [hwarmup, if_false, if_pos (Nat.not_lt.mp hwarmup), Option.bind_some]
    split
    · rfl
    · split <;> rfl

/-! ## Schedules -/

section Iff

variable (h : config.Plan burst before during after baseInterval burstInterval)

include h

/-- The last messages of a schedule fit. -/
theorem Plan.fits_of_scheduled (hscheduled : config.Scheduled) :
    before + during ≤ u64Max ∧
      PhaseFits before baseInterval (config.measurementStartNs baseInterval)
        (config.measurementStartNs baseInterval + burst.startSecs * 1000000000) ∧
      PhaseFits during burstInterval
        (config.measurementStartNs baseInterval + burst.startSecs * 1000000000)
        (config.measurementStartNs baseInterval + burst.endSecs * 1000000000) ∧
      (0 < after → config.measurementStartNs baseInterval + burst.endSecs * 1000000000 ≤
        u64Max) := by
  have htotal := counts_total h.counts
  have hpopulation := hscheduled.population _ _ _ h.counts
  have hsum : before + during ≤ u64Max := by
    have hle : satAdd before during ≤ u64Max := min_le_right _ _
    omega
  have hexact : satAdd before during = before + during := min_eq_left hsum
  have hphases := hscheduled.phases burst baseInterval h.burst_eq h.base
  refine ⟨hsum, fun hpos => ?_, fun hpos => ?_, fun hpos => ?_⟩
  · -- the first and the last message before the burst
    have hfirst := hphases config.warmupMessages (by omega) .before (by
      rw [h.phase_eq]
      simp [hpos])
    have hlast := hphases (config.warmupMessages + (before - 1)) (by omega) .before (by
      rw [h.phase_eq]
      simp [hpos])
    rw [h.offset_eq] at hfirst hlast
    simp only [dueNs, lt_self_iff_false, if_false, Nat.sub_self, hpos, if_true, zero_mul,
      phaseTimes, add_zero] at hfirst
    have hindex : before - 1 < before := by omega
    simp only [dueNs, Nat.not_lt.mpr (Nat.le_add_right _ _), if_false, Nat.add_sub_cancel_left,
      hindex, if_true, phaseTimes] at hlast
    exact ⟨(le_min_iff.mp hfirst.1).2, hlast.2 _ rfl⟩
  · have hfirst := hphases (config.warmupMessages + before) (by omega) .burst (by
      rw [h.phase_eq, hexact]
      simp [hpos])
    have hlast := hphases (config.warmupMessages + (before + (during - 1))) (by omega) .burst (by
      rw [h.phase_eq, hexact]
      simp [hpos])
    rw [h.offset_eq] at hfirst hlast
    have hindex : before + (during - 1) < before + during := by omega
    simp only [dueNs, Nat.not_lt.mpr (Nat.le_add_right _ _), if_false, Nat.add_sub_cancel_left,
      lt_self_iff_false, hexact, Nat.lt_add_right_iff_pos, hpos, if_true, Nat.sub_self,
      zero_mul, add_zero, phaseTimes] at hfirst
    simp only [dueNs, Nat.not_lt.mpr (Nat.le_add_right _ _), if_false, Nat.add_sub_cancel_left,
      hexact, hindex, if_true, phaseTimes] at hlast
    exact ⟨(le_min_iff.mp hfirst.1).2, hlast.2 _ rfl⟩
  · have hfirst := hphases (config.warmupMessages + (before + during)) (by omega) .after (by
      rw [h.phase_eq, hexact]
      simp)
    rw [h.offset_eq] at hfirst
    simp only [phaseTimes] at hfirst
    exact (le_min_iff.mp hfirst.1).2

omit h in
/-- What fits at the last message of a phase fits before. -/
theorem PhaseFits.due {count interval start stop i : ℕ} (hfits : PhaseFits count interval start stop)
    (hi : i < count) : start ≤ min (start + i * interval) u64Max ∧
      min (start + i * interval) u64Max < stop := by
  obtain ⟨hstart, hlast⟩ := hfits (by omega)
  have hle : i * interval ≤ (count - 1) * interval := Nat.mul_le_mul_right _ (by omega)
  refine ⟨le_min (Nat.le_add_right _ _) hstart, lt_of_le_of_lt ?_ hlast⟩
  exact min_le_min_right _ (Nat.add_le_add_left hle _)

/-- The messages of a plan that fits are due in their phases. -/
theorem Plan.phases_of_fits (hfits : config.Fits) (hs : s < config.totalMessages)
    {phase : BurstPhase} (hphase : config.burstPhase s = some phase) :
    config.measurementStartNs baseInterval + (phaseTimes burst phase).1 ≤
        config.scheduleOffsetNs s ∧
      ∀ stop, (phaseTimes burst phase).2 = some stop →
        config.scheduleOffsetNs s < config.measurementStartNs baseInterval + stop := by
  obtain ⟨hsum, hbefore, hduring, hafter⟩ := hfits _ _ _ _ _ _ h
  have htotal := counts_total h.counts
  have hexact : satAdd before during = before + during := min_eq_left hsum
  rw [h.offset_eq]
  rw [h.phase_eq, hexact] at hphase
  simp only [dueNs, hexact]
  split at hphase
  · cases hphase
  · next hwarmup =>
    rw [if_neg hwarmup]
    split at hphase
    · next hin =>
      obtain rfl := Option.some.inj hphase
      rw [if_pos hin]
      have hdue := hbefore.due hin
      simp only [phaseTimes, add_zero, Option.some.injEq]
      exact ⟨hdue.1, fun stop hstop => hstop ▸ hdue.2⟩
    · next hbehind =>
      rw [if_neg hbehind]
      split at hphase
      · next hin =>
        obtain rfl := Option.some.inj hphase
        rw [if_pos hin]
        have hdue := hduring.due (i := s - config.warmupMessages - before) (by omega)
        simp only [phaseTimes, Option.some.injEq]
        exact ⟨hdue.1, fun stop hstop => hstop ▸ hdue.2⟩
      · next hin =>
        obtain rfl := Option.some.inj hphase
        rw [if_neg hin]
        simp only [phaseTimes, reduceCtorEq, false_implies, implies_true, and_true]
        exact le_min (Nat.le_add_right _ _) (hafter (by omega))

/-- A message before the burst or in it is due before the phase ends. -/
theorem Plan.due_of_fits (hfits : config.Fits) (hs : s < config.totalMessages)
    (hwarmup : ¬s < config.warmupMessages) :
    (s - config.warmupMessages < before → config.scheduleOffsetNs s <
      config.measurementStartNs baseInterval + burst.startSecs * 1000000000) ∧
    (¬s - config.warmupMessages < before → s - config.warmupMessages < satAdd before during →
      config.scheduleOffsetNs s <
        config.measurementStartNs baseInterval + burst.endSecs * 1000000000) := by
  constructor
  · intro hin
    have hphase : config.burstPhase s = some .before := by
      rw [h.phase_eq, if_neg hwarmup, if_pos hin]
    exact (h.phases_of_fits hfits hs hphase).2 _ rfl
  · intro hbehind hin
    have hphase : config.burstPhase s = some .burst := by
      rw [h.phase_eq, if_neg hwarmup, if_neg hbehind, if_pos hin]
    exact (h.phases_of_fits hfits hs hphase).2 _ rfl

/-- Within a phase the due times ascend, and a later phase begins where an earlier one ends. -/
theorem Plan.monotone_of_fits (hfits : config.Fits) (horder : burst.startSecs < burst.endSecs)
    (hst : s ≤ t) (ht : t < config.totalMessages) :
    config.scheduleOffsetNs s ≤ config.scheduleOffsetNs t := by
  have hsecs : burst.startSecs * 1000000000 ≤ burst.endSecs * 1000000000 :=
    Nat.mul_le_mul_right _ horder.le
  have hend := fun hwarmup => h.due_of_fits hfits (hst.trans_lt ht) hwarmup
  rw [h.offset_eq t]
  refine le_min ?_ ((h.offset_eq s).trans_le (min_le_right _ _))
  have hdue : config.scheduleOffsetNs s ≤ config.dueNs burst before during baseInterval
      burstInterval s := (h.offset_eq s).trans_le (min_le_left _ _)
  have hindex : s - config.warmupMessages ≤ t - config.warmupMessages := by omega
  by_cases htw : t < config.warmupMessages
  · simp only [dueNs, if_pos (hst.trans_lt htw)] at hdue
    simp only [dueNs, if_pos htw]
    exact hdue.trans (Nat.mul_le_mul_right _ hst)
  · simp only [dueNs, if_neg htw]
    by_cases hsw : s < config.warmupMessages
    · -- the warm-up ends at the start of the measurement
      simp only [dueNs, if_pos hsw] at hdue
      have hle : s * baseInterval ≤ config.measurementStartNs baseInterval :=
        Nat.mul_le_mul_right _ hsw.le
      split
      · omega
      · split <;> omega
    · obtain ⟨hbefore, hduring⟩ := hend hsw
      simp only [dueNs, if_neg hsw] at hdue
      by_cases hsb : s - config.warmupMessages < before
      · have hstop := hbefore hsb
        simp only [if_pos hsb] at hdue
        split
        · exact hdue.trans (Nat.add_le_add_left (Nat.mul_le_mul_right _ hindex) _)
        · split <;> omega
      · rw [if_neg (by omega)]
        simp only [if_neg hsb] at hdue
        by_cases hsd : s - config.warmupMessages < satAdd before during
        · have hstop := hduring hsb hsd
          simp only [if_pos hsd] at hdue
          have hle : (s - config.warmupMessages - before) * burstInterval ≤
              (t - config.warmupMessages - before) * burstInterval :=
            Nat.mul_le_mul_right _ (by omega)
          split
          · exact hdue.trans (Nat.add_le_add_left hle _)
          · exact hstop.le.trans (Nat.le_add_right _ _)
        · simp only [if_neg hsd] at hdue
          have hle : (s - config.warmupMessages - satAdd before during) * baseInterval ≤
              (t - config.warmupMessages - satAdd before during) * baseInterval :=
            Nat.mul_le_mul_right _ (by omega)
          rw [if_neg (by omega)]
          exact hdue.trans (Nat.add_le_add_left hle _)

end Iff

/-- A valid configuration has such a schedule exactly if its counts add up and its phases fit. -/
theorem scheduled_iff (hvalid : config.validate = .ok ()) : config.Scheduled ↔ config.Fits := by
  constructor
  · intro hscheduled burst before during after baseInterval burstInterval h
    exact h.fits_of_scheduled hscheduled
  · intro hfits
    obtain ⟨baseInterval, hbase⟩ := base_of_valid hvalid
    have hpos := intervalNs_pos hbase
    cases hburst : config.burst with
    | none =>
      have hoffset := offset_eq_of_none hburst hbase
      have hcounts : config.burstPhaseCounts = none := by
        simp only [burstPhaseCounts, hburst, bind, Option.bind_none]
      refine ⟨fun s t hst _ => ?_, fun _ _ _ hsome => ?_, fun interval hinterval s _ hs => ?_,
        fun _ _ hsome => ?_⟩
      · rw [hoffset, hoffset]
        exact min_le_min_right _ (Nat.mul_le_mul_right _ hst)
      · rw [hcounts] at hsome
        cases hsome
      · obtain rfl := Option.some.inj (hbase.symm.trans hinterval)
        rw [hoffset, measurementStartNs]
        exact (min_le_left _ _).trans_lt (Nat.mul_lt_mul_of_pos_right hs hpos)
      · rw [hburst] at hsome
        cases hsome
    | some burst =>
      obtain ⟨⟨before, during, after, _, burstInterval, h⟩, horder⟩ := plan_of_valid hvalid hburst
      obtain rfl := Option.some.inj (hbase.symm.trans h.base)
      refine ⟨fun s t hst ht => h.monotone_of_fits hfits horder hst ht,
        fun b d a hcounts => ?_, fun interval hinterval s _ hs => ?_,
        fun burst' interval hburst' hinterval s hs phase hphase => ?_⟩
      · have hsame := h.counts.symm.trans hcounts
        simp only [Option.some.injEq, Prod.mk.injEq] at hsame
        obtain ⟨rfl, rfl, rfl⟩ := hsame
        have htotal := counts_total h.counts
        have hexact : satAdd before during = before + during :=
          min_eq_left (hfits _ _ _ _ _ _ h).1
        omega
      · obtain rfl := Option.some.inj (hbase.symm.trans hinterval)
        rw [h.offset_eq, measurementStartNs]
        refine (min_le_left _ _).trans_lt ?_
        simp only [dueNs, if_pos hs]
        exact Nat.mul_lt_mul_of_pos_right hs hpos
      · obtain rfl := Option.some.inj (hburst.symm.trans hburst')
        obtain rfl := Option.some.inj (hbase.symm.trans hinterval)
        exact h.phases_of_fits hfits hs hphase

/-! ## The rounding of counts and intervals -/

/-- A positive number is rounded up by one part in `2 ^ 52` at most. -/
theorem toDouble_le {q : ℚ} (hq : 0 < q) : toDouble q ≤ q * (1 + 1 / 2 ^ 52) := by
  have h := (abs_le.mp (abs_toDouble_sub_le hq.ne')).2
  rw [abs_of_pos hq] at h
  linarith

theorem toDouble_pos {q : ℚ} (hq : 0 < q) : 0 < toDouble q := by
  have h := (abs_le.mp (abs_toDouble_sub_le hq.ne')).1
  rw [abs_of_pos hq] at h
  have hsmall : q / 2 ^ 52 < q := div_lt_self hq (by norm_num)
  linarith

/-- Three roundings do not make up for one of at most `2 ^ 50` intervals. -/
theorem lt_of_rounded {m x k : ℚ} (hk : 0 < k) (hx : 0 < x) (hm : m ≤ 2 ^ 50)
    (hround : m * x ≤ k * (1 + 1 / 2 ^ 52) ^ 3) : (m - 1) * x < k := by
  by_contra hge
  have hstep : x ≤ k * ((1 + 1 / 2 ^ 52) ^ 3 - 1) := by linarith
  have hmx : m * x ≤ 2 ^ 50 * (k * ((1 + 1 / 2 ^ 52) ^ 3 - 1)) :=
    mul_le_mul hm hstep hx.le (by norm_num)
  have hnumbers : (2 : ℚ) ^ 50 * ((1 + 1 / 2 ^ 52) ^ 3 - 1) < 1 := by norm_num
  have hsmall : 2 ^ 50 * (k * ((1 + 1 / 2 ^ 52) ^ 3 - 1)) < k := by
    calc 2 ^ 50 * (k * ((1 + 1 / 2 ^ 52) ^ 3 - 1))
        = 2 ^ 50 * ((1 + 1 / 2 ^ 52) ^ 3 - 1) * k := by ring
      _ < 1 * k := mul_lt_mul_of_pos_right hnumbers hk
      _ = k := one_mul k
  linarith

/-- A count below saturation is the product it is cast from. -/
theorem messagesFor_eq {rate : Option ℚ} {seconds count : ℕ}
    (h : messagesFor rate seconds = some count) (hlt : count < u64Max) :
    ∃ r, rate = some r ∧ toDouble (r * toDouble seconds) = count := by
  cases rate with
  | none => cases h
  | some r =>
    simp only [messagesFor] at h
    split at h
    · cases h
    · next hok =>
      simp only [not_or, not_lt, not_not] at hok
      obtain ⟨-, hnonneg, hwhole⟩ := hok
      have hcast := Option.some.inj h
      simp only [castU64] at hcast
      have hfloor : ⌊toDouble (r * toDouble seconds)⌋.toNat = count := by omega
      have hfloorNonneg : 0 ≤ ⌊toDouble (r * toDouble seconds)⌋ := Int.floor_nonneg.mpr hnonneg
      refine ⟨r, rfl, ?_⟩
      rw [hwhole, ← hfloor]
      exact_mod_cast (Int.toNat_of_nonneg hfloorNonneg).symm

theorem intervalNs_le {r : ℚ} {interval : ℕ} (h : intervalNs (some r) = some interval) :
    0 < r ∧ (interval : ℚ) ≤ toDouble (1000000000 / r) := by
  have hpos := intervalNs_pos h
  simp only [intervalNs] at h
  split at h
  · cases h
  · next hrate =>
    rw [not_le] at hrate
    split at h
    · have hinterval := Option.some.inj h
      refine ⟨hrate, ?_⟩
      have hle : interval ≤ ⌊toDouble (1000000000 / r)⌋.toNat := by
        rw [← hinterval]
        exact min_le_left _ _
      have hint : (interval : ℤ) ≤ ⌊toDouble (1000000000 / r)⌋ := by omega
      exact_mod_cast Int.le_floor.mp hint
    · cases h

/-- The last of at most `2 ^ 50` messages is due before the seconds are over. -/
theorem last_due {rate : Option ℚ} {seconds count interval : ℕ}
    (hcount : messagesFor rate seconds = some count) (hinterval : intervalNs rate = some interval)
    (hpos : 0 < count) (hle : count ≤ 2 ^ 50) :
    (count - 1) * interval < seconds * 1000000000 := by
  obtain ⟨r, rfl, hmessages⟩ := messagesFor_eq hcount (by simp only [u64Max]; omega)
  obtain ⟨hr, hx⟩ := intervalNs_le hinterval
  have hseconds : 0 < (seconds : ℚ) := by
    rw [Nat.cast_pos]
    by_contra hzero
    have hzero' : toDouble 0 = 0 := by exact_mod_cast @toDouble_intCast 0 (by norm_num)
    obtain rfl : seconds = 0 := by omega
    rw [Nat.cast_zero, hzero', mul_zero, hzero'] at hmessages
    have : count = 0 := by exact_mod_cast hmessages.symm
    omega
  have hsecondsRound := toDouble_le hseconds
  have htpos := toDouble_pos hseconds
  have hcountRound := toDouble_le (mul_pos hr htpos)
  have hquotient : 0 < 1000000000 / r := div_pos (by norm_num) hr
  have hintervalRound := toDouble_le hquotient
  have hxpos := toDouble_pos hquotient
  have hcancel : r * (1000000000 / r) = 1000000000 := mul_div_cancel₀ _ hr.ne'
  rw [hmessages] at hcountRound
  generalize toDouble (1000000000 / r) = x at *
  generalize 1000000000 / r = q at *
  generalize toDouble (seconds : ℚ) = t at *
  have hk : 0 < (seconds : ℚ) * 1000000000 := by positivity
  have hround : count * x ≤ (seconds : ℚ) * 1000000000 * (1 + 1 / 2 ^ 52) ^ 3 := by
    calc count * x
        ≤ (r * t * (1 + 1 / 2 ^ 52)) * (q * (1 + 1 / 2 ^ 52)) := by gcongr
      _ ≤ (r * (seconds * (1 + 1 / 2 ^ 52)) * (1 + 1 / 2 ^ 52)) * (q * (1 + 1 / 2 ^ 52)) := by
          gcongr
      _ = seconds * (r * q) * (1 + 1 / 2 ^ 52) ^ 3 := by ring
      _ = (seconds : ℚ) * 1000000000 * (1 + 1 / 2 ^ 52) ^ 3 := by rw [hcancel]
  have hlast := lt_of_rounded hk hxpos (by exact_mod_cast hle) hround
  have hcast : (((count - 1) * interval : ℕ) : ℚ) < ((seconds * 1000000000 : ℕ) : ℚ) := by
    push_cast [Nat.one_le_iff_ne_zero.mpr hpos.ne', Nat.cast_sub]
    refine lt_of_le_of_lt ?_ hlast
    have hone : (1 : ℚ) ≤ count := by exact_mod_cast hpos
    exact mul_le_mul_of_nonneg_left hx (by linarith)
  exact_mod_cast hcast

/-- Phases of at most `2 ^ 50` messages fit if the last one begins within 64 bits. -/
theorem fits_of_le (hvalid : config.validate = .ok ())
    (hsmall : ∀ burst before during after baseInterval burstInterval,
      config.Plan burst before during after baseInterval burstInterval →
      before ≤ 2 ^ 50 ∧ during ≤ 2 ^ 50 ∧
        config.measurementStartNs baseInterval + burst.endSecs * 1000000000 ≤ u64Max) :
    config.Fits := by
  intro burst before during after baseInterval burstInterval h
  obtain ⟨hbefore, hduring, hend⟩ := hsmall _ _ _ _ _ _ h
  obtain ⟨-, horder⟩ := plan_of_valid hvalid h.burst_eq
  have hsecs : burst.startSecs * 1000000000 ≤ burst.endSecs * 1000000000 :=
    Nat.mul_le_mul_right _ horder.le
  obtain ⟨hbeforeCount, hduringCount⟩ := h.messages
  have hburst : config.measurementStartNs baseInterval + burst.startSecs * 1000000000 ≤ u64Max :=
    (Nat.add_le_add_left hsecs _).trans hend
  refine ⟨by simp only [u64Max]; omega, fun hpos => ⟨(Nat.le_add_right _ _).trans hburst, ?_⟩,
    fun hpos => ⟨hburst, ?_⟩, fun _ => hend⟩
  · have hlast := last_due hbeforeCount h.base hpos hbefore
    refine (min_le_left _ _).trans_lt ?_
    omega
  · have hlast := last_due hduringCount h.fast hpos hduring
    have hspan : (burst.endSecs - burst.startSecs) * 1000000000 =
        burst.endSecs * 1000000000 - burst.startSecs * 1000000000 := by omega
    refine (min_le_left _ _).trans_lt ?_
    omega

/-! ## Two configurations -/

theorem castU64_natCast {n : ℕ} (h : n ≤ u64Max) : castU64 n = n := by
  simp only [castU64, Int.floor_natCast, Int.toNat_natCast]
  exact min_eq_left h

theorem toDouble_natCast {n : ℕ} (h : n < 2 ^ 53) : toDouble n = n := by
  have hcast : |(n : ℤ)| < 2 ^ 53 := by
    rw [abs_of_nonneg (Int.natCast_nonneg n)]
    exact_mod_cast h
  exact_mod_cast toDouble_intCast hcast

/-- An interval that is a whole number of nanoseconds. -/
theorem intervalNs_eq {r : ℚ} {n : ℕ} (hr : 0 < r) (hn : 1000000000 / r = n) (hpos : 0 < n)
    (hlt : n < 2 ^ 53) : intervalNs (some r) = some n := by
  have hcast : castU64 (toDouble (1000000000 / r)) = n := by
    rw [hn, toDouble_natCast hlt]
    exact castU64_natCast (by simp only [u64Max]; omega)
  simp only [intervalNs, if_neg (not_le.mpr hr), hcast, if_pos hpos]

/-- A product that is rounded to a whole number. -/
theorem messagesFor_of_toDouble {r : ℚ} {seconds n : ℕ} (hseconds : seconds < 2 ^ 53)
    (hn : toDouble (r * seconds) = n) (hle : n ≤ u64Max) :
    messagesFor (some r) seconds = some n := by
  have hfinite : ¬(2 : ℚ) ^ 1024 ≤ |(n : ℚ)| := by
    rw [not_le, Nat.abs_cast]
    have hlt : n < 2 ^ 64 := by
      simp only [u64Max] at hle
      omega
    calc (n : ℚ) < 2 ^ 64 := by exact_mod_cast hlt
      _ ≤ 2 ^ 1024 := pow_le_pow_right₀ (by norm_num) (by norm_num)
  simp only [messagesFor, toDouble_natCast hseconds, hn, castU64_natCast hle, hfinite, false_or,
    Int.floor_natCast, Int.cast_natCast, ne_eq, not_true_eq_false, or_false]
  exact if_neg (not_lt.mpr (Nat.cast_nonneg n))

/-- 100 messages of warm-up, 1000 a second, and 2000 in the second after the first. -/
def steadyConfig : BenchSourceConfig where
  ratePerSec := some 1000
  totalMessages := 3600
  warmupMessages := 100
  burst := some ⟨some 2000, 1, 2⟩

/-- A billion messages a second for 146 years, and for one second more as the burst. -/
def longConfig : BenchSourceConfig where
  ratePerSec := some 1000000000
  totalMessages := 4611686020000000512
  burst := some ⟨some 1000000000, 4611686019, 4611686020⟩

theorem counts_eq (hburst : config.burst = some burst)
    (hbefore : messagesFor config.ratePerSec burst.startSecs = some before)
    (hduring : messagesFor burst.ratePerSec (burst.endSecs - burst.startSecs) = some during)
    (htotal : config.totalMessages = config.warmupMessages + satAdd before during + after) :
    config.burstPhaseCounts = some (before, during, after) := by
  have hmeasured : checkedSub config.totalMessages config.warmupMessages =
      some (satAdd before during + after) := by
    rw [checkedSub, if_pos (by omega), htotal]
    congr 1
    omega
  have hafter : checkedSub (satAdd before during + after) (satAdd before during) = some after := by
    rw [checkedSub, if_pos (by omega), Nat.add_sub_cancel_left]
  simp only [burstPhaseCounts, hburst, hbefore, hduring, hmeasured, hafter, bind, pure,
    Option.bind_some]

theorem Plan.valid (h : config.Plan burst before during after baseInterval burstInterval)
    (horder : burst.startSecs < burst.endSecs) : config.validate = .ok () := by
  have hinvalid : ¬∃ burst ∈ config.burst, intervalNs burst.ratePerSec = none ∨
      burst.endSecs ≤ burst.startSecs ∨ config.burstPhaseCounts = none := by
    rintro ⟨b, hb, hbad⟩
    rw [h.burst_eq] at hb
    obtain rfl := Option.some.inj hb
    rw [h.fast, h.counts] at hbad
    simp only [reduceCtorEq, or_false, false_or] at hbad
    omega
  rw [validate, if_neg (by rw [h.base]; exact Option.some_ne_none _), if_neg hinvalid]

theorem steadyConfig_plan :
    steadyConfig.Plan ⟨some 2000, 1, 2⟩ 1000 2000 500 1000000 500000 := by
  have hbase : intervalNs (some 1000) = some 1000000 :=
    intervalNs_eq (by norm_num) (by norm_num) (by norm_num) (by norm_num)
  have hfast : intervalNs (some 2000) = some 500000 :=
    intervalNs_eq (by norm_num) (by norm_num) (by norm_num) (by norm_num)
  have hbefore : messagesFor (some 1000) 1 = some 1000 := by
    refine messagesFor_of_toDouble (by norm_num) ?_ (by decide)
    have h := @toDouble_natCast 1000 (by norm_num)
    simpa using h
  have hduring : messagesFor (some 2000) 1 = some 2000 := by
    refine messagesFor_of_toDouble (by norm_num) ?_ (by decide)
    have h := @toDouble_natCast 2000 (by norm_num)
    simpa using h
  exact ⟨rfl, counts_eq rfl hbefore hduring (by decide), hbase, hfast⟩

theorem scheduled_iff_steady : steadyConfig.Scheduled ↔ steadyConfig.Fits :=
  scheduled_iff (steadyConfig_plan.valid (by decide))

/-- The count is rounded up by half of its last bit. -/
theorem toDouble_count :
    toDouble (1000000000 * (4611686019 : ℕ)) = (4611686019000000512 : ℕ) := by
  have hlog : Int.log 2 |(1000000000 * (4611686019 : ℕ) : ℚ)| = 62 := by
    rw [abs_of_pos (by norm_num)]
    apply le_antisymm
    · rw [← Int.lt_add_one_iff, ← Int.lt_zpow_iff_log_lt (by norm_num) (by norm_num)]
      norm_num
    · rw [← Int.zpow_le_iff_le_log (by norm_num) (by norm_num)]
      norm_num
  have hbit : lastBit (1000000000 * (4611686019 : ℕ)) = 10 := by
    rw [lastBit, hlog]
    norm_num
  have hfloor : ⌊(1000000000 * (4611686019 : ℕ) : ℚ) / 2 ^ (10 : ℤ)⌋ = 4503599627929687 := by
    rw [Int.floor_eq_iff]
    norm_num
  rw [toDouble, hbit, roundHalfEven, hfloor]
  norm_num

theorem longConfig_plan :
    longConfig.Plan ⟨some 1000000000, 4611686019, 4611686020⟩ 4611686019000000512 1000000000 0 1
      1 := by
  have hbase : intervalNs (some 1000000000) = some 1 :=
    intervalNs_eq (by norm_num) (by norm_num) (by norm_num) (by norm_num)
  have hbefore : messagesFor (some 1000000000) 4611686019 = some 4611686019000000512 :=
    messagesFor_of_toDouble (by norm_num) toDouble_count (by decide)
  have hduring : messagesFor (some 1000000000) 1 = some 1000000000 := by
    refine messagesFor_of_toDouble (by norm_num) ?_ (by decide)
    have h := @toDouble_natCast 1000000000 (by norm_num)
    simpa using h
  exact ⟨rfl, counts_eq rfl hbefore hduring (by decide), hbase, hbase⟩

/-- The last 512 messages before the burst are due in the burst, and the burst begins behind
them. -/
theorem longConfig_not_scheduled :
    longConfig.validate = .ok () ∧
      longConfig.burstPhase 4611686019000000511 = some .before ∧
      longConfig.scheduleOffsetNs 4611686019000000511 = 4611686019 * 1000000000 + 511 ∧
      longConfig.scheduleOffsetNs 4611686019000000512 = 4611686019 * 1000000000 ∧
      ¬longConfig.Scheduled := by
  have hlast : longConfig.scheduleOffsetNs 4611686019000000511 =
      4611686019 * 1000000000 + 511 := by
    rw [longConfig_plan.offset_eq]
    decide
  have hnext : longConfig.scheduleOffsetNs 4611686019000000512 = 4611686019 * 1000000000 := by
    rw [longConfig_plan.offset_eq]
    decide
  have hphase : longConfig.burstPhase 4611686019000000511 = some .before := by
    rw [longConfig_plan.phase_eq]
    decide
  refine ⟨longConfig_plan.valid (by decide), hphase, hlast, hnext, fun h => ?_⟩
  have hmonotone := h.monotone 4611686019000000511 4611686019000000512 (by decide) (by decide)
  rw [hlast, hnext] at hmonotone
  exact absurd hmonotone (by decide)

end BenchSourceConfig

end Wafer
