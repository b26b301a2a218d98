import Wafer.Node.BenchSink

/-!
# Per-second evidence of the bench sink

The recorder closes every second before the one it is in, so a message of an
earlier second has no row left. Below the declared duration the rows count every
sample, and the artifact is written, exactly if the messages come in the order of
their seconds and the close in time.

## Main results

- `BenchSink.IntervalRecorder.Tallied.record`, `Tallied.finalize` — what the rows keep
- `BenchRun.evidence_iff` — when the rows of a run have every sample
-/

namespace Wafer

open Lib

/-- The samples come in the order of their seconds. -/
def InOrder (samples : List IntervalSample) : Prop := samples.Pairwise (·.second ≤ ·.second)

namespace BenchSink.IntervalRecorder

variable {quantile : List Latency → ℚ → ℕ} {r : IntervalRecorder} {samples : List IntervalSample}
  {population elapsedNs : ℕ}

/-- The rows and the open second have every sample, and a latency for each of the population. -/
structure Kept (samples : List IntervalSample) (population : ℕ) (r : IntervalRecorder) : Prop where
  bySecond : BySecond samples r.currentBucket r.rows (r.events, r.unique, r.duplicates)
  latencies : r.intervalCount + r.histogram.length = population

/-- The same, and the open second is that of the last sample. -/
structure Tallied (samples : List IntervalSample) (population : ℕ) (r : IntervalRecorder) : Prop
    extends Kept samples population r where
  top : (samples = [] ∧ r.currentBucket = 0) ∨ ∃ s ∈ samples, s.second = r.currentBucket

/-- Nothing but the seconds changes. -/
structure SameLimits (r r' : IntervalRecorder) : Prop where
  maximumRows : r'.maximumRows = r.maximumRows
  overflowed : r'.overflowed = r.overflowed
  finalized : r'.finalized = r.finalized
  declared : r'.declaredMeasurementDurationNs = r.declaredMeasurementDurationNs

theorem SameLimits.trans {r' r'' : IntervalRecorder} (h : SameLimits r r')
    (h' : SameLimits r' r'') : SameLimits r r'' :=
  ⟨h'.maximumRows.trans h.maximumRows, h'.overflowed.trans h.overflowed,
    h'.finalized.trans h.finalized, h'.declared.trans h.declared⟩

theorem finishCurrent_limits (r : IntervalRecorder) (widthNs : ℕ) :
    SameLimits r (r.finishCurrent quantile widthNs) := ⟨rfl, rfl, rfl, rfl⟩

theorem finishSeconds_limits (count : ℕ) (r : IntervalRecorder) :
    SameLimits r (finishSeconds quantile count r) := by
  induction count generalizing r with
  | zero => exact ⟨rfl, rfl, rfl, rfl⟩
  | succ count ih =>
    simp only [finishSeconds]
    split
    · exact (r.finishCurrent_limits intervalWidthNs).trans (ih _)
    · exact ⟨rfl, rfl, rfl, rfl⟩

theorem finishCurrent_count (r : IntervalRecorder) (widthNs : ℕ) :
    (r.finishCurrent quantile widthNs).intervalCount = r.intervalCount + r.histogram.length := by
  simp [intervalCount, finishCurrent, secondRow]

/-- The loop over full seconds reaches the second as long as there are rows for them. -/
theorem Kept.finishSeconds {count : ℕ} (h : r.Kept samples population)
    (hroom : r.currentBucket + count ≤ r.maximumRows)
    (hfit : (r.currentBucket + count) * intervalWidthNs ≤ u64Max) :
    (finishSeconds quantile count r).Kept samples population ∧
      (IntervalRecorder.finishSeconds quantile count r).currentBucket =
        r.currentBucket + count := by
  induction count generalizing r with
  | zero => exact ⟨h, rfl⟩
  | succ count ih =>
    have hmul : (r.currentBucket + 1) * intervalWidthNs ≤
        (r.currentBucket + (count + 1)) * intervalWidthNs := Nat.mul_le_mul_right _ (by omega)
    have hlength : r.rows.length < r.maximumRows := by
      rw [h.bySecond.length]
      omega
    have hkept : (r.finishCurrent quantile intervalWidthNs).Kept samples population := by
      constructor
      · refine h.bySecond.close rfl (secondRow_start ?_) (secondRow_end (hmul.trans hfit))
        rw [Nat.add_mul, Nat.one_mul] at hmul
        omega
      · rw [finishCurrent_count]
        exact h.latencies
    have hcount : r.currentBucket + 1 + count = r.currentBucket + (count + 1) := by omega
    obtain ⟨hkept', hbucket⟩ := ih hkept (by rw [← hcount] at hroom; exact hroom)
      (by rw [← hcount] at hfit; exact hfit)
    simp only [IntervalRecorder.finishSeconds, if_pos hlength]
    exact ⟨hkept', hbucket.trans hcount⟩

/-- No sample lies behind the open second, and the last one lies in it. -/
theorem Tallied.inOrder_snoc (h : r.Tallied samples population) (horder : InOrder samples)
    (s : IntervalSample) : InOrder (samples ++ [s]) ↔ r.currentBucket ≤ s.second := by
  simp only [InOrder, List.pairwise_append, List.mem_singleton, forall_eq]
  constructor
  · rintro ⟨-, -, hle⟩
    obtain ⟨-, hzero⟩ | ⟨last, hlast, hsecond⟩ := h.top
    · omega
    · rw [← hsecond]
      exact hle last hlast
  · intro hle
    exact ⟨horder, List.pairwise_singleton ..,
      fun t ht => (h.bySecond.bucketed.below t ht).trans hle⟩

/-- A sample of the open second or a later one is counted, if there is a row for it. -/
theorem Tallied.record (h : r.Tallied samples population) {latency : Option Latency}
    {duplicate : Bool} (hreached : r.currentBucket ≤ elapsedNs / intervalWidthNs)
    (hroom : elapsedNs / intervalWidthNs < r.maximumRows) (hfit : elapsedNs ≤ u64Max) :
    (r.record quantile elapsedNs latency duplicate).Tallied
        (samples ++ [⟨elapsedNs, duplicate⟩]) (population + latency.toList.length) ∧
      SameLimits r (r.record quantile elapsedNs latency duplicate) := by
  have hto : r.currentBucket + (elapsedNs / intervalWidthNs - r.currentBucket) =
      elapsedNs / intervalWidthNs := by omega
  have hstart : elapsedNs / intervalWidthNs * intervalWidthNs ≤ elapsedNs := Nat.div_mul_le_self ..
  have hlimits := @finishSeconds_limits quantile (elapsedNs / intervalWidthNs - r.currentBucket) r
  obtain ⟨hkept, hbucket⟩ := @Kept.finishSeconds quantile r _ _
    (elapsedNs / intervalWidthNs - r.currentBucket) h.toKept (by omega) (by rw [hto]; omega)
  rw [hto] at hbucket
  have hlength := hkept.bySecond.length
  -- the loop stops at the sample's second, where there is a row left
  have hcounted : r.record quantile elapsedNs latency duplicate =
      (r.advanceTo quantile (elapsedNs / intervalWidthNs)).count latency duplicate := by
    refine if_neg (not_or.mpr ⟨not_not.mpr hbucket.symm, ?_⟩)
    simp only [advanceTo]
    rw [hlength, hlimits.maximumRows]
    omega
  rw [hcounted]
  refine ⟨⟨⟨?_, ?_⟩, .inr ⟨⟨elapsedNs, duplicate⟩, by simp, hbucket.symm⟩⟩,
    hlimits.maximumRows, hlimits.overflowed, hlimits.finalized, hlimits.declared⟩
  · have hadd := hkept.bySecond.add (s := ⟨elapsedNs, duplicate⟩) hbucket.symm
    cases duplicate with
    | true => exact hadd
    | false => exact hadd
  · have hcount := hkept.latencies
    simp only [intervalCount, count, advanceTo, List.length_append] at hcount ⊢
    omega

/-- A sample behind the open second marks the recorder. -/
theorem record_behind (latency : Option Latency) (duplicate : Bool)
    (hbehind : elapsedNs / intervalWidthNs < r.currentBucket) :
    (r.record quantile elapsedNs latency duplicate).overflowed = true := by
  have hstay : r.advanceTo quantile (elapsedNs / intervalWidthNs) = r := by
    rw [advanceTo, Nat.sub_eq_zero_of_le hbehind.le]
    rfl
  simp only [IntervalRecorder.record, hstay]
  rw [if_pos (.inl (by omega))]

theorem record_maximumRows (latency : Option Latency) (duplicate : Bool) :
    (r.record quantile elapsedNs latency duplicate).maximumRows = r.maximumRows := by
  have hlimits := @finishSeconds_limits quantile (elapsedNs / intervalWidthNs - r.currentBucket) r
  simp only [IntervalRecorder.record]
  split
  · exact hlimits.maximumRows
  · exact hlimits.maximumRows

/-- The mark stays. -/
theorem record_overflowed (latency : Option Latency) (duplicate : Bool)
    (h : r.overflowed = true) :
    (r.record quantile elapsedNs latency duplicate).overflowed = true := by
  simp only [IntervalRecorder.record]
  split
  · rfl
  · exact (finishSeconds_limits _ r).overflowed.trans h

theorem finalize_overflowed (h : r.overflowed = true) (elapsedNs : ℕ) :
    (r.finalize quantile elapsedNs).overflowed = true := by
  have hlast : ∀ (mid : IntervalRecorder) (widthNs : ℕ), mid.overflowed = true →
      (if mid.rows.length < mid.maximumRows then mid.finishCurrent quantile widthNs
        else mid).overflowed = true := by
    intro mid widthNs hmid
    split
    · exact hmid
    · exact hmid
  simp only [IntervalRecorder.finalize]
  split
  · exact h
  · split
    · exact h
    · split
      · rfl
      · exact hlast _ _ ((finishSeconds_limits _ _).overflowed.trans h)

/-- The close within the rows keeps every sample and leaves no latency out. -/
theorem Tallied.finalize (h : r.Tallied samples population) (hfresh : r.finalized = false)
    (hopen : r.currentBucket < r.maximumRows) (hbegun : r.currentBucket * intervalWidthNs ≤ u64Max)
    (hpos : 0 < elapsedNs) (hroom : elapsedNs ≤ r.maximumRows * intervalWidthNs)
    (hfit : elapsedNs ≤ u64Max) :
    CountsBySecond samples (r.finalize quantile elapsedNs).rows ∧
      (r.finalize quantile elapsedNs).intervalCount = population ∧
      (r.finalize quantile elapsedNs).overflowed = r.overflowed ∧
      (r.finalize quantile elapsedNs).finalized = true := by
  have hclosing : Kept samples population { r with finalized := true } := ⟨h.bySecond, h.latencies⟩
  have hfinal : (elapsedNs - 1) / intervalWidthNs < r.maximumRows := by
    rw [Nat.div_lt_iff_lt_mul (by decide)]
    omega
  -- the open second may already lie behind the one the close is in
  obtain ⟨hto, hmax⟩ := closing_second hbegun hfit
  obtain ⟨hkept, hbucket⟩ := @Kept.finishSeconds quantile _ _ _
    ((elapsedNs - 1) / intervalWidthNs - r.currentBucket) hclosing
    (by simp only [hto]; omega) (by simp only [hto]; exact hmax)
  have hlimits := @finishSeconds_limits quantile
    ((elapsedNs - 1) / intervalWidthNs - r.currentBucket) { r with finalized := true }
  simp only [hto] at hbucket
  have hlength := hkept.bySecond.length
  have hfinished : r.finalize quantile elapsedNs =
      (IntervalRecorder.finishSeconds quantile
        ((elapsedNs - 1) / intervalWidthNs - r.currentBucket)
        { r with finalized := true }).finishCurrent quantile
        (if elapsedNs % intervalWidthNs = 0 then intervalWidthNs
          else elapsedNs % intervalWidthNs) := by
    simp only [IntervalRecorder.finalize, hfresh, Bool.false_eq_true, if_false, advanceTo]
    rw [if_neg (by omega), if_neg (by omega)]
    refine if_pos ?_
    rw [hlength, hlimits.maximumRows, hbucket]
    exact max_lt hopen hfinal
  rw [hfinished]
  refine ⟨?_, ?_, hlimits.overflowed, hlimits.finalized⟩
  · exact hkept.bySecond.finish rfl (secondRow_start (by rw [hbucket]; exact hmax))
  · rw [finishCurrent_count]
    exact hkept.latencies

/-- A close at the instant the measurement began leaves the open second without a row. -/
theorem Tallied.not_closed (h : r.Tallied samples population) (hfresh : r.finalized = false)
    (hsome : samples ≠ []) : ¬ CountsBySecond samples (r.finalize quantile 0).rows := by
  intro hcounts
  obtain ⟨hnil, -⟩ | ⟨last, hlast, hsecond⟩ := h.top
  · exact hsome hnil
  · have hlt := hcounts.covered last hlast
    have hrows : (r.finalize quantile 0).rows = r.rows := by
      simp [IntervalRecorder.finalize, hfresh]
    rw [hrows, h.bySecond.length] at hlt
    omega

/-- Behind the last row the close marks the recorder. -/
theorem finalize_beyond (hfresh : r.finalized = false)
    (hbeyond : r.maximumRows * intervalWidthNs < elapsedNs) :
    (r.finalize quantile elapsedNs).overflowed = true := by
  have hfinal : r.maximumRows ≤ (elapsedNs - 1) / intervalWidthNs := by
    rw [Nat.le_div_iff_mul_le (by decide)]
    omega
  simp only [IntervalRecorder.finalize, hfresh, Bool.false_eq_true, if_false]
  rw [if_neg (by omega), if_pos hfinal]

theorem new_tallied (startNs secs : ℕ) : (new startNs secs).Tallied [] 0 :=
  ⟨⟨.start, rfl⟩, .inl ⟨rfl, rfl⟩⟩

/-- The open second is that of a sample or the first. -/
theorem Tallied.currentBucket_lt {limit : ℕ} (h : r.Tallied samples population) (hpos : 0 < limit)
    (hsamples : ∀ s ∈ samples, s.second < limit ∧ s.elapsedNs ≤ u64Max) :
    r.currentBucket < limit ∧ r.currentBucket * intervalWidthNs ≤ u64Max := by
  obtain ⟨-, hzero⟩ | ⟨s, hs, hsecond⟩ := h.top
  · rw [hzero]
    exact ⟨hpos, by simp [u64Max]⟩
  · rw [← hsecond]
    exact ⟨(hsamples s hs).1, (Nat.div_mul_le_self ..).trans (hsamples s hs).2⟩

/-- The declared duration is not empty, and there are rows for all of it. -/
theorem declared_fits {secs : ℕ} (hpos : 0 < secs) :
    0 < satMul secs intervalWidthNs ∧
      satMul secs intervalWidthNs ≤ satAdd secs 2 * intervalWidthNs ∧
      satMul secs intervalWidthNs ≤ u64Max := by
  simp only [satMul, satAdd, intervalWidthNs, u64Max]
  omega

/-- Below the declared duration there is a row for every second. -/
theorem second_lt_maximumRows {secs e : ℕ} (h : e < satMul secs intervalWidthNs) :
    e / intervalWidthNs < satAdd secs 2 ∧ e ≤ u64Max := by
  simp only [satMul, lt_inf_iff] at h
  have hsecs : e / intervalWidthNs < secs := by
    rw [Nat.div_lt_iff_lt_mul (by decide)]
    exact h.1
  have hle := Nat.div_le_self e intervalWidthNs
  simp only [satAdd, u64Max]
  omega

end BenchSink.IntervalRecorder

/-! ## What a message changes -/

/-- The measured messages as samples of the time since `start`, duplicates by the tracker. -/
def measuredSamples (start : ℕ) :
    Option SequenceTracker → Bool → List Delivery → List IntervalSample
  | _, _, [] => []
  | tracker, populationRead, d :: rest =>
    let (duplicate, tracker, populationRead) :=
      BenchSink.countSequence tracker populationRead d.stamps
    ⟨d.elapsedNs start, duplicate⟩ :: measuredSamples start tracker populationRead rest

theorem measuredSamples_elapsed (start : ℕ) (tracker : Option SequenceTracker)
    (populationRead : Bool) (ds : List Delivery) :
    (measuredSamples start tracker populationRead ds).map (·.elapsedNs) =
      ds.map (·.elapsedNs start) := by
  induction ds generalizing tracker populationRead with
  | nil => rfl
  | cons d rest ih =>
    rw [measuredSamples, List.map_cons, List.map_cons, ih]

namespace BenchSink

variable {quantile : List Latency → ℚ → ℕ} {sink : BenchSink} {d : Delivery} {secs start : ℕ}
  {r : IntervalRecorder} {samples : List IntervalSample}

/-- What the measurement of a message leaves alone. -/
structure SameRun (sink next : BenchSink) : Prop where
  config : next.config = sink.config
  started : next.started = sink.started
  warmupUntil : next.warmupUntil = sink.warmupUntil
  measurementStart : next.measurementStart = sink.measurementStart
  usesSourceOrigin : next.intervalUsesSourceOrigin = sink.intervalUsesSourceOrigin

/-- What the records beside the intervals leave alone. -/
structure SameEvidence (sink next : BenchSink) : Prop extends SameRun sink next where
  tracker : next.sequenceTracker = sink.sequenceTracker
  populationRead : next.sequencePopulationRead = sink.sequencePopulationRead
  histogram : next.histogram = sink.histogram
  intervalRecorder : next.intervalRecorder = sink.intervalRecorder

theorem countMessage_same (sink : BenchSink) : SameEvidence sink sink.countMessage :=
  ⟨⟨rfl, rfl, rfl, rfl, rfl⟩, rfl, rfl, rfl, rfl⟩

theorem SameRun.trans {mid next : BenchSink} (h : SameRun sink mid) (h' : SameRun mid next) :
    SameRun sink next :=
  ⟨h'.config.trans h.config, h'.started.trans h.started, h'.warmupUntil.trans h.warmupUntil,
    h'.measurementStart.trans h.measurementStart, h'.usesSourceOrigin.trans h.usesSourceOrigin⟩

theorem SameEvidence.trans {mid next : BenchSink} (h : SameEvidence sink mid)
    (h' : SameEvidence mid next) : SameEvidence sink next :=
  ⟨h.toSameRun.trans h'.toSameRun, h'.tracker.trans h.tracker,
    h'.populationRead.trans h.populationRead, h'.histogram.trans h.histogram,
    h'.intervalRecorder.trans h.intervalRecorder⟩

theorem recordBurstBucket_same (sink : BenchSink) (stamps : Option BenchStamps) (arrivalUnixNs : ℕ)
    (duplicate : Bool) :
    SameEvidence sink (sink.recordBurstBucket stamps arrivalUnixNs duplicate) := by
  simp only [recordBurstBucket]
  cases stamps.bind (·.burst) with
  | none => exact ⟨⟨rfl, rfl, rfl, rfl, rfl⟩, rfl, rfl, rfl, rfl⟩
  | some burst =>
    obtain ⟨phase, origin⟩ := burst
    cases origin with
    | none => exact ⟨⟨rfl, rfl, rfl, rfl, rfl⟩, rfl, rfl, rfl, rfl⟩
    | some origin => exact ⟨⟨rfl, rfl, rfl, rfl, rfl⟩, rfl, rfl, rfl, rfl⟩

theorem recordThroughput_same (sink : BenchSink) (d : Delivery) :
    SameEvidence sink (sink.recordThroughput d) :=
  ⟨⟨rfl, rfl, rfl, rfl, rfl⟩, rfl, rfl, rfl, rfl⟩

theorem recordVersion_same (sink : BenchSink) (d : Delivery) :
    SameEvidence sink (sink.recordVersion d) := by
  simp only [recordVersion]
  split
  · exact ⟨⟨rfl, rfl, rfl, rfl, rfl⟩, rfl, rfl, rfl, rfl⟩
  · exact ⟨⟨rfl, rfl, rfl, rfl, rfl⟩, rfl, rfl, rfl, rfl⟩

/-- The latency of a message goes to the histogram. -/
theorem recordLatencies_histogram (sink : BenchSink) (d : Delivery) :
    (sink.recordLatencies d).2.histogram =
      sink.histogram ++ (sink.recordLatencies d).1.toList := by
  simp only [recordLatencies]
  cases d.stamps with
  | none => exact (List.append_nil _).symm
  | some stamps => rfl

theorem recordLatencies_same (sink : BenchSink) (d : Delivery) :
    SameEvidence { sink with histogram := (sink.recordLatencies d).2.histogram }
      (sink.recordLatencies d).2 := by
  simp only [recordLatencies]
  cases d.stamps with
  | none => exact ⟨⟨rfl, rfl, rfl, rfl, rfl⟩, rfl, rfl, rfl, rfl⟩
  | some stamps => exact ⟨⟨rfl, rfl, rfl, rfl, rfl⟩, rfl, rfl, rfl, rfl⟩

theorem recordInterval_same (sink : BenchSink) (d : Delivery) (latency : Option Latency)
    (duplicate : Bool) :
    SameEvidence
      { sink with
        intervalRecorder := (sink.recordInterval quantile d latency duplicate).intervalRecorder }
      (sink.recordInterval quantile d latency duplicate) := by
  simp only [recordInterval]
  split
  · exact ⟨⟨rfl, rfl, rfl, rfl, rfl⟩, rfl, rfl, rfl, rfl⟩
  · exact ⟨⟨rfl, rfl, rfl, rfl, rfl⟩, rfl, rfl, rfl, rfl⟩

theorem recordInterval_recorder (hstart : sink.measurementStart = some start)
    (hr : sink.intervalRecorder = some r) (latency : Option Latency) (duplicate : Bool) :
    (sink.recordInterval quantile d latency duplicate).intervalRecorder =
      some (r.record quantile (d.elapsedNs start) latency duplicate) := by
  simp only [recordInterval, hstart, hr]

/-- A message after the warm-up goes to the tracker, to the histogram if it has stamps, and to the
intervals. -/
theorem measure_spec (hstart : sink.measurementStart = some start)
    (hr : sink.intervalRecorder = some r) {duplicate : Bool} {tracker : Option SequenceTracker}
    {populationRead : Bool} (hcount : countSequence sink.sequenceTracker sink.sequencePopulationRead
      d.stamps = (duplicate, tracker, populationRead)) :
    SameRun sink (sink.measure quantile d) ∧ (sink.measure quantile d).sequenceTracker = tracker ∧
      (sink.measure quantile d).sequencePopulationRead = populationRead ∧
      ∃ latency : Option Latency,
        (sink.measure quantile d).histogram = sink.histogram ++ latency.toList ∧
        (sink.measure quantile d).intervalRecorder =
          some (r.record quantile (d.elapsedNs start) latency duplicate) := by
  simp only [measure, recordSequence, hcount]
  -- everything up to the latencies, with the tracker ahead
  have hbefore := (recordBurstBucket_same { sink with
    sequenceTracker := tracker, sequencePopulationRead := populationRead } d.stamps d.arrivalUnixNs
    duplicate).trans (recordThroughput_same _ d)
  generalize recordThroughput _ d = before at hbefore ⊢
  have hlatency := recordLatencies_histogram before d
  have hlatencies := recordLatencies_same before d
  generalize before.recordLatencies d = recorded at hlatency hlatencies ⊢
  obtain ⟨latency, after⟩ := recorded
  have hrecorder := @recordInterval_recorder quantile after d start r
    (hlatencies.measurementStart.trans (hbefore.measurementStart.trans hstart))
    (hlatencies.intervalRecorder.trans (hbefore.intervalRecorder.trans hr)) latency duplicate
  have hinterval := @recordInterval_same quantile after d latency duplicate
  have hversion := recordVersion_same (after.recordInterval quantile d latency duplicate) d
  have hrun := hinterval.toSameRun.trans hversion.toSameRun
  refine ⟨⟨?_, ?_, ?_, ?_, ?_⟩, ?_, ?_, latency, ?_, hversion.intervalRecorder.trans hrecorder⟩
  · exact hrun.config.trans (hlatencies.config.trans hbefore.config)
  · exact hrun.started.trans (hlatencies.started.trans hbefore.started)
  · exact hrun.warmupUntil.trans (hlatencies.warmupUntil.trans hbefore.warmupUntil)
  · exact hrun.measurementStart.trans (hlatencies.measurementStart.trans hbefore.measurementStart)
  · exact hrun.usesSourceOrigin.trans (hlatencies.usesSourceOrigin.trans hbefore.usesSourceOrigin)
  · exact hversion.tracker.trans
      (hinterval.tracker.trans (hlatencies.tracker.trans hbefore.tracker))
  · exact hversion.populationRead.trans
      (hinterval.populationRead.trans (hlatencies.populationRead.trans hbefore.populationRead))
  · rw [hversion.histogram, hinterval.histogram]
    exact hlatency.trans (congrArg (· ++ latency.toList) hbefore.histogram)

theorem collect_warmup (hstarted : sink.started = true)
    (hwarm : d.inWarmup sink.warmupUntil = true) :
    sink.collect quantile secs d = sink.countMessage := by
  simp only [collect, startWarmup, if_pos hstarted]
  exact if_pos hwarm

theorem collect_measured (hstarted : sink.started = true)
    (hwarm : d.inWarmup sink.warmupUntil = false) :
    sink.collect quantile secs d =
      (sink.countMessage.startMeasurement secs d).measure quantile d := by
  simp only [collect, startWarmup, if_pos hstarted]
  exact if_neg (Bool.eq_false_iff.mp hwarm)

theorem startMeasurement_of_started (hstart : sink.measurementStart = some start) :
    sink.startMeasurement secs d = sink := by
  simp [startMeasurement, hstart]

end BenchSink

/-! ## Whole runs -/

namespace BenchRun

open BenchSink

/-- The first message starts the warm-up timer, if there is one. -/
def warmupUntil (run : BenchRun) : Option ℕ :=
  run.deliveries.head?.bind fun first =>
    if 0 < run.config.warmupSecs then some (first.now + run.config.warmupSecs * 1000000000)
    else none

/-- The messages after the warm-up. -/
def measured (run : BenchRun) : List Delivery :=
  run.deliveries.filter (!·.inWarmup run.warmupUntil)

/-- When the first of them came. -/
def start (run : BenchRun) : ℕ := (run.measured.head?.map (·.now)).getD 0

/-- The measured messages as samples. -/
def samples (run : BenchRun) : List IntervalSample :=
  measuredSamples run.start (BenchSink.new run.config).sequenceTracker false run.measured

def declaredNs (run : BenchRun) : ℕ := satMul run.secs intervalWidthNs

/-- Every measured message lies below the declared duration. -/
def BelowDeclared (run : BenchRun) : Prop :=
  ∀ d ∈ run.measured, d.elapsedNs run.start < run.declaredNs

instance (run : BenchRun) : Decidable run.BelowDeclared :=
  inferInstanceAs (Decidable (∀ d ∈ run.measured, d.elapsedNs run.start < run.declaredNs))

/-- The time from the first measured message to the close, by the clock of the sink. -/
def closeElapsedNs (run : BenchRun) : ℕ := min (run.closeNow - run.start) u64Max

/-- The rows count every sample in its second, and their artifact is written if there is a directory
for it. -/
structure Evidence (quantile : List Latency → ℚ → ℕ) (run : BenchRun) : Prop where
  counted : run.measured ≠ [] ∨ run.config.outputDir.isSome → ∃ r,
    (run.finished quantile).intervalRecorder = some r ∧ CountsBySecond run.samples r.rows ∧
      r.overflowed = false
  written : run.config.outputDir.isSome → ∃ artifact,
    (run.finished quantile).exportIntervals = .ok (some artifact)

/-- Where the source does not keep the time, the close comes after the first measured message and
before the rows run out. -/
def ClosesInTime (run : BenchRun) : Prop :=
  ∀ first ∈ run.measured.head?, first.sourceOriginNs = none →
    0 < run.closeElapsedNs ∧ run.closeElapsedNs ≤ satAdd run.secs 2 * intervalWidthNs

variable {quantile : List Latency → ℚ → ℕ} {sink : BenchSink} {ds : List Delivery} {secs start : ℕ}
  {r : BenchSink.IntervalRecorder} {samples more : List IntervalSample} {run : BenchRun}
  {first : Delivery}

/-- The messages of a measurement under way: the rows keep every sample of them if they come in the
order of their seconds, and otherwise the recorder is marked. -/
theorem collectAll_measuring (hstarted : sink.started = true)
    (hstart : sink.measurementStart = some start) (hr : sink.intervalRecorder = some r)
    (hwithin : ∀ d ∈ ds.filter (!·.inWarmup sink.warmupUntil),
      d.elapsedNs start / intervalWidthNs < r.maximumRows ∧ d.elapsedNs start ≤ u64Max)
    (hmore : measuredSamples start sink.sequenceTracker sink.sequencePopulationRead
      (ds.filter (!·.inWarmup sink.warmupUntil)) = more) :
    ∃ r', (collectAll quantile secs sink ds).intervalRecorder = some r' ∧
      SameRun sink (collectAll quantile secs sink ds) ∧
      (r.overflowed = true → r'.overflowed = true) ∧
      (r.Tallied samples sink.histogram.length → InOrder samples →
        (InOrder (samples ++ more) → r.SameLimits r' ∧
          r'.Tallied (samples ++ more) (collectAll quantile secs sink ds).histogram.length) ∧
        (¬ InOrder (samples ++ more) → r'.overflowed = true)) := by
  induction ds generalizing sink r samples more with
  | nil =>
    subst hmore
    refine ⟨r, hr, ⟨rfl, rfl, rfl, rfl, rfl⟩, id, fun htally horder => ?_⟩
    simp only [List.filter_nil, measuredSamples, List.append_nil]
    exact ⟨fun _ => ⟨⟨rfl, rfl, rfl, rfl⟩, htally⟩, fun hnot => absurd horder hnot⟩
  | cons d rest ih =>
    simp only [collectAll]
    cases hwarm : d.inWarmup sink.warmupUntil with
    | true =>
      rw [List.filter_cons_of_neg (by simp [hwarm])] at hwithin hmore
      rw [collect_warmup hstarted hwarm]
      obtain ⟨final, hfinal, hrun, hmark, hrest⟩ :=
        @ih sink.countMessage r samples more hstarted hstart hr hwithin hmore
      exact ⟨final, hfinal, ⟨hrun.config, hrun.started, hrun.warmupUntil, hrun.measurementStart,
        hrun.usesSourceOrigin⟩, hmark, hrest⟩
    | false =>
      rw [List.filter_cons_of_pos (by simp [hwarm])] at hwithin hmore
      obtain ⟨⟨hroom, hfit⟩, hwithin⟩ := List.forall_mem_cons.mp hwithin
      rw [collect_measured hstarted hwarm,
        @startMeasurement_of_started sink.countMessage d secs start hstart]
      obtain ⟨duplicate, tracker, populationRead, hcount⟩ : ∃ duplicate tracker populationRead,
          countSequence sink.sequenceTracker sink.sequencePopulationRead d.stamps =
            (duplicate, tracker, populationRead) := ⟨_, _, _, rfl⟩
      simp only [measuredSamples, hcount] at hmore
      subst hmore
      obtain ⟨hsame, htracker, hread, latency, hhist, hr'⟩ := @measure_spec quantile
        sink.countMessage d start r hstart hr duplicate tracker populationRead hcount
      generalize sink.countMessage.measure quantile d = next at hsame htracker hread hhist hr' ⊢
      obtain ⟨final, hfinal, hrun, hmark, hrest⟩ := @ih next
        (r.record quantile (d.elapsedNs start) latency duplicate)
        (samples ++ [⟨d.elapsedNs start, duplicate⟩]) _ (hsame.started.trans hstarted)
        (hsame.measurementStart.trans hstart) hr'
        (by
          rw [hsame.warmupUntil, BenchSink.IntervalRecorder.record_maximumRows]
          exact hwithin) rfl
      rw [htracker, hread, hsame.warmupUntil] at hrest
      refine ⟨final, hfinal, SameRun.trans ⟨hsame.config, hsame.started, hsame.warmupUntil,
        hsame.measurementStart, hsame.usesSourceOrigin⟩ hrun, ?_, ?_⟩
      · intro hover
        exact hmark (BenchSink.IntervalRecorder.record_overflowed latency duplicate hover)
      · intro htally horder
        have hsnoc := htally.inOrder_snoc horder ⟨d.elapsedNs start, duplicate⟩
        rw [List.append_assoc, List.singleton_append] at hrest
        by_cases hreached : r.currentBucket ≤ d.elapsedNs start / intervalWidthNs
        · obtain ⟨htally', hlimits⟩ := @BenchSink.IntervalRecorder.Tallied.record quantile r samples
            _ _ htally latency duplicate hreached hroom hfit
          have hpopulation : sink.histogram.length + latency.toList.length =
              next.histogram.length := by
            rw [hhist, List.length_append]
            rfl
          rw [hpopulation] at htally'
          obtain ⟨hkept, hmarked⟩ := hrest htally' (hsnoc.mpr hreached)
          exact ⟨fun hall => ⟨hlimits.trans (hkept hall).1, (hkept hall).2⟩, hmarked⟩
        · -- an earlier second is closed: the recorder is marked from here on
          refine ⟨fun hall => absurd (hsnoc.mp ?_) hreached, fun _ => hmark ?_⟩
          · rw [← List.singleton_append, ← List.append_assoc] at hall
            exact (List.pairwise_append.mp hall).1
          · exact BenchSink.IntervalRecorder.record_behind latency duplicate
              (Nat.not_le.mp hreached)

/-- The first measured message starts a measurement of its own. -/
theorem collect_startMeasurement {d : Delivery} (hstarted : sink.started = true)
    (hwarm : d.inWarmup sink.warmupUntil = false) (hwaiting : sink.measurementStart = none) :
    sink.collect quantile secs d =
      (sink.startMeasurement secs d).collect quantile secs d := by
  have hstart : (sink.startMeasurement secs d).measurementStart = some d.now := by
    simp [startMeasurement, hwaiting]
  have hsame : (sink.startMeasurement secs d).started = sink.started ∧
      (sink.startMeasurement secs d).warmupUntil = sink.warmupUntil := by
    simp [startMeasurement, hwaiting]
  rw [collect_measured hstarted hwarm, collect_measured (hsame.1.trans hstarted)
    (by rw [hsame.2]; exact hwarm),
    @startMeasurement_of_started (sink.startMeasurement secs d).countMessage d secs _ hstart]
  congr 1
  simp [startMeasurement, countMessage, hwaiting]

/-- Before the first measured message only the messages are counted. -/
theorem collectAll_waiting (hstarted : sink.started = true)
    (hwaiting : sink.measurementStart = none) (secs : ℕ) (ds : List Delivery) :
    ∃ waited : BenchSink, SameEvidence sink waited ∧
      match ds.filter (!·.inWarmup sink.warmupUntil) with
      | [] => collectAll quantile secs sink ds = waited
      | first :: rest => ∃ ds', ds'.filter (!·.inWarmup sink.warmupUntil) = first :: rest ∧
          collectAll quantile secs sink ds =
            collectAll quantile secs (waited.startMeasurement secs first) ds' := by
  induction ds generalizing sink with
  | nil => exact ⟨sink, ⟨⟨rfl, rfl, rfl, rfl, rfl⟩, rfl, rfl, rfl, rfl⟩, rfl⟩
  | cons d rest ih =>
    cases hwarm : d.inWarmup sink.warmupUntil with
    | true =>
      obtain ⟨waited, hsame, hrest⟩ := @ih sink.countMessage hstarted hwaiting
      refine ⟨waited, sink.countMessage_same.trans hsame, ?_⟩
      rw [List.filter_cons_of_neg (by simp [hwarm])]
      simp only [collectAll, collect_warmup hstarted hwarm]
      exact hrest
    | false =>
      refine ⟨sink, ⟨⟨rfl, rfl, rfl, rfl, rfl⟩, rfl, rfl, rfl, rfl⟩, ?_⟩
      rw [List.filter_cons_of_pos (by simp [hwarm])]
      refine ⟨d :: rest, List.filter_cons_of_pos (by simp [hwarm]), ?_⟩
      simp only [collectAll]
      rw [collect_startMeasurement hstarted hwarm hwaiting]

/-- The sink at the first message, with the warm-up timer running. -/
theorem collected_begun (run : BenchRun) :
    ∃ begun : BenchSink,
      run.collected quantile = collectAll quantile run.secs begun run.deliveries ∧
      (run.deliveries ≠ [] → begun.started = true ∧ begun.warmupUntil = run.warmupUntil) ∧
      begun.config = run.config ∧ begun.measurementStart = none ∧ begun.histogram = [] ∧
      begun.sequenceTracker = (BenchSink.new run.config).sequenceTracker ∧
      begun.sequencePopulationRead = false ∧
      begun.intervalRecorder =
        if run.config.outputDir.isSome then some (.new run.initWallNs run.secs) else none := by
  have hinit : ∀ sink : BenchSink, sink = (BenchSink.new run.config).init run.initWallNs run.secs →
      sink.started = false ∧ sink.warmupUntil = none ∧ sink.config = run.config ∧
      sink.measurementStart = none ∧ sink.histogram = [] ∧
      sink.sequenceTracker = (BenchSink.new run.config).sequenceTracker ∧
      sink.sequencePopulationRead = false ∧ sink.intervalRecorder =
        if run.config.outputDir.isSome then some (.new run.initWallNs run.secs) else none := by
    rintro sink rfl
    simp only [init]
    by_cases hdir : run.config.outputDir.isSome = true
    · rw [if_pos (show (BenchSink.new run.config).config.outputDir.isSome = true from hdir),
        if_pos hdir]
      exact ⟨rfl, rfl, rfl, rfl, rfl, rfl, rfl, rfl⟩
    · rw [if_neg (show ¬ (BenchSink.new run.config).config.outputDir.isSome = true from hdir),
        if_neg hdir]
      exact ⟨rfl, rfl, rfl, rfl, rfl, rfl, rfl, rfl⟩
  simp only [collected]
  generalize (BenchSink.new run.config).init run.initWallNs run.secs = sink at hinit
  obtain ⟨hstarted, hwarm, hconfig, hrest⟩ := hinit sink rfl
  cases hds : run.deliveries with
  | nil => exact ⟨sink, rfl, fun h => absurd rfl h, hconfig, hrest⟩
  | cons d rest =>
    have hbegun : sink.startWarmup d.now =
        { sink with started := true, warmupUntil := run.warmupUntil } := by
      simp [startWarmup, hstarted, hwarm, hconfig, warmupUntil, hds]
    refine ⟨sink.startWarmup d.now, ?_, fun _ => ?_, ?_⟩
    · -- a second start of the timer does nothing
      have hagain : (sink.startWarmup d.now).startWarmup d.now = sink.startWarmup d.now := by
        rw [hbegun]
        rfl
      simp only [collectAll, collect, hagain]
    · rw [hbegun]
      exact ⟨rfl, rfl⟩
    · rw [hbegun]
      exact ⟨hconfig, hrest⟩

/-- Without a measured message the intervals stay as they were at the `init`. -/
theorem collected_nothing (hnone : run.measured = []) :
    (run.collected quantile).config = run.config ∧
      (run.collected quantile).measurementStart = none ∧
      (run.collected quantile).histogram = [] ∧
      (run.collected quantile).intervalRecorder =
        if run.config.outputDir.isSome then some (.new run.initWallNs run.secs) else none := by
  obtain ⟨begun, hrun, hwarm, hconfig, hwaiting, hhist, -, -, hrecorder⟩ :=
    @collected_begun quantile run
  rw [hrun]
  by_cases hds : run.deliveries = []
  · rw [hds]
    exact ⟨hconfig, hwaiting, hhist, hrecorder⟩
  · obtain ⟨hstarted, huntil⟩ := hwarm hds
    obtain ⟨waited, hsame, hall⟩ := @collectAll_waiting quantile begun hstarted hwaiting run.secs
      run.deliveries
    rw [huntil, show run.deliveries.filter _ = [] from hnone] at hall
    simp only at hall
    rw [hall]
    exact ⟨hsame.config.trans hconfig, hsame.measurementStart.trans hwaiting,
      hsame.histogram.trans hhist, hsame.intervalRecorder.trans hrecorder⟩

/-- The sink when its last message has been collected, if one was measured. -/
theorem collected_measured (hfirst : run.measured.head? = some first)
    (hwithin : run.BelowDeclared) :
    ∃ r, (run.collected quantile).intervalRecorder = some r ∧
      (run.collected quantile).config = run.config ∧
      (run.collected quantile).measurementStart = some run.start ∧
      (run.collected quantile).intervalUsesSourceOrigin = first.sourceOriginNs.isSome ∧
      (InOrder run.samples →
        (BenchSink.IntervalRecorder.new (first.sourceOriginNs.getD first.wallNs)
          run.secs).SameLimits r ∧
        r.Tallied run.samples (run.collected quantile).histogram.length) ∧
      (¬ InOrder run.samples → r.overflowed = true) := by
  obtain ⟨begun, hrun, hwarm, hconfig, hwaiting, hhist, htracker, hread, -⟩ :=
    @collected_begun quantile run
  obtain ⟨rest, hmeasured⟩ : ∃ rest, run.measured = first :: rest := by
    obtain ⟨rest, hrest⟩ := List.head?_eq_some_iff.mp hfirst
    exact ⟨rest, hrest⟩
  have hds : run.deliveries ≠ [] := by
    intro hnil
    simp [measured, hnil] at hmeasured
  obtain ⟨hstarted, huntil⟩ := hwarm hds
  obtain ⟨waited, hsame, hall⟩ := @collectAll_waiting quantile begun hstarted hwaiting run.secs
    run.deliveries
  rw [huntil, show run.deliveries.filter _ = first :: rest from hmeasured] at hall
  obtain ⟨ds, hds, hcollected⟩ := hall
  rw [← hmeasured] at hds
  have hstart : run.start = first.now := by
    rw [start, hfirst]
    rfl
  -- the first measured message replaces the recorder of the `init`
  have hbegan : waited.startMeasurement run.secs first =
      { waited with
        measurementStart := some run.start
        startWallTime := some first.wallNs
        intervalUsesSourceOrigin := first.sourceOriginNs.isSome
        intervalRecorder := some (.new (first.sourceOriginNs.getD first.wallNs) run.secs) } := by
    have hnone : waited.measurementStart = none := hsame.measurementStart.trans hwaiting
    simp [startMeasurement, hnone, hstart]
  rw [hrun, hcollected, hbegan]
  have huntil' : waited.warmupUntil = run.warmupUntil := hsame.warmupUntil.trans huntil
  obtain ⟨r, hr, hsameRun, -, hkept⟩ := @collectAll_measuring quantile
    { waited with
      measurementStart := some run.start
      startWallTime := some first.wallNs
      intervalUsesSourceOrigin := first.sourceOriginNs.isSome
      intervalRecorder := some (.new (first.sourceOriginNs.getD first.wallNs) run.secs) }
    ds run.secs run.start (.new (first.sourceOriginNs.getD first.wallNs) run.secs) []
    run.samples (hsame.started.trans hstarted) rfl rfl
    (by
      simp only [huntil', hds]
      exact fun d hd => BenchSink.IntervalRecorder.second_lt_maximumRows (hwithin d hd))
    (by simp only [huntil', hds, hsame.tracker, htracker, hsame.populationRead, hread]; rfl)
  have hfresh : waited.histogram.length = 0 := by
    rw [hsame.histogram, hhist]
    rfl
  obtain ⟨hin, hout⟩ := hkept
    (by simp only [hfresh]; exact BenchSink.IntervalRecorder.new_tallied _ _) List.Pairwise.nil
  exact ⟨r, hr, hsameRun.config.trans (hsame.config.trans hconfig), hsameRun.measurementStart,
    hsameRun.usesSourceOrigin, hin, hout⟩

/-- Every sample is a measured message. -/
theorem measured_of_sample (run : BenchRun) {s : IntervalSample} (hs : s ∈ run.samples) :
    ∃ d ∈ run.measured, d.elapsedNs run.start = s.elapsedNs := by
  have hmem := List.mem_map_of_mem (f := (·.elapsedNs)) hs
  rw [samples, measuredSamples_elapsed] at hmem
  exact List.mem_map.mp hmem

theorem samples_ne_nil (run : BenchRun) (hne : run.measured ≠ []) : run.samples ≠ [] := by
  intro hnil
  have hmap := measuredSamples_elapsed run.start (BenchSink.new run.config).sequenceTracker false
    run.measured
  rw [show measuredSamples _ _ _ _ = [] from hnil] at hmap
  exact hne (List.map_eq_nil_iff.mp hmap.symm)

theorem secs_pos (run : BenchRun) : 0 < run.secs := by
  simp only [secs, configuredMeasurementSecs]
  cases hv : run.measurementSecs.filter (0 < ·) with
  | none => decide
  | some secs => simpa using (Option.filter_eq_some_iff.mp hv).2

theorem finished_recorder (hr : (run.collected quantile).intervalRecorder = some r) :
    (run.finished quantile).intervalRecorder =
        some (r.finalize quantile ((run.collected quantile).closeElapsedNs r run.closeNow)) ∧
      (run.finished quantile).histogram = (run.collected quantile).histogram := by
  simp only [finished, close, hr]
  exact ⟨rfl, trivial⟩

/-- A close that keeps every sample and latency leaves the evidence. -/
theorem evidence_of_closed {closed : BenchSink.IntervalRecorder}
    (hr : (run.finished quantile).intervalRecorder = some closed)
    (hclosed : CountsBySecond run.samples closed.rows ∧
      closed.intervalCount = (run.finished quantile).histogram.length ∧ closed.overflowed = false ∧
      closed.finalized = true) : run.Evidence quantile := by
  obtain ⟨hcounts, hcount, hover, hfinal⟩ := hclosed
  refine ⟨fun _ => ⟨closed, hr, hcounts, hover⟩, fun _ => ?_⟩
  have hkept : (run.finished quantile).intervalRecorder.filter (·.finalized) = some closed := by
    rw [hr, Option.filter_some, if_pos hfinal]
  have hwrite : closed.write (run.finished quantile).histogram.length =
      .ok (closed.artifact (run.finished quantile).histogram.length) := by
    simp [BenchSink.IntervalRecorder.write, hover, hcount]
  refine ⟨closed.artifact (run.finished quantile).histogram.length, ?_⟩
  simp only [exportIntervals, hkept, hwrite]
  rfl

/-- A marked recorder is no evidence of a measured message, nor is one without rows. -/
theorem not_evidence {closed : BenchSink.IntervalRecorder} (hne : run.measured ≠ [])
    (hclosed : (run.finished quantile).intervalRecorder = some closed)
    (hlost : closed.overflowed = true ∨ closed.rows = []) : ¬ run.Evidence quantile := by
  intro hevidence
  obtain ⟨r, hr, hcounts, hover⟩ := hevidence.counted (.inl hne)
  obtain rfl := Option.some.inj (hclosed.symm.trans hr)
  obtain hmarked | hrows := hlost
  · rw [hmarked] at hover
    cases hover
  · obtain ⟨s, hs⟩ := List.exists_mem_of_ne_nil _ (run.samples_ne_nil hne)
    have hlt := hcounts.covered s hs
    rw [hrows] at hlt
    exact Nat.not_lt_zero _ hlt

/-- Where nothing was measured the declared seconds are written without a sample. -/
theorem evidence_of_nothing (hnone : run.measured = []) : run.Evidence quantile := by
  obtain ⟨hconfig, hwaiting, hhist, hrecorder⟩ := @collected_nothing quantile run hnone
  have hsamples : run.samples = [] := by
    rw [samples, hnone]
    rfl
  by_cases hdir : run.config.outputDir.isSome = true
  · rw [if_pos hdir] at hrecorder
    obtain ⟨hr, hsame⟩ := finished_recorder hrecorder
    -- no measurement has begun, so the declared window is closed
    have helapsed : (run.collected quantile).closeElapsedNs (.new run.initWallNs run.secs)
        run.closeNow = satMul run.secs intervalWidthNs := by
      refine if_pos ?_
      rw [hwaiting]
      exact Bool.or_true _
    rw [helapsed] at hr
    obtain ⟨hpos, hroom, hfit⟩ := BenchSink.IntervalRecorder.declared_fits run.secs_pos
    obtain ⟨hcounts, hcount, hover, hfinal⟩ :=
      @BenchSink.IntervalRecorder.Tallied.finalize quantile _ [] 0 _
        (BenchSink.IntervalRecorder.new_tallied run.initWallNs run.secs) rfl
        (by simp [BenchSink.IntervalRecorder.new, satAdd])
        (by simp [BenchSink.IntervalRecorder.new]) hpos hroom hfit
    refine evidence_of_closed hr ⟨hsamples ▸ hcounts, ?_, hover, hfinal⟩
    rw [hcount, hsame, hhist]
    rfl
  · constructor
    · rintro (hsome | hdir')
      · exact absurd hnone hsome
      · exact absurd hdir' hdir
    · exact fun hdir' => absurd hdir' hdir

/-- In every run whose messages lie below the declared duration, the rows count every sample and
their artifact is written exactly if the messages come in the order of their seconds and the close
in time. -/
theorem evidence_iff (hwithin : run.BelowDeclared) :
    run.Evidence quantile ↔ InOrder run.samples ∧ run.ClosesInTime := by
  cases hfirst : run.measured.head? with
  | none =>
    have hnone := List.head?_eq_none_iff.mp hfirst
    have hsamples : run.samples = [] := by
      rw [samples, hnone]
      rfl
    refine iff_of_true (evidence_of_nothing hnone) ⟨?_, ?_⟩
    · rw [hsamples]
      exact List.Pairwise.nil
    · simp [ClosesInTime, hfirst]
  | some first =>
    obtain ⟨r, hr, hconfig, hstarted, horigin, hin, hout⟩ :=
      @collected_measured quantile run first hfirst hwithin
    obtain ⟨hclosed, hhist⟩ := finished_recorder hr
    have hne : run.measured ≠ [] := by
      intro hnil
      rw [hnil] at hfirst
      cases hfirst
    have hclose : run.ClosesInTime ↔ (first.sourceOriginNs = none →
        0 < run.closeElapsedNs ∧ run.closeElapsedNs ≤ satAdd run.secs 2 * intervalWidthNs) := by
      simp [ClosesInTime, hfirst]
    rw [hclose]
    by_cases horder : InOrder run.samples
    · obtain ⟨hlimits, htally⟩ := hin horder
      have hrows : r.maximumRows = satAdd run.secs 2 := hlimits.maximumRows
      have hfresh : r.finalized = false := hlimits.finalized
      have hsamples : ∀ s ∈ run.samples, s.second < satAdd run.secs 2 ∧ s.elapsedNs ≤ u64Max := by
        intro s hs
        obtain ⟨d, hd, hds⟩ := run.measured_of_sample hs
        rw [IntervalSample.second, ← hds]
        exact BenchSink.IntervalRecorder.second_lt_maximumRows (hwithin d hd)
      obtain ⟨hopen, hbegun⟩ := htally.currentBucket_lt (by simp [satAdd]) hsamples
      rw [← hrows] at hopen
      have hkeeps : ∀ e, (run.collected quantile).closeElapsedNs r run.closeNow = e → 0 < e →
          e ≤ satAdd run.secs 2 * intervalWidthNs → e ≤ u64Max → run.Evidence quantile := by
        rintro e rfl hpos hroom hfit
        obtain ⟨hcounts, hcount, hover, hfinal⟩ :=
          @BenchSink.IntervalRecorder.Tallied.finalize quantile r _ _ _ htally hfresh hopen hbegun
            hpos (by rw [hrows]; exact hroom) hfit
        exact evidence_of_closed hclosed
          ⟨hcounts, hcount.trans (congrArg _ hhist.symm), hover.trans hlimits.overflowed, hfinal⟩
      cases hsource : first.sourceOriginNs with
      | some origin =>
        -- the source keeps the time: the close ends the declared window
        have helapsed : (run.collected quantile).closeElapsedNs r run.closeNow =
            satMul run.secs intervalWidthNs := by
          refine (if_pos ?_).trans hlimits.declared
          rw [horigin, hsource]
          rfl
        obtain ⟨hpos, hroom, hfit⟩ := BenchSink.IntervalRecorder.declared_fits run.secs_pos
        exact iff_of_true (hkeeps _ helapsed hpos hroom hfit) ⟨horder, by rintro ⟨⟩⟩
      | none =>
        have helapsed : (run.collected quantile).closeElapsedNs r run.closeNow =
            run.closeElapsedNs := by
          refine (if_neg ?_).trans ?_
          · rw [horigin, hsource, hstarted]
            rintro ⟨⟩
          · rw [hstarted]
            rfl
        refine ⟨fun hevidence => ⟨horder, fun _ => ?_⟩, ?_⟩
        · obtain ⟨closed, hcl, hcounts, hover⟩ := hevidence.counted (.inl hne)
          obtain rfl := Option.some.inj (hclosed.symm.trans hcl)
          rw [helapsed] at hcounts hover
          constructor
          -- at once: the open second never gets its row
          · by_contra hzero
            rw [Nat.eq_zero_of_not_pos hzero] at hcounts
            exact htally.not_closed hfresh (run.samples_ne_nil hne) hcounts
          -- too late: the rows have run out
          · by_contra hbeyond
            rw [BenchSink.IntervalRecorder.finalize_beyond hfresh (by rw [hrows]; omega)] at hover
            cases hover
        · rintro ⟨-, hintime⟩
          obtain ⟨hpos, hroom⟩ := hintime rfl
          exact hkeeps _ helapsed hpos hroom (Nat.min_le_right _ _)
    · refine iff_of_false (not_evidence hne hclosed (.inl ?_)) fun h => horder h.1
      exact BenchSink.IntervalRecorder.finalize_overflowed (hout horder) _

/-- A message of a burst run that began at second one, due `ns` later. -/
def sourced (sequence ns : ℕ) : Delivery where
  envelope :=
    { RuntimeEnvelope.new "m" 0 "source" [] with
      header :=
        { (RuntimeEnvelope.new "m" 0 "source" []).header with
          bench := some
            { sequence
              intendedNs := 1000000000 + ns
              emitNs := 1000000000 + ns
              warmup := false
              measurementStartSeq := 0
              sequenceEnd := none
              burst := some ⟨.before, some 1000000000⟩ } } }
  arrivalUnixNs := 1000010000 + ns
  now := 10000 + ns
  wallNs := 1000010000 + ns

/-- A message without stamps. -/
def unstamped : Delivery := ⟨.new "m" 0 "source" [], 1000000000, 0, 1000000000⟩

/-- A measurement of two seconds. -/
def twoSeconds (deliveries : List Delivery) (closeNow : ℕ) : BenchRun where
  config := { warmupSecs := 0, outputDir := some "out" }
  measurementSecs := some 2
  initWallNs := 1000000000
  deliveries
  closeNow

theorem evidence_iff_two_seconds :
    (twoSeconds [sourced 0 400000000, sourced 2 1300000000, sourced 1 1200000000]
      2000000000).Evidence (fun _ _ => 10239) := by
  refine (evidence_iff (by decide +kernel)).mpr ⟨?_, ?_⟩
  · unfold InOrder
    decide +kernel
  · rintro first hfirst hnone
    obtain rfl : sourced 0 400000000 = first := Option.some.inj hfirst
    cases hnone

/-- Two messages of a burst run, the one of the later second first. -/
def reordered : BenchRun := twoSeconds [sourced 1 1500000000, sourced 0 500000000] 2000000000

/-- One message without stamps, and the close more than four seconds later. -/
def closedLate : BenchRun := twoSeconds [unstamped] 4000000001

/-- One message without stamps, and the close at the same instant. -/
def closedAtOnce : BenchRun := twoSeconds [unstamped] 0

theorem evidence_missing :
    (reordered.BelowDeclared ∧ ¬ reordered.Evidence (fun _ _ => 10239)) ∧
      (closedLate.BelowDeclared ∧ ¬ closedLate.Evidence (fun _ _ => 10239)) ∧
      closedAtOnce.BelowDeclared ∧ ¬ closedAtOnce.Evidence (fun _ _ => 10239) := by
  refine ⟨⟨by decide +kernel, ?_⟩, ⟨by decide +kernel, ?_⟩, by decide +kernel, ?_⟩
  · exact not_evidence (by decide +kernel) rfl (.inl rfl)
  · exact not_evidence (by decide +kernel) rfl (.inl rfl)
  · exact not_evidence (by decide +kernel) rfl (.inr rfl)

end BenchRun

end Wafer
