import Wafer.Types.Intervals

/-!
# The subscriber's recorder

Latency histogram, sequence accounting and one-second interval rows of
`wafer-loadgen subscribe`. A histogram is the list of the latencies it holds;
`quantile` is its `value_at_quantile` and `fromSlice` the JSON decoder of a
message. An interval that fails its checks is dropped and leaves a reason.

## Main definitions

- `IntervalRecorder.record`, `finalize`, `artifact`
- `LatencyRecorder.recordJsonAt`, `finalizeIntervals`, `writeMeasurements`
- `SubscriberRun.finished` — the recorder after a run of messages and the finalisation
-/

namespace Wafer

open Lib

structure IntervalRecorder where
  measurementStartUnixEpochNs : ℕ
  declaredMeasurementDurationNs : ℕ
  publisherDrainNs : ℕ
  drainGraceNs : ℕ
  maximumRows : ℕ
  currentBucket : ℕ := 0
  currentHistogram : List Latency := []
  currentEvents : ℕ := 0
  currentUnique : ℕ := 0
  currentDuplicates : ℕ := 0
  rows : List IntervalLatencyRow := []
  lateArrivals : ℕ := 0
  finalized : Bool := false
  deriving DecidableEq, Repr

namespace IntervalRecorder

/-- The recorder, unless the measurement is empty or the row bound overflows. -/
def new (measurementStartUnixEpochNs measurementSecs publisherDrainSecs drainGraceSecs : ℕ) :
    Except String IntervalRecorder :=
  if measurementSecs = 0 then .error "interval measurement duration must be positive"
  else if 2 ^ 64 ≤ measurementSecs + publisherDrainSecs + drainGraceSecs + 2 then
    .error "interval maximum row count overflow"
  else
    .ok
      { measurementStartUnixEpochNs
        declaredMeasurementDurationNs := satMul measurementSecs intervalWidthNs
        publisherDrainNs := satMul publisherDrainSecs intervalWidthNs
        drainGraceNs := satMul drainGraceSecs intervalWidthNs
        maximumRows := measurementSecs + publisherDrainSecs + drainGraceSecs + 2 }

def limitExceeded (r : IntervalRecorder) : String :=
  "interval row limit exceeded (" ++ toString r.maximumRows ++ ")"

variable (quantile : List Latency → ℚ → ℕ)

/-- The row of the current bucket, `widthNs` wide. -/
def currentRow (r : IntervalRecorder) (widthNs : ℕ) : IntervalLatencyRow :=
  secondRow quantile r.measurementStartUnixEpochNs r.currentBucket widthNs r.currentHistogram
    r.currentEvents r.currentUnique r.currentDuplicates

def finishCurrent (r : IntervalRecorder) (widthNs : ℕ) : Except String IntervalRecorder :=
  if r.rows.length = r.maximumRows then .error r.limitExceeded
  else
    .ok
      { r with
        rows := r.rows ++ [r.currentRow quantile widthNs]
        currentHistogram := []
        currentEvents := 0
        currentUnique := 0
        currentDuplicates := 0
        currentBucket := r.currentBucket + 1 }

/-- `count` turns of the loop that finishes one full second each. -/
def finishSeconds : ℕ → IntervalRecorder → Except String IntervalRecorder
  | 0, r => .ok r
  | count + 1, r =>
    match r.finishCurrent quantile intervalWidthNs with
    | .ok r' => finishSeconds count r'
    | .error e => .error e

/-- The loop `while current_bucket < bucket`. -/
def advanceTo (r : IntervalRecorder) (bucket : ℕ) : Except String IntervalRecorder :=
  finishSeconds quantile (bucket - r.currentBucket) r

/-- Count one sample in the current bucket. -/
def count (r : IntervalRecorder) (latency : Latency) (duplicate : Bool) : IntervalRecorder :=
  { r with
    currentHistogram := r.currentHistogram ++ [latency]
    currentEvents := r.currentEvents + 1
    currentUnique := if duplicate then r.currentUnique else r.currentUnique + 1
    currentDuplicates := if duplicate then r.currentDuplicates + 1 else r.currentDuplicates }

def record (r : IntervalRecorder) (elapsedNs : ℕ) (latency : Latency) (duplicate : Bool) :
    Except String IntervalRecorder :=
  let bucket := elapsedNs / intervalWidthNs
  if bucket < r.currentBucket then .ok { r with lateArrivals := r.lateArrivals + 1 }
  else if r.maximumRows ≤ bucket then .error r.limitExceeded
  else
    match r.advanceTo quantile bucket with
    | .ok r' => .ok (r'.count latency duplicate)
    | .error e => .error e

def finalize (r : IntervalRecorder) (elapsedNs : ℕ) : Except String IntervalRecorder :=
  if r.finalized then .ok r
  else
    let r := { r with finalized := true }
    if elapsedNs = 0 then .ok r
    else
      let finalBucket := (elapsedNs - 1) / intervalWidthNs
      if r.maximumRows ≤ finalBucket then .error r.limitExceeded
      else
        match r.advanceTo quantile finalBucket with
        | .error e => .error e
        | .ok r' =>
          let remainder := elapsedNs % intervalWidthNs
          r'.finishCurrent quantile (if remainder = 0 then intervalWidthNs else remainder)

def intervalCount (r : IntervalRecorder) : ℕ := (r.rows.map (·.latencyCount)).sum

/-- The members of `interval-latency.json`. -/
def fragment (r : IntervalRecorder) (aggregateCount : ℕ) : Dict := [
  ("schema_version", .int 1),
  ("interval_clock", .str "monotonic-elapsed"),
  ("alignment_clock", .str "unix-epoch"),
  ("alignment_clock_purpose", .str "cross-process-alignment-only"),
  ("measurement_start_unix_epoch_ns", .int r.measurementStartUnixEpochNs),
  ("declared_measurement_duration_ns", .int r.declaredMeasurementDurationNs),
  ("publisher_drain_ns", .int r.publisherDrainNs),
  ("drain_grace_ns", .int r.drainGraceNs),
  ("bucket_width_ns", .int intervalWidthNs),
  ("maximum_rows", .int r.maximumRows),
  ("row_count", .int r.rows.length),
  ("aggregate_latency_count", .int aggregateCount),
  ("late_arrivals", .int r.lateArrivals),
  ("rows", .arr (r.rows.map fun row => .obj row.members))]

def artifact (r : IntervalRecorder) (aggregateCount : ℕ) : Except String Dict :=
  if !r.finalized then .error "interval recorder was not finalized"
  else if r.intervalCount ≠ aggregateCount then
    .error ("interval latency population " ++ toString r.intervalCount ++
      " differs from aggregate " ++ toString aggregateCount)
  else .ok (r.fragment aggregateCount)

end IntervalRecorder

/-- Payload fields the subscriber reads. -/
structure TimestampedMessage where
  ts : ℕ
  seq : ℕ
  deriving DecidableEq, Repr

inductive RecordOutcome
  | recorded (intendedNs : ℕ) (latency : Latency) (seq : ℕ)
  | parseError
  | ignoredSequence (seq : ℕ)
  deriving DecidableEq, Repr

/-- Wall-clock steps of more than 100 ms against the monotonic clock. -/
structure ClockSteps where
  wallMinusMonotonicNs : Option ℤ := none
  steps : ℕ := 0
  deriving DecidableEq, Repr

def ClockSteps.observe (c : ClockSteps) (wallNs monotonicElapsedNs : ℕ) : ClockSteps :=
  let gap : ℤ := wallNs - monotonicElapsedNs
  { wallMinusMonotonicNs := some gap
    steps := if ∃ previous ∈ c.wallMinusMonotonicNs, 100000000 < (gap - previous).natAbs then
      c.steps + 1 else c.steps }

structure LatencyRecorder where
  histogram : List Latency := []
  intervals : Option IntervalRecorder := none
  intervalOriginElapsedNs : Option ℕ := none
  sequence : SequenceTracker := {}
  sequenceEndExclusive : Option ℕ := none
  totalMessages : ℕ := 0
  parseErrors : ℕ := 0
  clamps : LatencyClamps := {}
  clockSteps : ClockSteps := {}
  ignoredSequences : ℕ := 0
  lastRecordDuplicate : Bool := false
  partialReasons : List String := []
  deriving DecidableEq, Repr

namespace LatencyRecorder

def withSequenceExampleLimit (maxExamples : Option ℕ) : LatencyRecorder :=
  { sequence := { maxExamples } }

/-- Declare the measured population `[0, end)`. -/
def withSequenceEnd (recorder : LatencyRecorder) (finish : Option ℕ) : LatencyRecorder :=
  { recorder with
    sequence := finish.elim recorder.sequence recorder.sequence.anchorEnd
    sequenceEndExclusive := finish }

def enableIntervals (recorder : LatencyRecorder)
    (measurementStartUnixEpochNs measurementSecs publisherDrainSecs drainGraceSecs : ℕ) :
    Except String LatencyRecorder :=
  match IntervalRecorder.new measurementStartUnixEpochNs measurementSecs publisherDrainSecs
      drainGraceSecs with
  | .ok intervals => .ok { recorder with intervals := some intervals }
  | .error e => .error e

def observeClock (recorder : LatencyRecorder) (receiveNs elapsedNs : ℕ) : LatencyRecorder :=
  { recorder with clockSteps := recorder.clockSteps.observe receiveNs elapsedNs }

def anchorClock (recorder : LatencyRecorder) (wallNsAtZero : ℕ) : LatencyRecorder :=
  recorder.observeClock wallNsAtZero 0

def dropIntervals (recorder : LatencyRecorder) (error : String) : LatencyRecorder :=
  { recorder with
    intervals := none
    partialReasons := recorder.partialReasons ++ ["interval-latency.json: " ++ error] }

def record (recorder : LatencyRecorder) (intendedPublishNs receiveNs seq : ℕ) :
    RecordOutcome × LatencyRecorder :=
  let (latency, clamps) := recorder.clamps.bound intendedPublishNs receiveNs
  let (outcome, sequence) := recorder.sequence.record seq
  (.recorded intendedPublishNs latency seq,
    { recorder with
      clamps
      histogram := recorder.histogram ++ [latency]
      sequence
      lastRecordDuplicate := outcome.isDuplicate })

variable (fromSlice : List UInt8 → Option TimestampedMessage)
  (quantile : List Latency → ℚ → ℕ)

def recordJson (recorder : LatencyRecorder) (payload : List UInt8) (receiveNs : ℕ) :
    RecordOutcome × LatencyRecorder :=
  match fromSlice payload with
  | none =>
    (.parseError,
      { recorder with
        totalMessages := recorder.totalMessages + 1
        parseErrors := recorder.parseErrors + 1 })
  | some message =>
    if ∃ finish ∈ recorder.sequenceEndExclusive, finish ≤ message.seq then
      (.ignoredSequence message.seq,
        { recorder with ignoredSequences := recorder.ignoredSequences + 1 })
    else
      { recorder with totalMessages := recorder.totalMessages + 1 }.record message.ts receiveNs
        message.seq

/-- Origin and intervals of a recorded sample. The first one fixes where the intervals start, on
the monotonic clock and on the wall clock. -/
def beginIntervals (recorder : LatencyRecorder) (intervals : IntervalRecorder)
    (receiveNs elapsedNs : ℕ) : ℕ × IntervalRecorder :=
  match recorder.intervalOriginElapsedNs with
  | some origin => (origin, intervals)
  | none => (elapsedNs, { intervals with measurementStartUnixEpochNs := receiveNs })

/-- Feed a recorded latency to the intervals. -/
def feedIntervals (recorder : LatencyRecorder) (intervals : IntervalRecorder) (latency : Latency)
    (receiveNs elapsedNs : ℕ) : LatencyRecorder :=
  let (origin, intervals) := recorder.beginIntervals intervals receiveNs elapsedNs
  let begun := { recorder with intervalOriginElapsedNs := some origin }
  match intervals.record quantile (elapsedNs - origin) latency recorder.lastRecordDuplicate with
  | .ok intervals => { begun with intervals := some intervals }
  | .error e => begun.dropIntervals e

def recordJsonAt (recorder : LatencyRecorder) (payload : List UInt8) (receiveNs elapsedNs : ℕ) :
    RecordOutcome × LatencyRecorder :=
  let (outcome, recorder) :=
    (recorder.observeClock receiveNs elapsedNs).recordJson fromSlice payload receiveNs
  match outcome, recorder.intervals with
  | .recorded _ latency _, some intervals =>
    (outcome, recorder.feedIntervals quantile intervals latency receiveNs elapsedNs)
  | _, _ => (outcome, recorder)

def finalizeIntervals (recorder : LatencyRecorder) (measurementElapsedNs : ℕ) : LatencyRecorder :=
  match recorder.intervals with
  | none => recorder
  | some intervals =>
    match intervals.finalize quantile
        (measurementElapsedNs - recorder.intervalOriginElapsedNs.getD 0) with
    | .ok intervals => { recorder with intervals := some intervals }
    | .error e => recorder.dropIntervals e

/-- What `interval-latency.json` gets, if it is written. -/
def writeMeasurements (recorder : LatencyRecorder) : Option Dict × LatencyRecorder :=
  match recorder.intervals with
  | none => (none, recorder)
  | some intervals =>
    match intervals.artifact recorder.histogram.length with
    | .ok fragment => (some fragment, recorder)
    | .error e => (none, recorder.dropIntervals e)

end LatencyRecorder

/-- One message as the subscriber gets it. -/
structure Arrival where
  payload : List UInt8
  receiveNs : ℕ
  elapsedNs : ℕ
  deriving DecidableEq, Repr

/-- The inputs of one subscriber run: its declaration, the messages in the order they are
recorded, and the time of the finalisation. -/
structure SubscriberRun where
  sequenceExampleLimit : Option ℕ := none
  sequenceEndExclusive : Option ℕ := none
  measurementStartUnixEpochNs : ℕ
  measurementSecs : ℕ
  publisherDrainSecs : ℕ
  drainGraceSecs : ℕ
  arrivals : List Arrival
  measurementElapsedNs : ℕ
  deriving DecidableEq, Repr

namespace SubscriberRun

variable (fromSlice : List UInt8 → Option TimestampedMessage)
  (quantile : List Latency → ℚ → ℕ)

/-- The recorder the run starts with. -/
def started (run : SubscriberRun) : Except String LatencyRecorder :=
  let recorder := LatencyRecorder.withSequenceExampleLimit run.sequenceExampleLimit
  let recorder := recorder.withSequenceEnd run.sequenceEndExclusive
  match recorder.enableIntervals run.measurementStartUnixEpochNs run.measurementSecs
      run.publisherDrainSecs run.drainGraceSecs with
  | .ok recorder => .ok (recorder.anchorClock run.measurementStartUnixEpochNs)
  | .error e => .error e

def recordAll : LatencyRecorder → List Arrival → LatencyRecorder
  | recorder, [] => recorder
  | recorder, a :: rest =>
    recordAll (recorder.recordJsonAt fromSlice quantile a.payload a.receiveNs a.elapsedNs).2 rest

/-- The recorder after the messages and the finalisation. -/
def finished (run : SubscriberRun) : Except String LatencyRecorder :=
  match run.started with
  | .ok recorder =>
    .ok ((recordAll fromSlice quantile recorder run.arrivals).finalizeIntervals quantile
      run.measurementElapsedNs)
  | .error e => .error e

end SubscriberRun

end Wafer
