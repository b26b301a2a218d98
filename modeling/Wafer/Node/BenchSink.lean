import Wafer.Queue.Envelope
import Wafer.Types.Intervals
import Wafer.Types.Sequence

/-!
# The in-process bench sink

Latency histograms, sequence accounting, throughput grid, burst observation,
version transitions and one-second interval rows of `BenchSink`. A message comes
with the readings its `collect` takes of the clocks, in nanoseconds: the
monotonic Unix time, the `Instant` and the wall clock. A histogram is the list of
the latencies it holds, and `quantile` is its `value_at_quantile`.

## Main definitions

- `BenchSink.IntervalRecorder.record`, `finalize`, `write`
- `BenchSink.init`, `collect`, `close`, `exportIntervals`
- `BenchRun.finished` — the sink after a run of messages and the close
-/

namespace Wafer

open Lib

/-! ## Version transitions -/

structure SwapTransition where
  fromVersion : String
  toVersion : String
  pauseNs : ℕ
  deriving DecidableEq, Repr

structure HotSwapRecorder where
  currentVersion : Option String := none
  lastV1TimeNs : Option ℕ := none
  firstV2TimeNs : Option ℕ := none
  transitions : List SwapTransition := []
  deriving DecidableEq, Repr

def HotSwapRecorder.record (h : HotSwapRecorder) (version : String) (timestampNs : ℕ) :
    HotSwapRecorder :=
  match h.currentVersion with
  | none => { h with currentVersion := some version, lastV1TimeNs := some timestampNs }
  | some current =>
    if current ≠ version then
      let pauseNs := h.lastV1TimeNs.elim 0 (timestampNs - ·)
      { currentVersion := some version
        lastV1TimeNs := some timestampNs
        firstV2TimeNs := some timestampNs
        transitions := h.transitions ++ [⟨current, version, pauseNs⟩] }
    else { h with lastV1TimeNs := some timestampNs }

/-! ## Throughput -/

structure ThroughputSample where
  elapsedSecs : ℕ
  msgCount : ℕ
  bytes : ℕ
  deriving DecidableEq, Repr

structure ThroughputGrid where
  samples : List ThroughputSample := []
  bucket : ℕ := 0
  msgCount : ℕ := 0
  bytes : ℕ := 0
  deriving DecidableEq, Repr

namespace ThroughputGrid

def closeBucket (g : ThroughputGrid) : ThroughputGrid :=
  { samples := g.samples ++ [⟨g.bucket + 1, g.msgCount, g.bytes⟩]
    bucket := g.bucket + 1
    msgCount := 0
    bytes := 0 }

/-- The loop `while bucket < secs` closes one bucket a turn. -/
def record (g : ThroughputGrid) (sinceStartNs bytes : ℕ) : ThroughputGrid :=
  let g := closeBucket^[sinceStartNs / 1000000000 - g.bucket] g
  { g with msgCount := g.msgCount + 1, bytes := g.bytes + bytes }

def finish (g : ThroughputGrid) : ThroughputGrid :=
  if 0 < g.msgCount then g.closeBucket else g

end ThroughputGrid

/-! ## Burst observation -/

def burstBucketWidthNs : ℕ := 100000000
def burstBucketCount : ℕ := 1200
def burstDrainBucketCount : ℕ := 100
def burstPrimaryEndNs : ℕ := 120000000000
def burstDrainEndNs : ℕ := 130000000000
def burstSwapOffsetNs : ℕ := 60000000000
def fineEventStartNs : ℤ := -2000000000
def fineEventEndNs : ℤ := 2000000000
def fineEventAlignmentToleranceNs : ℕ := 10000000
def fineEventSampleCapacity : ℕ := 16384

structure BurstBucket where
  receivedUnique : ℕ := 0
  receivedEvents : ℕ := 0
  duplicates : ℕ := 0
  deriving DecidableEq, Repr

def BurstBucket.record (b : BurstBucket) (duplicate : Bool) : BurstBucket where
  receivedEvents := b.receivedEvents + 1
  duplicates := if duplicate then b.duplicates + 1 else b.duplicates
  receivedUnique := if duplicate then b.receivedUnique else b.receivedUnique + 1

structure FineEventSample where
  arrivalUnixNs : ℕ
  duplicate : Bool
  deriving DecidableEq, Repr

structure BurstObservation where
  sourceOriginNs : ℕ
  originMismatchEvents : ℕ := 0
  primary : List BurstBucket := List.replicate burstBucketCount {}
  drain : List BurstBucket := List.replicate burstDrainBucketCount {}
  primaryLastOffsetNs : Option ℕ := none
  drainFirstOffsetNs : Option ℕ := none
  drainLastOffsetNs : Option ℕ := none
  afterDrain : BurstBucket := {}
  afterDrainFirstOffsetNs : Option ℕ := none
  afterDrainLastOffsetNs : Option ℕ := none
  maxArrivalOffsetNs : ℕ := 0
  fineSamples : List FineEventSample := []
  fineSamplesOverflowed : Bool := false
  deriving DecidableEq, Repr

namespace BurstObservation

/-- Keep a sample whose arrival is near the scheduled event. -/
def capture (o : BurstObservation) (arrivalNs : ℕ) (duplicate : Bool) : BurstObservation :=
  let scheduledEventNs := satAdd o.sourceOriginNs burstSwapOffsetNs
  let start := scheduledEventNs - fineEventStartNs.natAbs - fineEventAlignmentToleranceNs
  let stop := satAdd (satAdd scheduledEventNs fineEventEndNs.natAbs) fineEventAlignmentToleranceNs
  if start ≤ arrivalNs ∧ arrivalNs < stop then
    if o.fineSamples.length = fineEventSampleCapacity then { o with fineSamplesOverflowed := true }
    else { o with fineSamples := o.fineSamples ++ [⟨arrivalNs, duplicate⟩] }
  else o

/-- Count a sample in the bucket of its offset. A bucket past the end of the grid is skipped. -/
def place (o : BurstObservation) (offsetNs : ℕ) (duplicate : Bool) : BurstObservation :=
  if offsetNs < burstPrimaryEndNs then
    let index := offsetNs / burstBucketWidthNs
    if index < o.primary.length then
      { o with
        primary := o.primary.modify index (·.record duplicate)
        primaryLastOffsetNs := some (o.primaryLastOffsetNs.elim offsetNs (max · offsetNs)) }
    else o
  else if offsetNs < burstDrainEndNs then
    let index := (offsetNs - burstPrimaryEndNs) / burstBucketWidthNs
    if index < o.drain.length then
      { o with
        drain := o.drain.modify index (·.record duplicate)
        drainFirstOffsetNs := some (o.drainFirstOffsetNs.elim offsetNs (min · offsetNs))
        drainLastOffsetNs := some (o.drainLastOffsetNs.elim offsetNs (max · offsetNs)) }
    else o
  else
    { o with
      afterDrain := o.afterDrain.record duplicate
      afterDrainFirstOffsetNs := some (o.afterDrainFirstOffsetNs.elim offsetNs (min · offsetNs))
      afterDrainLastOffsetNs := some (o.afterDrainLastOffsetNs.elim offsetNs (max · offsetNs)) }

def record (o : BurstObservation) (sourceOriginNs arrivalNs : ℕ) (duplicate : Bool) :
    BurstObservation :=
  let mismatch := sourceOriginNs ≠ o.sourceOriginNs ∨ arrivalNs < sourceOriginNs
  let offsetNs := arrivalNs - o.sourceOriginNs
  let o := { o with
    originMismatchEvents := if mismatch then o.originMismatchEvents + 1 else o.originMismatchEvents
    maxArrivalOffsetNs := max o.maxArrivalOffsetNs offsetNs }
  (o.capture arrivalNs duplicate).place offsetNs duplicate

end BurstObservation

/-! ## Interval rows -/

/-- The sink's own interval recorder. It marks itself overflowed instead of failing. -/
structure BenchSink.IntervalRecorder where
  measurementStartUnixEpochNs : ℕ
  declaredMeasurementDurationNs : ℕ
  maximumRows : ℕ
  currentBucket : ℕ := 0
  histogram : List Latency := []
  events : ℕ := 0
  unique : ℕ := 0
  duplicates : ℕ := 0
  rows : List IntervalLatencyRow := []
  overflowed : Bool := false
  finalized : Bool := false
  deriving DecidableEq, Repr

namespace BenchSink.IntervalRecorder

def new (measurementStartUnixEpochNs measurementSecs : ℕ) : IntervalRecorder where
  measurementStartUnixEpochNs
  declaredMeasurementDurationNs := satMul measurementSecs intervalWidthNs
  maximumRows := satAdd measurementSecs 2

variable (quantile : List Latency → ℚ → ℕ)

def finishCurrent (r : IntervalRecorder) (widthNs : ℕ) : IntervalRecorder :=
  { r with
    rows := r.rows ++ [secondRow quantile r.measurementStartUnixEpochNs r.currentBucket widthNs
      r.histogram r.events r.unique r.duplicates]
    histogram := []
    events := 0
    unique := 0
    duplicates := 0
    currentBucket := r.currentBucket + 1 }

/-- At most `count` turns of the loop that finishes one full second each, while there is room. -/
def finishSeconds : ℕ → IntervalRecorder → IntervalRecorder
  | 0, r => r
  | count + 1, r =>
    if r.rows.length < r.maximumRows then
      finishSeconds count (r.finishCurrent quantile intervalWidthNs)
    else r

/-- The loop `while current_bucket < bucket && rows.len() < maximum_rows`. -/
def advanceTo (r : IntervalRecorder) (bucket : ℕ) : IntervalRecorder :=
  finishSeconds quantile (bucket - r.currentBucket) r

/-- Count one sample in the current bucket. -/
def count (r : IntervalRecorder) (latency : Option Latency) (duplicate : Bool) :
    IntervalRecorder :=
  { r with
    histogram := r.histogram ++ latency.toList
    events := r.events + 1
    unique := if duplicate then r.unique else r.unique + 1
    duplicates := if duplicate then r.duplicates + 1 else r.duplicates }

def record (r : IntervalRecorder) (elapsedNs : ℕ) (latency : Option Latency) (duplicate : Bool) :
    IntervalRecorder :=
  let bucket := elapsedNs / intervalWidthNs
  let r := r.advanceTo quantile bucket
  if bucket ≠ r.currentBucket ∨ r.rows.length = r.maximumRows then { r with overflowed := true }
  else r.count latency duplicate

def finalize (r : IntervalRecorder) (elapsedNs : ℕ) : IntervalRecorder :=
  if r.finalized then r
  else
    let r := { r with finalized := true }
    if elapsedNs = 0 then r
    else
      let finalBucket := (elapsedNs - 1) / intervalWidthNs
      if r.maximumRows ≤ finalBucket then { r with overflowed := true }
      else
        let r := r.advanceTo quantile finalBucket
        if r.rows.length < r.maximumRows then
          let remainder := elapsedNs % intervalWidthNs
          r.finishCurrent quantile (if remainder = 0 then intervalWidthNs else remainder)
        else r

def intervalCount (r : IntervalRecorder) : ℕ := (r.rows.map (·.latencyCount)).sum

/-- The members of `interval-latency.json`. -/
def artifact (r : IntervalRecorder) (aggregateCount : ℕ) : Dict := [
  ("schema_version", .int 1),
  ("interval_clock", .str "monotonic-elapsed"),
  ("alignment_clock", .str "unix-epoch"),
  ("alignment_clock_purpose", .str "cross-process-alignment-only"),
  ("measurement_start_unix_epoch_ns", .int r.measurementStartUnixEpochNs),
  ("declared_measurement_duration_ns", .int r.declaredMeasurementDurationNs),
  ("bucket_width_ns", .int intervalWidthNs),
  ("maximum_rows", .int r.maximumRows),
  ("row_count", .int r.rows.length),
  ("aggregate_latency_count", .int aggregateCount),
  ("late_arrivals", .int 0),
  ("rows", .arr (r.rows.map fun row => .obj row.members))]

def write (r : IntervalRecorder) (aggregateCount : ℕ) : Except String Dict :=
  if r.overflowed then .error "interval row limit exceeded"
  else if r.intervalCount ≠ aggregateCount then
    .error ("interval latency population " ++ toString r.intervalCount ++
      " differs from aggregate " ++ toString aggregateCount)
  else .ok (r.artifact aggregateCount)

end BenchSink.IntervalRecorder

/-! ## The sink -/

structure BenchSinkConfig where
  warmupSecs : ℕ := 30
  trackSequences : Bool := true
  trackHotswap : Bool := false
  outputDir : Option String := none
  deriving DecidableEq, Repr

structure BenchSink where
  config : BenchSinkConfig
  histogram : List Latency := []
  serviceHistogram : List Latency := []
  sourceLagHistogram : List Latency := []
  latencyClamps : LatencyClamps := {}
  serviceClamps : LatencyClamps := {}
  sourceLagClamps : LatencyClamps := {}
  warmupUntil : Option ℕ := none
  sequenceTracker : Option SequenceTracker
  sequencePopulationRead : Bool := false
  hotswapRecorder : Option HotSwapRecorder
  messageCount : ℕ := 0
  started : Bool := false
  startWallTime : Option ℕ := none
  measurementStart : Option ℕ := none
  throughput : ThroughputGrid := {}
  intervalRecorder : Option BenchSink.IntervalRecorder := none
  intervalUsesSourceOrigin : Bool := false
  burstObservation : Option BurstObservation := none
  burstMissingOriginEvents : ℕ := 0
  burstPhaseReceived : BurstPhase → ℕ := fun _ => 0

/-- A message at the sink, with what `collect` reads of the clocks. -/
structure Delivery where
  envelope : RuntimeEnvelope
  arrivalUnixNs : ℕ
  now : ℕ
  wallNs : ℕ
  deriving DecidableEq, Repr

namespace Delivery

def stamps (d : Delivery) : Option BenchStamps := d.envelope.header.bench

/-- Where the source says its measurement began, on a message of a burst run. -/
def sourceOriginNs (d : Delivery) : Option ℕ :=
  (d.stamps.bind (·.burst)).bind (·.measurementStartUnixNs)

/-- The mark of the source decides, and without one the timer of the sink. -/
def inWarmup (d : Delivery) (warmupUntil : Option ℕ) : Bool :=
  d.stamps.elim (warmupUntil.any (d.now < ·)) (·.warmup)

/-- Time of the message since the measurement began: by the source's clock if it says where that
was, and otherwise by its arrival. -/
def elapsedNs (d : Delivery) (start : ℕ) : ℕ :=
  let sourced := d.sourceOriginNs.bind fun origin =>
    (d.stamps.map (·.intendedNs)).bind fun intended =>
      if origin ≤ intended then some (intended - origin) else none
  sourced.getD (min (d.now - start) u64Max)

end Delivery

/-- The value of `WAFER_MEASUREMENT_SECS`, if it is a positive number. -/
def configuredMeasurementSecs (value : Option ℕ) : ℕ := (value.filter (0 < ·)).getD 300

namespace BenchSink

def new (config : BenchSinkConfig) : BenchSink where
  config
  sequenceTracker :=
    if config.trackSequences then some { SequenceTracker.unanchored with maxExamples := some 0 }
    else none
  hotswapRecorder := if config.trackHotswap then some {} else none

def init (sink : BenchSink) (wallNs measurementSecs : ℕ) : BenchSink :=
  if sink.config.outputDir.isSome then
    { sink with intervalRecorder := some (.new wallNs measurementSecs) }
  else sink

/-- The first message starts the warm-up timer. -/
def startWarmup (sink : BenchSink) (now : ℕ) : BenchSink :=
  if sink.started then sink
  else
    { sink with
      started := true
      warmupUntil :=
        if 0 < sink.config.warmupSecs then some (now + sink.config.warmupSecs * 1000000000)
        else sink.warmupUntil }

def countMessage (sink : BenchSink) : BenchSink :=
  { sink with messageCount := sink.messageCount + 1 }

/-- The first message after the warm-up starts the measurement. -/
def startMeasurement (sink : BenchSink) (measurementSecs : ℕ) (d : Delivery) : BenchSink :=
  if sink.measurementStart.isSome then sink
  else
    { sink with
      measurementStart := some d.now
      startWallTime := some d.wallNs
      intervalUsesSourceOrigin := d.sourceOriginNs.isSome
      intervalRecorder := some (.new (d.sourceOriginNs.getD d.wallNs) measurementSecs) }

/-- Record a number in the tracker, which takes the population from the first stamps it sees. -/
def countSequence (tracker : Option SequenceTracker) (populationRead : Bool)
    (stamps : Option BenchStamps) : Bool × Option SequenceTracker × Bool :=
  match tracker, stamps with
  | some tracker, some stamps =>
    let tracker :=
      if populationRead then tracker
      else
        let tracker := tracker.anchorStart stamps.measurementStartSeq
        stamps.sequenceEnd.elim tracker tracker.anchorEnd
    let (outcome, tracker) := tracker.record stamps.sequence
    (outcome.isDuplicate, some tracker, true)
  | tracker, _ => (false, tracker, populationRead)

def recordSequence (sink : BenchSink) (stamps : Option BenchStamps) : Bool × BenchSink :=
  let (duplicate, sequenceTracker, sequencePopulationRead) :=
    countSequence sink.sequenceTracker sink.sequencePopulationRead stamps
  (duplicate, { sink with sequenceTracker, sequencePopulationRead })

def recordBurstBucket (sink : BenchSink) (stamps : Option BenchStamps) (arrivalUnixNs : ℕ)
    (duplicate : Bool) : BenchSink :=
  match stamps.bind (·.burst) with
  | none => sink
  | some burst =>
    let sink :=
      match burst.measurementStartUnixNs with
      | some origin =>
        let observation := sink.burstObservation.getD { sourceOriginNs := origin }
        { sink with burstObservation := some (observation.record origin arrivalUnixNs duplicate) }
      | none => { sink with burstMissingOriginEvents := sink.burstMissingOriginEvents + 1 }
    { sink with burstPhaseReceived := fun phase =>
        if phase = burst.phase then sink.burstPhaseReceived phase + 1
        else sink.burstPhaseReceived phase }

def recordThroughput (sink : BenchSink) (d : Delivery) : BenchSink :=
  let sinceStartNs := sink.measurementStart.elim 0 (d.now - ·)
  { sink with throughput := sink.throughput.record sinceStartNs d.envelope.payload.length }

/-- Latency, service time and source lag of a message with stamps; its latency goes on to the
intervals. -/
def recordLatencies (sink : BenchSink) (d : Delivery) : Option Latency × BenchSink :=
  match d.stamps with
  | none => (none, sink)
  | some stamps =>
    let (latency, latencyClamps) := sink.latencyClamps.bound stamps.intendedNs d.arrivalUnixNs
    let (service, serviceClamps) := sink.serviceClamps.bound stamps.emitNs d.arrivalUnixNs
    let (lag, sourceLagClamps) := sink.sourceLagClamps.bound stamps.intendedNs stamps.emitNs
    (some latency,
      { sink with
        histogram := sink.histogram ++ [latency]
        latencyClamps
        serviceHistogram := sink.serviceHistogram ++ [service]
        serviceClamps
        sourceLagHistogram := sink.sourceLagHistogram ++ [lag]
        sourceLagClamps })

variable (quantile : List Latency → ℚ → ℕ)

def recordInterval (sink : BenchSink) (d : Delivery) (latency : Option Latency)
    (duplicate : Bool) : BenchSink :=
  match sink.measurementStart, sink.intervalRecorder with
  | some start, some intervals =>
    { sink with
      intervalRecorder := some (intervals.record quantile (d.elapsedNs start) latency duplicate) }
  | _, _ => sink

def recordVersion (sink : BenchSink) (d : Delivery) : BenchSink :=
  match sink.hotswapRecorder, d.envelope.header.metadata.find? (·.1 = "plugin.version") with
  | some recorder, some (_, version) =>
    { sink with hotswapRecorder := some (recorder.record version d.arrivalUnixNs) }
  | _, _ => sink

/-- What a message after the warm-up leaves in the recorders. -/
def measure (sink : BenchSink) (d : Delivery) : BenchSink :=
  let (duplicate, sink) := sink.recordSequence d.stamps
  let sink := sink.recordBurstBucket d.stamps d.arrivalUnixNs duplicate
  let sink := sink.recordThroughput d
  let (latency, sink) := sink.recordLatencies d
  let sink := sink.recordInterval quantile d latency duplicate
  sink.recordVersion d

def collect (measurementSecs : ℕ) (sink : BenchSink) (d : Delivery) : BenchSink :=
  let sink := (sink.startWarmup d.now).countMessage
  if d.inWarmup sink.warmupUntil then sink
  else (sink.startMeasurement measurementSecs d).measure quantile d

/-- How long the measurement took for the intervals: the declared time if the source keeps it or if
there was none, and otherwise the time since it began. -/
def closeElapsedNs (sink : BenchSink) (intervals : IntervalRecorder) (now : ℕ) : ℕ :=
  if sink.intervalUsesSourceOrigin || sink.measurementStart.isNone then
    intervals.declaredMeasurementDurationNs
  else sink.measurementStart.elim 0 fun start => min (now - start) u64Max

def close (sink : BenchSink) (now : ℕ) : BenchSink :=
  let sink := { sink with throughput := sink.throughput.finish }
  match sink.intervalRecorder with
  | none => sink
  | some intervals =>
    let closed := intervals.finalize quantile (sink.closeElapsedNs intervals now)
    { sink with
      intervalRecorder := some closed
      startWallTime := sink.startWallTime.or (some closed.measurementStartUnixEpochNs) }

/-- What the export writes to `interval-latency.json`, if it writes it. -/
def exportIntervals (sink : BenchSink) : Except String (Option Dict) :=
  match sink.intervalRecorder.filter (·.finalized) with
  | none => .ok none
  | some intervals => (intervals.write sink.histogram.length).map some

end BenchSink

/-- The inputs of one run of the sink: the clock at its `init`, the messages in the order they are
collected, and the clock at its `close`. -/
structure BenchRun where
  config : BenchSinkConfig
  measurementSecs : Option ℕ
  initWallNs : ℕ
  deliveries : List Delivery
  closeNow : ℕ
  deriving DecidableEq, Repr

namespace BenchRun

variable (quantile : List Latency → ℚ → ℕ)

def secs (run : BenchRun) : ℕ := configuredMeasurementSecs run.measurementSecs

def collectAll (secs : ℕ) : BenchSink → List Delivery → BenchSink
  | sink, [] => sink
  | sink, d :: rest => collectAll secs (sink.collect quantile secs d) rest

/-- The sink when its last message has been collected. -/
def collected (run : BenchRun) : BenchSink :=
  collectAll quantile run.secs ((BenchSink.new run.config).init run.initWallNs run.secs)
    run.deliveries

/-- The sink after its close. -/
def finished (run : BenchRun) : BenchSink := (run.collected quantile).close quantile run.closeNow

end BenchRun

end Wafer
