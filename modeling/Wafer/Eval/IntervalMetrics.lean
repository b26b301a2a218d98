import Wafer.Lib.Double
import Wafer.Loadgen.Recorder

/-!
# Interval metrics of the evaluation harness

The Python readers of `interval-latency.json`: the validator of the fragment,
the composer of `interval-metrics.json` and the validator of that document.
Samples are the parsed rows of the CSV files. Quotients of integers are doubles;
a sum of floats is kept exact before it is divided.

## Main definitions

- `validateFragment`, `validateIntervalMetrics` — the two validators
- `composeArtifact`, `composeIntervalMetrics` — the composer, without and with its checks
-/

namespace Wafer.IntervalMetrics

open Lib

def forbiddenFields : List String := ["message_id", "sequence_id", "per_message_timestamp"]

def available (value : Json) : Json := .obj [("status", .str "available"), ("value", value)]

def unavailable (reason : String) : Json :=
  .obj [("status", .str "unavailable"), ("reason", .str reason)]

/-- `a / b` of two integers or floats. -/
def trueDiv (a b : ℚ) : ℚ := toDouble (a / b)

/-- `math.ceil(ns / INTERVAL_WIDTH_NS)`. -/
def ceilSeconds (ns : ℤ) : ℤ := ⌈trueDiv ns intervalWidthNs⌉

/-- `int(value.get(key, default))`. -/
def intOr (value : Dict) (key : String) (default : ℤ) : Except ReadError ℤ :=
  match value.get? key with
  | some item => item.toInt
  | none => .ok default

def maximumRows (durationNs : ℤ) (value : Dict) : Except ReadError ℤ := do
  let publisherDrainNs ← intOr value "publisher_drain_ns" 0
  let drainGraceNs ← intOr value "drain_grace_ns" 0
  return ceilSeconds durationNs + (ceilSeconds publisherDrainNs + ceilSeconds drainGraceNs) + 2

/-- Schema version, clock labels and bucket width, as both validators test them. -/
def hasLabels (value : Dict) : Bool :=
  (value.get? "schema_version").any (Json.isInt 1) &&
  (value.get? "interval_clock").any (Json.isStr "monotonic-elapsed") &&
  (value.get? "alignment_clock").any (Json.isStr "unix-epoch") &&
  (value.get? "alignment_clock_purpose").any (Json.isStr "cross-process-alignment-only") &&
  (value.get? "bucket_width_ns").any (Json.isInt intervalWidthNs)

/-- A row begins where the last one ended and is one second wide, the final one at most. -/
def fits (start stop previousEnd : ℤ) (last : Bool) : Bool :=
  start = previousEnd && 0 < stop - start && stop - start ≤ intervalWidthNs &&
    (last || stop - start = intervalWidthNs)

def raise {α : Type} (message : String) : Except ReadError α := .error (.value message)

/-- `if bad: raise ValueError(message)`. -/
def raiseIf (bad : Bool) (message : String) : Except ReadError Unit :=
  if bad then raise message else .ok ()

/-- The list behind `rows`, whose length must be the declared one. -/
def countedRows (value : Dict) (message : String) : Except ReadError (List Json) :=
  match value.get? "rows" with
  | some (.arr rows) =>
    if (value.get? "row_count").any (Json.isInt rows.length) then .ok rows else raise message
  | _ => raise message

/-- `any(row[field] is not None for field in fields)`. -/
def anyPresent (row : Dict) : List String → Except ReadError Bool
  | [] => .ok false
  | field :: rest => do
    let value ← row.item field
    if value.isNull then anyPresent row rest else return true

/-- `count == 0` and some percentile is there all the same. -/
def emptyHasPercentile (row : Dict) (count : ℤ) : Except ReadError Bool :=
  if count = 0 then anyPresent row ["latency_p50_ns", "latency_p95_ns", "latency_p99_ns"]
  else .ok false

/-- End and latency count of a fragment row that passes its checks. -/
def validateFragmentRow (fragment : Dict) (previousEnd : ℤ) (last : Bool) :
    Json → Except ReadError (ℤ × ℤ)
  | .obj row => do
    raiseIf (forbiddenFields.any fun field => (Dict.get? row field).isSome)
      "interval latency row contains per-message fields"
    let start ← Dict.intItem row "interval_start_ns"
    let stop ← Dict.intItem row "interval_end_ns"
    raiseIf (!fits start stop previousEnd last)
      "interval latency rows have gaps, overlap, or invalid widths"
    let startUnix ← Dict.intItem row "interval_start_unix_epoch_ns"
    let origin ← Dict.intItem fragment "measurement_start_unix_epoch_ns"
    raiseIf (startUnix ≠ origin + start)
      "interval latency Unix alignment differs from monotonic bounds"
    let stopUnix ← Dict.intItem row "interval_end_unix_epoch_ns"
    raiseIf (stopUnix ≠ origin + stop)
      "interval latency Unix alignment differs from monotonic bounds"
    let count ← Dict.intItem row "latency_count"
    let valued ← emptyHasPercentile row count
    raiseIf valued "empty latency interval has percentile values"
    let events ← Dict.intItem row "received_events"
    let unique ← Dict.intItem row "throughput_messages"
    let duplicates ← Dict.intItem row "duplicates"
    raiseIf (events ≠ unique + duplicates)
      "interval event, unique, and duplicate counts do not reconcile"
    raiseIf (count < 0 || events < count) "interval latency count exceeds received events"
    return (stop, count)
  | _ => raise "interval latency row must be an object"

/-- The latency counts of the rows, added up to `total`. -/
def validateFragmentRows (fragment : Dict) : List Json → ℤ → ℤ → Except ReadError ℤ
  | [], _, total => .ok total
  | row :: rest, previousEnd, total => do
    let (stop, count) ← validateFragmentRow fragment previousEnd rest.isEmpty row
    validateFragmentRows fragment rest stop (total + count)

def fragmentFields : List String :=
  ["schema_version", "interval_clock", "alignment_clock", "alignment_clock_purpose",
    "measurement_start_unix_epoch_ns", "declared_measurement_duration_ns", "bucket_width_ns",
    "maximum_rows", "row_count", "aggregate_latency_count", "late_arrivals", "rows"]

def validateFragment (fragment : Dict) (aggregateCount : ℤ) : Except ReadError (List Json) := do
  raiseIf (!fragment.hasKeys fragmentFields)
    "interval latency fragment is missing required fields"
  raiseIf (!hasLabels fragment) "interval latency fragment has invalid clock or schema labels"
  let durationNs ← Dict.intItem fragment "declared_measurement_duration_ns"
  raiseIf (durationNs ≤ 0) "interval latency duration must be positive"
  let expectedMaximum ← maximumRows durationNs fragment
  let maximum ← Dict.intItem fragment "maximum_rows"
  let rows ← countedRows fragment "interval latency row count differs"
  raiseIf (durationNs > 0 && rows.isEmpty) "interval latency fragment has no interval rows"
  raiseIf (maximum ≠ expectedMaximum || maximum < rows.length)
    "interval latency cardinality exceeds its declared bound"
  let lateArrivals ← Dict.intItem fragment "late_arrivals"
  raiseIf (lateArrivals ≠ 0) "interval latency fragment contains late arrivals"
  let total ← validateFragmentRows fragment rows 0 0
  let declared ← Dict.intItem fragment "aggregate_latency_count"
  raiseIf (declared ≠ aggregateCount) "interval latency aggregate declaration differs"
  raiseIf (total ≠ aggregateCount)
    ("interval latency population " ++ toString total ++ " differs from aggregate " ++
      toString aggregateCount)
  return rows

structure ResourceSample where
  timestampNs : ℤ
  cpuTimeTicks : ℤ
  rssBytes : ℤ
  processCount : ℤ
  deriving DecidableEq, Repr

structure MemorySample where
  elapsedMs : ℤ
  rssBytes : ℤ
  deriving DecidableEq, Repr

structure HostSample where
  timestampNs : ℤ
  temperatureMillicelsius : ℤ
  railProxyWatts : ℚ
  deriving DecidableEq, Repr

structure QueueSample where
  elapsedNs : ℤ
  depth : ℤ
  deriving DecidableEq, Repr

/-- What a run directory holds beside the fragment; a clock is the start its file gives. -/
structure Samples where
  ticksPerSecond : ℕ
  resourceRows : List ResourceSample := []
  memoryRows : List MemorySample := []
  memoryClock : Option ℤ := none
  telemetryRows : List HostSample := []
  queueRows : List QueueSample := []
  queueClock : Option ℤ := none
  deriving DecidableEq, Repr

def inWindow (startNs endNs timestampNs : ℤ) : Bool := startNs ≤ timestampNs && timestampNs < endNs

/-- `available(max(values))`, or unavailable where there is none. -/
def maximumOr (values : List ℤ) (reason : String) : Json :=
  match values.max? with
  | some value => available (.int value)
  | none => unavailable reason

def cpuPercent (rows live : List ResourceSample) (startNs endNs : ℤ) (ticksPerSecond : ℕ) : Json :=
  let before := rows.filter fun row => row.timestampNs ≤ startNs && 0 < row.processCount
  let after := rows.filter fun row => endNs ≤ row.timestampNs && 0 < row.processCount
  let ends :=
    match before.getLast?, after.head? with
    | some first, some last => some (first, last)
    | _, _ =>
      match live with
      | first :: second :: rest => some (first, (second :: rest).getLastD second)
      | _ => none
  match ends with
  | none => unavailable "insufficient-process-cpu-samples"
  | some (first, last) =>
    let elapsed := last.timestampNs - first.timestampNs
    let ticks := last.cpuTimeTicks - first.cpuTimeTicks
    if elapsed ≤ 0 || ticks < 0 then unavailable "invalid-process-cpu-sample-order"
    else
      let seconds := trueDiv elapsed intervalWidthNs
      available (.float (toDouble (trueDiv (trueDiv ticks ticksPerSecond) seconds * 100)))

/-- CPU and resident memory of the interval. -/
def processMetrics (rows : List ResourceSample) (startNs endNs : ℤ) (ticksPerSecond : ℕ) :
    Json × Json :=
  let selected := rows.filter fun row => inWindow startNs endNs row.timestampNs
  let live := selected.filter fun row => 0 < row.processCount
  let rssValues := (live.map (·.rssBytes)).filter (0 < ·)
  (cpuPercent rows live startNs endNs ticksPerSecond,
    maximumOr rssValues "no-valid-sut-rss-sample-in-interval")

def memoryMetric (rows : List MemorySample) (clockStartNs startNs endNs : ℤ) : Json :=
  let selected := rows.filter fun row =>
    inWindow startNs endNs (clockStartNs + row.elapsedMs * 1000000)
  maximumOr ((selected.map (·.rssBytes)).filter (0 < ·)) "no-valid-rss-sample-in-interval"

/-- Power and temperature of the interval. -/
def hostMetrics (rows : List HostSample) (startNs endNs : ℤ) : Json × Json :=
  let selected := rows.filter fun row => inWindow startNs endNs row.timestampNs
  if selected.isEmpty then
    (unavailable "no-host-telemetry-sample-in-interval",
      unavailable "no-host-telemetry-sample-in-interval")
  else
    let validPower := (selected.map (·.railProxyWatts)).filter (0 < ·)
    let validTemp := (selected.map (·.temperatureMillicelsius)).filter (0 < ·)
    (if validPower.isEmpty then unavailable "no-valid-pmic-sample-in-interval"
      else available (.float (trueDiv validPower.sum validPower.length)),
      maximumOr validTemp "no-valid-temperature-sample-in-interval")

def queueMetric (rows : List QueueSample) (clockStartNs startNs endNs : ℤ) : Json :=
  let selected := rows.filter fun row => inWindow startNs endNs (clockStartNs + row.elapsedNs)
  maximumOr (selected.map (·.depth)) "no-queue-sample-in-interval"

def isUnavailable : Json → Bool
  | .obj metric => (Dict.get? metric "status").any (Json.isStr "unavailable")
  | _ => false

/-- CPU, memory, power, temperature and queue depth of one interval, in this order. -/
structure Observed where
  cpu : Json
  rss : Json
  power : Json
  temperature : Json
  queue : Json

def cpuAndRss (s : Samples) (startNs endNs : ℤ) : Json × Json :=
  if s.resourceRows.isEmpty then
    (unavailable "process-resource-source-unavailable",
      unavailable "process-resource-source-unavailable")
  else processMetrics s.resourceRows startNs endNs s.ticksPerSecond

/-- The resident memory of the process, or else the recorded one. -/
def rssOrFallback (s : Samples) (processRss : Json) (startNs endNs : ℤ) : Json :=
  if isUnavailable processRss && !s.memoryRows.isEmpty then
    match s.memoryClock with
    | some clock => memoryMetric s.memoryRows clock startNs endNs
    | none => unavailable "memory-clock-source-unavailable"
  else processRss

def powerAndTemperature (s : Samples) (startNs endNs : ℤ) : Json × Json :=
  if s.telemetryRows.isEmpty then
    (unavailable "host-telemetry-source-unavailable",
      unavailable "host-telemetry-source-unavailable")
  else hostMetrics s.telemetryRows startNs endNs

def queueDepth (s : Samples) (startNs endNs : ℤ) : Json :=
  if s.queueRows.isEmpty then unavailable "queue-source-unavailable"
  else
    match s.queueClock with
    | some clock => queueMetric s.queueRows clock startNs endNs
    | none => unavailable "queue-clock-source-unavailable"

def observe (s : Samples) (startNs endNs : ℤ) : Observed :=
  let (cpu, processRss) := cpuAndRss s startNs endNs
  let (power, temperature) := powerAndTemperature s startNs endNs
  { cpu
    rss := rssOrFallback s processRss startNs endNs
    power
    temperature
    queue := queueDepth s startNs endNs }

def percentile (latency : Dict) (count : ℤ) (field : String) : Except ReadError Json :=
  if count ≠ 0 then do
    let value ← Dict.intItem latency field
    return available (.int value)
  else .ok (unavailable "empty-latency-interval")

def composeRow (s : Samples) (startUnixNs : ℤ) : Json → Except ReadError Json
  | .obj latency => do
    let start ← Dict.intItem latency "interval_start_ns"
    let stop ← Dict.intItem latency "interval_end_ns"
    let startNs := startUnixNs + start
    let endNs := startUnixNs + stop
    let o := observe s startNs endNs
    let count ← Dict.intItem latency "latency_count"
    let p50 ← percentile latency count "latency_p50_ns"
    let p95 ← percentile latency count "latency_p95_ns"
    let p99 ← percentile latency count "latency_p99_ns"
    let events ← Dict.intItem latency "received_events"
    let unique ← Dict.intItem latency "throughput_messages"
    let duplicates ← Dict.intItem latency "duplicates"
    return .obj [
      ("interval_start_ns", .int start),
      ("interval_end_ns", .int stop),
      ("interval_start_unix_epoch_ns", .int startNs),
      ("interval_end_unix_epoch_ns", .int endNs),
      ("latency_count", .int count),
      ("latency_p50_ns", p50),
      ("latency_p95_ns", p95),
      ("latency_p99_ns", p99),
      ("received_events", .int events),
      ("throughput_messages", .int unique),
      ("throughput_messages_per_second",
        .float (trueDiv (unique * intervalWidthNs) (stop - start))),
      ("duplicates", .int duplicates),
      ("cpu_percent", o.cpu),
      ("rss_bytes", o.rss),
      ("pmic_internal_rail_proxy_watts", o.power),
      ("temperature_millicelsius", o.temperature),
      ("queue_depth", o.queue)]
  | _ => .error .type

def composeRows (s : Samples) (startUnixNs : ℤ) : List Json → Except ReadError (List Json)
  | [] => .ok []
  | row :: rest => do
    let composed ← composeRow s startUnixNs row
    let composedRest ← composeRows s startUnixNs rest
    return composed :: composedRest

/-- The members of the fragment the document takes over. -/
def copiedFields : List String :=
  ["schema_version", "interval_clock", "alignment_clock", "alignment_clock_purpose",
    "measurement_start_unix_epoch_ns", "declared_measurement_duration_ns", "bucket_width_ns",
    "maximum_rows", "row_count", "aggregate_latency_count", "late_arrivals"]

def copyFields (fragment : Dict) : List String → Except ReadError Dict
  | [] => .ok []
  | key :: rest => do
    let value ← fragment.item key
    let copied ← copyFields fragment rest
    return (key, value) :: copied

def copyPresent (fragment : Dict) (key : String) : Dict :=
  match fragment.get? key with
  | some value => [(key, value)]
  | none => []

def sources (s : Samples) : Dict :=
  [("latency_throughput", .str "interval-latency.json")] ++
  (if s.resourceRows.isEmpty then [] else [("process", .str "resource-usage.csv")]) ++
  (if s.memoryRows.isEmpty || s.memoryClock.isNone then []
    else [("rss_fallback", .str "memory.csv")]) ++
  (if s.telemetryRows.isEmpty then [] else [("host", .str "pi-telemetry.csv")]) ++
  (if s.queueRows.isEmpty || s.queueClock.isNone then [] else [("queue", .str "queue-depth.csv")])

def estimators : Dict := [
  ("cpu_percent",
    .str "process CPU tick delta divided by resource-sample timestamp duration"),
  ("rss_bytes", .str "maximum observed RSS"),
  ("pmic_internal_rail_proxy_watts",
    .str "arithmetic mean of valid PMIC internal-rail samples"),
  ("temperature_millicelsius", .str "maximum observed temperature"),
  ("queue_depth", .str "maximum observed queue depth")]

/-- The document composed from a fragment and its validated rows. -/
def composeArtifact (s : Samples) (fragment : Dict) (latencyRows : List Json) :
    Except ReadError Dict := do
  let startUnixNs ← Dict.intItem fragment "measurement_start_unix_epoch_ns"
  let rows ← composeRows s startUnixNs latencyRows
  let copied ← copyFields fragment copiedFields
  return copied ++ copyPresent fragment "publisher_drain_ns" ++
    copyPresent fragment "drain_grace_ns" ++
    [("sample_unit", .str "interval-within-run"), ("sources", .obj (sources s)),
      ("estimators", .obj estimators), ("rows", .arr rows)]

def requiredTopLevel : List String :=
  ["schema_version", "interval_clock", "alignment_clock", "alignment_clock_purpose",
    "measurement_start_unix_epoch_ns", "declared_measurement_duration_ns", "bucket_width_ns",
    "maximum_rows", "row_count", "aggregate_latency_count", "late_arrivals", "sample_unit",
    "sources", "estimators", "rows"]

def requiredRowFields : List String :=
  ["interval_start_ns", "interval_end_ns", "interval_start_unix_epoch_ns",
    "interval_end_unix_epoch_ns", "latency_count", "latency_p50_ns", "latency_p95_ns",
    "latency_p99_ns", "received_events", "throughput_messages",
    "throughput_messages_per_second", "duplicates", "cpu_percent", "rss_bytes",
    "pmic_internal_rail_proxy_watts", "temperature_millicelsius", "queue_depth"]

def metricFields : List String :=
  ["latency_p50_ns", "latency_p95_ns", "latency_p99_ns", "cpu_percent", "rss_bytes",
    "pmic_internal_rail_proxy_watts", "temperature_millicelsius", "queue_depth"]

/-- A metric says whether it is available, with its value or the reason why not. -/
def validateMetric (row : Dict) (field : String) : Except ReadError Unit :=
  match row.get? field with
  | some (.obj metric) =>
    match Dict.get? metric "status" with
    | some (.str "available") =>
      raiseIf (Dict.get? metric "value").isNone ("interval-metrics " ++ field ++ " lacks a value")
    | some (.str "unavailable") =>
      raiseIf (!(Dict.get? metric "reason").any Json.truthy)
        ("interval-metrics " ++ field ++ " lacks an unavailable reason")
    | some (.arr _) | some (.obj _) => .error .type
    | _ => raise ("interval-metrics " ++ field ++ " must declare availability")
  | _ => raise ("interval-metrics " ++ field ++ " must declare availability")

def validateMetrics (row : Dict) : List String → Except ReadError Unit
  | [] => .ok ()
  | field :: rest => do
    validateMetric row field
    validateMetrics row rest

/-- End and latency count of a document row that passes its checks. -/
def validateMetricsRow (value : Dict) (previousEnd : ℤ) (last : Bool) :
    Json → Except ReadError (ℤ × ℤ)
  | .obj row => do
    raiseIf (!Dict.hasKeys row requiredRowFields) "interval-metrics row is missing required fields"
    let start ← Dict.intItem row "interval_start_ns"
    let stop ← Dict.intItem row "interval_end_ns"
    raiseIf (!fits start stop previousEnd last)
      "interval-metrics rows have gaps, overlap, or invalid widths"
    let origin ← Dict.intItem value "measurement_start_unix_epoch_ns"
    let startUnix ← Dict.intItem row "interval_start_unix_epoch_ns"
    let stopUnix ← Dict.intItem row "interval_end_unix_epoch_ns"
    raiseIf (startUnix ≠ origin + start || stopUnix ≠ origin + stop)
      "interval-metrics Unix alignment differs from monotonic bounds"
    let events ← Dict.intItem row "received_events"
    let unique ← Dict.intItem row "throughput_messages"
    let duplicates ← Dict.intItem row "duplicates"
    raiseIf (events ≠ unique + duplicates) "interval-metrics populations do not reconcile"
    validateMetrics row metricFields
    let count ← Dict.intItem row "latency_count"
    return (stop, count)
  | _ => raise "interval-metrics row is missing required fields"

def validateMetricsRows (value : Dict) : List Json → ℤ → ℤ → Except ReadError ℤ
  | [], _, total => .ok total
  | row :: rest, previousEnd, total => do
    let (stop, count) ← validateMetricsRow value previousEnd rest.isEmpty row
    validateMetricsRows value rest stop (total + count)

/-- No forbidden field name occurs in the serialised document. -/
def rejectForbidden (value : Dict) : List String → Except ReadError Unit
  | [] => .ok ()
  | field :: rest =>
    if Json.mentions field (.obj value) then
      raise ("interval-metrics contains forbidden field " ++ field)
    else rejectForbidden value rest

def validateIntervalMetrics (value : Dict) (aggregateCount : Option ℤ) :
    Except ReadError Unit := do
  raiseIf (!value.hasKeys requiredTopLevel) "interval-metrics is missing required fields"
  raiseIf (!hasLabels value || !(value.get? "sample_unit").any (Json.isStr "interval-within-run"))
    "interval-metrics has invalid schema or clock labels"
  let durationNs ← intOr value "declared_measurement_duration_ns" (-1)
  let maximum ← intOr value "maximum_rows" (-1)
  let expectedMaximum ← maximumRows durationNs value
  raiseIf (maximum ≠ expectedMaximum) "interval-metrics maximum rows differs from declared duration"
  let lateArrivals ← intOr value "late_arrivals" (-1)
  raiseIf (lateArrivals ≠ 0) "interval-metrics contains late arrivals"
  let rows ← countedRows value "interval-metrics row count differs"
  raiseIf (durationNs > 0 && rows.isEmpty) "interval-metrics has no interval rows"
  raiseIf (maximum < rows.length) "interval-metrics exceeds maximum rows"
  rejectForbidden value forbiddenFields
  let declaredCount ← intOr value "aggregate_latency_count" (-1)
  let aggregate := aggregateCount.getD declaredCount
  raiseIf (declaredCount ≠ aggregate) "interval-metrics aggregate declaration differs"
  let total ← validateMetricsRows value rows 0 0
  raiseIf (total ≠ aggregate)
    ("interval-metrics latency population " ++ toString total ++ " differs from aggregate " ++
      toString aggregate)

/-- Validate the fragment, compose the document, and validate that. -/
def composeIntervalMetrics (s : Samples) (fragment : Dict) (aggregateCount : ℤ) :
    Except ReadError Dict := do
  let latencyRows ← validateFragment fragment aggregateCount
  let artifact ← composeArtifact s fragment latencyRows
  validateIntervalMetrics artifact (some aggregateCount)
  return artifact

end Wafer.IntervalMetrics
