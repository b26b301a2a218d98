import Wafer.Lib.Execution
import Wafer.Loadgen.Publisher
import Wafer.Loadgen.Recorder
import Wafer.Types.Sequence

/-!
# The subscriber

`run_subscriber` with the task that polls the MQTT event loop and the stop
signal. Each step of one of them up to its next wait is one transition, and the
steps come in any order. The side artifacts (event buckets and trace file) are
left out, and so are the errors of writing a file.

## Main definitions

- `Subscriber.stepLink`, `Subscriber.stepSubscriber` — the task and the recording loop
- `Subscriber.step` — with the clock and the signals, in any order
- `Subscriber.arrivals` — the messages the task got in a run
-/

namespace Wafer

/-- `EXIT_DRAIN_SECS` of the publisher. -/
def exitDrainSecs : ℕ := 6

/-- Room in the channel between the task and the recording loop. -/
def arrivalsAhead : ℕ := 2048

/-- The pause after an error of the event loop. -/
def reconnectPause : ℕ := 200000000

structure SubscribeArgs where
  totalMessages : ℕ := 0
  sequenceExampleLimit : Option ℕ := none
  sequenceEndExclusive : Option ℕ := none
  measurementSecs : ℕ := 300
  drainGraceSecs : ℕ := 0

inductive SubscriberExit
  | eof
  | stopped (reason : StopReason)
  | totalMessages
  deriving DecidableEq, Repr

structure SubscriberReport where
  totalMessages : ℕ
  totalRecorded : ℕ
  parseErrors : ℕ
  ignoredSequences : ℕ
  totalGaps : ℕ
  totalDuplicates : ℕ
  p50Ns : ℕ
  p99Ns : ℕ
  exitReason : SubscriberExit
  deriving DecidableEq, Repr

/-- Where the task of the event loop is. -/
inductive SubscriptionPc
  | polling
  | subscribing
  /-- a message is polled, and the clocks are to be read -/
  | stamping (payload : List UInt8)
  | sending (arrival : Arrival)
  | pausing (wake : ℕ)
  | ended
  deriving DecidableEq, Repr

inductive SubscriberPc
  | recording
  /-- the token is cancelled, and the channel is emptied -/
  | draining
  | joining
  | writing
  | returned (result : Except String SubscriberReport)

/-- What the event loop yields. -/
inductive MqttEvent
  | connAck
  | publish (payload : List UInt8)
  | other
  | error
  deriving DecidableEq, Repr

inductive SubscriptionEvent
  | poll (e : MqttEvent)
  | subscribed
  | stamp (receiveNs : ℕ)
  | send
  | wake
  | cancelled
  deriving DecidableEq, Repr

inductive SubscriberEvent
  | select
  | drain
  | join
  | finish
  deriving DecidableEq, Repr

inductive SubscribeEvent
  | advance (ns : ℕ)
  | signal (reason : StopReason)
  | link (e : SubscriptionEvent)
  | subscriber (e : SubscriberEvent)
  deriving DecidableEq, Repr

structure Subscriber where
  /-- `measurement_start.elapsed()` -/
  elapsed : ℕ := 0
  signal : Option StopReason := none
  /-- the exit code of a process that a second signal has ended -/
  exited : Option ℕ := none
  link : SubscriptionPc := .polling
  queue : List Arrival := []
  shutdown : Bool := false
  recorder : LatencyRecorder
  exitReason : SubscriberExit := .eof
  measurementElapsedNs : ℕ := 0
  pc : SubscriberPc := .recording

/-- The message the task waits to put into the channel. -/
def SubscriptionPc.held : SubscriptionPc → List Arrival
  | .sending arrival => [arrival]
  | _ => []

namespace Subscriber

/-- `run_subscriber` up to its loop; the task runs from here on. -/
def start (args : SubscribeArgs) (startUnixEpochNs : ℕ) : Except String Subscriber :=
  if args.measurementSecs = 0 then .error "--measurement-secs must be greater than zero"
  else
    let recorder := LatencyRecorder.withSequenceExampleLimit args.sequenceExampleLimit
    let recorder := recorder.withSequenceEnd args.sequenceEndExclusive
    match recorder.enableIntervals startUnixEpochNs args.measurementSecs exitDrainSecs
        args.drainGraceSecs with
    | .ok recorder => .ok { recorder := recorder.anchorClock startUnixEpochNs }
    | .error e => .error e

/-- The task of the event loop. A cancelled token is seen before the next event. -/
def stepLink (s : Subscriber) (e : SubscriptionEvent) : Option Subscriber :=
  match s.link, e with
  | .polling, .cancelled => if s.shutdown then some { s with link := .ended } else none
  | .polling, .poll e =>
    if s.shutdown then none
    else
      match e with
      | .connAck => some { s with link := .subscribing }
      | .publish payload => some { s with link := .stamping payload }
      | .other => some s
      | .error => some { s with link := .pausing (s.elapsed + reconnectPause) }
  | .subscribing, .subscribed => some { s with link := .polling }
  | .stamping payload, .stamp receiveNs =>
    some { s with link := .sending ⟨payload, receiveNs, durationNs s.elapsed⟩ }
  | .sending arrival, .send =>
    if s.queue.length < arrivalsAhead then
      some { s with queue := s.queue ++ [arrival], link := .polling }
    else none
  | .pausing wake, .wake => if wake ≤ s.elapsed then some { s with link := .polling } else none
  | _, _ => none

section Recording

variable (fromSlice : List UInt8 → Option TimestampedMessage) (quantile : List Latency → ℚ → ℕ)
  (args : SubscribeArgs)

/-- `record_message`. -/
def recordMessage (s : Subscriber) (a : Arrival) : Subscriber :=
  { s with
    recorder := (s.recorder.recordJsonAt fromSlice quantile a.payload a.receiveNs a.elapsedNs).2 }

/-- A `break` of the recording loop, and the token cancelled. -/
def leave (s : Subscriber) (exitReason : SubscriberExit) : Subscriber :=
  { s with exitReason := exitReason, shutdown := true, pc := .draining }

/-- A round of the recording loop; the signal is looked at first. -/
def select (s : Subscriber) : Option Subscriber :=
  match s.signal with
  | some reason => some (s.leave (.stopped reason))
  | none =>
    match s.queue with
    | a :: queue =>
      let s := { s with queue := queue }.recordMessage fromSlice quantile a
      if 0 < args.totalMessages ∧ args.totalMessages ≤ s.recorder.sequence.unique then
        some (s.leave .totalMessages)
      else some s
    | [] => if s.link = .ended then some (s.leave s.exitReason) else none

/-- A round of the loop that empties the channel. -/
def drain (s : Subscriber) : Option Subscriber :=
  match s.queue with
  | a :: queue =>
    let s := { s with queue := queue }
    if s.exitReason = .totalMessages then some s else some (s.recordMessage fromSlice quantile a)
  | [] => if s.link = .ended then some { s with pc := .joining } else none

/-- What `run_subscriber` returns once everything is written. -/
def report (s : Subscriber) : Except String SubscriberReport :=
  if s.recorder.partialReasons ≠ [] then
    .error ("run is partial: " ++ "; ".intercalate s.recorder.partialReasons)
  else .ok {
    totalMessages := s.recorder.totalMessages
    totalRecorded := s.recorder.histogram.length
    parseErrors := s.recorder.parseErrors
    ignoredSequences := s.recorder.ignoredSequences
    totalGaps := s.recorder.sequence.missing
    totalDuplicates := s.recorder.sequence.duplicates
    p50Ns := quantile s.recorder.histogram (1 / 2)
    p99Ns := quantile s.recorder.histogram (99 / 100)
    exitReason := s.exitReason }

/-- The intervals are finalised and the artifacts are written. -/
def finish (s : Subscriber) : Subscriber :=
  let s := { s with
    recorder :=
      (s.recorder.finalizeIntervals quantile s.measurementElapsedNs).writeMeasurements.2 }
  { s with pc := .returned (s.report quantile) }

def stepSubscriber (s : Subscriber) (e : SubscriberEvent) : Option Subscriber :=
  match s.pc, e with
  | .recording, .select => s.select fromSlice quantile args
  | .draining, .drain => s.drain fromSlice quantile
  | .joining, .join =>
    if s.link = .ended then
      some { s with measurementElapsedNs := durationNs s.elapsed, pc := .writing }
    else none
  | .writing, .finish => some (s.finish quantile)
  | _, _ => none

def step (s : Subscriber) (e : SubscribeEvent) : Option Subscriber :=
  if s.exited.isSome then none
  else
    match e with
    | .advance ns => some { s with elapsed := s.elapsed + ns }
    | .signal reason =>
      match s.signal with
      | none => some { s with signal := some reason }
      | some _ => some { s with exited := some reason.exitCode }
    | .link e => s.stepLink e
    | .subscriber e => s.stepSubscriber fromSlice quantile args e

/-- The message a step has read the clocks for. -/
def stamped (s : Subscriber) : SubscribeEvent → List Arrival
  | .link (.stamp receiveNs) =>
    match s.link with
    | .stamping payload => [⟨payload, receiveNs, durationNs s.elapsed⟩]
    | _ => []
  | _ => []

/-- The messages the task got in a run, in the order they came. -/
def arrivals (s : Subscriber) (events : List SubscribeEvent) : List Arrival :=
  Lib.leftBehind (step fromSlice quantile args) stamped s events

end Recording

end Subscriber

end Wafer
