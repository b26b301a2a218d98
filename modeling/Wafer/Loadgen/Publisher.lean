import Wafer.Lib.Execution
import Wafer.Loadgen.Scheduler

/-!
# The publisher

`run_publisher` from the connection to its report, together with the thread of
`pace`, the task of `spawn_eventloop` and the stop signal. Each step of one of
them up to its next wait is one transition, and the steps come in any order.
Instants are nanoseconds of the monotonic clock, which goes on between any two
steps. The client answers a `publish` as it likes. The counters count messages of
one run and are natural numbers; the sequence number saturates.

## Main definitions

- `Publisher.stepPacer`, `Publisher.stepLink`, `Publisher.stepPublisher` — the parties
- `Publisher.step`, `Publisher.run` — with the clock and the signals, in any order
- `Publisher.Background` — what all but the publish loop leave alone
-/

namespace Wafer

/-- `PACER_AHEAD`. -/
def pacerAhead : ℕ := 64

/-- `CONNECT_TIMEOUT`. -/
def connectTimeout : ℕ := 10 * nanosPerSec

/-- `DRAIN_TIMEOUT`. -/
def drainTimeout : ℕ := 5 * nanosPerSec

/-- The first instant `Instant::checked_add` refuses. -/
def instantEnd : ℕ := 2 ^ 63 * nanosPerSec

def durationNs (duration : ℕ) : ℕ := min duration u64Max

inductive StopReason
  | sigterm
  | sigint
  deriving DecidableEq, Repr

/-- What a second signal ends the process with. -/
def StopReason.exitCode : StopReason → ℕ
  | sigterm => 143
  | sigint => 130

inductive ExitReason
  | duration
  | stopped (reason : StopReason)
  | brokerLost
  deriving DecidableEq, Repr

inductive ConnectReturnCode
  | success
  | refusedProtocolVersion
  | badClientId
  | serviceUnavailable
  | badUserNamePassword
  | notAuthorized
  deriving DecidableEq, Repr

structure LinkStats where
  connects : ℕ := 0
  acked : ℕ := 0
  connectionErrors : ℕ := 0
  refused : Option ConnectReturnCode := none
  deriving DecidableEq, Repr

/-- Why there is no report. -/
inductive ConnectError
  | refused (code : ConnectReturnCode)
  | loopStopped
  | noConnAck
  deriving DecidableEq, Repr

structure PublishArgs where
  /-- what `resolve_shape` answers -/
  shape : LoadShape
  durationSecs : ℕ
  sequenceStart : ℕ
  sequenceStart_le : sequenceStart ≤ u64Max

/-- A row of the trace file; the payload is rendered from it. -/
structure Message where
  seq : ℕ
  ts : ℕ
  deriving DecidableEq, Repr

structure PublisherReport where
  published : ℕ
  errors : ℕ
  intended : ℕ
  rejected : ℕ
  enqueued : ℕ
  acked : ℕ
  unackedAtExit : ℕ
  connects : ℕ
  connectionErrors : ℕ
  measurementDurationNs : ℕ
  deadlineMisses : ℕ
  elapsedMs : ℕ
  exitReason : ExitReason
  deriving DecidableEq, Repr

inductive PacerPc
  /-- before the thread is spawned -/
  | unborn
  | computing
  | sleeping (offset : ℕ)
  | sending (tick : ℕ × ℕ)
  | returned
  deriving DecidableEq, Repr

inductive PublisherPc
  | connecting (deadline : ℕ)
  /-- at the `select!` on the next tick -/
  | waiting
  /-- at the `select!` on `enqueue_publish` -/
  | publishing (tick : ℕ × ℕ) (message : Message)
  | enqueued (tick : ℕ × ℕ) (message : Message) (accepted : Bool)
  | checking (tick : ℕ × ℕ) (accepted : Bool)
  | flushing
  | draining (deadline : ℕ)
  | drained
  | disconnecting (stats : LinkStats)
  | returned (result : Except ConnectError PublisherReport)
  deriving DecidableEq

/-- The row that is still to be written. -/
def PublisherPc.unbooked : PublisherPc → List Message
  | .enqueued _ message _ => [message]
  | _ => []

/-- A message the client has accepted. -/
structure Handed where
  message : Message
  offset : ℕ
  /-- since the start -/
  elapsed : ℕ
  deriving DecidableEq, Repr

structure Publisher where
  now : ℕ
  signal : Option StopReason := none
  /-- the exit code of a process that a second signal has ended -/
  exited : Option ℕ := none
  link : LinkStats := {}
  /-- the event loop has returned -/
  linkGone : Bool := false
  pc : PublisherPc
  start : ℕ := 0
  startedNs : ℕ := 0
  duration : ℕ := 0
  scheduler : Scheduler
  pacer : PacerPc := .unborn
  /-- the ticks in the channel -/
  due : List (ℕ × ℕ) := []
  dueClosed : Bool := false
  seq : ℕ
  offered : ℕ := 0
  errors : ℕ := 0
  deadlineMisses : ℕ := 0
  exitReason : ExitReason := .duration
  trace : List Message := []
  handed : List Handed := []
  /-- what `record_lag` was given -/
  lags : List ℕ := []
  deriving DecidableEq

inductive LinkEvent
  | connAck
  | pubAck
  | error
  | refused (code : ConnectReturnCode)
  | ended
  deriving DecidableEq, Repr

inductive PublisherEvent
  | connect (startedNs : ℕ)
  | receive
  | answer (accepted : Bool)
  | book
  /-- `lost`: `has_changed` finds the channel closed -/
  | check (lost : Bool)
  | flush
  | drain
  | borrow
  | finish
  deriving DecidableEq, Repr

inductive PublishEvent
  | advance (ns : ℕ)
  | signal (reason : StopReason)
  | link (e : LinkEvent)
  | pacer
  | publisher (e : PublisherEvent)
  deriving DecidableEq, Repr

namespace Publisher

def init (args : PublishArgs) (now : ℕ) : Publisher where
  now := now
  pc := .connecting (now + connectTimeout)
  scheduler := .new args.shape
  seq := args.sequenceStart

/-- What `spawn_eventloop` publishes of an event. -/
def stepLink (s : Publisher) : LinkEvent → Publisher
  | .connAck => { s with link := { s.link with connects := s.link.connects + 1 } }
  | .pubAck => { s with link := { s.link with acked := s.link.acked + 1 } }
  | .error => { s with link := { s.link with connectionErrors := s.link.connectionErrors + 1 } }
  | .refused code => { s with link := { s.link with refused := some code }, linkGone := true }
  | .ended => { s with linkGone := true }

/-- The thread of `pace`. -/
def stepPacer (s : Publisher) : Option Publisher :=
  match s.pacer with
  | .unborn | .returned => none
  | .computing =>
    let (offset, scheduler) := s.scheduler.step
    if s.duration ≤ offset then some { s with scheduler := scheduler, pacer := .returned }
    else if s.start + offset < instantEnd ∧ s.now ≤ s.start + offset then
      some { s with scheduler := scheduler, pacer := .sleeping offset }
    else some { s with scheduler := scheduler, pacer := .sending (offset, scheduler.peek) }
  | .sleeping offset =>
    if s.start + offset ≤ s.now then
      some { s with pacer := .sending (offset, s.scheduler.peek) }
    else none
  | .sending tick =>
    if s.dueClosed then some { s with pacer := .returned }
    else if s.due.length < pacerAhead then
      some { s with due := s.due ++ [tick], pacer := .computing }
    else none

/-- The loop is entered, with the pacer spawned. -/
def begin (s : Publisher) (startedNs durationSecs : ℕ) (exitReason : ExitReason) : Publisher :=
  { s with
    start := s.now, startedNs := startedNs, duration := durationSecs * nanosPerSec,
    exitReason := exitReason, pacer := .computing, pc := .waiting }

/-- `wait_for_connack`, and what follows up to the loop. -/
def connect (args : PublishArgs) (s : Publisher) (deadline startedNs : ℕ) : Option Publisher :=
  match s.signal with
  | some reason => some (s.begin startedNs 0 (.stopped reason))
  | none =>
    if 0 < s.link.connects ∨ s.link.refused ≠ none then
      match s.link.refused with
      | some code => some { s with pc := .returned (.error (.refused code)) }
      | none => some (s.begin startedNs args.durationSecs .duration)
    else if s.linkGone then some { s with pc := .returned (.error .loopStopped) }
    else if deadline ≤ s.now then some { s with pc := .returned (.error .noConnAck) }
    else none

/-- A `break` with `drop(due)`. -/
def leave (s : Publisher) (exitReason : ExitReason) : Publisher :=
  { s with exitReason := exitReason, due := [], dueClosed := true, pc := .flushing }

def receive (s : Publisher) : Option Publisher :=
  match s.signal with
  | some reason => some (s.leave (.stopped reason))
  | none =>
    match s.due with
    | tick :: due =>
      let message : Message := ⟨s.seq, satAdd s.startedNs (durationNs tick.1)⟩
      some { s with due := due, pc := .publishing tick message }
    | [] => if s.pacer = .returned then some (s.leave s.exitReason) else none

/-- The client has answered, unless the signal is seen first. -/
def answer (s : Publisher) (tick : ℕ × ℕ) (message : Message) (accepted : Bool) : Publisher :=
  match s.signal with
  | some reason => s.leave (.stopped reason)
  | none =>
    { s with
      handed :=
        if accepted then s.handed ++ [⟨message, tick.1, s.now - s.start⟩] else s.handed
      pc := .enqueued tick message accepted }

def book (s : Publisher) (tick : ℕ × ℕ) (message : Message) (accepted : Bool) : Publisher :=
  { s with
    lags := if accepted then s.lags ++ [durationNs (s.now - s.start - tick.1)] else s.lags
    trace := s.trace ++ [message]
    pc := .checking tick accepted }

def check (s : Publisher) (tick : ℕ × ℕ) (accepted lost : Bool) : Publisher :=
  if accepted = false ∧ lost then s.leave .brokerLost
  else
    { s with
      errors := if accepted then s.errors else s.errors + 1
      deadlineMisses :=
        if tick.2 ≤ s.now - s.start then s.deadlineMisses + 1 else s.deadlineMisses
      seq := satAdd s.seq 1
      offered := s.offered + 1
      pc := .waiting }

/-- Messages handed to the client. -/
def enqueued (s : Publisher) : ℕ := s.offered - s.errors

def drain (s : Publisher) (deadline : ℕ) : Option Publisher :=
  if s.exitReason = .duration then
    match s.signal with
    | some reason => some { s with exitReason := .stopped reason, pc := .drained }
    | none =>
      if s.enqueued ≤ s.link.acked ∨ s.linkGone ∨ deadline ≤ s.now then
        some { s with pc := .drained }
      else none
  else some { s with pc := .drained }

def report (s : Publisher) (stats : LinkStats) : PublisherReport where
  published := s.offered
  errors := s.errors
  intended := s.offered
  rejected := s.errors
  enqueued := s.enqueued
  acked := stats.acked
  unackedAtExit := s.enqueued - stats.acked
  connects := stats.connects
  connectionErrors := stats.connectionErrors
  measurementDurationNs := durationNs s.duration
  deadlineMisses := s.deadlineMisses
  elapsedMs := min ((s.now - s.start) / 1000000) u64Max
  exitReason := s.exitReason

def stepPublisher (args : PublishArgs) (s : Publisher) (e : PublisherEvent) : Option Publisher :=
  match s.pc, e with
  | .connecting deadline, .connect startedNs => s.connect args deadline startedNs
  | .waiting, .receive => s.receive
  | .publishing tick message, .answer accepted => some (s.answer tick message accepted)
  | .enqueued tick message accepted, .book => some (s.book tick message accepted)
  | .checking tick accepted, .check lost =>
    if lost → s.linkGone then some (s.check tick accepted lost) else none
  | .flushing, .flush => some { s with pc := .draining (s.now + drainTimeout) }
  | .draining deadline, .drain => s.drain deadline
  | .drained, .borrow => some { s with pc := .disconnecting s.link }
  | .disconnecting stats, .finish => some { s with pc := .returned (.ok (s.report stats)) }
  | _, _ => none

def step (args : PublishArgs) (s : Publisher) (e : PublishEvent) : Option Publisher :=
  if s.exited.isSome then none
  else
    match e with
    | .advance ns => some { s with now := s.now + ns }
    | .signal reason =>
      match s.signal with
      | none => some { s with signal := some reason }
      | some _ => some { s with exited := some reason.exitCode }
    | .link e => if s.linkGone then none else some (s.stepLink e)
    | .pacer => s.stepPacer
    | .publisher e => s.stepPublisher args e

def run (args : PublishArgs) (now : ℕ) (events : List PublishEvent) : Option Publisher :=
  Lib.exec (step args) (init args now) events

end Publisher

namespace Publisher

variable {args : PublishArgs} {s s' : Publisher}

/-! ## Steps around the publish loop -/

/-- What the pacer, the event loop, the clock and the signals leave alone. -/
structure Background (s t : Publisher) : Prop where
  now : s.now ≤ t.now
  acked : s.link.acked ≤ t.link.acked
  signal : ∀ reason, s.signal = some reason → t.signal = some reason
  linkGone : s.linkGone = true → t.linkGone = true
  pc : t.pc = s.pc
  start : t.start = s.start
  startedNs : t.startedNs = s.startedNs
  duration : t.duration = s.duration
  unborn : t.pacer = .unborn ↔ s.pacer = .unborn
  dueClosed : t.dueClosed = s.dueClosed
  seq : t.seq = s.seq
  offered : t.offered = s.offered
  errors : t.errors = s.errors
  deadlineMisses : t.deadlineMisses = s.deadlineMisses
  exitReason : t.exitReason = s.exitReason
  trace : t.trace = s.trace
  handed : t.handed = s.handed
  lags : t.lags = s.lags

theorem stepPacer_frame (h : s.stepPacer = some s') : s.pacer ≠ .unborn ∧ s'.pacer ≠ .unborn ∧
    ∃ scheduler pacer due, s' = { s with scheduler := scheduler, pacer := pacer, due := due } := by
  unfold stepPacer at h
  cases hp : s.pacer with
  | unborn => simp [hp] at h
  | returned => simp [hp] at h
  | computing =>
    simp only [hp] at h
    refine ⟨by simp, ?_⟩
    split_ifs at h <;> obtain rfl := Option.some.inj h <;> exact ⟨by simp, _, _, _, rfl⟩
  | sleeping offset =>
    simp only [hp] at h
    refine ⟨by simp, ?_⟩
    split_ifs at h
    obtain rfl := Option.some.inj h
    exact ⟨by simp, _, _, _, rfl⟩
  | sending tick =>
    simp only [hp] at h
    refine ⟨by simp, ?_⟩
    split_ifs at h <;> obtain rfl := Option.some.inj h <;> exact ⟨by simp, _, _, _, rfl⟩

theorem step_running {e : PublishEvent} (h : step args s e = some s') : s.exited = none := by
  by_contra hx
  unfold step at h
  rw [if_pos (Option.isSome_iff_ne_none.mpr hx)] at h
  cases h

theorem step_background {e : PublishEvent} (h : step args s e = some s')
    (he : ∀ x, e ≠ .publisher x) : s.Background s' := by
  have hx := step_running h
  cases e with
  | advance ns =>
    simp only [step, hx] at h
    obtain rfl := Option.some.inj h
    constructor <;>
      first | exact Nat.le_add_right _ _ | exact le_rfl | exact id | exact fun _ => id | rfl
  | signal reason =>
    cases hs : s.signal with
    | none =>
      simp only [step, hx, hs] at h
      obtain rfl := Option.some.inj h
      constructor <;> first | exact le_rfl | exact id | rfl | skip
      intro reason hr
      cases hs.symm.trans hr
    | some first =>
      simp only [step, hx, hs] at h
      obtain rfl := Option.some.inj h
      constructor <;> first | exact le_rfl | exact id | exact fun _ => hs.symm.trans | rfl
  | link e =>
    simp only [step, hx, Option.isSome_none, Bool.false_eq_true, if_false] at h
    split_ifs at h
    obtain rfl := Option.some.inj h
    cases e <;> constructor <;>
      first | exact le_rfl | exact Nat.le_succ _ | exact id | exact fun _ => id |
        exact fun _ => rfl | rfl
  | pacer =>
    simp only [step, hx] at h
    obtain ⟨hp, hp', scheduler, pacer, due, rfl⟩ := stepPacer_frame h
    constructor <;>
      first | exact le_rfl | exact id | exact fun _ => id |
        exact ⟨fun hu => absurd hu hp', fun hu => absurd hu hp⟩ | rfl
  | publisher x => exact absurd rfl (he x)

end Publisher

end Wafer
