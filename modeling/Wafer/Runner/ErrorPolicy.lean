import Mathlib.Data.List.Basic
import Wafer.Queue.Envelope
import Wafer.Node.Metrics
import Wafer.Types.Measurement

/-!
# Error policy: retry buffer, backoff and dead letters

`ErrorPolicyExecutor` decides what happens to an envelope whose guest call
failed. The dead-letter channel is shared with other tasks, so the answer of
each `try_send` (and the wall clock stamped on the record) is an input, a
`DlqAttempt`; the sender keeps the records the channel accepted.

## Main definitions

- `RetryBuffer.nextReady`, `ErrorPolicyExecutor.handle`, `tryRetry`, `sendToDlq`
- `ErrorPolicyExecutor.flushToDlq`, `recordCondemned`, `continueAfterPolicyAction`
-/

namespace Wafer

/-- Upper bound on a backoff delay, in milliseconds. -/
def maxBackoffMs : Nat := 30000

def nsPerMs : Nat := 1000000

structure DlqEnvelope where
  timestamp : Nat
  sourceNode : String
  errorCategory : Option ErrorCategory
  errorMessage : String
  retryCount : Nat
  reason : DlqReason
  original : RuntimeEnvelope
  traceId : Option String
  parentId : Option String
  deriving DecidableEq, Repr

structure RetryEntry where
  envelope : RuntimeEnvelope
  category : ErrorCategory
  retryCount : Nat
  nextAttemptAt : Nat
  deriving DecidableEq, Repr

structure RetryBuffer where
  entries : List RetryEntry
  capacity : Nat
  deriving DecidableEq, Repr

namespace RetryBuffer

def new (capacity : Nat) : RetryBuffer := ⟨[], capacity⟩

def isFull (b : RetryBuffer) : Bool := decide (b.capacity ≤ b.entries.length)

def push (b : RetryBuffer) (entry : RetryEntry) : RetryBuffer :=
  { b with entries := b.entries ++ [entry] }

/-- The first entry, with its position, among those with the earliest deadline that is due. -/
def earliestDue (now : Nat) (b : RetryBuffer) : Option (RetryEntry × Nat) :=
  (b.entries.zipIdx.filter fun p => decide (p.1.nextAttemptAt ≤ now)).minOn? fun p =>
    p.1.nextAttemptAt

/-- Take out the due entry with the earliest deadline. -/
def nextReady (b : RetryBuffer) (now : Nat) : Option (RuntimeEnvelope × RetryBuffer) :=
  (b.earliestDue now).map fun p => (p.1.envelope, { b with entries := b.entries.eraseIdx p.2 })

def nextDeadline (b : RetryBuffer) : Option Nat := (b.entries.map RetryEntry.nextAttemptAt).min?

end RetryBuffer

inductive ResolvedSimpleAction
  | skip
  | dlq
  | teardown
  deriving DecidableEq, Repr

structure ResolvedRetryConfig where
  retries : Nat
  backoffMs : Nat
  exhausted : ResolvedSimpleAction
  deriving DecidableEq, Repr

structure ResolvedErrorPolicy where
  badInput : ResolvedSimpleAction
  dependencyFailed : ResolvedRetryConfig
  processingFailed : ResolvedRetryConfig
  timedOut : ResolvedSimpleAction
  retryBufferCapacity : Nat
  deriving DecidableEq, Repr

inductive ErrorPolicyAction
  | retried
  | dlqSent
  | skipped
  | exhaustedSkip
  | teardown
  | dlqFull
  | dlqClosed
  deriving DecidableEq, Repr

/-- Answer of a bounded channel to `try_send`. -/
inductive TrySend
  | ok
  | full
  | closed
  deriving DecidableEq, Repr

structure DlqAttempt where
  timestamp : Nat
  answer : TrySend
  deriving DecidableEq, Repr

/-- A node's sender into the dead-letter channel, with the records it got accepted. -/
structure DlqSender where
  accepted : List DlqEnvelope := []
  deriving DecidableEq, Repr

structure ErrorPolicyExecutor where
  config : ResolvedErrorPolicy
  retryBuffer : RetryBuffer
  dlqSender : Option DlqSender
  sourceNode : String
  deriving DecidableEq, Repr

namespace ErrorPolicyExecutor

def new (config : ResolvedErrorPolicy) (dlqSender : Option DlqSender) (sourceNode : String) :
    ErrorPolicyExecutor :=
  ⟨config, .new config.retryBufferCapacity, dlqSender, sourceNode⟩

def pendingRetries (ex : ErrorPolicyExecutor) : Nat := ex.retryBuffer.entries.length

def retryConfig (ex : ErrorPolicyExecutor) : ErrorCategory → ResolvedRetryConfig
  | .dependencyFailed => ex.config.dependencyFailed
  | _ => ex.config.processingFailed

/-- Backoff before retry number `retryCount`, in nanoseconds. -/
def computeBackoff (ex : ErrorPolicyExecutor) (category : ErrorCategory) (retryCount : Nat) : Nat :=
  let exponent := min (retryCount - 1) 20
  let ms := min ((ex.retryConfig category).backoffMs * 2 ^ exponent) u64Max
  min ms maxBackoffMs * nsPerMs

def sendToDlq (ex : ErrorPolicyExecutor) (attempt : DlqAttempt) (envelope : RuntimeEnvelope)
    (category : Option ErrorCategory) (errorMessage : String) (retryCount : Nat)
    (reason : DlqReason) : ErrorPolicyAction × ErrorPolicyExecutor :=
  match ex.dlqSender with
  | none => (.dlqClosed, ex)
  | some sender =>
    let record : DlqEnvelope :=
      { timestamp := attempt.timestamp, sourceNode := ex.sourceNode, errorCategory := category,
        errorMessage, retryCount, reason, original := envelope,
        traceId := envelope.lineage.traceId, parentId := envelope.lineage.parentId }
    match attempt.answer with
    | .ok => (.dlqSent, { ex with dlqSender := some ⟨sender.accepted ++ [record]⟩ })
    | .full => (.dlqFull, ex)
    | .closed => (.dlqClosed, ex)

/-- Buffer the envelope for another attempt, or apply the terminal action. -/
def tryRetry (ex : ErrorPolicyExecutor) (now : Nat) (attempt : DlqAttempt)
    (envelope : RuntimeEnvelope) (category : ErrorCategory) (errorMessage : String) :
    ErrorPolicyAction × ErrorPolicyExecutor :=
  let retryConfig := ex.retryConfig category
  let current := envelope.retryCount
  if retryConfig.retries ≤ current then
    match retryConfig.exhausted with
    | .skip => (.exhaustedSkip, ex)
    | .dlq => ex.sendToDlq attempt envelope (some category) errorMessage current
        (.retriesExhausted retryConfig.retries)
    | .teardown => (.teardown, ex)
  else if ex.retryBuffer.isFull then
    ex.sendToDlq attempt envelope (some category) errorMessage current .retryBufferFull
  else
    let next := min (current+1) u32Max
    let entry : RetryEntry :=
      { envelope := { envelope with retryCount := next }, category, retryCount := next,
        nextAttemptAt := now + ex.computeBackoff category next }
    (.retried, { ex with retryBuffer := ex.retryBuffer.push entry })

def timedOut (ex : ErrorPolicyExecutor) (attempt : DlqAttempt) (envelope : RuntimeEnvelope)
    (errorMessage : String) : ErrorPolicyAction × ErrorPolicyExecutor :=
  match ex.config.timedOut with
  | .skip => (.skipped, ex)
  | .dlq => ex.sendToDlq attempt envelope (some .timedOut) errorMessage 0 .timedOut
  | .teardown => (.teardown, ex)

/-- Dispatch an error according to its category. -/
def handle (ex : ErrorPolicyExecutor) (now : Nat) (attempt : DlqAttempt)
    (error : WasmProcessError) (envelope : RuntimeEnvelope) :
    ErrorPolicyAction × ErrorPolicyExecutor :=
  match error with
  | .badInput message =>
    match ex.config.badInput with
    | .skip => (.skipped, ex)
    | .dlq => ex.sendToDlq attempt envelope (some .badInput) message 0 .badInput
    | .teardown => (.teardown, ex)
  | .dependencyFailed message => ex.tryRetry now attempt envelope .dependencyFailed message
  | .processingFailed message => ex.tryRetry now attempt envelope .processingFailed message
  | .timedOut => ex.timedOut attempt envelope error.toString
  | .trapped _ _ =>
    if error.isBudgetExhausted then ex.timedOut attempt envelope error.toString
    else (.teardown, ex)
  | .unrecoverable _ => (.teardown, ex)

def nextReadyRetry (ex : ErrorPolicyExecutor) (now : Nat) :
    Option (RuntimeEnvelope × ErrorPolicyExecutor) :=
  (ex.retryBuffer.nextReady now).map fun p => (p.1, { ex with retryBuffer := p.2 })

def nextRetryDeadline (ex : ErrorPolicyExecutor) : Option Nat := ex.retryBuffer.nextDeadline

/-- The counter a flushed or condemned envelope ends in. -/
def recordDlqFate (action : ErrorPolicyAction) (metrics : NodeMetrics) : NodeMetrics :=
  match action with
  | .dlqSent => metrics.recordDlqSent
  | _ => metrics.recordDlqLost

/-- Send drained entries one after another; `attempts k` is the answer to the `k`-th. -/
def flushEntries (reason : DlqReason) : List RetryEntry → (Nat → DlqAttempt) →
    ErrorPolicyExecutor → NodeMetrics → ErrorPolicyExecutor × NodeMetrics
  | [], _, ex, metrics => (ex, metrics)
  | entry :: entries, attempts, ex, metrics =>
    let sent := ex.sendToDlq (attempts 0) entry.envelope (some entry.category) ""
      entry.retryCount reason
    flushEntries reason entries (fun k => attempts (k+1)) sent.2 (recordDlqFate sent.1 metrics)

/-- Flush all pending retries: the node exits, adopted a replacement or could not be rebuilt. -/
def flushToDlq (ex : ErrorPolicyExecutor) (reason : DlqReason) (attempts : Nat → DlqAttempt)
    (metrics : NodeMetrics) : ErrorPolicyExecutor × NodeMetrics :=
  flushEntries reason ex.retryBuffer.entries attempts
    { ex with retryBuffer := { ex.retryBuffer with entries := [] } } metrics

/-- Record a message whose instance is being replaced. -/
def recordCondemned (ex : ErrorPolicyExecutor) (attempt : DlqAttempt) (envelope : RuntimeEnvelope)
    (error : WasmProcessError) (metrics : NodeMetrics) : ErrorPolicyExecutor × NodeMetrics :=
  match ex.dlqSender with
  | none => (ex, metrics.recordDroppedOnRecovery)
  | some _ =>
    let reason := match error.trapKind with
      | some kind => DlqReason.trapped kind
      | none => .unrecoverable
    let sent := ex.sendToDlq attempt envelope error.guestCategory error.toString 0 reason
    (sent.2, recordDlqFate sent.1 metrics)

end ErrorPolicyExecutor

/-- Count the policy's action; `false` means the runner stops. -/
def continueAfterPolicyAction (action : ErrorPolicyAction) (metrics : NodeMetrics) :
    Bool × NodeMetrics :=
  match action with
  | .retried => (true, metrics.recordRetry)
  | .dlqSent => (true, metrics.recordDlqSent)
  | .skipped => (true, metrics.recordSkipped)
  | .exhaustedSkip => (true, metrics.recordExhaustedSkip)
  | .dlqFull => (true, metrics.recordDlqLost)
  | .dlqClosed => (true, metrics.recordDlqLost)
  | .teardown => (false, metrics.recordDroppedOnTeardown)

namespace RetryBuffer

/-- The entry handed out was in the buffer, and the rest of the buffer stays as it was. -/
theorem nextReady_perm {b b' : RetryBuffer} {now : Nat} {envelope : RuntimeEnvelope}
    (h : b.nextReady now = some (envelope, b')) :
    ∃ entry, entry.envelope = envelope ∧ entry.nextAttemptAt ≤ now ∧
      b'.capacity = b.capacity ∧ (entry :: b'.entries).Perm b.entries := by
  obtain ⟨⟨entry, index⟩, hp, he⟩ := Option.map_eq_some_iff.mp h
  obtain ⟨rfl, rfl⟩ := Prod.mk.inj he
  have hmem := List.minOn?_mem hp
  rw [List.mem_filter] at hmem
  obtain ⟨hi, hget⟩ := List.mem_zipIdx' hmem.1
  refine ⟨entry, rfl, of_decide_eq_true hmem.2, rfl, ?_⟩
  rw [hget]
  exact List.getElem_cons_eraseIdx_perm hi

theorem nextReady_length {b b' : RetryBuffer} {now : Nat} {envelope : RuntimeEnvelope}
    (h : b.nextReady now = some (envelope, b')) : b'.entries.length + 1 = b.entries.length := by
  obtain ⟨entry, -, -, -, hp⟩ := nextReady_perm h
  simpa using hp.length_eq

end RetryBuffer

namespace ErrorPolicyExecutor

variable {ex : ErrorPolicyExecutor} {attempt : DlqAttempt} {envelope : RuntimeEnvelope}
  {category : Option ErrorCategory} {message : String} {count now : Nat} {reason : DlqReason}

/-- A dead-letter attempt touches nothing but the sender's record of accepted envelopes. -/
theorem sendToDlq_frame (ex : ErrorPolicyExecutor) (attempt : DlqAttempt)
    (envelope : RuntimeEnvelope) (category : Option ErrorCategory) (message : String)
    (count : Nat) (reason : DlqReason) :
    (ex.sendToDlq attempt envelope category message count reason).2.retryBuffer = ex.retryBuffer ∧
    (ex.sendToDlq attempt envelope category message count reason).2.config = ex.config := by
  unfold sendToDlq
  split
  · exact ⟨rfl, rfl⟩
  · dsimp only
    split <;> exact ⟨rfl, rfl⟩

theorem sendToDlq_action (ex : ErrorPolicyExecutor) (attempt : DlqAttempt)
    (envelope : RuntimeEnvelope) (category : Option ErrorCategory) (message : String)
    (count : Nat) (reason : DlqReason) :
    (ex.sendToDlq attempt envelope category message count reason).1 = .dlqSent ∨
    (ex.sendToDlq attempt envelope category message count reason).1 = .dlqFull ∨
    (ex.sendToDlq attempt envelope category message count reason).1 = .dlqClosed := by
  unfold sendToDlq
  split
  · exact .inr (.inr rfl)
  · dsimp only
    split
    · exact .inl rfl
    · exact .inr (.inl rfl)
    · exact .inr (.inr rfl)

@[simp] theorem sendToDlq_pending :
    (ex.sendToDlq attempt envelope category message count reason).2.pendingRetries =
      ex.pendingRetries :=
  congrArg (fun b => b.entries.length) (sendToDlq_frame ex attempt envelope category message _ _).1

/-- What a policy decision does to the envelope: it is buffered once with its count raised, or
the executor's buffer is left alone and the action is not `retried`. -/
inductive Decided (ex : ErrorPolicyExecutor) (envelope : RuntimeEnvelope)
    (r : ErrorPolicyAction × ErrorPolicyExecutor) : Prop
  | buffered (entry : RetryEntry) (action : r.1 = .retried)
      (raised : entry.envelope = { envelope with retryCount := min (envelope.retryCount+1) u32Max })
      (entries : r.2.retryBuffer = ex.retryBuffer.push entry)
  | decided (action : r.1 ≠ .retried) (entries : r.2.retryBuffer = ex.retryBuffer)

theorem sendToDlq_decided (ex : ErrorPolicyExecutor) (attempt : DlqAttempt)
    (envelope : RuntimeEnvelope) (category : Option ErrorCategory) (message : String)
    (count : Nat) (reason : DlqReason) :
    Decided ex envelope (ex.sendToDlq attempt envelope category message count reason) := by
  refine .decided ?_ (sendToDlq_frame ex attempt envelope category message count reason).1
  rcases sendToDlq_action ex attempt envelope category message count reason with h | h | h <;>
    rw [h] <;> decide

theorem tryRetry_decided (ex : ErrorPolicyExecutor) (now : Nat) (attempt : DlqAttempt)
    (envelope : RuntimeEnvelope) (category : ErrorCategory) (message : String) :
    Decided ex envelope (ex.tryRetry now attempt envelope category message) := by
  unfold tryRetry
  dsimp only
  split
  · split
    · exact .decided nofun rfl
    · exact sendToDlq_decided ..
    · exact .decided nofun rfl
  · split
    · exact sendToDlq_decided ..
    · exact .buffered _ rfl rfl rfl

theorem timedOut_decided (ex : ErrorPolicyExecutor) (attempt : DlqAttempt)
    (envelope : RuntimeEnvelope) (message : String) :
    Decided ex envelope (ex.timedOut attempt envelope message) := by
  simp only [timedOut]
  split
  · exact .decided nofun rfl
  · exact sendToDlq_decided ..
  · exact .decided nofun rfl

theorem handle_decided (ex : ErrorPolicyExecutor) (now : Nat) (attempt : DlqAttempt)
    (error : WasmProcessError) (envelope : RuntimeEnvelope) :
    Decided ex envelope (ex.handle now attempt error envelope) := by
  cases error with
  | badInput message =>
    simp only [handle]
    split
    · exact .decided nofun rfl
    · exact sendToDlq_decided ..
    · exact .decided nofun rfl
  | dependencyFailed message => exact tryRetry_decided ..
  | processingFailed message => exact tryRetry_decided ..
  | timedOut => exact timedOut_decided ..
  | trapped code message =>
    simp only [handle]
    split
    · exact timedOut_decided ..
    · exact .decided nofun rfl
  | unrecoverable message => exact .decided nofun rfl

/-- A handled failure is buffered or settled, exactly once. -/
theorem handle_accounted (ex : ErrorPolicyExecutor) (now : Nat) (attempt : DlqAttempt)
    (error : WasmProcessError) (envelope : RuntimeEnvelope) (m : NodeMetrics) :
    (continueAfterPolicyAction (ex.handle now attempt error envelope).1 m).2.settled +
        (ex.handle now attempt error envelope).2.pendingRetries =
      m.settled + ex.pendingRetries + 1 := by
  generalize hr : ex.handle now attempt error envelope = r
  cases hr ▸ handle_decided ex now attempt error envelope with
  | buffered entry action raised entries =>
    simp only [action, continueAfterPolicyAction, NodeMetrics.settled_recordRetry, pendingRetries,
      entries, RetryBuffer.push, List.length_append, List.length_singleton]
    omega
  | decided action entries =>
    have hp : r.2.pendingRetries = ex.pendingRetries := by simp only [pendingRetries, entries]
    rw [hp]
    cases ha : r.1 <;> simp [ha, continueAfterPolicyAction] at action ⊢ <;> omega

theorem recordDlqFate_settled (action : ErrorPolicyAction) (m : NodeMetrics) :
    (recordDlqFate action m).settled = m.settled+1 := by
  simp only [recordDlqFate]
  split <;> simp

theorem recordDlqFate_calls (action : ErrorPolicyAction) (m : NodeMetrics) :
    m.CallsUnchanged (recordDlqFate action m) := by
  simp only [recordDlqFate]
  split <;> exact ⟨rfl, rfl, rfl, rfl, rfl⟩

theorem continueAfterPolicyAction_calls (action : ErrorPolicyAction) (m : NodeMetrics) :
    m.CallsUnchanged (continueAfterPolicyAction action m).2 := by
  cases action <;> exact ⟨rfl, rfl, rfl, rfl, rfl⟩

theorem flushEntries_spec (reason : DlqReason) (entries : List RetryEntry)
    (attempts : Nat → DlqAttempt) (ex : ErrorPolicyExecutor) (m : NodeMetrics) :
    (flushEntries reason entries attempts ex m).1.retryBuffer = ex.retryBuffer ∧
    (flushEntries reason entries attempts ex m).2.settled = m.settled + entries.length ∧
    m.CallsUnchanged (flushEntries reason entries attempts ex m).2 := by
  induction entries generalizing attempts ex m with
  | nil => exact ⟨rfl, rfl, .refl m⟩
  | cons entry entries ih =>
    simp only [flushEntries]
    obtain ⟨hb, hs, hc⟩ := ih (fun k => attempts (k+1))
      (ex.sendToDlq (attempts 0) entry.envelope (some entry.category) "" entry.retryCount reason).2
      (recordDlqFate (ex.sendToDlq (attempts 0) entry.envelope (some entry.category) ""
        entry.retryCount reason).1 m)
    refine ⟨hb.trans (sendToDlq_frame ..).1, ?_, (recordDlqFate_calls _ m).trans hc⟩
    rw [hs, recordDlqFate_settled, List.length_cons]
    omega

/-- A flush empties the buffer and settles every entry it held. -/
theorem flushToDlq_spec (ex : ErrorPolicyExecutor) (reason : DlqReason)
    (attempts : Nat → DlqAttempt) (m : NodeMetrics) :
    (ex.flushToDlq reason attempts m).1.retryBuffer = { ex.retryBuffer with entries := [] } ∧
    (ex.flushToDlq reason attempts m).2.settled = m.settled + ex.pendingRetries ∧
    m.CallsUnchanged (ex.flushToDlq reason attempts m).2 :=
  flushEntries_spec reason ex.retryBuffer.entries attempts _ m

theorem flushToDlq_pending (ex : ErrorPolicyExecutor) (reason : DlqReason)
    (attempts : Nat → DlqAttempt) (m : NodeMetrics) :
    (ex.flushToDlq reason attempts m).1.pendingRetries = 0 := by
  simp only [pendingRetries, (ex.flushToDlq_spec reason attempts m).1, List.length_nil]

/-- A condemned envelope is settled once and the buffer is left alone. -/
theorem recordCondemned_spec (ex : ErrorPolicyExecutor) (attempt : DlqAttempt)
    (envelope : RuntimeEnvelope) (error : WasmProcessError) (m : NodeMetrics) :
    (ex.recordCondemned attempt envelope error m).1.retryBuffer = ex.retryBuffer ∧
    (ex.recordCondemned attempt envelope error m).2.settled = m.settled+1 ∧
    m.CallsUnchanged (ex.recordCondemned attempt envelope error m).2 := by
  simp only [recordCondemned]
  split
  · exact ⟨rfl, by simp, ⟨rfl, rfl, rfl, rfl, rfl⟩⟩
  · exact ⟨(sendToDlq_frame ..).1, recordDlqFate_settled _ m, recordDlqFate_calls _ m⟩

theorem nextReadyRetry_spec {ex' : ErrorPolicyExecutor}
    (h : ex.nextReadyRetry now = some (envelope, ex')) :
    ex'.pendingRetries + 1 = ex.pendingRetries ∧
    ∃ entry ∈ ex.retryBuffer.entries, entry.envelope = envelope ∧
      ex'.retryBuffer.entries ⊆ ex.retryBuffer.entries := by
  obtain ⟨⟨e, b⟩, hb, he⟩ := Option.map_eq_some_iff.mp h
  obtain ⟨rfl, rfl⟩ := Prod.mk.inj he
  obtain ⟨entry, henv, -, -, hp⟩ := RetryBuffer.nextReady_perm hb
  exact ⟨RetryBuffer.nextReady_length hb, entry, hp.subset (List.mem_cons_self ..), henv,
    fun x hx => hp.subset (List.mem_cons_of_mem _ hx)⟩

end ErrorPolicyExecutor

end Wafer
