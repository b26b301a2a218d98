import Wafer.Queue.Envelope
import Wafer.Node.Metrics

/-!
# Input queues

The bounded channel in front of a node together with its counters. One
receiver owns it; `closed` says that every sender is gone. A channel operation
and the counter bump that belongs to it are one transition.
-/

namespace Wafer

structure InputQueue where
  buffer : List RuntimeEnvelope := []
  capacity : Nat
  closed : Bool := false
  metrics : QueueMetrics := {}
  deriving DecidableEq, Repr

namespace InputQueue

/-- A sender puts an envelope in; there must be a sender and room. -/
def send (q : InputQueue) (envelope : RuntimeEnvelope) : Option InputQueue :=
  if q.closed = false ∧ q.buffer.length < q.capacity then
    some { q with buffer := q.buffer ++ [envelope], metrics := q.metrics.recordEnqueued }
  else none

/-- A sender gives up on a message and counts why. -/
def refuse (q : InputQueue) (r : QueueMetrics.Refusal) : InputQueue :=
  { q with metrics := q.metrics.recordRefusal r }

/-- What `TrackedReceiver::recv` yields once it is ready. -/
inductive Recv
  | message (envelope : RuntimeEnvelope) (rest : InputQueue)
  | closed
  | notReady

def recv (q : InputQueue) : Recv :=
  match q.buffer with
  | envelope :: rest => .message envelope { q with buffer := rest, metrics := q.metrics.recordDequeued }
  | [] => if q.closed then .closed else .notReady

/-- Nothing is queued, and a sender is left. -/
def idle (q : InputQueue) : Bool := q.buffer.isEmpty && !q.closed

/-- A receiver of a queue that is not idle gets its answer. -/
theorem recv_of_not_idle {q : InputQueue} (h : q.idle = false) :
    (∃ envelope rest, q.recv = .message envelope rest) ∨ q.recv = .closed := by
  unfold recv
  cases hb : q.buffer with
  | cons envelope rest => exact .inl ⟨_, _, rfl⟩
  | nil =>
    have hc : q.closed = true := by simpa [idle, hb] using h
    exact .inr (if_pos hc)

/-- The counters agree with the channel. -/
def Counted (q : InputQueue) : Prop :=
  q.metrics.enqueued = q.metrics.dequeued + q.buffer.length

theorem Counted.send {q q' : InputQueue} {envelope : RuntimeEnvelope} (h : q.Counted)
    (hs : q.send envelope = some q') : q'.Counted := by
  simp only [InputQueue.send] at hs
  split at hs
  · obtain rfl := Option.some.inj hs
    simp only [Counted, QueueMetrics.recordEnqueued, List.length_append, List.length_singleton] at h ⊢
    omega
  · exact absurd hs nofun

theorem Counted.refuse {q : InputQueue} (h : q.Counted) (r : QueueMetrics.Refusal) :
    (q.refuse r).Counted := by
  simpa [InputQueue.refuse, Counted] using h

theorem send_dequeued {q q' : InputQueue} {envelope : RuntimeEnvelope}
    (h : q.send envelope = some q') : q'.metrics.dequeued = q.metrics.dequeued := by
  simp only [send] at h
  split at h
  · obtain rfl := Option.some.inj h
    rfl
  · exact absurd h nofun

theorem send_buffer {q q' : InputQueue} {envelope : RuntimeEnvelope}
    (h : q.send envelope = some q') : q'.buffer = q.buffer ++ [envelope] := by
  simp only [send] at h
  split at h
  · obtain rfl := Option.some.inj h
    rfl
  · exact absurd h nofun

theorem recv_message {q rest : InputQueue} {envelope : RuntimeEnvelope}
    (h : q.recv = .message envelope rest) :
    q.buffer = envelope :: rest.buffer ∧ rest.closed = q.closed ∧ rest.capacity = q.capacity ∧
      rest.metrics = q.metrics.recordDequeued := by
  simp only [recv] at h
  split at h
  · next hb =>
    obtain ⟨rfl, rfl⟩ := Recv.message.inj h
    exact ⟨hb, rfl, rfl, rfl⟩
  · split at h <;> exact absurd h nofun

theorem recv_closed {q : InputQueue} (h : q.recv = .closed) : q.buffer = [] ∧ q.closed = true := by
  simp only [recv] at h
  split at h
  · exact absurd h nofun
  · next hb =>
    split at h
    · next hc => exact ⟨hb, hc⟩
    · exact absurd h nofun

theorem Counted.recv {q rest : InputQueue} {envelope : RuntimeEnvelope} (h : q.Counted)
    (hr : q.recv = .message envelope rest) : rest.Counted := by
  obtain ⟨hb, -, -, hm⟩ := recv_message hr
  simp only [Counted, hm, hb, QueueMetrics.recordDequeued, List.length_cons] at h ⊢
  omega

end InputQueue

end Wafer
