import Wafer.Runner.Loop

/-!
# Downstream senders

What `send_matching` does with an envelope: the senders it picks, in order, and
what one `send_one` does at a destination queue. `Slow` waits for room, `Drop`
and `DeadLetter` do not.
-/

namespace Wafer

/-- An edge as its source node holds it; `toNode` is the node whose queue it feeds. -/
structure DownstreamSender where
  toNode : String
  port : String
  edge : String
  sourceNode : String
  overflow : OverflowPolicy
  dlqSender : Bool
  deriving DecidableEq, Repr

namespace DownstreamSender

/-- `send_downstream` takes every sender, `fan_out` those on the selected ports. -/
def selected (sender : DownstreamSender) : Selection → Bool
  | .all => true
  | .ports names => names.any (· == sender.port)

/-- The record of an envelope that found its queue full. -/
def queueFullRecord (sender : DownstreamSender) (timestamp : Nat) (envelope : RuntimeEnvelope) :
    DlqEnvelope where
  timestamp := timestamp
  sourceNode := sender.sourceNode
  errorCategory := none
  errorMessage := "destination queue full"
  retryCount := envelope.retryCount
  reason := .queueFull sender.edge
  original := envelope
  traceId := envelope.lineage.traceId
  parentId := envelope.lineage.parentId

end DownstreamSender

/-- The senders of `send_matching` in order: those that never wait come first. -/
def sendMatching (senders : List DownstreamSender) (selection : Selection) :
    List DownstreamSender :=
  let matching := senders.filter (·.selected selection)
  matching.filter (·.overflow ≠ .slow) ++ matching.filter (·.overflow = .slow)

/-- The outcome of `send_one`. -/
inductive SendOne
  | enqueued
  | refused (r : QueueMetrics.Refusal)
  /-- a dead letter was accepted -/
  | deadLettered (record : DlqEnvelope)
  /-- a `Slow` sender waits for room -/
  | waits
  deriving DecidableEq, Repr

/-- `send_one` at a queue whose receiver is there or not, with the dead-letter channel's answer. -/
def sendOne (sender : DownstreamSender) (receiving : Bool) (q : InputQueue)
    (envelope : RuntimeEnvelope) (dlq : DlqAttempt) : SendOne :=
  if receiving = false then .refused .downstreamClosed
  else if q.buffer.length < q.capacity then .enqueued
  else
    match sender.overflow with
    | .slow => .waits
    | .drop => .refused .dropped
    | .deadLetter =>
      if sender.dlqSender = false then .refused .dlqClosed
      else
        match dlq.answer with
        | .ok => .deadLettered (sender.queueFullRecord dlq.timestamp envelope)
        | .full => .refused .dlqFull
        | .closed => .refused .dlqClosed

/-- Every selected sender gets the envelope once, and no other. -/
theorem sendMatching_perm (senders : List DownstreamSender) (selection : Selection) :
    (sendMatching senders selection).Perm (senders.filter (·.selected selection)) := by
  have h := List.filter_append_perm (fun s : DownstreamSender => decide (s.overflow ≠ .slow))
    (senders.filter (·.selected selection))
  simpa [sendMatching] using h

end Wafer
