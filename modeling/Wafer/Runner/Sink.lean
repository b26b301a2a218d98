import Wafer.Queue.Channel
import Wafer.Runner.Progress

/-!
# The sink loop

`run_sink_loop`: collect until the input ends or cancellation fires, drain what
is still queued, then flush and close. With a batch timeout an idle input is
flushed in between.
-/

namespace Wafer

inductive SinkPc
  | receiving
  | collecting (envelope : RuntimeEnvelope)
  /-- the batch timer fired -/
  | idleFlush
  /-- after `break`: `try_recv` until it fails -/
  | draining
  | drainCollecting (envelope : RuntimeEnvelope)
  | flushing
  | closing (flushed : Except String Unit)
  | exited (result : Except WaferError Unit)

structure SinkLoop where
  nodeId : String
  batchTimeout : Option Nat
  pc : SinkPc := .receiving
  input : InputQueue
  metrics : NodeMetrics := {}
  cancelled : Bool := false
  /-- the envelopes given to `collect`, newest first -/
  collected : List RuntimeEnvelope := []

inductive SinkEvent
  | arrive (envelope : RuntimeEnvelope)
  | close
  | refuse (r : QueueMetrics.Refusal)
  | cancel
  | recv
  /-- answer of `collect()` -/
  | collect (answer : Except String Unit)
  | idle
  /-- the cancellation branch of `select!` -/
  | stop
  | tryRecv
  /-- answer of `flush()` -/
  | flush (answer : Except String Unit)
  /-- answer of the final `close()` -/
  | finish (answer : Except String Unit)

namespace SinkLoop

def unclean (nodeId failure : String) : WaferError :=
  .runtime ("sink '" ++ nodeId ++ "' " ++ failure)

/-- What the loop returns after the final flush and close. -/
def outcome (nodeId : String) (flushed closed : Except String Unit) : Except WaferError Unit :=
  match flushed, closed with
  | .ok (), .ok () => .ok ()
  | .error e, _ => .error (unclean nodeId ("final flush failed: " ++ e))
  | .ok (), .error e => .error (unclean nodeId ("close failed: " ++ e))

def running (l : SinkLoop) : Bool :=
  match l.pc with
  | .exited _ => false
  | _ => true

def step (l : SinkLoop) : SinkEvent → Option SinkLoop
  | .arrive envelope =>
    if l.running then (l.input.send envelope).map fun input => { l with input } else none
  | .close => some { l with input := { l.input with closed := true } }
  | .refuse r => some { l with input := l.input.refuse r }
  | .cancel => some { l with cancelled := true }
  | .recv =>
    match l.pc with
    | .receiving =>
      match l.input.recv with
      | .message envelope rest =>
        some { l with
          input := rest, pc := .collecting envelope, collected := envelope :: l.collected }
      | .closed => some { l with pc := .draining }
      | .notReady => none
    | _ => none
  | .collect answer =>
    match l.pc with
    | .collecting _ => some { l with
        metrics := match answer with
          | .ok () => l.metrics.recordProcessed
          | .error _ => l.metrics.recordFailed
        pc := .receiving }
    | .drainCollecting _ => some { l with pc := .draining }
    | _ => none
  -- the biased `select!` polls `recv` first: timer and cancellation only win over an idle queue,
  -- and what is sent behind that poll comes behind this step
  | .idle =>
    match l.pc with
    | .receiving =>
      if l.batchTimeout.isSome && l.input.idle then some { l with pc := .idleFlush } else none
    | _ => none
  | .stop =>
    match l.pc with
    | .receiving =>
      if l.cancelled && l.input.idle then some { l with pc := .draining } else none
    | _ => none
  | .tryRecv =>
    match l.pc with
    | .draining =>
      match l.input.recv with
      | .message envelope rest =>
        some { l with
          input := rest, pc := .drainCollecting envelope, collected := envelope :: l.collected }
      | _ => some { l with pc := .flushing }
    | _ => none
  | .flush answer =>
    match l.pc with
    | .idleFlush => some { l with pc := .receiving }
    | .flushing => some { l with pc := .closing answer }
    | _ => none
  | .finish answer =>
    match l.pc with
    | .closing flushed => some { l with pc := .exited (outcome l.nodeId flushed answer) }
    | _ => none

/-- Past the receiving part of the loop. -/
def stopped (l : SinkLoop) : Bool :=
  match l.pc with
  | .receiving | .collecting _ | .idleFlush => false
  | _ => true

end SinkLoop

end Wafer
