import Wafer.Lib.Execution
import Wafer.Queue.Channel
import Wafer.Runner.Progress

/-!
# The runner loops

`run_transform_loop_with_config`, `run_filter_loop` and `run_router_loop` as a
step function on the loop's variables and the channels it shares with other
tasks. A program counter marks the points between which other tasks can act.
Everything decided outside the loop arrives with an event: guest and
instantiation answers, dead-letter `try_send` answers, clock ticks, and the
steps of upstream nodes and of the control plane.

The trace lists what happened, newest first. No definition reads it; it is
there to state what a whole run does.

## Main definitions

- `World` — the loop's variables, its input queue, the watch slot and the requests
- `World.takePendingSwap`, `World.nextInput`, `World.recvNextOrRetry` — waiting for input
- `World.applyPayload`, `World.failCall`, `World.rollBack`, `World.dispatch`
- `step` — one event; `runTransformLoopWithConfig`, `runFilterLoop`, `runRouterLoop`
-/

namespace Wafer

/-- Where an envelope came from when `next_input` took it. -/
inductive Origin
  | fresh
  | retry
  deriving DecidableEq, Repr

/-- An envelope taken by `next_input`. `under` names the request whose unclaimed, not withdrawn
replacement was in the watch slot at that moment. -/
structure Taken where
  envelope : RuntimeEnvelope
  origin : Origin
  under : Option Nat
  deriving DecidableEq, Repr

/-- A guest call: the envelope, whether it is the rerun after a rollback, and when it began. -/
structure Call where
  taken : Taken
  reprocessed : Bool
  began : Nat
  deriving DecidableEq, Repr

/-- The senders an output goes to: all of them, or those on the given ports. -/
inductive Selection
  | all
  | ports (names : List String)
  deriving DecidableEq, Repr

structure Outgoing where
  selection : Selection
  envelope : RuntimeEnvelope
  deriving DecidableEq, Repr

inductive PayloadKind
  | transform
  | filter
  | router
  | reconfigure (newConfigJson : String)
  deriving DecidableEq, Repr

def Role.payloadKind : Role → PayloadKind
  | .transform => .transform
  | .filter => .filter
  | .router => .router

inductive RequestStatus
  | unprepared
  | prepared
  | published
  deriving DecidableEq, Repr

/-- A replacement request: its payload, the shared progress handle and the prepared instance,
which is taken out when the payload is applied. -/
structure Request where
  status : RequestStatus := .unprepared
  kind : PayloadKind := .reconfigure ""
  replacement : Option PreparedSwap := none
  progress : HotSwapProgress := .channel

inductive NodeState
  | starting
  | running
  | error
  | recovering
  deriving DecidableEq, Repr

def NodeState.toRecovering : NodeState → NodeState
  | error => recovering
  | s => s

/-- The new state, and whether a recovery ended here. -/
def NodeState.recoveringToRunning : NodeState → NodeState × Bool
  | recovering => (running, true)
  | s => (s, false)

/-- Points of the loop between which other tasks can act. -/
inductive Pc
  /-- `loop {`: the canary window check comes next -/
  | top
  /-- about to look for a pending swap -/
  | swapCheck
  /-- the payload is out of the slot, `try_claim` comes next -/
  | claiming (id : Nat)
  /-- claimed; `validate()` and `init()` of the replacement run -/
  | applying (id : Nat)
  /-- about to call `next_input` -/
  | waiting
  /-- top of the loop in `recv_next_or_retry` -/
  | recvTop
  /-- no swap pending; the retry buffer comes next -/
  | recvRetry
  /-- inside `select!` -/
  | recvSelect
  /-- back in `next_input` with an envelope -/
  | received (taken : Taken)
  | calling (call : Call)
  | sending (call : Call) (out : Outgoing)
  /-- after `break`, before the final flush -/
  | closing (result : Except WaferError Unit)
  | exited (result : Except WaferError Unit)

/-- An adopted payload: when, what the node ran before, and which instance was replaced. -/
structure Adoption where
  id : Nat
  kind : PayloadKind
  at_ : Nat
  before : Option (Pre × String)
  generation : Nat
  deriving DecidableEq, Repr

/-- What a run leaves in the trace. -/
inductive Obs
  | dequeued (taken : Taken)
  | retryTaken (taken : Taken)
  | handed (taken : Taken)
  | called (call : Call) (generation : Nat)
  | forwarded (call : Call) (out : Outgoing)
  | published (id : Nat)
  | claimed (id : Nat)
  | withdrawn (id : Nat)
  | adopted (adoption : Adoption)
  | initFailed (id : Nat)
  /-- the instance of the canary's snapshot is running again -/
  | rolledBack (call : Call) (after : Option (Pre × String))
  deriving DecidableEq

structure LoopConfig where
  role : Role
  nodeId : String
  hotSwap : HotSwapConfig := {}

structure World where
  pc : Pc := .top
  node : LoadedNode
  input : InputQueue
  eof : Bool := false
  policy : ErrorPolicyExecutor
  canary : Option TransformCanaryState := none
  pendingSwapProgress : Option Nat := none
  rollbackRetry : Option Taken := none
  held : Option Taken := none
  metrics : NodeMetrics := {}
  state : NodeState := .running
  /-- value of the watch slot, and whether the runner has not seen its version -/
  slot : Option Nat := none
  unseen : Bool := false
  requests : Nat → Request := fun _ => {}
  hashes : PluginHashes
  cancelled : Bool := false
  now : Nat := 0
  /-- number of instances the node has gone through -/
  generation : Nat := 0
  trace : List Obs := []

/-- Answers the error arms of the loop need from outside. -/
structure FailureAnswers where
  policyAttempt : DlqAttempt
  flushAttempts : Nat → DlqAttempt
  rollback : Lifecycle
  rollbackNs : Nat
  recovery : Lifecycle

/-- What the guest answered; a native node computes its own answer. -/
inductive GuestAnswer
  | process (call : GuestCall OutputMessage)
  | evaluate (call : GuestCall Bool)
  | route (call : GuestCall (List String))
  | native

inductive FilterOutcome
  | forward
  | drop
  deriving DecidableEq, Repr

inductive RouteOutcome
  | ports (names : List String)
  | error (e : ProcessError)
  deriving DecidableEq, Repr

/-- A branch of the `select!` in `recv_next_or_retry`. -/
inductive Branch
  | cancelled
  | recv
  | swap
  | timer
  deriving DecidableEq, Repr

def policyTeardown : WaferError := .runtime "torn down by error policy"

def recoveryFailed (error : WaferError) : WaferError :=
  .runtime ("recovery failed: " ++ error.toString)

namespace LoadedNode

/-- `TransformNode::process`; `none` where the answer is not one this node can get. -/
def process (node : LoadedNode) (envelope : RuntimeEnvelope) (answer : GuestAnswer) :
    Option (Except WasmProcessError RuntimeEnvelope × LoadedNode) :=
  match node, answer with
  | wasm w, .process call =>
    let r := w.callGuest call
    some (r.1.map envelope.fromGuestOutput, .wasm r.2)
  | nativeTransform n, .native => some (n.process envelope, node)
  | _, _ => none

/-- `FilterNode::evaluate`. -/
def evaluate (node : LoadedNode) (envelope : RuntimeEnvelope) (answer : GuestAnswer) :
    Option (Except WasmProcessError FilterOutcome × LoadedNode) :=
  match node, answer with
  | wasm w, .evaluate call =>
    let r := w.callGuest call
    some (r.1.map fun keep => if keep then .forward else .drop, .wasm r.2)
  | nativeFilter n, .native => some (.ok (if n.predicateFn envelope then .forward else .drop), node)
  | _, _ => none

/-- `WasmRouterNode::route`. -/
def route (node : LoadedNode) (answer : GuestAnswer) :
    Option (Except WasmProcessError RouteOutcome × LoadedNode) :=
  match node, answer with
  | wasm w, .route call =>
    let r := w.callGuest call
    some (r.1.map .ports, .wasm r.2)
  | _, _ => none

end LoadedNode

namespace World

def observe (w : World) (o : Obs) : World := { w with trace := o :: w.trace }

def setProgress (w : World) (id : Nat) (progress : HotSwapProgress) : World :=
  { w with requests := Function.update w.requests id { w.requests id with progress } }

/-- Run `f` on the progress handle behind `id`, if there is one. -/
def reportTo (w : World) (id : Option Nat) (f : HotSwapProgress → HotSwapProgress) : World :=
  { w with
    requests := match id with
      | some id =>
        Function.update w.requests id { w.requests id with progress := f (w.requests id).progress }
      | none => w.requests }

/-- The request whose unclaimed, not withdrawn replacement is in the watch slot. -/
def pendingRequest (w : World) : Option Nat :=
  w.slot.filter fun id => (w.requests id).progress.claim == .pending

/-! ## Replacement -/

/-- `take_pending_swap` up to `try_claim`: look at the slot and mark its version seen. -/
def takePendingSwap (w : World) : World :=
  if w.unseen then
    match w.slot with
    | some id => { w with unseen := false, pc := .claiming id }
    | none => { w with unseen := false, pc := .waiting }
  else { w with pc := .waiting }

/-- The `try_claim` of `take_pending_swap`: a withdrawn payload is ignored. -/
def claim (w : World) (id : Nat) : World :=
  match (w.requests id).progress.tryClaim with
  | (true, progress) => ({ w.setProgress id progress with pc := .applying id }).observe (.claimed id)
  | (false, _) => { w with pc := .waiting }

def wrongPayload (kind : String) : WaferError :=
  .runtime (kind ++ " node received a non-" ++ kind ++ " swap payload")

/-- `try_apply_transform` / `try_apply_filter` / `try_apply_router`: result, node, and what is left
in the payload's slot. -/
def tryApply (role : Role) (node : LoadedNode) (request : Request) (lc : Lifecycle) :
    Except WaferError Unit × LoadedNode × Option PreparedSwap :=
  if request.kind ≠ role.payloadKind then
    (.error (wrongPayload role.name), node, request.replacement)
  else
    match node with
    | .wasm w =>
      match request.replacement with
      | none => (.error (.runtime "swap payload already applied"), node, none)
      | some replacement =>
        let r := w.tryHotSwap role replacement lc
        (r.1, .wasm r.2, none)
    | _ =>
      (.error (.runtime ("native baseline " ++ role.name ++ "s do not support hot-swap")), node,
        request.replacement)

def tryReplace (role : Role) (node : LoadedNode) (request : Request) (lc : Lifecycle) :
    Except WaferError Unit × LoadedNode × Option PreparedSwap :=
  match request.kind with
  | .reconfigure newConfigJson =>
    let r := node.tryReconfigure role newConfigJson lc
    (r.1, r.2, request.replacement)
  | _ => tryApply role node request lc

/-- The canary after an adoption: a reconfigure drops it, a transform swap arms a new one. -/
def armCanary (cfg : LoopConfig) (w : World) (id : Nat) : Option TransformCanaryState :=
  match cfg.role, (w.requests id).kind with
  | .transform, .reconfigure _ => none
  | .transform, _ =>
    match w.node.cachedPre with
    | some pre => some (.new pre cfg.hotSwap w.now id)
    | none => w.canary
  | _, _ => w.canary

/-- The replacement validated and initialised: flush retries, publish, arm the canary. -/
def adopt (cfg : LoopConfig) (w : World) (id : Nat) (node : LoadedNode)
    (attempts : Nat → DlqAttempt) : World :=
  let flushed := w.policy.flushToDlq .hotSwapDrain attempts w.metrics
  let marked := (w.requests id).progress.markReplacementAdopted w.now w.hashes
  ({ w.setProgress id marked.1 with
      node, policy := flushed.1, metrics := flushed.2.recordSwap, hashes := marked.2
      pendingSwapProgress := some id, canary := armCanary cfg w id
      generation := w.generation+1, pc := .top }).observe
    (.adopted ⟨id, (w.requests id).kind, w.now, w.node.loaded, w.generation⟩)

/-- What is left in the payload's slot after an attempt to apply it. -/
def setReplacement (w : World) (id : Nat) (left : Option PreparedSwap) : World :=
  { w with requests := Function.update w.requests id { w.requests id with replacement := left } }

/-- Validation or initialisation of the replacement failed. -/
def failInit (w : World) (id : Nat) (error : WaferError) : World :=
  { w.reportTo (some id) (·.reportInitFailed error.toString) with pc := .top }.observe
    (.initFailed id)

/-- Apply a claimed payload and report a failure; either way the loop starts over. -/
def applyPayload (cfg : LoopConfig) (w : World) (id : Nat) (lc : Lifecycle)
    (attempts : Nat → DlqAttempt) : World :=
  let r := tryReplace cfg.role w.node (w.requests id) lc
  let taken := w.setReplacement id r.2.2
  match r.1 with
  | .ok () => taken.adopt cfg id r.2.1 attempts
  | .error e => { taken with node := r.2.1 }.failInit id e

/-! ## Waiting for input -/

def startCall (w : World) (taken : Taken) (reprocessed : Bool) : World :=
  let call : Call := ⟨taken, reprocessed, w.now⟩
  { w with pc := .calling call }.observe (.called call w.generation)

/-- `next_input` hands `taken` to the loop, which calls the guest with it. -/
def hand (w : World) (taken : Taken) : World := (w.observe (.handed taken)).startCall taken false

/-- Start of `next_input`: a held envelope comes first. -/
def nextInput (w : World) : World :=
  match w.held with
  | some taken => { w with held := none }.hand taken
  | none => { w with pc := .recvTop }

/-- A pending swap goes before retries and input. -/
def pollSwap (w : World) : World :=
  if w.unseen then { w with pc := .top } else { w with pc := .recvRetry }

/-- Retry buffer, then the end-of-input check. -/
def pollRetry (w : World) : World :=
  match w.policy.nextReadyRetry w.now with
  | some (envelope, policy) =>
    let taken : Taken := ⟨envelope, .retry, w.pendingRequest⟩
    { w with policy, pc := .received taken }.observe (.retryTaken taken)
  | none =>
    if w.eof = true ∧ w.policy.nextRetryDeadline = none then { w with pc := .closing (.ok ()) }
    else { w with pc := .recvSelect }

/-- One branch of `select!`. The branches are polled in order but not as one atomic action, so each
is taken whenever it is ready by itself. -/
def selectBranch (w : World) : Branch → Option World
  | .cancelled => if w.cancelled then some { w with pc := .closing (.ok ()) } else none
  | .recv =>
    if w.eof then none
    else
      match w.input.recv with
      | .message envelope rest =>
        let taken : Taken := ⟨envelope, .fresh, w.pendingRequest⟩
        some ({ w with input := rest, pc := .received taken }.observe (.dequeued taken))
      | .closed => some { w with eof := true, pc := .recvTop }
      | .notReady => none
  | .swap => if w.unseen then some { w with pc := .top } else none
  | .timer =>
    match w.policy.nextRetryDeadline with
    | some deadline => if deadline ≤ w.now then some { w with pc := .recvTop } else none
    | none => none

/-- End of `next_input`: an envelope that arrived with a pending swap is held. -/
def recheck (w : World) (taken : Taken) : World :=
  if w.unseen then { w with held := some taken, pc := .top } else w.hand taken

/-! ## Failed calls -/

/-- `recover_from_cached_pre` with the state transitions around it; a failure ends the loop. -/
def recover (cfg : LoopConfig) (w : World) (answers : FailureAnswers) : World :=
  let r := w.node.recoverFromCachedPre cfg.role answers.recovery
  let w := { w with node := r.2, generation := w.generation+1 }
  match r.1 with
  | .ok () =>
    let s := NodeState.error.toRecovering.recoveringToRunning
    { w with
      state := s.1, metrics := if s.2 then w.metrics.recordRecovery else w.metrics, pc := .top }
  | .error e =>
    let flushed := w.policy.flushToDlq .recoveryFailed answers.flushAttempts w.metrics
    { w with
      state := .error, policy := flushed.1, metrics := flushed.2
      pc := .closing (.error (recoveryFailed e)) }

/-- Hand the failure to the error policy and stop on a teardown. -/
def applyPolicy (w : World) (error : WasmProcessError) (envelope : RuntimeEnvelope)
    (answers : FailureAnswers) : World :=
  let r := w.policy.handle w.now answers.policyAttempt error envelope
  let counted := continueAfterPolicyAction r.1 w.metrics
  { w with
    policy := r.2, metrics := counted.2
    pc := if counted.1 then .top else .closing (.error policyTeardown) }

def recoverAfterTimeout (cfg : LoopConfig) (w : World) (error : WasmProcessError)
    (envelope : RuntimeEnvelope) (answers : FailureAnswers) : World :=
  let handled := w.applyPolicy error envelope answers
  match handled.pc with
  | .top => handled.recover cfg answers
  | _ => handled

/-- The instance is condemned: record the message, rebuild. -/
def condemn (cfg : LoopConfig) (w : World) (error : WasmProcessError) (envelope : RuntimeEnvelope)
    (answers : FailureAnswers) : World :=
  let recorded := w.policy.recordCondemned answers.policyAttempt envelope error w.metrics
  { w with policy := recorded.1, metrics := recorded.2 }.recover cfg answers

/-- The error arms of the filter and router loops, and of the transform loop without a canary. -/
def failCall (cfg : LoopConfig) (w : World) (error : WasmProcessError)
    (envelope : RuntimeEnvelope) (answers : FailureAnswers) : World :=
  let w := { w with metrics := w.metrics.recordError error }
  if error.isBudgetExhausted then w.recoverAfterTimeout cfg error envelope answers
  else if error.condemns then w.condemn cfg error envelope answers
  else w.applyPolicy error envelope answers

/-- Put the replaced pre and hash back and drop the canary. -/
def restoreReplaced (w : World) (canary : TransformCanaryState) (error : WasmProcessError) :
    World :=
  let restored := (w.requests canary.swap).progress.restoreReplacedPluginHash w.hashes
  { w.setProgress canary.swap restored.1 with
    metrics := w.metrics.recordError error, canary := none, hashes := restored.2
    node := w.node.setCachedPre canary.snapshot, state := .error }

/-- The replaced plugin is running again: report it and keep the message for it. -/
def resume (w : World) (call : Call) (error : WasmProcessError) (rollbackNs : Nat) : World :=
  let s := w.state.toRecovering.recoveringToRunning
  { w.reportTo w.pendingSwapProgress (·.reportRolledBack rollbackNs error.toString) with
    state := s.1
    metrics := (if s.2 then w.metrics.recordRecovery else w.metrics).recordRollback
    pendingSwapProgress := none, rollbackRetry := some call.taken, pc := .top }.observe
      (.rolledBack call w.node.loaded)

/-- The rollback failed: the message is condemned and the standard recovery gets one more try. -/
def escalate (cfg : LoopConfig) (w : World) (call : Call) (error : WasmProcessError)
    (failure : WaferError) (answers : FailureAnswers) : World :=
  let reported := w.reportTo w.pendingSwapProgress
    (·.reportRolledBack 0 ("rollback failed: " ++ failure.toString))
  let recovered := { reported with pendingSwapProgress := none }.condemn cfg error
    call.taken.envelope answers
  match recovered.pc with
  | .top => recovered.observe (.rolledBack call recovered.node.loaded)
  | _ => recovered

/-- A condemning error inside the canary window. -/
def rollBack (cfg : LoopConfig) (w : World) (canary : TransformCanaryState) (call : Call)
    (error : WasmProcessError) (answers : FailureAnswers) : World :=
  let restored := w.restoreReplaced canary error
  let r := restored.node.recoverFromCachedPre cfg.role answers.rollback
  let rebuilt := { restored with node := r.2, generation := w.generation+1 }
  match r.1 with
  | .ok () => rebuilt.resume call error answers.rollbackNs
  | .error e => rebuilt.escalate cfg call error e answers

/-! ## Dispatch -/

/-- Count a success; the senders come next. -/
def forward (w : World) (call : Call) (out : Outgoing) : World :=
  { w with metrics := w.metrics.recordProcessed, pc := .sending call out }.observe
    (.forwarded call out)

/-- `pending_swap_progress.take()` and the first local outcome on the replacement. -/
def markOutcome (w : World) (outcome : FirstPostReplacementLocalOutcome) : World :=
  { w.reportTo w.pendingSwapProgress (·.markFirstPostReplacementLocalOutcome w.now outcome) with
    pendingSwapProgress := none, pc := .top }

def dispatchTransform (cfg : LoopConfig) (w : World) (call : Call) (answers : FailureAnswers) :
    Except WasmProcessError RuntimeEnvelope → World
  | .ok output => w.forward call ⟨.all, output⟩
  | .error error =>
    match w.canary with
    | some canary =>
      if error.condemns then w.rollBack cfg canary call error answers
      else w.failCall cfg error call.taken.envelope answers
    | none => w.failCall cfg error call.taken.envelope answers

def dispatchFilter (cfg : LoopConfig) (w : World) (call : Call) (answers : FailureAnswers) :
    Except WasmProcessError FilterOutcome → World
  | .ok .forward => w.forward call ⟨.all, call.taken.envelope⟩
  | .ok .drop => { w with metrics := w.metrics.recordFilteredOut }.markOutcome .filterDropped
  | .error error => w.failCall cfg error call.taken.envelope answers

/-- `fan_out` makes the routed envelope a child of the incoming one. -/
def dispatchRouter (cfg : LoopConfig) (w : World) (call : Call) (answers : FailureAnswers) :
    Except WasmProcessError RouteOutcome → World
  | .ok (.error e) =>
    let error := WasmProcessError.processingFailed e.message
    { w with metrics := w.metrics.recordError error }.applyPolicy error call.taken.envelope answers
  | .ok (.ports []) => { w with metrics := w.metrics.recordProcessed }.markOutcome .routerDropped
  | .ok (.ports names) =>
    let envelope := call.taken.envelope
    w.forward call ⟨.ports names, envelope.setParentId envelope.header.id⟩
  | .error error => w.failCall cfg error call.taken.envelope answers

/-- The call returned: keep the node as the call left it and dispatch on the role. -/
def returned (cfg : LoopConfig) (w : World) (call : Call) (answer : GuestAnswer)
    (answers : FailureAnswers) : Option World :=
  match cfg.role with
  | .transform => (w.node.process call.taken.envelope answer).map fun r =>
      { w with node := r.2 }.dispatchTransform cfg call answers r.1
  | .filter => (w.node.evaluate call.taken.envelope answer).map fun r =>
      { w with node := r.2 }.dispatchFilter cfg call answers r.1
  | .router => (w.node.route answer).map fun r =>
      { w with node := r.2 }.dispatchRouter cfg call answers r.1

/-- The last send is through. The canary counts the success. -/
def sent (w : World) : World :=
  { w.markOutcome .forwardedEnqueued with canary := w.canary.map (·.recordSuccess) }

/-- Flush what is still buffered and return. -/
def shutdown (w : World) (result : Except WaferError Unit) (attempts : Nat → DlqAttempt) : World :=
  let flushed := w.policy.flushToDlq .shutdown attempts w.metrics
  { w with policy := flushed.1, metrics := flushed.2, pc := .exited result }

/-! ## Steps without an answer from outside -/

/-- Drop the canary once its window is over. -/
def checkWindow (w : World) : World :=
  { w with canary := w.canary.filter fun c => !c.windowExpired w.now, pc := .swapCheck }

/-- The rerun after a rollback goes before a pending swap. -/
def checkSwap (w : World) : World :=
  match w.rollbackRetry with
  | some taken => { w with rollbackRetry := none }.startCall taken true
  | none => w.takePendingSwap

/-- The runner's next step where it needs no answer from outside. -/
def advance (w : World) : Option World :=
  match w.pc with
  | .top => some w.checkWindow
  | .swapCheck => some w.checkSwap
  | .claiming id => some (w.claim id)
  | .waiting => some w.nextInput
  | .recvTop => some w.pollSwap
  | .recvRetry => some w.pollRetry
  | .received taken => some (w.recheck taken)
  | _ => none

def running (w : World) : Bool :=
  match w.pc with
  | .exited _ => false
  | _ => true

/-! ## Control plane -/

/-- The API builds a request: payload, fresh progress handle, and for a hot swap the plugin hash to
track. -/
def prepare (w : World) (nodeId : String) (id : Nat) (kind : PayloadKind)
    (replacement : Option PreparedSwap) (hash : Option String) : World :=
  let progress := match kind, hash with
    | .reconfigure _, _ => .channel
    | _, some hash => HotSwapProgress.channel.trackPluginHash nodeId hash
    | _, none => .channel
  { w with
    requests := Function.update w.requests id { status := .prepared, kind, replacement, progress } }

/-- `send_swap`: the watch slot keeps the latest payload only. -/
def publish (w : World) (id : Nat) : World :=
  { w with
    requests := Function.update w.requests id { w.requests id with status := .published }
    slot := some id, unseen := true }.observe (.published id)

/-- `try_withdraw` on the request's handle. -/
def withdraw (w : World) (id : Nat) : World :=
  match (w.requests id).progress.tryWithdraw with
  | (true, progress) => (w.setProgress id progress).observe (.withdrawn id)
  | (false, _) => w

/-- `retract_swap` clears the slot while it holds the payload, without waking the runner. -/
def retract (w : World) (id : Nat) : World :=
  { w with slot := if w.slot = some id then none else w.slot }

end World

inductive Event
  /-- an upstream sender puts an envelope into the input queue -/
  | arrive (envelope : RuntimeEnvelope)
  /-- the last upstream sender is dropped -/
  | close
  /-- an upstream sender gives up on an envelope -/
  | refuse (r : QueueMetrics.Refusal)
  | cancel
  | tick (ns : Nat)
  | prepare (id : Nat) (kind : PayloadKind) (replacement : Option PreparedSwap)
      (hash : Option String)
  | publish (id : Nat)
  | withdraw (id : Nat)
  | retract (id : Nat)
  /-- another task writes the entry of its own node into the hash registry -/
  | recordHash (nodeId hash : String)
  | advance
  | select (branch : Branch)
  | applied (lc : Lifecycle) (attempts : Nat → DlqAttempt)
  | returned (answer : GuestAnswer) (answers : FailureAnswers)
  | sent
  | shutdown (attempts : Nat → DlqAttempt)

/-- Fire one event; `none` where it is not enabled. -/
def step (cfg : LoopConfig) (w : World) : Event → Option World
  | .arrive envelope =>
    if w.running then (w.input.send envelope).map fun input => { w with input } else none
  | .close => some { w with input := { w.input with closed := true } }
  | .refuse r => some { w with input := w.input.refuse r }
  | .cancel => some { w with cancelled := true }
  | .tick ns => some { w with now := w.now+ns }
  | .prepare id kind replacement hash =>
    if (w.requests id).status = .unprepared then
      some (w.prepare cfg.nodeId id kind replacement hash)
    else none
  | .publish id =>
    if (w.requests id).status = .prepared ∧ w.running = true then some (w.publish id) else none
  | .withdraw id => if (w.requests id).status ≠ .unprepared then some (w.withdraw id) else none
  | .retract id =>
    if (w.requests id).progress.claim = .withdrawn then some (w.retract id) else none
  | .recordHash nodeId hash =>
    if nodeId ≠ cfg.nodeId then
      some { w with hashes := Function.update w.hashes nodeId (some hash) }
    else none
  | .advance => w.advance
  | .select branch =>
    match w.pc with
    | .recvSelect => w.selectBranch branch
    | _ => none
  | .applied lc attempts =>
    match w.pc with
    | .applying id => some (w.applyPayload cfg id lc attempts)
    | _ => none
  | .returned answer answers =>
    match w.pc with
    | .calling call => w.returned cfg call answer answers
    | _ => none
  | .sent =>
    match w.pc with
    | .sending _ _ => some w.sent
    | _ => none
  | .shutdown attempts =>
    match w.pc with
    | .closing result => some (w.shutdown result attempts)
    | _ => none

/-- From the top of the loop into `select!`, with nothing to do on the way. -/
def idleRound : List Event := List.replicate 5 .advance

/-- What a loop is started with. The node was instantiated from its cached pre. -/
structure LoopSetup where
  node : LoadedNode
  coherent : node.Coherent
  capacity : Nat
  policy : ResolvedErrorPolicy
  dlqSender : Option DlqSender
  hashes : PluginHashes

/-- The loop as it is entered. -/
def World.start (cfg : LoopConfig) (setup : LoopSetup) : World where
  node := setup.node
  input := { capacity := setup.capacity }
  policy := .new setup.policy setup.dlqSender cfg.nodeId
  hashes := setup.hashes

/-- A run of one of the loops: the state after the events, if each was enabled. -/
def runLoop (cfg : LoopConfig) (setup : LoopSetup) (events : List Event) : Option World :=
  Lib.exec (step cfg) (World.start cfg setup) events

def runTransformLoopWithConfig (nodeId : String) (hotSwap : HotSwapConfig) :
    LoopSetup → List Event → Option World :=
  runLoop ⟨.transform, nodeId, hotSwap⟩

def runFilterLoop (nodeId : String) : LoopSetup → List Event → Option World :=
  runLoop ⟨.filter, nodeId, {}⟩

def runRouterLoop (nodeId : String) : LoopSetup → List Event → Option World :=
  runLoop ⟨.router, nodeId, {}⟩

end Wafer
