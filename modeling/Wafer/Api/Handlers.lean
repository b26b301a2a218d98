import Wafer.Runner.HashRegistry

/-!
# The replacement handlers of the API

`hot_swap` and `reconfigure` for one node, next to the loop of its runner. Any
number of requests are in flight; the node's guard lets one prepare and publish
at a time. A handler is dropped with its connection, and the guard with it.
Timeouts fire at any moment. Response bodies are left out but for their text.

## Main definitions

- `tryBeginSwap`, `verifyPluginHash` — the two checks on `PipelineHandle`
- `NodeApi` — the runner's world, the guard and the handlers
- `NodeApi.fire` — one step of the runner or of a handler
-/

namespace Wafer

/-- Two hashes are equal up to the case of ASCII letters. -/
def eqIgnoreAsciiCase (a b : String) : Bool := a.toList.map Char.toLower == b.toList.map Char.toLower

inductive StatusCode
  | ok
  | accepted
  | badRequest
  | notFound
  | conflict
  | internalServerError
  | gatewayTimeout
  deriving DecidableEq, Repr

structure Response where
  status : StatusCode
  message : String
  deriving DecidableEq, Repr

def replacementError (error : WaferError) : Response where
  status :=
    match error with
    | .nodeNotSwappable _ => .notFound
    | .swapInProgress _ | .pluginHashMismatch .. => .conflict
    | _ => .internalServerError
  message := error.toString

/-- The guard's `compare_exchange`; only Wasm nodes have a flag. -/
def tryBeginSwap (nodeId : String) : Option Bool → Except WaferError (Option Bool)
  | none => .error (.nodeNotSwappable nodeId)
  | some true => .error (.swapInProgress nodeId)
  | some false => .ok (some true)

/-- A node without a registered hash passes. -/
def verifyPluginHash (nodeId : String) (hashes : PluginHashes) (expected : String) :
    Except WaferError Unit :=
  match hashes nodeId with
  | some cached =>
    if eqIgnoreAsciiCase cached expected then .ok ()
    else .error (.pluginHashMismatch nodeId cached expected)
  | none => .ok ()

/-- Where a request's handler is. -/
inductive HandlerPhase
  | absent
  /-- the guard is taken; the hash check or the preparation comes next -/
  | guarded
  /-- the payload is built; `send_swap` comes next -/
  | sending
  /-- waits for the outcome -/
  | waiting
  /-- `try_withdraw` succeeded; `retract_swap` comes next -/
  | retracting
  /-- the runner owns the payload; waits for its `validate` and `init` -/
  | settling
  /-- answered, or dropped with its connection -/
  | gone (response : Option Response)
  deriving DecidableEq, Repr

def HandlerPhase.holdsGuard : HandlerPhase → Bool
  | absent | gone _ => false
  | _ => true

structure Handler where
  phase : HandlerPhase := .absent
  /-- the non-empty hash that the check of a reconfigure passed against -/
  expected : Option String := none
  deriving DecidableEq, Repr

/-- One node as the API sees it. -/
structure NodeApi where
  world : World
  swapInProgress : Option Bool
  handlers : Nat → Handler := fun _ => {}

namespace NodeApi

/-- The launcher registers the hash of every Wasm plugin it loads. -/
def recordPluginHash (nodeId : String) (setup : LoopSetup) : LoopSetup :=
  { setup with
    hashes := match setup.node.loaded with
      | some (pre, _) => Function.update setup.hashes nodeId (some pre.plugin.hash)
      | none => setup.hashes }

def start (cfg : LoopConfig) (setup : LoopSetup) : NodeApi where
  world := .start cfg (recordPluginHash cfg.nodeId setup)
  swapInProgress :=
    match setup.node with
    | .wasm _ => some false
    | _ => none

def setPhase (s : NodeApi) (id : Nat) (phase : HandlerPhase) : NodeApi :=
  { s with handlers := Function.update s.handlers id { s.handlers id with phase } }

/-- The handler returns or is dropped while it holds the guard. -/
def release (s : NodeApi) (id : Nat) (response : Option Response) : NodeApi :=
  { s.setPhase id (.gone response) with swapInProgress := some false }

def begin_ (nodeId : String) (s : NodeApi) (id : Nat) : NodeApi :=
  match tryBeginSwap nodeId s.swapInProgress with
  | .ok flag => { s.setPhase id .guarded with swapInProgress := flag }
  | .error e => s.setPhase id (.gone (some (replacementError e)))

/-- The hot-swap handler prepared its instance and tracks the hash of its plugin. -/
def prepared (cfg : LoopConfig) (s : NodeApi) (id : Nat) (replacement : PreparedSwap) :
    Option NodeApi :=
  (step cfg s.world
    (.prepare id cfg.role.payloadKind (some replacement) (some replacement.pre.plugin.hash))).map
    fun world => { s.setPhase id .sending with world }

/-- `reconfigure` after it took the guard: an empty or missing expected hash is not checked. -/
def reconfigure (cfg : LoopConfig) (s : NodeApi) (id : Nat) (newConfigJson : String)
    (expectedPluginHash : Option String) : Option NodeApi :=
  let expected := expectedPluginHash.filter (· ≠ "")
  let check := match expected with
    | some hash => verifyPluginHash cfg.nodeId s.world.hashes hash
    | none => .ok ()
  match check with
  | .error e => some (s.release id (some (replacementError e)))
  | .ok () =>
    (step cfg s.world (.prepare id (.reconfigure newConfigJson) none none)).map fun world =>
      { s with world, handlers := Function.update s.handlers id ⟨.sending, expected⟩ }

/-- `send_swap` fails once the runner is gone. -/
def sendSwap (cfg : LoopConfig) (s : NodeApi) (id : Nat) : Option NodeApi :=
  if s.world.running then
    (step cfg s.world (.publish id)).map fun world => { s.setPhase id .waiting with world }
  else
    let error : WaferError := .runtime
      ("cannot hot-swap node '" ++ cfg.nodeId ++ "': receiver dropped (task dead?)")
    some (s.release id (some ⟨.notFound, error.toString⟩))

def outcomeResponse : HotSwapOutcome → Response
  | .ok _ => ⟨.ok, ""⟩
  | .error (.rolledBack _ reason) => ⟨.ok, reason⟩
  | .error e => ⟨.conflict, e.toString⟩

/-- The handler's name for what it does. -/
def operation : PayloadKind → String
  | .reconfigure _ => "reconfigure"
  | _ => "hot-swap"

/-- The outcome channel has a value. The handler's own progress handle keeps the sender, so the
channel never closes under it, not even when the runner exits. -/
def outcome (s : NodeApi) (id : Nat) : Option NodeApi :=
  (s.world.requests id).progress.sent.head?.map fun o =>
    s.release id (some (outcomeResponse o))

/-- The outcome did not come in time: withdraw the payload unless the runner owns it. -/
def timeout (cfg : LoopConfig) (s : NodeApi) (id : Nat) : Option NodeApi :=
  let phase :=
    if (s.world.requests id).progress.tryWithdraw.1 then HandlerPhase.retracting else .settling
  (step cfg s.world (.withdraw id)).map fun world => { s.setPhase id phase with world }

def retractSwap (cfg : LoopConfig) (s : NodeApi) (id : Nat) : Option NodeApi :=
  (step cfg s.world (.retract id)).map fun world =>
    { s.release id (some ⟨.gatewayTimeout, operation (s.world.requests id).kind ++
        " was not adopted within 5s and was withdrawn; the node keeps its current plugin"⟩) with
      world }

/-- The owned payload was adopted or failed, or waiting for it timed out, which is all that can
happen once the runner is gone. -/
def settle (s : NodeApi) (id : Nat) : NodeApi :=
  let progress := (s.world.requests id).progress
  s.release id <| some <|
    match progress.replacementAdopted, progress.sent with
    | some _, _ => ⟨.accepted, ""⟩
    | none, .error e :: _ => ⟨.conflict, e.toString⟩
    | none, _ => ⟨.accepted, ""⟩

end NodeApi

/-- Events of the loop that are not steps of a handler. -/
def Event.ofRunner : Event → Bool
  | .prepare .. | .publish _ | .withdraw _ | .retract _ => false
  | _ => true

inductive ApiEvent
  | runner (e : Event)
  | begin_ (id : Nat)
  | prepared (id : Nat) (replacement : PreparedSwap)
  | failPreparation (id : Nat) (response : Response)
  | reconfigure (id : Nat) (newConfigJson : String) (expectedPluginHash : Option String)
  | sendSwap (id : Nat)
  | outcome (id : Nat)
  | timeout (id : Nat)
  | retractSwap (id : Nat)
  | settle (id : Nat)
  /-- the connection is gone and the handler is dropped -/
  | disconnect (id : Nat)

namespace NodeApi

/-- Fire one event; `none` where it is not enabled. -/
def fire (cfg : LoopConfig) (s : NodeApi) : ApiEvent → Option NodeApi
  | .runner e =>
    if e.ofRunner then (step cfg s.world e).map fun world => { s with world } else none
  | .begin_ id =>
    if (s.handlers id).phase = .absent then some (s.begin_ cfg.nodeId id) else none
  | .prepared id replacement =>
    if (s.handlers id).phase = .guarded then s.prepared cfg id replacement else none
  | .failPreparation id response =>
    if (s.handlers id).phase = .guarded then some (s.release id (some response)) else none
  | .reconfigure id newConfigJson expected =>
    if (s.handlers id).phase = .guarded then s.reconfigure cfg id newConfigJson expected else none
  | .sendSwap id => if (s.handlers id).phase = .sending then s.sendSwap cfg id else none
  | .outcome id => if (s.handlers id).phase = .waiting then s.outcome id else none
  | .timeout id => if (s.handlers id).phase = .waiting then s.timeout cfg id else none
  | .retractSwap id => if (s.handlers id).phase = .retracting then s.retractSwap cfg id else none
  | .settle id => if (s.handlers id).phase = .settling then some (s.settle id) else none
  | .disconnect id => if (s.handlers id).phase.holdsGuard then some (s.release id none) else none

/-- A run of the node and its API. -/
def run (cfg : LoopConfig) (setup : LoopSetup) (events : List ApiEvent) : Option NodeApi :=
  Lib.exec (fire cfg) (start cfg setup) events

end NodeApi

end Wafer
