import Wafer.Config.Types
import Wafer.Queue.Envelope
import Wafer.Runner.ProcessError

/-!
# Nodes: Wasm instances and native baselines

A Wasm node owns a store, the bindings of one instance and the pre-linked
component it rebuilds that instance from. Transform, filter and router nodes
share the code of recovery, reconfigure and hot swap; the role only enters the
error texts and the inference check. What wasmtime and the guest answer is an
input: `Lifecycle` for one (re-)instantiation, `GuestCall` for one message.

Each operation is written once, as `…Traced`: beside its result it lists the
guest calls it makes, with the store each begins in. The operation under its
own name leaves that list out.

## Main definitions

- `GuestRun` — a guest call and the store it begins in
- `WasmNode.validateAndInit`, `recoverFromCachedPre`, `tryReconfigure`, `tryHotSwap`
- `WasmNode.callGuest` — the call wrapper shared by `process`, `evaluate` and `route`
- `LoadedNode` — a Wasm node or a native baseline
-/

namespace Wafer

inductive WaferError
  | pluginInit (message : String)
  | config (message : String)
  | io (message : String)
  | runtime (message : String)
  | nodeNotSwappable (nodeId : String)
  | swapInProgress (nodeId : String)
  | pluginHashMismatch (nodeId cached expected : String)
  deriving DecidableEq, Repr

def WaferError.toString : WaferError → String
  | pluginInit message => "plugin initialization failed: " ++ message
  | config message => "configuration error: " ++ message
  | io message => message
  | runtime message => "runtime error: " ++ message
  | nodeNotSwappable nodeId => "node-not-swappable: " ++ nodeId
  | swapInProgress nodeId => "swap-in-progress: " ++ nodeId
  | pluginHashMismatch nodeId cached expected =>
    "plugin-hash-mismatch: node '" ++ nodeId ++ "' has hash " ++ cached ++ " but caller supplied " ++
      expected

inductive Role
  | transform
  | filter
  | router
  deriving DecidableEq, Repr

def Role.name : Role → String
  | transform => "transform"
  | filter => "filter"
  | router => "router"

/-- A component binary with the hex SHA-256 the registry computes for it. -/
structure Plugin where
  bytes : List UInt8
  hash : String
  deriving DecidableEq, Repr

/-- A linked component, ready to be instantiated (`TransformPre`, `FilterNodePre`, ...). -/
structure Pre where
  plugin : Plugin
  inference : Bool := false
  deriving DecidableEq, Repr

/-- One instance: the component it came from and the configuration its `init()` accepted. -/
structure Bindings where
  pre : Pre
  initialised : Option String
  deriving DecidableEq, Repr

def Pre.instantiate (pre : Pre) : Bindings := ⟨pre, none⟩

structure Store where
  nodeId : String
  capabilities : Capabilities
  memoryLimit : Nat
  fuel : Option Nat := none
  epochDeadline : Option Nat := none
  deriving DecidableEq, Repr

/-- Store, bindings and pre of a prepared replacement; the bindings are an instance of the pre. -/
structure PreparedSwap where
  store : Store
  pre : Pre
  bindings : Bindings
  fromPre : bindings = pre.instantiate
  deriving DecidableEq

structure WasmNode where
  store : Store
  bindings : Bindings
  cachedPre : Pre
  fuelLimit : Option Nat
  capabilities : Capabilities
  memoryLimit : Nat
  epochDeadline : Option Nat
  configJson : String
  pluginVersion : String
  deriving DecidableEq, Repr

/-- Answers of wasmtime and the guest during one (re-)instantiation. -/
structure Lifecycle where
  recoveryFuel : Except String Unit := .ok ()
  instantiate : Except String Unit := .ok ()
  lifecycleFuel : Except String Unit := .ok ()
  validate : Except String (Option String) := .ok none
  init : Except String (Except String Unit) := .ok (.ok ())

/-- The `process-error` cases of the guest interface. -/
inductive WitProcessError
  | badInput (message : String)
  | dependencyFailed (message : String)
  | processingFailed (message : String)
  | timedOut
  | unrecoverable (message : String)
  deriving DecidableEq, Repr

/-- Answers of wasmtime and the guest during one message call. -/
structure GuestCall (α : Type) where
  setFuel : Except String Unit := .ok ()
  pushBuffer : Except String Unit := .ok ()
  result : Except (Option Trap × String) (Except WitProcessError α)
  deleteBuffer : Except String Unit := .ok ()

def mapProcessError : WitProcessError → WasmProcessError
  | .badInput message => .badInput message
  | .dependencyFailed message => .dependencyFailed message
  | .processingFailed message => .processingFailed message
  | .timedOut => .timedOut
  | .unrecoverable message => .unrecoverable message

def hostFailure (message : String) : WasmProcessError := .trapped none message

/-- Ticks that instantiation, `validate()` and `init()` may run at least. -/
def lifecycleEpochTicks : Nat := 1000

def lifecycleEpochDeadline (perCall : Nat) : Nat := max perCall lifecycleEpochTicks

def recoveryStore (oldStore : Store) (capabilities : Capabilities) (memoryLimit : Nat)
    (epochDeadline fuelLimit : Option Nat) (setFuel : Except String Unit) :
    Except WaferError Store :=
  let store : Store :=
    { nodeId := oldStore.nodeId, capabilities, memoryLimit,
      epochDeadline := epochDeadline.map lifecycleEpochDeadline }
  match fuelLimit, setFuel with
  | some _, .error e =>
    .error (.pluginInit ("recovery fuel reset for '" ++ oldStore.nodeId ++ "' failed: " ++ e))
  | _, _ => .ok { store with fuel := fuelLimit }

inductive GuestPhase
  /-- start functions, during instantiation -/
  | start
  | validate
  | init
  | outputPorts
  /-- `process`, `evaluate` or `route` -/
  | message
  deriving DecidableEq, Repr

/-- A guest call and the store it begins in. -/
structure GuestRun where
  phase : GuestPhase
  store : Store
  deriving DecidableEq, Repr

namespace WasmNode

def nodeId (node : WasmNode) : String := node.store.nodeId

/-- `transform 'id'`, as the error texts name the node. -/
def label (role : Role) (node : WasmNode) : String := role.name ++ " '" ++ node.nodeId ++ "'"

/-- Set fuel and epoch on the store where they are limited. -/
def armLimits (node : WasmNode) (epochDeadline : Option Nat) : WasmNode :=
  { node with
    store := { node.store with
      fuel := node.fuelLimit.or node.store.fuel
      epochDeadline := epochDeadline.or node.store.epochDeadline } }

def armLifecycleLimits (role : Role) (node : WasmNode) (setFuel : Except String Unit) :
    Except WaferError WasmNode :=
  match node.fuelLimit, setFuel with
  | some _, .error e =>
    .error (.pluginInit (node.label role ++ " lifecycle fuel reset failed: " ++ e))
  | _, _ => .ok (node.armLimits (node.epochDeadline.map lifecycleEpochDeadline))

def validateAndInitTraced (role : Role) (node : WasmNode) (configJson : String) (lc : Lifecycle) :
    (Except WaferError Unit × WasmNode) × List GuestRun :=
  match node.armLifecycleLimits role lc.lifecycleFuel with
  | .error e => ((.error e, node), [])
  | .ok armed =>
    let validated : List GuestRun := [⟨.validate, armed.store⟩]
    let initialised : List GuestRun := [⟨.validate, armed.store⟩, ⟨.init, armed.store⟩]
    match lc.validate with
    | .error e =>
      ((.error (.pluginInit (node.label role ++ " validate() trapped: " ++ e)), armed), validated)
    | .ok (some message) =>
      ((.error (.pluginInit (node.label role ++ " validate() rejected config: " ++ message)), armed),
        validated)
    | .ok none =>
      match lc.init with
      | .error e =>
        ((.error (.pluginInit (node.label role ++ " init() trapped: " ++ e)), armed), initialised)
      | .ok (.error e) =>
        ((.error (.pluginInit (node.label role ++ " init() failed: " ++ e)), armed), initialised)
      | .ok (.ok ()) =>
        ((.ok (), { armed with
          bindings := { armed.bindings with initialised := some configJson } }), initialised)

def validateAndInit (role : Role) (node : WasmNode) (configJson : String) (lc : Lifecycle) :
    Except WaferError Unit × WasmNode :=
  (node.validateAndInitTraced role configJson lc).1

/-- The store and bindings a recovery or reconfigure starts from, if they can be built. -/
def reinstantiateTraced (role : Role) (what : String) (node : WasmNode) (lc : Lifecycle) :
    Except WaferError (Store × Bindings) × List GuestRun :=
  match recoveryStore node.store node.capabilities node.memoryLimit node.epochDeadline
      node.fuelLimit lc.recoveryFuel with
  | .error e => (.error e, [])
  | .ok store =>
    match lc.instantiate with
    | .error e =>
      (.error (.pluginInit (node.label role ++ " " ++ what ++ " instantiation failed: " ++ e)),
        [⟨.start, store⟩])
    | .ok () => (.ok (store, node.cachedPre.instantiate), [⟨.start, store⟩])

def reinstantiate (role : Role) (what : String) (node : WasmNode) (lc : Lifecycle) :
    Except WaferError (Store × Bindings) :=
  (node.reinstantiateTraced role what lc).1

/-- Rebuild the instance from the cached pre. The new store and bindings stay even when
`validate()` or `init()` fails on them. -/
def recoverFromCachedPreTraced (role : Role) (node : WasmNode) (lc : Lifecycle) :
    (Except WaferError Unit × WasmNode) × List GuestRun :=
  match node.reinstantiateTraced role "recovery" lc with
  | (.error e, started) => ((.error e, node), started)
  | (.ok (store, bindings), started) =>
    let r := { node with store, bindings }.validateAndInitTraced role node.configJson lc
    (r.1, started ++ r.2)

def recoverFromCachedPre (role : Role) (node : WasmNode) (lc : Lifecycle) :
    Except WaferError Unit × WasmNode :=
  (node.recoverFromCachedPreTraced role lc).1

def tryReconfigureTraced (role : Role) (node : WasmNode) (newConfigJson : String) (lc : Lifecycle) :
    (Except WaferError Unit × WasmNode) × List GuestRun :=
  match node.reinstantiateTraced role "reconfigure" lc with
  | (.error e, started) => ((.error e, node), started)
  | (.ok (store, bindings), started) =>
    match { node with store, bindings, configJson := newConfigJson }.validateAndInitTraced role
        newConfigJson lc with
    | ((.ok (), replaced), runs) => ((.ok (), replaced), started ++ runs)
    | ((.error e, failed), runs) =>
      ((.error e, { failed with
        store := node.store, bindings := node.bindings, configJson := node.configJson }),
        started ++ runs)

def tryReconfigure (role : Role) (node : WasmNode) (newConfigJson : String) (lc : Lifecycle) :
    Except WaferError Unit × WasmNode :=
  (node.tryReconfigureTraced role newConfigJson lc).1

def tryHotSwapTraced (role : Role) (node : WasmNode) (replacement : PreparedSwap)
    (lc : Lifecycle) : (Except WaferError Unit × WasmNode) × List GuestRun :=
  if role = .transform ∧ replacement.pre.inference ≠ node.capabilities.allowInference then
    ((.error (.runtime "hot-swap cannot change the node's inference capability"), node), [])
  else if replacement.store.capabilities ≠ node.capabilities then
    ((.error (.runtime "hot-swap cannot change the node's capabilities"), node), [])
  else
    match { node with
        store := replacement.store, bindings := replacement.bindings,
        cachedPre := replacement.pre }.validateAndInitTraced role node.configJson lc with
    | ((.ok (), replaced), runs) => ((.ok (), replaced), runs)
    | ((.error e, failed), runs) =>
      ((.error e, { failed with
        store := node.store, bindings := node.bindings, cachedPre := node.cachedPre }), runs)

def tryHotSwap (role : Role) (node : WasmNode) (replacement : PreparedSwap) (lc : Lifecycle) :
    Except WaferError Unit × WasmNode :=
  (node.tryHotSwapTraced role replacement lc).1

/-- Used by the rollback to put the replaced component back before recovering. -/
def setCachedPre (node : WasmNode) (pre : Pre) : WasmNode := { node with cachedPre := pre }

/-- Run one guest call: metering, buffer resource, guest, release. -/
def callGuestTraced {α : Type} (node : WasmNode) (call : GuestCall α) :
    (Except WasmProcessError α × WasmNode) × List GuestRun :=
  match node.fuelLimit, call.setFuel with
  | some _, .error e => ((.error (hostFailure ("fuel reset failed: " ++ e)), node), [])
  | _, _ =>
    let armed := node.armLimits node.epochDeadline
    match call.pushBuffer with
    | .error e => ((.error (hostFailure ("failed to push buffer: " ++ e)), armed), [])
    | .ok () =>
      let called : List GuestRun := [⟨.message, armed.store⟩]
      match call.result, call.deleteBuffer with
      | .error (code, message), _ => ((.error (.trapped code message), armed), called)
      | .ok _, .error e =>
        ((.error (hostFailure ("failed to release buffer resource: " ++ e)), armed), called)
      | .ok (.error e), .ok () => ((.error (mapProcessError e), armed), called)
      | .ok (.ok a), .ok () => ((.ok a, armed), called)

def callGuest {α : Type} (node : WasmNode) (call : GuestCall α) :
    Except WasmProcessError α × WasmNode :=
  (node.callGuestTraced call).1

/-- The loaded plugin and its configuration. -/
def loaded (node : WasmNode) : Pre × String := (node.bindings.pre, node.configJson)

/-- The instance in use was built from the cached pre. -/
def Coherent (node : WasmNode) : Prop := node.bindings.pre = node.cachedPre

section Specs

variable {role : Role} {node node' : WasmNode} {config : String} {lc : Lifecycle}
  {result : Except WaferError Unit}

theorem recoverFromCachedPre_eq : node.recoverFromCachedPre role lc =
    match node.reinstantiate role "recovery" lc with
    | .error e => (.error e, node)
    | .ok (store, bindings) =>
      { node with store, bindings }.validateAndInit role node.configJson lc := by
  simp only [recoverFromCachedPre, recoverFromCachedPreTraced, reinstantiate, validateAndInit]
  rcases node.reinstantiateTraced role "recovery" lc with ⟨_ | ⟨store, bindings⟩, started⟩ <;> rfl

theorem tryReconfigure_eq : node.tryReconfigure role config lc =
    match node.reinstantiate role "reconfigure" lc with
    | .error e => (.error e, node)
    | .ok (store, bindings) =>
      match { node with store, bindings, configJson := config }.validateAndInit role config lc with
      | (.ok (), replaced) => (.ok (), replaced)
      | (.error e, failed) =>
        (.error e, { failed with
          store := node.store, bindings := node.bindings, configJson := node.configJson }) := by
  simp only [tryReconfigure, tryReconfigureTraced, reinstantiate, validateAndInit]
  rcases node.reinstantiateTraced role "reconfigure" lc with ⟨_ | ⟨store, bindings⟩, started⟩
  · rfl
  · dsimp only
    rcases validateAndInitTraced role _ config lc with ⟨⟨_ | _, after⟩, runs⟩ <;> rfl

theorem tryHotSwap_eq {replacement : PreparedSwap} : node.tryHotSwap role replacement lc =
    if role = .transform ∧ replacement.pre.inference ≠ node.capabilities.allowInference then
      (.error (.runtime "hot-swap cannot change the node's inference capability"), node)
    else if replacement.store.capabilities ≠ node.capabilities then
      (.error (.runtime "hot-swap cannot change the node's capabilities"), node)
    else
      match { node with
          store := replacement.store, bindings := replacement.bindings,
          cachedPre := replacement.pre }.validateAndInit role node.configJson lc with
      | (.ok (), replaced) => (.ok (), replaced)
      | (.error e, failed) =>
        (.error e, { failed with
          store := node.store, bindings := node.bindings, cachedPre := node.cachedPre }) := by
  simp only [tryHotSwap, tryHotSwapTraced, validateAndInit]
  split
  · rfl
  split
  · rfl
  rcases validateAndInitTraced role _ node.configJson lc with ⟨⟨_ | _, after⟩, runs⟩ <;> rfl

/-- `validate()` and `init()` only touch the metering of the store and the guest's own state. -/
theorem validateAndInit_frame (role : Role) (node : WasmNode) (config : String) (lc : Lifecycle) :
    (node.validateAndInit role config lc).2.bindings.pre = node.bindings.pre ∧
    (node.validateAndInit role config lc).2.cachedPre = node.cachedPre ∧
    (node.validateAndInit role config lc).2.configJson = node.configJson ∧
    (node.validateAndInit role config lc).2.fuelLimit = node.fuelLimit ∧
    (node.validateAndInit role config lc).2.capabilities = node.capabilities ∧
    (node.validateAndInit role config lc).2.memoryLimit = node.memoryLimit ∧
    (node.validateAndInit role config lc).2.epochDeadline = node.epochDeadline ∧
    (node.validateAndInit role config lc).2.pluginVersion = node.pluginVersion := by
  simp only [validateAndInit, validateAndInitTraced]
  cases ha : node.armLifecycleLimits role lc.lifecycleFuel with
  | error e => exact ⟨rfl, rfl, rfl, rfl, rfl, rfl, rfl, rfl⟩
  | ok armed =>
    have he : armed = node.armLimits (node.epochDeadline.map lifecycleEpochDeadline) := by
      simp only [armLifecycleLimits] at ha
      split at ha
      · exact absurd ha nofun
      · exact (Except.ok.inj ha).symm
    subst he
    dsimp only
    split
    · exact ⟨rfl, rfl, rfl, rfl, rfl, rfl, rfl, rfl⟩
    · exact ⟨rfl, rfl, rfl, rfl, rfl, rfl, rfl, rfl⟩
    · split <;> exact ⟨rfl, rfl, rfl, rfl, rfl, rfl, rfl, rfl⟩

theorem reinstantiate_ok {what : String} {store : Store} {bindings : Bindings}
    (h : node.reinstantiate role what lc = .ok (store, bindings)) :
    bindings = node.cachedPre.instantiate := by
  simp only [reinstantiate, reinstantiateTraced] at h
  split at h
  · exact absurd h nofun
  · split at h
    · exact absurd h nofun
    · exact (Prod.mk.inj (Except.ok.inj h)).2.symm

/-- A recovery keeps the cached pre and the configuration; a successful one runs the cached pre. -/
theorem recoverFromCachedPre_spec (h : node.recoverFromCachedPre role lc = (result, node')) :
    node'.cachedPre = node.cachedPre ∧ node'.configJson = node.configJson ∧
      (node'.bindings.pre = node.bindings.pre ∨ node'.bindings.pre = node.cachedPre) ∧
      (result = .ok () → node'.bindings.pre = node.cachedPre) := by
  rw [recoverFromCachedPre_eq] at h
  cases hr : node.reinstantiate role "recovery" lc with
  | error e =>
    rw [hr] at h
    obtain ⟨rfl, rfl⟩ := Prod.mk.inj h
    exact ⟨rfl, rfl, .inl rfl, nofun⟩
  | ok p =>
    obtain ⟨store, bindings⟩ := p
    rw [hr] at h
    have hb := reinstantiate_ok hr
    obtain ⟨hp, hc, hj, -⟩ := validateAndInit_frame role { node with store, bindings }
      node.configJson lc
    dsimp only at h hp hc hj
    rw [h] at hp hc hj
    have hpre : node'.bindings.pre = node.cachedPre := by rw [hp, hb]; rfl
    exact ⟨hc, hj, .inr hpre, fun _ => hpre⟩

/-- A reconfigure runs the cached pre with the new configuration, or changes nothing. -/
theorem tryReconfigure_spec (h : node.tryReconfigure role config lc = (result, node')) :
    (result = .ok () → node'.bindings.pre = node.cachedPre ∧ node'.cachedPre = node.cachedPre ∧
        node'.configJson = config) ∧
      (result ≠ .ok () → node' = node) := by
  rw [tryReconfigure_eq] at h
  cases hr : node.reinstantiate role "reconfigure" lc with
  | error e =>
    rw [hr] at h
    obtain ⟨rfl, rfl⟩ := Prod.mk.inj h
    exact ⟨nofun, fun _ => rfl⟩
  | ok p =>
    obtain ⟨store, bindings⟩ := p
    rw [hr] at h
    have hb := reinstantiate_ok hr
    have hv := validateAndInit_frame role { node with store, bindings, configJson := config }
      config lc
    dsimp only at h hv
    generalize { node with store, bindings, configJson := config }.validateAndInit role config lc
      = r at h hv
    obtain ⟨hp, hc, hj, hf, hcap, hmem, hep, hver⟩ := hv
    obtain ⟨outcome, replaced⟩ := r
    rcases outcome with e | u <;> obtain ⟨rfl, rfl⟩ := Prod.mk.inj h
    · refine ⟨nofun, fun _ => ?_⟩
      cases node
      cases replaced
      simp_all
    · exact ⟨fun _ => ⟨by rw [hp, hb]; rfl, hc, hj⟩, fun hne => absurd rfl hne⟩

/-- A hot swap keeps the configuration. It installs the replacement, or changes nothing. -/
theorem tryHotSwap_spec {replacement : PreparedSwap}
    (h : node.tryHotSwap role replacement lc = (result, node')) :
    node'.configJson = node.configJson ∧
      (result = .ok () → node'.bindings.pre = replacement.pre ∧ node'.cachedPre = replacement.pre) ∧
      (result ≠ .ok () → node' = node) := by
  rw [tryHotSwap_eq] at h
  split at h
  · obtain ⟨rfl, rfl⟩ := Prod.mk.inj h
    exact ⟨rfl, nofun, fun _ => rfl⟩
  split at h
  · obtain ⟨rfl, rfl⟩ := Prod.mk.inj h
    exact ⟨rfl, nofun, fun _ => rfl⟩
  have hv := validateAndInit_frame role { node with
    store := replacement.store, bindings := replacement.bindings, cachedPre := replacement.pre }
    node.configJson lc
  dsimp only at hv
  generalize { node with
    store := replacement.store, bindings := replacement.bindings,
    cachedPre := replacement.pre }.validateAndInit role node.configJson lc = r at h hv
  obtain ⟨hp, hc, hj, hf, hcap, hmem, hep, hver⟩ := hv
  obtain ⟨outcome, replaced⟩ := r
  rcases outcome with e | u <;> obtain ⟨rfl, rfl⟩ := Prod.mk.inj h
  · refine ⟨hj, nofun, fun _ => ?_⟩
    cases node
    cases replaced
    simp_all
  · refine ⟨hj, fun _ => ⟨?_, hc⟩, fun hne => absurd rfl hne⟩
    rw [hp, replacement.fromPre]
    rfl

/-- A message call only touches the metering of the store. -/
theorem callGuest_frame {α : Type} (node : WasmNode) (call : GuestCall α) :
    (node.callGuest call).2.bindings = node.bindings ∧
    (node.callGuest call).2.cachedPre = node.cachedPre ∧
    (node.callGuest call).2.configJson = node.configJson := by
  simp only [callGuest, callGuestTraced]
  split
  · exact ⟨rfl, rfl, rfl⟩
  · split
    · exact ⟨rfl, rfl, rfl⟩
    · split <;> exact ⟨rfl, rfl, rfl⟩

end Specs

end WasmNode

/-- Error of a native processing function. -/
structure ProcessError where
  code : String
  message : String
  retriable : Bool
  deriving DecidableEq, Repr

structure NativeTransform where
  id : String
  processFn : List UInt8 → Except ProcessError (List UInt8)

/-- The runner-side `process` of a native transform: a copy of the envelope with a new payload. -/
def NativeTransform.process (n : NativeTransform) (envelope : RuntimeEnvelope) :
    Except WasmProcessError RuntimeEnvelope :=
  match n.processFn envelope.payload with
  | .ok bytes => .ok { envelope with payload := bytes }
  | .error e =>
    if e.retriable then .error (.processingFailed e.message) else .error (.badInput e.message)

structure NativeFilter where
  id : String
  predicateFn : RuntimeEnvelope → Bool

/-- What a runner executes: a Wasm node or a native baseline. -/
inductive LoadedNode
  | wasm (node : WasmNode)
  | nativeTransform (node : NativeTransform)
  | nativeFilter (node : NativeFilter)

namespace LoadedNode

def tryReconfigure (role : Role) (node : LoadedNode) (newConfigJson : String) (lc : Lifecycle) :
    Except WaferError Unit × LoadedNode :=
  match node with
  | wasm w => let r := w.tryReconfigure role newConfigJson lc; (r.1, .wasm r.2)
  | nativeTransform _ =>
    (.error (.runtime "native baseline transforms do not support reconfigure"), node)
  | nativeFilter _ => (.error (.runtime "native baseline filters do not support reconfigure"), node)

/-- Native code is stateless: its recovery does nothing and succeeds. -/
def recoverFromCachedPre (role : Role) (node : LoadedNode) (lc : Lifecycle) :
    Except WaferError Unit × LoadedNode :=
  match node with
  | wasm w => let r := w.recoverFromCachedPre role lc; (r.1, .wasm r.2)
  | _ => (.ok (), node)

def setCachedPre (node : LoadedNode) (pre : Pre) : LoadedNode :=
  match node with
  | wasm w => .wasm (w.setCachedPre pre)
  | _ => node

/-- The cached pre of a Wasm node; native nodes have none. -/
def cachedPre : LoadedNode → Option Pre
  | wasm w => some w.cachedPre
  | _ => none

/-- The loaded plugin and its configuration; native nodes have none. -/
def loaded : LoadedNode → Option (Pre × String)
  | wasm w => some w.loaded
  | _ => none

/-- What a rebuild from the cached pre would run. -/
def rebuilt : LoadedNode → Option (Pre × String)
  | wasm w => some (w.cachedPre, w.configJson)
  | _ => none

/-- The node runs what a rebuild would give it. -/
def Coherent (node : LoadedNode) : Prop := node.loaded = node.rebuilt

section Specs

variable {role : Role} {node node' : LoadedNode} {config : String} {lc : Lifecycle}
  {result : Except WaferError Unit}

@[simp] theorem coherent_wasm {w : WasmNode} : (wasm w).Coherent ↔ w.Coherent := by
  simp [Coherent, WasmNode.Coherent, loaded, rebuilt, WasmNode.loaded]

@[simp] theorem loaded_setCachedPre (node : LoadedNode) (pre : Pre) :
    (node.setCachedPre pre).loaded = node.loaded := by
  cases node <;> rfl

@[simp] theorem rebuilt_setCachedPre (node : LoadedNode) (pre : Pre) :
    (node.setCachedPre pre).rebuilt = node.rebuilt.map fun r => (pre, r.2) := by
  cases node <;> rfl

theorem cachedPre_eq (node : LoadedNode) : node.cachedPre = node.rebuilt.map Prod.fst := by
  cases node <;> rfl

/-- A recovery does not change what a rebuild runs, and a successful one runs it. -/
theorem recoverFromCachedPre_spec (h : node.recoverFromCachedPre role lc = (result, node')) :
    node'.rebuilt = node.rebuilt ∧ (result = .ok () → node'.loaded = node.rebuilt) := by
  cases node with
  | wasm w =>
    obtain ⟨hr, rfl⟩ := Prod.mk.inj h
    obtain ⟨hc, hj, -, hok⟩ := WasmNode.recoverFromCachedPre_spec
      (Prod.ext hr rfl : w.recoverFromCachedPre role lc = (result, _))
    refine ⟨by simp only [rebuilt, hc, hj], fun ho => ?_⟩
    simp only [loaded, rebuilt, WasmNode.loaded, hok ho, hj]
  | nativeTransform n => obtain ⟨rfl, rfl⟩ := Prod.mk.inj h; exact ⟨rfl, fun _ => rfl⟩
  | nativeFilter n => obtain ⟨rfl, rfl⟩ := Prod.mk.inj h; exact ⟨rfl, fun _ => rfl⟩

end Specs

end LoadedNode

end Wafer
