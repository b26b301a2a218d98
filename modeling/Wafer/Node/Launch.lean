import Wafer.Node.Wasm
import Wafer.Runner.ErrorPolicy

/-!
# Stores, launch and swap preparation

The places that make a store: the loaders of the launcher and the swap
preparation of the API here, recovery and reconfigure in `Wafer.Node.Wasm`.
Each sets the limits before it instantiates, because start functions already
run guest code. Each returns its guest calls, with the store as it is when the
call begins.

## Main definitions

- `WaferEngine.forPipeline`, `WaferEngine.fuelBudget`
- `newSwapStore`, `prepareSwap`, `loadNode`
- `GuestRun.Limited` — a guest call begins with the limits set
-/

namespace Wafer

def FuelBudgets.of (fuel : FuelBudgets) : Role → Option Nat
  | .transform => fuel.transform
  | .filter => fuel.filter
  | .router => fuel.router

def MemoryLimits.of (memory : MemoryLimits) : Role → Nat
  | .transform => memory.transform
  | .filter => memory.filter
  | .router => memory.router

/-- The node definition of a processing node of this role. -/
def NodeDef.ofRole : Role → WasmNodeDef → NodeDef
  | .transform => .transform
  | .filter => .filter
  | .router => .router

/-- The engine's metering settings. -/
structure WaferEngine where
  fuel : FuelBudgets
  metersFuel : Bool
  epochDeadline : Option Nat

namespace WaferEngine

/-- A node's own `fuel` turns metering on as a role budget does. -/
def forPipeline (config : Config) : WaferEngine where
  fuel := config.engine.fuel
  metersFuel :=
    config.nodes.any (fun entry => entry.2.wasm?.any fun wasm => wasm.fuel.isSome) ||
      config.engine.fuel.transform.isSome || config.engine.fuel.filter.isSome ||
      config.engine.fuel.router.isSome
  epochDeadline := config.engine.epochDeadline

/-- Fuel before each guest call; in a metered engine a node without a budget gets the most there
is. -/
def fuelBudget (engine : WaferEngine) (role : Role) (nodeFuel : Option Nat) : Option Nat :=
  if engine.metersFuel then some ((nodeFuel.or (engine.fuel.of role)).getD u64Max) else none

end WaferEngine

/-- What the configuration limits a node to. -/
structure NodeLimits where
  memoryLimit : Nat
  fuel : Option Nat
  epochDeadline : Option Nat

def Config.limits (config : Config) (role : Role) (wasm : WasmNodeDef) : NodeLimits where
  memoryLimit := wasm.memoryLimit.getD (config.engine.memory.of role)
  fuel := wasm.fuel.or (config.engine.fuel.of role)
  epochDeadline := config.engine.epochDeadline

/-- A configured budget is the one the node gets. -/
theorem Config.fuelBudget_eq {config : Config} {role : Role} {wasm : WasmNodeDef} {nodeId : String}
    {n : Nat} (hnode : (nodeId, NodeDef.ofRole role wasm) ∈ config.nodes)
    (h : (config.limits role wasm).fuel = some n) :
    (WaferEngine.forPipeline config).fuelBudget role wasm.fuel = some n := by
  have hb : wasm.fuel.or (config.engine.fuel.of role) = some n := h
  have hm : (WaferEngine.forPipeline config).metersFuel = true := by
    cases hw : wasm.fuel with
    | some m =>
      simp only [WaferEngine.forPipeline, Bool.or_eq_true, List.any_eq_true]
      refine .inl (.inl (.inl ⟨_, hnode, ?_⟩))
      cases role <;> simp [NodeDef.ofRole, NodeDef.wasm?, hw]
    | none =>
      rw [hw, Option.none_or] at hb
      cases role <;> simp_all [FuelBudgets.of, WaferEngine.forPipeline]
  rw [WaferEngine.fuelBudget, if_pos hm]
  show some ((wasm.fuel.or (config.engine.fuel.of role)).getD u64Max) = some n
  rw [hb]
  rfl

/-! ## Guest calls -/

/-- Ticks a call of this phase may take. -/
def GuestPhase.deadline (phase : GuestPhase) (perCall : Nat) : Nat :=
  match phase with
  | .message => perCall
  | _ => lifecycleEpochDeadline perCall

theorem GuestPhase.deadline_of_ne {phase : GuestPhase} (h : phase ≠ .message) :
    phase.deadline = lifecycleEpochDeadline := by
  funext n
  cases phase with
  | message => exact absurd rfl h
  | start | validate | init | outputPorts => rfl

/-- The limits are set on the store. -/
structure GuestRun.Limited (run : GuestRun) (limits : NodeLimits) : Prop where
  memory : run.store.memoryLimit = limits.memoryLimit
  fuel : ∀ n, limits.fuel = some n → run.store.fuel = some n
  epoch : ∀ n, limits.epochDeadline = some n → run.store.epochDeadline = some (run.phase.deadline n)

namespace WasmNode

/-- `WasmRouterNode::output_ports`, asked at launch. -/
def outputPortsTraced (node : WasmNode) (setFuel : Except String Unit)
    (answer : Except String (List String)) :
    (Except WaferError (List String) × WasmNode) × List GuestRun :=
  match node.armLifecycleLimits .router setFuel, answer with
  | .error e, _ => ((.error e, node), [])
  | .ok armed, .error e =>
    ((.error (.pluginInit (node.label .router ++ " output-ports() trapped: " ++ e)), armed),
      [⟨.outputPorts, armed.store⟩])
  | .ok armed, .ok ports => ((.ok ports, armed), [⟨.outputPorts, armed.store⟩])

def outputPorts (node : WasmNode) (setFuel : Except String Unit)
    (answer : Except String (List String)) : Except WaferError (List String) × WasmNode :=
  (node.outputPortsTraced setFuel answer).1

end WasmNode

/-! ## Swap preparation -/

/-- Answers of the registry and wasmtime while a component is made into an instance. -/
structure Preparation where
  /-- reading, compiling and linking, which run no guest code -/
  linked : Except WaferError Plugin
  setFuel : Except String Unit := .ok ()
  instantiate : Except String Unit := .ok ()

def newSwapStore (engine : WaferEngine) (nodeId : String) (capabilities : Capabilities)
    (memoryLimit : Nat) (fuelLimit : Option Nat) (setFuel : Except String Unit) :
    Except WaferError Store :=
  match fuelLimit, setFuel with
  | some _, .error e => .error (.pluginInit ("failed to set fuel: " ++ e))
  | _, _ =>
    .ok { nodeId, capabilities, memoryLimit, fuel := fuelLimit,
          epochDeadline := engine.epochDeadline.map lifecycleEpochDeadline }

/-- Only transforms link the inference world. -/
def Role.link (role : Role) (capabilities : Capabilities) (plugin : Plugin) : Pre :=
  ⟨plugin, role = .transform && capabilities.allowInference⟩

/-- `prepare_transform_swap_timed_with_fuel`, `prepare_filter_swap_timed` and
`prepare_router_swap_timed`, with their guest calls. -/
def prepareSwap (engine : WaferEngine) (role : Role) (nodeId : String) (capabilities : Capabilities)
    (memoryLimit : Nat) (fuelLimit : Option Nat) (p : Preparation) :
    Except WaferError PreparedSwap × List GuestRun :=
  match p.linked with
  | .error e => (.error e, [])
  | .ok plugin =>
    match newSwapStore engine nodeId capabilities memoryLimit fuelLimit p.setFuel with
    | .error e => (.error e, [])
    | .ok store =>
      let pre := role.link capabilities plugin
      match p.instantiate with
      | .error e => (.error (.pluginInit ("instantiation failed: " ++ e)), [⟨.start, store⟩])
      | .ok () => (.ok ⟨store, pre, pre.instantiate, rfl⟩, [⟨.start, store⟩])

/-! ## Launch -/

/-- `new`, `configure_runtime` and `set_plugin_version` around a first instance. -/
def WasmNode.configured (engine : WaferEngine) (role : Role) (wasm : WasmNodeDef) (store : Store)
    (pre : Pre) : WasmNode where
  store := store
  bindings := pre.instantiate
  cachedPre := pre
  fuelLimit := engine.fuelBudget role wasm.fuel
  capabilities := store.capabilities
  memoryLimit := store.memoryLimit
  epochDeadline := engine.epochDeadline
  configJson := wasm.configJson
  pluginVersion := wasm.pluginVersion.getD ""

/-- `load_transform_node`, `load_filter_node` and `load_router_node`, with their guest calls. The
store is made as `newSwapStore` makes it. -/
def loadNode (engine : WaferEngine) (role : Role) (nodeId : String) (wasm : WasmNodeDef)
    (defaultMemory : Nat) (p : Preparation) (lc : Lifecycle) :
    Except WaferError WasmNode × List GuestRun :=
  match Capabilities.ofConfig wasm.capabilities, p.linked with
  | .error e, _ => (.error (.config ("invalid outbound HTTP capability: " ++ e.toString)), [])
  | .ok _, .error e => (.error e, [])
  | .ok capabilities, .ok plugin =>
    match newSwapStore engine nodeId capabilities (wasm.memoryLimit.getD defaultMemory)
        (engine.fuelBudget role wasm.fuel) p.setFuel with
    | .error e => (.error e, [])
    | .ok store =>
      let pre := role.link capabilities plugin
      let kind := (if pre.inference then "inference " else "") ++ role.name
      match p.instantiate with
      | .error e =>
        (.error (.pluginInit (kind ++ " '" ++ nodeId ++ "' instantiation failed: " ++ e)),
          [⟨.start, store⟩])
      | .ok () =>
        let initialised := (WasmNode.configured engine role wasm store pre).validateAndInitTraced role
          wasm.configJson lc
        (initialised.1.1.map fun () => initialised.1.2, ⟨.start, store⟩ :: initialised.2)

end Wafer
