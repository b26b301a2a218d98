import Wafer.Lib.Execution
import Wafer.Node.Launch

/-!
# Capabilities and limits across replacements

A Wasm node after its launch, under any sequence of swap preparations, hot
swaps, reconfigures, recoveries, canary rollbacks and message calls. Every
guest call is recorded with the store it began in.

## Main results

- `ManagedNode.limits_survive` — capabilities and limits hold for every guest call of every run
- `WasmNode.tryHotSwap_refused` — other capabilities are refused
-/

namespace Wafer

/-- What a node's store is held to: the values the node keeps for the stores it makes. -/
structure Sandbox where
  capabilities : Capabilities
  memoryLimit : Nat
  fuelLimit : Option Nat
  epochDeadline : Option Nat

/-- A guest call inside the sandbox. -/
structure GuestRun.Within (run : GuestRun) (b : Sandbox) : Prop where
  capabilities : run.store.capabilities = b.capabilities
  memory : run.store.memoryLimit = b.memoryLimit
  fuel : ∀ n, b.fuelLimit = some n → run.store.fuel = some n
  epoch : ∀ n, b.epochDeadline = some n → run.store.epochDeadline = some (run.phase.deadline n)

namespace WasmNode

/-- The node keeps these values and its store has them. -/
structure Within (node : WasmNode) (b : Sandbox) : Prop where
  capabilities : node.capabilities = b.capabilities
  memoryLimit : node.memoryLimit = b.memoryLimit
  fuelLimit : node.fuelLimit = b.fuelLimit
  epochDeadline : node.epochDeadline = b.epochDeadline
  storeCapabilities : node.store.capabilities = b.capabilities
  storeMemory : node.store.memoryLimit = b.memoryLimit

/-- An operation left the node within the sandbox, and its guest calls began inside. -/
structure Kept {α : Type} (b : Sandbox) (r : (α × WasmNode) × List GuestRun) : Prop where
  node : r.1.2.Within b
  runs : ∀ run ∈ r.2, run.Within b

section Operations

variable {role : Role} {node : WasmNode} {b : Sandbox} {lc : Lifecycle} {config : String}

/-- Without a guest call. -/
theorem Kept.silent {α : Type} {result : α} (h : node.Within b) : Kept b ((result, node), []) :=
  ⟨h, fun _ hr => absurd hr List.not_mem_nil⟩

/-- With guest calls made before. -/
theorem Kept.cons {α : Type} {r : α × WasmNode} {started runs : List GuestRun}
    (h : Kept b (r, runs)) (hs : ∀ run ∈ started, run.Within b) : Kept b (r, started ++ runs) :=
  ⟨h.node, fun run hr => (List.mem_append.mp hr).elim (hs run) (h.runs run)⟩

/-- A failed replacement leaves the node its own store, whatever else it puts back. -/
theorem Kept.putBack {α : Type} {result result' : α} {failed : WasmNode} {runs : List GuestRun}
    (hf : Kept b ((result, failed), runs)) (h : node.Within b) {bindings : Bindings}
    {cachedPre : Pre} : Kept b ((result', { failed with
      store := node.store, bindings, cachedPre, configJson := config }), runs) where
  node := ⟨hf.node.1, hf.node.2, hf.node.3, hf.node.4, h.5, h.6⟩
  runs := hf.runs

theorem Within.armLimits (h : node.Within b) (epochDeadline : Option Nat) :
    (node.armLimits epochDeadline).Within b :=
  ⟨h.capabilities, h.memoryLimit, h.fuelLimit, h.epochDeadline, h.storeCapabilities, h.storeMemory⟩

/-- A store armed for the phase is inside the sandbox. -/
theorem Within.armed (h : node.Within b) (phase : GuestPhase) :
    GuestRun.Within ⟨phase, (node.armLimits (node.epochDeadline.map phase.deadline)).store⟩ b where
  capabilities := h.storeCapabilities
  memory := h.storeMemory
  fuel n hn := by
    show node.fuelLimit.or node.store.fuel = some n
    rw [h.fuelLimit, hn]
    rfl
  epoch n hn := by
    show (node.epochDeadline.map phase.deadline).or node.store.epochDeadline = some (phase.deadline n)
    rw [h.epochDeadline, hn]
    rfl

theorem Within.armedLifecycle (h : node.Within b) {phase : GuestPhase} (hp : phase ≠ .message) :
    GuestRun.Within
      ⟨phase, (node.armLimits (node.epochDeadline.map lifecycleEpochDeadline)).store⟩ b := by
  rw [← GuestPhase.deadline_of_ne hp]
  exact h.armed phase

theorem armLifecycleLimits_ok {setFuel : Except String Unit} {armed : WasmNode}
    (h : node.armLifecycleLimits role setFuel = .ok armed) :
    armed = node.armLimits (node.epochDeadline.map lifecycleEpochDeadline) := by
  simp only [armLifecycleLimits] at h
  split at h
  · cases h
  · exact (Except.ok.inj h).symm

theorem Within.validateAndInit (h : node.Within b) :
    Kept b (node.validateAndInitTraced role config lc) := by
  simp only [validateAndInitTraced]
  cases ha : node.armLifecycleLimits role lc.lifecycleFuel with
  | error e => exact .silent h
  | ok armed =>
    obtain rfl := armLifecycleLimits_ok ha
    have hw := h.armLimits (node.epochDeadline.map lifecycleEpochDeadline)
    have hvalidate := h.armedLifecycle (show GuestPhase.validate ≠ .message by decide)
    have hinit := h.armedLifecycle (show GuestPhase.init ≠ .message by decide)
    dsimp only
    split
    · exact ⟨hw, by simpa using hvalidate⟩
    · exact ⟨hw, by simpa using hvalidate⟩
    · split
      · exact ⟨hw, by simpa using ⟨hvalidate, hinit⟩⟩
      · exact ⟨hw, by simpa using ⟨hvalidate, hinit⟩⟩
      · exact ⟨⟨hw.1, hw.2, hw.3, hw.4, hw.5, hw.6⟩, by simpa using ⟨hvalidate, hinit⟩⟩

/-- A recovery store is inside the sandbox before anything runs in it. -/
theorem Within.recoveryStore (h : node.Within b) {setFuel : Except String Unit} {store : Store}
    (hs : Wafer.recoveryStore node.store node.capabilities node.memoryLimit node.epochDeadline
      node.fuelLimit setFuel = .ok store) :
    GuestRun.Within ⟨.start, store⟩ b := by
  simp only [Wafer.recoveryStore] at hs
  split at hs
  · cases hs
  · obtain rfl := Except.ok.inj hs
    refine ⟨h.capabilities, h.memoryLimit, fun n hn => h.fuelLimit.trans hn, fun n hn => ?_⟩
    show node.epochDeadline.map lifecycleEpochDeadline = some (lifecycleEpochDeadline n)
    rw [h.epochDeadline, hn]
    rfl

/-- A node that takes over a store of the sandbox is within it. -/
theorem Within.withStore (h : node.Within b) {phase : GuestPhase} {store : Store}
    (hs : GuestRun.Within ⟨phase, store⟩ b) (bindings : Bindings) :
    ({ node with store, bindings } : WasmNode).Within b :=
  ⟨h.capabilities, h.memoryLimit, h.fuelLimit, h.epochDeadline, hs.capabilities, hs.memory⟩

/-- Start functions run inside the sandbox, and so does the node that takes over their store. -/
theorem Within.reinstantiate (h : node.Within b) {what : String}
    {result : Except WaferError (Store × Bindings)} {started : List GuestRun}
    (hr : node.reinstantiateTraced role what lc = (result, started)) :
    (∀ run ∈ started, run.Within b) ∧ ∀ store bindings, result = .ok (store, bindings) →
      ({ node with store, bindings } : WasmNode).Within b := by
  simp only [reinstantiateTraced] at hr
  split at hr
  · obtain ⟨rfl, rfl⟩ := Prod.mk.inj hr
    refine ⟨fun run hr => absurd hr List.not_mem_nil, fun store bindings ho => ?_⟩
    cases ho
  · next hs =>
    have hstart := h.recoveryStore hs
    split at hr <;> obtain ⟨rfl, rfl⟩ := Prod.mk.inj hr
    · refine ⟨by simpa using hstart, fun store bindings ho => ?_⟩
      cases ho
    · refine ⟨by simpa using hstart, fun store bindings ho => ?_⟩
      obtain ⟨rfl, rfl⟩ := Prod.mk.inj (Except.ok.inj ho)
      exact h.withStore hstart _

theorem Within.recoverFromCachedPre (h : node.Within b) :
    Kept b (node.recoverFromCachedPreTraced role lc) := by
  simp only [recoverFromCachedPreTraced]
  split
  · next hr => exact ⟨h, (h.reinstantiate hr).1⟩
  · next store bindings started hr =>
    obtain ⟨hstarted, hw⟩ := h.reinstantiate hr
    exact (hw store bindings rfl).validateAndInit.cons hstarted

/-- Other values of pre and configuration do not matter. -/
theorem Within.setConfig (h : node.Within b) (cachedPre : Pre) (configJson : String) :
    ({ node with cachedPre, configJson } : WasmNode).Within b :=
  ⟨h.1, h.2, h.3, h.4, h.5, h.6⟩

theorem Within.tryReconfigure (h : node.Within b) :
    Kept b (node.tryReconfigureTraced role config lc) := by
  simp only [tryReconfigureTraced]
  split
  · next hr => exact ⟨h, (h.reinstantiate hr).1⟩
  · next store bindings started hr =>
    obtain ⟨hstarted, hw⟩ := h.reinstantiate hr
    have hv := @Within.validateAndInit role _ b lc config
      ((hw store bindings rfl).setConfig node.cachedPre config)
    split
    · next hr =>
      rw [hr] at hv
      exact hv.cons hstarted
    · next hr =>
      rw [hr] at hv
      exact (hv.putBack h).cons hstarted

/-- A node that takes over a replacement with its capabilities and limit is within the sandbox. -/
theorem Within.swapIn (h : node.Within b) {replacement : PreparedSwap}
    (hcap : replacement.store.capabilities = node.capabilities)
    (hm : replacement.store.memoryLimit = b.memoryLimit) :
    ({ node with
      store := replacement.store, bindings := replacement.bindings,
      cachedPre := replacement.pre } : WasmNode).Within b :=
  ⟨h.1, h.2, h.3, h.4, hcap.trans h.capabilities, hm⟩

theorem Within.tryHotSwap (h : node.Within b) {replacement : PreparedSwap}
    (hm : replacement.store.memoryLimit = b.memoryLimit) :
    Kept b (node.tryHotSwapTraced role replacement lc) := by
  simp only [tryHotSwapTraced]
  split
  · exact .silent h
  split
  · exact .silent h
  next hc =>
    -- the payload passed the check, so its store has the node's capabilities
    have hv := @Within.validateAndInit role _ b lc node.configJson (h.swapIn (not_ne_iff.mp hc) hm)
    split
    · next hr =>
      rw [hr] at hv
      exact hv
    · next hr =>
      rw [hr] at hv
      exact hv.putBack h

/-- A payload with other capabilities is refused, and the node is as before. -/
theorem tryHotSwap_refused {replacement : PreparedSwap}
    (h : replacement.store.capabilities ≠ node.capabilities) :
    ∃ e, node.tryHotSwap role replacement lc = (.error e, node) := by
  rw [tryHotSwap_eq]
  split
  · exact ⟨_, rfl⟩
  · exact ⟨_, rfl⟩

theorem Within.callGuest {α : Type} {call : GuestCall α} (h : node.Within b) :
    Kept b (node.callGuestTraced call) := by
  have ha := h.armed .message
  rw [show GuestPhase.message.deadline = id from rfl, Option.map_id_fun, id] at ha
  simp only [callGuestTraced]
  split
  · exact .silent h
  · split
    · exact .silent (h.armLimits _)
    · split <;> exact ⟨h.armLimits _, by simpa using ha⟩

theorem Within.outputPorts (h : node.Within b) {setFuel : Except String Unit}
    {answer : Except String (List String)} : Kept b (node.outputPortsTraced setFuel answer) := by
  simp only [outputPortsTraced]
  split
  · exact .silent h
  all_goals
    next ha =>
      obtain rfl := armLifecycleLimits_ok ha
      have hports := h.armedLifecycle (show GuestPhase.outputPorts ≠ .message by decide)
      exact ⟨h.armLimits _, by simpa using hports⟩

end Operations

end WasmNode

/-! ## Launch and preparation -/

section Stores

variable {engine : WaferEngine} {role : Role} {nodeId : String} {capabilities : Capabilities}
  {memoryLimit : Nat} {fuelLimit : Option Nat} {wasm : WasmNodeDef} {p : Preparation}
  {run : GuestRun}

theorem newSwapStore_within {setFuel : Except String Unit} {store : Store}
    (h : newSwapStore engine nodeId capabilities memoryLimit fuelLimit setFuel = .ok store) :
    GuestRun.Within ⟨.start, store⟩ ⟨capabilities, memoryLimit, fuelLimit, engine.epochDeadline⟩ := by
  simp only [newSwapStore] at h
  split at h
  · cases h
  · obtain rfl := Except.ok.inj h
    refine ⟨rfl, rfl, fun n hn => hn, fun n hn => ?_⟩
    show engine.epochDeadline.map lifecycleEpochDeadline = some (lifecycleEpochDeadline n)
    rw [show engine.epochDeadline = some n from hn]
    rfl

/-- A prepared swap and the guest calls of its preparation are inside its own sandbox. -/
theorem prepareSwap_within {result : Except WaferError PreparedSwap} {runs : List GuestRun}
    (h : prepareSwap engine role nodeId capabilities memoryLimit fuelLimit p = (result, runs)) :
    (∀ s, result = .ok s → s.store.memoryLimit = memoryLimit) ∧
      ∀ run ∈ runs, run.Within ⟨capabilities, memoryLimit, fuelLimit, engine.epochDeadline⟩ := by
  unfold prepareSwap at h
  split at h
  · obtain ⟨rfl, rfl⟩ := Prod.mk.inj h
    exact ⟨fun s hs => (nomatch hs), nofun⟩
  split at h
  · obtain ⟨rfl, rfl⟩ := Prod.mk.inj h
    exact ⟨fun s hs => (nomatch hs), nofun⟩
  next store hs =>
    have hw := newSwapStore_within hs
    dsimp only at h
    split at h
    · obtain ⟨rfl, rfl⟩ := Prod.mk.inj h
      exact ⟨fun s hs => (nomatch hs), fun run hr => List.mem_singleton.mp hr ▸ hw⟩
    · obtain ⟨rfl, rfl⟩ := Prod.mk.inj h
      refine ⟨?_, fun run hr => List.mem_singleton.mp hr ▸ hw⟩
      rintro s hs
      obtain rfl := Except.ok.inj hs
      exact hw.memory

/-- A loaded node and the guest calls of its launch are inside the configured sandbox. -/
theorem loadNode_within {defaultMemory : Nat} {lc : Lifecycle} {node : WasmNode}
    {runs : List GuestRun}
    (h : loadNode engine role nodeId wasm defaultMemory p lc = (.ok node, runs)) :
    Capabilities.ofConfig wasm.capabilities = .ok node.capabilities ∧
      node.Within ⟨node.capabilities, wasm.memoryLimit.getD defaultMemory,
        engine.fuelBudget role wasm.fuel, engine.epochDeadline⟩ ∧
      ∀ run ∈ runs, run.Within ⟨node.capabilities, wasm.memoryLimit.getD defaultMemory,
        engine.fuelBudget role wasm.fuel, engine.epochDeadline⟩ := by
  unfold loadNode at h
  split at h
  · cases h
  · cases h
  next capabilities plugin hcaps hlinked =>
    dsimp only at h
    split at h
    · cases h
    next store hs =>
      have hw := newSwapStore_within hs
      split at h
      · cases h
      · obtain ⟨hresult, rfl⟩ := Prod.mk.inj h
        have hf : (WasmNode.configured engine role wasm store (role.link capabilities plugin)).Within
            ⟨capabilities, wasm.memoryLimit.getD defaultMemory, engine.fuelBudget role wasm.fuel,
              engine.epochDeadline⟩ :=
          ⟨hw.capabilities, hw.memory, rfl, rfl, hw.capabilities, hw.memory⟩
        have hinit := @WasmNode.Within.validateAndInit role _ _ lc wasm.configJson hf
        generalize (WasmNode.configured engine role wasm store
          (role.link capabilities plugin)).validateAndInitTraced role wasm.configJson lc = r
          at hinit hresult
        obtain ⟨⟨outcome, node'⟩, runs⟩ := r
        cases outcome with
        | error e => cases hresult
        | ok _ =>
          obtain rfl := Except.ok.inj hresult
          have hcap : node'.capabilities = capabilities := hinit.node.capabilities
          rw [hcap]
          refine ⟨hcaps, hinit.node, fun run hr => ?_⟩
          rcases List.mem_cons.mp hr with rfl | hr
          · exact hw
          · exact hinit.runs run hr

end Stores

/-! ## Runs of a node -/

/-- A node as its launch loaded it, with its definition in the configuration. -/
structure Launched where
  config : Config
  role : Role
  nodeId : String
  wasm : WasmNodeDef
  declared : (nodeId, NodeDef.ofRole role wasm) ∈ config.nodes
  node : WasmNode
  runs : List GuestRun
  loaded : ∃ p lc, loadNode (.forPipeline config) role nodeId wasm (config.engine.memory.of role) p lc =
    (.ok node, runs)

namespace Launched

def engine (l : Launched) : WaferEngine := .forPipeline l.config

def limits (l : Launched) : NodeLimits := l.config.limits l.role l.wasm

def sandbox (l : Launched) : Sandbox where
  capabilities := l.node.capabilities
  memoryLimit := l.limits.memoryLimit
  fuelLimit := l.engine.fuelBudget l.role l.wasm.fuel
  epochDeadline := l.limits.epochDeadline

/-- Inside the sandbox every configured limit is set. -/
theorem limited {l : Launched} {run : GuestRun} {capabilities : Capabilities}
    (h : run.Within { l.sandbox with capabilities }) : run.Limited l.limits where
  memory := h.memory
  fuel n hn := h.fuel n (Config.fuelBudget_eq l.declared hn)
  epoch n hn := h.epoch n hn

theorem within (l : Launched) : l.node.Within l.sandbox ∧ ∀ run ∈ l.runs, run.Within l.sandbox := by
  obtain ⟨p, lc, h⟩ := l.loaded
  exact (loadNode_within h).2

end Launched

/-- A node, the swaps prepared for it, and the guest calls so far: those of the preparations, which
run in the stores of the payloads, and those of the node itself. -/
structure ManagedNode where
  node : WasmNode
  prepared : List PreparedSwap := []
  swapRuns : List GuestRun := []
  runs : List GuestRun

inductive NodeOp
  /-- the API prepares a payload, with the node's limits and any capabilities -/
  | prepare (capabilities : Capabilities) (p : Preparation)
  | hotSwap (replacement : PreparedSwap) (lc : Lifecycle)
  | reconfigure (newConfigJson : String) (lc : Lifecycle)
  | recover (lc : Lifecycle)
  /-- the canary of a transform puts a replaced component back and recovers -/
  | rollBack (pre : Pre) (lc : Lifecycle)
  | outputPorts (setFuel : Except String Unit) (answer : Except String (List String))
  | process (call : GuestCall OutputMessage)
  | evaluate (call : GuestCall Bool)
  | route (call : GuestCall (List String))

namespace ManagedNode

variable {l : Launched} {s t : ManagedNode} {op : NodeOp} {ops : List NodeOp}

/-- The node after an operation, with the guest calls of the operation. -/
def after {α : Type} (s : ManagedNode) (r : (α × WasmNode) × List GuestRun) : ManagedNode :=
  { s with node := r.1.2, runs := r.2 ++ s.runs }

def step (l : Launched) (s : ManagedNode) : NodeOp → Option ManagedNode
  | .prepare capabilities p =>
    let r := prepareSwap l.engine l.role l.nodeId capabilities
      (l.wasm.memoryLimit.getD (l.config.engine.memory.of l.role))
      (l.engine.fuelBudget l.role l.wasm.fuel) p
    some { s with
      prepared := match r.1 with
        | .ok replacement => replacement :: s.prepared
        | .error _ => s.prepared
      swapRuns := r.2 ++ s.swapRuns }
  | .hotSwap replacement lc =>
    if replacement ∈ s.prepared then
      some (s.after (s.node.tryHotSwapTraced l.role replacement lc))
    else none
  | .reconfigure newConfigJson lc =>
    some (s.after (s.node.tryReconfigureTraced l.role newConfigJson lc))
  | .recover lc => some (s.after (s.node.recoverFromCachedPreTraced l.role lc))
  | .rollBack pre lc =>
    if l.role = .transform then
      some (s.after ((s.node.setCachedPre pre).recoverFromCachedPreTraced l.role lc))
    else none
  | .outputPorts setFuel answer =>
    if l.role = .router then some (s.after (s.node.outputPortsTraced setFuel answer)) else none
  | .process call =>
    if l.role = .transform then some (s.after (s.node.callGuestTraced call)) else none
  | .evaluate call =>
    if l.role = .filter then some (s.after (s.node.callGuestTraced call)) else none
  | .route call =>
    if l.role = .router then some (s.after (s.node.callGuestTraced call)) else none

def start (l : Launched) : ManagedNode := { node := l.node, runs := l.runs }

/-- A run of the node from its launch on. -/
def run (l : Launched) (ops : List NodeOp) : Option ManagedNode := Lib.exec (step l) (start l) ops

/-- Node and guest calls are inside the sandbox; payloads have the node's limits. -/
structure Guarded (l : Launched) (s : ManagedNode) : Prop where
  node : s.node.Within l.sandbox
  prepared : ∀ replacement ∈ s.prepared, replacement.store.memoryLimit = l.limits.memoryLimit
  swapRuns : ∀ run ∈ s.swapRuns, run.Limited l.limits
  runs : ∀ run ∈ s.runs, run.Within l.sandbox

theorem Guarded.after {α : Type} {r : (α × WasmNode) × List GuestRun} (h : s.Guarded l)
    (hr : WasmNode.Kept l.sandbox r) : (s.after r).Guarded l :=
  ⟨hr.node, h.prepared, h.swapRuns,
    fun run hm => (List.mem_append.mp hm).elim (hr.runs run) (h.runs run)⟩

theorem Guarded.step (h : s.Guarded l) (hs : ManagedNode.step l s op = some t) : t.Guarded l := by
  cases op with
  | prepare capabilities p =>
    obtain rfl := Option.some.inj hs
    generalize hr : prepareSwap l.engine l.role l.nodeId capabilities
      (l.wasm.memoryLimit.getD (l.config.engine.memory.of l.role))
      (l.engine.fuelBudget l.role l.wasm.fuel) p = r
    obtain ⟨result, runs⟩ := r
    obtain ⟨hp, hw⟩ := prepareSwap_within hr
    refine ⟨h.node, ?_, ?_, h.runs⟩
    · cases result with
      | error e => exact h.prepared
      | ok replacement =>
        intro s hs
        rcases List.mem_cons.mp hs with rfl | hs
        · exact hp _ rfl
        · exact h.prepared s hs
    · intro run hm
      rcases List.mem_append.mp hm with hm | hm
      · exact Launched.limited (hw run hm)
      · exact h.swapRuns run hm
  | hotSwap replacement lc =>
    simp only [ManagedNode.step] at hs
    split at hs
    · next hm =>
      obtain rfl := Option.some.inj hs
      exact h.after (h.node.tryHotSwap (h.prepared replacement hm))
    · cases hs
  | reconfigure newConfigJson lc =>
    obtain rfl := Option.some.inj hs
    exact h.after h.node.tryReconfigure
  | recover lc =>
    obtain rfl := Option.some.inj hs
    exact h.after h.node.recoverFromCachedPre
  | rollBack pre lc =>
    simp only [ManagedNode.step] at hs
    split at hs <;> cases hs
    have hn : (s.node.setCachedPre pre).Within l.sandbox := h.node.setConfig pre s.node.configJson
    exact h.after hn.recoverFromCachedPre
  | outputPorts setFuel answer =>
    simp only [ManagedNode.step] at hs
    split at hs <;> cases hs
    exact h.after h.node.outputPorts
  | process call | evaluate call | route call =>
    simp only [ManagedNode.step] at hs
    split at hs <;> cases hs
    exact h.after h.node.callGuest

theorem guarded_start (l : Launched) : (start l).Guarded l :=
  ⟨l.within.1, fun _ h => (nomatch h), fun _ h => (nomatch h), l.within.2⟩

/-- Whatever was swapped, reconfigured, recovered or rolled back: the node's store has the
capabilities of the launch and the configured memory limit, as had every store the node ran a guest
call in; every configured fuel or epoch limit was set on the store when the call began; and a payload
with other capabilities is refused with the node unchanged. -/
theorem limits_survive (h : run l ops = some s) :
    Capabilities.ofConfig l.wasm.capabilities = .ok l.node.capabilities ∧
    s.node.store.capabilities = l.node.capabilities ∧
    s.node.store.memoryLimit = l.limits.memoryLimit ∧
    (∀ run ∈ s.runs, run.store.capabilities = l.node.capabilities ∧ run.Limited l.limits) ∧
    (∀ run ∈ s.swapRuns, run.Limited l.limits) ∧
    ∀ replacement lc, replacement.store.capabilities ≠ l.node.capabilities →
      ∃ e, s.node.tryHotSwap l.role replacement lc = (.error e, s.node) := by
  have hg : s.Guarded l :=
    Lib.exec_invariant (fun s op t hs ht => Guarded.step hs ht) h (guarded_start l)
  obtain ⟨p, lc, hload⟩ := l.loaded
  refine ⟨(loadNode_within hload).1, hg.node.storeCapabilities, hg.node.storeMemory, ?_, hg.swapRuns,
    ?_⟩
  · intro run hr
    exact ⟨(hg.runs run hr).capabilities, Launched.limited (hg.runs run hr)⟩
  · intro replacement lc hne
    apply WasmNode.tryHotSwap_refused
    rwa [hg.node.capabilities]

/-- A transform with fuel of its own in an engine with an epoch deadline. -/
def meteredConfig : Config where
  engine := { epochDeadline := some 2 }
  nodes := [("scale", .transform { plugin := .wasm "scale.wasm", fuel := some 7 })]

def meteredLaunch : Launched where
  config := meteredConfig
  role := .transform
  nodeId := "scale"
  wasm := { plugin := .wasm "scale.wasm", fuel := some 7 }
  declared := List.mem_singleton.mpr rfl
  node := {
    store := ⟨"scale", {}, 67108864, some 7, some 1000⟩
    bindings := ⟨⟨⟨[1], "aa"⟩, false⟩, some "{}"⟩
    cachedPre := ⟨⟨[1], "aa"⟩, false⟩
    fuelLimit := some 7
    capabilities := {}
    memoryLimit := 67108864
    epochDeadline := some 2
    configJson := "{}"
    pluginVersion := "" }
  runs := [⟨.start, ⟨"scale", {}, 67108864, some 7, some 1000⟩⟩,
    ⟨.validate, ⟨"scale", {}, 67108864, some 7, some 1000⟩⟩,
    ⟨.init, ⟨"scale", {}, 67108864, some 7, some 1000⟩⟩]
  loaded := ⟨⟨.ok ⟨[1], "aa"⟩, .ok (), .ok ()⟩, {}, rfl⟩

/-- A payload with more rights, refused; then a trap recovery. -/
def widened : PreparedSwap where
  store := ⟨"scale", { inheritEnv := true }, 67108864, some 7, some 1000⟩
  pre := ⟨⟨[2], "bb"⟩, false⟩
  bindings := Pre.instantiate ⟨⟨[2], "bb"⟩, false⟩
  fromPre := rfl

def refusedThenRecovered : List NodeOp :=
  [.prepare { inheritEnv := true } ⟨.ok ⟨[2], "bb"⟩, .ok (), .ok ()⟩, .hotSwap widened {}, .recover {}]

theorem limits_survive_refused :
    ∃ s, run meteredLaunch refusedThenRecovered = some s ∧ widened ∈ s.prepared ∧
      s.node.bindings.pre = ⟨⟨[1], "aa"⟩, false⟩ ∧
      s.node.store.capabilities = meteredLaunch.node.capabilities := by
  have hr : ∃ s, run meteredLaunch refusedThenRecovered = some s ∧ widened ∈ s.prepared ∧
      s.node.bindings.pre = ⟨⟨[1], "aa"⟩, false⟩ := ⟨_, rfl, List.mem_singleton.mpr rfl, rfl⟩
  obtain ⟨s, h, hp, hb⟩ := hr
  exact ⟨s, h, hp, hb, (limits_survive h).2.1⟩

end ManagedNode

end Wafer
