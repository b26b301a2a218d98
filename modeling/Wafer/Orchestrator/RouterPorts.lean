import Mathlib.Data.List.Dedup
import Mathlib.Data.String.Basic
import Wafer.Orchestrator.Builder
import Wafer.Runner.NodeUse

/-!
# Router ports

At launch a router is asked for its output ports, and an edge on another port
is an error. A hot swap or a reconfigure of a running router does not ask the
new instance. What an instance answers is a parameter: it depends on the
component and on the configuration that `init()` accepted.

## Main results

- `LaunchedRouter.ports_declared` — when the edges stay on declared ports
- `LaunchedRouter.sender_ports` — the senders of the router are on the ports of its edges
-/

namespace Wafer

/-- `{:?}` of a string. `printable` is what the Unicode tables of the standard library leave as it
is: printable, and no combining mark. -/
def debugText (printable : Char → Bool) (s : String) : String :=
  s.foldl (fun text c => text ++ match c with
    | '\x00' => "\\0"
    | '\t' => "\\t"
    | '\r' => "\\r"
    | '\n' => "\\n"
    | '\x22' => "\\\""
    | '\x5c' => "\\\\"
    | c => if printable c then c.toString
      else "\\u\x7b" ++ String.ofList (Nat.toDigits 16 c.toNat) ++ "\x7d") "\"" ++ "\""

/-- The port an edge takes out of its source node. -/
def EdgeDef.fromPort (edge : EdgeDef) : String := edge.port.getD "default"

/-- Ports of the router's edges that it does not declare, in order. -/
def unknownPorts (nodeId : String) (edges : List EdgeDef) (declared : List String) : List String :=
  (((edges.filter (·.fromNode = nodeId)).map EdgeDef.fromPort).filter
    (· ∉ declared)).dedup.mergeSort

/-- The error of `check_router_edge_ports`. -/
def undeclaredPorts (printable : Char → Bool) (nodeId : String) (unknown declared : List String) :
    WaferError :=
  .config ("router '" ++ nodeId ++ "' has edges on undeclared port(s) \x7b" ++
    ", ".intercalate (unknown.map (debugText printable)) ++ "\x7d; it declares [" ++
    ", ".intercalate (declared.map (debugText printable)) ++ "]")

/-- `check_router_edge_ports`, with the answer of the guest. -/
def checkRouterEdgePorts (printable : Char → Bool) (nodeId : String) (router : WasmNode)
    (edges : List EdgeDef) (setFuel : Except String Unit) (answer : Except String (List String)) :
    Except WaferError Unit × WasmNode :=
  match router.outputPorts setFuel answer with
  | (.error e, router) => (.error e, router)
  | (.ok declared, router) =>
    match unknownPorts nodeId edges declared with
    | [] => (.ok (), router)
    | unknown => (.error (undeclaredPorts printable nodeId unknown declared), router)

/-- The router's edges are all on ports in the list. -/
def PortsWithin (nodeId : String) (edges : List EdgeDef) (declared : List String) : Prop :=
  ∀ edge ∈ edges, edge.fromNode = nodeId → edge.fromPort ∈ declared

theorem unknownPorts_eq_nil {nodeId : String} {edges : List EdgeDef} {declared : List String} :
    unknownPorts nodeId edges declared = [] ↔ PortsWithin nodeId edges declared := by
  rw [List.eq_nil_iff_forall_not_mem]
  constructor
  · intro h edge he hf
    by_contra hport
    refine h edge.fromPort ?_
    simp only [unknownPorts, List.mem_mergeSort, List.mem_dedup, List.mem_filter, List.mem_map]
    exact ⟨⟨edge, ⟨he, by simpa using hf⟩, rfl⟩, by simpa using hport⟩
  · intro h port hp
    simp only [unknownPorts, List.mem_mergeSort, List.mem_dedup, List.mem_filter, List.mem_map] at hp
    obtain ⟨⟨edge, ⟨he, hf⟩, rfl⟩, hport⟩ := hp
    exact absurd (h edge he (by simpa using hf)) (by simpa using hport)

/-- The check passes exactly when the guest answers with every port an edge is on. -/
theorem checkRouterEdgePorts_ok {printable : Char → Bool} {nodeId : String}
    {router router' : WasmNode} {edges : List EdgeDef} {setFuel : Except String Unit}
    {answer : Except String (List String)}
    (h : checkRouterEdgePorts printable nodeId router edges setFuel answer = (.ok (), router')) :
    (∃ declared, answer = .ok declared ∧ PortsWithin nodeId edges declared) ∧
      router'.loaded = router.loaded ∧ router'.cachedPre = router.cachedPre := by
  simp only [checkRouterEdgePorts, WasmNode.outputPorts, WasmNode.outputPortsTraced] at h
  cases ha : router.armLifecycleLimits .router setFuel with
  | error e => rw [ha] at h; cases h
  | ok armed =>
    rw [ha] at h
    obtain rfl := WasmNode.armLifecycleLimits_ok ha
    cases answer with
    | error e => cases h
    | ok declared =>
      dsimp only at h
      split at h
      · next hu =>
        obtain ⟨-, rfl⟩ := Prod.mk.inj h
        exact ⟨⟨declared, rfl, unknownPorts_eq_nil.mp hu⟩, rfl, rfl⟩
      · cases h

/-! ## Replacements that go through -/

/-- Metering is set and the guest accepts its configuration. -/
structure Lifecycle.Passes (lc : Lifecycle) (fuelLimit : Option Nat) : Prop where
  fuel : fuelLimit.isSome = true → lc.lifecycleFuel = .ok ()
  validate : lc.validate = .ok none
  init : lc.init = .ok (.ok ())

/-- A fresh instance of the cached pre can be made and passes. -/
structure Lifecycle.Rebuilds (lc : Lifecycle) (fuelLimit : Option Nat) : Prop where
  fuel : fuelLimit.isSome = true → lc.recoveryFuel = .ok ()
  instantiate : lc.instantiate = .ok ()
  passes : lc.Passes fuelLimit

namespace WasmNode

variable {role : Role} {node : WasmNode} {config : String} {lc : Lifecycle}

theorem armLifecycleLimits_ok_iff {setFuel : Except String Unit} :
    (∃ armed, node.armLifecycleLimits role setFuel = .ok armed) ↔
      (node.fuelLimit.isSome = true → setFuel = .ok ()) := by
  simp only [armLifecycleLimits]
  cases node.fuelLimit with
  | none => simp
  | some n => cases setFuel <;> simp

theorem validateAndInit_ok_iff :
    (node.validateAndInit role config lc).1 = .ok () ↔ lc.Passes node.fuelLimit := by
  have harm := @armLifecycleLimits_ok_iff role node lc.lifecycleFuel
  simp only [validateAndInit, validateAndInitTraced]
  constructor
  · intro h
    split at h
    · cases h
    · next armed ha =>
      split at h
      · cases h
      · cases h
      · next hv =>
        split at h
        · cases h
        · cases h
        · next hi => exact ⟨harm.mp ⟨armed, ha⟩, hv, hi⟩
  · rintro ⟨hf, hv, hi⟩
    obtain ⟨armed, ha⟩ := harm.mpr hf
    simp only [ha, hv, hi]

theorem reinstantiate_ok_iff {what : String} :
    (∃ p, node.reinstantiate role what lc = .ok p) ↔
      (node.fuelLimit.isSome = true → lc.recoveryFuel = .ok ()) ∧ lc.instantiate = .ok () := by
  simp only [reinstantiate, reinstantiateTraced, recoveryStore]
  cases node.fuelLimit with
  | none => cases lc.instantiate <;> simp
  | some n => cases lc.recoveryFuel <;> cases lc.instantiate <;> simp

/-- When a reconfigure is adopted. -/
theorem tryReconfigure_ok_iff :
    (node.tryReconfigure role config lc).1 = .ok () ↔ lc.Rebuilds node.fuelLimit := by
  have hr := @reinstantiate_ok_iff role node lc "reconfigure"
  rw [tryReconfigure_eq]
  cases hp : node.reinstantiate role "reconfigure" lc with
  | error e =>
    refine ⟨by rintro ⟨⟩, fun h => ?_⟩
    obtain ⟨p, hok⟩ := hr.mpr ⟨h.fuel, h.instantiate⟩
    cases hok.symm.trans hp
  | ok p =>
    obtain ⟨store, bindings⟩ := p
    obtain ⟨hf, hi⟩ := hr.mp ⟨_, hp⟩
    have hv := @validateAndInit_ok_iff role
      { node with store, bindings, configJson := config } config lc
    dsimp only at hv ⊢
    generalize { node with store, bindings, configJson := config }.validateAndInit role config lc
      = r at hv
    obtain ⟨outcome, replaced⟩ := r
    cases outcome with
    | error e => exact ⟨by rintro ⟨⟩, fun h => hv.mpr h.passes⟩
    | ok u => exact ⟨fun _ => ⟨hf, hi, hv.mp rfl⟩, fun _ => rfl⟩

/-- When a hot swap of a filter or router is adopted. -/
theorem tryHotSwap_ok_iff {replacement : PreparedSwap} (hrole : role ≠ .transform) :
    (node.tryHotSwap role replacement lc).1 = .ok () ↔
      replacement.store.capabilities = node.capabilities ∧ lc.Passes node.fuelLimit := by
  rw [tryHotSwap_eq, if_neg fun h => hrole h.1]
  split
  · next hc => exact ⟨by rintro ⟨⟩, fun h => absurd h.1 hc⟩
  · next hc =>
    have hv := @validateAndInit_ok_iff role { node with
      store := replacement.store, bindings := replacement.bindings,
      cachedPre := replacement.pre } node.configJson lc
    dsimp only at hv ⊢
    generalize { node with
      store := replacement.store, bindings := replacement.bindings,
      cachedPre := replacement.pre }.validateAndInit role node.configJson lc = r at hv
    obtain ⟨outcome, replaced⟩ := r
    cases outcome with
    | error e => exact ⟨by rintro ⟨⟩, fun h => hv.mpr h.2⟩
    | ok u => exact ⟨fun _ => ⟨not_ne_iff.mp hc, hv.mp rfl⟩, fun _ => rfl⟩

end WasmNode

/-! ## A router after its launch -/

theorem loadNode_coherent {engine : WaferEngine} {role : Role} {nodeId : String} {wasm : WasmNodeDef}
    {defaultMemory : Nat} {p : Preparation} {lc : Lifecycle} {node : WasmNode}
    {runs : List GuestRun}
    (h : loadNode engine role nodeId wasm defaultMemory p lc = (.ok node, runs)) :
    node.Coherent := by
  unfold loadNode at h
  split at h
  · cases h
  · cases h
  next capabilities plugin _ _ =>
  dsimp only at h
  split at h
  · cases h
  next store _ =>
  split at h
  · cases h
  · obtain ⟨hresult, -⟩ := Prod.mk.inj h
    have hf := WasmNode.validateAndInit_frame role
      (WasmNode.configured engine role wasm store (role.link capabilities plugin)) wasm.configJson lc
    simp only [WasmNode.validateAndInit] at hf
    generalize (WasmNode.configured engine role wasm store
      (role.link capabilities plugin)).validateAndInitTraced role wasm.configJson lc = r
      at hresult hf
    obtain ⟨⟨outcome, node'⟩, calls⟩ := r
    cases outcome with
    | error e => cases hresult
    | ok _ =>
      obtain rfl := Except.ok.inj hresult
      exact hf.1.trans hf.2.1.symm

/-- A router as its launch accepted it. `declares` gives the answer of `output-ports()`, by
component and accepted configuration. -/
structure LaunchedRouter (declares : Pre → String → List String) where
  launched : Launched
  role : launched.role = .router
  setFuel : Except String Unit
  printable : Char → Bool
  node : WasmNode
  accepted : checkRouterEdgePorts printable launched.nodeId launched.node launched.config.edges
    setFuel (.ok (declares launched.node.bindings.pre launched.node.configJson)) = (.ok (), node)

namespace LaunchedRouter

variable {declares : Pre → String → List String} (r : LaunchedRouter declares)

def nodeId : String := r.launched.nodeId

def edges : List EdgeDef := r.launched.config.edges

/-- The instance declares the port of every edge of the router. -/
def Fits (node : WasmNode) : Prop :=
  PortsWithin r.nodeId r.edges (declares node.bindings.pre node.configJson)

theorem coherent : r.node.Coherent := by
  obtain ⟨p, lc, hload⟩ := r.launched.loaded
  obtain ⟨-, hl, hc⟩ := checkRouterEdgePorts_ok r.accepted
  have hb : r.node.bindings.pre = r.launched.node.bindings.pre := congrArg Prod.fst hl
  exact hb.trans ((loadNode_coherent hload).trans hc.symm)

theorem fits : r.Fits r.node := by
  obtain ⟨⟨declared, hd, hp⟩, hl, -⟩ := checkRouterEdgePorts_ok r.accepted
  obtain rfl := Except.ok.inj hd
  have hb : r.node.bindings.pre = r.launched.node.bindings.pre := congrArg Prod.fst hl
  have hj : r.node.configJson = r.launched.node.configJson := congrArg Prod.snd hl
  rw [Fits, hb, hj]
  exact hp

/-- The loop of the router, as the orchestrator spawns it. -/
def setup (capacity : Nat) (policy : ResolvedErrorPolicy) (dlqSender : Option DlqSender)
    (hashes : PluginHashes) : LoopSetup :=
  { node := .wasm r.node, coherent := LoadedNode.coherent_wasm.mpr r.coherent, capacity, policy,
    dlqSender, hashes }

/-- If the payload is adopted, what it loads declares the port of every edge of the router. -/
def Offers (node : WasmNode) (request : Request) (lc : Lifecycle) : Prop :=
  match request.kind, request.replacement with
  | .reconfigure config, _ =>
    lc.Rebuilds node.fuelLimit → PortsWithin r.nodeId r.edges (declares node.cachedPre config)
  | .router, some replacement =>
    replacement.store.capabilities = node.capabilities → lc.Passes node.fuelLimit →
      PortsWithin r.nodeId r.edges (declares replacement.pre node.configJson)
  | _, _ => True

/-- Every payload that the step adopts declares the router's ports. -/
def OffersAt (w : World) (e : Event) : Prop :=
  ∀ lc attempts id node, e = .applied lc attempts → w.pc = .applying id → w.node = .wasm node →
    r.Offers node (w.requests id) lc

/-- The router of the loop declares the port of every edge. -/
def PortsDeclared (loaded : LoadedNode) : Prop := ∃ node, loaded = .wasm node ∧ r.Fits node

section Steps

variable {r} {node node' : WasmNode} {lc : Lifecycle} {config : String}
  {result : Except WaferError Unit}

theorem reconfigured_fits (hg : r.Fits node)
    (h : node.tryReconfigure .router config lc = (result, node')) :
    r.Fits node' ↔ (lc.Rebuilds node.fuelLimit →
      PortsWithin r.nodeId r.edges (declares node.cachedPre config)) := by
  obtain ⟨hok, hkept⟩ := WasmNode.tryReconfigure_spec h
  have hiff := @WasmNode.tryReconfigure_ok_iff .router node config lc
  rw [h] at hiff
  by_cases hr : result = .ok ()
  · obtain ⟨hp, -, hj⟩ := hok hr
    rw [Fits, hp, hj]
    exact ⟨fun hw _ => hw, fun hw => hw (hiff.mp hr)⟩
  · rw [hkept hr]
    exact ⟨fun _ hb => absurd (hiff.mpr hb) hr, fun _ => hg⟩

theorem swapped_fits {replacement : PreparedSwap} (hg : r.Fits node)
    (h : node.tryHotSwap .router replacement lc = (result, node')) :
    r.Fits node' ↔ (replacement.store.capabilities = node.capabilities →
      lc.Passes node.fuelLimit →
      PortsWithin r.nodeId r.edges (declares replacement.pre node.configJson)) := by
  obtain ⟨hj, hok, hkept⟩ := WasmNode.tryHotSwap_spec h
  have hiff := @WasmNode.tryHotSwap_ok_iff .router node lc replacement nofun
  rw [h] at hiff
  by_cases hr : result = .ok ()
  · obtain ⟨hp, -⟩ := hok hr
    obtain ⟨hc, hl⟩ := hiff.mp hr
    rw [Fits, hp, hj]
    exact ⟨fun hw _ _ => hw, fun hw => hw hc hl⟩
  · rw [hkept hr]
    exact ⟨fun _ hc hb => absurd (hiff.mpr ⟨hc, hb⟩) hr, fun _ => hg⟩

@[simp] theorem portsDeclared_wasm : r.PortsDeclared (.wasm node) ↔ r.Fits node := by
  simp [PortsDeclared]

/-- Refused or adopted, an attempted replacement leaves a router that fits exactly when the payload
offers it. -/
theorem replaced_fits (hg : r.Fits node) (request : Request) (lc : Lifecycle) :
    r.PortsDeclared (World.tryReplace .router (.wasm node) request lc).2.1 ↔
      r.Offers node request lc := by
  obtain ⟨status, kind, replacement, progress⟩ := request
  cases kind with
  | reconfigure config =>
    show r.PortsDeclared (.wasm (node.tryReconfigure .router config lc).2) ↔ _
    rw [portsDeclared_wasm]
    exact reconfigured_fits hg rfl
  | transform | filter => exact ⟨fun _ => trivial, fun _ => portsDeclared_wasm.mpr hg⟩
  | router =>
    cases replacement with
    | none => exact ⟨fun _ => trivial, fun _ => portsDeclared_wasm.mpr hg⟩
    | some replacement =>
      show r.PortsDeclared (.wasm (node.tryHotSwap .router replacement lc).2) ↔ _
      rw [portsDeclared_wasm]
      exact swapped_fits hg rfl

/-- A recovery of a coherent router loads what it had loaded, whether it succeeds or not. -/
theorem recover_keeps (hc : node.Coherent) :
    (node.recoverFromCachedPre .router lc).2.Coherent ∧
      (node.recoverFromCachedPre .router lc).2.loaded = node.loaded := by
  cases h : node.recoverFromCachedPre .router lc with
  | mk result node' =>
    obtain ⟨hp, hj, hb, -⟩ := WasmNode.recoverFromCachedPre_spec h
    have hb' : node'.bindings.pre = node.bindings.pre := hb.elim id fun h => h.trans hc.symm
    exact ⟨hb'.trans (hc.trans hp.symm), Prod.ext hb' hj⟩

theorem fits_congr {other : WasmNode} (h : other.loaded = node.loaded) :
    r.Fits other ↔ r.Fits node := by
  obtain ⟨hp, hj⟩ := Prod.mk.inj h
  rw [Fits, Fits, hp, hj]

/-- A node with a plugin is a Wasm node. -/
theorem wasm_of_loaded {loaded : LoadedNode} (hl : loaded.loaded = some node.loaded) :
    ∃ node', loaded = .wasm node' ∧ node'.loaded = node.loaded := by
  cases loaded with
  | wasm node' => exact ⟨node', rfl, Option.some.inj hl⟩
  | nativeTransform n | nativeFilter n => cases hl

/-- A call keeps what is loaded, and so does the recovery after a failed one. -/
theorem called_keeps {envelope : RuntimeEnvelope} {answer : GuestAnswer} {loaded loaded' : LoadedNode}
    (hc : node.Coherent)
    (after : (LoadedNode.wasm node).afterCall .router envelope answer = some loaded)
    (recovered : Recovered .router loaded loaded') :
    ∃ node', loaded' = .wasm node' ∧ node'.Coherent ∧ node'.loaded = node.loaded := by
  obtain ⟨⟨outcome, _⟩, hroute, rfl⟩ := Option.map_eq_some_iff.mp after
  obtain ⟨hl, hb⟩ := LoadedNode.route_frame hroute
  obtain ⟨called, rfl, hcl⟩ := wasm_of_loaded hl
  have hcc : called.Coherent := by
    have : (LoadedNode.wasm called).Coherent :=
      hl.trans ((LoadedNode.coherent_wasm.mpr hc).trans hb.symm)
    exact LoadedNode.coherent_wasm.mp this
  cases recovered with
  | kept => exact ⟨called, rfl, hcc, hcl⟩
  | recovered lc =>
    obtain ⟨hco, hlo⟩ := @recover_keeps called lc hcc
    exact ⟨_, rfl, hco, hlo.trans hcl⟩

/-- In a router loop only an attempted replacement changes what is loaded. -/
theorem step_ports {w w' : World} {e : Event} {nodeId : String} {hotSwap : HotSwapConfig}
    (hn : w.node = .wasm node) (hc : node.Coherent) (hg : r.Fits node)
    (h : step ⟨.router, nodeId, hotSwap⟩ w e = some w') :
    ∃ node', w'.node = .wasm node' ∧ node'.Coherent ∧ (r.Fits node' ↔ r.OffersAt w e) := by
  by_cases happ : ∃ lc attempts, e = .applied lc attempts
  · obtain ⟨lc, attempts, rfl⟩ := happ
    simp only [step] at h
    split at h
    · next id hp =>
      obtain rfl := Option.some.inj h
      rw [World.applyPayload_node, hn]
      have hfits := replaced_fits hg (w.requests id) lc
      obtain ⟨node', hw⟩ := tryReplace_wasm .router node (w.requests id) lc
      have hco := tryReplace_replaced .router (w.requests id) (.wasm node) lc
      rw [hw] at hfits hco ⊢
      refine ⟨node', rfl, LoadedNode.coherent_wasm.mp (hco.coherent (by simpa using hc)), ?_⟩
      rw [← portsDeclared_wasm, hfits]
      constructor
      · rintro ho lc' attempts' id' node'' heq hp' hn'
        obtain ⟨rfl, rfl⟩ := Event.applied.inj heq
        obtain rfl := Pc.applying.inj (hp.symm.trans hp')
        obtain rfl := LoadedNode.wasm.inj (hn.symm.trans hn')
        exact ho
      · exact fun ho => ho lc attempts id node rfl hp hn
    · cases h
  · have hoffers : r.OffersAt w e := fun lc attempts _ _ heq =>
      absurd ⟨lc, attempts, heq⟩ happ
    suffices hs : ∃ node', w'.node = .wasm node' ∧ node'.Coherent ∧ node'.loaded = node.loaded by
      obtain ⟨node', hw, hco, hl⟩ := hs
      exact ⟨node', hw, hco, fun _ => hoffers, fun _ => (fits_congr hl).mpr hg⟩
    generalize hw' : w'.node = loaded' at *
    have hnode := step_node h
    rw [hw'] at hnode
    cases hnode with
    | kept => exact ⟨node, hn, hc, rfl⟩
    | replaced at_ => exact absurd ⟨_, _, rfl⟩ happ
    | called after recovered =>
      rw [hn] at after
      exact called_keeps hc after recovered
    | rolledBack role => cases role

end Steps

/-- In every run of the loop of a launched router, the running instance declares the port of every
edge of the router in all states of the run exactly when every replacement that was adopted declares
these ports. -/
theorem ports_declared {capacity : Nat} {policy : ResolvedErrorPolicy} {dlqSender : Option DlqSender}
    {hashes : PluginHashes} {events : List Event} {w : World}
    (h : runRouterLoop r.nodeId (r.setup capacity policy dlqSender hashes) events = some w) :
    Lib.StepsMeet (step ⟨.router, r.nodeId, {}⟩) r.OffersAt
        (.start ⟨.router, r.nodeId, {}⟩ (r.setup capacity policy dlqSender hashes)) events ↔
      ∀ done later u, events = done ++ later →
        runRouterLoop r.nodeId (r.setup capacity policy dlqSender hashes) done = some u →
        r.PortsDeclared u.node := by
  refine Lib.StepsMeet.iff_always
    (I := fun w : World => ∃ node, w.node = .wasm node ∧ node.Coherent ∧ r.Fits node)
    (G := fun w : World => r.PortsDeclared w.node) ?_ ?_ h ⟨r.node, rfl, r.coherent, r.fits⟩
    ⟨r.node, rfl, r.fits⟩
  · rintro s e t ⟨node, hn, hc, hg⟩ ho hs
    obtain ⟨node', hn', hc', hiff⟩ := step_ports hn hc hg hs
    exact ⟨node', hn', hc', hiff.mpr ho⟩
  · rintro s e t ⟨node, hn, hc, hg⟩ hs
    obtain ⟨node', hn', hc', hiff⟩ := step_ports hn hc hg hs
    rw [hn', portsDeclared_wasm]
    exact hiff

/-- The senders of the router are on the ports of its edges, so with declared ports every sender can
be selected. -/
theorem sender_ports {destinations : List String} {defaultCapacity : Nat} {sender : DownstreamSender}
    (hs : sender ∈ (wireQueues destinations r.edges defaultCapacity).collectDownstreamSenders r.nodeId)
    {node : WasmNode} (hf : r.Fits node) :
    sender.port ∈ declares node.bindings.pre node.configJson := by
  obtain ⟨e, he, rfl⟩ := List.mem_map.mp hs
  obtain ⟨hm, hfrom⟩ := List.mem_filter.mp he
  obtain ⟨toNode, -, hmem⟩ := List.mem_flatMap.mp hm
  obtain ⟨edge, hedge, rfl⟩ := List.mem_map.mp hmem
  exact hf edge (List.mem_filter.mp hedge).1 (by simpa using hfrom)

end LaunchedRouter

/-! A router with one edge on the port `alert`, and replacements that declare it or not. -/

def alertConfig : Config where
  nodes := [("in", .source .stdin), ("route", .router { plugin := .wasm "router.wasm" }),
    ("out", .sink .stdout)]
  edges := [{ fromNode := "in", toNode := "route" },
    { fromNode := "route", toNode := "out", port := some "alert" }]

/-- Components of the first two versions have the port. -/
def alertPorts (pre : Pre) (_ : String) : List String :=
  if pre.plugin.bytes.length < 3 then ["alert", "log"] else ["log"]

def alertStore : Store := ⟨"route", {}, 16777216, none, none⟩

def alertLaunch : Launched where
  config := alertConfig
  role := .router
  nodeId := "route"
  wasm := { plugin := .wasm "router.wasm" }
  declared := .tail _ (.head _)
  node := {
    store := alertStore
    bindings := ⟨⟨⟨[1], "aa"⟩, false⟩, some "{}"⟩
    cachedPre := ⟨⟨[1], "aa"⟩, false⟩
    fuelLimit := none
    capabilities := {}
    memoryLimit := 16777216
    epochDeadline := none
    configJson := "{}"
    pluginVersion := "" }
  runs := [⟨.start, alertStore⟩, ⟨.validate, alertStore⟩, ⟨.init, alertStore⟩]
  loaded := ⟨⟨.ok ⟨[1], "aa"⟩, .ok (), .ok ()⟩, {}, rfl⟩

def alertRouter : LaunchedRouter alertPorts where
  launched := alertLaunch
  role := rfl
  setFuel := .ok ()
  printable := fun c => 32 ≤ c.toNat && c.toNat != 127
  node := alertLaunch.node
  accepted := by decide +kernel

def alertSetup : LoopSetup :=
  alertRouter.setup 4 ⟨.skip, ⟨0, 0, .skip⟩, ⟨1, 1, .skip⟩, .skip, 1⟩ none fun _ => none

/-- A hot swap claimed before the first message. -/
def claimSwap (pre : Pre) : List Event :=
  [.prepare 0 .router (some ⟨alertStore, pre, pre.instantiate, rfl⟩) (some pre.plugin.hash),
    .publish 0, .advance, .advance, .advance]

def swapRouter (pre : Pre) : List Event := claimSwap pre ++ [.applied {} noAttempts]

theorem ports_declared_second_version :
    ∃ w, runRouterLoop "route" alertSetup (swapRouter ⟨⟨[1, 2], "bb"⟩, false⟩) = some w ∧
      w.node.loaded = some (⟨⟨[1, 2], "bb"⟩, false⟩, "{}") ∧ alertRouter.PortsDeclared w.node := by
  have hr : ∃ w, runRouterLoop "route" alertSetup (swapRouter ⟨⟨[1, 2], "bb"⟩, false⟩) = some w ∧
      w.node.loaded = some (⟨⟨[1, 2], "bb"⟩, false⟩, "{}") := ⟨_, rfl, rfl⟩
  obtain ⟨w, h, hl⟩ := hr
  refine ⟨w, h, hl, (alertRouter.ports_declared h).mp (.append
    (.of_forall fun s e he => ?_) fun t ht => ?_) _ [] w (List.append_nil _).symm h⟩
  · rintro lc attempts id node rfl
    simp [claimSwap] at he
  · refine ⟨?_, fun _ _ => trivial⟩
    obtain rfl := Option.some.inj ht
    rintro lc attempts id node heq hp hn
    obtain rfl := Pc.applying.inj hp
    obtain rfl := LoadedNode.wasm.inj hn
    intro _ _ edge he hf
    rcases List.mem_cons.mp he with rfl | he
    · exact absurd hf (by decide)
    · obtain rfl := List.mem_singleton.mp he
      exact .head _

/-- Nothing asks a swapped-in router for its ports. -/
theorem swapped_router_misses_port :
    ¬ ∀ (declares : Pre → String → List String) (r : LaunchedRouter declares) capacity policy
      dlqSender hashes events w,
      runRouterLoop r.nodeId (r.setup capacity policy dlqSender hashes) events = some w →
        r.PortsDeclared w.node := by
  intro h
  obtain ⟨node, hn, hf⟩ := h alertPorts alertRouter 4 ⟨.skip, ⟨0, 0, .skip⟩, ⟨1, 1, .skip⟩, .skip, 1⟩
    none (fun _ => none) (swapRouter ⟨⟨[1, 2, 3], "cc"⟩, false⟩) _ rfl
  obtain rfl := LoadedNode.wasm.inj hn
  have hp := hf { fromNode := "route", toNode := "out", port := some "alert" }
    (.tail _ (.head _)) rfl
  exact absurd hp (by decide)

end Wafer
