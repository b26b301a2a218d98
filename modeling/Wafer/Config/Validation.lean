import Mathlib.Data.List.Sort
import Mathlib.Data.String.Basic
import Wafer.Config.Types

/-!
# Semantic validation of a configuration

`validate` runs every check and collects what each reports. Cycle detection
calls the topological sort of the graph library, which is a parameter: it takes
the number of nodes and the edges by index.

## Main definitions

- one definition for each `check_*` function, giving its messages
- `Config.validate`
-/

namespace Wafer

/-- `toposort`: an order of the nodes, or a node of a cycle. -/
abbrev Toposort : Type := Nat → List (Nat × Nat) → Except Nat (List Nat)

structure ValidationError where
  message : String
  deriving DecidableEq, Repr

namespace Config

variable (config : Config)

def inbound (id : String) : List EdgeDef := config.edges.filter (·.toNode = id)

def outbound (id : String) : List EdgeDef := config.edges.filter (·.fromNode = id)

def nodeIds : List String := config.nodes.map Prod.fst

/-- The messages of a check over the edges and their positions. -/
def reportEdges (check : EdgeDef → Nat → List String) : List String :=
  config.edges.zipIdx.flatMap fun entry => check entry.1 entry.2

/-- The messages of a check over the nodes. -/
def reportNodes (check : String → NodeDef → List String) : List String :=
  config.nodes.flatMap fun entry => check entry.1 entry.2

def reportIf (failed : Bool) (message : String) : List String := if failed then [message] else []

def checkEdgeNodeReferences : List String :=
  config.reportEdges fun edge i =>
    reportIf (config.node edge.fromNode).isNone
      s!"edge[{i}]: unknown source node '{edge.fromNode}'" ++
    reportIf (config.node edge.toNode).isNone
      s!"edge[{i}]: unknown destination node '{edge.toNode}'"

def checkSourceNoInbound : List String :=
  config.reportNodes fun id node =>
    reportIf (node.category == .source && !(config.inbound id).isEmpty)
      s!"source node '{id}' must not have inbound edges"

def checkSinkNoOutbound : List String :=
  config.reportNodes fun id node =>
    reportIf (node.category == .sink && !(config.outbound id).isEmpty)
      s!"sink node '{id}' must not have outbound edges"

/-- Nodes of the category have at most one inbound edge. -/
def checkSingleInbound (category : NodeCategory) : List String :=
  config.reportNodes fun id node =>
    reportIf (node.category == category && 1 < (config.inbound id).length)
      (s!"{category.name} node '{id}' must have exactly one inbound edge, " ++
        s!"found {(config.inbound id).length}")

def checkFilterSingleInbound : List String := config.checkSingleInbound .filter

def checkRouterSingleInbound : List String := config.checkSingleInbound .router

def checkRouterEdgesHavePort : List String :=
  config.reportEdges fun edge i =>
    match config.node edge.fromNode with
    | none => []
    | some source =>
      reportIf (source.category == .router && edge.port.isNone)
        s!"edge[{i}] from router '{edge.fromNode}' must specify a 'port' field"

def checkRouterIsWasm : List String :=
  config.reportNodes fun id node =>
    match node with
    | .router wasm =>
      reportIf wasm.plugin.isNative
        s!"nodes.{id}: routers must use a Wasm plugin; native routers are not supported"
    | _ => []

def checkPortOnlyOnRouterEdges : List String :=
  config.reportEdges fun edge i =>
    match config.node edge.fromNode with
    | none => []
    | some source =>
      reportIf (edge.port.isSome && source.category != .router)
        (s!"edge[{i}]: 'port' is only allowed on edges from a router, " ++
          s!"but '{edge.fromNode}' is a {source.category.name}")

def checkDuplicateEdges : List String :=
  config.reportEdges fun edge i =>
    reportIf ((config.edges.take i).any fun before =>
        before.fromNode == edge.fromNode && before.toNode == edge.toNode && before.port == edge.port)
      s!"edge[{i}]: duplicate edge '{edge.fromNode}' -> '{edge.toNode}'"

def checkProcessingNodesHaveInputAndOutput : List String :=
  config.reportNodes fun id node =>
    if node.category = .source ∨ node.category = .sink then []
    else
      let hasInbound := !(config.inbound id).isEmpty
      let hasOutbound := !(config.outbound id).isEmpty
      reportIf (hasInbound && !hasOutbound)
        (s!"{node.category.name} node '{id}' has no outbound edge, " ++
          "so its output would be discarded") ++
      reportIf (hasOutbound && !hasInbound)
        (s!"{node.category.name} node '{id}' has no inbound edge, " ++
          "so it would never receive a message")

/-- At most one node with this definition. -/
def checkSingleton (definition : NodeDef) (what : String) : List String :=
  let count := (config.nodes.filter (·.2 = definition)).length
  reportIf (1 < count) s!"at most one {what} is allowed, found {count}"

def checkStdinSingleton : List String := config.checkSingleton (.source .stdin) "stdin source"

def checkStdoutSingleton : List String := config.checkSingleton (.sink .stdout) "stdout sink"

def checkDeadLetterRequiredForOverflow : List String :=
  reportIf (config.edges.any (·.overflow == some .deadLetter) && config.deadLetter.isNone)
    "one or more edges use 'overflow = \"dead-letter\"' but no [dead_letter] sink is configured"

def checkDeadLetterRequiredForErrorPolicy : List String :=
  if config.deadLetter.isSome then []
  else
    (config.nodeIds.insertionSort (· ≤ ·)).flatMap fun id =>
      match config.effectiveErrorPolicy id with
      | none => []
      | some policy =>
        reportIf (!policy.dlqActions.isEmpty)
          (s!"node '{id}' sends " ++ ", ".intercalate policy.dlqActions ++
            " to the dead-letter queue but no [dead_letter] sink is configured; " ++
            "add one or set the action to \"skip\" or \"teardown\"")

def checkQueueCapacities : List String :=
  reportIf (config.engine.defaultQueueCapacity == 0)
    "engine.default_queue_capacity must be greater than zero" ++
  reportIf (config.errorPolicy.retryBufferCapacity == 0)
    "error_policy.retry_buffer_capacity must be greater than zero" ++
  (config.reportEdges fun edge i =>
    reportIf (edge.capacity == some 0) s!"edges[{i}].capacity must be greater than zero") ++
  (config.reportNodes fun id node =>
    reportIf ((node.wasm? >>= WasmNodeDef.errorPolicy).any (·.retryBufferCapacity == 0))
      s!"nodes.{id}.error_policy.retry_buffer_capacity must be greater than zero") ++
  reportIf (config.deadLetter.map DeadLetterConfig.queueCapacity == some 0)
    "dead_letter.queue_capacity must be greater than zero"

def checkEpochTick : List String :=
  reportIf (config.engine.epochTickMs == 0) "engine.epoch_tick_ms must be greater than zero"

/-- The destinations of one node: each is canonical, and no two are the same. -/
def checkDestinations (id : String) (destinations : List OutboundHttpDestination) : List String :=
  (destinations.zipIdx.foldl (fun (seen, errors) (destination, index) =>
    let path := s!"nodes.{id}.capabilities.outbound_http[{index}]: "
    match destination.canonicalize with
    | .ok destination =>
      if destination ∈ seen then
        (seen, errors ++ [path ++ OutboundHttpDestinationError.duplicateDestination.toString])
      else (destination :: seen, errors)
    | .error error => (seen, errors ++ [path ++ error.toString]))
    (([], []) : List CanonicalHttpDestination × List String)).2

def checkOutboundHttp : List String :=
  config.reportNodes fun id node =>
    match node.wasm? with
    | none => []
    | some wasm =>
      if wasm.plugin.isNative ∧ wasm.capabilities.outboundHttp ≠ [] then
        [s!"nodes.{id}.capabilities.outbound_http is supported only for Wasm nodes"]
      else checkDestinations id wasm.capabilities.outboundHttp

def checkUnsupportedAllowInference : List String :=
  reportIf (config.nodes.any fun entry =>
      match entry.2 with
      | .transform wasm => wasm.capabilities.allowInference && wasm.plugin.isNative
      | .filter wasm | .router wasm => wasm.capabilities.allowInference
      | .source _ | .sink _ => false)
    "allow_inference=true is supported only for Wasm Transform nodes"

def checkOrphanNodes : List String :=
  if config.nodes.length ≤ 1 then []
  else
    config.reportNodes fun id _ =>
      reportIf ((config.inbound id).isEmpty && (config.outbound id).isEmpty)
        s!"node '{id}' is not connected to any edge (orphan)"

/-- The index of a node, for the node ids in the order they were added to a graph. -/
def index? (ids : List String) (id : String) : Option Nat :=
  if id ∈ ids then some (ids.idxOf id) else none

/-- The edges between known nodes, by index. -/
def indexedEdges (ids : List String) : List (Nat × Nat) :=
  config.edges.filterMap fun edge => do
    let fromIdx ← index? ids edge.fromNode
    let toIdx ← index? ids edge.toNode
    pure (fromIdx, toIdx)

def checkNoCycles (toposort : Toposort) : List String :=
  match toposort config.nodeIds.length (config.indexedEdges config.nodeIds) with
  | .ok _ => []
  | .error _ => ["pipeline DAG contains a cycle"]

/-- What each check reports, in order. -/
def checks (toposort : Toposort) : List (List String) :=
  [config.checkEdgeNodeReferences, config.checkSourceNoInbound, config.checkSinkNoOutbound,
    config.checkFilterSingleInbound, config.checkRouterSingleInbound,
    config.checkRouterEdgesHavePort, config.checkRouterIsWasm, config.checkPortOnlyOnRouterEdges,
    config.checkDuplicateEdges, config.checkProcessingNodesHaveInputAndOutput,
    config.checkStdinSingleton, config.checkStdoutSingleton,
    config.checkDeadLetterRequiredForOverflow, config.checkDeadLetterRequiredForErrorPolicy,
    config.checkQueueCapacities, config.checkEpochTick, config.checkOutboundHttp,
    config.checkUnsupportedAllowInference, config.checkOrphanNodes, config.checkNoCycles toposort]

/-- Every failure is reported, not only the first. -/
def validate (toposort : Toposort) : Except (List ValidationError) Unit :=
  match (config.checks toposort).flatten with
  | [] => .ok ()
  | messages => .error (messages.map ValidationError.mk)

variable {config}

/-- In an accepted configuration no check reports anything. -/
theorem check_eq_nil {toposort : Toposort} (h : config.validate toposort = .ok ())
    {messages : List String} (hm : messages ∈ config.checks toposort) : messages = [] := by
  unfold validate at h
  generalize config.checks toposort = checks at h hm
  cases hf : checks.flatten with
  | nil => exact List.flatten_eq_nil_iff.mp hf messages hm
  | cons message rest =>
    rw [hf] at h
    cases h

end Config

end Wafer
