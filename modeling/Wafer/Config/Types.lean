import Wafer.Config.OutboundHttp

/-!
# Pipeline configuration

The deserialized configuration: engine settings, error policies, nodes and
edges. The node table is a hash map in the source; here it is a list with
distinct keys, in whatever order the map iterates.
-/

namespace Wafer

/-- Fuel per guest call and role; `none` is unlimited. -/
structure FuelBudgets where
  transform : Option Nat := none
  filter : Option Nat := none
  router : Option Nat := none
  deriving DecidableEq, Repr

structure MemoryLimits where
  transform : Nat := 64 * 1024 * 1024
  filter : Nat := 16 * 1024 * 1024
  router : Nat := 16 * 1024 * 1024
  deriving DecidableEq, Repr

structure EngineConfig where
  epochDeadline : Option Nat := none
  epochTickMs : Nat := 10
  defaultQueueCapacity : Nat := 1024
  fuel : FuelBudgets := {}
  memory : MemoryLimits := {}
  deriving DecidableEq, Repr

inductive SimpleAction
  | skip
  | dlq
  | teardown
  deriving DecidableEq, Repr

structure RetryConfig where
  retries : Nat := 3
  backoffMs : Nat := 100
  exhausted : SimpleAction := .dlq
  deriving DecidableEq, Repr

structure ErrorPolicyConfig where
  badInput : SimpleAction := .dlq
  dependencyFailed : RetryConfig := { retries := 3, backoffMs := 100, exhausted := .dlq }
  processingFailed : RetryConfig := { retries := 2, backoffMs := 100, exhausted := .dlq }
  timedOut : SimpleAction := .skip
  retryBufferCapacity : Nat := 1000
  deriving DecidableEq, Repr

/-- The fields that route a message to the dead-letter queue. -/
def ErrorPolicyConfig.dlqActions (policy : ErrorPolicyConfig) : List String :=
  ([("bad_input", policy.badInput), ("timed_out", policy.timedOut),
    ("dependency_failed.exhausted", policy.dependencyFailed.exhausted),
    ("processing_failed.exhausted", policy.processingFailed.exhausted)].filter
      fun entry => entry.2 = .dlq).map Prod.fst

/-- What a full queue does with a message: wait, drop it, or dead-letter it. -/
inductive OverflowPolicy
  | slow
  | drop
  | deadLetter
  deriving DecidableEq, Repr

inductive DeadLetterConfig
  | mqtt (broker : String) (port : Nat) (topic : String) (queueCapacity : Nat)
  | file (path : String) (queueCapacity : Nat)
  deriving DecidableEq, Repr

def DeadLetterConfig.queueCapacity : DeadLetterConfig → Nat
  | mqtt _ _ _ queueCapacity | file _ queueCapacity => queueCapacity

inductive SourceDef
  | mqtt
  | file
  | stdin
  | http
  | benchSource
  deriving DecidableEq, Repr

inductive SinkDef
  | mqtt
  | file
  | stdout
  | http
  | benchSink
  deriving DecidableEq, Repr

/-- A component file, or the name of a built-in native function. -/
inductive PluginSpec
  | wasm (path : String)
  | native (function : String)
  deriving DecidableEq, Repr

def PluginSpec.isNative : PluginSpec → Bool
  | wasm _ => false
  | native _ => true

/-- `configJson` is the `config` table as the JSON text handed to the guest. -/
structure WasmNodeDef where
  plugin : PluginSpec
  fuel : Option Nat := none
  capabilities : CapabilitiesConfig := {}
  configJson : String := "{}"
  memoryLimit : Option Nat := none
  errorPolicy : Option ErrorPolicyConfig := none
  pluginVersion : Option String := none
  deriving DecidableEq, Repr

inductive NodeDef
  | source (definition : SourceDef)
  | sink (definition : SinkDef)
  | transform (definition : WasmNodeDef)
  | filter (definition : WasmNodeDef)
  | router (definition : WasmNodeDef)
  deriving DecidableEq, Repr

inductive NodeCategory
  | source
  | sink
  | transform
  | filter
  | router
  deriving DecidableEq, Repr

def NodeCategory.name : NodeCategory → String
  | source => "source"
  | sink => "sink"
  | transform => "transform"
  | filter => "filter"
  | router => "router"

namespace NodeDef

def category : NodeDef → NodeCategory
  | source _ => .source
  | sink _ => .sink
  | transform _ => .transform
  | filter _ => .filter
  | router _ => .router

/-- The plugin table of a processing node. -/
def wasm? : NodeDef → Option WasmNodeDef
  | transform wasm | filter wasm | router wasm => some wasm
  | source _ | sink _ => none

end NodeDef

structure EdgeDef where
  fromNode : String
  toNode : String
  port : Option String := none
  capacity : Option Nat := none
  overflow : Option OverflowPolicy := none
  deriving DecidableEq, Repr

structure Config where
  engine : EngineConfig := {}
  errorPolicy : ErrorPolicyConfig := {}
  deadLetter : Option DeadLetterConfig := none
  nodes : List (String × NodeDef) := []
  edges : List EdgeDef := []
  distinct : (nodes.map Prod.fst).Nodup := by decide

namespace Config

/-- `nodes.get(id)`. -/
def node (config : Config) (id : String) : Option NodeDef := config.nodes.lookup id

/-- The node's own error policy, else the pipeline's; sources and sinks have none. -/
def effectiveErrorPolicy (config : Config) (nodeId : String) : Option ErrorPolicyConfig :=
  (config.node nodeId >>= NodeDef.wasm?).map fun wasm =>
    wasm.errorPolicy.getD config.errorPolicy

end Config

end Wafer
