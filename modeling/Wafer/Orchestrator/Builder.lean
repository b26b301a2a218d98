import Mathlib.Data.List.Nodup
import Wafer.Runner.Downstream

/-!
# Queue wiring

`wire_queues` gives each destination node one channel; every edge into it gets
a clone of the sender. The edges are grouped in a hash map, so the order of the
destinations is not determined: it is a parameter.
-/

namespace Wafer

structure EdgeSender where
  fromNode : String
  fromPort : String
  toNode : String
  toPort : String
  overflow : OverflowPolicy
  deriving DecidableEq, Repr

structure QueueWiring where
  /-- destination nodes with the capacity of their channel -/
  receivers : List (String × Nat)
  edgeSenders : List EdgeSender
  dlqSender : Bool := false
  deriving DecidableEq, Repr

/-- The largest capacity asked for by an edge into `toNode`. -/
def channelCapacity (edges : List EdgeDef) (defaultCapacity : Nat) (toNode : String) : Nat :=
  ((edges.filter (·.toNode = toNode)).filterMap EdgeDef.capacity).max?.getD defaultCapacity

def wireQueues (destinations : List String) (edges : List EdgeDef) (defaultCapacity : Nat) :
    QueueWiring where
  receivers := destinations.map fun toNode => (toNode, channelCapacity edges defaultCapacity toNode)
  edgeSenders := destinations.flatMap fun toNode =>
    (edges.filter (·.toNode = toNode)).map fun edge =>
      { fromNode := edge.fromNode, fromPort := edge.port.getD "default", toNode,
        toPort := "default", overflow := edge.overflow.getD .slow }

namespace QueueWiring

/-- A node without an inbound edge gets a channel of capacity 1 without senders: with nothing
upstream it can be closed at once. -/
def takeReceiver (wiring : QueueWiring) (nodeId : String) : InputQueue :=
  match wiring.receivers.find? (·.1 = nodeId) with
  | some (_, capacity) => { capacity }
  | none => { capacity := 1 }

def collectDownstreamSenders (wiring : QueueWiring) (nodeId : String) : List DownstreamSender :=
  (wiring.edgeSenders.filter (·.fromNode = nodeId)).map fun e =>
    { toNode := e.toNode, port := e.fromPort,
      edge := e.fromNode ++ ":" ++ e.fromPort ++ "->" ++ e.toNode ++ ":" ++ e.toPort,
      sourceNode := e.fromNode, overflow := e.overflow, dlqSender := wiring.dlqSender }

/-- The nodes that hold a sender of `nodeId`'s channel. -/
def upstream (wiring : QueueWiring) (nodeId : String) : List String :=
  (wiring.edgeSenders.filter (·.toNode = nodeId)).map EdgeSender.fromNode

/-- A node that holds a sender into `toNode` is upstream of it. -/
theorem mem_upstream {wiring : QueueWiring} {nodeId : String} {sender : DownstreamSender}
    (h : sender ∈ wiring.collectDownstreamSenders nodeId) :
    nodeId ∈ wiring.upstream sender.toNode := by
  obtain ⟨e, he, rfl⟩ := List.mem_map.mp h
  obtain ⟨hm, hf⟩ := List.mem_filter.mp he
  exact List.mem_map.mpr ⟨e, List.mem_filter.mpr ⟨hm, by simp⟩, by simpa using hf⟩

end QueueWiring

end Wafer
