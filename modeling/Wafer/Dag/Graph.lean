import Wafer.Config.WellFormed
import Wafer.Node.Wasm

/-!
# The pipeline graph

`DagGraph::from_config` and the capacity check of `build_pipeline`, the two
steps of building a pipeline that can fail. An accepted configuration passes
both, unless it has no nodes: validation leaves that to the construction.

## Main results

- `DagGraph.builds_validated`
-/

namespace Wafer

/-- Node ids by index, edges by index, and the node ids in topological order. -/
structure DagGraph where
  nodes : List String
  edges : List (Nat × Nat)
  topoOrder : List String
  deriving DecidableEq, Repr

/-- The edge by index, or the error of its first unknown end. -/
def indexEdge (ids : List String) (edge : EdgeDef) : Except WaferError (Nat × Nat) := do
  let fromIdx ← match Config.index? ids edge.fromNode with
    | some i => .ok i
    | none => .error (.config s!"edge references unknown source node '{edge.fromNode}'")
  let toIdx ← match Config.index? ids edge.toNode with
    | some i => .ok i
    | none => .error (.config s!"edge references unknown destination node '{edge.toNode}'")
  pure (fromIdx, toIdx)

/-- `DagGraph::from_config`; `ids` are the node ids in the order in which the table is iterated. -/
def DagGraph.fromConfig (toposort : Toposort) (ids : List String) (config : Config) :
    Except WaferError DagGraph :=
  if config.nodes = [] then .error (.config "pipeline must contain at least one node")
  else do
    let edges ← config.edges.mapM (indexEdge ids)
    match toposort ids.length edges with
    | .error node =>
      .error (.config s!"pipeline DAG contains a cycle involving node '{ids.getD node default}'")
    | .ok order => .ok ⟨ids, edges, Config.named ids order⟩

def validateChannelCapacities (config : Config) : Except WaferError Unit :=
  if config.engine.defaultQueueCapacity = 0 then
    .error (.config "engine.default_queue_capacity must be greater than zero")
  else if config.edges.any (·.capacity == some 0) then
    .error (.config "edge capacity must be greater than zero")
  else if config.deadLetter.map DeadLetterConfig.queueCapacity = some 0 then
    .error (.config "dead_letter.queue_capacity must be greater than zero")
  else .ok ()

section Build

variable {config : Config} {toposort : Toposort} {ids : List String}

/-- With known ends all edges get their indices. -/
theorem mapM_indexEdge (h : ∀ edge ∈ config.edges, edge.fromNode ∈ ids ∧ edge.toNode ∈ ids) :
    config.edges.mapM (indexEdge ids) = .ok (config.indexedEdges ids) := by
  simp only [Config.indexedEdges]
  generalize config.edges = edges at h ⊢
  induction edges with
  | nil => rfl
  | cons edge edges ih =>
    obtain ⟨hf, ht⟩ := h edge List.mem_cons_self
    have hfi := Config.index?_eq_some.mpr ⟨hf, rfl⟩
    have hti := Config.index?_eq_some.mpr ⟨ht, rfl⟩
    have hi : indexEdge ids edge = .ok (ids.idxOf edge.fromNode, ids.idxOf edge.toNode) := by
      rw [indexEdge, hfi, hti]
      rfl
    rw [List.mapM_cons, hi, ih fun e he => h e (List.mem_cons_of_mem _ he)]
    simp [hfi, hti]
    rfl

theorem fromConfig_ok (ht : Toposorts toposort) (hw : config.WellFormed) (hne : config.nodes ≠ [])
    (hp : ids.Perm config.nodeIds) : ∃ graph, DagGraph.fromConfig toposort ids config = .ok graph ∧
      graph.topoOrder.Perm ids ∧ Lib.Forward config.Edge graph.topoOrder := by
  have hends : ∀ edge ∈ config.edges, edge.fromNode ∈ ids ∧ edge.toNode ∈ ids := fun edge he =>
    ⟨hp.mem_iff.mpr (hw.endpoints edge he).1, hp.mem_iff.mpr (hw.endpoints edge he).2⟩
  simp only [DagGraph.fromConfig]
  rw [if_neg hne, mapM_indexEdge hends]
  cases ho : toposort ids.length (config.indexedEdges ids) with
  | error node =>
    exact absurd (Config.indexed_acyclic hw.acyclic)
      (ht.cycle _ _ node Config.indexedEdges_lt ho)
  | ok order =>
    obtain ⟨horder, hf⟩ := ht.order _ _ order Config.indexedEdges_lt ho
    have hn := Config.named_forward (hp.nodup_iff.mpr config.distinct) hends horder hf
    refine ⟨⟨ids, config.indexedEdges ids, Config.named ids order⟩, ?_, hn⟩
    show (match toposort ids.length (config.indexedEdges ids) with
      | .error node => _
      | .ok order => _) = _
    rw [ho]

theorem capacities_ok (h : config.validate toposort = .ok ()) :
    validateChannelCapacities config = .ok () := by
  have hc := Config.check_eq_nil h
    (show config.checkQueueCapacities ∈ config.checks toposort by simp [Config.checks])
  simp only [Config.checkQueueCapacities, List.append_eq_nil_iff, Config.reportIf_eq_nil] at hc
  obtain ⟨⟨⟨⟨hdefault, -⟩, hedges⟩, -⟩, hdlq⟩ := hc
  have hcap : config.edges.any (·.capacity == some 0) = false := by
    rw [List.any_eq_false]
    intro edge he
    obtain ⟨i, hi⟩ := Config.of_reportEdges hedges he
    simpa using hi
  simp only [validateChannelCapacities]
  rw [if_neg (by simpa using hdefault), if_neg (by simp [hcap]), if_neg (by simpa using hdlq)]

/-- An accepted configuration is well-formed and passes the capacity check. If it has a node, its
graph can be built, with a topological order of all nodes in which every edge goes forward. -/
theorem DagGraph.builds_validated (ht : Toposorts toposort) (h : config.validate toposort = .ok ()) :
    config.WellFormed ∧ validateChannelCapacities config = .ok () ∧
      (config.nodes ≠ [] → ∀ ids : List String, ids.Perm config.nodeIds →
        ∃ graph, DagGraph.fromConfig toposort ids config = .ok graph ∧
          graph.topoOrder.Perm ids ∧ Lib.Forward config.Edge graph.topoOrder) :=
  have hw := Config.wellFormed_of_validate ht h
  ⟨hw, capacities_ok h, fun hne _ hp => fromConfig_ok ht hw hne hp⟩

end Build

/-- A topological sort with the documented behaviour. -/
def listToposort : Toposort := fun n edges =>
  match Lib.topoSort (fun a b => (a, b) ∈ edges) n (List.range n) with
  | some order => .ok order
  | none => .error 0

theorem listToposort_toposorts : Toposorts listToposort where
  order n edges order hlt h := by
    simp only [listToposort] at h
    split at h
    · next hs =>
      obtain rfl := Except.ok.inj h
      refine ⟨(Lib.topoSort_some hs).1, fun a b hab => ?_⟩
      exact Lib.topoSort_forward hs (List.mem_range.mpr (hlt _ hab).1)
        (List.mem_range.mpr (hlt _ hab).2) (by simpa using hab)
    · cases h
  cycle n edges node hlt h := by
    simp only [listToposort] at h
    split at h
    · cases h
    · next hs =>
      intro hac
      refine Lib.topoSort_none hs (by simp) fun x hx => hac x ?_
      exact Relation.TransGen.mono (fun a b hab => by simpa using hab.2.2) _ _ hx

/-- A filter between a source and a sink. -/
def linearConfig : Config where
  deadLetter := some (.file "dlq.jsonl" 1)
  nodes := [("out", .sink .stdout), ("keep", .filter { plugin := .wasm "keep.wasm" }),
    ("in", .source .stdin)]
  edges := [{ fromNode := "in", toNode := "keep" }, { fromNode := "keep", toNode := "out" }]

theorem DagGraph.builds_validated_linear :
    linearConfig.validate listToposort = .ok () ∧ linearConfig.WellFormed ∧
      ∃ graph, DagGraph.fromConfig listToposort linearConfig.nodeIds linearConfig = .ok graph ∧
        graph.topoOrder = ["in", "keep", "out"] ∧ Lib.Forward linearConfig.Edge graph.topoOrder := by
  have h : linearConfig.validate listToposort = .ok () := by decide +kernel
  obtain ⟨hw, -, hb⟩ := DagGraph.builds_validated listToposort_toposorts h
  obtain ⟨graph, hg, -, hf⟩ := hb (by simp [linearConfig]) _ (.refl _)
  refine ⟨h, hw, graph, hg, ?_, hf⟩
  have : DagGraph.fromConfig listToposort linearConfig.nodeIds linearConfig =
      .ok ⟨["out", "keep", "in"], [(2, 1), (1, 0)], ["in", "keep", "out"]⟩ := by decide +kernel
  rw [← Except.ok.inj (this.symm.trans hg)]

/-- The empty configuration is accepted, but has no graph. -/
theorem empty_config_unbuildable :
    ¬ ∀ toposort, Toposorts toposort → ∀ config : Config, config.validate toposort = .ok () →
      ∃ graph, DagGraph.fromConfig toposort config.nodeIds config = .ok graph := by
  intro h
  obtain ⟨graph, hg⟩ := h listToposort listToposort_toposorts {} (by decide +kernel)
  cases hg

end Wafer
