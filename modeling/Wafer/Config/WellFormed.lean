import Mathlib.Data.List.GetD
import Wafer.Config.Validation
import Wafer.Lib.Digraph

/-!
# What an accepted configuration looks like

The checks one by one, then their sum: the edges join declared nodes and form
an acyclic relation, and every node of a pipeline with two or more lies between
a source and a sink. The last is checked nowhere. It follows from the degree
rules: a node without inbound edge is a source, one without outbound edge is a
sink, and in a finite acyclic graph every node lies between two such nodes.

## Main definitions

- `Toposorts` — what is documented of the topological sort
- `Config.WellFormed`

## Main results

- `Config.wellFormed_of_validate`
-/

namespace Wafer

open Relation

/-- The documented behaviour of `toposort`: the order lists every node once, each before its
successors, and an error means that there is a cycle. -/
structure Toposorts (toposort : Toposort) : Prop where
  order : ∀ n edges order, (∀ e ∈ edges, e.1 < n ∧ e.2 < n) → toposort n edges = .ok order →
    order.Perm (List.range n) ∧ Lib.Forward (fun a b => (a, b) ∈ edges) order
  cycle : ∀ n edges node, (∀ e ∈ edges, e.1 < n ∧ e.2 < n) → toposort n edges = .error node →
    ¬ Lib.Acyclic fun a b => (a, b) ∈ edges

namespace Config

variable {config : Config}

/-! ## Lookups -/

theorem node_eq_some {id : String} {node : NodeDef} :
    config.node id = some node ↔ (id, node) ∈ config.nodes := by
  obtain ⟨_, _, _, nodes, _, distinct⟩ := config
  show nodes.lookup id = some node ↔ (id, node) ∈ nodes
  induction nodes with
  | nil => simp
  | cons entry nodes ih =>
    obtain ⟨key, value⟩ := entry
    obtain ⟨hkey, hrest⟩ := List.nodup_cons.mp distinct
    by_cases hk : id = key
    · subst hk
      have hnot : (id, node) ∉ nodes := fun h => hkey (List.mem_map.mpr ⟨_, h, rfl⟩)
      simp [hnot, eq_comm]
    · have hb : (id == key) = false := by simpa using hk
      simp [List.lookup_cons, hb, ih hrest, hk]

theorem mem_nodeIds {id : String} : id ∈ config.nodeIds ↔ ∃ node, config.node id = some node := by
  simp only [nodeIds, List.mem_map, node_eq_some]
  constructor
  · rintro ⟨⟨key, node⟩, h, rfl⟩
    exact ⟨node, h⟩
  · rintro ⟨node, h⟩
    exact ⟨(id, node), h, rfl⟩

theorem mem_inbound {id : String} {edge : EdgeDef} :
    edge ∈ config.inbound id ↔ edge ∈ config.edges ∧ edge.toNode = id := by
  simp [inbound]

theorem mem_outbound {id : String} {edge : EdgeDef} :
    edge ∈ config.outbound id ↔ edge ∈ config.edges ∧ edge.fromNode = id := by
  simp [outbound]

/-! ## The checks -/

@[simp] theorem reportIf_eq_nil {failed : Bool} {message : String} :
    reportIf failed message = [] ↔ failed = false := by
  cases failed <;> simp [reportIf]

theorem of_reportEdges {check : EdgeDef → Nat → List String} (h : config.reportEdges check = [])
    {edge : EdgeDef} (he : edge ∈ config.edges) : ∃ i, check edge i = [] := by
  obtain ⟨i, hi⟩ := List.mem_iff_getElem?.mp he
  exact ⟨i, List.flatMap_eq_nil_iff.mp h (edge, i) (List.mk_mem_zipIdx_iff_getElem?.mpr hi)⟩

theorem of_reportNodes {check : String → NodeDef → List String} (h : config.reportNodes check = [])
    {id : String} {node : NodeDef} (hn : config.node id = some node) : check id node = [] :=
  List.flatMap_eq_nil_iff.mp h (id, node) (node_eq_some.mp hn)

theorem of_checkEdgeNodeReferences (h : config.checkEdgeNodeReferences = []) {edge : EdgeDef}
    (he : edge ∈ config.edges) : edge.fromNode ∈ config.nodeIds ∧ edge.toNode ∈ config.nodeIds := by
  obtain ⟨i, hi⟩ := of_reportEdges h he
  simp only [List.append_eq_nil_iff, reportIf_eq_nil, Option.isNone_eq_false_iff,
    Option.isSome_iff_exists] at hi
  exact ⟨mem_nodeIds.mpr hi.1, mem_nodeIds.mpr hi.2⟩

theorem of_checkSourceNoInbound (h : config.checkSourceNoInbound = []) {id : String}
    {node : NodeDef} (hn : config.node id = some node) (hc : node.category = .source) :
    config.inbound id = [] := by
  have := of_reportNodes h hn
  simpa [hc] using this

theorem of_checkSinkNoOutbound (h : config.checkSinkNoOutbound = []) {id : String}
    {node : NodeDef} (hn : config.node id = some node) (hc : node.category = .sink) :
    config.outbound id = [] := by
  have := of_reportNodes h hn
  simpa [hc] using this

theorem of_checkSingleInbound {category : NodeCategory} (h : config.checkSingleInbound category = [])
    {id : String} {node : NodeDef} (hn : config.node id = some node) (hc : node.category = category) :
    (config.inbound id).length ≤ 1 := by
  have := of_reportNodes h hn
  simpa [hc] using this

/-- The two port checks together. -/
theorem of_checkPorts (hr : config.checkRouterEdgesHavePort = [])
    (ho : config.checkPortOnlyOnRouterEdges = []) {edge : EdgeDef} (he : edge ∈ config.edges)
    {node : NodeDef} (hn : config.node edge.fromNode = some node) :
    edge.port.isSome = true ↔ node.category = .router := by
  obtain ⟨i, hi⟩ := of_reportEdges hr he
  obtain ⟨j, hj⟩ := of_reportEdges ho he
  simp only [hn, reportIf_eq_nil] at hi hj
  constructor
  · intro hp
    simpa [hp] using hj
  · intro hc
    simpa [hc, Option.isSome_iff_ne_none] using hi

/-- A connected processing node has edges on both sides. -/
theorem of_checkProcessingNodes (h : config.checkProcessingNodesHaveInputAndOutput = [])
    {id : String} {node : NodeDef} (hn : config.node id = some node)
    (hc : node.category ≠ .source ∧ node.category ≠ .sink) :
    config.inbound id = [] ↔ config.outbound id = [] := by
  have := of_reportNodes h hn
  rw [if_neg (not_or.mpr hc)] at this
  simp only [List.append_eq_nil_iff, reportIf_eq_nil] at this
  cases hi : config.inbound id <;> cases ho : config.outbound id <;> simp_all

theorem of_checkOrphanNodes (h : config.checkOrphanNodes = []) (hlen : 2 ≤ config.nodes.length)
    {id : String} {node : NodeDef} (hn : config.node id = some node) :
    config.inbound id ≠ [] ∨ config.outbound id ≠ [] := by
  rw [checkOrphanNodes, if_neg (by omega)] at h
  have := of_reportNodes h hn
  rw [reportIf_eq_nil, Bool.and_eq_false_iff] at this
  simpa using this

/-! ## The graph by index -/

variable (config) in
/-- There is an edge from the one node to the other. -/
def Edge (fromNode toNode : String) : Prop :=
  ∃ edge ∈ config.edges, edge.fromNode = fromNode ∧ edge.toNode = toNode

theorem index?_eq_some {ids : List String} {id : String} {i : Nat} :
    index? ids id = some i ↔ id ∈ ids ∧ ids.idxOf id = i := by
  unfold index?
  split <;> simp_all

theorem mem_indexedEdges {ids : List String} {a b : Nat} :
    (a, b) ∈ config.indexedEdges ids ↔ ∃ edge ∈ config.edges,
      index? ids edge.fromNode = some a ∧ index? ids edge.toNode = some b := by
  simp only [indexedEdges, List.mem_filterMap, Option.bind_eq_bind, Option.bind_eq_some_iff]
  constructor
  · rintro ⟨edge, he, i, hi, j, hj, hij⟩
    obtain ⟨rfl, rfl⟩ := Prod.mk.inj (Option.some.inj hij)
    exact ⟨edge, he, hi, hj⟩
  · rintro ⟨edge, he, ha, hb⟩
    exact ⟨edge, he, a, ha, b, hb, rfl⟩

theorem indexedEdges_lt {ids : List String} :
    ∀ e ∈ config.indexedEdges ids, e.1 < ids.length ∧ e.2 < ids.length := by
  rintro ⟨a, b⟩ h
  obtain ⟨edge, -, ha, hb⟩ := mem_indexedEdges.mp h
  obtain ⟨hf, rfl⟩ := index?_eq_some.mp ha
  obtain ⟨ht, rfl⟩ := index?_eq_some.mp hb
  exact ⟨List.idxOf_lt_length_of_mem hf, List.idxOf_lt_length_of_mem ht⟩

/-- The node ids in the order of their indices. -/
def named (ids : List String) (order : List Nat) : List String := order.map fun i => ids.getD i ""

theorem getD_idxOf {ids : List String} {id : String} (h : id ∈ ids) :
    ids.getD (ids.idxOf id) "" = id := by
  rw [List.getD_eq_getElem _ _ (List.idxOf_lt_length_of_mem h), List.getElem_idxOf]

/-- An order of the indices in which edges go forward gives one of the node ids. -/
theorem named_forward {ids : List String} {order : List Nat} (hd : ids.Nodup)
    (hends : ∀ edge ∈ config.edges, edge.fromNode ∈ ids ∧ edge.toNode ∈ ids)
    (hp : order.Perm (List.range ids.length))
    (hf : Lib.Forward (fun a b => (a, b) ∈ config.indexedEdges ids) order) :
    (named ids order).Perm ids ∧ Lib.Forward config.Edge (named ids order) := by
  have hpos : ∀ id ∈ ids, (named ids order).idxOf id = order.idxOf (ids.idxOf id) := by
    intro id hid
    have hinj : ∀ i ∈ order, ids.getD i "" = ids.getD (ids.idxOf id) "" → i = ids.idxOf id := by
      intro i hi he
      have hlt : i < ids.length := List.mem_range.mp (hp.mem_iff.mp hi)
      have hlt' := List.idxOf_lt_length_of_mem hid
      rw [List.getD_eq_getElem _ _ hlt, List.getD_eq_getElem _ _ hlt'] at he
      exact (hd.getElem_inj_iff).mp he
    have := Lib.idxOf_map hinj
    rwa [getD_idxOf hid] at this
  constructor
  · have hids : named ids (List.range ids.length) = ids := by
      apply List.ext_getElem
      · simp [named]
      · intro i h1 h2
        simp only [named, List.getElem_map, List.getElem_range]
        exact List.getD_eq_getElem _ _ h2
    exact (hp.map _).trans (.of_eq hids)
  · rintro a b ⟨edge, he, rfl, rfl⟩
    obtain ⟨hfm, htm⟩ := hends edge he
    rw [hpos _ hfm, hpos _ htm]
    exact hf _ _ (mem_indexedEdges.mpr ⟨edge, he, index?_eq_some.mpr ⟨hfm, rfl⟩,
      index?_eq_some.mpr ⟨htm, rfl⟩⟩)

/-- An acyclic configuration has an acyclic graph of indices. -/
theorem indexed_acyclic {ids : List String} (h : Lib.Acyclic config.Edge) :
    Lib.Acyclic fun a b => (a, b) ∈ config.indexedEdges ids := by
  intro i hi
  refine h (ids.getD i "") (TransGen.lift (fun i => ids.getD i "") ?_ _ _ hi)
  intro a b hab
  obtain ⟨edge, he, ha, hb⟩ := mem_indexedEdges.mp hab
  obtain ⟨hfm, rfl⟩ := index?_eq_some.mp ha
  obtain ⟨htm, rfl⟩ := index?_eq_some.mp hb
  exact ⟨edge, he, (getD_idxOf hfm).symm, (getD_idxOf htm).symm⟩

/-! ## Accepted configurations -/

variable (config) in
/-- The declared node has the category. -/
def HasCategory (id : String) (category : NodeCategory) : Prop :=
  ∃ node, config.node id = some node ∧ node.category = category

variable (config) in
structure WellFormed : Prop where
  endpoints : ∀ edge ∈ config.edges, edge.fromNode ∈ config.nodeIds ∧ edge.toNode ∈ config.nodeIds
  acyclic : Lib.Acyclic config.Edge
  sources : ∀ id, config.HasCategory id .source → config.inbound id = []
  sinks : ∀ id, config.HasCategory id .sink → config.outbound id = []
  /-- a filter or router has at most one inbound edge, and one if there are other nodes -/
  single : ∀ id, config.HasCategory id .filter ∨ config.HasCategory id .router →
    (config.inbound id).length ≤ 1 ∧ (2 ≤ config.nodes.length → (config.inbound id).length = 1)
  ports : ∀ edge ∈ config.edges,
    edge.port.isSome = true ↔ config.HasCategory edge.fromNode .router
  path : 2 ≤ config.nodes.length → ∀ id ∈ config.nodeIds, ∃ source sink,
    config.HasCategory source .source ∧ config.HasCategory sink .sink ∧
      ReflTransGen config.Edge source id ∧ ReflTransGen config.Edge id sink

section Accepted

variable {toposort : Toposort}

/-- The nodes of an edge that leads out of `id` or into it. -/
theorem inbound_ne_nil {id : String} : config.inbound id ≠ [] ↔ ∃ a, config.Edge a id := by
  constructor
  · intro h
    obtain ⟨edge, he⟩ := List.exists_mem_of_ne_nil _ h
    obtain ⟨hm, rfl⟩ := mem_inbound.mp he
    exact ⟨_, edge, hm, rfl, rfl⟩
  · rintro ⟨_, edge, hm, -, rfl⟩
    exact List.ne_nil_of_mem (mem_inbound.mpr ⟨hm, rfl⟩)

theorem outbound_ne_nil {id : String} : config.outbound id ≠ [] ↔ ∃ b, config.Edge id b := by
  constructor
  · intro h
    obtain ⟨edge, he⟩ := List.exists_mem_of_ne_nil _ h
    obtain ⟨hm, rfl⟩ := mem_outbound.mp he
    exact ⟨_, edge, hm, rfl, rfl⟩
  · rintro ⟨_, edge, hm, rfl, -⟩
    exact List.ne_nil_of_mem (mem_outbound.mpr ⟨hm, rfl⟩)

/-- In an accepted configuration with several nodes, a node without inbound edge is a source and one
without outbound edge is a sink. -/
theorem ends_of_validate (h : config.validate toposort = .ok ()) (hlen : 2 ≤ config.nodes.length)
    {id : String} {node : NodeDef} (hn : config.node id = some node) :
    (config.inbound id = [] → node.category = .source) ∧
      (config.outbound id = [] → node.category = .sink) := by
  have hsource := check_eq_nil h
    (show config.checkSourceNoInbound ∈ config.checks toposort by simp [checks])
  have hsink := check_eq_nil h
    (show config.checkSinkNoOutbound ∈ config.checks toposort by simp [checks])
  have hboth := check_eq_nil h
    (show config.checkProcessingNodesHaveInputAndOutput ∈ config.checks toposort by simp [checks])
  have horphan := check_eq_nil h
    (show config.checkOrphanNodes ∈ config.checks toposort by simp [checks])
  have hedge := of_checkOrphanNodes horphan hlen hn
  constructor
  · intro hi
    by_contra hc
    by_cases hs : node.category = .sink
    · exact hedge.elim (· hi) (· (of_checkSinkNoOutbound hsink hn hs))
    · exact hedge.elim (· hi) (· ((of_checkProcessingNodes hboth hn ⟨hc, hs⟩).mp hi))
  · intro ho
    by_contra hc
    by_cases hs : node.category = .source
    · exact hedge.elim (· (of_checkSourceNoInbound hsource hn hs)) (· ho)
    · exact hedge.elim (· ((of_checkProcessingNodes hboth hn ⟨hs, hc⟩).mpr ho)) (· ho)

theorem acyclic_of_validate (ht : Toposorts toposort) (h : config.validate toposort = .ok ())
    (hends : ∀ edge ∈ config.edges, edge.fromNode ∈ config.nodeIds ∧ edge.toNode ∈ config.nodeIds) :
    Lib.Acyclic config.Edge := by
  have hcycles := check_eq_nil h
    (show config.checkNoCycles toposort ∈ config.checks toposort by simp [checks])
  unfold checkNoCycles at hcycles
  split at hcycles
  · next order ho =>
    obtain ⟨hp, hf⟩ := ht.order _ _ order indexedEdges_lt ho
    exact (named_forward config.distinct hends hp hf).2.acyclic
  · cases hcycles

theorem wellFormed_of_validate (ht : Toposorts toposort) (h : config.validate toposort = .ok ()) :
    config.WellFormed := by
  have hends : ∀ edge ∈ config.edges,
      edge.fromNode ∈ config.nodeIds ∧ edge.toNode ∈ config.nodeIds := fun edge he =>
    of_checkEdgeNodeReferences (check_eq_nil h (by simp [checks])) he
  have hacyclic := acyclic_of_validate ht h hends
  refine ⟨hends, hacyclic, ?_, ?_, ?_, ?_, ?_⟩
  · rintro id ⟨node, hn, hc⟩
    exact of_checkSourceNoInbound (check_eq_nil h (by simp [checks])) hn hc
  · rintro id ⟨node, hn, hc⟩
    exact of_checkSinkNoOutbound (check_eq_nil h (by simp [checks])) hn hc
  · intro id hid
    have hle : (config.inbound id).length ≤ 1 := by
      rcases hid with ⟨node, hn, hc⟩ | ⟨node, hn, hc⟩
      · exact of_checkSingleInbound
          (check_eq_nil h (show config.checkFilterSingleInbound ∈ _ by simp [checks])) hn hc
      · exact of_checkSingleInbound
          (check_eq_nil h (show config.checkRouterSingleInbound ∈ _ by simp [checks])) hn hc
    refine ⟨hle, fun hlen => ?_⟩
    -- without an inbound edge the node would be a source
    have hne : config.inbound id ≠ [] := by
      intro hnil
      rcases hid with ⟨node, hn, hc⟩ | ⟨node, hn, hc⟩ <;>
      · have hs := (ends_of_validate h hlen hn).1 hnil
        rw [hc] at hs
        cases hs
    have := List.length_pos_iff.mpr hne
    omega
  · intro edge he
    obtain ⟨node, hn⟩ := mem_nodeIds.mp (hends edge he).1
    have hports := of_checkPorts (check_eq_nil h (by simp [checks]))
      (check_eq_nil h (by simp [checks])) he hn
    rw [hports]
    refine ⟨fun hc => ⟨node, hn, hc⟩, ?_⟩
    rintro ⟨node', hn', hc⟩
    obtain rfl := Option.some.inj (hn.symm.trans hn')
    exact hc
  · intro hlen id hid
    have hfinite : {id | id ∈ config.nodeIds}.Finite := config.nodeIds.finite_toSet
    have hfield : ∀ a b, config.Edge a b → a ∈ config.nodeIds ∧ b ∈ config.nodeIds := by
      rintro _ _ ⟨edge, he, rfl, rfl⟩
      exact hends edge he
    obtain ⟨source, hs, hroot⟩ := hacyclic.exists_root hfinite hfield id
    obtain ⟨sink, ht, hleaf⟩ := hacyclic.exists_leaf hfinite hfield id
    -- both ends are declared: they are `id` or an end of an edge
    have hsm : source ∈ config.nodeIds := by
      rcases hs.cases_head with rfl | ⟨b, hb, -⟩
      · exact hid
      · exact (hfield _ _ hb).1
    have htm : sink ∈ config.nodeIds := by
      rcases ht.cases_tail with rfl | ⟨b, -, hb⟩
      · exact hid
      · exact (hfield _ _ hb).2
    obtain ⟨first, hfirst⟩ := mem_nodeIds.mp hsm
    obtain ⟨last, hlast⟩ := mem_nodeIds.mp htm
    refine ⟨source, sink, ⟨first, hfirst, ?_⟩, ⟨last, hlast, ?_⟩, hs, ht⟩
    · refine (ends_of_validate h hlen hfirst).1 (by_contra fun hne => ?_)
      obtain ⟨a, ha⟩ := inbound_ne_nil.mp hne
      exact hroot a ha
    · refine (ends_of_validate h hlen hlast).2 (by_contra fun hne => ?_)
      obtain ⟨b, hb⟩ := outbound_ne_nil.mp hne
      exact hleaf b hb

end Accepted

end Config

end Wafer
