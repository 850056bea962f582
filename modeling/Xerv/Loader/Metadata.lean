import Xerv.Loader.Wiring

/-!
# The metadata of a loaded flow (`xerv-executor/src/loader/loader.rs`)

The loader numbers the enabled triggers and nodes a second time, for its metadata, after
the builder has numbered them for the graph.
-/

namespace Xerv
open Xerv.Lib

namespace FlowLoader
open FlowBuilder

/-- `FlowLoader::collect_node_ids`. -/
def collectNodeIds (flow : FlowDefinition) : Table String NodeId :=
  let s := flow.triggers.foldl (fun (s : Table String NodeId × UInt32) t =>
    if t.enabled then (s.1.insert t.id s.2, s.2 + 1) else s) (Table.empty, 0)
  (flow.nodes.foldl (fun (s : Table String NodeId × UInt32) n =>
    if n.2.enabled then (s.1.insert n.1 s.2, s.2 + 1) else s) s).1

theorem collectNodeIds_eq (flow : FlowDefinition) :
    collectNodeIds flow = (FlowBuilder.new.registerIds flow).nodeIds := by
  have hfold {α : Type} (name : α → String) (enabled : α → Bool) (b : FlowBuilder) (xs : List α) :
      xs.foldl (fun (s : Table String NodeId × UInt32) x =>
          if enabled x then (s.1.insert (name x) s.2, s.2 + 1) else s) (b.nodeIds, b.nextId) =
        ((xs.foldl (fun b x => if enabled x then b.allocateId (name x) else b) b).nodeIds,
          (xs.foldl (fun b x => if enabled x then b.allocateId (name x) else b) b).nextId) := by
    induction xs generalizing b with
    | nil => rfl
    | cons x xs ih =>
      rw [List.foldl_cons, List.foldl_cons, ← ih]
      congr 1
      split
      · rfl
      · rfl
  have htriggers := hfold TriggerDefinition.id TriggerDefinition.enabled FlowBuilder.new flow.triggers
  have hnodes := hfold (fun n : String × NodeDefinition => n.1) fun n => n.2.enabled
  have hempty : ((Table.empty, 0) : Table String NodeId × UInt32) =
      (FlowBuilder.new.nodeIds, FlowBuilder.new.nextId) := rfl
  unfold collectNodeIds
  rw [hempty, htriggers]
  exact congrArg Prod.fst (hnodes _ flow.nodes)

/-- For every flow the loader and the builder number the same names alike; and where the names of the enabled
items differ and do not outnumber the ids, every name has the number of the graph node built from its item, and
of no other. -/
theorem metadata_matches_graph (isAlphanumeric : Char → Bool) (flow : FlowDefinition) :
    collectNodeIds flow = (FlowBuilder.new.registerIds flow).nodeIds ∧
      (∀ name, (collectNodeIds flow name).isSome = true ↔ name ∈ flow.names) ∧
      ∀ order g, build isAlphanumeric flow order = .ok g → flow.names.Nodup →
        flow.names.length ≤ UInt32.size → ∀ item ∈ flow.items, ∃ id, collectNodeIds flow item.1 = some id ∧
          ∀ node, node ∈ g.nodes ∧ node.id = id ↔ node = GraphNode.new id item.2 := by
  refine ⟨collectNodeIds_eq flow, fun name => ?_, fun order g hbuild hnodup hfit item hitem => ?_⟩
  · rw [collectNodeIds_eq]
    exact registerIds_isSome flow name
  · obtain ⟨henabled, -, rfl⟩ := (build_ok_iff isAlphanumeric flow order g).mp hbuild
    have hwired := assembled_wired isAlphanumeric flow hnodup hfit henabled
    have hown : graphNode (idOf flow) item ∈ (assembled isAlphanumeric flow).nodes := by
      rw [hwired.nodes]
      exact List.mem_map_of_mem hitem
    refine ⟨idOf flow item.1, ?_, fun node => ⟨?_, ?_⟩⟩
    · rw [collectNodeIds_eq]
      exact registerIds_idOf flow item.1 (List.mem_map_of_mem hitem)
    · rintro ⟨hnode, hid⟩
      exact List.inj_on_of_nodup_map (assembled isAlphanumeric flow).distinct hnode hown hid
    · rintro rfl
      exact ⟨hown, rfl⟩

theorem metadata_one_edge : ∃ g, build Char.isAlphanum (oneEdge true).core [0, 1] = .ok g ∧
    ∀ item ∈ (oneEdge true).core.items, ∃ id, collectNodeIds (oneEdge true).core item.1 = some id ∧
      ∀ node, node ∈ g.nodes ∧ node.id = id ↔ node = GraphNode.new id item.2 := by
  have hbuild := (build_ok_iff Char.isAlphanum (oneEdge true).core [0, 1] _).mpr
    ⟨by decide, by decide, rfl⟩
  exact ⟨_, hbuild, (metadata_matches_graph Char.isAlphanum (oneEdge true).core).2.2 [0, 1] _ hbuild
    (by decide) (by decide)⟩

/-- Every enabled item has a number in the metadata, and a node of that number and of its own type in the graph. -/
def OwnNodes (flow : FlowDefinition) (g : FlowGraph) : Prop :=
  ∀ item ∈ flow.items, ∃ id, collectNodeIds flow item.1 = some id ∧ GraphNode.new id item.2 ∈ g.nodes

theorem OwnNodes.fits {flow : FlowDefinition} {g : FlowGraph} (h : OwnNodes flow g)
    (htypes : (flow.items.map Prod.snd).Nodup) : flow.items.length ≤ UInt32.size := by
  have hsub : flow.items.map Prod.snd ⊆ g.nodes.map GraphNode.nodeType := by
    intro type htype
    obtain ⟨item, hitem, rfl⟩ := List.mem_map.mp htype
    obtain ⟨id, -, hnode⟩ := h item hitem
    exact List.mem_map.mpr ⟨_, hnode, rfl⟩
  have hle := (List.subperm_of_subset htypes hsub).length_le
  rw [List.length_map, List.length_map] at hle
  exact hle.trans g.nodes_fit

theorem build_edgeless (isAlphanumeric : Char → Bool) (flow : FlowDefinition) (h : flow.edges = []) :
    ∃ order g, g.HashOrder order ∧ build isAlphanumeric flow order = .ok g := by
  have hedges : (assembled isAlphanumeric flow).edges = [] := by
    unfold assembled
    rw [h]
    exact (FlowGraph.new.addNode_fold_edges _).1
  have hends : ∀ e ∈ (assembled isAlphanumeric flow).edges,
      e.fromNode ∈ (assembled isAlphanumeric flow).nodeIds ∧
        e.toNode ∈ (assembled isAlphanumeric flow).nodeIds := by
    rw [hedges]
    exact fun e he => absurd he List.not_mem_nil
  have hacyclic : Acyclic (assembled isAlphanumeric flow).forwardPairs := by
    intro v hcycle
    obtain ⟨u, hfirst, -⟩ := Relation.TransGen.head'_iff.mp hcycle
    rw [FlowGraph.forwardPairs, hedges] at hfirst
    exact absurd hfirst List.not_mem_nil
  have horder := (assembled isAlphanumeric flow).hashOrder_nodeIds hends
  refine ⟨_, _, horder, (build_ok_iff isAlphanumeric flow _ _).mpr ⟨?_, ?_, rfl⟩⟩
  · rw [h]
    exact fun e he => absurd he List.not_mem_nil
  · exact (FlowGraph.validate_ok_iff _ _ horder).mpr ⟨hends, hacyclic⟩

def sameName : FlowDefinition where
  triggers := [⟨"a", "webhook", true⟩]
  nodes := [("a", ⟨"std::log", true⟩)]
  edges := []
  distinctNodes := List.nodup_singleton _

def manyNodes (n : ℕ) : FlowDefinition where
  triggers := []
  nodes := (List.range n).map fun i =>
    (String.ofList (List.replicate i 'a'), ⟨String.ofList (List.replicate i 'a'), true⟩)
  edges := []
  distinctNodes := by
    rw [List.map_map]
    refine List.nodup_range.map fun i j hij => ?_
    have hlen := congrArg (fun s : String => s.toList.length) hij
    simpa using hlen

theorem manyNodes_items (n : ℕ) : (manyNodes n).items = (List.range n).map fun i =>
    (String.ofList (List.replicate i 'a'), String.ofList (List.replicate i 'a')) := by
  unfold FlowDefinition.items
  have hall : (manyNodes n).nodes.filter (fun n => n.2.enabled) = (manyNodes n).nodes :=
    List.filter_eq_self.mpr fun node hnode => by
      obtain ⟨i, -, rfl⟩ := List.mem_map.mp hnode
      rfl
  rw [hall, manyNodes, List.map_map]
  rfl

theorem manyNodes_nodup (n : ℕ) :
    (manyNodes n).names.Nodup ∧ ((manyNodes n).items.map Prod.snd).Nodup := by
  have hdistinct := (manyNodes n).distinctNodes
  rw [manyNodes, List.map_map] at hdistinct
  unfold FlowDefinition.names
  rw [manyNodes_items, List.map_map, List.map_map]
  exact ⟨hdistinct, hdistinct⟩

theorem manyNodes_lost (n : ℕ) (hn : UInt32.size < n) :
    ∃ order g, build Char.isAlphanum (manyNodes n) order = .ok g ∧ g.HashOrder order ∧
      (manyNodes n).names.Nodup ∧ ¬OwnNodes (manyNodes n) g := by
  obtain ⟨order, g, horder, hbuild⟩ := build_edgeless Char.isAlphanum (manyNodes n) rfl
  refine ⟨order, g, hbuild, horder, (manyNodes_nodup n).1, fun h => ?_⟩
  have hfits := h.fits (manyNodes_nodup n).2
  rw [manyNodes_items, List.length_map, List.length_range] at hfits
  exact absurd hn (Nat.not_lt.mpr hfits)

theorem labels_lost :
    (∃ g, build Char.isAlphanum sameName [1] = .ok g ∧ g.HashOrder [1] ∧ ¬OwnNodes sameName g) ∧
      ∃ order g, build Char.isAlphanum (manyNodes (UInt32.size + 1)) order = .ok g ∧ g.HashOrder order ∧
        (manyNodes (UInt32.size + 1)).names.Nodup ∧ ¬OwnNodes (manyNodes (UInt32.size + 1)) g := by
  refine ⟨⟨assembled Char.isAlphanum sameName, (build_ok_iff _ _ _ _).mpr
    ⟨by decide, by decide, rfl⟩, ?_, fun h => ?_⟩, manyNodes_lost _ (Nat.lt_succ_self _)⟩
  · exact (assembled Char.isAlphanum sameName).hashOrder_nodeIds (by decide)
  · obtain ⟨id, hid, hnode⟩ := h ("a", "trigger::webhook") (by decide)
    have hone : id = 1 := Option.some.inj (hid.symm.trans (by decide))
    subst hone
    exact absurd hnode (by decide)

end FlowLoader

end Xerv
