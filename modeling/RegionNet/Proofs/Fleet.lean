import RegionNet.Fleet
import RegionNet.Proofs.SortedMap.Lookup

/-!
# One node of a fleet

What is done to one node of a fleet, with the fabric at hand, changes no other node, no client and
no name.
-/

namespace RegionNet.Fleet

theorem nodes_withNode (f : Fleet) (name v : NodeName) (act : Node → Fabric → Node × Fabric) :
    (f.withNode name act).graph.nodes.get? v =
      if v = name then (f.graph.nodes.get? v).map fun n => (act n f.fabric).1
      else f.graph.nodes.get? v := by
  cases present : f.graph.nodes.get? name with
  | none =>
    by_cases same : v = name
    · simp [withNode, present, same]
    · simp [withNode, present, same]
  | some n =>
    by_cases same : v = name
    · simp [withNode, present, same, Graph.modifyNode, SortedMap.get?_modify]
    · simp [withNode, present, same, Graph.modifyNode, SortedMap.get?_modify]

theorem withNode_of_missing {f : Fleet} {name : NodeName} (missing : f.graph.nodes.get? name = none)
    (act : Node → Fabric → Node × Fabric) : f.withNode name act = f := by
  rw [withNode, missing]

theorem withNode_congr {f : Fleet} {name : NodeName} {n : Node}
    (here : f.graph.nodes.get? name = some n) {act act' : Node → Fabric → Node × Fabric}
    (same : act n f.fabric = act' n f.fabric) : f.withNode name act = f.withNode name act' := by
  simp only [withNode, here, same]

theorem graph_withNode_of_same {f : Fleet} {name : NodeName} {n : Node}
    (here : f.graph.nodes.get? name = some n) {act : Node → Fabric → Node × Fabric}
    (same : (act n f.fabric).1 = n) : (f.withNode name act).graph = f.graph := by
  have nodes : (f.withNode name act).graph.nodes = f.graph.nodes := by
    refine SortedMap.ext_get? _ _ fun v => ?_
    rw [nodes_withNode]
    split
    next at_name => rw [at_name, here, Option.map_some, same]
    next => rfl
  rw [withNode, here] at nodes ⊢
  exact congrArg (fun nodes => { f.graph with nodes := nodes }) nodes

theorem clients_withNode (f : Fleet) (name : NodeName) (act : Node → Fabric → Node × Fabric) :
    (f.withNode name act).graph.clients = f.graph.clients := by
  rw [withNode]
  split <;> rfl

theorem contains_withNode (f : Fleet) (name v : NodeName) (act : Node → Fabric → Node × Fabric) :
    (f.withNode name act).graph.nodes.contains v = f.graph.nodes.contains v := by
  rw [SortedMap.contains, nodes_withNode]
  split
  · rw [Option.isSome_map, SortedMap.contains]
  · rfl

/-- What holds of every node of the fleet, which may depend on its name. -/
def EachNode (P : NodeName → Node → Prop) (f : Fleet) : Prop :=
  ∀ v n, f.graph.nodes.get? v = some n → P v n

theorem EachNode.withNode {P Q : NodeName → Node → Prop} {f : Fleet} (each : f.EachNode P)
    (name : NodeName) (act : Node → Fabric → Node × Fabric)
    (here : ∀ n, P name n → Q name (act n f.fabric).1)
    (others : ∀ v n, v ≠ name → P v n → Q v n) : (f.withNode name act).EachNode Q := by
  intro v n present
  rw [nodes_withNode] at present
  split at present
  next same =>
    obtain ⟨n₀, present₀, rfl⟩ := Option.map_eq_some_iff.1 present
    subst same
    exact here n₀ (each v n₀ present₀)
  next other => exact others v n other (each v n present)

end RegionNet.Fleet
