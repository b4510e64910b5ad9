import RegionNet.Proofs.Fleet
import RegionNet.Proofs.Node.Report
import RegionNet.Proofs.Topology.Description

/-!
# What requests leave alone

Vertices are moved to other regions and configured, and services are started and stopped at nodes.
None of this renames a vertex or changes its neighbors, and no node stops measuring. So what a
topology says of the links still holds after any sequence of requests.
-/

namespace RegionNet

/-- What may be asked of the vertices of a graph, one at a time. -/
inductive FleetRequest
  | move (vertex : NodeName) (region : RegionName)
  | configure (vertex : NodeName) (document : Json)
  | startService (node : NodeName) (service : ServiceName) (parameters : ContainerParameters)
  | stopService (node : NodeName) (container : ContainerName)

namespace Fleet

def perform (f : Fleet) : FleetRequest → Fleet
  | .move vertex region => f.setRegion vertex region
  | .configure vertex document => f.applyDocument vertex document
  | .startService node service parameters =>
    f.withNode node fun n fabric =>
      ({ n with resources := (n.resources.startService service parameters).2 }, fabric)
  | .stopService node container =>
    f.withNode node fun n fabric =>
      ({ n with resources := (n.resources.stopService container).2 }, fabric)

end Fleet

/-! ### What a move and a document change -/

section Network

variable {ν : Type} [Network ν]

theorem Node.vertex_setRegion (n : Node) (region : RegionName) (net : ν) :
    (n.setRegion region net).1.vertex = { n.vertex with region := region } := rfl

theorem Node.resources_setRegion (n : Node) (region : RegionName) (net : ν) :
    (n.setRegion region net).1.resources = n.resources := rfl

theorem Node.wiring_applyDocument (n : Node) (document : Json) (net : ν) :
    (n.applyDocument document net).1.vertex.name = n.vertex.name ∧
      (n.applyDocument document net).1.vertex.neighbors = n.vertex.neighbors := by
  simp only [applyDocument]
  cases Vertex.regionOf document <;> split <;> exact ⟨rfl, rfl⟩

theorem Node.resources_applyDocument (n : Node) (document : Json) (net : ν) :
    (n.applyDocument document net).1.resources = n.resources := by
  simp only [applyDocument]
  cases Vertex.regionOf document <;> split <;> rfl

end Network

theorem ResourceManager.isMeasured_startService (m : ResourceManager) (service : ServiceName)
    (parameters : ContainerParameters) (measured : m.IsMeasured) :
    (m.startService service parameters).2.IsMeasured := by
  cases m with
  | unmeasured => exact measured
  | measured s containers =>
    simp only [startService]
    split
    · trivial
    · split <;> trivial

theorem ResourceManager.isMeasured_stopService (m : ResourceManager) (container : ContainerName)
    (measured : m.IsMeasured) : (m.stopService container).2.IsMeasured := by
  cases m with
  | unmeasured => exact measured
  | measured s containers => trivial

/-! ### Wiring -/

namespace Graph

/-- The name and the neighbors of a vertex. -/
def wiring? (g : Graph) (v : NodeName) : Option (NodeName × SortedMap NodeName Float) :=
  (g.vertex? v).map fun x => (x.name, x.neighbors)

/-- Vertices know their names and agree on their links, and every node measures. -/
structure Networked (g : Graph) : Prop where
  names : ∀ v name neighbors, g.wiring? v = some (name, neighbors) → name = v
  symmetric : ∀ u name neighbors v name' neighbors', g.wiring? u = some (name, neighbors) →
    g.wiring? v = some (name', neighbors') → neighbors.get? v = neighbors'.get? u
  measured : ∀ v n, g.nodes.get? v = some n → n.resources.IsMeasured

variable {g g' : Graph}

theorem Networked.of_wiring_eq (networked : g.Networked) (same : ∀ v, g'.wiring? v = g.wiring? v)
    (measured : ∀ v n, g'.nodes.get? v = some n → n.resources.IsMeasured) : g'.Networked := by
  constructor
  · simpa only [same] using networked.names
  · simpa only [same] using networked.symmetric
  · exact measured

theorem Networked.modifyClient (networked : g.Networked) (name : NodeName) (f : Vertex → Vertex)
    (keeps : ∀ x, (f x).name = x.name ∧ (f x).neighbors = x.neighbors) :
    (g.modifyClient name f).Networked := by
  apply networked.of_wiring_eq
  · intro v
    simp only [wiring?, vertex?, Graph.modifyClient, SortedMap.get?_modify]
    cases g.nodes.get? v with
    | some n => rfl
    | none => cases g.clients.get? v <;> split <;> simp [keeps]
  · exact networked.measured

theorem Networked.withNode {f : Fleet} (networked : f.graph.Networked) (name : NodeName)
    (act : Node → Fabric → Node × Fabric)
    (keeps : ∀ n, (act n f.fabric).1.vertex.name = n.vertex.name ∧
      (act n f.fabric).1.vertex.neighbors = n.vertex.neighbors)
    (measures : ∀ n, n.resources.IsMeasured → (act n f.fabric).1.resources.IsMeasured) :
    (f.withNode name act).graph.Networked := by
  apply networked.of_wiring_eq
  · intro v
    simp only [wiring?, vertex?, Fleet.nodes_withNode, Fleet.clients_withNode]
    cases f.graph.nodes.get? v with
    | some n => split <;> simp [keeps]
    | none => simp
  · intro v n present
    rw [Fleet.nodes_withNode] at present
    split at present
    next =>
      obtain ⟨n₀, present₀, rfl⟩ := Option.map_eq_some_iff.1 present
      exact measures n₀ (networked.measured v n₀ present₀)
    next => exact networked.measured v n present

theorem Networked.perform {f : Fleet} (networked : f.graph.Networked)
    (request : FleetRequest) :
    (f.perform request).graph.Networked := by
  cases request with
  | move v region =>
    have moved := networked.withNode v (fun n fabric => n.setRegion region fabric)
      (fun n => by simp [Node.vertex_setRegion]) fun n => by simp [Node.resources_setRegion]
    exact moved.modifyClient v _ fun _ => ⟨rfl, rfl⟩
  | configure v document =>
    have applied := networked.withNode v (fun n fabric => n.applyDocument document fabric)
      (fun n => n.wiring_applyDocument document _)
      fun n => by simp [Node.resources_applyDocument]
    exact applied.modifyClient v _ fun _ => ⟨rfl, rfl⟩
  | startService v service parameters =>
    exact networked.withNode v _ (fun _ => ⟨rfl, rfl⟩) fun n =>
      n.resources.isMeasured_startService service parameters
  | stopService v container =>
    exact networked.withNode v _ (fun _ => ⟨rfl, rfl⟩) fun n =>
      n.resources.isMeasured_stopService container

theorem Networked.requests {f : Fleet} (networked : f.graph.Networked)
    (requests : List FleetRequest) :
    (requests.foldl Fleet.perform f).graph.Networked := by
  induction requests generalizing f with
  | nil => exact networked
  | cons request rest ih => exact ih (networked.perform request)

/-- A graph that was read from a text is networked. -/
theorem networked_of_read (source : DocumentSource) (text : String) (window : EstimationWindow)
    (t : Topology) (read : Topology.read source text = .ok t) :
    (ofTopology window t).Networked := by
  have reflects := Topology.reflects_of_read text read
  have member (v name : NodeName) (neighbors : SortedMap NodeName Float)
      (wiring : (ofTopology window t).wiring? v = some (name, neighbors)) :
      ∃ m, t.members.get? v = some m ∧ m.vertex.name = name ∧ m.vertex.neighbors = neighbors := by
    rw [wiring?, vertex?_ofTopology, Option.map_map, Option.map_eq_some_iff] at wiring
    obtain ⟨m, present, same⟩ := wiring
    cases same
    exact ⟨m, present, rfl, rfl⟩
  constructor
  · intro v name neighbors wiring
    obtain ⟨m, present, rfl, rfl⟩ := member v name neighbors wiring
    exact reflects.declares.names v m present
  · intro u name neighbors v name' neighbors' wiring wiring'
    obtain ⟨m, present, rfl, rfl⟩ := member u name neighbors wiring
    obtain ⟨m', present', rfl, rfl⟩ := member v name' neighbors' wiring'
    rw [reflects.wired.neighbors u m present, reflects.wired.neighbors v m' present']
    exact lastBandwidth_comm t.links u v
  · intro v n present
    obtain ⟨_, _, rfl⟩ := nodeOf_of_present v n present
    trivial

end Graph

end RegionNet
