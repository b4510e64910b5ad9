import RegionNet.Graph
import RegionNet.Network.Fabric
import RegionNet.Node.Thread

/-!
A fleet: the vertices of a graph and the fabric that joins them.
-/

namespace RegionNet

structure Fleet where
  graph : Graph
  fabric : Fabric

namespace Fleet

/-- A fleet in which nothing was started. -/
def ofGraph (g : Graph) : Fleet := ⟨g, Fabric.empty⟩

/-- Does something to one node and the fabric; a name of no node changes nothing. -/
def withNode (f : Fleet) (name : NodeName) (act : Node → Fabric → Node × Fabric) : Fleet :=
  match f.graph.nodes.get? name with
  | none => f
  | some n =>
    let (n, fabric) := act n f.fabric
    ⟨f.graph.modifyNode name fun _ => n, fabric⟩

/-- Moves a node or a client to another region. -/
def setRegion (f : Fleet) (name : NodeName) (region : RegionName) : Fleet :=
  let moved := f.withNode name fun n fabric => n.setRegion region fabric
  { moved with graph := moved.graph.modifyClient name fun v => { v with region := region } }

/-- Does to a node or a client what a configuration document says. -/
def applyDocument (f : Fleet) (name : NodeName) (document : Json) : Fleet :=
  let applied := f.withNode name fun n fabric => n.applyDocument document fabric
  { applied with
    graph := applied.graph.modifyClient name fun v => v.applyClientDocument document }

/-- The exchange of a node takes in a datagram as its vertex is now. -/
def vertexOf (f : Fleet) (name : NodeName) : Option Vertex :=
  f.graph.vertex? name

def deliver (f : Fleet) (index : Nat) : Fleet :=
  { f with fabric := f.fabric.deliver f.vertexOf index }

def lose (f : Fleet) (index : Nat) : Fleet :=
  { f with fabric := f.fabric.lose index }

def deliverAll (f : Fleet) : Fleet :=
  { f with fabric := f.fabric.deliverAll f.vertexOf }

end Fleet

end RegionNet
