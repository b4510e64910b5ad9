import RegionNet.Aggregation
import RegionNet.Node.Call
import RegionNet.Topology

/-!
The graph of a simulation: the nodes that execute, the clients that do not, and the links between
them. Nodes and clients share one space of names.
-/

namespace RegionNet

structure Graph where
  nodes : SortedMap NodeName Node
  clients : SortedMap NodeName Vertex
  links : List Link

namespace Graph

def empty : Graph := ⟨∅, ∅, []⟩

/-- A member as a node that was never started. -/
def nodeOf (window : EstimationWindow) (m : Member) : Node :=
  Node.new m.vertex (ResourceManager.ofDocument m.document) window

/-- The graph that a topology describes; its nodes cache reports over `window`. -/
def ofTopology (window : EstimationWindow) (t : Topology) : Graph where
  nodes := t.members.filterMap fun _ m => if m.isClient then none else some (nodeOf window m)
  clients := t.members.filterMap fun _ m => if m.isClient then some m.vertex else none
  links := t.links

def contains (g : Graph) (name : NodeName) : Bool :=
  g.nodes.contains name || g.clients.contains name

def vertex? (g : Graph) (name : NodeName) : Option Vertex :=
  ((g.nodes.get? name).map Node.vertex).or (g.clients.get? name)

def region? (g : Graph) (name : NodeName) : Option RegionName :=
  (g.vertex? name).map Vertex.region

/-- The region of every vertex that has one. The others are unknown to whoever asks. -/
def regionLookup (g : Graph) : RegionLookup := fun name =>
  (g.region? name).filter fun region => !region.isUnassigned

/-- The lookup as a table. -/
def regionTable (g : Graph) : SortedMap NodeName RegionName :=
  SortedMap.ofList ((g.nodes.keys ++ g.clients.keys).filterMap fun name =>
    (g.regionLookup name).map fun region => (name, region))

/-- The assigned regions of the nodes, each once. -/
def regions (g : Graph) : List RegionName :=
  (SortedMap.ofList (g.nodes.values.filterMap fun n =>
    if n.region.isUnassigned then none else some (n.region, ()))).keys

def modifyNode (g : Graph) (name : NodeName) (f : Node → Node) : Graph :=
  { g with nodes := g.nodes.modify name f }

def modifyClient (g : Graph) (name : NodeName) (f : Vertex → Vertex) : Graph :=
  { g with clients := g.clients.modify name f }

/-- The summaries over a fresh report of every node. -/
def currentSummaries (g : Graph) (now : Timestamp) (window : EstimationWindow) :
    Except MergeError (SortedMap RegionName (Summary Float)) :=
  summarizeRegions g.regionLookup window (g.nodes.values.map fun n => n.report now window)

end Graph

end RegionNet
