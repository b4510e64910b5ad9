import RegionNet.SortedMap
import RegionNet.Name

/-!
A vertex of the network: what is known of a node or a client apart from what it executes.
-/

namespace RegionNet

/-- Neighbors are kept with the bandwidth of the link to them, in bytes per second. -/
structure Vertex where
  name : NodeName
  region : RegionName
  isPool : Bool
  hardware : Option String
  neighbors : SortedMap NodeName Float
deriving DecidableEq

namespace Vertex

/-- A vertex in no region and without neighbors. -/
def new (name : NodeName) : Vertex :=
  ⟨name, RegionName.unassigned, false, none, ∅⟩

/-- A second link to the same neighbor replaces the first. -/
def addNeighbor (v : Vertex) (neighbor : NodeName) (bandwidth : Float) : Vertex :=
  { v with neighbors := v.neighbors.insert neighbor bandwidth }

def hasNeighbor (v : Vertex) (neighbor : NodeName) : Bool :=
  v.neighbors.contains neighbor

end Vertex

end RegionNet
