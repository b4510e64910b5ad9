import RegionNet.Network.Fabric

/-!
A fabric with vertices that do not execute: each operation is asked for by hand.

Every datagram is delivered before the next operation. Behind what a node sends the bench sends a
datagram of its own to every running exchange, to know that all were taken in. The bench stands
outside of the fabric, on a host without a route to it, so nothing that it sends itself gets
through.
-/

namespace RegionNet

/-- A datagram from outside found no route. -/
structure NoRoute where
  purpose : String
deriving DecidableEq, Repr

def NoRoute.message (e : NoRoute) : String :=
  s!"{e.purpose} send: Os \x7b code: 101, kind: NetworkUnreachable, " ++
    "message: \"Network is unreachable\" \x7d"

structure Bench where
  vertices : SortedMap NodeName Vertex
  fabric : Fabric

namespace Bench

/-- A bench with the given vertices; each link makes its ends neighbors of each other. -/
def new (nodes : List NodeName) (links : List (NodeName × NodeName)) : Bench :=
  let vertices := SortedMap.ofList (nodes.map fun name => (name, Vertex.new name))
  ⟨links.foldl
      (fun m l => (m.modify l.1 (·.addNeighbor l.2 1.0)).modify l.2 (·.addNeighbor l.1 1.0))
      vertices,
    Fabric.empty⟩

def start (b : Bench) (v : Vertex) : Except NetworkError Bench :=
  (Network.start v b.fabric).map fun fabric => { b with fabric := fabric }

def stop (b : Bench) (v : Vertex) : Bench :=
  { b with fabric := Network.stop v b.fabric }

def beginCycle (b : Bench) (v : Vertex) : Bench :=
  { b with fabric := Network.beginCycle v b.fabric }

def clear (b : Bench) (v : Vertex) : Bench :=
  { b with fabric := Network.clear v b.fabric }

def states (b : Bench) (v : Vertex) : SortedMap NodeName NeighborState :=
  Network.states v b.fabric

def isRunning (b : Bench) (v : Vertex) : Bool :=
  Network.isRunning v b.fabric

/-- Is a node resolved to the address that its own exchange is bound to? -/
def resolvesToSelf (b : Bench) (v : Vertex) : Bool :=
  match (b.fabric.exchange v.name).address with
  | some address => b.fabric.registry.resolve v.name == some address
  | none => false

def addNeighbor (b : Bench) (v : Vertex) (neighbor : NodeName) : Bench :=
  { b with vertices := b.vertices.insert v.name (v.addNeighbor neighbor 1.0) }

/-- Waits until everything that was sent is taken in. -/
def fence (b : Bench) : Except NoRoute Bench :=
  if b.fabric.boundAddresses.isEmpty then
    .ok { b with fabric := b.fabric.deliverAll b.vertices.get? }
  else .error ⟨"fence"⟩

def share (b : Bench) (v : Vertex) (round : UInt64) (values : SortedMap String Float) :
    Except NoRoute Bench :=
  { b with fabric := Network.share v round values b.fabric }.fence

/-- Sends a datagram from outside to a node, and says whether the node is listening. -/
def inject (b : Bench) (v : Vertex) : Except NoRoute Bool :=
  if b.isRunning v then .error ⟨"inject"⟩ else .ok false

end Bench

end RegionNet
