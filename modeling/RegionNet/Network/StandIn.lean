import RegionNet.Network

/-!
A stand-in for a network: it carries nothing, and what a node sees of its neighbors is set by hand,
until it is forgotten.
-/

namespace RegionNet

structure StandIn where
  running : Bool
  /-- While this is set the network does not start. -/
  failing : Bool
  states : SortedMap NodeName NeighborState

namespace StandIn

def new : StandIn := ⟨false, false, ∅⟩

instance : Network StandIn where
  start v net :=
    if net.running then .error (.alreadyRunning v.name)
    else if net.failing then .error (.unresolved v.name)
    else .ok { net with running := true }
  stop _ net := { net with running := false }
  isRunning _ net := net.running
  beginCycle _ net := net
  clear _ net := { net with states := ∅ }
  states _ net := net.states
  share _ _ _ net := net

end StandIn

end RegionNet
