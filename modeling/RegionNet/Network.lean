import RegionNet.Network.Message
import RegionNet.Network.Registry
import RegionNet.Vertex

/-!
What a node asks of its network: to be started and stopped with the node, to fix the view of the
neighbors at the start of a cycle, to forget what was heard, and to carry shared values.
-/

namespace RegionNet

/-- Why a network does not start. -/
inductive NetworkError
  | unresolved (node : NodeName)
  | alreadyRunning (node : NodeName)
  | addressConflict (conflict : AddressConflict)
  | systemFailure
deriving DecidableEq, Repr

def NetworkError.message : NetworkError → String
  | unresolved node => s!"No address known for node {node}"
  | alreadyRunning node => s!"Network manager for {node} is already running"
  | addressConflict conflict => conflict.message
  | systemFailure => "Network I/O error"

/-- Networks with states of type `ν`. Every operation is on behalf of one vertex. -/
class Network (ν : Type) where
  start : Vertex → ν → Except NetworkError ν
  stop : Vertex → ν → ν
  isRunning : Vertex → ν → Bool
  beginCycle : Vertex → ν → ν
  clear : Vertex → ν → ν
  states : Vertex → ν → SortedMap NodeName NeighborState
  share : Vertex → UInt64 → SortedMap String Float → ν → ν

end RegionNet
