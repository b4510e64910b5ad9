import RegionNet.Network.Message
import RegionNet.Network.Address
import RegionNet.Vertex

/-!
The exchange of one node: what arrived from its neighbors, and the view of them that is fixed at the
start of each cycle.

A message counts for the cycle in which it arrived and for `freshCycles` more. The cycle counter
goes on through stops and restarts, while what was heard is forgotten by a stop. It is a word, so the
cycles are numbered as here as long as fewer than `UInt64.size` have begun.
-/

namespace RegionNet

/-- A cycle sees what arrived at most this many cycles earlier. -/
def freshCycles : Nat := 2

/-- No datagram carries more bytes than this. -/
def largestDatagram : Nat := 65507

/-- The last message of a neighbor and the cycle during which it arrived, below `UInt64.size`. -/
structure Heard where
  round : UInt64
  values : SortedMap String Float
  cycle : Nat
deriving DecidableEq

/-- An exchange is running while it has an address. -/
structure Exchange where
  address : Option SocketAddress
  /-- How many cycles have begun, below `UInt64.size`. -/
  cycle : Nat
  inbox : SortedMap NodeName Heard
  snapshot : SortedMap NodeName NeighborState
deriving DecidableEq

namespace Exchange

def new : Exchange := ⟨none, 0, ∅, ∅⟩

instance : Inhabited Exchange := ⟨new⟩

def isRunning (x : Exchange) : Bool :=
  x.address.isSome

/-- Forgets everything that was heard. -/
def clear (x : Exchange) : Exchange :=
  { x with inbox := ∅, snapshot := ∅ }

def listen (x : Exchange) (address : SocketAddress) : Exchange :=
  { x with address := some address }

def close (x : Exchange) : Exchange :=
  if x.isRunning then { x.clear with address := none } else x

/-- The state of a neighbor in a cycle: known if its last message is fresh. -/
def stateOf (x : Exchange) (cycle : Nat) (neighbor : NodeName) : NeighborState :=
  match x.inbox.get? neighbor with
  | some h => if cycle - h.cycle ≤ freshCycles then .known h.round h.values else .unknown
  | none => .unknown

/-- Fixes the view of the neighbors for the next cycle. -/
def beginCycle (x : Exchange) (v : Vertex) : Exchange :=
  if x.isRunning then
    { x with
      cycle := x.cycle + 1
      snapshot := v.neighbors.mapValues fun neighbor _ => x.stateOf (x.cycle + 1) neighbor }
  else x

/-- Takes in a message from a neighbor. -/
def hear (x : Exchange) (m : Message Float) : Exchange :=
  { x with inbox := x.inbox.insert m.sender ⟨m.round, m.values, x.cycle⟩ }

/-- A datagram that is no message or comes from no neighbor is dropped. -/
def receive (x : Exchange) (v : Vertex) (bytes : List UInt8) : Exchange :=
  if x.isRunning then
    match Message.ofBytes bytes with
    | .ok m => if v.hasNeighbor m.sender then x.hear m else x
    | .error _ => x
  else x

end Exchange

end RegionNet
