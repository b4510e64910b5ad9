import RegionNet.Network.Message

/-!
The heartbeat engine: it counts its rounds and how many neighbors it heard from in each, and shares
both numbers.
-/

namespace RegionNet

structure Heartbeat where
  /-- Counted in a word, which holds the count as long as it is below `UInt64.size`. -/
  round : Nat
  heard : Nat
deriving DecidableEq, Repr, Inhabited

namespace Heartbeat

def roundKey : String := "round"

def heardKey : String := "neighbors_heard"

def new : Heartbeat := ⟨0, 0⟩

/-- The next round, given what is known of the neighbors. -/
def beat (h : Heartbeat) (states : SortedMap NodeName NeighborState) : Heartbeat :=
  ⟨h.round + 1, states.values.countP NeighborState.isKnown⟩

/-- What is shared at the end of a round. -/
def shared (h : Heartbeat) : SortedMap String Float :=
  SortedMap.ofList [(roundKey, Float.ofNat h.round), (heardKey, Float.ofNat h.heard)]

end Heartbeat

end RegionNet
