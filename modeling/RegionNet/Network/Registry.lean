import RegionNet.Name
import RegionNet.Network.Address
import RegionNet.SortedMap

/-!
The registry of the addresses at which nodes can be reached.
-/

namespace RegionNet

/-- Another node holds the address. -/
structure AddressConflict where
  address : SocketAddress
  owner : NodeName
deriving DecidableEq, Repr

def AddressConflict.message (e : AddressConflict) : String :=
  s!"Address {e.address.text} is already registered to {e.owner}"

structure Registry where
  addresses : SortedMap NodeName SocketAddress
deriving DecidableEq

namespace Registry

def empty : Registry := ⟨∅⟩

instance : Inhabited Registry := ⟨empty⟩

def resolve (r : Registry) (node : NodeName) : Option SocketAddress :=
  r.addresses.get? node

/-- The node other than `node` that holds an address. -/
def otherOwner (r : Registry) (node : NodeName) (address : SocketAddress) : Option NodeName :=
  (r.addresses.entries.find? fun e => e.2 = address ∧ e.1 ≠ node).map Prod.fst

/-- Gives a node an address in the place of the one it had. -/
def register (r : Registry) (node : NodeName) (address : SocketAddress) :
    Except AddressConflict Registry :=
  match r.otherOwner node address with
  | some owner => .error ⟨address, owner⟩
  | none => .ok ⟨r.addresses.insert node address⟩

def unregister (r : Registry) (node : NodeName) : Registry :=
  ⟨r.addresses.erase node⟩

def nodes (r : Registry) : List NodeName :=
  r.addresses.keys

end Registry

end RegionNet
