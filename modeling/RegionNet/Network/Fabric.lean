import RegionNet.Network
import RegionNet.Network.Exchange

/-!
The fabric: the exchanges of all nodes, their registry, and the datagrams between them.

A datagram is in flight from the time it is sent until it is delivered or lost. It is delivered to
the exchange that is bound to its destination at that time, in any order and after any delay.
-/

namespace RegionNet

structure Datagram where
  destination : SocketAddress
  payload : List UInt8
deriving DecidableEq

structure Fabric where
  registry : Registry
  exchanges : SortedMap NodeName Exchange
  inFlight : List Datagram
deriving DecidableEq

/-- What the system answers when a node wants to listen: the address it bound, if it could bind one,
and whether a receiver could be set up. -/
structure Binding where
  address : Option SocketAddress
  receiverStarted : Bool
deriving DecidableEq, Repr

namespace Fabric

def empty : Fabric := ⟨.empty, ∅, []⟩

instance : Inhabited Fabric := ⟨empty⟩

def exchange (f : Fabric) (node : NodeName) : Exchange :=
  (f.exchanges.get? node).getD Exchange.new

def setExchange (f : Fabric) (node : NodeName) (x : Exchange) : Fabric :=
  { f with exchanges := f.exchanges.insert node x }

/-- The addresses to which exchanges are bound. -/
def boundAddresses (f : Fabric) : List SocketAddress :=
  f.exchanges.values.filterMap Exchange.address

/-- Starts the exchange of a node at the address that the system bound. Whatever fails, the registry
is as it was. -/
def start (f : Fabric) (binding : Binding) (v : Vertex) : Except NetworkError Fabric :=
  if (f.exchange v.name).isRunning then .error (.alreadyRunning v.name)
  else
    match binding.address with
    | none => .error .systemFailure
    | some address =>
      match f.registry.register v.name address with
      | .error conflict => .error (.addressConflict conflict)
      | .ok registry =>
        if binding.receiverStarted then
          .ok { f.setExchange v.name ((f.exchange v.name).listen address) with
            registry := registry }
        else .error .systemFailure

/-- Stops the exchange of a node, if it is running. -/
def stop (f : Fabric) (v : Vertex) : Fabric :=
  if (f.exchange v.name).isRunning then
    { f.setExchange v.name (f.exchange v.name).close with registry := f.registry.unregister v.name }
  else f

/-- Puts a datagram on its way, unless it is too large. -/
def send (f : Fabric) (d : Datagram) : Fabric :=
  if d.payload.length ≤ largestDatagram then { f with inFlight := f.inFlight ++ [d] } else f

/-- Sends values to every neighbor whose address is known. -/
def share (f : Fabric) (v : Vertex) (round : UInt64) (values : SortedMap String Float) : Fabric :=
  if (f.exchange v.name).isRunning then
    let payload := (Message.mk v.name round values).toBytes
    v.neighbors.keys.foldl
      (fun f neighbor =>
        match f.registry.resolve neighbor with
        | some address => f.send ⟨address, payload⟩
        | none => f) f
  else f

/-- The node whose exchange is bound to an address. -/
def listener (f : Fabric) (address : SocketAddress) : Option NodeName :=
  (f.exchanges.entries.find? fun e => e.2.address = some address).map Prod.fst

/-- Hands a datagram to the exchange at its destination. -/
def receive (f : Fabric) (vertices : NodeName → Option Vertex) (d : Datagram) : Fabric :=
  match f.listener d.destination with
  | none => f
  | some node =>
    match vertices node with
    | none => f
    | some v => f.setExchange node ((f.exchange node).receive v d.payload)

/-- Delivers one of the datagrams in flight. -/
def deliver (f : Fabric) (vertices : NodeName → Option Vertex) (index : Nat) : Fabric :=
  match f.inFlight[index]? with
  | none => f
  | some d => { f with inFlight := f.inFlight.eraseIdx index }.receive vertices d

/-- Loses one of the datagrams in flight. -/
def lose (f : Fabric) (index : Nat) : Fabric :=
  { f with inFlight := f.inFlight.eraseIdx index }

/-- Delivers everything in flight in the order in which it was sent. -/
def deliverAll (f : Fabric) (vertices : NodeName → Option Vertex) : Fabric :=
  f.inFlight.foldl (fun f d => f.receive vertices d) { f with inFlight := [] }

/-- The first port that the system gives to whoever asks for any port. -/
def firstFreePort : Nat := 32768

/-- A loopback address to which no exchange is bound. -/
def freeAddress (f : Fabric) : Option SocketAddress :=
  let taken := f.boundAddresses
  ((List.range (taken.length + 1)).map fun n =>
    SocketAddress.loopback (UInt16.ofNat (firstFreePort + n))).find? fun a => !taken.contains a

instance : Network Fabric where
  start v f := f.start ⟨f.freeAddress, true⟩ v
  stop v f := f.stop v
  isRunning v f := (f.exchange v.name).isRunning
  beginCycle v f := f.setExchange v.name ((f.exchange v.name).beginCycle v)
  clear v f := f.setExchange v.name (f.exchange v.name).clear
  states v f := (f.exchange v.name).snapshot
  share v round values f := f.share v round values

end Fabric

end RegionNet
