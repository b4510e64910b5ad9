import RegionNet.Decimal.Numeral
import RegionNet.Resource.Section
import RegionNet.Vertex

/-!
Resource managers: they measure a node and place services in its containers.

Containers are numbered in the order in which they start, with numbers of one word. A number is used
once, also if its container has stopped since. A container that is running is never replaced: if the
next number were one of a running container, the start would fail.
-/

namespace RegionNet

/-- What a service asks for when it is started. -/
structure ContainerParameters where
  compute : NodeLoad Float
  network : LinkLoad Float
deriving DecidableEq

structure Container where
  service : ServiceName
  parameters : ContainerParameters
deriving DecidableEq

/-- The containers that are running and the number of the next one. -/
structure ContainerTable where
  next : UInt64
  running : SortedMap ContainerName Container
deriving DecidableEq

def ContainerTable.empty : ContainerTable := ⟨0, ∅⟩

def ContainerName.ofNumber (n : UInt64) : ContainerName :=
  "Container-" ++ Decimal.natText n.toNat

/-- The largest number of containers that an amount allows: what is whole of it, and none if it is
negative. The number is one of a word. -/
def containerLimit (amount : Float) : Nat :=
  amount.toUInt64.toNat

/-- A manager of a node with nothing to measure, or one that reports a section of the
configuration. -/
inductive ResourceManager
  | unmeasured
  | measured (offer : ResourceSection) (containers : ContainerTable)

namespace ResourceManager

def ofDocument (document : Json) : ResourceManager :=
  .measured (ResourceSection.ofDocument document) ContainerTable.empty

def reportContainer (s : ResourceSection) (now : Timestamp) (window : EstimationWindow)
    (name : ContainerName) (c : Container) : ContainerReport Float where
  container := name
  service := some c.service
  timestamp := now
  window := window
  computeCapacity := c.parameters.compute
  computeLoad := ∅
  computeDemand := ∅
  averageProcessingTime := (s.averageProcessingTime.get? c.service).getD 0.0
  networkCapacity := ∅
  networkLoad := ∅
  networkDemand := ∅

/-- What the node of vertex `v` reports at a time: its load counts under its current region, and a
link is reported for every current neighbor. -/
def report (m : ResourceManager) (v : Vertex) (now : Timestamp) (window : EstimationWindow) :
    Report Float :=
  match m with
  | unmeasured => Report.null v.name window
  | measured s containers =>
    let serverLoad := s.serverLoad.mapValues fun _ load => SortedMap.singleton v.region load
    let networkLoad := v.neighbors.filterMap fun neighbor _ => s.linkLoadOf neighbor
    { node := v.name
      timestamp := now
      window := window
      serverCapacity := s.serverCapacity
      serverLoad := serverLoad
      serverDemand := serverLoad
      networkCapacity :=
        v.neighbors.mapValues fun _ bandwidth => SortedMap.singleton .dataRate bandwidth
      networkLoad := networkLoad
      networkDemand := networkLoad
      containers :=
        containers.running.entries.map fun e => reportContainer s now window e.1 e.2 }

def serviceReport (m : ResourceManager) (v : Vertex) : ServiceReport :=
  match m with
  | unmeasured => ⟨v.name, ∅⟩
  | measured _ containers =>
    ⟨v.name, containers.running.mapValues fun _ c => ⟨c.service, .running⟩⟩

def computeCapacity : ResourceManager → NodeLoad Float
  | unmeasured => ∅
  | measured s _ => s.serverCapacity

/-- Are as many containers running as the capacity allows? -/
def isFull (s : ResourceSection) (containers : ContainerTable) : Bool :=
  match s.serverCapacity.get? .taskContainers with
  | none => false
  | some amount => containerLimit amount ≤ containers.running.size

/-- Starts a service in the next container, if one more is allowed. The number is used up also if it
turns out to be in use. -/
def startService (m : ResourceManager) (service : ServiceName) (parameters : ContainerParameters) :
    Option ContainerName × ResourceManager :=
  match m with
  | unmeasured => (none, m)
  | measured s containers =>
    if isFull s containers then (none, m)
    else
      let name := ContainerName.ofNumber containers.next
      let numbered := { containers with next := containers.next + 1 }
      if containers.running.contains name then (none, measured s numbered)
      else
        (some name,
          measured s
            { numbered with running := containers.running.insert name ⟨service, parameters⟩ })

/-- Stops a container and says whether it was running. -/
def stopService (m : ResourceManager) (name : ContainerName) : Bool × ResourceManager :=
  match m with
  | unmeasured => (false, m)
  | measured s containers =>
    (containers.running.contains name,
      measured s { containers with running := containers.running.erase name })

end ResourceManager

end RegionNet
