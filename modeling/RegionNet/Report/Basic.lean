import RegionNet.SortedMap.Sum
import RegionNet.Attribute
import RegionNet.Name

/-!
Reports: what a node measures of itself, of its containers and of its services, and the summary of a
region.

Amounts are of any type `α`. The program runs on doubles; what is said about merging holds for
amounts that add exactly.
-/

namespace RegionNet

abbrev Timestamp := Int64

/-- The time of a report that reports nothing. -/
def Timestamp.none : Timestamp := -1

/-- An amount for each attribute of a server. -/
abbrev NodeLoad (α : Type) := SortedMap NodeAttribute α

/-- An amount for each attribute of a link. -/
abbrev LinkLoad (α : Type) := SortedMap LinkAttribute α

/-- The load of each service, by the region it comes from. -/
abbrev ServiceLoad (α : Type) := SortedMap ServiceName (SortedMap RegionName (NodeLoad α))

structure ContainerReport (α : Type) where
  container : ContainerName
  service : Option ServiceName
  timestamp : Timestamp
  window : EstimationWindow
  computeCapacity : NodeLoad α
  computeLoad : SortedMap NodeName (NodeLoad α)
  computeDemand : SortedMap NodeName (NodeLoad α)
  averageProcessingTime : α
  networkCapacity : SortedMap NodeName (LinkLoad α)
  networkLoad : SortedMap NodeName (LinkLoad α)
  networkDemand : SortedMap NodeName (LinkLoad α)
deriving DecidableEq

/-- What one node reports; its network tables are keyed by neighbor. -/
structure Report (α : Type) where
  node : NodeName
  timestamp : Timestamp
  window : EstimationWindow
  serverCapacity : NodeLoad α
  serverLoad : ServiceLoad α
  serverDemand : ServiceLoad α
  networkCapacity : SortedMap NodeName (LinkLoad α)
  networkLoad : SortedMap NodeName (LinkLoad α)
  networkDemand : SortedMap NodeName (LinkLoad α)
  containers : List (ContainerReport α)
deriving DecidableEq

namespace Report

/-- The report of a node with nothing to measure. -/
def null {α : Type} (node : NodeName) (window : EstimationWindow) : Report α :=
  ⟨node, Timestamp.none, window, ∅, ∅, ∅, ∅, ∅, ∅, []⟩

def isNull {α : Type} (r : Report α) : Bool :=
  r.timestamp == Timestamp.none

end Report

/-- What the nodes of one region report together; its network tables are keyed by the regions of
their neighbors. -/
structure Summary (α : Type) where
  region : RegionName
  minTimestamp : Timestamp
  maxTimestamp : Timestamp
  window : EstimationWindow
  serverCapacity : NodeLoad α
  serverLoad : ServiceLoad α
  serverDemand : ServiceLoad α
  networkCapacity : SortedMap RegionName (LinkLoad α)
  networkLoad : SortedMap RegionName (LinkLoad α)
  networkDemand : SortedMap RegionName (LinkLoad α)
deriving DecidableEq

inductive ServiceStatus
  | starting
  | running
  | stopping
  | stopped
deriving DecidableEq, Repr, Inhabited

namespace ServiceStatus

def name : ServiceStatus → String
  | starting => "STARTING"
  | running => "RUNNING"
  | stopping => "STOPPING"
  | stopped => "STOPPED"

def all : List ServiceStatus := [starting, running, stopping, stopped]

def ofName? (s : String) : Option ServiceStatus :=
  all.find? fun a => a.name == s

end ServiceStatus

structure ServiceState where
  service : ServiceName
  status : ServiceStatus
deriving DecidableEq, Repr, Inhabited

/-- The services that run on one node, by container. -/
structure ServiceReport where
  node : NodeName
  states : SortedMap ContainerName ServiceState
deriving DecidableEq

/-- The containers in which a service is running. -/
def ServiceReport.containersFor (r : ServiceReport) (service : ServiceName) : List ContainerName :=
  (r.states.entries.filter fun e => e.2.service == service && e.2.status == .running).map Prod.fst

end RegionNet
