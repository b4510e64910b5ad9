import RegionNet.Json.Decoding
import RegionNet.Report.Basic

/-!
Reports as JSON documents: each kind is written as an object with its fields in a fixed order, and
read back from any document that `Json.toRecord?` accepts for those fields.
-/

namespace RegionNet

open Json

/-- Integers of 64 bits as JSON. -/
def Timestamp.toJson (t : Timestamp) : Json :=
  Json.ofInt t.toInt

def NodeAttribute.toJson (a : NodeAttribute) : Json := .string a.name

def LinkAttribute.toJson (a : LinkAttribute) : Json := .string a.name

namespace EstimationWindow

def toJson (w : EstimationWindow) : Json := .string w.name

def ofJson? : Json → Option EstimationWindow :=
  toNamed? ofName?

end EstimationWindow

def NodeAttribute.ofJson? : Json → Option NodeAttribute :=
  toNamed? NodeAttribute.ofName?

def LinkAttribute.ofJson? : Json → Option LinkAttribute :=
  toNamed? LinkAttribute.ofName?

def ServiceStatus.ofJson? : Json → Option ServiceStatus :=
  toNamed? ServiceStatus.ofName?

namespace NodeLoad

def toJson : NodeLoad Float → Json :=
  ofTable NodeAttribute.name ofFloat

def ofJson? : Json → Option (NodeLoad Float) :=
  toTable? NodeAttribute.ofName? toFloat?

end NodeLoad

namespace LinkLoad

def toJson : LinkLoad Float → Json :=
  ofTable LinkAttribute.name ofFloat

def ofJson? : Json → Option (LinkLoad Float) :=
  toTable? LinkAttribute.ofName? toFloat?

end LinkLoad

/-- A table keyed by names. -/
def tableToJson {α : Type} (write : α → Json) : SortedMap String α → Json :=
  ofTable id write

def tableOfJson? {α : Type} (read : Json → Option α) : Json → Option (SortedMap String α) :=
  toTable? some read

namespace ServiceLoad

def toJson : ServiceLoad Float → Json :=
  tableToJson (tableToJson NodeLoad.toJson)

def ofJson? : Json → Option (ServiceLoad Float) :=
  tableOfJson? (tableOfJson? NodeLoad.ofJson?)

end ServiceLoad

namespace ContainerReport

def fieldNames : List String :=
  ["container", "service", "timestamp", "demandEstimationWindow", "computeCapacity", "computeLoad",
    "computeDemand", "averageProcessingTime", "networkCapacity", "networkLoad", "networkDemand"]

def toJson (r : ContainerReport Float) : Json :=
  .object [
    ("container", .string r.container),
    ("service", (r.service.map Json.string).getD .null),
    ("timestamp", r.timestamp.toJson),
    ("demandEstimationWindow", r.window.toJson),
    ("computeCapacity", NodeLoad.toJson r.computeCapacity),
    ("computeLoad", tableToJson NodeLoad.toJson r.computeLoad),
    ("computeDemand", tableToJson NodeLoad.toJson r.computeDemand),
    ("averageProcessingTime", ofFloat r.averageProcessingTime),
    ("networkCapacity", tableToJson LinkLoad.toJson r.networkCapacity),
    ("networkLoad", tableToJson LinkLoad.toJson r.networkLoad),
    ("networkDemand", tableToJson LinkLoad.toJson r.networkDemand)]

/-- The service may be missing; every other field is required. -/
def ofJson? (j : Json) : Option (ContainerReport Float) := do
  match ← j.toRecord? fieldNames with
  | [some container, service, some timestamp, some window, some computeCapacity, some computeLoad,
      some computeDemand, some averageProcessingTime, some networkCapacity, some networkLoad,
      some networkDemand] =>
    return {
      container := ← container.toString?
      service := ← (service.getD .null).toOptional? toString?
      timestamp := ← timestamp.toInt64?
      window := ← EstimationWindow.ofJson? window
      computeCapacity := ← NodeLoad.ofJson? computeCapacity
      computeLoad := ← tableOfJson? NodeLoad.ofJson? computeLoad
      computeDemand := ← tableOfJson? NodeLoad.ofJson? computeDemand
      averageProcessingTime := ← averageProcessingTime.toFloat?
      networkCapacity := ← tableOfJson? LinkLoad.ofJson? networkCapacity
      networkLoad := ← tableOfJson? LinkLoad.ofJson? networkLoad
      networkDemand := ← tableOfJson? LinkLoad.ofJson? networkDemand }
  | _ => none

end ContainerReport

namespace Report

def fieldNames : List String :=
  ["node", "timestamp", "demandEstimationWindow", "serverCapacity", "serverLoad", "serverDemand",
    "networkCapacity", "networkLoad", "networkDemand", "containerReports"]

def toJson (r : Report Float) : Json :=
  .object [
    ("node", .string r.node),
    ("timestamp", r.timestamp.toJson),
    ("demandEstimationWindow", r.window.toJson),
    ("serverCapacity", NodeLoad.toJson r.serverCapacity),
    ("serverLoad", ServiceLoad.toJson r.serverLoad),
    ("serverDemand", ServiceLoad.toJson r.serverDemand),
    ("networkCapacity", tableToJson LinkLoad.toJson r.networkCapacity),
    ("networkLoad", tableToJson LinkLoad.toJson r.networkLoad),
    ("networkDemand", tableToJson LinkLoad.toJson r.networkDemand),
    ("containerReports", .array (r.containers.map ContainerReport.toJson))]

def ofJson? (j : Json) : Option (Report Float) := do
  match ← j.toRecord? fieldNames with
  | [some node, some timestamp, some window, some serverCapacity, some serverLoad,
      some serverDemand, some networkCapacity, some networkLoad, some networkDemand,
      some containers] =>
    return {
      node := ← node.toString?
      timestamp := ← timestamp.toInt64?
      window := ← EstimationWindow.ofJson? window
      serverCapacity := ← NodeLoad.ofJson? serverCapacity
      serverLoad := ← ServiceLoad.ofJson? serverLoad
      serverDemand := ← ServiceLoad.ofJson? serverDemand
      networkCapacity := ← tableOfJson? LinkLoad.ofJson? networkCapacity
      networkLoad := ← tableOfJson? LinkLoad.ofJson? networkLoad
      networkDemand := ← tableOfJson? LinkLoad.ofJson? networkDemand
      containers := ← containers.toList? ContainerReport.ofJson? }
  | _ => none

end Report

namespace Summary

def fieldNames : List String :=
  ["region", "minTimestamp", "maxTimestamp", "demandEstimationWindow", "serverCapacity",
    "serverLoad", "serverDemand", "networkCapacity", "networkLoad", "networkDemand"]

def toJson (s : Summary Float) : Json :=
  .object [
    ("region", .string s.region),
    ("minTimestamp", s.minTimestamp.toJson),
    ("maxTimestamp", s.maxTimestamp.toJson),
    ("demandEstimationWindow", s.window.toJson),
    ("serverCapacity", NodeLoad.toJson s.serverCapacity),
    ("serverLoad", ServiceLoad.toJson s.serverLoad),
    ("serverDemand", ServiceLoad.toJson s.serverDemand),
    ("networkCapacity", tableToJson LinkLoad.toJson s.networkCapacity),
    ("networkLoad", tableToJson LinkLoad.toJson s.networkLoad),
    ("networkDemand", tableToJson LinkLoad.toJson s.networkDemand)]

def ofJson? (j : Json) : Option (Summary Float) := do
  match ← j.toRecord? fieldNames with
  | [some region, some minTimestamp, some maxTimestamp, some window, some serverCapacity,
      some serverLoad, some serverDemand, some networkCapacity, some networkLoad,
      some networkDemand] =>
    return {
      region := ← region.toString?
      minTimestamp := ← minTimestamp.toInt64?
      maxTimestamp := ← maxTimestamp.toInt64?
      window := ← EstimationWindow.ofJson? window
      serverCapacity := ← NodeLoad.ofJson? serverCapacity
      serverLoad := ← ServiceLoad.ofJson? serverLoad
      serverDemand := ← ServiceLoad.ofJson? serverDemand
      networkCapacity := ← tableOfJson? LinkLoad.ofJson? networkCapacity
      networkLoad := ← tableOfJson? LinkLoad.ofJson? networkLoad
      networkDemand := ← tableOfJson? LinkLoad.ofJson? networkDemand }
  | _ => none

/-- The summaries of all regions as one document. -/
def tableToJson : SortedMap RegionName (Summary Float) → Json :=
  RegionNet.tableToJson Summary.toJson

end Summary

namespace ServiceState

def fieldNames : List String := ["service", "status"]

def toJson (s : ServiceState) : Json :=
  .object [("service", .string s.service), ("status", .string s.status.name)]

def ofJson? (j : Json) : Option ServiceState := do
  match ← j.toRecord? fieldNames with
  | [some service, some status] =>
    return { service := ← service.toString?, status := ← ServiceStatus.ofJson? status }
  | _ => none

end ServiceState

namespace ServiceReport

def fieldNames : List String := ["node", "service_state"]

def toJson (r : ServiceReport) : Json :=
  .object [("node", .string r.node), ("service_state", tableToJson ServiceState.toJson r.states)]

def ofJson? (j : Json) : Option ServiceReport := do
  match ← j.toRecord? fieldNames with
  | [some node, some states] =>
    return { node := ← node.toString?, states := ← tableOfJson? ServiceState.ofJson? states }
  | _ => none

end ServiceReport

end RegionNet
