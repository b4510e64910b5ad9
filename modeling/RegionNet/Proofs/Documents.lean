import RegionNet.Proofs.Configuration.Document

/-!
# Documents are read as they are written
-/

namespace RegionNet

open Json (readText?)

/-- Every document that the program writes is decoded from its text in one line, and is the same
value then: names may hold any characters, tables may be empty, and what may be left out may be
there or not. Only amounts that are infinite or no number at all have no text to be read back
from. -/
theorem documents_read_back (report : Report Float) (summary : Summary Float)
    (services : ServiceReport) (configuration : Configuration) (finite : report.IsFinite)
    (finite' : summary.IsFinite) :
    (readText? report.toJson.compactText).bind Report.ofJson? = some report ∧
      (readText? summary.toJson.compactText).bind Summary.ofJson? = some summary ∧
      (readText? services.toJson.compactText).bind ServiceReport.ofJson? = some services ∧
      Configuration.ofJsonText configuration.toJson.compactText = .ok configuration :=
  ⟨(faithful_report 0 finite).decodes, (faithful_summary 0 finite').decodes,
    (faithful_serviceReport 0 services).decodes, configuration.ofJsonText_compactText⟩

/-! ### Documents with values at the ends of their ranges -/

def oddName : String := "node \"α\"\\\n\x01😀"

/-- Both zeros, the smallest and the largest double, and one without a short binary fraction. -/
def oddLoad : NodeLoad Float :=
  ((((∅ : NodeLoad Float).insert .cpu (-0.0)).insert .memory 5e-324).insert .disk
    1.7976931348623157e308).insert .taskContainers 0.1

def oddLink : SortedMap String (LinkLoad Float) :=
  .singleton oddName (.singleton .dataRate 1e23)

def oddService : ServiceLoad Float :=
  .singleton oddName (.singleton "" oddLoad)

def oddContainer : ContainerReport Float where
  container := oddName
  service := none
  timestamp := Int64.minValue
  window := .long
  computeCapacity := oddLoad
  computeLoad := .singleton oddName oddLoad
  computeDemand := ∅
  averageProcessingTime := 123456789012345680
  networkCapacity := oddLink
  networkLoad := ∅
  networkDemand := oddLink

def oddReport : Report Float where
  node := oddName
  timestamp := Int64.maxValue
  window := .short
  serverCapacity := oddLoad
  serverLoad := oddService
  serverDemand := ∅
  networkCapacity := oddLink
  networkLoad := ∅
  networkDemand := oddLink
  containers := [oddContainer, { oddContainer with service := some oddName }]

def oddSummary : Summary Float where
  region := oddName
  minTimestamp := Int64.minValue
  maxTimestamp := Int64.maxValue
  window := .long
  serverCapacity := oddLoad
  serverLoad := oddService
  serverDemand := ∅
  networkCapacity := oddLink
  networkLoad := ∅
  networkDemand := oddLink

def oddServices : ServiceReport where
  node := oddName
  states := .singleton "" ⟨oddName, .stopping⟩

def oddConfiguration : Configuration where
  topology := oddName
  nodeDataDir := none
  cycleInterval := { seconds := 18446744073709551615, nanoseconds := 999999999 }
  maxExecutions := 18446744073709551615
  window := .long
  logLevel := some ""

theorem oddLoad_isFinite : SortedMap.IsFinite oddLoad := by
  change ∀ e ∈ oddLoad.entries, e.2.isFinite = true
  decide +kernel

theorem oddLink_isFinite : oddLink.All SortedMap.IsFinite :=
  SortedMap.all_singleton (SortedMap.all_singleton (by decide +kernel))

theorem oddService_isFinite : SortedMap.All (SortedMap.All SortedMap.IsFinite) oddService :=
  SortedMap.all_singleton (SortedMap.all_singleton oddLoad_isFinite)

theorem oddContainer_isFinite (service : Option ServiceName) :
    ContainerReport.IsFinite { oddContainer with service := service } where
  computeCapacity := oddLoad_isFinite
  computeLoad := SortedMap.all_singleton oddLoad_isFinite
  computeDemand := nofun
  averageProcessingTime := show (123456789012345680 : Float).isFinite = true by decide +kernel
  networkCapacity := oddLink_isFinite
  networkLoad := nofun
  networkDemand := oddLink_isFinite

theorem documents_read_back_of_extremes :
    oddReport.IsFinite ∧ oddSummary.IsFinite ∧
      (readText? oddReport.toJson.compactText).bind Report.ofJson? = some oddReport ∧
      (readText? oddSummary.toJson.compactText).bind Summary.ofJson? = some oddSummary ∧
      (readText? oddServices.toJson.compactText).bind ServiceReport.ofJson? = some oddServices ∧
      Configuration.ofJsonText oddConfiguration.toJson.compactText = .ok oddConfiguration := by
  have finite : oddReport.IsFinite := {
    serverCapacity := oddLoad_isFinite
    serverLoad := oddService_isFinite
    serverDemand := nofun
    networkCapacity := oddLink_isFinite
    networkLoad := nofun
    networkDemand := oddLink_isFinite
    containers := by
      simp only [oddReport, List.forall_mem_cons]
      exact ⟨oddContainer_isFinite none, oddContainer_isFinite (some oddName), nofun⟩ }
  have finite' : oddSummary.IsFinite := {
    serverCapacity := oddLoad_isFinite
    serverLoad := oddService_isFinite
    serverDemand := nofun
    networkCapacity := oddLink_isFinite
    networkLoad := nofun
    networkDemand := oddLink_isFinite }
  exact ⟨finite, finite',
    documents_read_back oddReport oddSummary oddServices oddConfiguration finite finite'⟩

end RegionNet
