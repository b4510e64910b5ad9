import RegionNet.Node.Basic
import RegionNet.Proofs.Report.Untimed

/-!
# What a node reports

The report of a node, table by table. It carries the node's name and the window that was asked for,
and depends on the time in its times only.
-/

namespace RegionNet

def ResourceManager.IsMeasured : ResourceManager → Prop
  | unmeasured => False
  | measured _ _ => True

namespace Node

theorem node_report (n : Node) (now : Timestamp) (window : EstimationWindow) :
    (n.report now window).node = n.vertex.name := by
  simp only [report, ResourceManager.report]
  split <;> rfl

theorem window_report (n : Node) (now : Timestamp) (window : EstimationWindow) :
    (n.report now window).window = window := by
  simp only [report, ResourceManager.report]
  split <;> rfl

theorem report_untimed (n : Node) (now now' : Timestamp) (window : EstimationWindow) :
    (n.report now window).untimed = (n.report now' window).untimed := by
  simp only [report, ResourceManager.report]
  cases n.resources with
  | unmeasured => rfl
  | measured offer containers =>
    simp [Report.untimed, ContainerReport.untimed, ResourceManager.reportContainer]

theorem serverCapacity_report (n : Node) (now : Timestamp) (window : EstimationWindow) :
    (n.report now window).serverCapacity = n.resources.computeCapacity := by
  simp only [report, ResourceManager.report, ResourceManager.computeCapacity]
  cases n.resources <;> rfl

/-- The loads of the services of a node. -/
def serviceLoads (n : Node) : SortedMap ServiceName (NodeLoad Float) :=
  match n.resources with
  | .unmeasured => ∅
  | .measured offer _ => offer.serverLoad

/-- Whatever a node reports of its services counts for its own region. -/
theorem serverLoad_report (n : Node) (now : Timestamp) (window : EstimationWindow) :
    (n.report now window).serverLoad = n.serviceLoads.map (SortedMap.singleton n.region) := by
  simp only [report, ResourceManager.report, serviceLoads]
  cases n.resources <;> rfl

theorem serverDemand_report (n : Node) (now : Timestamp) (window : EstimationWindow) :
    (n.report now window).serverDemand = (n.report now window).serverLoad := by
  simp only [report, ResourceManager.report]
  split <;> rfl

theorem networkCapacity_report (n : Node) (measured : n.resources.IsMeasured) (now : Timestamp)
    (window : EstimationWindow) :
    (n.report now window).networkCapacity =
      n.vertex.neighbors.map (SortedMap.singleton .dataRate) := by
  simp only [report, ResourceManager.report]
  split
  next unmeasured =>
    rw [unmeasured] at measured
    exact absurd measured id
  next => rfl

end Node

end RegionNet
