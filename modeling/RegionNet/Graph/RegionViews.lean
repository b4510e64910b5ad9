import RegionNet.Graph

/-!
The regions of a graph as their nodes last saw themselves: the cached reports of the nodes are
summarized by region, and every node is told what its own region reported.
-/

namespace RegionNet.Graph

/-- The cached reports over `window`, in the order of the nodes' names. -/
def latestReports (g : Graph) (window : EstimationWindow) : List (Report Float) :=
  (g.nodes.values.filterMap Node.latestReport).filter fun r => r.window == window

def reportsOf (g : Graph) (window : EstimationWindow) (region : RegionName) :
    List (Report Float) :=
  (g.latestReports window).filter fun r => g.regionLookup r.node == some region

/-- The nodes of no region are told of each other's services too. -/
def servicesOf (g : Graph) (region : RegionName) : List ServiceReport :=
  (g.nodes.values.filter fun n => n.region == region).map Node.serviceReport

/-- What a node is told of its region. Without a summary of the region it keeps the one it has. -/
def tell (g : Graph) (window : EstimationWindow)
    (summaries : SortedMap RegionName (Summary Float)) (n : Node) : Node :=
  { n with
    regionView := { n.regionView with
      reports := g.reportsOf window n.region
      services := g.servicesOf n.region
      summary := (summaries.get? n.region).or n.regionView.summary } }

/-- Summarizes the cached reports and tells every node of its region. -/
def regionSummaries (g : Graph) (window : EstimationWindow) :
    Except MergeError (SortedMap RegionName (Summary Float) × Graph) := do
  let summaries ← summarizeRegions g.regionLookup window (g.latestReports window)
  return (summaries,
    { g with nodes := g.nodes.mapValues fun _ n => g.tell window summaries n })

end RegionNet.Graph
