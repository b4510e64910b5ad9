import RegionNet.Report.Summary

/-!
Aggregation: the reports of one region collected and reduced to its summary, and a batch of reports
grouped by region.
-/

namespace RegionNet

/-- The reports collected for one region over one window. -/
structure Aggregator (α : Type) where
  region : RegionName
  window : EstimationWindow
  reports : List (Report α)

namespace Aggregator

variable {α : Type}

def new (region : RegionName) (window : EstimationWindow) : Aggregator α :=
  ⟨region, window, []⟩

/-- Takes a report in, unless it was estimated over another window. -/
def add (a : Aggregator α) (r : Report α) : Except MergeError (Aggregator α) :=
  if r.window ≠ a.window then .error (.windowMismatch a.window r.window)
  else .ok { a with reports := a.reports ++ [r] }

variable [Add α]

/-- The summary of a report that has to come from the aggregator's own region. -/
def ownSummary (a : Aggregator α) (lookup : RegionLookup) (r : Report α) :
    Except MergeError (Summary α) := do
  let s ← Summary.ofReport lookup r
  if s.region ≠ a.region then .error (.regionMismatch a.region s.region) else return s

/-- The summaries of all reports, merged in the order in which they were added. The reports may also
be reduced in parallel, in any split of that order; this is one of the splits. -/
def summarize (a : Aggregator α) (lookup : RegionLookup) : Except MergeError (Summary α) :=
  a.reports.foldlM (fun acc r => do acc.merge (← a.ownSummary lookup r))
    (Summary.null a.region a.window)

end Aggregator

/-- Adds a report to the aggregator of its node's region, which is opened if there is none. A report
of a node of no known region is left out. -/
def collect {α : Type} (lookup : RegionLookup) (window : EstimationWindow)
    (aggregators : SortedMap RegionName (Aggregator α)) (r : Report α) :
    Except MergeError (SortedMap RegionName (Aggregator α)) :=
  match lookup r.node with
  | none => .ok aggregators
  | some region => do
    let a ← ((aggregators.get? region).getD (Aggregator.new region window)).add r
    return aggregators.insert region a

/-- The summary of each region from which a report came. -/
def summarizeRegions {α : Type} [Add α] (lookup : RegionLookup) (window : EstimationWindow)
    (reports : List (Report α)) : Except MergeError (SortedMap RegionName (Summary α)) := do
  let aggregators ← reports.foldlM (collect lookup window) ∅
  aggregators.traverse fun _ a => a.summarize lookup

end RegionNet
