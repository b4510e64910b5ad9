import RegionNet.Proofs.Aggregation.Grouping
import RegionNet.Proofs.SortedMap.Total

/-!
# Tables of a region's summary

Reports hold doubles. Read through a function that gives each double its value in a type that adds
exactly, the summary of a region is, table by table and key by key, the sum of what the reports of
the region have there. A report contributes its links to the neighbors of each region.
-/

namespace RegionNet

variable {α β : Type}

/-! ### Reading the amounts of a report -/

def ContainerReport.map (value : α → β) (c : ContainerReport α) : ContainerReport β where
  container := c.container
  service := c.service
  timestamp := c.timestamp
  window := c.window
  computeCapacity := c.computeCapacity.map value
  computeLoad := c.computeLoad.map (·.map value)
  computeDemand := c.computeDemand.map (·.map value)
  averageProcessingTime := value c.averageProcessingTime
  networkCapacity := c.networkCapacity.map (·.map value)
  networkLoad := c.networkLoad.map (·.map value)
  networkDemand := c.networkDemand.map (·.map value)

/-- The report with every amount read by a function. -/
def Report.map (value : α → β) (r : Report α) : Report β where
  node := r.node
  timestamp := r.timestamp
  window := r.window
  serverCapacity := r.serverCapacity.map value
  serverLoad := r.serverLoad.map (·.map (·.map value))
  serverDemand := r.serverDemand.map (·.map (·.map value))
  networkCapacity := r.networkCapacity.map (·.map value)
  networkLoad := r.networkLoad.map (·.map value)
  networkDemand := r.networkDemand.map (·.map value)
  containers := r.containers.map (ContainerReport.map value)

/-! ### Tables of a summary -/

variable [AddCommMonoid α] {lookup : RegionLookup} {window : EstimationWindow}
  {reports : List (Report α)} {region : RegionName} {s : Summary α}

/-- A table that a merge adds up has, at a key, the sum of what the tables of the region's reports
have there. -/
theorem get?_regionEntry {κ γ : Type} [Ord κ] [Std.TransOrd κ] [Std.LawfulEqOrd κ]
    [AddCommMonoid γ] (table : Summary α → SortedMap κ γ)
    (empty : table (Summary.null region window) = ∅)
    (add : ∀ one two, table (Summary.join one two) = table one + table two)
    (present : regionEntry lookup window reports region = some s) (k : κ) :
    (table s).get? k =
      total ((fromRegion lookup region reports).filterMap fun r =>
        (table (Regional.ofReport lookup region window r).summary).get? k) := by
  have sum (l : List (Report α)) :
      table ((l.map (Regional.ofReport lookup region window)).sum).summary =
        (l.map fun r => table (Regional.ofReport lookup region window r).summary).sum := by
    induction l with
    | nil => exact empty
    | cons r rest ih =>
      rw [List.map_cons, List.sum_cons, List.map_cons, List.sum_cons, ← ih]
      exact add _ _
  rw [regionEntry] at present
  split at present
  next => cases present
  next =>
    cases present
    rw [sum, SortedMap.get?_sum, List.filterMap_map]
    rfl

/-- Links count for the region of their far end. -/
theorem networkCapacity_regionEntry
    (present : regionEntry lookup window reports region = some s) (other : RegionName) :
    s.networkCapacity.get? other =
      total ((fromRegion lookup region reports).flatMap fun r =>
        (r.networkCapacity.entries.filter fun e => lookup e.1 = some other).map Prod.snd) := by
  rw [get?_regionEntry Summary.networkCapacity rfl (fun _ _ => rfl) present, total_flatMap]
  congr 2
  funext r
  exact SortedMap.get?_rekey r.networkCapacity lookup other

end RegionNet
