import RegionNet.Report.Basic

/-!
Summaries: how the report of a node becomes one, and how two of one region are merged.
-/

namespace RegionNet

/-- Why reports or summaries do not combine. -/
inductive MergeError
  | regionMismatch (one two : RegionName)
  | windowMismatch (one two : EstimationWindow)
  | unknownRegion (node : NodeName)
deriving DecidableEq, Repr

def MergeError.message : MergeError → String
  | regionMismatch one two =>
    s!"Invalid argument: cannot merge summaries for regions {one} and {two}"
  | windowMismatch one two =>
    s!"Invalid argument: cannot combine estimation windows {one.name} and {two.name}"
  | unknownRegion node => s!"Invalid argument: no region known for node {node}"

/-- Which region a node belongs to, where that is known. -/
abbrev RegionLookup := NodeName → Option RegionName

namespace Summary

variable {α : Type}

/-- The summary of a region from which nothing was reported. -/
def null (region : RegionName) (window : EstimationWindow) : Summary α :=
  ⟨region, Timestamp.none, Timestamp.none, window, ∅, ∅, ∅, ∅, ∅, ∅⟩

def isNull (s : Summary α) : Bool :=
  s.minTimestamp == Timestamp.none && s.maxTimestamp == Timestamp.none

variable [Add α]

/-- The summary of one node: links to neighbors of one region are added up, links to neighbors of no
known region are left out. -/
def ofReport (lookup : RegionLookup) (r : Report α) : Except MergeError (Summary α) :=
  match lookup r.node with
  | none => .error (.unknownRegion r.node)
  | some region =>
    .ok {
      region := region
      minTimestamp := r.timestamp
      maxTimestamp := r.timestamp
      window := r.window
      serverCapacity := r.serverCapacity
      serverLoad := r.serverLoad
      serverDemand := r.serverDemand
      networkCapacity := r.networkCapacity.rekey lookup
      networkLoad := r.networkLoad.rekey lookup
      networkDemand := r.networkDemand.rekey lookup }

/-- The span of time that two summaries cover; one that reports nothing does not widen it. -/
def span (one two : Summary α) : Timestamp × Timestamp :=
  if one.isNull then (two.minTimestamp, two.maxTimestamp)
  else if two.isNull then (one.minTimestamp, one.maxTimestamp)
  else (min one.minTimestamp two.minTimestamp, max one.maxTimestamp two.maxTimestamp)

/-- Two summaries of one region and one window, with all tables added up. -/
def merge (one two : Summary α) : Except MergeError (Summary α) :=
  if one.region ≠ two.region then .error (.regionMismatch one.region two.region)
  else if one.window ≠ two.window then .error (.windowMismatch one.window two.window)
  else
    .ok {
      region := one.region
      minTimestamp := (span one two).1
      maxTimestamp := (span one two).2
      window := one.window
      serverCapacity := one.serverCapacity + two.serverCapacity
      serverLoad := one.serverLoad + two.serverLoad
      serverDemand := one.serverDemand + two.serverDemand
      networkCapacity := one.networkCapacity + two.networkCapacity
      networkLoad := one.networkLoad + two.networkLoad
      networkDemand := one.networkDemand + two.networkDemand }

end Summary

end RegionNet
