import RegionNet.Aggregation
import RegionNet.Proofs.Outcome
import RegionNet.Proofs.SortedMap.Lookup

/-!
# Summaries without their times

The time of a report says when it was made and nothing else: it goes into the span of a summary and
is not looked at otherwise. So summarizing reports from which the times were taken gives the
summaries with their spans taken away, whether amounts add exactly or not.
-/

namespace RegionNet

variable {α : Type}

def ContainerReport.untimed (c : ContainerReport α) : ContainerReport α :=
  { c with timestamp := Timestamp.none }

def Report.untimed (r : Report α) : Report α :=
  { r with timestamp := Timestamp.none, containers := r.containers.map ContainerReport.untimed }

def Summary.untimed (s : Summary α) : Summary α :=
  { s with minTimestamp := Timestamp.none, maxTimestamp := Timestamp.none }

def Aggregator.untimed (a : Aggregator α) : Aggregator α :=
  { a with reports := a.reports.map Report.untimed }

variable [Add α]

theorem Summary.ofReport_untimed (lookup : RegionLookup) (r : Report α) :
    ofReport lookup r.untimed = (ofReport lookup r).map untimed := by
  simp only [ofReport, Report.untimed]
  cases lookup r.node <;> rfl

theorem Summary.merge_untimed (one two : Summary α) :
    merge one.untimed two.untimed = (merge one two).map untimed := by
  have span : span one.untimed two.untimed = (Timestamp.none, Timestamp.none) := by
    simp [Summary.span, isNull, untimed]
  simp only [merge, span]
  -- neither check looks at a time
  change (if one.region ≠ two.region then _ else if one.window ≠ two.window then _ else _) = _
  by_cases region : one.region = two.region
  · by_cases window : one.window = two.window
    · simp [region, window, untimed, Except.map]
    · simp [region, window, untimed, Except.map]
  · simp [region, untimed, Except.map]

theorem Aggregator.ownSummary_untimed (lookup : RegionLookup) (a : Aggregator α) (r : Report α) :
    a.untimed.ownSummary lookup r.untimed = (a.ownSummary lookup r).map Summary.untimed := by
  simp only [ownSummary, Summary.ofReport_untimed]
  cases Summary.ofReport lookup r with
  | error e => rfl
  | ok own =>
    by_cases region : own.region = a.region
    · simp [Except.map, untimed, Summary.untimed, region]
    · simp [Except.map, untimed, Summary.untimed, region]

theorem Aggregator.summarize_untimed (lookup : RegionLookup) (a : Aggregator α) :
    a.untimed.summarize lookup = (a.summarize lookup).map Summary.untimed := by
  have step (s : Summary α) (r : Report α) :
      (do s.untimed.merge (← a.untimed.ownSummary lookup r.untimed)) =
        (do s.merge (← a.ownSummary lookup r)).map Summary.untimed := by
    rw [ownSummary_untimed]
    cases a.ownSummary lookup r with
    | error e => rfl
    | ok own => exact Summary.merge_untimed s own
  exact Outcome.foldlM_map Summary.untimed Report.untimed _ _ step a.reports
    (Summary.null a.region a.window)

omit [Add α] in
theorem collect_untimed (lookup : RegionLookup) (window : EstimationWindow)
    (aggregators : SortedMap RegionName (Aggregator α)) (r : Report α) :
    collect lookup window (aggregators.map Aggregator.untimed) r.untimed =
      (collect lookup window aggregators r).map (SortedMap.map Aggregator.untimed) := by
  have node : r.untimed.node = r.node := rfl
  have sameWindow : r.untimed.window = r.window := rfl
  cases found : lookup r.node with
  | none => simp only [collect, node, found, Except.map]
  | some region =>
    have own : ((aggregators.map Aggregator.untimed).get? region).getD
        (Aggregator.new region window) =
        ((aggregators.get? region).getD (Aggregator.new region window)).untimed := by
      rw [SortedMap.get?_map]
      cases aggregators.get? region <;> rfl
    simp only [collect, node, found, own]
    generalize (aggregators.get? region).getD (Aggregator.new region window) = a
    by_cases same : r.window = a.window
    · simp [Aggregator.add, Aggregator.untimed, sameWindow, same, Except.map, SortedMap.map_insert]
    · simp [Aggregator.add, Aggregator.untimed, sameWindow, same, Except.map]

omit [Add α] in
theorem foldlM_collect_untimed (lookup : RegionLookup) (window : EstimationWindow)
    (reports : List (Report α)) :
    (reports.map Report.untimed).foldlM (collect lookup window) ∅ =
      (reports.foldlM (collect lookup window) ∅).map (SortedMap.map Aggregator.untimed) :=
  Outcome.foldlM_map (SortedMap.map Aggregator.untimed) Report.untimed _ _
    (collect_untimed lookup window) reports ∅

theorem summarizeRegions_untimed (lookup : RegionLookup) (window : EstimationWindow)
    (reports : List (Report α)) :
    summarizeRegions lookup window (reports.map Report.untimed) =
      (summarizeRegions lookup window reports).map (SortedMap.map Summary.untimed) := by
  rw [summarizeRegions, summarizeRegions, foldlM_collect_untimed]
  cases reports.foldlM (collect lookup window) ∅ with
  | error e => rfl
  | ok aggregators =>
    exact SortedMap.traverse_map aggregators (fun _ a => a.summarize lookup)
      (fun _ a => a.summarize lookup) Aggregator.untimed Summary.untimed
      fun _ a => a.summarize_untimed lookup

/-- Summaries of reports that differ in their times only differ in their spans only. -/
theorem summarizeRegions_congr_untimed (lookup : RegionLookup) (window : EstimationWindow)
    (reports more : List (Report α)) (same : reports.map Report.untimed = more.map Report.untimed) :
    (summarizeRegions lookup window reports).map (SortedMap.map Summary.untimed) =
      (summarizeRegions lookup window more).map (SortedMap.map Summary.untimed) := by
  rw [← summarizeRegions_untimed, same, summarizeRegions_untimed]

end RegionNet
