import RegionNet.Graph.RegionViews
import RegionNet.Proofs.Graph.Summaries

/-!
# What the nodes are told of their regions

The cached reports of a graph are summarized over the window that they are filtered by. So no report
offends and the summaries never fail, whatever amounts are reported and however they add up. Every
node is told the reports and the services of the nodes of its region as they are now, and the
summary of its region if there is one.
-/

namespace RegionNet

open Outcome

section Adding

variable {α : Type} [Add α]

namespace Aggregator

theorem ownSummary_succeeds (a : Aggregator α) (lookup : RegionLookup) (r : Report α)
    (found : lookup r.node = some a.region) :
    ∃ s, a.ownSummary lookup r = .ok s ∧ s.region = a.region ∧ s.window = r.window := by
  have made : ∃ s, Summary.ofReport lookup r = .ok s ∧ s.region = a.region ∧
      s.window = r.window := by
    simp only [Summary.ofReport, found]
    exact ⟨_, rfl, rfl, rfl⟩
  obtain ⟨s, made, region, window⟩ := made
  exact ⟨s, by simp [ownSummary, made, region], region, window⟩

/-- Reports of one region over one window are merged without fail. -/
theorem summarize_succeeds (a : Aggregator α) (lookup : RegionLookup)
    (own : ∀ r ∈ a.reports, lookup r.node = some a.region ∧ r.window = a.window) :
    ∃ summary, a.summarize lookup = .ok summary := by
  -- region and window of the summary so far are those of the aggregator
  have run (reports : List (Report α)) (acc : Summary α) (region : acc.region = a.region)
      (window : acc.window = a.window)
      (own : ∀ r ∈ reports, lookup r.node = some a.region ∧ r.window = a.window) :
      ∃ summary, reports.foldlM (fun acc r => do acc.merge (← a.ownSummary lookup r)) acc =
        .ok summary := by
    induction reports generalizing acc with
    | nil => exact ⟨acc, rfl⟩
    | cons r rest ih =>
      obtain ⟨found, fits⟩ := own r List.mem_cons_self
      obtain ⟨s, made, sameRegion, sameWindow⟩ := a.ownSummary_succeeds lookup r found
      have merged := Summary.merge_eq_join acc s (region.trans sameRegion.symm)
        (window.trans (sameWindow.trans fits).symm)
      obtain ⟨summary, rest_merged⟩ := ih (Summary.join acc s) region window
        fun r' member => own r' (List.mem_cons_of_mem r member)
      refine ⟨summary, ?_⟩
      rw [List.foldlM_cons, made, ok_bind, merged, ok_bind, rest_merged]
  exact run a.reports (Summary.null a.region a.window) rfl rfl own

end Aggregator

/-- A batch in which no report offends has a summary for exactly the regions that reports came from,
also where amounts are not added up exactly. -/
theorem summarizeRegions_succeeds (lookup : RegionLookup) (window : EstimationWindow)
    (reports : List (Report α)) (fit : ∀ r ∈ reports, ¬ Offends lookup window r) :
    ∃ summaries, summarizeRegions lookup window reports = .ok summaries ∧
      ∀ region, summaries.contains region = true ↔ fromRegion lookup region reports ≠ [] := by
  obtain ⟨aggregators, collected, grouped⟩ :=
    foldlM_collect_of_fits lookup window reports [] ∅ (grouped_nil lookup window) fit
  rw [List.nil_append] at grouped
  have succeeds (region : RegionName) (a : Aggregator α)
      (present : aggregators.get? region = some a) : ∃ s, a.summarize lookup = .ok s := by
    obtain ⟨rfl, own⟩ := grouped.own fit region a present
    exact Aggregator.summarize_succeeds _ lookup own
  let summary (region : RegionName) (a : Aggregator α) : Summary α :=
    (a.summarize lookup).toOption.getD (Summary.null region window)
  have pass := SortedMap.traverse_eq_mapValues aggregators (fun _ a => a.summarize lookup) summary
    fun region a present => by
      obtain ⟨s, made⟩ := succeeds region a present
      simp [summary, made, Except.toOption]
  refine ⟨aggregators.mapValues summary, by simpa [summarizeRegions, collected] using pass, ?_⟩
  intro region
  rw [SortedMap.contains, SortedMap.get?_mapValues, grouped region]
  split
  next none => simp [none]
  next some => simp [some]

end Adding

namespace Graph

variable (g : Graph) (window : EstimationWindow)

/-- The cached reports over a window of the nodes that are assigned to a region, in the order of the
nodes' names. -/
def cachedReports (region : RegionName) : List (Report Float) :=
  if region.isUnassigned then []
  else (g.nodesOf region).filterMap fun n => n.latestReport.filter fun r => r.window = window

theorem servicesOf_eq (region : RegionName) :
    g.servicesOf region = (g.nodesOf region).map Node.serviceReport := by
  rw [servicesOf, nodesOf]
  congr 1

theorem reportsOf_eq_fromRegion (region : RegionName) :
    g.reportsOf window region = fromRegion g.regionLookup region (g.latestReports window) :=
  List.filter_congr fun r _ => by rw [Bool.eq_iff_iff, beq_iff_eq, decide_eq_true_eq]

/-- Where every node caches reports of its own, the reports of a region are those of its nodes. -/
theorem reportsOf_eq
    (own : ∀ v n r, g.nodes.get? v = some n → n.latestReport = some r → r.node = v)
    (region : RegionName) : g.reportsOf window region = g.cachedReports window region := by
  have found (n : Node) (listed : n ∈ g.nodes.values) (r : Report Float)
      (cached : n.latestReport = some r) :
      g.regionLookup r.node = some region ↔ region.isUnassigned = false ∧ n.region = region := by
    obtain ⟨v, present⟩ := (SortedMap.mem_values_iff _ _).1 listed
    rw [own v n r present cached, regionLookup_eq_some_iff, vertex?_of_node v n present]
    simp [Node.region]
  rw [reportsOf, latestReports, List.filter_filterMap, List.filter_filterMap, cachedReports]
  -- node by node: its report is kept if it is over the window and the node is of the region
  split
  next unassigned =>
    rw [List.filterMap_eq_nil_iff]
    intro n listed
    cases cached : n.latestReport with
    | none => rfl
    | some r =>
      have missed := (found n listed r cached).not.2 (by simp [unassigned])
      cases fits : r.window == window <;> simp [Option.filter, fits, missed]
  next assigned =>
    rw [nodesOf, List.filterMap_filter]
    apply List.filterMap_congr
    intro n listed
    cases cached : n.latestReport with
    | none => simp
    | some r =>
      have here : g.regionLookup r.node = some region ↔ n.region = region := by
        simpa [assigned] using found n listed r cached
      by_cases fits : r.window = window <;> simp [Option.filter, fits, here]

/-- The reports that are summarized were filtered by the window. -/
theorem latestReports_fit (r : Report Float) (listed : r ∈ g.latestReports window) :
    ¬ Offends g.regionLookup window r := by
  rintro ⟨_, differ⟩
  have same := (List.mem_filter.1 listed).2
  exact differ (by simpa using same)

/-- The graph in which every node was told. -/
def told (summaries : SortedMap RegionName (Summary Float)) : Graph :=
  { g with nodes := g.nodes.mapValues fun _ n => g.tell window summaries n }

/-- Telling never fails, and there is a summary of every region that has cached reports. -/
theorem regionSummaries_succeeds :
    ∃ summaries, g.regionSummaries window = .ok (summaries, g.told window summaries) ∧
      ∀ region, summaries.contains region = true ↔ g.reportsOf window region ≠ [] := by
  obtain ⟨summaries, returned, regions⟩ := summarizeRegions_succeeds g.regionLookup window
    (g.latestReports window) (g.latestReports_fit window)
  refine ⟨summaries, by simp [regionSummaries, returned, told], fun region => ?_⟩
  rw [regions, reportsOf_eq_fromRegion]

theorem nodes_told (summaries : SortedMap RegionName (Summary Float)) (v : NodeName) :
    (g.told window summaries).nodes.get? v =
      (g.nodes.get? v).map (g.tell window summaries) :=
  SortedMap.get?_mapValues _ _ v

end Graph

end RegionNet
