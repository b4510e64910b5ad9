import Mathlib.Algebra.BigOperators.Group.List.Basic
import RegionNet.Proofs.Report.Merging

/-!
# Sums of reports

A report of a region is an element of the monoid of that region and a window. The sum of a list of
such reports is what merging their summaries from the null summary gives, and its span is the hull
of the times at which something was reported.
-/

namespace RegionNet

open scoped Timestamp

/-! ### Reports as elements of the monoid -/

namespace Regional

variable {α : Type} [AddCommSemigroup α] {region : RegionName} {window : EstimationWindow}

/-- What a report of the region adds to the summary over the window. -/
def ofReport (lookup : RegionLookup) (region : RegionName) (window : EstimationWindow)
    (r : Report α) : Regional α region window where
  summary := {
    region := region
    minTimestamp := r.timestamp
    maxTimestamp := r.timestamp
    window := window
    serverCapacity := r.serverCapacity
    serverLoad := r.serverLoad
    serverDemand := r.serverDemand
    networkCapacity := r.networkCapacity.rekey lookup
    networkLoad := r.networkLoad.rekey lookup
    networkDemand := r.networkDemand.rekey lookup }
  inClass := ⟨rfl, rfl, le_refl r.timestamp⟩

theorem ofReport_summary (lookup : RegionLookup) (r : Report α)
    (known : lookup r.node = some region) (same : r.window = window) :
    Summary.ofReport lookup r = .ok (ofReport lookup region window r).summary := by
  simp only [Summary.ofReport, known, ofReport, same]

theorem mapM_ofReport (lookup : RegionLookup) (reports : List (Report α))
    (known : ∀ r ∈ reports, lookup r.node = some region) (same : ∀ r ∈ reports, r.window = window) :
    reports.mapM (Summary.ofReport lookup) =
      .ok (reports.map fun r => (ofReport lookup region window r).summary) := by
  induction reports with
  | nil => rfl
  | cons r rest ih =>
    have head := ofReport_summary lookup r (known r List.mem_cons_self) (same r List.mem_cons_self)
    have tail := ih (fun r member => known r (List.mem_cons_of_mem _ member))
      (fun r member => same r (List.mem_cons_of_mem _ member))
    rw [List.mapM_cons, head, tail]
    rfl

theorem foldlM_merge (start : Regional α region window) (l : List (Regional α region window)) :
    (l.map Regional.summary).foldlM Summary.merge start.summary = .ok (start + l.sum).summary := by
  -- for every start, since the first merge makes a new one
  induction l generalizing start with
  | nil =>
    rw [List.sum_nil, add_zero]
    rfl
  | cons head rest ih =>
    rw [List.map_cons, List.foldlM_cons, merge_summary]
    change (rest.map Regional.summary).foldlM Summary.merge (start + head).summary = _
    rw [ih, List.sum_cons, add_assoc]

end Regional

/-! ### The times that a summary covers -/

namespace Summary

variable {α : Type}

/-- The times of the reports that report something. -/
def reportedTimes (reports : List (Report α)) : Set Timestamp :=
  { t | t ≠ Timestamp.none ∧ ∃ r ∈ reports, r.timestamp = t }

/-- The span is the hull of the times, and null if there are none. -/
structure Covers (s : Summary α) (times : Set Timestamp) : Prop where
  isNull_iff : s.isNull = true ↔ times = ∅
  least : times.Nonempty → IsLeast times s.minTimestamp
  greatest : times.Nonempty → IsGreatest times s.maxTimestamp

theorem null_covers (region : RegionName) (window : EstimationWindow) :
    (null region window : Summary α).Covers ∅ where
  isNull_iff := by simp [isNull, null]
  least none := absurd none Set.not_nonempty_empty
  greatest none := absurd none Set.not_nonempty_empty

theorem reportedTimes_eq_empty_iff (reports : List (Report α)) :
    reportedTimes reports = ∅ ↔ ¬ ∃ r ∈ reports, r.timestamp ≠ Timestamp.none := by
  rw [Set.eq_empty_iff_forall_notMem]
  constructor
  · rintro none ⟨r, member, live⟩
    exact none r.timestamp ⟨live, r, member, rfl⟩
  · rintro none t ⟨live, r, member, rfl⟩
    exact none ⟨r, member, live⟩

theorem reportedTimes_cons (r : Report α) (rest : List (Report α)) :
    reportedTimes (r :: rest) = reportedTimes [r] ∪ reportedTimes rest := by
  ext t
  simp only [reportedTimes, List.mem_cons, Set.mem_union, Set.mem_ofPred_eq]
  constructor
  · rintro ⟨live, r', rfl | member, time⟩
    · exact .inl ⟨live, r', .inl rfl, time⟩
    · exact .inr ⟨live, r', member, time⟩
  · rintro (⟨live, r', rfl | none, time⟩ | ⟨live, r', member, time⟩)
    · exact ⟨live, r', .inl rfl, time⟩
    · simp at none
    · exact ⟨live, r', .inr member, time⟩

theorem covers_of_time (s : Summary α) (r : Report α) (start : s.minTimestamp = r.timestamp)
    (stop : s.maxTimestamp = r.timestamp) : s.Covers (reportedTimes [r]) := by
  by_cases null : r.timestamp = Timestamp.none
  · -- a report at the null time reports nothing
    have none : reportedTimes [r] = ∅ := by
      ext t
      simp only [reportedTimes, List.mem_singleton, exists_eq_left, Set.mem_ofPred_eq,
        Set.mem_empty_iff_false, iff_false, not_and]
      intro live time
      exact live (time ▸ null)
    rw [none]
    refine ⟨?_, fun some => absurd some Set.not_nonempty_empty,
      fun some => absurd some Set.not_nonempty_empty⟩
    simp [Summary.isNull_iff, start, stop, null]
  · have one : reportedTimes [r] = {r.timestamp} := by
      ext t
      simp only [reportedTimes, List.mem_singleton, exists_eq_left, Set.mem_ofPred_eq,
        Set.mem_singleton_iff]
      constructor
      · exact fun both => both.2.symm
      · rintro rfl
        exact ⟨null, rfl⟩
    rw [one]
    refine ⟨?_, fun _ => start ▸ isLeast_singleton, fun _ => stop ▸ isGreatest_singleton⟩
    simp [Summary.isNull_iff, start, null]

theorem join_covers [Add α] (one two : Summary α) (times times' : Set Timestamp)
    (ordered : one.Ordered) (first : one.Covers times) (second : two.Covers times') :
    (join one two).Covers (times ∪ times') := by
  have null_iff : (join one two).isNull = true ↔ times ∪ times' = ∅ := by
    rw [join_isNull_iff one two ordered, first.isNull_iff, second.isNull_iff, Set.union_empty_iff]
  -- a null side has no times, and the span of the other side is kept
  by_cases null_one : one.isNull = true
  · have none := first.isNull_iff.1 null_one
    subst none
    rw [Set.empty_union] at null_iff ⊢
    have same := span_of_null_left one two null_one
    refine ⟨null_iff, fun some => ?_, fun some => ?_⟩
    · simpa only [join, same] using second.least some
    · simpa only [join, same] using second.greatest some
  by_cases null_two : two.isNull = true
  · have none := second.isNull_iff.1 null_two
    subst none
    rw [Set.union_empty] at null_iff ⊢
    have same := span_of_null_right one two null_two
    refine ⟨null_iff, fun some => ?_, fun some => ?_⟩
    · simpa only [join, same] using first.least some
    · simpa only [join, same] using first.greatest some
  -- otherwise both sides have times, and the least of all is the lesser of the two least
  have some_one : times.Nonempty :=
    Set.nonempty_iff_ne_empty.2 fun none => null_one (first.isNull_iff.2 none)
  have some_two : times'.Nonempty :=
    Set.nonempty_iff_ne_empty.2 fun none => null_two (second.isNull_iff.2 none)
  have hull := span_of_live one two null_one null_two
  refine ⟨null_iff, fun _ => ?_, fun _ => ?_⟩
  · simpa only [join, hull] using (first.least some_one).union (second.least some_two)
  · simpa only [join, hull] using (first.greatest some_one).union (second.greatest some_two)

theorem sum_covers [AddCommSemigroup α] (lookup : RegionLookup) (region : RegionName)
    (window : EstimationWindow) (reports : List (Report α)) :
    ((reports.map (Regional.ofReport lookup region window)).sum).summary.Covers
      (reportedTimes reports) := by
  induction reports with
  | nil =>
    have none : reportedTimes ([] : List (Report α)) = ∅ := by
      ext t
      simp [reportedTimes]
    rw [none]
    exact null_covers region window
  | cons r rest ih =>
    rw [List.map_cons, List.sum_cons, reportedTimes_cons]
    exact join_covers _ _ _ _ (Regional.ofReport lookup region window r).inClass.ordered
      (covers_of_time _ r rfl rfl) ih

end Summary

end RegionNet
