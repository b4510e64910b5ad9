import RegionNet.Proofs.Aggregation.Grouping
import RegionNet.Proofs.Report.Exact
import RegionNet.Proofs.Report.Untimed

/-!
# Summaries by region, however the reductions are split

Each region of a batch has its reports reduced in a split of its own. Where amounts add exactly, no
split makes a difference. Doubles are rounded whenever two of them are added, so there a batch has
as many summaries as its splits give. But no split and no rounding looks at a time: batches that
differ in their times only have the same summaries, spans aside, with doubles as with exact amounts.
-/

namespace RegionNet

variable {α β : Type}

namespace Reduction

/-- The same split of other reports. -/
def map (f : Report α → Report β) : Reduction α → Reduction β
  | identity => identity
  | report r => report (f r)
  | combine left right => combine (left.map f) (right.map f)

theorem reports_map (f : Report α → Report β) (work : Reduction α) :
    (work.map f).reports = work.reports.map f := by
  induction work with
  | identity => rfl
  | report r => rfl
  | combine left right ihl ihr => simp [map, reports, ihl, ihr]

/-- A split of what reports are mapped to is a split of the reports. -/
theorem exists_map_eq (f : Report α → Report β) (work : Reduction β) (l : List (Report α))
    (split : work.reports = l.map f) : ∃ before : Reduction α,
      before.reports = l ∧ before.map f = work := by
  induction work generalizing l with
  | identity => exact ⟨identity, (List.map_eq_nil_iff.1 split.symm).symm, rfl⟩
  | report r =>
    obtain ⟨r', rfl, rfl⟩ := List.map_eq_singleton_iff.1 split.symm
    exact ⟨report r', rfl, rfl⟩
  | combine left right ihl ihr =>
    obtain ⟨first, second, rfl, split_left, split_right⟩ := List.map_eq_append_iff.1 split.symm
    obtain ⟨left', rfl, rfl⟩ := ihl first split_left.symm
    obtain ⟨right', rfl, rfl⟩ := ihr second split_right.symm
    exact ⟨combine left' right', rfl, rfl⟩

/-- One report after another, from the right. -/
def fromRight (l : List (Report α)) : Reduction α :=
  l.foldr (fun r work => combine (report r) work) identity

theorem reports_fromRight (l : List (Report α)) : (fromRight l).reports = l := by
  induction l with
  | nil => rfl
  | cons r rest ih => simpa [fromRight, reports] using ih

variable [Add α] {a : Aggregator α} {lookup : RegionLookup}

theorem Yields.untimed {work : Reduction α} {outcome : Except MergeError (Summary α)}
    (yields : work.Yields a lookup outcome) :
    (work.map Report.untimed).Yields a.untimed lookup (outcome.map Summary.untimed) := by
  induction yields with
  | identity => exact .identity
  | report r =>
    rw [← Aggregator.ownSummary_untimed]
    exact .report r.untimed
  | @combine left right s t _ _ ihl ihr =>
    rw [← Summary.merge_untimed]
    exact .combine ihl ihr
  | left _ ih => exact .left ih
  | right _ ih => exact .right ih

/-- Without their times reports give what they give, spans aside. -/
theorem exists_yields_of_untimed (work : Reduction α) (outcome : Except MergeError (Summary α))
    (yields : (work.map Report.untimed).Yields a.untimed lookup outcome) :
    ∃ done, work.Yields a lookup done ∧ done.map Summary.untimed = outcome := by
  induction work generalizing outcome with
  | identity =>
    cases yields
    exact ⟨_, .identity, rfl⟩
  | report r =>
    cases yields
    exact ⟨_, .report r, (a.ownSummary_untimed lookup r).symm⟩
  | combine left right ihl ihr =>
    cases yields with
    | combine yields_left yields_right =>
      obtain ⟨first, done_left, same_left⟩ := ihl _ yields_left
      obtain ⟨second, done_right, same_right⟩ := ihr _ yields_right
      cases first with
      | error e => cases same_left
      | ok s =>
        cases second with
        | error e => cases same_right
        | ok t =>
          cases same_left
          cases same_right
          exact ⟨_, .combine done_left done_right, (Summary.merge_untimed s t).symm⟩
    | left failed =>
      obtain ⟨first, done, same⟩ := ihl _ failed
      cases first with
      | ok s => cases same
      | error e =>
        cases same
        exact ⟨_, .left done, rfl⟩
    | right failed =>
      obtain ⟨second, done, same⟩ := ihr _ failed
      cases second with
      | ok s => cases same
      | error e =>
        cases same
        exact ⟨_, .right done, rfl⟩

end Reduction

/-! ### Batches -/

section

variable [Add α] {lookup : RegionLookup} {window : EstimationWindow} {reports : List (Report α)}
  {done : Except MergeError (SortedMap RegionName (Summary α))}

/-- What summarizing a batch may give: the reports of every region are reduced in some split. -/
inductive SummarizedAs (lookup : RegionLookup) (window : EstimationWindow)
    (reports : List (Report α)) : Except MergeError (SortedMap RegionName (Summary α)) → Prop
  | refused (e : MergeError)
      (collected : reports.foldlM (collect lookup window) ∅ = .error e) :
      SummarizedAs lookup window reports (.error e)
  | reduced (aggregators : SortedMap RegionName (Aggregator α))
      (collected : reports.foldlM (collect lookup window) ∅ = .ok aggregators)
      (outcome : RegionName → Except MergeError (Summary α))
      (reduced : ∀ region a, aggregators.get? region = some a →
        ∃ work : Reduction α, work.reports = a.reports ∧ work.Yields a lookup (outcome region)) :
      SummarizedAs lookup window reports (aggregators.traverse fun region _ => outcome region)

/-- Merging the summaries of each region in the order of its reports is one of the ways. -/
theorem summarizeRegions_summarizedAs (lookup : RegionLookup) (window : EstimationWindow)
    (reports : List (Report α)) :
    SummarizedAs lookup window reports (summarizeRegions lookup window reports) := by
  cases collected : reports.foldlM (collect lookup window) ∅ with
  | error e =>
    rw [summarizeRegions, collected]
    exact .refused e collected
  | ok aggregators =>
    let outcome (region : RegionName) : Except MergeError (Summary α) :=
      (aggregators.get? region).elim (.ok (Summary.null region window)) fun a => a.summarize lookup
    have own (region : RegionName) (a : Aggregator α) (present : aggregators.get? region = some a) :
        a.summarize lookup = outcome region := by
      simp [outcome, present]
    have summarized : summarizeRegions lookup window reports =
        aggregators.traverse fun region _ => outcome region := by
      rw [summarizeRegions, collected]
      exact SortedMap.traverse_congr _ _ _ own
    rw [summarized]
    refine .reduced aggregators collected outcome fun region a present => ?_
    rw [← own region a present]
    exact ⟨_, Reduction.reports_inOrder .identity a.reports, Reduction.summarize_yields a lookup⟩

/-- Every split of the reports of one region summarizes them. -/
theorem SummarizedAs.of_region {region : RegionName} (work : Reduction α)
    (inhabited : work.reports ≠ [])
    (own : ∀ r ∈ work.reports, lookup r.node = some region ∧ r.window = window) :
    SummarizedAs lookup window work.reports
      ((work.outcome ⟨region, window, work.reports⟩ lookup).map (SortedMap.singleton region)) := by
  obtain ⟨aggregators, collected, grouped⟩ :=
    foldlM_collect_of_fits lookup window work.reports [] ∅ (grouped_nil lookup window)
      fun r member offends => offends.2 (own r member).2
  have only : aggregators = SortedMap.singleton region ⟨region, window, work.reports⟩ := by
    apply SortedMap.ext_get?
    intro other
    rw [grouped other, SortedMap.get?_singleton, List.nil_append]
    by_cases same : other = region
    · have all : fromRegion lookup other work.reports = work.reports :=
        List.filter_eq_self.2 fun r member => by simp [same, (own r member).1]
      rw [all, if_neg inhabited, if_pos same, same]
    · have none : fromRegion lookup other work.reports = [] := by
        refine List.filter_eq_nil_iff.2 fun r member => ?_
        simp [(own r member).1, Ne.symm same]
      rw [if_pos none, if_neg same]
  subst only
  have pass := SummarizedAs.reduced _ collected
    (fun _ => work.outcome ⟨region, window, work.reports⟩ lookup) fun other a present => ?_
  · convert pass using 1
    cases work.outcome ⟨region, window, work.reports⟩ lookup <;> rfl
  · rw [SortedMap.get?_singleton] at present
    split at present
    · cases present
      exact ⟨work, rfl, work.yields_outcome _ lookup⟩
    · cases present

theorem SummarizedAs.untimed (summarized : SummarizedAs lookup window reports done) :
    SummarizedAs lookup window (reports.map Report.untimed)
      (done.map (SortedMap.map Summary.untimed)) := by
  have collected_untimed := foldlM_collect_untimed lookup window reports
  cases summarized with
  | refused e collected =>
    rw [collected] at collected_untimed
    exact .refused e collected_untimed
  | reduced aggregators collected outcome reduced =>
    rw [collected] at collected_untimed
    have pass := SortedMap.traverse_map aggregators (fun region _ => outcome region)
      (fun region _ => (outcome region).map Summary.untimed) Aggregator.untimed Summary.untimed
      fun _ _ => rfl
    rw [← pass]
    refine .reduced _ collected_untimed _ fun region a present => ?_
    rw [SortedMap.get?_map, Option.map_eq_some_iff] at present
    obtain ⟨a, present, rfl⟩ := present
    obtain ⟨work, split, yields⟩ := reduced region a present
    exact ⟨work.map Report.untimed, by rw [Reduction.reports_map, split]; rfl, yields.untimed⟩

theorem exists_summarizedAs_of_untimed
    (summarized : SummarizedAs lookup window (reports.map Report.untimed) done) :
    ∃ before, SummarizedAs lookup window reports before ∧
      before.map (SortedMap.map Summary.untimed) = done := by
  have collected_untimed := foldlM_collect_untimed lookup window reports
  cases collected : reports.foldlM (collect lookup window) ∅ with
  | error e =>
    rw [collected] at collected_untimed
    cases summarized with
    | refused e' refused =>
      cases collected_untimed.symm.trans refused
      exact ⟨_, .refused e collected, rfl⟩
    | reduced aggregators' collected' => cases collected_untimed.symm.trans collected'
  | ok aggregators =>
    rw [collected] at collected_untimed
    cases summarized with
    | refused e' refused => cases collected_untimed.symm.trans refused
    | reduced aggregators' collected' outcome reduced =>
      cases collected_untimed.symm.trans collected'
      -- region by region, the split of the reports without times is one of the reports
      have own (region : RegionName) : ∃ before, ∀ a, aggregators.get? region = some a →
          (∃ work : Reduction α, work.reports = a.reports ∧ work.Yields a lookup before) ∧
            before.map Summary.untimed = outcome region := by
        cases present : aggregators.get? region with
        | none => exact ⟨.ok (Summary.null region window), fun a none => by cases none⟩
        | some a =>
          obtain ⟨work, split, yields⟩ := reduced region a.untimed (by
            rw [SortedMap.get?_map, present]
            rfl)
          obtain ⟨split_before, of_reports, rfl⟩ :=
            Reduction.exists_map_eq Report.untimed work a.reports split
          obtain ⟨before, yields, same⟩ := Reduction.exists_yields_of_untimed split_before _ yields
          refine ⟨before, fun a' same' => ?_⟩
          cases same'
          exact ⟨⟨split_before, of_reports, yields⟩, same⟩
      choose before own using own
      refine ⟨_, .reduced aggregators collected before fun region a present =>
        (own region a present).1, ?_⟩
      rw [← SortedMap.traverse_map aggregators (fun region _ => before region)
        (fun region _ => (before region).map Summary.untimed) Aggregator.untimed Summary.untimed
        fun _ _ => rfl]
      refine SortedMap.traverse_congr _ _ _ fun region a present => ?_
      rw [SortedMap.get?_map, Option.map_eq_some_iff] at present
      obtain ⟨a, present, rfl⟩ := present
      exact (own region a present).2

end

/-- With exact amounts there is one way only. -/
theorem SummarizedAs.eq_summarizeRegions [AddCommSemigroup α] {lookup : RegionLookup}
    {window : EstimationWindow} {reports : List (Report α)}
    {done : Except MergeError (SortedMap RegionName (Summary α))}
    (summarized : SummarizedAs lookup window reports done) :
    done = summarizeRegions lookup window reports := by
  cases summarized with
  | refused e collected =>
    rw [summarizeRegions, collected]
    rfl
  | reduced aggregators collected outcome reduced =>
    have fit : ∀ r ∈ reports, ¬ Offends lookup window r := by
      intro r member offends
      obtain ⟨r', _, _, failed⟩ := foldlM_collect_of_offends lookup window reports [] ∅
        (grouped_nil lookup window) ⟨r, member, offends⟩
      cases collected.symm.trans failed
    obtain ⟨aggregators', collected', grouped⟩ :=
      foldlM_collect_of_fits lookup window reports [] ∅ (grouped_nil lookup window) fit
    cases collected.symm.trans collected'
    rw [summarizeRegions, collected, Outcome.ok_bind]
    refine SortedMap.traverse_congr _ _ _ fun region a present => ?_
    obtain ⟨rfl, own⟩ := grouped.own fit region a present
    obtain ⟨work, split, yields⟩ := reduced region _ present
    have same := fun r member => (own r member).2
    have known := fun r member => (own r member).1
    rw [Aggregator.outcome_of_own _ lookup same known work split _ yields,
      Aggregator.summarize_of_own _ lookup same known]

/-- Two batches have the same summaries, spans aside, however the reductions are split. -/
structure SummarizedAlike [Add α] (value : Float → α) (lookup : RegionLookup)
    (window : EstimationWindow) (reports more : List (Report Float)) : Prop where
  /-- With amounts that are read exactly, any two ways to summarize them agree. -/
  exact : ∀ one two, SummarizedAs lookup window (reports.map (Report.map value)) one →
    SummarizedAs lookup window (more.map (Report.map value)) two →
      one.map (SortedMap.map Summary.untimed) = two.map (SortedMap.map Summary.untimed)
  /-- With doubles, what some split of the one gives, some split of the other gives. -/
  doubles : ∀ outcome,
    (∃ one, SummarizedAs lookup window reports one ∧
      one.map (SortedMap.map Summary.untimed) = outcome) ↔
    ∃ two, SummarizedAs lookup window more two ∧
      two.map (SortedMap.map Summary.untimed) = outcome
  /-- With doubles that are added in the order of the reports, the two agree. -/
  inOrder : (summarizeRegions lookup window reports).map (SortedMap.map Summary.untimed) =
    (summarizeRegions lookup window more).map (SortedMap.map Summary.untimed)

theorem Report.untimed_map (value : Float → α) (r : Report Float) :
    (r.map value).untimed = r.untimed.map value := by
  simp only [untimed, map, List.map_map]
  rfl

/-- Batches that differ in the times of their reports only are summarized alike. -/
theorem summarizedAlike_of_untimed [AddCommSemigroup α] (value : Float → α) (lookup : RegionLookup)
    (window : EstimationWindow) (reports more : List (Report Float))
    (same : reports.map Report.untimed = more.map Report.untimed) :
    SummarizedAlike value lookup window reports more where
  exact one two summarized summarized' := by
    rw [summarized.eq_summarizeRegions, summarized'.eq_summarizeRegions]
    apply summarizeRegions_congr_untimed
    have read (l : List (Report Float)) : (l.map (Report.map value)).map Report.untimed =
        (l.map Report.untimed).map (Report.map value) := by
      rw [List.map_map, List.map_map]
      exact List.map_congr_left fun r _ => r.untimed_map value
    rw [read, read, same]
  doubles outcome := by
    have either (one two : List (Report Float))
        (same : one.map Report.untimed = two.map Report.untimed) :
        (∃ done, SummarizedAs lookup window one done ∧
          done.map (SortedMap.map Summary.untimed) = outcome) →
        ∃ done, SummarizedAs lookup window two done ∧
          done.map (SortedMap.map Summary.untimed) = outcome := by
      rintro ⟨done, summarized, rfl⟩
      exact exists_summarizedAs_of_untimed (same ▸ summarized.untimed)
    exact ⟨either reports more same, either more reports same.symm⟩
  inOrder := summarizeRegions_congr_untimed lookup window reports more same

end RegionNet
