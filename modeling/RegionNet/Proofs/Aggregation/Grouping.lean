import Mathlib.Algebra.BigOperators.Group.List.Lemmas
import RegionNet.Proofs.Aggregation.Reduction

/-!
# Summaries by region

Collecting a batch keeps one aggregator for each region from which a report came, and it holds
exactly the reports of that region in their order. So the batch fails only over a report of a known
region that has another window, and the entry of a region is the sum of the region's own reports.
What is said about batches follows from that closed form: the summaries depend on nothing but the
reports of each region, up to their order, and those of two batches together are joined region by
region.
-/

namespace RegionNet

open scoped Timestamp

variable {α : Type}

/-- The reports that come from the nodes of a region. -/
def fromRegion (lookup : RegionLookup) (region : RegionName) (reports : List (Report α)) :
    List (Report α) :=
  reports.filter fun r => lookup r.node = some region

theorem mem_fromRegion (lookup : RegionLookup) (region : RegionName) (reports : List (Report α))
    (r : Report α) :
    r ∈ fromRegion lookup region reports ↔ r ∈ reports ∧ lookup r.node = some region := by
  simp [fromRegion]

/-- A report of a known region over another window. -/
def Offends (lookup : RegionLookup) (window : EstimationWindow) (r : Report α) : Prop :=
  (lookup r.node).isSome = true ∧ r.window ≠ window

/-! ### Collecting -/

/-- Each region from which a report came has an aggregator with exactly its reports. -/
def Grouped (lookup : RegionLookup) (window : EstimationWindow) (reports : List (Report α))
    (m : SortedMap RegionName (Aggregator α)) : Prop :=
  ∀ region, m.get? region =
    if fromRegion lookup region reports = [] then none
    else some ⟨region, window, fromRegion lookup region reports⟩

theorem Grouped.aggregator {lookup : RegionLookup} {window : EstimationWindow}
    {reports : List (Report α)} {m : SortedMap RegionName (Aggregator α)}
    (grouped : Grouped lookup window reports m) (region : RegionName) :
    (m.get? region).getD (Aggregator.new region window) =
      ⟨region, window, fromRegion lookup region reports⟩ := by
  rw [grouped region]
  split
  next none => simp [none, Aggregator.new]
  next => rfl

/-- What an aggregator holds is of its own region, and over the window if nothing offends. -/
theorem Grouped.own {lookup : RegionLookup} {window : EstimationWindow}
    {reports : List (Report α)} {m : SortedMap RegionName (Aggregator α)}
    (grouped : Grouped lookup window reports m) (fit : ∀ r ∈ reports, ¬ Offends lookup window r)
    (region : RegionName) (a : Aggregator α) (present : m.get? region = some a) :
    a = ⟨region, window, fromRegion lookup region reports⟩ ∧
      ∀ r ∈ a.reports, lookup r.node = some region ∧ r.window = window := by
  rw [grouped region] at present
  split at present
  next => cases present
  next =>
    cases present
    refine ⟨rfl, fun r member => ?_⟩
    obtain ⟨inside, found⟩ := (mem_fromRegion lookup region reports r).1 member
    refine ⟨found, ?_⟩
    by_contra differ
    exact fit r inside ⟨by simp [found], differ⟩

theorem collect_of_fits (lookup : RegionLookup) (window : EstimationWindow)
    (done : List (Report α)) (m : SortedMap RegionName (Aggregator α)) (r : Report α)
    (grouped : Grouped lookup window done m) (fits : ¬ Offends lookup window r) :
    ∃ m', collect lookup window m r = .ok m' ∧ Grouped lookup window (done ++ [r]) m' := by
  cases found : lookup r.node with
  | none =>
    refine ⟨m, by simp [collect, found], ?_⟩
    intro region
    rw [grouped region]
    simp [fromRegion, found]
  | some own =>
    have same : r.window = window := by
      by_contra differ
      exact fits ⟨by simp [found], differ⟩
    -- only the aggregator of the report's own region changes
    refine ⟨m.insert own ⟨own, window, fromRegion lookup own done ++ [r]⟩, ?_, ?_⟩
    · simp [collect, found, grouped.aggregator own, Aggregator.add, same]
    · intro region
      by_cases here : region = own
      · subst here
        simp [SortedMap.get?_insert_self, fromRegion, found]
      · rw [SortedMap.get?_insert_of_ne _ _ _ _ here, grouped region]
        have elsewhere : own ≠ region := fun same => here same.symm
        simp [fromRegion, found, elsewhere]

theorem collect_of_offends (lookup : RegionLookup) (window : EstimationWindow)
    (done : List (Report α)) (m : SortedMap RegionName (Aggregator α)) (r : Report α)
    (grouped : Grouped lookup window done m) (offends : Offends lookup window r) :
    collect lookup window m r = .error (.windowMismatch window r.window) := by
  obtain ⟨known, differ⟩ := offends
  obtain ⟨own, found⟩ := Option.isSome_iff_exists.1 known
  simp [collect, found, grouped.aggregator own, Aggregator.add, differ]

theorem foldlM_collect_of_fits (lookup : RegionLookup) (window : EstimationWindow)
    (reports done : List (Report α)) (m : SortedMap RegionName (Aggregator α))
    (grouped : Grouped lookup window done m)
    (fit : ∀ r ∈ reports, ¬ Offends lookup window r) :
    ∃ m', reports.foldlM (collect lookup window) m = .ok m' ∧
      Grouped lookup window (done ++ reports) m' := by
  -- on the reports still to come; those collected so far are in the invariant
  induction reports generalizing done m with
  | nil => exact ⟨m, rfl, by simpa using grouped⟩
  | cons r rest ih =>
    obtain ⟨next, collected, grouped_next⟩ :=
      collect_of_fits lookup window done m r grouped (fit r List.mem_cons_self)
    obtain ⟨last, run, grouped_last⟩ :=
      ih (done ++ [r]) next grouped_next fun r member => fit r (List.mem_cons_of_mem _ member)
    refine ⟨last, ?_, by simpa using grouped_last⟩
    rw [List.foldlM_cons, collected]
    exact run

theorem foldlM_collect_of_offends (lookup : RegionLookup) (window : EstimationWindow)
    (reports done : List (Report α)) (m : SortedMap RegionName (Aggregator α))
    (grouped : Grouped lookup window done m)
    (offence : ∃ r ∈ reports, Offends lookup window r) :
    ∃ r ∈ reports, Offends lookup window r ∧
      reports.foldlM (collect lookup window) m = .error (.windowMismatch window r.window) := by
  induction reports generalizing done m with
  | nil => simp at offence
  | cons r rest ih =>
    by_cases offends : Offends lookup window r
    · refine ⟨r, List.mem_cons_self, offends, ?_⟩
      rw [List.foldlM_cons, collect_of_offends lookup window done m r grouped offends]
      rfl
    · obtain ⟨next, collected, grouped_next⟩ :=
        collect_of_fits lookup window done m r grouped offends
      have later : ∃ r ∈ rest, Offends lookup window r := by
        obtain ⟨r', member, offends'⟩ := offence
        rcases List.mem_cons.1 member with rfl | member
        · exact absurd offends' offends
        · exact ⟨r', member, offends'⟩
      obtain ⟨r', member, offends', run⟩ := ih (done ++ [r]) next grouped_next later
      refine ⟨r', List.mem_cons_of_mem _ member, offends', ?_⟩
      rw [List.foldlM_cons, collected]
      exact run

theorem grouped_nil (lookup : RegionLookup) (window : EstimationWindow) :
    Grouped lookup window ([] : List (Report α)) ∅ := by
  intro region
  simp [fromRegion]

/-! ### The closed form -/

variable [AddCommSemigroup α]

/-- What a batch says about a region: nothing if no report came from it. -/
def regionEntry (lookup : RegionLookup) (window : EstimationWindow) (reports : List (Report α))
    (region : RegionName) : Option (Summary α) :=
  if fromRegion lookup region reports = [] then none
  else
    some (((fromRegion lookup region reports).map
      (Regional.ofReport lookup region window)).sum).summary

theorem summarizeRegions_of_fits (lookup : RegionLookup) (window : EstimationWindow)
    (reports : List (Report α)) (fit : ∀ r ∈ reports, ¬ Offends lookup window r) :
    ∃ m, summarizeRegions lookup window reports = .ok m ∧
      ∀ region, m.get? region = regionEntry lookup window reports region := by
  obtain ⟨aggregators, collected, grouped⟩ :=
    foldlM_collect_of_fits lookup window reports [] ∅ (grouped_nil lookup window) fit
  rw [List.nil_append] at grouped
  let total (region : RegionName) (a : Aggregator α) : Summary α :=
    ((a.reports.map (Regional.ofReport lookup region window)).sum).summary
  have succeeds (region : RegionName) (a : Aggregator α)
      (present : aggregators.get? region = some a) :
      a.summarize lookup = .ok (total region a) := by
    obtain ⟨rfl, own⟩ := grouped.own fit region a present
    exact Aggregator.summarize_of_own _ lookup (fun r member => (own r member).2)
      fun r member => (own r member).1
  refine ⟨aggregators.mapValues total, ?_, ?_⟩
  · have pass := SortedMap.traverse_eq_mapValues aggregators (fun _ a => a.summarize lookup) total
      succeeds
    simpa [summarizeRegions, collected] using pass
  · intro region
    rw [SortedMap.get?_mapValues, grouped region, regionEntry]
    split
    · rfl
    · rfl

theorem summarizeRegions_of_offends (lookup : RegionLookup) (window : EstimationWindow)
    (reports : List (Report α)) (offence : ∃ r ∈ reports, Offends lookup window r) :
    ∃ r ∈ reports, Offends lookup window r ∧
      summarizeRegions lookup window reports = .error (.windowMismatch window r.window) := by
  obtain ⟨r, member, offends, failed⟩ :=
    foldlM_collect_of_offends lookup window reports [] ∅ (grouped_nil lookup window) offence
  refine ⟨r, member, offends, ?_⟩
  simp [summarizeRegions, failed]

theorem summarizeRegions_eq_ok_iff (lookup : RegionLookup) (window : EstimationWindow)
    (reports : List (Report α)) (m : SortedMap RegionName (Summary α)) :
    summarizeRegions lookup window reports = .ok m ↔
      (∀ r ∈ reports, ¬ Offends lookup window r) ∧
        ∀ region, m.get? region = regionEntry lookup window reports region := by
  by_cases offence : ∃ r ∈ reports, Offends lookup window r
  · obtain ⟨r, member, offends, failed⟩ :=
      summarizeRegions_of_offends lookup window reports offence
    rw [failed]
    constructor
    · intro returned
      cases returned
    · rintro ⟨fit, _⟩
      exact absurd offends (fit r member)
  · have fit : ∀ r ∈ reports, ¬ Offends lookup window r := fun r member offends =>
      offence ⟨r, member, offends⟩
    obtain ⟨m', returned, entries⟩ := summarizeRegions_of_fits lookup window reports fit
    rw [returned]
    constructor
    · intro same
      cases same
      exact ⟨fit, entries⟩
    · rintro ⟨_, entries'⟩
      rw [SortedMap.ext_get? m m' fun region => (entries' region).trans (entries region).symm]

theorem regionEntry_eq_none_iff (lookup : RegionLookup) (window : EstimationWindow)
    (reports : List (Report α)) (region : RegionName) :
    regionEntry lookup window reports region = none ↔ fromRegion lookup region reports = [] := by
  rw [regionEntry]
  split
  next none => simp [none]
  next some => simp [some]

theorem regionEntry_eq_merged (lookup : RegionLookup) (window : EstimationWindow)
    (reports : List (Report α)) (fit : ∀ r ∈ reports, ¬ Offends lookup window r)
    (region : RegionName) (s : Summary α)
    (present : regionEntry lookup window reports region = some s) :
    ∃ parts, (fromRegion lookup region reports).mapM (Summary.ofReport lookup) = .ok parts ∧
      parts.foldlM Summary.merge (Summary.null region window) = .ok s := by
  have known : ∀ r ∈ fromRegion lookup region reports, lookup r.node = some region :=
    fun r member => ((mem_fromRegion lookup region reports r).1 member).2
  have same : ∀ r ∈ fromRegion lookup region reports, r.window = window := by
    intro r member
    obtain ⟨inside, found⟩ := (mem_fromRegion lookup region reports r).1 member
    by_contra differ
    exact fit r inside ⟨by simp [found], differ⟩
  refine ⟨_, Regional.mapM_ofReport lookup _ known same, ?_⟩
  have folded := Regional.foldlM_merge 0
    ((fromRegion lookup region reports).map (Regional.ofReport lookup region window))
  rw [zero_add, List.map_map] at folded
  rw [regionEntry] at present
  split at present
  · cases present
  · cases present
    exact folded

/-! ### What the summaries depend on -/

theorem regionEntry_congr (lookup : RegionLookup) (window : EstimationWindow)
    (reports more : List (Report α)) (region : RegionName)
    (perm : (fromRegion lookup region reports).Perm (fromRegion lookup region more)) :
    regionEntry lookup window reports region = regionEntry lookup window more region := by
  have sums := (perm.map (Regional.ofReport lookup region window)).sum_eq
  have empty : fromRegion lookup region reports = [] ↔ fromRegion lookup region more = [] := by
    rw [← List.length_eq_zero_iff, perm.length_eq, List.length_eq_zero_iff]
  simp only [regionEntry, empty, sums]

omit [AddCommSemigroup α] in
theorem offence_of_perm (lookup : RegionLookup) (window : EstimationWindow)
    (reports more : List (Report α))
    (perm : ∀ region, (fromRegion lookup region reports).Perm (fromRegion lookup region more))
    (offence : ∃ r ∈ reports, Offends lookup window r) : ∃ r ∈ more, Offends lookup window r := by
  obtain ⟨r, member, offends⟩ := offence
  obtain ⟨region, found⟩ := Option.isSome_iff_exists.1 offends.1
  have inside := (perm region).subset ((mem_fromRegion lookup region reports r).2 ⟨member, found⟩)
  exact ⟨r, ((mem_fromRegion lookup region more r).1 inside).1, offends⟩

/-- Nothing but the reports of each region matters, and of these not the order. -/
theorem summarizeRegions_congr (lookup : RegionLookup) (window : EstimationWindow)
    (reports more : List (Report α))
    (perm : ∀ region, (fromRegion lookup region reports).Perm (fromRegion lookup region more)) :
    summarizeRegions lookup window reports = summarizeRegions lookup window more := by
  by_cases offence : ∃ r ∈ reports, Offends lookup window r
  · obtain ⟨r, _, offends, failed⟩ := summarizeRegions_of_offends lookup window reports offence
    have offence' := offence_of_perm lookup window reports more perm offence
    obtain ⟨r', _, offends', failed'⟩ := summarizeRegions_of_offends lookup window more offence'
    -- with two windows in all, any two offending reports have the same one
    have same : r.window = r'.window := by
      have first := offends.2
      have second := offends'.2
      revert first second
      cases r.window <;> cases r'.window <;> cases window <;> simp
    rw [failed, failed', same]
  · have fit : ∀ r ∈ reports, ¬ Offends lookup window r := fun r member offends =>
      offence ⟨r, member, offends⟩
    have fit' : ∀ r ∈ more, ¬ Offends lookup window r := fun r member offends =>
      offence (offence_of_perm lookup window more reports (fun region => (perm region).symm)
        ⟨r, member, offends⟩)
    obtain ⟨m, returned, entries⟩ := summarizeRegions_of_fits lookup window reports fit
    rw [returned, eq_comm, summarizeRegions_eq_ok_iff]
    refine ⟨fit', fun region => ?_⟩
    rw [entries, regionEntry_congr lookup window reports more region (perm region)]

/-! ### Two batches -/

/-- How what two batches say about a region makes what they say together. -/
inductive Joined : Option (Summary α) → Option (Summary α) → Option (Summary α) → Prop
  | neither : Joined none none none
  | first (s : Summary α) : Joined (some s) none (some s)
  | second (s : Summary α) : Joined none (some s) (some s)
  | both {s t u : Summary α} : s.merge t = .ok u → Joined (some s) (some t) (some u)

theorem Joined.unique {one two both both' : Option (Summary α)} (joined : Joined one two both)
    (joined' : Joined one two both') : both = both' := by
  cases joined with
  | neither => cases joined'; rfl
  | first s => cases joined'; rfl
  | second s => cases joined'; rfl
  | both merged =>
    cases joined' with
    | both merged' => rw [Except.ok.inj (merged.symm.trans merged')]

theorem regionEntry_append (lookup : RegionLookup) (window : EstimationWindow)
    (reports more : List (Report α)) (region : RegionName) :
    Joined (regionEntry lookup window reports region) (regionEntry lookup window more region)
      (regionEntry lookup window (reports ++ more) region) := by
  have split : fromRegion lookup region (reports ++ more) =
      fromRegion lookup region reports ++ fromRegion lookup region more := by
    simp [fromRegion]
  simp only [regionEntry, split]
  -- a region of one batch only has the sum of that batch
  by_cases first : fromRegion lookup region reports = []
  · by_cases second : fromRegion lookup region more = []
    · simpa [first, second] using Joined.neither
    · simpa [first, second] using Joined.second _
  · by_cases second : fromRegion lookup region more = []
    · simpa [first, second] using Joined.first _
    · simp only [first, second, List.append_eq_nil_iff, and_self, if_false, List.map_append,
        List.sum_append]
      exact .both (Regional.merge_summary _ _)

theorem summarizeRegions_append_iff (lookup : RegionLookup) (window : EstimationWindow)
    (reports more : List (Report α)) (m : SortedMap RegionName (Summary α)) :
    summarizeRegions lookup window (reports ++ more) = .ok m ↔
      ∃ one two, summarizeRegions lookup window reports = .ok one ∧
        summarizeRegions lookup window more = .ok two ∧
        ∀ region, Joined (one.get? region) (two.get? region) (m.get? region) := by
  simp only [summarizeRegions_eq_ok_iff, List.mem_append]
  constructor
  · rintro ⟨fit, entries⟩
    have fit_first : ∀ r ∈ reports, ¬ Offends lookup window r := fun r member => fit r (.inl member)
    have fit_second : ∀ r ∈ more, ¬ Offends lookup window r := fun r member => fit r (.inr member)
    obtain ⟨one, _, entries_one⟩ := summarizeRegions_of_fits lookup window reports fit_first
    obtain ⟨two, _, entries_two⟩ := summarizeRegions_of_fits lookup window more fit_second
    refine ⟨one, two, ⟨fit_first, entries_one⟩, ⟨fit_second, entries_two⟩, fun region => ?_⟩
    rw [entries, entries_one, entries_two]
    exact regionEntry_append lookup window reports more region
  · rintro ⟨one, two, ⟨fit_first, entries_one⟩, ⟨fit_second, entries_two⟩, joined⟩
    refine ⟨fun r member => member.elim (fit_first r) (fit_second r), fun region => ?_⟩
    -- what is joined from the two entries is determined by them
    apply (joined region).unique
    rw [entries_one, entries_two]
    exact regionEntry_append lookup window reports more region

/-- Summaries by region are a group-by that does not look at the order of the reports and that can
be done batch by batch. It fails exactly over a report of a known region that has another window. -/
theorem summarizeRegions_group_by (lookup : RegionLookup) (window : EstimationWindow)
    (reports : List (Report α)) :
    ((∃ e, summarizeRegions lookup window reports = .error e) ↔
      ∃ r ∈ reports, (lookup r.node).isSome = true ∧ r.window ≠ window) ∧
    (∀ e, summarizeRegions lookup window reports = .error e →
      ∃ r ∈ reports, (lookup r.node).isSome = true ∧ r.window ≠ window ∧
        e = .windowMismatch window r.window) ∧
    (∀ m, summarizeRegions lookup window reports = .ok m →
      (∀ region, m.contains region = true ↔ ∃ r ∈ reports, lookup r.node = some region) ∧
      ∀ region s, m.get? region = some s →
        ∃ parts,
          (reports.filter fun r => lookup r.node = some region).mapM (Summary.ofReport lookup) =
            .ok parts ∧
          parts.foldlM Summary.merge (Summary.null region window) = .ok s) ∧
    summarizeRegions lookup window (reports.filter fun r => (lookup r.node).isSome) =
      summarizeRegions lookup window reports ∧
    (∀ shuffled, reports.Perm shuffled →
      summarizeRegions lookup window shuffled = summarizeRegions lookup window reports) ∧
    (∀ more m, summarizeRegions lookup window (reports ++ more) = .ok m ↔
      ∃ one two, summarizeRegions lookup window reports = .ok one ∧
        summarizeRegions lookup window more = .ok two ∧
        ∀ region, Joined (one.get? region) (two.get? region) (m.get? region)) := by
  have error_of_offence := summarizeRegions_of_offends lookup window reports
  -- without an offence the batch succeeds, so that an error needs one
  have offence_of_error (e : MergeError)
      (failed : summarizeRegions lookup window reports = .error e) :
      ∃ r ∈ reports, Offends lookup window r := by
    by_contra none
    obtain ⟨m, returned, _⟩ := summarizeRegions_of_fits lookup window reports
      fun r member offends => none ⟨r, member, offends⟩
    rw [returned] at failed
    cases failed
  refine ⟨⟨?_, ?_⟩, ?_, ?_, ?_, ?_, summarizeRegions_append_iff lookup window reports⟩
  · rintro ⟨e, failed⟩
    exact offence_of_error e failed
  · intro offence
    obtain ⟨_, _, _, failed⟩ := error_of_offence offence
    exact ⟨_, failed⟩
  · intro e failed
    obtain ⟨r, member, offends, failed'⟩ := error_of_offence (offence_of_error e failed)
    exact ⟨r, member, offends.1, offends.2, Except.error.inj (failed.symm.trans failed')⟩
  · intro m returned
    obtain ⟨fit, entries⟩ := (summarizeRegions_eq_ok_iff lookup window reports m).1 returned
    refine ⟨fun region => ?_, fun region s present => ?_⟩
    · rw [SortedMap.contains_iff, entries, ← Option.ne_none_iff_exists', ne_eq,
        regionEntry_eq_none_iff, List.eq_nil_iff_forall_not_mem, not_forall_not]
      simp only [mem_fromRegion]
    · rw [entries] at present
      exact regionEntry_eq_merged lookup window reports fit region s present
  · apply summarizeRegions_congr
    intro region
    have kept : fromRegion lookup region (reports.filter fun r => (lookup r.node).isSome) =
        fromRegion lookup region reports := by
      simp only [fromRegion, List.filter_filter]
      apply List.filter_congr
      intro r _
      cases lookup r.node <;> simp
    rw [kept]
  · intro shuffled perm
    apply summarizeRegions_congr
    intro region
    exact (perm.filter _).symm

/-- A batch with a report of an unknown node over another window, in two orders, and a batch in
which such a report comes from a known node. -/
theorem summarizeRegions_group_by_with_stranger :
    let lookup : RegionLookup := fun node =>
      [("a", "east"), ("b", "west"), ("c", "east")].lookup node
    let r (node : NodeName) (time : Timestamp) : Report Int :=
      { Report.null node .short with timestamp := time }
    let stranger : Report Int := Report.null "x" .long
    let late : Report Int := Report.null "b" .long
    (∃ m, summarizeRegions lookup .short [r "a" 3, stranger, r "b" 4, r "c" (-2)] = .ok m ∧
      summarizeRegions lookup .short [stranger, r "a" 3, r "b" 4, r "c" (-2)] = .ok m ∧
      m.contains "east" = true ∧ m.contains "north" = false) ∧
    summarizeRegions lookup .short [r "a" 3, late] = .error (.windowMismatch .short .long) := by
  intro lookup r stranger late
  constructor
  · obtain ⟨fails_iff, _, keys, _, order, _⟩ := summarizeRegions_group_by lookup .short
      [r "a" 3, stranger, r "b" 4, r "c" (-2)]
    cases outcome : summarizeRegions lookup .short [r "a" 3, stranger, r "b" 4, r "c" (-2)] with
    | error e =>
      obtain ⟨r', member, known, differ⟩ := fails_iff.1 ⟨e, outcome⟩
      simp only [List.mem_cons, List.not_mem_nil, or_false] at member
      rcases member with rfl | rfl | rfl | rfl
      · exact absurd rfl differ
      · cases known
      · exact absurd rfl differ
      · exact absurd rfl differ
    | ok m =>
      have shuffled := order [stranger, r "a" 3, r "b" 4, r "c" (-2)] (.swap _ _ _)
      have east := ((keys m outcome).1 "east").2 ⟨r "a" 3, by simp, rfl⟩
      have north : ¬ m.contains "north" = true := by
        rw [(keys m outcome).1 "north"]
        simp only [List.mem_cons, List.not_mem_nil, or_false]
        rintro ⟨r', rfl | rfl | rfl | rfl, found⟩
        · exact absurd found (by decide)
        · exact absurd found (by decide)
        · exact absurd found (by decide)
        · exact absurd found (by decide)
      exact ⟨m, rfl, shuffled.trans outcome, east, Bool.eq_false_iff.2 north⟩
  · obtain ⟨fails_iff, errors, _⟩ := summarizeRegions_group_by lookup .short [r "a" 3, late]
    obtain ⟨e, failed⟩ := fails_iff.2 ⟨late, by simp, rfl, by decide⟩
    obtain ⟨r', _, _, differ, rfl⟩ := errors e failed
    cases window : r'.window with
    | short => exact absurd window differ
    | long => rw [failed, window]

end RegionNet
