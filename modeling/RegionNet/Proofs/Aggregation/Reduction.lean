import RegionNet.Aggregation
import RegionNet.Proofs.Outcome
import RegionNet.Proofs.Report.Sum

/-!
# The summary of a region does not depend on how the work is split

A reduction splits the reports of an aggregator into a tree, with null summaries put in anywhere.
Where every report comes from the aggregator's region, any split gives the sum of the reports.
Otherwise every split fails, and it blames a report that is at fault; which one is not settled, as a
failure on one side may end the reduction before the other side is done.
-/

namespace RegionNet

open scoped Timestamp

/-! ### Collecting reports -/

namespace Aggregator

variable {α : Type}

/-- The aggregator after a report was offered, which changes nothing where it is refused. -/
def offer (a : Aggregator α) (r : Report α) : Aggregator α :=
  match a.add r with
  | .ok next => next
  | .error _ => a

/-- An aggregator to which reports were offered one after another. -/
def collected (region : RegionName) (window : EstimationWindow) (offered : List (Report α)) :
    Aggregator α :=
  offered.foldl offer (new region window)

theorem offer_eq (a : Aggregator α) (r : Report α) :
    a.offer r = if r.window = a.window then { a with reports := a.reports ++ [r] } else a := by
  by_cases same : r.window = a.window
  · simp [offer, add, same]
  · simp [offer, add, same]

theorem foldl_offer (a : Aggregator α) (offered : List (Report α)) :
    offered.foldl offer a =
      { a with reports := a.reports ++ offered.filter fun r => r.window = a.window } := by
  induction offered generalizing a with
  | nil => simp
  | cons r rest ih =>
    rw [List.foldl_cons, ih, offer_eq]
    by_cases same : r.window = a.window
    · simp [same]
    · simp [same]

/-- An aggregator holds the reports over its window that it was offered, in their order. -/
theorem collected_eq (region : RegionName) (window : EstimationWindow)
    (offered : List (Report α)) :
    collected region window offered =
      ⟨region, window, offered.filter fun r => r.window = window⟩ :=
  foldl_offer (new region window) offered

/-- The error names a report that does not come from the aggregator's region. -/
def Blames (a : Aggregator α) (lookup : RegionLookup) (reports : List (Report α))
    (e : MergeError) : Prop :=
  (∃ r ∈ reports, lookup r.node = none ∧ e = .unknownRegion r.node) ∨
  (∃ r ∈ reports, ∃ other, lookup r.node = some other ∧ other ≠ a.region ∧
    e = .regionMismatch a.region other)

theorem Blames.mono {a : Aggregator α} {lookup : RegionLookup} {reports more : List (Report α)}
    {e : MergeError} (blames : a.Blames lookup reports e) (included : reports ⊆ more) :
    a.Blames lookup more e := by
  rcases blames with ⟨r, member, unknown⟩ | ⟨r, member, foreign⟩
  · exact .inl ⟨r, included member, unknown⟩
  · exact .inr ⟨r, included member, foreign⟩

variable [AddCommSemigroup α]

theorem ownSummary_of_own (a : Aggregator α) (lookup : RegionLookup) (r : Report α)
    (known : lookup r.node = some a.region) (same : r.window = a.window) :
    a.ownSummary lookup r = .ok (Regional.ofReport lookup a.region a.window r).summary := by
  rw [ownSummary, Regional.ofReport_summary lookup r known same]
  simp [Regional.ofReport]

theorem ownSummary_of_foreign (a : Aggregator α) (lookup : RegionLookup) (r : Report α)
    (foreign : lookup r.node ≠ some a.region) :
    ∃ e, a.ownSummary lookup r = .error e ∧ a.Blames lookup [r] e := by
  cases found : lookup r.node with
  | none =>
    refine ⟨.unknownRegion r.node, ?_, .inl ⟨r, List.mem_singleton_self r, found, rfl⟩⟩
    simp [ownSummary, Summary.ofReport, found]
  | some other =>
    have differ : other ≠ a.region := fun same => foreign (found.trans (congrArg some same))
    refine ⟨.regionMismatch a.region other, ?_,
      .inr ⟨r, List.mem_singleton_self r, other, found, differ, rfl⟩⟩
    simp [ownSummary, Summary.ofReport, found, differ]

end Aggregator

/-! ### Splits of the work -/

/-- A way to split the work: which results are combined, and where null summaries are put in. -/
inductive Reduction (α : Type)
  | identity
  | report (r : Report α)
  | combine (left right : Reduction α)

namespace Reduction

variable {α : Type}

/-- The reports from left to right. -/
def reports : Reduction α → List (Report α)
  | identity => []
  | report r => [r]
  | combine left right => left.reports ++ right.reports

section

variable [Add α]

/-- What a reduction may give. A failure of one side is the failure of both, also where the other
side was not done or failed too. -/
inductive Yields (a : Aggregator α) (lookup : RegionLookup) :
    Reduction α → Except MergeError (Summary α) → Prop
  | identity : Yields a lookup identity (.ok (Summary.null a.region a.window))
  | report (r : Report α) : Yields a lookup (report r) (a.ownSummary lookup r)
  | combine {left right s t} : Yields a lookup left (.ok s) → Yields a lookup right (.ok t) →
      Yields a lookup (combine left right) (s.merge t)
  | left {left right e} : Yields a lookup left (.error e) →
      Yields a lookup (combine left right) (.error e)
  | right {left right e} : Yields a lookup right (.error e) →
      Yields a lookup (combine left right) (.error e)

/-- What a reduction gives if the left side is done before the right one. -/
def outcome (a : Aggregator α) (lookup : RegionLookup) : Reduction α →
    Except MergeError (Summary α)
  | identity => .ok (Summary.null a.region a.window)
  | report r => a.ownSummary lookup r
  | combine left right => do (← left.outcome a lookup).merge (← right.outcome a lookup)

theorem yields_outcome (a : Aggregator α) (lookup : RegionLookup) (work : Reduction α) :
    work.Yields a lookup (work.outcome a lookup) := by
  induction work with
  | identity => exact .identity
  | report r => exact .report r
  | combine left right ihl ihr =>
    rw [outcome]
    cases first : left.outcome a lookup with
    | error e => exact .left (first ▸ ihl)
    | ok s =>
      cases second : right.outcome a lookup with
      | error e => exact .right (second ▸ ihr)
      | ok t => exact .combine (first ▸ ihl) (second ▸ ihr)

/-- One report after another, from the left. -/
def inOrder (work : Reduction α) (l : List (Report α)) : Reduction α :=
  l.foldl (fun work r => combine work (report r)) work

omit [Add α] in
theorem inOrder_cons (work : Reduction α) (r : Report α) (rest : List (Report α)) :
    work.inOrder (r :: rest) = (combine work (report r)).inOrder rest := rfl

omit [Add α] in
theorem reports_inOrder (work : Reduction α) (l : List (Report α)) :
    (work.inOrder l).reports = work.reports ++ l := by
  induction l generalizing work with
  | nil => simp [inOrder]
  | cons r rest ih => simp [inOrder_cons, ih, reports]

theorem outcome_inOrder (a : Aggregator α) (lookup : RegionLookup) (work : Reduction α)
    (l : List (Report α)) :
    (work.inOrder l).outcome a lookup = (work.outcome a lookup).bind fun s =>
      l.foldlM (fun acc r => do acc.merge (← a.ownSummary lookup r)) s := by
  induction l generalizing work with
  | nil =>
    rw [inOrder, List.foldl_nil]
    cases work.outcome a lookup <;> rfl
  | cons r rest ih =>
    rw [inOrder_cons, ih, outcome]
    cases work.outcome a lookup with
    | error e => rfl
    | ok s => rfl

/-- Summarizing is itself one of the splits. -/
theorem summarize_yields (a : Aggregator α) (lookup : RegionLookup) :
    (identity.inOrder a.reports).Yields a lookup (a.summarize lookup) := by
  have yields := yields_outcome a lookup (identity.inOrder a.reports)
  rwa [outcome_inOrder] at yields

end

variable [AddCommSemigroup α]

/-- What an outcome says about the reports: a summary is their sum, an error blames one of them. -/
def Explains (a : Aggregator α) (lookup : RegionLookup) (reports : List (Report α)) :
    Except MergeError (Summary α) → Prop
  | .ok s => (∀ r ∈ reports, lookup r.node = some a.region) ∧
      s = ((reports.map (Regional.ofReport lookup a.region a.window)).sum).summary
  | .error e => a.Blames lookup reports e

theorem explains_of_yields (a : Aggregator α) (lookup : RegionLookup) (work : Reduction α)
    (outcome : Except MergeError (Summary α)) (yields : work.Yields a lookup outcome)
    (same : ∀ r ∈ work.reports, r.window = a.window) :
    Explains a lookup work.reports outcome := by
  -- by induction on the outcome's derivation; both sides of a split see only their own reports
  induction yields with
  | identity => exact ⟨by simp [reports], rfl⟩
  | report r =>
    -- a single report is a sum of one or the one to blame
    by_cases known : lookup r.node = some a.region
    · rw [Aggregator.ownSummary_of_own a lookup r known (same r (by simp [reports]))]
      simp [Explains, reports, known]
    · obtain ⟨e, failed, blames⟩ := Aggregator.ownSummary_of_foreign a lookup r known
      rw [failed]
      exact blames
  | combine _ _ ihl ihr =>
    simp only [reports, List.mem_append] at same
    obtain ⟨known_left, rfl⟩ := ihl fun r member => same r (.inl member)
    obtain ⟨known_right, rfl⟩ := ihr fun r member => same r (.inr member)
    rw [Regional.merge_summary]
    refine ⟨?_, by simp [reports]⟩
    intro r member
    rcases List.mem_append.1 member with member | member
    · exact known_left r member
    · exact known_right r member
  | left _ ih =>
    simp only [reports, List.mem_append] at same
    exact (ih fun r member => same r (.inl member)).mono (List.subset_append_left _ _)
  | right _ ih =>
    simp only [reports, List.mem_append] at same
    exact (ih fun r member => same r (.inr member)).mono (List.subset_append_right _ _)

end Reduction

namespace Aggregator

variable {α : Type} [AddCommSemigroup α]

omit [AddCommSemigroup α] in
theorem not_blames_windowMismatch (a : Aggregator α) (lookup : RegionLookup)
    (reports : List (Report α)) (one two : EstimationWindow) :
    ¬ a.Blames lookup reports (.windowMismatch one two) := by
  rintro (⟨_, _, _, same⟩ | ⟨_, _, _, _, _, same⟩)
  · cases same
  · cases same

omit [AddCommSemigroup α] in
theorem not_blames_of_own (a : Aggregator α) (lookup : RegionLookup) (e : MergeError)
    (known : ∀ r ∈ a.reports, lookup r.node = some a.region) : ¬ a.Blames lookup a.reports e := by
  rintro (⟨r, member, unknown, _⟩ | ⟨r, member, other, found, differ, _⟩)
  · simp [known r member] at unknown
  · simp only [known r member, Option.some.injEq] at found
    exact differ found.symm

theorem outcome_of_own (a : Aggregator α) (lookup : RegionLookup)
    (same : ∀ r ∈ a.reports, r.window = a.window)
    (known : ∀ r ∈ a.reports, lookup r.node = some a.region) (work : Reduction α)
    (split : work.reports = a.reports) (outcome : Except MergeError (Summary α))
    (yields : work.Yields a lookup outcome) :
    outcome =
      .ok ((a.reports.map (Regional.ofReport lookup a.region a.window)).sum).summary := by
  have explained := Reduction.explains_of_yields a lookup work outcome yields (split ▸ same)
  rw [split] at explained
  cases outcome with
  | ok s => rw [explained.2]
  | error e => exact absurd explained (not_blames_of_own a lookup e known)

theorem outcome_of_foreign (a : Aggregator α) (lookup : RegionLookup)
    (same : ∀ r ∈ a.reports, r.window = a.window)
    (foreign : ∃ r ∈ a.reports, lookup r.node ≠ some a.region) (work : Reduction α)
    (split : work.reports = a.reports) (outcome : Except MergeError (Summary α))
    (yields : work.Yields a lookup outcome) :
    ∃ e, outcome = .error e ∧ a.Blames lookup a.reports e := by
  have explained := Reduction.explains_of_yields a lookup work outcome yields (split ▸ same)
  rw [split] at explained
  cases outcome with
  | ok s =>
    obtain ⟨r, member, differ⟩ := foreign
    exact absurd (explained.1 r member) differ
  | error e => exact ⟨e, rfl, explained⟩

theorem summarize_of_own (a : Aggregator α) (lookup : RegionLookup)
    (same : ∀ r ∈ a.reports, r.window = a.window)
    (known : ∀ r ∈ a.reports, lookup r.node = some a.region) :
    a.summarize lookup =
      .ok ((a.reports.map (Regional.ofReport lookup a.region a.window)).sum).summary :=
  outcome_of_own a lookup same known _ (Reduction.reports_inOrder .identity a.reports) _
    (Reduction.summarize_yields a lookup)

/-- The outcome of every split of an aggregator that was filled by offering reports. Where all of
them are found in the region, it is the left fold of the converted reports, which covers exactly the
times at which something was reported; otherwise it is an error that blames one of them. -/
theorem summarize_independent_of_split (region : RegionName) (window : EstimationWindow)
    (offered : List (Report α)) (lookup : RegionLookup) :
    let a := collected region window offered
    (∀ work : Reduction α, ∃ outcome, work.Yields a lookup outcome) ∧
    ((∀ r ∈ a.reports, lookup r.node = some region) →
      ∃ parts s, a.reports.mapM (Summary.ofReport lookup) = .ok parts ∧
        parts.foldlM Summary.merge (Summary.null region window) = .ok s ∧
        a.summarize lookup = .ok s ∧
        (∀ work : Reduction α, work.reports = a.reports →
          ∀ outcome, work.Yields a lookup outcome → outcome = .ok s) ∧
        (s.isNull = true ↔ ¬ ∃ r ∈ a.reports, r.timestamp ≠ Timestamp.none) ∧
        ((∃ r ∈ a.reports, r.timestamp ≠ Timestamp.none) →
          IsLeast { t | t ≠ Timestamp.none ∧ ∃ r ∈ a.reports, r.timestamp = t } s.minTimestamp ∧
          IsGreatest { t | t ≠ Timestamp.none ∧ ∃ r ∈ a.reports, r.timestamp = t }
            s.maxTimestamp)) ∧
    ((∃ r ∈ a.reports, lookup r.node ≠ some region) →
      (∃ e, a.summarize lookup = .error e ∧ a.Blames lookup a.reports e) ∧
      ∀ work : Reduction α, work.reports = a.reports →
        ∀ outcome, work.Yields a lookup outcome →
          ∃ e, outcome = .error e ∧ a.Blames lookup a.reports e) ∧
    (∀ one two, a.summarize lookup ≠ .error (.windowMismatch one two) ∧
      ∀ work : Reduction α, work.reports = a.reports →
        ¬ work.Yields a lookup (.error (.windowMismatch one two))) := by
  intro a
  have shape : a = ⟨region, window, offered.filter fun r => r.window = window⟩ :=
    collected_eq region window offered
  have own_region : a.region = region := by rw [shape]
  have own_window : a.window = window := by rw [shape]
  have same : ∀ r ∈ a.reports, r.window = a.window := by
    intro r member
    rw [shape] at member ⊢
    simpa using (List.mem_filter.1 member).2
  -- nothing else is used of the way in which the aggregator was filled
  clear shape
  clear_value a
  subst own_region own_window
  have in_order := Reduction.reports_inOrder .identity a.reports
  refine ⟨fun work => ⟨_, work.yields_outcome a lookup⟩, ?_, ?_, ?_⟩
  · intro known
    let parts := a.reports.map (Regional.ofReport lookup a.region a.window)
    have folded := Regional.foldlM_merge 0 parts
    rw [zero_add, List.map_map] at folded
    have covers := Summary.sum_covers lookup a.region a.window a.reports
    refine ⟨_, parts.sum.summary, Regional.mapM_ofReport lookup a.reports known same, folded,
      summarize_of_own a lookup same known, outcome_of_own a lookup same known, ?_, ?_⟩
    · rw [covers.isNull_iff, Summary.reportedTimes_eq_empty_iff]
    · rintro ⟨r, member, live⟩
      have some : (Summary.reportedTimes a.reports).Nonempty := ⟨r.timestamp, live, r, member, rfl⟩
      exact ⟨covers.least some, covers.greatest some⟩
  · intro foreign
    exact ⟨outcome_of_foreign a lookup same foreign _ in_order _
      (Reduction.summarize_yields a lookup), outcome_of_foreign a lookup same foreign⟩
  · intro one two
    have never (work : Reduction α) (split : work.reports = a.reports) :
        ¬ work.Yields a lookup (.error (.windowMismatch one two)) := fun yields =>
      not_blames_windowMismatch a lookup work.reports one two
        (Reduction.explains_of_yields a lookup work _ yields (split ▸ same))
    exact ⟨fun failed => never _ in_order (failed ▸ Reduction.summarize_yields a lookup), never⟩

/-- Of three offered reports one is over another window and one reports nothing. -/
theorem summarize_independent_of_split_with_null_report :
    let r : Report Int :=
      { Report.null "n1" .short with timestamp := -5, serverCapacity := SortedMap.singleton .cpu 4 }
    let silent : Report Int := Report.null "n2" .short
    let late : Report Int := { Report.null "n1" .long with timestamp := 8 }
    let a := collected "east" .short [r, late, silent]
    let work : Reduction Int := .combine (.combine .identity (.report r)) (.report silent)
    (∃ s, a.summarize (fun _ => some "east") = .ok s ∧
      (∀ outcome, work.Yields a (fun _ => some "east") outcome → outcome = .ok s) ∧
      s.isNull = false ∧ IsLeast { t | t ≠ Timestamp.none ∧ ∃ r ∈ a.reports, r.timestamp = t }
        s.minTimestamp) ∧
    (∀ outcome, work.Yields a (fun _ => none) outcome →
      ∃ e, outcome = .error e ∧ a.Blames (fun _ => none) a.reports e) := by
  intro r silent late a work
  have member : r ∈ a.reports := List.mem_cons_self
  have live : ∃ r ∈ a.reports, r.timestamp ≠ Timestamp.none := ⟨r, member, by decide⟩
  obtain ⟨_, succeeds, _, _⟩ :=
    summarize_independent_of_split "east" .short [r, late, silent] fun _ => some "east"
  obtain ⟨_, _, fails, _⟩ :=
    summarize_independent_of_split "east" .short [r, late, silent] fun _ => none
  constructor
  · obtain ⟨_, s, _, _, done, always, null_iff, span⟩ := succeeds fun _ _ => rfl
    have not_null : s.isNull = false := Bool.eq_false_iff.2 fun null => null_iff.1 null live
    exact ⟨s, done, always work rfl, not_null, (span live).1⟩
  · exact (fails ⟨r, member, by simp⟩).2 work rfl

end Aggregator

end RegionNet
