import Mathlib.Algebra.Group.Int.Defs
import Mathlib.Order.Bounds.Basic
import RegionNet.Proofs.SortedMap.Addition
import RegionNet.Report.Summary

/-!
# Summaries of one region and one window form a commutative monoid

The null time makes the span of a summary a hull with a hole: a summary whose span is null does not
widen another. Associativity then rests on one fact, that two spans of which neither is null never
have a null hull; it needs both spans to be in order, which every way to build a summary keeps.
The tables of a summary add like their amounts.
-/

namespace RegionNet

namespace Timestamp

/-- Times are ordered as the numbers that they are. -/
scoped instance : LinearOrder Timestamp where
  le_refl := Int64.le_refl
  le_trans _ _ _ := Int64.le_trans
  le_antisymm _ _ := Int64.le_antisymm
  le_total := Int64.le_total
  lt_iff_le_not_ge a b := Std.lt_iff_le_and_not_ge
  toDecidableLE := inferInstance
  toDecidableEq := inferInstance

end Timestamp

namespace Summary

variable {α : Type}

/-- The span does not end before it starts. -/
def Ordered (s : Summary α) : Prop :=
  s.minTimestamp ≤ s.maxTimestamp

instance (s : Summary α) : Decidable s.Ordered :=
  inferInstanceAs (Decidable (s.minTimestamp ≤ s.maxTimestamp))

open scoped Timestamp

theorem isNull_iff (s : Summary α) :
    s.isNull = true ↔ s.minTimestamp = Timestamp.none ∧ s.maxTimestamp = Timestamp.none := by
  simp [isNull]

/-! ### Spans -/

theorem span_of_null_left (one two : Summary α) (null : one.isNull = true) :
    span one two = (two.minTimestamp, two.maxTimestamp) := by
  simp [span, null]

theorem span_of_null_right (one two : Summary α) (null : two.isNull = true) :
    span one two = (one.minTimestamp, one.maxTimestamp) := by
  -- if both are null then both spans are the null time, and either is the answer
  by_cases both : one.isNull = true
  · simp [span, both, (isNull_iff one).1 both, (isNull_iff two).1 null]
  · simp [span, both, null]

theorem span_of_live (one two : Summary α) (first : ¬ one.isNull = true)
    (second : ¬ two.isNull = true) :
    span one two =
      (min one.minTimestamp two.minTimestamp, max one.maxTimestamp two.maxTimestamp) := by
  simp [span, first, second]

theorem span_comm (one two : Summary α) : span one two = span two one := by
  by_cases first : one.isNull = true
  · rw [span_of_null_left one two first, span_of_null_right two one first]
  · by_cases second : two.isNull = true
    · rw [span_of_null_right one two second, span_of_null_left two one second]
    · rw [span_of_live one two first second, span_of_live two one second first, min_comm, max_comm]

theorem span_le (one two : Summary α) (first : one.Ordered) (second : two.Ordered) :
    (span one two).1 ≤ (span one two).2 := by
  simp only [span]
  split
  · exact second
  · split
    · exact first
    · exact (min_le_left _ _).trans (first.trans (le_max_left _ _))

/-- The hull of two spans is null only if both are. One of them has to be in order for that. -/
theorem span_eq_none_iff (one two : Summary α) (first : one.Ordered) :
    (span one two).1 = Timestamp.none ∧ (span one two).2 = Timestamp.none ↔
      one.isNull = true ∧ two.isNull = true := by
  by_cases null_one : one.isNull = true
  · rw [span_of_null_left one two null_one, ← isNull_iff two]
    simp [null_one]
  · by_cases null_two : two.isNull = true
    · rw [span_of_null_right one two null_two, ← isNull_iff one]
      simp [null_two]
    · rw [span_of_live one two null_one null_two]
      simp only [null_one, null_two, Bool.false_eq_true, and_self, iff_false]
      -- both ends of the first span lie between the least start and the greatest end
      rintro ⟨least, greatest⟩
      apply null_one
      have start : Timestamp.none ≤ one.minTimestamp := least ▸ min_le_left _ _
      have stop : one.maxTimestamp ≤ Timestamp.none := greatest ▸ le_max_left _ _
      rw [isNull_iff]
      exact ⟨le_antisymm (first.trans stop) start, le_antisymm stop (start.trans first)⟩

variable [Add α]

/-! ### What a merge gives -/

/-- Two summaries added up, whatever their regions and windows are. -/
def join (one two : Summary α) : Summary α where
  region := one.region
  minTimestamp := (span one two).1
  maxTimestamp := (span one two).2
  window := one.window
  serverCapacity := one.serverCapacity + two.serverCapacity
  serverLoad := one.serverLoad + two.serverLoad
  serverDemand := one.serverDemand + two.serverDemand
  networkCapacity := one.networkCapacity + two.networkCapacity
  networkLoad := one.networkLoad + two.networkLoad
  networkDemand := one.networkDemand + two.networkDemand

theorem merge_eq_join (one two : Summary α) (region : one.region = two.region)
    (window : one.window = two.window) : merge one two = .ok (join one two) := by
  simp [merge, join, region, window]

theorem merge_of_region_ne (one two : Summary α) (region : one.region ≠ two.region) :
    merge one two = .error (.regionMismatch one.region two.region) := by
  simp [merge, region]

theorem merge_of_window_ne (one two : Summary α) (region : one.region = two.region)
    (window : one.window ≠ two.window) :
    merge one two = .error (.windowMismatch one.window two.window) := by
  simp [merge, region, window]

theorem merge_eq_ok (one two s : Summary α) (merged : merge one two = .ok s) :
    one.region = two.region ∧ one.window = two.window ∧ s = join one two := by
  by_cases region : one.region = two.region
  · by_cases window : one.window = two.window
    · rw [merge_eq_join one two region window] at merged
      exact ⟨region, window, (Except.ok.inj merged).symm⟩
    · rw [merge_of_window_ne one two region window] at merged
      cases merged
  · rw [merge_of_region_ne one two region] at merged
    cases merged

theorem join_ordered (one two : Summary α) (first : one.Ordered) (second : two.Ordered) :
    (join one two).Ordered :=
  span_le one two first second

theorem join_isNull_iff (one two : Summary α) (first : one.Ordered) :
    (join one two).isNull = true ↔ one.isNull = true ∧ two.isNull = true := by
  rw [isNull_iff, ← span_eq_none_iff one two first]
  rfl

omit [Add α] in
/-- A span is read off the times of its summaries alone. -/
theorem span_congr (one one' two two' : Summary α)
    (first : (one.minTimestamp, one.maxTimestamp) = (one'.minTimestamp, one'.maxTimestamp))
    (second : (two.minTimestamp, two.maxTimestamp) = (two'.minTimestamp, two'.maxTimestamp)) :
    span one two = span one' two' := by
  simp only [Prod.mk.injEq] at first second
  simp [span, isNull, first, second]

theorem span_join_assoc (one two three : Summary α) (first : one.Ordered) (second : two.Ordered) :
    span (join one two) three = span one (join two three) := by
  -- a null summary drops out of both sides, wherever it stands
  by_cases null_one : one.isNull = true
  · rw [span_of_null_left one _ null_one]
    exact span_congr _ _ _ _ (span_of_null_left one two null_one) rfl
  by_cases null_three : three.isNull = true
  · rw [span_of_null_right _ three null_three]
    exact span_congr _ _ _ _ rfl (span_of_null_right two three null_three).symm
  by_cases null_two : two.isNull = true
  · exact span_congr _ _ _ _ (span_of_null_right one two null_two)
      (span_of_null_left two three null_two).symm
  -- neither hull is null, so that all four are a minimum and a maximum
  have live_left : ¬ (join one two).isNull = true := fun null =>
    null_one ((join_isNull_iff one two first).1 null).1
  have live_right : ¬ (join two three).isNull = true := fun null =>
    null_two ((join_isNull_iff two three second).1 null).1
  rw [span_of_live _ _ live_left null_three, span_of_live _ _ null_one live_right]
  simp only [join, span_of_live _ _ null_one null_two, span_of_live _ _ null_two null_three,
    min_assoc, max_assoc]

theorem ofReport_ordered (lookup : RegionLookup) (r : Report α) (s : Summary α)
    (converted : ofReport lookup r = .ok s) : s.Ordered := by
  simp only [ofReport] at converted
  split at converted
  · cases converted
  · cases converted
    exact le_refl r.timestamp

/-! ### The monoid of a region and a window -/

variable {region : RegionName} {window : EstimationWindow}

/-- What is merged for one region and one window. -/
structure InClass (region : RegionName) (window : EstimationWindow) (s : Summary α) : Prop where
  region_eq : s.region = region
  window_eq : s.window = window
  ordered : s.Ordered

omit [Add α] in
theorem null_inClass (region : RegionName) (window : EstimationWindow) :
    InClass region window (null region window : Summary α) :=
  ⟨rfl, rfl, le_refl _⟩

theorem join_inClass (one two : Summary α) (first : InClass region window one)
    (second : InClass region window two) : InClass region window (join one two) :=
  ⟨first.region_eq, first.window_eq, join_ordered one two first.ordered second.ordered⟩

end Summary

/-- A summary of one region over one window, whose span is in order. -/
@[ext]
structure Regional (α : Type) (region : RegionName) (window : EstimationWindow) where
  summary : Summary α
  inClass : Summary.InClass region window summary

namespace Regional

open Summary

variable {α : Type} {region : RegionName} {window : EstimationWindow}

instance : Zero (Regional α region window) := ⟨null region window, null_inClass region window⟩

instance [Add α] : Add (Regional α region window) :=
  ⟨fun one two =>
    ⟨join one.summary two.summary,
      join_inClass one.summary two.summary one.inClass two.inClass⟩⟩

theorem merge_summary [Add α] (one two : Regional α region window) :
    Summary.merge one.summary two.summary = .ok (one + two).summary :=
  merge_eq_join one.summary two.summary
    (one.inClass.region_eq.trans two.inClass.region_eq.symm)
    (one.inClass.window_eq.trans two.inClass.window_eq.symm)

variable [AddCommSemigroup α]

protected theorem add_comm (one two : Regional α region window) : one + two = two + one := by
  apply Regional.ext
  change join one.summary two.summary = join two.summary one.summary
  simp only [join, span_comm one.summary two.summary, add_comm, one.inClass.region_eq,
    two.inClass.region_eq, one.inClass.window_eq, two.inClass.window_eq]

protected theorem add_assoc (one two three : Regional α region window) :
    one + two + three = one + (two + three) := by
  apply Regional.ext
  change join (join one.summary two.summary) three.summary =
    join one.summary (join two.summary three.summary)
  have spans := span_join_assoc one.summary two.summary three.summary one.inClass.ordered
    two.inClass.ordered
  rw [join, spans]
  simp only [join, add_assoc]

protected theorem zero_add (one : Regional α region window) : 0 + one = one := by
  obtain ⟨s, rfl, rfl, ordered⟩ := one
  apply Regional.ext
  change join (null s.region s.window) s = s
  have null_left : (null s.region s.window : Summary α).isNull = true := by
    simp [isNull_iff, null]
  rw [join, span_of_null_left _ _ null_left]
  simp only [null, SortedMap.empty_add]

instance : AddCommMonoid (Regional α region window) where
  add_assoc := Regional.add_assoc
  add_comm := Regional.add_comm
  zero_add := Regional.zero_add
  add_zero one := (Regional.add_comm one 0).trans (Regional.zero_add one)
  nsmul := nsmulRec

end Regional

namespace Summary

variable {α : Type} [AddCommSemigroup α]

/-- Merging is a commutative monoid on the summaries of one region over one window whose spans are
in order, which every null summary, every converted report and every merge of such summaries is. It
does not fail there, and fails for every two summaries that differ in region or in window. -/
theorem merge_monoid_laws (region : RegionName) (window : EstimationWindow) :
    (null region window : Summary α).Ordered ∧
    (∀ (lookup : RegionLookup) (r : Report α) (s : Summary α),
      ofReport lookup r = .ok s → s.Ordered) ∧
    (∀ one two s : Summary α, one.Ordered → two.Ordered → merge one two = .ok s → s.Ordered) ∧
    (∀ a b c : Summary α, InClass region window a → InClass region window b →
      InClass region window c →
      ∃ ab bc abc, merge a b = .ok ab ∧ merge b a = .ok ab ∧ merge b c = .ok bc ∧
        merge ab c = .ok abc ∧ merge a bc = .ok abc ∧
        merge a (null region window) = .ok a ∧ merge (null region window) a = .ok a) ∧
    (∀ one two : Summary α, one.region ≠ two.region →
      merge one two = .error (.regionMismatch one.region two.region)) ∧
    (∀ one two : Summary α, one.region = two.region → one.window ≠ two.window →
      merge one two = .error (.windowMismatch one.window two.window)) := by
  refine ⟨(null_inClass region window).ordered, ofReport_ordered, ?_, ?_, merge_of_region_ne,
    merge_of_window_ne⟩
  · intro one two s first second merged
    obtain ⟨_, _, rfl⟩ := merge_eq_ok one two s merged
    exact join_ordered one two first second
  · intro a b c in_a in_b in_c
    -- each law is the one of the monoid, read through what a merge gives
    let x : Regional α region window := ⟨a, in_a⟩
    let y : Regional α region window := ⟨b, in_b⟩
    let z : Regional α region window := ⟨c, in_c⟩
    have commutes : merge b a = .ok (x + y).summary := by
      rw [add_comm x y]
      exact Regional.merge_summary y x
    have associates : merge a (y + z).summary = .ok (x + y + z).summary := by
      rw [add_assoc x y z]
      exact Regional.merge_summary x (y + z)
    have right_identity : merge a (null region window) = .ok a := by
      have merged := Regional.merge_summary x 0
      rwa [add_zero x] at merged
    have left_identity : merge (null region window) a = .ok a := by
      have merged := Regional.merge_summary 0 x
      rwa [zero_add x] at merged
    exact ⟨(x + y).summary, (y + z).summary, (x + y + z).summary, Regional.merge_summary x y,
      commutes, Regional.merge_summary y z, Regional.merge_summary (x + y) z, associates,
      right_identity, left_identity⟩

/-- The laws at a summary that is null by its times but has a table, one that starts before the null
time, and one at the end of time. -/
theorem merge_monoid_laws_around_null_time :
    let a : Summary Int :=
      { null "east" .short with serverCapacity := SortedMap.singleton .cpu 4 }
    let b : Summary Int :=
      { null "east" .short with
        minTimestamp := -7, maxTimestamp := 3, serverCapacity := SortedMap.singleton .cpu 2 }
    let c : Summary Int :=
      { null "east" .short with minTimestamp := 9, maxTimestamp := Int64.maxValue }
    ∃ ab bc abc, merge a b = .ok ab ∧ merge b a = .ok ab ∧ merge b c = .ok bc ∧
      merge ab c = .ok abc ∧ merge a bc = .ok abc ∧
      merge a (null "east" .short) = .ok a ∧ merge (null "east" .short) a = .ok a := by
  intro a b c
  obtain ⟨_, _, _, laws, _⟩ := merge_monoid_laws (α := Int) "east" .short
  exact laws a b c ⟨rfl, rfl, by decide⟩ ⟨rfl, rfl, by decide⟩ ⟨rfl, rfl, by decide⟩

end Summary

end RegionNet
