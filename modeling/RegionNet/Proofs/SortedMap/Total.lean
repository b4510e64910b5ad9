import Mathlib.Algebra.BigOperators.Group.List.Basic
import RegionNet.Proofs.SortedMap.Addition

/-!
# Sums of many tables

A key of the sum of some tables is a key of one of them at least, and its amount is the sum of the
amounts that they have there. Moving the amounts of a table to other keys is a sum, too: that of one
table for each amount that stays.
-/

namespace RegionNet

/-! ### Sums that may have nothing to add -/

/-- The sum of some amounts, if there are any. -/
def total {α : Type} [AddCommMonoid α] : List α → Option α
  | [] => none
  | a :: l => some (a :: l).sum

section Total

variable {α β ι : Type} [AddCommMonoid α] [AddCommMonoid β]

theorem total_cons (a : α) (l : List α) :
    total (a :: l) = Option.merge (· + ·) (some a) (total l) := by
  cases l with
  | nil => simp [total]
  | cons b l => simp [total]

theorem total_append (l l' : List α) :
    total (l ++ l') = Option.merge (· + ·) (total l) (total l') := by
  cases l with
  | nil => simp [total]
  | cons a l =>
    cases l' with
    | nil => simp [total]
    | cons b l' => simp [total, add_assoc]

theorem total_eq_none_iff (l : List α) : total l = none ↔ l = [] := by
  cases l <;> simp [total]

theorem total_eq_some (l : List α) (a : α) (present : total l = some a) : a = l.sum := by
  cases l with
  | nil => cases present
  | cons b l => exact (Option.some.inj present).symm

/-- Adding up part by part is adding up at once. -/
theorem total_flatMap (l : List ι) (parts : ι → List α) :
    total (l.flatMap parts) = total (l.filterMap fun i => total (parts i)) := by
  induction l with
  | nil => rfl
  | cons i l ih =>
    rw [List.flatMap_cons, total_append, ih]
    cases part : total (parts i) with
    | none => simp [part]
    | some a => simp [part, total_cons]

theorem total_map (f : α → β) (additive : ∀ a b, f (a + b) = f a + f b) (l : List α) :
    total (l.map f) = (total l).map f := by
  induction l with
  | nil => rfl
  | cons a l ih =>
    rw [List.map_cons, total_cons, total_cons, ih]
    cases total l with
    | none => rfl
    | some b => simp [additive]

theorem total_perm (l l' : List α) (perm : l.Perm l') : total l = total l' := by
  cases l with
  | nil => rw [List.nil_perm.1 perm]
  | cons a l =>
    cases l' with
    | nil => exact absurd perm.eq_nil (by simp)
    | cons b l' => exact congrArg some perm.sum_eq

end Total

namespace SortedMap

variable {κ κ' α β : Type} [Ord κ]

/-! ### Sums of tables -/

section Sum

variable [Std.TransOrd κ] [Std.LawfulEqOrd κ] [AddCommMonoid α]

theorem get?_sum (l : List (SortedMap κ α)) (k : κ) :
    l.sum.get? k = total (l.filterMap fun m => m.get? k) := by
  induction l with
  | nil => rfl
  | cons m l ih =>
    rw [List.sum_cons, get?_add, ih]
    cases present : m.get? k with
    | none => simp [present]
    | some a => simp [present, total_cons]

variable [DecidableEq κ]

theorem singleton_add (k : κ) (a b : α) :
    singleton k (a + b) = singleton k a + singleton k b := by
  apply ext_get?
  intro k'
  rw [get?_add]
  by_cases same : k' = k
  · simp [get?_singleton, same]
  · simp [get?_singleton, same]

theorem addAt_eq (m : SortedMap κ α) (k : κ) (a : α) : m.addAt k a = m + singleton k a := by
  apply ext_get?
  intro k'
  rw [get?_add, get?_singleton]
  by_cases same : k' = k
  · rw [addAt, same, get?_upsert_self]
    cases m.get? k <;> simp
  · rw [addAt, get?_upsert_of_ne m k k' _ same]
    simp [same]

end Sum

section Rekey

variable [Ord κ'] [Std.TransOrd κ'] [Std.LawfulEqOrd κ'] [DecidableEq κ'] [AddCommMonoid α]

/-- Every amount whose key has an image is a table of its own. -/
theorem rekey_eq_sum (m : SortedMap κ α) (f : κ → Option κ') :
    m.rekey f = (m.entries.filterMap fun e => (f e.1).map fun k => singleton k e.2).sum := by
  have run (step : SortedMap κ' α → κ × α → SortedMap κ' α)
      (skips : ∀ acc e, f e.1 = none → step acc e = acc)
      (adds : ∀ acc e k, f e.1 = some k → step acc e = acc.addAt k e.2)
      (l : List (κ × α)) (start : SortedMap κ' α) :
      l.foldl step start =
        start + (l.filterMap fun e => (f e.1).map fun k => singleton k e.2).sum := by
    induction l generalizing start with
    | nil => simp
    | cons e l ih =>
      rw [List.foldl_cons, ih]
      cases image : f e.1 with
      | none => simp [image, skips]
      | some k => simp [image, adds _ _ k, addAt_eq, add_assoc]
  refine (run _ ?_ ?_ m.entries ∅).trans (empty_add _)
  · intro acc e image
    simp only [image]
  · intro acc e k image
    simp only [image]

theorem get?_rekey (m : SortedMap κ α) (f : κ → Option κ') (k : κ') :
    (m.rekey f).get? k = total ((m.entries.filter fun e => f e.1 = some k).map Prod.snd) := by
  rw [rekey_eq_sum, get?_sum, List.filterMap_filterMap]
  congr 1
  induction m.entries with
  | nil => rfl
  | cons e l ih =>
    cases image : f e.1 with
    | none => simp [image, ih]
    | some k' =>
      by_cases same : k' = k
      · simp [image, ih, same, get?_singleton]
      · simp [image, ih, same, get?_singleton, Ne.symm same]

end Rekey

/-! ### Keys -/

variable [Std.TransOrd κ] [Std.LawfulEqOrd κ]

/-- Keys are listed in one order, whatever their values are. -/
theorem keys_eq_of_contains (m : SortedMap κ α) (n : SortedMap κ β)
    (same : ∀ k, m.contains k = n.contains k) : m.keys = n.keys := by
  have equal : (m.map fun _ => ()) = n.map fun _ => () := by
    apply ext_get?
    intro k
    have both := same k
    rw [get?_map, get?_map]
    revert both
    simp only [contains]
    cases m.get? k <;> cases n.get? k <;> simp
  rw [← keys_map m fun _ => (), equal, keys_map]

theorem contains_ofList (l : List (κ × α)) (k : κ) :
    (ofList l).contains k = true ↔ ∃ v, (k, v) ∈ l := by
  have run (l : List (κ × α)) (start : SortedMap κ α) :
      (l.foldl (fun m e => m.insert e.1 e.2) start).contains k = true ↔
        start.contains k = true ∨ ∃ v, (k, v) ∈ l := by
    induction l generalizing start with
    | nil => simp
    | cons e l ih =>
      rw [List.foldl_cons, ih, contains_insert, or_assoc]
      simp [Prod.ext_iff, exists_or]
  rw [ofList, run]
  simp [contains]

end SortedMap

end RegionNet
