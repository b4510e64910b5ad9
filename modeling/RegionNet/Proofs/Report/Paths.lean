import RegionNet.Proofs.Report.Merging

/-!
# What a merge does along every path

The tables of a summary are nested up to three deep. At each depth the merged table has the keys of
both tables and no others. What only one of them has below a key stays as it is, be it empty; what
both have is merged in the same way one level further down, until two amounts are added.
-/

namespace RegionNet

namespace SortedMap

variable {κ α : Type} [Ord κ]

/-- A table with the keys of two others. A value that one of them has alone is kept, and two values
of one key have come to a third by `R`. -/
structure MergedBy (R : α → α → α → Prop) (one two merged : SortedMap κ α) : Prop where
  keys : ∀ k, k ∈ merged.keys ↔ k ∈ one.keys ∨ k ∈ two.keys
  left : ∀ k v, one.get? k = some v → two.get? k = none → merged.get? k = some v
  right : ∀ k v, one.get? k = none → two.get? k = some v → merged.get? k = some v
  both : ∀ k v w, one.get? k = some v → two.get? k = some w →
    ∃ u, merged.get? k = some u ∧ R v w u

variable [Std.TransOrd κ] [Std.LawfulEqOrd κ]

/-- A merge that combines two values of one key as `R` says, at whatever depth `R` speaks of. -/
theorem mergedBy_unionWith (R : α → α → α → Prop) (f : α → α → α) (combines : ∀ v w, R v w (f v w))
    (one two : SortedMap κ α) : MergedBy R one two (unionWith f one two) where
  keys k := by
    simp only [mem_keys_iff, get?_unionWith]
    cases one.get? k <;> cases two.get? k <;> simp
  left k v first second := by simp [get?_unionWith, first, second]
  right k v first second := by simp [get?_unionWith, first, second]
  both k v w first second := ⟨f v w, by simp [get?_unionWith, first, second], combines v w⟩

/-- The second amount is added to the first. -/
def Added [Add α] (one two sum : α) : Prop :=
  sum = one + two

section

variable {κ' κ'' : Type} [Ord κ'] [Ord κ''] [Std.TransOrd κ'] [Std.LawfulEqOrd κ']
  [Std.TransOrd κ''] [Std.LawfulEqOrd κ''] [Add α]

theorem mergedBy_add (one two : SortedMap κ α) : MergedBy Added one two (one + two) :=
  mergedBy_unionWith Added (· + ·) (fun _ _ => rfl) one two

theorem mergedBy_add_nested (one two : SortedMap κ (SortedMap κ' α)) :
    MergedBy (MergedBy Added) one two (one + two) :=
  mergedBy_unionWith _ (· + ·) mergedBy_add one two

theorem mergedBy_add_nested_twice (one two : SortedMap κ (SortedMap κ' (SortedMap κ'' α))) :
    MergedBy (MergedBy (MergedBy Added)) one two (one + two) :=
  mergedBy_unionWith _ (· + ·) mergedBy_add_nested one two

end

end SortedMap

namespace Summary

open SortedMap (MergedBy Added)

variable {α : Type} [Add α]

/-- Each table of a summary is merged to its full depth. -/
structure MergedTables (one two merged : Summary α) : Prop where
  serverCapacity : MergedBy Added one.serverCapacity two.serverCapacity merged.serverCapacity
  serverLoad : MergedBy (MergedBy (MergedBy Added)) one.serverLoad two.serverLoad merged.serverLoad
  serverDemand :
    MergedBy (MergedBy (MergedBy Added)) one.serverDemand two.serverDemand merged.serverDemand
  networkCapacity :
    MergedBy (MergedBy Added) one.networkCapacity two.networkCapacity merged.networkCapacity
  networkLoad : MergedBy (MergedBy Added) one.networkLoad two.networkLoad merged.networkLoad
  networkDemand : MergedBy (MergedBy Added) one.networkDemand two.networkDemand merged.networkDemand

/-- No path of two summaries of one region and one window is dropped, made up or counted twice,
whatever the addition of amounts is. -/
theorem merge_keeps_paths (one two : Summary α) (region : one.region = two.region)
    (window : one.window = two.window) :
    ∃ merged, merge one two = .ok merged ∧ MergedTables one two merged :=
  ⟨join one two, merge_eq_join one two region window,
    SortedMap.mergedBy_add _ _, SortedMap.mergedBy_add_nested_twice _ _,
    SortedMap.mergedBy_add_nested_twice _ _, SortedMap.mergedBy_add_nested _ _,
    SortedMap.mergedBy_add_nested _ _, SortedMap.mergedBy_add_nested _ _⟩

/-- Loads of doubles with a service that one summary has without any region, a region that the other
one has without any attribute, and an amount that both have. -/
theorem merge_keeps_paths_of_empty_tables :
    let shared : NodeLoad Float := .singleton .cpu 0.1
    let one : Summary Float :=
      { null "east" .short with
        serverLoad := .ofList [("db", ∅), ("web", .ofList [("east", shared)])] }
    let two : Summary Float :=
      { null "east" .short with
        serverLoad := .singleton "web" (.ofList [("east", shared), ("west", ∅)]) }
    ∃ merged, merge one two = .ok merged ∧ MergedTables one two merged ∧
      merged.serverLoad.get? "db" = some ∅ ∧
      (merged.serverLoad.get? "web").bind (·.get? "west") = some ∅ := by
  intro shared one two
  obtain ⟨merged, merges, tables⟩ := merge_keeps_paths one two rfl rfl
  have db := tables.serverLoad.left "db" ∅ (by decide +kernel) (by decide +kernel)
  obtain ⟨web, both, regions⟩ := tables.serverLoad.both "web"
    (.ofList [("east", shared)]) (.ofList [("east", shared), ("west", ∅)])
    (by decide +kernel) (by decide +kernel)
  have west := regions.right "west" ∅ (by decide +kernel) (by decide +kernel)
  exact ⟨merged, merges, tables, db, by rw [both]; exact west⟩

end Summary

end RegionNet
