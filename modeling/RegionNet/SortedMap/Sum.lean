import RegionNet.SortedMap

/-!
Sums of tables.

The sum of two tables has the keys of both; the values of a key that both have are added, and a
value that only one has stays as it is. Since a table of summable values is summable itself, nested
tables are added level by level with no further definition.
-/

namespace RegionNet.SortedMap

variable {κ κ' α : Type} [Ord κ] [Ord κ']

instance [Std.TransOrd κ] [Add α] : Add (SortedMap κ α) :=
  ⟨unionWith (· + ·)⟩

/-- Adds `v` to the value at `k`, which becomes `v` if the key is missing. -/
def addAt [Std.TransOrd κ] [Add α] (m : SortedMap κ α) (k : κ) (v : α) : SortedMap κ α :=
  m.upsert k fun
    | none => v
    | some w => w + v

/-- Moves every value to the key that `f` gives for its own, and adds, in the order of the old keys,
the values that meet. A key without an image is dropped with its value. -/
def rekey [Std.TransOrd κ'] [Add α] (m : SortedMap κ α) (f : κ → Option κ') : SortedMap κ' α :=
  m.entries.foldl
    (fun acc e =>
      match f e.1 with
      | none => acc
      | some k => acc.addAt k e.2) ∅

end RegionNet.SortedMap
