import Mathlib.Algebra.Group.Defs
import RegionNet.Proofs.SortedMap.Lookup
import RegionNet.SortedMap.Sum

/-!
# Tables add like their amounts

The sum of two tables is read key by key: an amount that only one table has stays, two amounts are
added. If amounts add associatively and commutatively then so do tables of amounts, with the empty
table as zero, and hence tables of tables at any depth.
-/

namespace RegionNet.SortedMap

variable {κ α : Type} [Ord κ] [Std.TransOrd κ] [Std.LawfulEqOrd κ]

theorem get?_add [Add α] (m n : SortedMap κ α) (k : κ) :
    (m + n).get? k = Option.merge (· + ·) (m.get? k) (n.get? k) :=
  get?_unionWith (· + ·) m n k

variable [AddCommSemigroup α]

private theorem merge_add_comm (x y : Option α) :
    Option.merge (· + ·) x y = Option.merge (· + ·) y x := by
  cases x <;> cases y <;> simp [add_comm]

private theorem merge_add_assoc (x y z : Option α) :
    Option.merge (· + ·) (Option.merge (· + ·) x y) z =
      Option.merge (· + ·) x (Option.merge (· + ·) y z) := by
  cases x <;> cases y <;> cases z <;> simp [add_assoc]

instance : Zero (SortedMap κ α) := ⟨∅⟩

instance : AddCommMonoid (SortedMap κ α) where
  add_assoc a b c := by
    apply ext_get?
    intro k
    simp only [get?_add, merge_add_assoc]
  add_comm a b := by
    apply ext_get?
    intro k
    simp only [get?_add, merge_add_comm]
  zero_add a := by
    apply ext_get?
    intro k
    rw [get?_add]
    exact Option.merge_none_left
  add_zero a := by
    apply ext_get?
    intro k
    rw [get?_add]
    exact Option.merge_none_right
  nsmul := nsmulRec

theorem empty_add (m : SortedMap κ α) : ∅ + m = m :=
  zero_add m

end RegionNet.SortedMap
