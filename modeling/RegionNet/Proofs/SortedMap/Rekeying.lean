import Mathlib.Data.List.Induction
import RegionNet.Attribute
import RegionNet.Name
import RegionNet.Proofs.SortedMap.Total

/-!
# Amounts under other keys

Moving a table of tables to other keys adds up the tables whose keys have one image, from the least
key to the greatest, and so it adds up their amounts attribute by attribute in that order. If
amounts add exactly, it does not matter whether two tables are added before the move or after it.
-/

namespace RegionNet.SortedMap

/-- The sum of some amounts from the first to the last, if there are any. -/
def leftSum {α : Type} [Add α] : List α → Option α
  | [] => none
  | a :: l => some (l.foldl (· + ·) a)

section LeftSum

variable {κ α : Type} [Add α]

theorem leftSum_concat (l : List α) (a : α) :
    leftSum (l ++ [a]) = Option.merge (· + ·) (leftSum l) (some a) := by
  cases l with
  | nil => rfl
  | cons b l => simp [leftSum, List.foldl_append]

theorem isSome_leftSum (l : List α) : (leftSum l).isSome = true ↔ l ≠ [] := by
  cases l <;> simp [leftSum]

/-- Tables are added key by key. -/
theorem get?_leftSum [Ord κ] [Std.TransOrd κ] [Std.LawfulEqOrd κ] (l : List (SortedMap κ α))
    (k : κ) : (leftSum l).bind (·.get? k) = leftSum (l.filterMap (·.get? k)) := by
  -- from the end, since the last table is added last
  induction l using List.reverseRecOn with
  | nil => rfl
  | append_singleton l m ih =>
    rw [leftSum_concat, List.filterMap_append]
    cases first : leftSum l with
    | none =>
      have empty : l = [] := by
        by_contra inhabited
        rw [← ne_eq, ← isSome_leftSum, first] at inhabited
        cases inhabited
      cases present : m.get? k <;> simp [empty, present, leftSum]
    | some n =>
      rw [first, Option.bind_some] at ih
      cases present : m.get? k with
      | none => simp [get?_add, ih, present]
      | some a => simp [get?_add, ih, present, leftSum_concat]

end LeftSum

/-! ### Amounts by key and attribute -/

section Amounts

variable {κ κ' κ'' α : Type} [Ord κ] [Ord κ''] [DecidableEq κ']

/-- The amount under an attribute in the table of a key. -/
def amount? (m : SortedMap κ (SortedMap κ'' α)) (k : κ) (a : κ'') : Option α :=
  (m.get? k).bind (·.get? a)

/-- The amounts under one attribute of all keys with one image, from the least key to the
greatest. -/
def amountsInto (m : SortedMap κ (SortedMap κ'' α)) (f : κ → Option κ') (n : κ') (a : κ'') :
    List α :=
  m.keys.filterMap fun k => if f k = some n then m.amount? k a else none

variable [Std.TransOrd κ] [Std.LawfulEqOrd κ]

theorem amountsInto_eq_filterMap_filter (m : SortedMap κ (SortedMap κ'' α)) (f : κ → Option κ')
    (n : κ') (a : κ'') :
    m.amountsInto f n a =
      ((m.entries.filter fun e => f e.1 = some n).map Prod.snd).filterMap (·.get? a) := by
  rw [amountsInto, keys, List.filterMap_map, List.filterMap_map, List.filterMap_filter]
  apply List.filterMap_congr
  intro e member
  have present : m.get? e.1 = some e.2 := (get?_eq_some_iff m e.1 e.2).2 member
  simp [amount?, present]

theorem amountsInto_ne_nil_iff (m : SortedMap κ (SortedMap κ'' α)) (f : κ → Option κ') (n : κ')
    (a : κ'') : m.amountsInto f n a ≠ [] ↔ ∃ k, f k = some n ∧ (m.amount? k a).isSome = true := by
  rw [← List.isEmpty_eq_false_iff, List.isEmpty_eq_false_iff_exists_mem]
  simp only [amountsInto, List.mem_filterMap, mem_keys_iff, Option.isSome_iff_exists]
  constructor
  · rintro ⟨b, k, -, present⟩
    split at present
    next image => exact ⟨k, image, b, present⟩
    next => cases present
  · rintro ⟨k, image, b, present⟩
    obtain ⟨inner, table, _⟩ := Option.bind_eq_some_iff.1 present
    exact ⟨b, k, ⟨inner, table⟩, by rwa [if_pos image]⟩

end Amounts

variable {κ κ' κ'' α β : Type} [Ord κ] [Ord κ'] [Std.TransOrd κ'] [Std.LawfulEqOrd κ']
  [DecidableEq κ']

/-! ### What stands under a new key -/

section Add

variable [Add α]

omit [Std.LawfulEqOrd κ'] [DecidableEq κ'] in
theorem rekey_eq_foldl (m : SortedMap κ α) (f : κ → Option κ') :
    m.rekey f = m.entries.foldl (fun acc e => (f e.1).elim acc (acc.addAt · e.2)) ∅ := by
  rw [rekey]
  congr 1
  funext acc e
  cases f e.1 <;> rfl

theorem get?_addAt (m : SortedMap κ' α) (k k' : κ') (a : α) :
    (m.addAt k a).get? k' =
      if k' = k then Option.merge (· + ·) (m.get? k) (some a) else m.get? k' := by
  split
  next same =>
    rw [addAt, same, get?_upsert_self]
    cases m.get? k <;> rfl
  next differ => rw [addAt, get?_upsert_of_ne m k k' _ differ]

/-- Under a new key stands the sum of what stood under the keys that it is the image of. -/
theorem get?_rekey_eq_leftSum (m : SortedMap κ α) (f : κ → Option κ') (n : κ') :
    (m.rekey f).get? n = leftSum ((m.entries.filter fun e => f e.1 = some n).map Prod.snd) := by
  rw [rekey_eq_foldl]
  induction m.entries using List.reverseRecOn with
  | nil => rfl
  | append_singleton l e ih =>
    rw [List.foldl_append, List.filter_append, List.foldl_cons, List.foldl_nil]
    cases image : f e.1 with
    | none => simp [image, ih]
    | some k =>
      rw [Option.elim_some, get?_addAt]
      by_cases same : n = k
      · subst same
        simp [image, leftSum_concat, ih]
      · simp [same, Ne.symm same, image, ih]

/-- A table moves under the image of its key, and a new key is the image of an old one. -/
theorem mem_keys_rekey_iff (m : SortedMap κ α) (f : κ → Option κ') (n : κ') :
    n ∈ (m.rekey f).keys ↔ ∃ k ∈ m.keys, f k = some n := by
  rw [mem_keys_iff, get?_rekey_eq_leftSum, isSome_leftSum, ne_eq, List.map_eq_nil_iff,
    List.filter_eq_nil_iff]
  simp [keys]

end Add

/-! ### Exact addition -/

section Exact

variable [AddCommMonoid α]

/-- What a single amount comes to. -/
def image (f : κ → Option κ') (e : κ × α) : SortedMap κ' α :=
  (f e.1).elim 0 (singleton · e.2)

omit [Ord κ] in
theorem image_add (f : κ → Option κ') (k : κ) (a b : α) :
    image f (k, a + b) = image f (k, a) + image f (k, b) := by
  cases target : f k with
  | none => simp [image, target]
  | some n => simp [image, target, singleton_add]

theorem rekey_eq_sum_image (m : SortedMap κ α) (f : κ → Option κ') :
    m.rekey f = (m.entries.map (image f)).sum := by
  rw [rekey_eq_sum]
  induction m.entries with
  | nil => rfl
  | cons e l ih => cases target : f e.1 <;> simp [image, target, ih]

variable [Std.TransOrd κ] [Std.LawfulEqOrd κ]

omit [Std.TransOrd κ] in
/-- An amount that is added to an entry is added to the image of the entry. -/
theorem sum_image_upsertEntries (f : κ → Option κ') (k : κ) (a : α) (add : Option α → α)
    (new : add none = a) (old : ∀ b, add (some b) = b + a) (l : List (κ × α)) :
    ((upsertEntries k add l).map (image f)).sum = (l.map (image f)).sum + image f (k, a) := by
  induction l with
  | nil => simp [upsertEntries, new]
  | cons e l ih =>
    rw [upsertEntries]
    split
    next => simp [new, add_comm]
    next same =>
      rw [Std.LawfulEqCmp.eq_of_compare same, old, List.map_cons, List.sum_cons, image_add,
        List.map_cons, List.sum_cons, add_right_comm]
    next => rw [List.map_cons, List.sum_cons, ih, List.map_cons, List.sum_cons, add_assoc]

theorem rekey_addAt (m : SortedMap κ α) (f : κ → Option κ') (k : κ) (a : α) :
    (m.addAt k a).rekey f = m.rekey f + image f (k, a) := by
  rw [rekey_eq_sum_image, rekey_eq_sum_image]
  exact sum_image_upsertEntries f k a _ rfl (fun _ => rfl) m.entries

/-- Adding two tables is adding the entries of the second to the first. -/
theorem rekey_add (x y : SortedMap κ α) (f : κ → Option κ') :
    (x + y).rekey f = x.rekey f + y.rekey f := by
  have run (l : List (κ × α)) (start : SortedMap κ α) :
      (l.foldl (fun acc e => acc.addAt e.1 e.2) start).rekey f =
        start.rekey f + (l.map (image f)).sum := by
    induction l generalizing start with
    | nil => simp
    | cons e l ih => rw [List.foldl_cons, ih, rekey_addAt, List.map_cons, List.sum_cons, add_assoc]
  rw [rekey_eq_sum_image y]
  exact run y.entries x

end Exact

variable [Ord κ''] [Std.TransOrd κ] [Std.LawfulEqOrd κ] [Std.TransOrd κ''] [Std.LawfulEqOrd κ'']

/-- Moving a table of tables to other keys keeps the tables that have an image, empty ones too, and
under an attribute of such a table stands the sum, from the least key to the greatest, of what stood
there under the keys with that image. Where amounts add exactly, two tables can be added before the
move or after it. -/
theorem rekey_conserves_and_commutes [Add α] [AddCommSemigroup β] (f : κ → Option κ') :
    (∀ source : SortedMap κ (SortedMap κ'' α),
      (∀ n, n ∈ (source.rekey f).keys ↔ ∃ k ∈ source.keys, f k = some n) ∧
      ∀ n a,
        (((source.rekey f).amount? n a).isSome = true ↔
          ∃ k, f k = some n ∧ (source.amount? k a).isSome = true) ∧
        (source.rekey f).amount? n a = leftSum (source.amountsInto f n a)) ∧
    ∀ x y : SortedMap κ (SortedMap κ'' β), (x + y).rekey f = x.rekey f + y.rekey f := by
  refine ⟨fun source => ⟨mem_keys_rekey_iff source f, fun n a => ?_⟩, fun x y => rekey_add x y f⟩
  have sum : (source.rekey f).amount? n a = leftSum (source.amountsInto f n a) := by
    rw [amount?, get?_rekey_eq_leftSum, get?_leftSum, amountsInto_eq_filterMap_filter]
  refine ⟨?_, sum⟩
  rw [sum, isSome_leftSum, amountsInto_ne_nil_iff]

/-- Two nodes of a region, one that measured nothing, and one that no region has. -/
theorem rekey_conserves_and_commutes_with_stranger :
    let regionOf : NodeName → Option RegionName := fun node =>
      if node = "x" then none else if node = "c" then some "east" else some "west"
    let source : SortedMap NodeName (SortedMap NodeAttribute Float) :=
      ofList [("a", singleton .cpu 0.1), ("b", singleton .cpu 0.2), ("c", ∅),
        ("x", singleton .cpu 1)]
    let one : SortedMap NodeName (SortedMap NodeAttribute Int) :=
      ofList [("a", singleton .cpu 1), ("c", ∅)]
    let two : SortedMap NodeName (SortedMap NodeAttribute Int) :=
      ofList [("b", singleton .cpu 2), ("a", singleton .taskContainers 3)]
    "east" ∈ (source.rekey regionOf).keys ∧
    (source.rekey regionOf).amount? "east" .cpu = none ∧
    (source.rekey regionOf).amount? "west" .cpu = some (0.1 + 0.2) ∧
    (one + two).rekey regionOf = one.rekey regionOf + two.rekey regionOf := by
  intro regionOf source one two
  obtain ⟨keys, amounts⟩ := (rekey_conserves_and_commutes (β := Int) regionOf).1 source
  have commutes := (rekey_conserves_and_commutes (α := Float) regionOf).2 one two
  refine ⟨(keys "east").2 ⟨"c", by decide, rfl⟩, ?_, ?_, commutes⟩
  · rw [(amounts "east" .cpu).2]
    rfl
  · rw [(amounts "west" .cpu).2]
    rfl

end RegionNet.SortedMap
