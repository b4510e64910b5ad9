import RegionNet.SortedMap

/-!
# Sorted maps through their lookups

Every operation on a sorted map is described by what it does to the lookup of a key. Since entries
ascend strictly, two maps with the same lookups are the same map; a law about maps is therefore
proved key by key, whatever order the maps were filled in.
-/

namespace RegionNet.SortedMap

variable {κ α β : Type} [Ord κ]

/-- The value that a list of entries has at a key: the first one that is found. -/
def entryAt (k : κ) (l : List (κ × α)) : Option α :=
  (l.find? fun e => compare k e.1 == .eq).map Prod.snd

@[simp] theorem entryAt_nil (k : κ) : entryAt k ([] : List (κ × α)) = none := rfl

theorem entryAt_cons (k : κ) (e : κ × α) (l : List (κ × α)) :
    entryAt k (e :: l) = if compare k e.1 = .eq then some e.2 else entryAt k l := by
  simp only [entryAt, List.find?_cons]
  by_cases same : compare k e.1 = .eq
  · simp [same]
  · have differ : (compare k e.1 == .eq) = false := by simpa using same
    simp [same, differ]

theorem entryAt_eq_none (k : κ) (l : List (κ × α)) (missing : ∀ e ∈ l, compare k e.1 ≠ .eq) :
    entryAt k l = none := by
  simp only [entryAt, Option.map_eq_none_iff, List.find?_eq_none, beq_iff_eq]
  exact missing

@[simp] theorem get?_empty (k : κ) : (∅ : SortedMap κ α).get? k = none := rfl

section Order

variable [Std.TransOrd κ]

theorem entryAt_upsertEntries_self (k : κ) (f : Option α → α) (l : List (κ × α))
    (ascending : l.Pairwise fun a b => compare a.1 b.1 = .lt) :
    entryAt k (upsertEntries k f l) = some (f (entryAt k l)) := by
  induction l with
  | nil => simp [upsertEntries, entryAt_cons]
  | cons head rest ih =>
    obtain ⟨above, rest_ascending⟩ := List.pairwise_cons.1 ascending
    simp only [upsertEntries]
    split
    next below =>
      -- the key lies before every entry, so that nothing was there
      have missing : entryAt k (head :: rest) = none := by
        apply entryAt_eq_none
        intro e member
        rcases List.mem_cons.1 member with rfl | member
        · simp [below]
        · simp [Std.TransCmp.lt_trans below (above e member)]
      simp [entryAt_cons k (k, f none), missing]
    next same => simp [entryAt_cons, same]
    next beyond => simp [entryAt_cons, beyond, ih rest_ascending]

theorem get?_upsert_self (m : SortedMap κ α) (k : κ) (f : Option α → α) :
    (m.upsert k f).get? k = some (f (m.get? k)) :=
  entryAt_upsertEntries_self k f m.entries m.ascending

theorem get?_insert_self (m : SortedMap κ α) (k : κ) (v : α) : (m.insert k v).get? k = some v :=
  get?_upsert_self m k _

end Order

variable [Std.TransOrd κ] [Std.LawfulEqOrd κ]

omit [Std.TransOrd κ] in
theorem entryAt_upsertEntries_of_ne (k k' : κ) (f : Option α → α) (l : List (κ × α))
    (differ : k' ≠ k) : entryAt k' (upsertEntries k f l) = entryAt k' l := by
  induction l with
  | nil => simp [upsertEntries, entryAt_cons, differ]
  | cons head rest ih =>
    simp only [upsertEntries]
    split
    · simp [entryAt_cons k' (k, f none), differ]
    · simp [entryAt_cons, show k' ≠ head.1 by grind]
    · simp [entryAt_cons, ih]

theorem get?_upsert_of_ne (m : SortedMap κ α) (k k' : κ) (f : Option α → α) (differ : k' ≠ k) :
    (m.upsert k f).get? k' = m.get? k' :=
  entryAt_upsertEntries_of_ne k k' f m.entries differ

theorem get?_insert_of_ne (m : SortedMap κ α) (k k' : κ) (v : α) (differ : k' ≠ k) :
    (m.insert k v).get? k' = m.get? k' :=
  get?_upsert_of_ne m k k' _ differ

omit [Std.TransOrd κ] in
theorem entryAt_eq_some (k : κ) (v : α) (l : List (κ × α)) (found : entryAt k l = some v) :
    (k, v) ∈ l := by
  simp only [entryAt, Option.map_eq_some_iff] at found
  obtain ⟨e, first, rfl⟩ := found
  have same : k = e.1 := by simpa using List.find?_some first
  rw [same]
  exact List.mem_of_find?_eq_some first

theorem entryAt_of_mem (k : κ) (v : α) (l : List (κ × α))
    (ascending : l.Pairwise fun a b => compare a.1 b.1 = .lt) (member : (k, v) ∈ l) :
    entryAt k l = some v := by
  induction l with
  | nil => simp at member
  | cons head rest ih =>
    obtain ⟨above, rest_ascending⟩ := List.pairwise_cons.1 ascending
    rcases List.mem_cons.1 member with rfl | member
    · simp [entryAt_cons]
    · -- the head lies below the key, so that the search passes it
      have beyond : compare k head.1 = .gt := Std.OrientedCmp.gt_iff_lt.2 (above _ member)
      simp [entryAt_cons, beyond, ih rest_ascending member]

theorem get?_eq_some_iff (m : SortedMap κ α) (k : κ) (v : α) :
    m.get? k = some v ↔ (k, v) ∈ m.entries :=
  ⟨entryAt_eq_some k v m.entries, entryAt_of_mem k v m.entries m.ascending⟩

theorem mem_keys_iff (m : SortedMap κ α) (k : κ) : k ∈ m.keys ↔ (m.get? k).isSome = true := by
  simp [keys, Option.isSome_iff_exists, get?_eq_some_iff]

theorem mem_values_iff (m : SortedMap κ α) (v : α) : v ∈ m.values ↔ ∃ k, m.get? k = some v := by
  simp only [values, List.mem_map, get?_eq_some_iff, Prod.exists, exists_eq_right]

omit [Std.LawfulEqOrd κ] in
theorem entries_nodup (m : SortedMap κ α) : m.entries.Nodup := by
  apply m.ascending.imp
  rintro a b below rfl
  simp at below

omit [Std.LawfulEqOrd κ] in
theorem keys_nodup (m : SortedMap κ α) : m.keys.Nodup := by
  apply List.pairwise_map.2
  apply m.ascending.imp
  intro a b below same
  rw [same] at below
  simp at below

/-- A map is its lookups. -/
theorem ext_get? (m n : SortedMap κ α) (same : ∀ k, m.get? k = n.get? k) : m = n := by
  have members (e : κ × α) : e ∈ m.entries ↔ e ∈ n.entries := by
    rw [← get?_eq_some_iff m e.1 e.2, ← get?_eq_some_iff n e.1 e.2, same]
  -- one set of entries has one ascending order
  have perm : m.entries.Perm n.entries :=
    (List.perm_ext_iff_of_nodup m.entries_nodup n.entries_nodup).2 members
  have equal : m.entries = n.entries := by
    apply perm.eq_of_pairwise _ m.ascending n.ascending
    intro a b _ _ below above
    simp [Std.OrientedCmp.gt_iff_lt.2 below] at above
  cases m
  cases n
  cases equal
  rfl

omit [Std.TransOrd κ] [Std.LawfulEqOrd κ] in
theorem contains_iff (m : SortedMap κ α) (k : κ) : m.contains k = true ↔ ∃ v, m.get? k = some v :=
  Option.isSome_iff_exists

/-! ### Union -/

theorem get?_foldl_upsert (f : α → α → α) (k : κ) (l : List (κ × α)) (m : SortedMap κ α)
    (ascending : l.Pairwise fun a b => compare a.1 b.1 = .lt) :
    (l.foldl (fun acc e => acc.upsert e.1 fun
      | none => e.2
      | some v => f v e.2) m).get? k = Option.merge f (m.get? k) (entryAt k l) := by
  induction l generalizing m with
  | nil => simp
  | cons head rest ih =>
    obtain ⟨above, rest_ascending⟩ := List.pairwise_cons.1 ascending
    rw [List.foldl_cons, ih _ rest_ascending, entryAt_cons]
    by_cases same : k = head.1
    · -- keys ascend, so that no later entry touches this one
      have missing : entryAt head.1 rest = none :=
        entryAt_eq_none head.1 rest fun e member => by simp [above e member]
      rw [same, get?_upsert_self, missing]
      cases m.get? head.1 <;> simp
    · rw [get?_upsert_of_ne _ _ _ _ same]
      simp [same]

/-- A key of both maps has the combined value; a key of one keeps its own. -/
theorem get?_unionWith (f : α → α → α) (m n : SortedMap κ α) (k : κ) :
    (unionWith f m n).get? k = Option.merge f (m.get? k) (n.get? k) :=
  get?_foldl_upsert f k n.entries m n.ascending

/-! ### Passes over all values -/

omit [Std.TransOrd κ] in
theorem entryAt_mapValues (f : κ → α → β) (k : κ) (l : List (κ × α)) :
    entryAt k (l.map fun e => (e.1, f e.1 e.2)) = (entryAt k l).map (f k) := by
  induction l with
  | nil => rfl
  | cons head rest ih =>
    rw [List.map_cons, entryAt_cons, entryAt_cons, ih]
    by_cases same : k = head.1
    · simp [same]
    · simp [same]

omit [Std.TransOrd κ] in
theorem get?_mapValues (m : SortedMap κ α) (f : κ → α → β) (k : κ) :
    (m.mapValues f).get? k = (m.get? k).map (f k) :=
  entryAt_mapValues f k m.entries

omit [Std.TransOrd κ] in
theorem get?_modify_self (m : SortedMap κ α) (k : κ) (f : α → α) :
    (m.modify k f).get? k = (m.get? k).map f := by
  -- a change at one key is a pass over all values that looks at the keys
  change (m.mapValues fun k' v => if compare k k' == .eq then f v else v).get? k = _
  simp [get?_mapValues]

omit [Std.TransOrd κ] in
theorem get?_modify_of_ne (m : SortedMap κ α) (k k' : κ) (f : α → α) (differ : k' ≠ k) :
    (m.modify k f).get? k' = m.get? k' := by
  change (m.mapValues fun k' v => if compare k k' == .eq then f v else v).get? k' = _
  simp [get?_mapValues, show k ≠ k' from fun same => differ same.symm]

theorem get?_insert [DecidableEq κ] (m : SortedMap κ α) (k k' : κ) (v : α) :
    (m.insert k v).get? k' = if k' = k then some v else m.get? k' := by
  by_cases same : k' = k
  · rw [if_pos same, same, get?_insert_self]
  · rw [if_neg same, get?_insert_of_ne m k k' v same]

omit [Std.TransOrd κ] in
theorem get?_modify [DecidableEq κ] (m : SortedMap κ α) (k k' : κ) (f : α → α) :
    (m.modify k f).get? k' = if k' = k then (m.get? k').map f else m.get? k' := by
  by_cases same : k' = k
  · rw [if_pos same, same, get?_modify_self]
  · rw [if_neg same, get?_modify_of_ne m k k' f same]

theorem get?_singleton [DecidableEq κ] (k k' : κ) (v : α) :
    (singleton k v).get? k' = if k' = k then some v else none :=
  get?_insert ∅ k k' v

theorem get?_erase [DecidableEq κ] (m : SortedMap κ α) (k k' : κ) :
    (m.erase k).get? k' = if k' = k then none else m.get? k' := by
  apply Option.ext
  intro v
  have entry : (m.erase k).get? k' = some v ↔ (k', v) ∈ m.entries ∧ k' ≠ k := by
    rw [get?_eq_some_iff, erase, List.mem_filter]
    simp [show ¬ k = k' ↔ ¬ k' = k from not_congr eq_comm]
  rw [entry, ← get?_eq_some_iff]
  by_cases same : k' = k
  · simp [same]
  · simp [same]

theorem get?_filterMap (m : SortedMap κ α) (f : κ → α → Option β) (k : κ) :
    (m.filterMap f).get? k = (m.get? k).bind (f k) := by
  -- an entry that is kept is the entry at its key, so both sides say the same of every value
  apply Option.ext
  intro v
  rw [get?_eq_some_iff, Option.bind_eq_some_iff]
  simp only [filterMap, List.mem_filterMap, Option.map_eq_some_iff, Prod.mk.injEq, Prod.exists,
    get?_eq_some_iff]
  constructor
  · rintro ⟨_, a, member, _, kept, rfl, rfl⟩
    exact ⟨a, member, kept⟩
  · rintro ⟨a, member, kept⟩
    exact ⟨k, a, member, v, kept, rfl, rfl⟩

/-! ### One function for all values -/

section Map

variable {γ : Type}

omit [Std.TransOrd κ] [Std.LawfulEqOrd κ]

def map (f : α → β) (m : SortedMap κ α) : SortedMap κ β :=
  m.mapValues fun _ => f

theorem map_map (g : β → γ) (f : α → β) (m : SortedMap κ α) :
    (m.map f).map g = m.map fun a => g (f a) := by
  simp [map, mapValues, Function.comp_def]

theorem keys_map (m : SortedMap κ α) (f : α → β) : (m.map f).keys = m.keys := by
  simp [keys, map, mapValues, Function.comp_def]

theorem get?_map [Std.LawfulEqOrd κ] (m : SortedMap κ α) (f : α → β) (k : κ) :
    (m.map f).get? k = (m.get? k).map f :=
  get?_mapValues m (fun _ => f) k

theorem map_singleton [Std.TransOrd κ] (k : κ) (a : α) (f : α → β) :
    (singleton k a).map f = singleton k (f a) := rfl

end Map

theorem map_insert [DecidableEq κ] (m : SortedMap κ α) (k : κ) (a : α) (f : α → β) :
    (m.insert k a).map f = (m.map f).insert k (f a) := by
  apply ext_get?
  intro k'
  rw [get?_map, get?_insert, get?_insert, get?_map]
  split <;> rfl

theorem map_ofList [DecidableEq κ] (l : List (κ × α)) (f : α → β) :
    ofList (l.map fun e => (e.1, f e.2)) = (ofList l).map f := by
  have run (m : SortedMap κ α) :
      (l.map fun e => (e.1, f e.2)).foldl (fun m e => m.insert e.1 e.2) (m.map f) =
        (l.foldl (fun m e => m.insert e.1 e.2) m).map f := by
    induction l generalizing m with
    | nil => rfl
    | cons e l ih => rw [List.map_cons, List.foldl_cons, List.foldl_cons, ← map_insert, ih]
  exact run ∅

/-! ### Keys -/

theorem contains_insert (m : SortedMap κ α) (k k' : κ) (v : α) :
    (m.insert k v).contains k' = true ↔ m.contains k' = true ∨ k' = k := by
  by_cases same : k' = k
  · simp [contains, same, get?_insert_self]
  · simp [contains, same, get?_insert_of_ne]

omit [Std.TransOrd κ] in
theorem contains_modify (m : SortedMap κ α) (k k' : κ) (f : α → α) :
    (m.modify k f).contains k' = m.contains k' := by
  by_cases same : k' = k
  · rw [contains, same, get?_modify_self, Option.isSome_map, contains]
  · rw [contains, get?_modify_of_ne m k k' f same, contains]

/-- A new key adds one entry. -/
theorem entries_insert_perm [DecidableEq κ] (m : SortedMap κ α) (k : κ) (v : α)
    (missing : m.contains k = false) : (m.insert k v).entries.Perm (m.entries ++ [(k, v)]) := by
  have none : m.get? k = none := by simpa [contains] using missing
  have distinct : (m.entries ++ [(k, v)]).Nodup := by
    rw [List.nodup_append]
    refine ⟨m.entries_nodup, List.pairwise_singleton _ _, ?_⟩
    rintro e member _ new rfl
    rw [List.mem_singleton.1 new, ← get?_eq_some_iff, none] at member
    cases member
  rw [List.perm_ext_iff_of_nodup (m.insert k v).entries_nodup distinct]
  rintro ⟨k', v'⟩
  rw [← get?_eq_some_iff, get?_insert, List.mem_append, List.mem_singleton, ← get?_eq_some_iff,
    Prod.mk.injEq]
  by_cases same : k' = k
  · simp [same, none, eq_comm]
  · simp [same]

/-! ### The map of the entries of a map -/

theorem get?_ofList_of_ascending (k : κ) (l : List (κ × α)) (m : SortedMap κ α)
    (ascending : l.Pairwise fun a b => compare a.1 b.1 = .lt) :
    (l.foldl (fun acc e => acc.insert e.1 e.2) m).get? k = (entryAt k l).or (m.get? k) := by
  induction l generalizing m with
  | nil => simp
  | cons head rest ih =>
    obtain ⟨above, rest_ascending⟩ := List.pairwise_cons.1 ascending
    rw [List.foldl_cons, ih _ rest_ascending, entryAt_cons]
    by_cases same : k = head.1
    · have missing : entryAt head.1 rest = none :=
        entryAt_eq_none head.1 rest fun e member => by simp [above e member]
      simp [same, missing, get?_insert_self]
    · simp [same, get?_insert_of_ne]

theorem ofList_entries (m : SortedMap κ α) : ofList m.entries = m := by
  apply ext_get?
  intro k
  rw [ofList, get?_ofList_of_ascending k m.entries ∅ m.ascending, get?_empty, Option.or_none]
  rfl

/-- The last of the values that a list of entries has for a key. -/
def lastValue [DecidableEq κ] (l : List (κ × α)) (k : κ) : Option α :=
  ((l.filter fun e => e.1 = k).getLast?).map Prod.snd

omit [Ord κ] [Std.TransOrd κ] [Std.LawfulEqOrd κ] in
theorem lastValue_cons [DecidableEq κ] (e : κ × α) (l : List (κ × α)) (k : κ) :
    lastValue (e :: l) k = (lastValue l k).or (if k = e.1 then some e.2 else none) := by
  by_cases same : k = e.1
  · simp only [lastValue, same, List.filter_cons, decide_true, ↓reduceIte, List.getLast?_cons]
    cases (l.filter fun e' => decide (e'.1 = e.1)).getLast? <;> rfl
  · simp [lastValue, same, Ne.symm same]

omit [Ord κ] [Std.TransOrd κ] [Std.LawfulEqOrd κ] in
theorem lastValue_append [DecidableEq κ] (l l' : List (κ × α)) (k : κ) :
    lastValue (l ++ l') k = (lastValue l' k).or (lastValue l k) := by
  rw [lastValue, List.filter_append, List.getLast?_append, Option.map_or]
  rfl

omit [Ord κ] [Std.TransOrd κ] [Std.LawfulEqOrd κ] in
theorem mem_of_lastValue [DecidableEq κ] {l : List (κ × α)} {k : κ} {v : α}
    (last : lastValue l k = some v) : (k, v) ∈ l := by
  obtain ⟨⟨k', v'⟩, found, rfl⟩ := Option.map_eq_some_iff.1 last
  obtain ⟨member, same⟩ := List.mem_filter.1 (List.mem_of_getLast? found)
  rw [decide_eq_true_eq] at same
  exact same ▸ member

omit [Ord κ] [Std.TransOrd κ] [Std.LawfulEqOrd κ] in
theorem lastValue_of_missing [DecidableEq κ] {l : List (κ × α)} {k : κ}
    (missing : k ∉ l.map Prod.fst) : lastValue l k = none := by
  cases last : lastValue l k with
  | none => rfl
  | some v => exact absurd (List.mem_map_of_mem (mem_of_lastValue last)) missing

/-- Of two values for one key the later stays. -/
theorem get?_ofList [DecidableEq κ] (l : List (κ × α)) (k : κ) :
    (ofList l).get? k = lastValue l k := by
  have run (m : SortedMap κ α) :
      (l.foldl (fun m e => m.insert e.1 e.2) m).get? k = (lastValue l k).or (m.get? k) := by
    induction l generalizing m with
    | nil => rfl
    | cons e l ih =>
      rw [List.foldl_cons, ih, get?_insert, lastValue_cons, Option.or_assoc]
      congr 1
      split <;> rfl
  rw [ofList, run, get?_empty, Option.or_none]

omit [Std.LawfulEqOrd κ] in
theorem size_ofList_le (l : List (κ × α)) : (ofList l).size ≤ l.length := by
  have grows (k : κ) (v : α) (entries : List (κ × α)) :
      (upsertEntries k (fun _ => v) entries).length ≤ entries.length + 1 := by
    induction entries with
    | nil => simp [upsertEntries]
    | cons e rest ih =>
      simp only [upsertEntries]
      split <;> simp [ih]
  have run (m : SortedMap κ α) :
      (l.foldl (fun m e => m.insert e.1 e.2) m).size ≤ m.size + l.length := by
    induction l generalizing m with
    | nil => exact Nat.le_refl _
    | cons e l ih =>
      have one : (m.insert e.1 e.2).size ≤ m.size + 1 := grows e.1 e.2 m.entries
      have more := ih (m.insert e.1 e.2)
      rw [List.foldl_cons, List.length_cons]
      omega
  exact Nat.le_trans (run ∅) (Nat.le_of_eq (Nat.zero_add l.length))

/-- A pass looks at nothing but the entries. -/
theorem traverse_congr {ε : Type} (m : SortedMap κ α) (f g : κ → α → Except ε β)
    (same : ∀ k v, m.get? k = some v → f k v = g k v) : m.traverse f = m.traverse g := by
  have each (l : List (κ × α)) (included : ∀ e ∈ l, f e.1 e.2 = g e.1 e.2) :
      (l.mapM fun e => (f e.1 e.2).map fun v => (e.1, v)) =
        l.mapM fun e => (g e.1 e.2).map fun v => (e.1, v) := by
    induction l with
    | nil => rfl
    | cons e l ih =>
      rw [List.mapM_cons, List.mapM_cons, included e List.mem_cons_self,
        ih fun e' member => included e' (List.mem_cons_of_mem _ member)]
  rw [traverse, traverse,
    each m.entries fun e member => same e.1 e.2 ((get?_eq_some_iff m _ _).2 member)]

/-- A pass over values that were replaced is the pass over the values themselves, if it answers for
what replaces a value as it does for the value. -/
theorem traverse_map [DecidableEq κ] {ε α' β' : Type} (m : SortedMap κ α) (f : κ → α → Except ε β)
    (f' : κ → α' → Except ε β') (h : α → α') (h' : β → β')
    (commutes : ∀ k a, f' k (h a) = (f k a).map h') :
    (m.map h).traverse f' = (m.traverse f).map (SortedMap.map h') := by
  have each (l : List (κ × α)) :
      ((l.map fun e => (e.1, h e.2)).mapM fun e => (f' e.1 e.2).map fun v => (e.1, v)) =
        (l.mapM fun e => (f e.1 e.2).map fun v => (e.1, v)).map
          (List.map fun e => (e.1, h' e.2)) := by
    induction l with
    | nil => rfl
    | cons e l ih =>
      rw [List.map_cons, List.mapM_cons, List.mapM_cons, ih, commutes]
      cases f e.1 e.2 with
      | error _ => rfl
      | ok v =>
        cases l.mapM fun e => (f e.1 e.2).map fun v => (e.1, v) with
        | error _ => rfl
        | ok vs => rfl
  rw [traverse, traverse]
  change (((m.entries.map fun e => (e.1, h e.2)).mapM fun e =>
    (f' e.1 e.2).map fun v => (e.1, v)).map ofList) = _
  rw [each]
  cases m.entries.mapM fun e => (f e.1 e.2).map fun v => (e.1, v) with
  | error _ => rfl
  | ok vs => exact congrArg Except.ok (map_ofList vs h')

/-- A pass in which no value fails changes every value and nothing else. -/
theorem traverse_eq_mapValues {ε : Type} (m : SortedMap κ α) (f : κ → α → Except ε β)
    (g : κ → α → β) (succeeds : ∀ k v, m.get? k = some v → f k v = .ok (g k v)) :
    m.traverse f = .ok (m.mapValues g) := by
  -- the entries keep their keys, so that putting them back in order changes nothing
  have each (l : List (κ × α)) (included : ∀ e ∈ l, f e.1 e.2 = .ok (g e.1 e.2)) :
      (l.mapM fun e => (f e.1 e.2).map fun v => (e.1, v)) =
        .ok (l.map fun e => (e.1, g e.1 e.2)) := by
    induction l with
    | nil => rfl
    | cons head rest ih =>
      have tail := ih fun e member => included e (List.mem_cons_of_mem _ member)
      rw [List.mapM_cons, tail, included head List.mem_cons_self]
      rfl
  rw [traverse, each m.entries fun e member => succeeds e.1 e.2 ((get?_eq_some_iff m _ _).2 member)]
  change Except.ok (ofList (m.mapValues g).entries) = _
  rw [ofList_entries]

end RegionNet.SortedMap
