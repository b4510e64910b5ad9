/-!
Finite maps with their entries in ascending key order.

Every table of a report, of a graph and of the network is such a map: the order in which a table is
listed is the order of its keys, so that two maps with the same lookups are equal, however they were
filled.
-/

namespace RegionNet

/-- A list of entries whose keys strictly ascend. -/
structure SortedMap (κ : Type) [Ord κ] (α : Type) where
  entries : List (κ × α)
  ascending : entries.Pairwise fun a b => compare a.1 b.1 = .lt

namespace SortedMap

variable {κ α β : Type} [Ord κ]

instance [DecidableEq κ] [DecidableEq α] : DecidableEq (SortedMap κ α) := fun m n =>
  if h : m.entries = n.entries then isTrue (by cases m; cases n; cases h; rfl)
  else isFalse fun e => h (e ▸ rfl)

protected def empty : SortedMap κ α := ⟨[], .nil⟩

instance : EmptyCollection (SortedMap κ α) := ⟨.empty⟩

instance : Inhabited (SortedMap κ α) := ⟨∅⟩

def get? (m : SortedMap κ α) (k : κ) : Option α :=
  (m.entries.find? fun e => compare k e.1 == .eq).map Prod.snd

def contains (m : SortedMap κ α) (k : κ) : Bool :=
  (m.get? k).isSome

def size (m : SortedMap κ α) : Nat :=
  m.entries.length

def keys (m : SortedMap κ α) : List κ :=
  m.entries.map Prod.fst

def values (m : SortedMap κ α) : List α :=
  m.entries.map Prod.snd

/-- Puts `f none` at a key that is missing and `f (some v)` where `v` is present. -/
def upsertEntries (k : κ) (f : Option α → α) : List (κ × α) → List (κ × α)
  | [] => [(k, f none)]
  | e :: rest =>
    match compare k e.1 with
    | .lt => (k, f none) :: e :: rest
    | .eq => (e.1, f (some e.2)) :: rest
    | .gt => e :: upsertEntries k f rest

theorem fst_of_mem_upsertEntries {k : κ} {f : Option α → α} {l : List (κ × α)} {e : κ × α}
    (member : e ∈ upsertEntries k f l) : e.1 = k ∨ ∃ e' ∈ l, e.1 = e'.1 := by
  induction l with
  | nil =>
    simp only [upsertEntries, List.mem_singleton] at member
    exact .inl (by rw [member])
  | cons head rest ih =>
    simp only [upsertEntries] at member
    split at member
    · rcases List.mem_cons.1 member with rfl | member
      · exact .inl rfl
      · exact .inr ⟨e, member, rfl⟩
    · rcases List.mem_cons.1 member with rfl | member
      · exact .inr ⟨head, List.mem_cons_self, rfl⟩
      · exact .inr ⟨e, List.mem_cons_of_mem _ member, rfl⟩
    · rcases List.mem_cons.1 member with rfl | member
      · exact .inr ⟨e, List.mem_cons_self, rfl⟩
      · rcases ih member with h | ⟨e', member', h⟩
        · exact .inl h
        · exact .inr ⟨e', List.mem_cons_of_mem _ member', h⟩

variable [Std.TransOrd κ]

theorem ascending_upsertEntries {k : κ} {f : Option α → α} {l : List (κ × α)}
    (ascending : l.Pairwise fun a b => compare a.1 b.1 = .lt) :
    (upsertEntries k f l).Pairwise fun a b => compare a.1 b.1 = .lt := by
  induction l with
  | nil => exact List.pairwise_singleton _ _
  | cons head rest ih =>
    obtain ⟨above, rest_ascending⟩ := List.pairwise_cons.1 ascending
    simp only [upsertEntries]
    split
    next h =>
      refine List.pairwise_cons.2 ⟨fun e member => ?_, ascending⟩
      rcases List.mem_cons.1 member with rfl | member
      · exact h
      · exact Std.TransCmp.lt_trans h (above e member)
    next => exact List.pairwise_cons.2 ⟨above, rest_ascending⟩
    next h =>
      refine List.pairwise_cons.2 ⟨fun e member => ?_, ih rest_ascending⟩
      rcases fst_of_mem_upsertEntries member with eq | ⟨e', member', eq⟩
      · rw [eq]
        exact Std.OrientedCmp.gt_iff_lt.1 h
      · rw [eq]
        exact above e' member'

def upsert (m : SortedMap κ α) (k : κ) (f : Option α → α) : SortedMap κ α :=
  ⟨upsertEntries k f m.entries, ascending_upsertEntries m.ascending⟩

def insert (m : SortedMap κ α) (k : κ) (v : α) : SortedMap κ α :=
  m.upsert k fun _ => v

def singleton (k : κ) (v : α) : SortedMap κ α :=
  SortedMap.empty.insert k v

/-- Reads a list of entries in order: of two values for one key the later stays. -/
def ofList (l : List (κ × α)) : SortedMap κ α :=
  l.foldl (fun m e => m.insert e.1 e.2) ∅

/-- The keys of both maps; `f` combines the values of a key that both have. -/
def unionWith (f : α → α → α) (m n : SortedMap κ α) : SortedMap κ α :=
  n.entries.foldl
    (fun acc e => acc.upsert e.1 fun
      | none => e.2
      | some v => f v e.2) m

/-- The values under `f`, tried in key order; the first failure ends the pass. -/
def traverse {ε : Type} (m : SortedMap κ α) (f : κ → α → Except ε β) : Except ε (SortedMap κ β) :=
  (m.entries.mapM fun e => (f e.1 e.2).map fun v => (e.1, v)).map ofList

omit [Std.TransOrd κ]

def erase (m : SortedMap κ α) (k : κ) : SortedMap κ α :=
  ⟨m.entries.filter fun e => compare k e.1 != .eq, m.ascending.filter _⟩

def modify (m : SortedMap κ α) (k : κ) (f : α → α) : SortedMap κ α :=
  ⟨m.entries.map fun e => (e.1, if compare k e.1 == .eq then f e.2 else e.2),
    m.ascending.map _ fun _ _ h => h⟩

def mapValues (m : SortedMap κ α) (f : κ → α → β) : SortedMap κ β :=
  ⟨m.entries.map fun e => (e.1, f e.1 e.2), m.ascending.map _ fun _ _ h => h⟩

theorem ascending_filterMap {l : List (κ × α)} (f : κ → α → Option β)
    (ascending : l.Pairwise fun a b => compare a.1 b.1 = .lt) :
    (l.filterMap fun e => (f e.1 e.2).map fun v => (e.1, v)).Pairwise
      fun a b => compare a.1 b.1 = .lt := by
  refine ascending.filterMap _ fun a b below a' ha b' hb => ?_
  obtain ⟨_, _, rfl⟩ := Option.map_eq_some_iff.1 ha
  obtain ⟨_, _, rfl⟩ := Option.map_eq_some_iff.1 hb
  exact below

def filterMap (m : SortedMap κ α) (f : κ → α → Option β) : SortedMap κ β :=
  ⟨m.entries.filterMap fun e => (f e.1 e.2).map fun v => (e.1, v),
    ascending_filterMap f m.ascending⟩

end SortedMap

end RegionNet
