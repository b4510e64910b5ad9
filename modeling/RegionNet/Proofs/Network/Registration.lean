import RegionNet.Proofs.Network.Genuine

/-!
# No address has two owners

A registration looks for another owner among the addresses in whatever order the table lists them,
and the one that it comes upon is named in the error. Since no address ever has two owners, there is
only one to come upon. A registration that is refused changes nothing; one that is not changes the
address of its node alone, and whatever the node had before is free again.
-/

namespace RegionNet

namespace Registry

/-- A table without an order of its own lists its entries in any order, each of them once. -/
def Lists (r : Registry) (order : List (NodeName × SocketAddress)) : Prop :=
  order.Nodup ∧ ∀ w a, (w, a) ∈ order ↔ r.resolve w = some a

/-- The registration of a node, with the order in which the table is looked through. It answers and
leaves a registry behind. -/
def registerIn (order : List (NodeName × SocketAddress)) (r : Registry) (node : NodeName)
    (address : SocketAddress) : Except AddressConflict Unit × Registry :=
  match order.find? fun e => e.2 = address ∧ e.1 ≠ node with
  | some e => (.error ⟨address, e.1⟩, r)
  | none => (.ok (), ⟨r.addresses.insert node address⟩)

/-- A node is taken out of the registry, and the answer is the address that it had. -/
def takeOut (r : Registry) (node : NodeName) : Option SocketAddress × Registry :=
  (r.resolve node, r.unregister node)

/-- The nodes in the order in which a table lists them, put in order. -/
def sortedNodes (order : List (NodeName × SocketAddress)) : List NodeName :=
  (order.map Prod.fst).mergeSort fun w w' => (compare w w').isLE

/-- The registries that come of registrations and removals, in any sequence. -/
inductive Reached : Registry → Prop
  | empty : Reached .empty
  | register {r : Registry} (reached : Reached r) (order : List (NodeName × SocketAddress))
      (lists : r.Lists order) (node : NodeName) (address : SocketAddress) :
      Reached (r.registerIn order node address).2
  | takeOut {r : Registry} (reached : Reached r) (node : NodeName) : Reached (r.takeOut node).2

variable {r r' : Registry} {node : NodeName} {address : SocketAddress}
  {order : List (NodeName × SocketAddress)}

theorem lists_entries (r : Registry) : r.Lists r.addresses.entries :=
  ⟨r.addresses.entries_nodup, fun w a => (SortedMap.get?_eq_some_iff r.addresses w a).symm⟩

theorem Lists.reverse (lists : r.Lists order) : r.Lists order.reverse :=
  ⟨List.nodup_reverse.2 lists.1, fun w a => List.mem_reverse.trans (lists.2 w a)⟩

theorem Lists.perm (lists : r.Lists order) : order.Perm r.addresses.entries :=
  (List.perm_ext_iff_of_nodup lists.1 r.addresses.entries_nodup).2 fun e =>
    (lists.2 e.1 e.2).trans (r.lists_entries.2 e.1 e.2).symm

/-- Whoever else is found at an address holds it, and someone is found if anyone holds it. -/
inductive Found (r : Registry) (node : NodeName) (address : SocketAddress) :
    Option (NodeName × SocketAddress) → Prop
  | other (owner : NodeName) (differs : owner ≠ node) (holds : r.resolve owner = some address) :
      Found r node address (some (owner, address))
  | nobody (free : ∀ w, r.resolve w = some address → w = node) : Found r node address none

theorem Lists.found (lists : r.Lists order) (node : NodeName) (address : SocketAddress) :
    r.Found node address (order.find? fun e => e.2 = address ∧ e.1 ≠ node) := by
  cases search : order.find? fun e => e.2 = address ∧ e.1 ≠ node with
  | none =>
    refine .nobody fun w holds => ?_
    have passed := List.find?_eq_none.1 search (w, address) ((lists.2 w address).2 holds)
    simpa using passed
  | some e =>
    obtain ⟨owner, a⟩ := e
    obtain ⟨rfl, differs⟩ : a = address ∧ owner ≠ node := by simpa using List.find?_some search
    exact .other owner differs ((lists.2 owner a).1 (List.mem_of_find?_eq_some search))

/-- What a registration comes to. -/
inductive Registration (r : Registry) (node : NodeName) (address : SocketAddress) :
    Except AddressConflict Registry → Prop
  | refused (owner : NodeName) (differs : owner ≠ node) (holds : r.resolve owner = some address) :
      Registration r node address (.error ⟨address, owner⟩)
  | granted (free : ∀ w, r.resolve w = some address → w = node) :
      Registration r node address (.ok ⟨r.addresses.insert node address⟩)

theorem registration (r : Registry) (node : NodeName) (address : SocketAddress) :
    r.Registration node address (r.register node address) := by
  have found := r.lists_entries.found node address
  rw [register, otherOwner]
  generalize (r.addresses.entries.find? fun e => e.2 = address ∧ e.1 ≠ node) = search at found
  cases found with
  | other owner differs holds => exact .refused owner differs holds
  | nobody free => exact .granted free

/-- Whatever the order of the table, a registration answers the same, and leaves the registry alone
if it is refused. -/
theorem registerIn_eq (distinct : r.Distinct) (lists : r.Lists order) (node : NodeName)
    (address : SocketAddress) :
    r.registerIn order node address =
      match r.register node address with
      | .ok r' => (.ok (), r')
      | .error conflict => (.error conflict, r) := by
  have found := lists.found node address
  have outcome := r.registration node address
  rw [registerIn]
  generalize (order.find? fun e => e.2 = address ∧ e.1 ≠ node) = search at found
  generalize r.register node address = result at outcome
  cases found with
  | other owner differs holds =>
    cases outcome with
    | refused owner' _ holds' =>
      -- both searches end at the one owner
      rw [distinct owner owner' address holds holds']
    | granted free => exact absurd (free owner holds) differs
  | nobody free =>
    cases outcome with
    | refused owner differs holds => exact absurd (free owner holds) differs
    | granted _ => rfl

theorem Reached.distinct (reached : r.Reached) : r.Distinct := by
  induction reached with
  | empty => exact distinct_empty
  | @register r _ order lists node address ih =>
    rw [registerIn_eq ih lists]
    cases registered : r.register node address with
    | ok r' => exact ih.register registered
    | error conflict => exact ih
  | takeOut _ node ih => exact ih.unregister

theorem mem_nodes_iff (r : Registry) (w : NodeName) : w ∈ r.nodes ↔ ∃ a, r.resolve w = some a :=
  (SortedMap.mem_keys_iff r.addresses w).trans Option.isSome_iff_exists

theorem nodes_ascending (r : Registry) : r.nodes.Pairwise fun w w' => compare w w' = .lt :=
  List.pairwise_map.2 r.addresses.ascending

theorem sortedNodes_eq (lists : r.Lists order) : sortedNodes order = r.nodes := by
  have sorted : (sortedNodes order).Pairwise fun w w' => (compare w w').isLE = true := by
    apply List.pairwise_mergeSort
    · intro w w' w''
      exact Std.TransCmp.isLE_trans
    · intro w w'
      have swapped : compare w' w = (compare w w').swap := Std.OrientedCmp.eq_swap
      rw [swapped]
      cases compare w w' <;> rfl
  have perm : (sortedNodes order).Perm r.nodes :=
    (List.mergeSort_perm _ _).trans (lists.perm.map Prod.fst)
  refine perm.eq_of_pairwise (fun w w' _ _ below above => ?_) sorted
    (r.nodes_ascending.imp fun below => by simp [below])
  exact Std.LawfulEqCmp.eq_of_compare (Std.OrientedCmp.isLE_antisymm below above)

theorem refused_iff (r : Registry) (node : NodeName) (address : SocketAddress) :
    (∃ conflict, r.register node address = .error conflict) ↔
      ∃ w, w ≠ node ∧ r.resolve w = some address := by
  have outcome := r.registration node address
  generalize r.register node address = result at outcome
  cases outcome with
  | refused owner differs holds => exact ⟨fun _ => ⟨owner, differs, holds⟩, fun _ => ⟨_, rfl⟩⟩
  | granted free =>
    constructor
    · rintro ⟨conflict, error⟩
      cases error
    · rintro ⟨w, differs, holds⟩
      exact absurd (free w holds) differs

theorem owner_iff (distinct : r.Distinct) {conflict : AddressConflict}
    (refused : r.register node address = .error conflict) :
    conflict.address = address ∧
      ∀ w, (w ≠ node ∧ r.resolve w = some address) ↔ w = conflict.owner := by
  have outcome := r.registration node address
  rw [refused] at outcome
  cases outcome with
  | refused owner differs holds =>
    refine ⟨rfl, fun w => ⟨fun other => distinct w owner address other.2 holds, ?_⟩⟩
    rintro rfl
    exact ⟨differs, holds⟩

theorem resolve_register (registered : r.register node address = .ok r') (w : NodeName) :
    r'.resolve w = if w = node then some address else r.resolve w := by
  have outcome := r.registration node address
  rw [registered] at outcome
  cases outcome with
  | granted _ => exact SortedMap.get?_insert r.addresses node w address

/-- Nobody holds the address that a node has moved away from, so anybody may have it. -/
theorem register_released (distinct : r.Distinct) (registered : r.register node address = .ok r')
    {earlier : SocketAddress} (held : r.resolve node = some earlier) (moved : earlier ≠ address)
    (w : NodeName) : ∃ r'', r'.register w earlier = .ok r'' := by
  have unheld (owner : NodeName) : r'.resolve owner ≠ some earlier := by
    rw [resolve_register registered]
    split
    · simpa using moved.symm
    next other =>
      intro holds
      exact other (distinct owner node earlier holds held)
  cases again : r'.register w earlier with
  | ok r'' => exact ⟨r'', rfl⟩
  | error conflict =>
    obtain ⟨owner, _, holds⟩ := (r'.refused_iff w earlier).1 ⟨conflict, again⟩
    exact absurd holds (unheld owner)

/-- What is promised about a registry. -/
structure Exclusive (r : Registry) : Prop where
  distinct : ∀ w w' a, r.resolve w = some a → r.resolve w' = some a → w = w'
  refused_iff : ∀ node address,
    (∃ conflict, r.register node address = .error conflict) ↔
      ∃ w, w ≠ node ∧ r.resolve w = some address
  /-- The owner that an error names is the only one there is. -/
  owner_iff : ∀ node address conflict, r.register node address = .error conflict →
    conflict.address = address ∧
      ∀ w, (w ≠ node ∧ r.resolve w = some address) ↔ w = conflict.owner
  resolve_register : ∀ node address r', r.register node address = .ok r' →
    ∀ w, r'.resolve w = if w = node then some address else r.resolve w
  /-- The address that a node moves away from can be given to any node. -/
  released : ∀ node address r' earlier, r.register node address = .ok r' →
    r.resolve node = some earlier → earlier ≠ address →
      ∀ w, ∃ r'', r'.register w earlier = .ok r''
  /-- The order of the table neither decides an answer nor what is left behind. -/
  unordered : ∀ order, r.Lists order → ∀ node address,
    r.registerIn order node address =
      match r.register node address with
      | .ok r' => (.ok (), r')
      | .error conflict => (.error conflict, r)
  takeOut : ∀ node, (r.takeOut node).1 = r.resolve node ∧
    ∀ w, (r.takeOut node).2.resolve w = if w = node then none else r.resolve w
  nodes : (∀ w, w ∈ r.nodes ↔ ∃ a, r.resolve w = some a) ∧
    (r.nodes.Pairwise fun w w' => compare w w' = .lt) ∧
    ∀ order, r.Lists order → sortedNodes order = r.nodes

/-- Addresses are held by one node each, a registration fails only for the sake of another owner,
and nothing but what was asked for is changed. -/
theorem exclusive_of_reached (reached : r.Reached) : r.Exclusive where
  distinct := reached.distinct
  refused_iff := r.refused_iff
  owner_iff _ _ _ refused := owner_iff reached.distinct refused
  resolve_register _ _ _ registered := resolve_register registered
  released _ _ _ _ registered held moved := register_released reached.distinct registered held moved
  unordered _ lists := registerIn_eq reached.distinct lists
  takeOut node := ⟨rfl, SortedMap.get?_erase r.addresses node⟩
  nodes := ⟨r.mem_nodes_iff, r.nodes_ascending, fun _ lists => sortedNodes_eq lists⟩

/-- A node moves, another one takes its address, a third is refused, and the first is taken out. -/
theorem exclusive_of_moved_node :
    let a := SocketAddress.loopback 40000
    let first := (Registry.empty.registerIn [] "a" a).2
    let moved := (first.registerIn [("a", a)] "a" (.loopback 40001)).2
    let given := (moved.registerIn moved.addresses.entries "b" a).2
    let refused := given.registerIn given.addresses.entries.reverse "c" a
    let last := (refused.2.takeOut "a").2
    last.Reached ∧ refused = (.error ⟨a, "b"⟩, given) ∧ last.nodes = ["b"] ∧ last.Exclusive := by
  intro a first moved given refused last
  have reached : last.Reached := by
    refine .takeOut (.register (.register (.register (.register .empty _ ?_ _ _) _ ?_ _ _)
      _ (lists_entries _) _ _) _ ?_ _ _) _
    · exact lists_entries Registry.empty
    · exact lists_entries first
    · exact (lists_entries given).reverse
  exact ⟨reached, by decide +kernel, by decide +kernel, exclusive_of_reached reached⟩

end Registry

end RegionNet
