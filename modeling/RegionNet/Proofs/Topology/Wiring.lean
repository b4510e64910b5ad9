import RegionNet.Proofs.Topology.Effect

/-!
# Links wire vertices

A link makes each of its ends the neighbor of the other, and no other statement touches a table of
neighbors. So the tables can be read off the links: a vertex lists another if some link joins the
two, whichever of them it names first, and the bandwidth is that of the last such link. Beside that,
what a declaration says of its vertex stays: its name, its document and whether it is a client.
-/

namespace RegionNet

namespace Link

/-- The link runs between the two vertices, in either direction. -/
def Joins (l : Link) (u v : NodeName) : Prop :=
  (l.left = u ∧ l.right = v) ∨ (l.left = v ∧ l.right = u)

instance (l : Link) (u v : NodeName) : Decidable (l.Joins u v) :=
  inferInstanceAs (Decidable (_ ∨ _))

theorem joins_comm (l : Link) (u v : NodeName) : l.Joins u v ↔ l.Joins v u :=
  or_comm

end Link

/-- The bandwidth of the last link that joins two vertices. -/
def lastBandwidth (links : List Link) (u v : NodeName) : Option Float :=
  ((links.filter fun l => l.Joins u v).getLast?).map Link.bandwidth

theorem lastBandwidth_concat (links : List Link) (l : Link) (u v : NodeName) :
    lastBandwidth (links ++ [l]) u v =
      if l.Joins u v then some l.bandwidth else lastBandwidth links u v := by
  rw [lastBandwidth, List.filter_append]
  by_cases joins : l.Joins u v
  · simp [joins]
  · simp [joins, lastBandwidth]

theorem lastBandwidth_comm (links : List Link) (u v : NodeName) :
    lastBandwidth links u v = lastBandwidth links v u := by
  simp only [lastBandwidth, Link.joins_comm _ u v]

theorem lastBandwidth_isSome_iff (links : List Link) (u v : NodeName) :
    (lastBandwidth links u v).isSome = true ↔ ∃ l ∈ links, l.Joins u v := by
  rw [lastBandwidth, Option.isSome_map, Option.isSome_iff_ne_none, ne_eq,
    List.getLast?_eq_none_iff, List.filter_eq_nil_iff]
  simp

namespace Topology

variable {source : DocumentSource} {t t' : Topology}

/-- The bandwidth with which a vertex lists another. -/
def bandwidth? (t : Topology) (u v : NodeName) : Option Float :=
  (t.members.get? u).bind fun m => m.vertex.neighbors.get? v

def hardware? (t : Topology) (v : NodeName) : Option String :=
  (t.members.get? v).bind fun m => m.vertex.hardware

theorem get?_of_missing (v : NodeName) (missing : t.members.contains v = false) :
    t.members.get? v = none := by
  simpa [SortedMap.contains] using missing

theorem neighbors_new (name : NodeName) (document : Json) :
    (Member.new name document).vertex.neighbors = ∅ := by
  simp only [Member.new]
  split <;> rfl

theorem hardware_new (name : NodeName) (document : Json) :
    (Member.new name document).vertex.hardware = none := by
  simp only [Member.new]
  split <;> rfl

theorem name_new (name : NodeName) (document : Json) :
    (Member.new name document).vertex.name = name := by
  simp only [Member.new]
  split <;> rfl

/-! ### What a declaration fixes -/

/-- Every vertex is kept under its own name, with the document that configures it. -/
structure Declares (source : DocumentSource) (members : SortedMap NodeName Member) : Prop where
  names : ∀ v m, members.get? v = some m → m.vertex.name = v
  documents : ∀ v m, members.get? v = some m →
    source v = .ok m.document ∧ m.isClient = Vertex.isClient m.document

/-- Two states of one declared vertex. -/
structure Member.Continues (m m' : Member) : Prop where
  name : m'.vertex.name = m.vertex.name
  document : m'.document = m.document
  isClient : m'.isClient = m.isClient

variable {members : SortedMap NodeName Member}

theorem declares_empty : Declares source ∅ := by
  constructor
  · intro v m present
    simp at present
  · intro v m present
    simp at present

theorem Declares.insert (declares : Declares source members) (name : NodeName) (document : Json)
    (found : source name = .ok document) :
    Declares source (members.insert name (Member.new name document)) := by
  constructor
  · intro v m present
    rw [SortedMap.get?_insert] at present
    split at present
    next same =>
      cases present
      rw [same, name_new]
    next => exact declares.names v m present
  · intro v m present
    rw [SortedMap.get?_insert] at present
    split at present
    next same =>
      cases present
      rw [same]
      exact ⟨found, rfl⟩
    next => exact declares.documents v m present

theorem Declares.modify (declares : Declares source members) (name : NodeName)
    (f : Member → Member) (continues : ∀ m, Member.Continues m (f m)) :
    Declares source (members.modify name f) := by
  have origin (v : NodeName) (m : Member) (present : (members.modify name f).get? v = some m) :
      ∃ m₀, members.get? v = some m₀ ∧ Member.Continues m₀ m := by
    rw [SortedMap.get?_modify] at present
    split at present
    next same =>
      obtain ⟨m₀, present₀, rfl⟩ := Option.map_eq_some_iff.1 present
      exact ⟨m₀, present₀, continues m₀⟩
    next => exact ⟨m, present, rfl, rfl, rfl⟩
  constructor
  · intro v m present
    obtain ⟨m₀, present₀, same⟩ := origin v m present
    rw [same.name]
    exact declares.names v m₀ present₀
  · intro v m present
    obtain ⟨m₀, present₀, same⟩ := origin v m present
    rw [same.document, same.isClient]
    exact declares.documents v m₀ present₀

theorem Effect.declares {statement : Statement} (effect : Effect source t statement t')
    (declares : Declares source t.members) : Declares source t'.members := by
  cases effect with
  | silent => exact declares
  | simulator => exact declares
  | node _ _ found => exact declares.insert _ _ found
  | link =>
    -- both ends are changed, one after the other
    exact (declares.modify _ (·.addNeighbor _ _) fun _ => ⟨rfl, rfl, rfl⟩).modify _
      (·.addNeighbor _ _) fun _ => ⟨rfl, rfl, rfl⟩
  | hardware => exact declares.modify _ (·.setHardware _) fun _ => ⟨rfl, rfl, rfl⟩

/-! ### What links fix -/

/-- Links end at declared vertices, which list each other as the links say. -/
structure Wired (t : Topology) : Prop where
  ends : ∀ l ∈ t.links, t.members.contains l.left = true ∧ t.members.contains l.right = true
  bandwidths : ∀ u v, t.bandwidth? u v = lastBandwidth t.links u v

theorem Wired.neighbors (wired : Wired t) (u : NodeName) (m : Member)
    (member : t.members.get? u = some m) (v : NodeName) :
    m.vertex.neighbors.get? v = lastBandwidth t.links u v := by
  rw [← wired.bandwidths, bandwidth?, member]
  rfl

theorem wired_empty : Wired empty := by
  constructor
  · intro l member
    simp [empty] at member
  · intro u v
    rfl

/-- A new vertex has no neighbors, and no link names it yet. -/
theorem Wired.insert (wired : Wired t) (name : NodeName) (document : Json)
    (new : t.members.contains name = false) :
    Wired { t with members := t.members.insert name (Member.new name document) } := by
  constructor
  · intro l member
    obtain ⟨left, right⟩ := wired.ends l member
    exact ⟨(SortedMap.contains_insert _ _ _ _).2 (.inl left),
      (SortedMap.contains_insert _ _ _ _).2 (.inl right)⟩
  · intro u v
    rw [← wired.bandwidths u v, bandwidth?, bandwidth?, SortedMap.get?_insert]
    split
    next same =>
      rw [same, get?_of_missing name new, Option.bind_some, neighbors_new]
      rfl
    next => rfl

theorem Wired.modify (wired : Wired t) (name : NodeName) (f : Member → Member)
    (keeps : ∀ m, (f m).vertex.neighbors = m.vertex.neighbors) :
    Wired { t with members := t.members.modify name f } := by
  constructor
  · intro l member
    rw [SortedMap.contains_modify, SortedMap.contains_modify]
    exact wired.ends l member
  · intro u v
    rw [← wired.bandwidths u v, bandwidth?, bandwidth?, SortedMap.get?_modify]
    split
    next same =>
      rw [same, Option.bind_map]
      simp only [Function.comp_def, keeps]
    next => rfl

theorem bandwidth?_connect (l : Link) (left : t.members.contains l.left = true)
    (right : t.members.contains l.right = true) (u v : NodeName) :
    (t.connect l).bandwidth? u v = if l.Joins u v then some l.bandwidth else t.bandwidth? u v := by
  obtain ⟨a, at_left⟩ := (SortedMap.contains_iff _ _).1 left
  obtain ⟨b, at_right⟩ := (SortedMap.contains_iff _ _).1 right
  simp only [bandwidth?, connect, SortedMap.get?_modify, Link.Joins]
  -- by the end of the link at which the first vertex stands, if it stands at one
  by_cases atRight : u = l.right
  · by_cases loop : l.right = l.left
    · simp only [atRight, loop, at_left, ↓reduceIte, Option.map_some, Option.bind_some,
        Member.addNeighbor, Vertex.addNeighbor, SortedMap.get?_insert]
      grind
    · simp only [atRight, loop, at_right, ↓reduceIte, Option.map_some, Option.bind_some,
        Member.addNeighbor, Vertex.addNeighbor, SortedMap.get?_insert]
      grind
  · by_cases atLeft : u = l.left
    · have proper : l.left ≠ l.right := fun loop => atRight (atLeft.trans loop)
      simp only [atLeft, proper, at_left, ↓reduceIte, Option.map_some, Option.bind_some,
        Member.addNeighbor, Vertex.addNeighbor, SortedMap.get?_insert]
      grind
    · grind

/-- A link between declared vertices becomes the last one between them. -/
theorem Wired.connect (wired : Wired t) (l : Link) (left : t.members.contains l.left = true)
    (right : t.members.contains l.right = true) : Wired (t.connect l) := by
  constructor
  · intro l' member
    simp only [Topology.connect, SortedMap.contains_modify]
    rcases List.mem_append.1 member with old | new
    · exact wired.ends l' old
    · obtain rfl := List.mem_singleton.1 new
      exact ⟨left, right⟩
  · intro u v
    rw [bandwidth?_connect l left right, wired.bandwidths u v]
    exact (lastBandwidth_concat t.links l u v).symm

theorem Effect.wired {statement : Statement} (effect : Effect source t statement t')
    (wired : Wired t) : Wired t' := by
  cases effect with
  | silent => exact wired
  | simulator => exact ⟨wired.ends, wired.bandwidths⟩
  | node _ new _ => exact wired.insert _ _ new
  | link _ known known' _ => exact wired.connect _ known known'
  | hardware => exact wired.modify _ _ fun _ => rfl

end Topology

end RegionNet
