import RegionNet.Proofs.Fleet.Deeds
import RegionNet.Proofs.Topology.Description

/-!
# What the nodes of a fleet see of each other

The nodes of a fleet are started, stopped and started again, fail and crash, and their datagrams are
delivered late, in another order or not at all. What a node then shows of a neighbor is one of the
messages that this neighbor shared, whole, and each node numbers its messages in the order in which
it sends them. The numbers rely on callers that wait for one another: a node that is started while a
stop of it still waits has two threads, and these share under one number.
-/

namespace RegionNet

/-- The name is one of a neighbor, as the vertex of the other name has it. -/
def Graph.Adjacent (g : Graph) (u w : NodeName) : Prop :=
  ∃ v, g.vertex? u = some v ∧ v.hasNeighbor w = true

/-- Nothing was started in the graph. -/
def Graph.Unused (g : Graph) : Prop :=
  ∀ v n, g.nodes.get? v = some n →
    ∃ vertex resources window, n = Node.new vertex resources window ∧ vertex.name = v

/-- Every link leads both ways. -/
def Graph.Reciprocal (g : Graph) : Prop :=
  ∀ u w, g.Adjacent u w → g.Adjacent w u

/-- What holds of a graph that was read and not used yet. -/
structure Graph.Assembled (g : Graph) : Prop where
  unused : g.Unused
  reciprocal : g.Reciprocal

theorem Graph.assembled_empty : Graph.empty.Assembled where
  unused v n present := by cases present
  reciprocal u w := by
    rintro ⟨x, vertex, _⟩
    cases vertex

/-- So is the graph of every text. -/
theorem Graph.assembled_of_read (source : DocumentSource) (text : String)
    (window : EstimationWindow) (t : Topology) (read : Topology.read source text = .ok t) :
    (ofTopology window t).Assembled := by
  have reflects := Topology.reflects_of_read text read
  constructor
  · intro v n present
    obtain ⟨m, member, rfl⟩ := nodeOf_of_present v n present
    exact ⟨m.vertex, _, window, rfl, reflects.declares.names v m member⟩
  · rintro u w ⟨x, vertex, neighbor⟩
    rw [vertex?_ofTopology, Option.map_eq_some_iff] at vertex
    obtain ⟨m, member, rfl⟩ := vertex
    rw [Vertex.hasNeighbor, SortedMap.contains, reflects.wired.neighbors u m member w] at neighbor
    -- whoever a link names is a member, and the link joins both ways
    obtain ⟨l, link, joins⟩ := (lastBandwidth_isSome_iff t.links u w).1 neighbor
    have ends := reflects.wired.ends l link
    have known : t.members.contains w = true := by
      rcases joins with ⟨_, rfl⟩ | ⟨rfl, _⟩
      · exact ends.2
      · exact ends.1
    obtain ⟨m', member'⟩ := (SortedMap.contains_iff _ w).1 known
    refine ⟨m'.vertex, by rw [vertex?_ofTopology, member']; rfl, ?_⟩
    rw [Vertex.hasNeighbor, SortedMap.contains, reflects.wired.neighbors w m' member' u,
      lastBandwidth_comm]
    exact neighbor

/-- The graph that a text describes, if it does. -/
def Graph.ofText (source : DocumentSource) (window : EstimationWindow) (text : String) : Graph :=
  match Topology.read source text with
  | .ok t => ofTopology window t
  | .error _ => empty

theorem Graph.assembled_ofText (source : DocumentSource) (window : EstimationWindow)
    (text : String) : (ofText source window text).Assembled := by
  simp only [ofText]
  split
  next t read => exact assembled_of_read source text window t read
  next => exact assembled_empty

/-- A datagram that a node sent, with the registry by which it went. -/
structure Sending where
  sender : NodeName
  registry : Registry
  datagram : Datagram

namespace Sending

/-- It was sent by one node to another. -/
def goes (v w : NodeName) (s : Sending) : Bool :=
  s.sender == v && s.registry.resolve w == some s.datagram.destination

def payload (s : Sending) : List UInt8 :=
  s.datagram.payload

end Sending

/-- The number that the message bears which is shown of a neighbor. -/
def NeighborState.round? : NeighborState → Option UInt64
  | known round _ => some round
  | unknown => none

/-- The messages that a node shared. -/
def Node.messages (n : Node) : List (Message Float) :=
  n.shares.map fun share => ⟨n.name, share.1, share.2⟩

namespace Fleet

/-- What was sent from one state of a fleet to the next one, in which a node did something. -/
def sendings (v : NodeName) (f f' : Fleet) : List Sending :=
  (f'.fabric.inFlight.drop f.fabric.inFlight.length).map fun d => ⟨v, f.fabric.registry, d⟩

/-- The nodes of a graph have come to this state of the fleet, and have sent all this on the way. A
call at a node, by a caller, a hook or the engine, begins when no other one is in progress there. The
system gives the nodes addresses at homes of theirs only. -/
inductive Run (g : Graph) (home : NodeName → SocketAddress → Prop) : List Sending → Fleet → Prop
  | new : Run g home [] (Fleet.ofGraph g)
  | deed {sent : List Sending} {f : Fleet} (run : Run g home sent f) (name : NodeName) (n : Node)
      (here : f.graph.nodes.get? name = some n) (d : Deed) (allowed : d.Allowed n)
      (given : ∀ a, d.given = some a → home name a) :
      Run g home (sent ++ f.sendings name (f.withNode name d.act)) (f.withNode name d.act)
  | deliver {sent : List Sending} {f : Fleet} (run : Run g home sent f) (index : Nat) :
      Run g home sent (f.deliver index)
  | lose {sent : List Sending} {f : Fleet} (run : Run g home sent f) (index : Nat) :
      Run g home sent (f.lose index)

/-- A node of the fleet shared the message that bears its name. -/
def Shared (f : Fleet) (m : Message Float) : Prop :=
  ∃ n, f.graph.nodes.get? m.sender = some n ∧ (m.round, m.values) ∈ n.shares

/-- A message that a node shared was sent to an address, where a neighbor may have its home. -/
def SentTo (g : Graph) (home : NodeName → SocketAddress → Prop) (f : Fleet) (a : SocketAddress)
    (m : Message Float) : Prop :=
  f.Shared m ∧ Addresses g.Adjacent home m.sender a

/-- A message that another node shared was heard by a node, which it may reach. -/
def HeardBy (g : Graph) (home : NodeName → SocketAddress → Prop) (f : Fleet) (u : NodeName)
    (m : Message Float) : Prop :=
  f.Shared m ∧ Reaches g.Adjacent home m.sender u

/-- What a run keeps. -/
structure Honest (g : Graph) (home : NodeName → SocketAddress → Prop) (sent : List Sending)
    (f : Fleet) : Prop where
  sound : f.Sound
  vertices : ∀ v, f.vertexOf v = g.vertex? v
  ledgers : f.EachNode fun _ n => n.Ledger
  distinct : f.fabric.registry.Distinct
  genuine : f.fabric.Genuine g.Adjacent (SentTo g home f) (HeardBy g home f)
  housed : f.fabric.Housed home
  recorded : ∀ v n, f.graph.nodes.get? v = some n → ∀ w,
    ((sent.filter (Sending.goes v w)).map Sending.payload).Sublist (n.messages.map Message.toBytes)
  short : ∀ s ∈ sent, s.payload.length ≤ largestDatagram

theorem Honest.new {g : Graph} {home : NodeName → SocketAddress → Prop} (unused : g.Unused) :
    Honest g home [] (ofGraph g) where
  sound v n present := by
    obtain ⟨vertex, resources, window, rfl, named⟩ := unused v n present
    exact ⟨named, Agent.Sane.new vertex resources window _ rfl⟩
  vertices _ := rfl
  ledgers v n present := by
    obtain ⟨vertex, resources, window, rfl, _⟩ := unused v n present
    exact .new vertex resources window
  distinct := Registry.distinct_empty
  genuine := .empty
  housed := .empty
  recorded v n present w := List.nil_sublist _
  short s member := by cases member

variable {g : Graph} {home : NodeName → SocketAddress → Prop} {sent : List Sending} {f : Fleet}

theorem vertexOf_withNode {name : NodeName} {n : Node} (here : f.graph.nodes.get? name = some n)
    (act : Node → Fabric → Node × Fabric) (vertex : (act n f.fabric).1.vertex = n.vertex)
    (v : NodeName) : (f.withNode name act).vertexOf v = f.vertexOf v := by
  simp only [vertexOf, Graph.vertex?, clients_withNode, nodes_withNode]
  split
  next same =>
    subst same
    rw [here, Option.map_some, Option.map_some, Option.map_some, vertex]
  next => rfl

/-- A node that does something shares nothing that is forgotten. -/
theorem shared_withNode {name : NodeName} {n : Node} (here : f.graph.nodes.get? name = some n)
    (act : Node → Fabric → Node × Fabric) (kept : n.shares ⊆ (act n f.fabric).1.shares)
    (m : Message Float) (shared : f.Shared m) : (f.withNode name act).Shared m := by
  obtain ⟨n', present, member⟩ := shared
  rw [Shared, nodes_withNode]
  split
  next same =>
    rw [same, here] at present
    cases present
    exact ⟨_, by rw [same, here, Option.map_some], kept member⟩
  next => exact ⟨n', present, member⟩

theorem sublist_singleton {α : Type} {l : List α} {a : α} (once : l.length ≤ 1)
    (same : ∀ x ∈ l, x = a) : l.Sublist [a] := by
  cases l with
  | nil => exact List.nil_sublist _
  | cons x l =>
    have none : l = [] := List.eq_nil_of_length_eq_zero (by simpa using once)
    rw [none, same x List.mem_cons_self]

/-- What a node sends when it shares goes to each other node at most once. -/
theorem sendings_of_share {v : Vertex} {f' : Fleet} {fabric : Fabric} (round : UInt64)
    (values : SortedMap String Float) (distinct : f.fabric.registry.Distinct)
    (inFlight : fabric.inFlight = f.fabric.inFlight)
    (known : ∀ w a, fabric.registry.resolve w = some a → f.fabric.registry.resolve w = some a)
    (shared : f'.fabric = fabric.share v round values) (w : NodeName) :
    (((f.sendings v.name f').filter (Sending.goes v.name w)).map Sending.payload).Sublist
      [(Message.mk v.name round values).toBytes] := by
  have sent : f'.fabric.inFlight.drop f.fabric.inFlight.length = [] ∨
      f'.fabric.inFlight.drop f.fabric.inFlight.length =
        fabric.addressed v (Message.mk v.name round values).toBytes := by
    rw [shared, Fabric.inFlight_share, inFlight, List.drop_left]
    split
    · exact .inr rfl
    · exact .inl rfl
  rw [sendings]
  rcases sent with none | all
  · rw [none]
    exact List.nil_sublist _
  · rw [all]
    rw [List.filter_map, List.map_map]
    refine sublist_singleton ?_ fun payload member => ?_
    · have once := Fabric.addressed_once distinct known v (Message.mk v.name round values).toBytes w
      simpa [Function.comp_def, Sending.goes] using once
    · obtain ⟨d, sent, rfl⟩ := List.mem_map.1 member
      obtain ⟨w', _, addressed⟩ := List.mem_filterMap.1 (List.mem_filter.1 sent).1
      obtain ⟨address, _, rfl⟩ := Option.map_eq_some_iff.1 addressed
      rfl

/-- What one node sends is not what another one sends. -/
theorem sendings_of_other {v v' : NodeName} (other : v' ≠ v) (f' : Fleet) (w : NodeName) :
    (f.sendings v f').filter (Sending.goes v' w) = [] := by
  rw [List.filter_eq_nil_iff]
  intro s member
  obtain ⟨d, _, rfl⟩ := List.mem_map.1 member
  simp [Sending.goes, other.symm]

namespace Honest

theorem vertex?_of_present (honest : Honest g home sent f) {name : NodeName} {n : Node}
    (here : f.graph.nodes.get? name = some n) : g.vertex? name = some n.vertex := by
  rw [← honest.vertices, vertexOf, Graph.vertex?, here]
  rfl

theorem adjacent_of_neighbor (honest : Honest g home sent f) {name : NodeName} {n : Node}
    (here : f.graph.nodes.get? name = some n) (w : NodeName)
    (neighbor : n.vertex.hasNeighbor w = true) : g.Adjacent n.vertex.name w := by
  have named : n.vertex.name = name := (honest.sound name n here).1
  exact ⟨n.vertex, by rw [named, honest.vertex?_of_present here], neighbor⟩

theorem neighbor_of_adjacent (honest : Honest g home sent f) {name w : NodeName} {n : Node}
    (here : f.graph.nodes.get? name = some n) (adjacent : g.Adjacent name w) :
    n.vertex.hasNeighbor w = true := by
  obtain ⟨v, known, neighbor⟩ := adjacent
  rw [honest.vertex?_of_present here] at known
  cases known
  exact neighbor

/-- Whatever a node does, its exchange shows neighbors only. -/
theorem neighbor_of_shown (honest : Honest g home sent f) {name : NodeName} {n : Node}
    (here : f.graph.nodes.get? name = some n) (f' : Fabric)
    (worked : Fabric.Worked n.vertex none f.fabric f') (w : NodeName)
    (shown : (Network.states n.vertex f').contains w = true) : n.vertex.hasNeighbor w = true := by
  obtain ⟨s, shown⟩ := (SortedMap.contains_iff _ w).1 shown
  have genuine := worked.genuine _ _ _ (honest.adjacent_of_neighbor here) honest.genuine
  have adjacent := ((genuine.exchange n.vertex.name).snapshot w s shown).1
  have named : n.vertex.name = name := (honest.sound name n here).1
  rw [named] at adjacent
  exact honest.neighbor_of_adjacent here adjacent

theorem ledgers_deed (honest : Honest g home sent f) {name : NodeName} {n : Node}
    (here : f.graph.nodes.get? name = some n) (d : Deed) :
    (f.withNode name d.act).EachNode fun _ n => n.Ledger := by
  intro v n' present
  rw [nodes_withNode] at present
  split at present
  next same =>
    rw [same, here] at present
    cases present
    exact (honest.sound name n here).2.ledger_act (honest.ledgers name n here) d
      (honest.neighbor_of_shown here)
  next => exact honest.ledgers v n' present

/-- A node that adds messages to those it shared may send each of these once more. -/
theorem recorded_deed (honest : Honest g home sent f) {name : NodeName} {n : Node}
    (here : f.graph.nodes.get? name = some n) (d : Deed) (new : List (Message Float))
    (messages : (d.act n f.fabric).1.messages = n.messages ++ new)
    (now : ∀ w, (((f.sendings name (f.withNode name d.act)).filter (Sending.goes name w)).map
      Sending.payload).Sublist (new.map Message.toBytes)) (v : NodeName) (n' : Node)
    (present : (f.withNode name d.act).graph.nodes.get? v = some n') (w : NodeName) :
    (((sent ++ f.sendings name (f.withNode name d.act)).filter (Sending.goes v w)).map
      Sending.payload).Sublist (n'.messages.map Message.toBytes) := by
  rw [List.filter_append, List.map_append]
  rw [nodes_withNode] at present
  split at present
  next same =>
    rw [same, here] at present
    cases present
    rw [messages, List.map_append, same]
    exact (honest.recorded name n here w).append (now w)
  next other =>
    rw [sendings_of_other other, List.map_nil, List.append_nil]
    exact honest.recorded v n' present w

/-- What is sent is what is in flight from then on, and so it is short. -/
theorem short_deed (honest : Honest g home sent f) (name : NodeName) {f' : Fleet}
    {near : NodeName → NodeName → Prop} {Sent : SocketAddress → Message Float → Prop}
    {Heard : NodeName → Message Float → Prop} (genuine : f'.fabric.Genuine near Sent Heard) :
    ∀ s ∈ sent ++ f.sendings name f', s.payload.length ≤ largestDatagram := by
  intro s member
  rcases List.mem_append.1 member with earlier | now
  · exact honest.short s earlier
  · obtain ⟨d, sent, rfl⟩ := List.mem_map.1 now
    exact (genuine.inFlight d (List.mem_of_mem_drop sent)).1

theorem deed (honest : Honest g home sent f) (name : NodeName) (n : Node)
    (here : f.graph.nodes.get? name = some n) (d : Deed) (allowed : d.Allowed n)
    (given : ∀ a, d.given = some a → home name a) :
    Honest g home (sent ++ f.sendings name (f.withNode name d.act)) (f.withNode name d.act) := by
  have named : n.vertex.name = name := (honest.sound name n here).1
  have sound := honest.sound.deed name n here d allowed
  have vertices (v : NodeName) : (f.withNode name d.act).vertexOf v = g.vertex? v := by
    rw [vertexOf_withNode here d.act (d.vertex_act n f.fabric), honest.vertices]
  have ledgers := honest.ledgers_deed here d
  have recorded := honest.recorded_deed here d
  have fabric := fabric_withNode here d.act
  have kept := shared_withNode here d.act
  have near := honest.adjacent_of_neighbor here
  have effect := d.effect n f.fabric
  obtain ⟨after, done⟩ : ∃ after, d.act n f.fabric = after := ⟨_, rfl⟩
  rw [done] at effect fabric kept recorded
  rw [← named] at given
  cases effect with
  | @quiet n' f' vertex shares worked =>
    have kept := kept (by rw [shares]; exact List.Subset.refl _)
    have genuine : (f.withNode name d.act).fabric.Genuine g.Adjacent
        (SentTo g home (f.withNode name d.act)) (HeardBy g home (f.withNode name d.act)) := by
      rw [fabric]
      exact (worked.genuine _ _ _ near honest.genuine).mono
        (fun _ m => And.imp_left (kept m)) fun _ m => And.imp_left (kept m)
    have messages : n'.messages = n.messages ++ [] := by
      rw [List.append_nil, Node.messages, Node.name, vertex, shares, Node.messages, Node.name]
    have nothing : f.sendings name (f.withNode name d.act) = [] := by
      rw [sendings, fabric, worked.inFlight, List.drop_length, List.map_nil]
    refine ⟨sound, vertices, ledgers, ?_, genuine, ?_, recorded [] messages fun w => ?_,
      honest.short_deed name genuine⟩
    · rw [fabric]
      exact worked.distinct honest.distinct
    · rw [fabric]
      exact worked.housed home given honest.housed
    · rw [nothing]
      exact List.nil_sublist _
  | @shares n' f' round values vertex shares worked known =>
    -- the message counts as shared in the new fleet, before any exchange can hold it
    have shared : (f.withNode name d.act).Shared ⟨n.vertex.name, round, values⟩ := by
      refine ⟨n', ?_, by rw [shares]; simp⟩
      rw [nodes_withNode, if_pos named, named, here, Option.map_some, done]
    have kept := kept (by rw [shares]; exact List.subset_append_left _ _)
    have housed : f'.Housed home := worked.housed home given honest.housed
    have genuine : (f.withNode name d.act).fabric.Genuine g.Adjacent
        (SentTo g home (f.withNode name d.act)) (HeardBy g home (f.withNode name d.act)) := by
      rw [fabric]
      exact ((worked.genuine _ _ _ near honest.genuine).mono
        (fun _ m => And.imp_left (kept m)) fun _ m => And.imp_left (kept m)).share round values
        fun w a neighbor resolved =>
          ⟨shared, w, near w neighbor, housed.registered w a resolved⟩
    have messages : n'.messages = n.messages ++ [⟨n.vertex.name, round, values⟩] := by
      rw [Node.messages, Node.name, vertex, shares, List.map_append, Node.messages, Node.name]
      rfl
    refine ⟨sound, vertices, ledgers, ?_, genuine, ?_, recorded _ messages fun w => ?_,
      honest.short_deed name genuine⟩
    · rw [fabric, Fabric.registry_share]
      exact worked.distinct honest.distinct
    · rw [fabric]
      exact housed.share
    · have now := sendings_of_share round values honest.distinct worked.inFlight known fabric w
      rwa [named] at now ⊢

end Honest

theorem Honest.deliver (honest : Honest g home sent f) (index : Nat) :
    Honest g home sent (f.deliver index) where
  sound := honest.sound.deliver index
  vertices := honest.vertices
  ledgers := honest.ledgers
  distinct := by
    simp only [Fleet.deliver, Fabric.deliver]
    split
    · exact honest.distinct
    · rw [Fabric.registry_receive]
      exact honest.distinct
  genuine := honest.genuine.deliver
    (fun u v known w neighbor => ⟨v, by rw [← honest.vertices, known], neighbor⟩)
    (fun u a m bound sent => ⟨sent.1, a, sent.2, honest.housed.listens u a bound⟩) index
  housed := honest.housed.deliver _ index
  recorded := honest.recorded
  short := honest.short

theorem Honest.lose (honest : Honest g home sent f) (index : Nat) :
    Honest g home sent (f.lose index) where
  sound := honest.sound.lose index
  vertices := honest.vertices
  ledgers := honest.ledgers
  distinct := honest.distinct
  genuine := honest.genuine.lose index
  housed := honest.housed.of_kept (fun _ _ => id) fun _ _ => id
  recorded := honest.recorded
  short := honest.short

theorem Run.honest (unused : g.Unused) (run : Run g home sent f) : Honest g home sent f := by
  induction run with
  | new => exact .new unused
  | deed _ name n here d allowed given honest => exact honest.deed name n here d allowed given
  | deliver _ index honest => exact honest.deliver index
  | lose _ index honest => exact honest.lose index

/-- The fleet after some nodes have done one thing after the other. -/
def doAll (f : Fleet) (deeds : List (NodeName × Deed)) : Fleet :=
  deeds.foldl (fun f d => f.withNode d.1 d.2.act) f

/-- What the nodes have sent meanwhile. -/
def sentIn (f : Fleet) : List (NodeName × Deed) → List Sending
  | [] => []
  | (name, d) :: deeds =>
    f.sendings name (f.withNode name d.act) ++ (f.withNode name d.act).sentIn deeds

/-- Can all this be done? -/
def permits (f : Fleet) : List (NodeName × Deed) → Bool
  | [] => true
  | (name, d) :: deeds =>
    (f.graph.nodes.get? name).any (fun n => decide (d.Allowed n)) &&
      (f.withNode name d.act).permits deeds

/-- What every deed keeps is kept by all of them. -/
theorem doAll_keeps {P : List Sending → Fleet → Prop} (deeds : List (NodeName × Deed))
    (keeps : ∀ sent f name n d, (name, d) ∈ deeds → f.graph.nodes.get? name = some n →
      d.Allowed n → P sent f →
        P (sent ++ f.sendings name (f.withNode name d.act)) (f.withNode name d.act))
    (permitted : f.permits deeds = true) (holds : P sent f) :
    P (sent ++ f.sentIn deeds) (f.doAll deeds) := by
  induction deeds generalizing f sent with
  | nil => rwa [sentIn, List.append_nil]
  | cons first deeds ih =>
    obtain ⟨name, d⟩ := first
    simp only [permits, Bool.and_eq_true, Option.any_eq_true, decide_eq_true_eq] at permitted
    obtain ⟨⟨n, here, allowed⟩, permitted⟩ := permitted
    rw [sentIn, ← List.append_assoc]
    exact ih (fun sent f name n d member => keeps sent f name n d (List.mem_cons_of_mem _ member))
      permitted (keeps sent f name n d List.mem_cons_self here allowed holds)

theorem Run.doAll (run : Run g home sent f) (deeds : List (NodeName × Deed))
    (permitted : f.permits deeds = true) (given : ∀ e ∈ deeds, ∀ a, e.2.given = some a → home e.1 a) :
    Run g home (sent ++ f.sentIn deeds) (f.doAll deeds) :=
  doAll_keeps deeds (fun _ _ name n d member here allowed run =>
    run.deed name n here d allowed (given _ member)) permitted run

/-- What a node sends to another one are messages that it shared, each once and in the order in
which it shared them. -/
theorem Honest.messages_sent (honest : Honest g home sent f) {v : NodeName} {n : Node}
    (here : f.graph.nodes.get? v = some n) (w : NodeName) : ∃ messages : List (Message Float),
      (sent.filter (Sending.goes v w)).map (fun s => Message.ofBytes s.payload) =
        messages.map .ok ∧ messages.Sublist n.messages := by
  obtain ⟨messages, part, sent_eq⟩ := List.sublist_map_iff.1 (honest.recorded v n here w)
  refine ⟨messages, ?_, part⟩
  have read : (sent.filter (Sending.goes v w)).map (fun s => Message.ofBytes s.payload) =
      ((sent.filter (Sending.goes v w)).map Sending.payload).map Message.ofBytes := by
    rw [List.map_map]
    rfl
  rw [read, sent_eq, List.map_map]
  refine List.map_congr_left fun m member => ?_
  -- a message that was sent fits into a datagram, and only such a message is sure to be read back
  have carried : m.toBytes ∈ (sent.filter (Sending.goes v w)).map Sending.payload :=
    sent_eq ▸ List.mem_map_of_mem member
  obtain ⟨s, goes, payload⟩ := List.mem_map.1 carried
  exact ofBytes_of_short m (payload ▸ honest.short s (List.mem_filter.1 goes).1)

/-- A node shows of a neighbor what the neighbor shared in one of its cycles: the number of the
cycle and the count of those neighbors that were known to it when it read what it knew of them. And
what a node sends to another one are messages that it shared, each once and with ascending numbers,
as long as these can be counted in a word. Whom a node shows is its own neighbor. It has the node
for a neighbor too, if links lead both ways or no two nodes ever have the same home. -/
theorem shows_what_was_shared (unused : g.Unused) (run : Run g home sent f) :
    (∀ u n, f.graph.nodes.get? u = some n → ∀ v round values,
      (Network.states n.vertex f.fabric).get? v = some (.known round values) →
        n.vertex.hasNeighbor v = true ∧
        ∃ n', f.graph.nodes.get? v = some n' ∧
          (g.Reciprocal ∨ (∀ w w' a, home w a → home w' a → w = w') →
            n'.vertex.hasNeighbor u = true) ∧
          ∃ cycle states, n'.reads[cycle]? = some states ∧
            n'.shares[cycle]? = some (round, values) ∧ round = UInt64.ofNat (cycle + 1) ∧
            (n'.completedCycles + 1 < UInt64.size → round.toNat = cycle + 1) ∧
            (NeighborState.known round values).value? Heartbeat.roundKey =
              some (Float.ofNat (cycle + 1)) ∧
            (NeighborState.known round values).value? Heartbeat.heardKey =
              some (Float.ofNat (n'.vertex.neighbors.keys.countP fun w =>
                (states.get? w).any NeighborState.isKnown))) ∧
    ∀ v n, f.graph.nodes.get? v = some n → ∀ w, ∃ messages : List (Message Float),
      (sent.filter (Sending.goes v w)).map (fun s => Message.ofBytes s.payload) =
        messages.map .ok ∧
      messages.Sublist n.messages ∧
      (n.completedCycles + 1 < UInt64.size → messages.Pairwise fun m m' => m.round < m'.round) := by
  have honest := run.honest unused
  refine ⟨fun u n here v round values shown => ?_, fun v n here w => ?_⟩
  · obtain ⟨adjacent, shared⟩ :=
      (honest.genuine.exchange n.vertex.name).snapshot v (.known round values) shown
    have named : n.vertex.name = u := (honest.sound u n here).1
    rw [named] at adjacent
    obtain ⟨⟨n', there, member⟩, reaches⟩ := shared round values rfl
    rw [named] at reaches
    refine ⟨honest.neighbor_of_adjacent here adjacent, n', there, fun known => ?_,
      (honest.ledgers v n' there).reads_of_share member⟩
    rcases known with reciprocal | own
    · exact honest.neighbor_of_adjacent there (reciprocal u v adjacent)
    · exact honest.neighbor_of_adjacent there (reaches.near own)
  · obtain ⟨messages, read, part⟩ := honest.messages_sent here w
    refine ⟨messages, read, part, fun counted => List.Pairwise.sublist part ?_⟩
    rw [Node.messages, List.pairwise_map]
    exact (honest.ledgers v n here).ascending counted

/-- Any node may get any address. -/
def anywhere : NodeName → SocketAddress → Prop := fun _ _ => True

/-- The text of two nodes with a link. -/
def pairText : String := "set s [new Simulator]
set a [$s node]
set b [$s node]
set l [$s duplex-link $a $b 1mb]"

def pair : Graph :=
  .ofText (fun _ => .ok .null) .short pairText

/-- A thread takes its next steps, and hooks and engine do nothing beside their work. -/
def turns (name : NodeName) (thread : ThreadId) (count : Nat) : List (NodeName × Deed) :=
  List.replicate count (name, .thread thread ⟨0, []⟩)

/-- A node is started, and listens at an address of its own. -/
def starts (name : NodeName) (port : UInt16) : List (NodeName × Deed) :=
  [(name, .start), (name, .call ⟨some (.loopback port), true⟩)]

/-- Both nodes start, and one of them comes to the engine of its first cycle. -/
def pairStarts : List (NodeName × Deed) :=
  starts "a" 1 ++ starts "b" 2 ++ turns "a" 0 4

/-- It has shared its counts. -/
def pairShared : Fleet :=
  (ofGraph pair).doAll (pairStarts ++ turns "a" 0 1)

/-- The other one has begun its first cycle after that. -/
def pairHeard : Fleet :=
  (pairShared.deliver 0).doAll (turns "b" 0 4)

/-- Is this node shown that one with a round, in a state that passes a test? -/
def shows (f : Fleet) (u v : NodeName) (round : UInt64) (test : NeighborState → Bool) : Bool :=
  (f.graph.nodes.get? u).any fun n => ((Network.states n.vertex f.fabric).get? v).any fun s =>
    s.round? = some round && test s

theorem known_of_shows {u v : NodeName} {round : UInt64} {test : NeighborState → Bool}
    (shown : f.shows u v round test = true) : ∃ n values, f.graph.nodes.get? u = some n ∧
      (Network.states n.vertex f.fabric).get? v = some (.known round values) ∧
      test (.known round values) = true := by
  simp only [shows, Option.any_eq_true, Bool.and_eq_true, decide_eq_true_eq] at shown
  obtain ⟨n, here, s, shown, same, passed⟩ := shown
  cases s with
  | unknown => cases same
  | known round' values =>
    cases Option.some.inj same
    exact ⟨n, values, here, shown, passed⟩

theorem shows_what_was_shared_by_pair : ∃ sent n n' values, Run pair anywhere sent pairHeard ∧
    pairHeard.graph.nodes.get? "b" = some n ∧
    (Network.states n.vertex pairHeard.fabric).get? "a" = some (.known 1 values) ∧
    pairHeard.graph.nodes.get? "a" = some n' ∧ n'.vertex.hasNeighbor "b" = true ∧
    (NeighborState.known 1 values).value? Heartbeat.roundKey = some (Float.ofNat 1) := by
  obtain ⟨_, shared⟩ : ∃ sent, Run pair anywhere sent pairShared :=
    ⟨_, Run.new.doAll (pairStarts ++ turns "a" 0 1) (by decide +kernel) fun _ _ _ _ => trivial⟩
  obtain ⟨sent, run⟩ : ∃ sent, Run pair anywhere sent pairHeard :=
    ⟨_, (shared.deliver 0).doAll (turns "b" 0 4) (by decide +kernel) fun _ _ _ _ => trivial⟩
  have heard : pairHeard.shows "b" "a" 1 (fun _ => true) = true := by decide +kernel
  have few : (pairHeard.graph.nodes.get? "a").all (fun n =>
      n.completedCycles + 1 < UInt64.size) = true := by
    decide +kernel
  obtain ⟨n, values, here, shown, _⟩ := known_of_shows heard
  have assembled : pair.Assembled := Graph.assembled_ofText ..
  obtain ⟨_, n', there, back, cycle, _, _, _, _, number, value, _⟩ :=
    (shows_what_was_shared assembled.unused run).1 "b" n here "a" 1 values shown
  have first : cycle = 0 := by
    have count := number (by simpa [there] using few)
    simpa using count.symm
  exact ⟨sent, n, n', values, run, here, shown, there,
    back (.inl assembled.reciprocal), by rw [value, first]⟩

/-! ### Calls that overlap, and links that lead one way -/

/-- The call that goes on at a node is another one, or none. -/
def withCall (f : Fleet) (name : NodeName) (call : Option Call) : Fleet :=
  f.withNode name fun n fabric => ({ n with call := call }, fabric)

/-- The nodes of a graph have come to this state of the fleet, although their outside callers do not
wait for one another: some calls are in progress but stand still, while another one goes on at the
same node. No hook and no engine makes a call from the time on at which the first call stands
still. -/
inductive Overlapping (g : Graph) : List (NodeName × Call) → List Sending → Fleet → Prop
  | run {sent : List Sending} {f : Fleet} (run : Run g anywhere sent f) :
      Overlapping g [] sent f
  | deed {still : List (NodeName × Call)} {sent : List Sending} {f : Fleet}
      (run : Overlapping g still sent f) (name : NodeName) (n : Node)
      (here : f.graph.nodes.get? name = some n) (d : Deed) (allowed : d.Allowed n)
      (outside : d.callsInside = false) :
      Overlapping g still (sent ++ f.sendings name (f.withNode name d.act)) (f.withNode name d.act)
  | deliver {still : List (NodeName × Call)} {sent : List Sending} {f : Fleet}
      (run : Overlapping g still sent f) (index : Nat) : Overlapping g still sent (f.deliver index)
  | lose {still : List (NodeName × Call)} {sent : List Sending} {f : Fleet}
      (run : Overlapping g still sent f) (index : Nat) : Overlapping g still sent (f.lose index)
  | stands {still : List (NodeName × Call)} {sent : List Sending} {f : Fleet}
      (run : Overlapping g still sent f) (name : NodeName) (n : Node)
      (here : f.graph.nodes.get? name = some n) (call : Call) (calls : n.call = some call) :
      Overlapping g ((name, call) :: still) sent (f.withCall name none)
  | goesOn {still : List (NodeName × Call)} {sent : List Sending} {f : Fleet}
      (run : Overlapping g still sent f) (name : NodeName) (n : Node)
      (here : f.graph.nodes.get? name = some n) (free : n.call = none) (call : Call)
      (begun : (name, call) ∈ still) :
      Overlapping g (still.erase (name, call)) sent (f.withCall name (some call))

theorem Overlapping.doAll {still : List (NodeName × Call)} (run : Overlapping g still sent f)
    (deeds : List (NodeName × Deed)) (permitted : f.permits deeds = true)
    (outside : ∀ d ∈ deeds, d.2.callsInside = false) :
    Overlapping g still (sent ++ f.sentIn deeds) (f.doAll deeds) :=
  doAll_keeps deeds (fun _ _ name n d member here allowed run =>
    run.deed name n here d allowed (outside _ member)) permitted run

/-- One caller stops a node whose thread is in the engine. -/
def pairStops : List (NodeName × Deed) :=
  pairStarts ++ [("a", .stop), ("a", .call ⟨none, true⟩), ("a", .call ⟨none, true⟩)]

/-- Another one starts it meanwhile. The new thread comes to the engine too, and then both of them
go on. -/
def pairRestarts : List (NodeName × Deed) :=
  starts "a" 3 ++ turns "a" 1 4 ++ turns "a" 0 1 ++ turns "a" 1 1

def pairStopped : Fleet :=
  ((ofGraph pair).doAll pairStops).withCall "a" none

/-- The second of the two messages arrives, and is heard. -/
def pairConfused : Fleet :=
  ((pairStopped.doAll pairRestarts).deliver 1).doAll (turns "b" 0 4)

/-- Three nodes with two links that lead one way: what the second one sends is for the third. -/
def oneWay : Graph where
  nodes := SortedMap.ofList
    ([(Vertex.new "u").addNeighbor "v" 1, (Vertex.new "v").addNeighbor "w" 1, Vertex.new "w"].map
      fun v => (v.name, Node.new v .unmeasured .short))
  clients := ∅
  links := []

theorem oneWay_unused : oneWay.Unused := by
  intro name n present
  rw [oneWay, SortedMap.get?_ofList, SortedMap.lastValue, Option.map_eq_some_iff] at present
  obtain ⟨e, last, rfl⟩ := present
  obtain ⟨member, named⟩ := List.mem_filter.1 (List.mem_of_getLast? last)
  obtain ⟨v, _, rfl⟩ := List.mem_map.1 member
  exact ⟨v, _, _, rfl, of_decide_eq_true named⟩

/-- The third node stops before the message arrives, and the first one listens where it did. -/
def oneWayDeeds : List (NodeName × Deed) :=
  starts "v" 1 ++ starts "w" 2 ++ turns "v" 0 5 ++
    [("w", .stop), ("w", .call ⟨none, true⟩), ("w", .call ⟨none, true⟩)] ++ starts "u" 2

def oneWayHeard : Fleet :=
  (((ofGraph oneWay).doAll oneWayDeeds).deliver 0).doAll (turns "u" 0 4)

/-- Two threads of one node share under one number, if a start does not wait for the stop before it.
And a node shows a neighbor that never sent it anything, if a link may lead one way and an address
may pass from one node to another. -/
theorem round_repeated_and_stranger_shown :
    (∃ still sent n values, Overlapping pair still sent pairConfused ∧
      pairConfused.graph.nodes.get? "b" = some n ∧
      (Network.states n.vertex pairConfused.fabric).get? "a" = some (.known 1 values) ∧
      (NeighborState.known 1 values).value? Heartbeat.roundKey ≠ some (Float.ofNat 1) ∧
      (sent.filter (Sending.goes "a" "b")).map
        (fun s => (Message.ofBytes s.payload).toOption.map Message.round) = [some 1, some 1]) ∧
    oneWay.Unused ∧ ∃ sent n n' values, Run oneWay anywhere sent oneWayHeard ∧
      oneWayHeard.graph.nodes.get? "u" = some n ∧
      (Network.states n.vertex oneWayHeard.fabric).get? "v" = some (.known 1 values) ∧
      oneWayHeard.graph.nodes.get? "v" = some n' ∧ n'.vertex.hasNeighbor "u" = false := by
  constructor
  · have stands : (((ofGraph pair).doAll pairStops).graph.nodes.get? "a").any
        (fun n => n.call = some (.stopJoin (some 0))) = true := by
      decide +kernel
    simp only [Option.any_eq_true, decide_eq_true_eq] at stands
    obtain ⟨a, present, calls⟩ := stands
    have stopping : Run pair anywhere _ _ :=
      Run.new.doAll pairStops (by decide +kernel) fun _ _ _ _ => trivial
    have stopped := (Overlapping.run stopping).stands "a" a present _ calls
    have restarted := stopped.doAll pairRestarts (by decide +kernel) (by decide +kernel)
    obtain ⟨still, sent, run, rounds⟩ : ∃ still sent, Overlapping pair still sent pairConfused ∧
        (sent.filter (Sending.goes "a" "b")).map
          (fun s => (Message.ofBytes s.payload).toOption.map Message.round) = [some 1, some 1] :=
      ⟨_, _, (restarted.deliver 1).doAll (turns "b" 0 4) (by decide +kernel) (by decide +kernel),
        by decide +kernel⟩
    have shown : pairConfused.shows "b" "a" 1 (fun s =>
        s.value? Heartbeat.roundKey ≠ some (Float.ofNat 1)) = true := by
      decide +kernel
    obtain ⟨n, values, here, shown, other⟩ := known_of_shows shown
    exact ⟨still, sent, n, values, run, here, shown, of_decide_eq_true other, rounds⟩
  · have stopped : Run oneWay anywhere _ _ :=
      Run.new.doAll oneWayDeeds (by decide +kernel) fun _ _ _ _ => trivial
    obtain ⟨sent, run⟩ : ∃ sent, Run oneWay anywhere sent oneWayHeard :=
      ⟨_, (stopped.deliver 0).doAll (turns "u" 0 4) (by decide +kernel) fun _ _ _ _ => trivial⟩
    have heard : oneWayHeard.shows "u" "v" 1 (fun _ => true) = true := by decide +kernel
    have stranger : (oneWayHeard.graph.nodes.get? "v").any
        (fun n => n.vertex.hasNeighbor "u" = false) = true := by
      decide +kernel
    simp only [Option.any_eq_true, decide_eq_true_eq] at stranger
    obtain ⟨n', there, stranger⟩ := stranger
    obtain ⟨n, values, here, shown, _⟩ := known_of_shows heard
    exact ⟨oneWay_unused, sent, n, n', values, run, here, shown, there, stranger⟩

end Fleet

end RegionNet
