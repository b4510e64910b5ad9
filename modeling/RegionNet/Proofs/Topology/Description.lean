import Mathlib.Data.List.Forall2
import RegionNet.Graph
import RegionNet.Proofs.Topology.Reading
import RegionNet.Proofs.Topology.Wiring

/-!
# The graph that a text describes

A graph that was read from a text says what the text says and nothing else. Its vertices are the
declared ones, each a node or a client as its document asks. Its links are the link statements in
their order, its tables of neighbors are what these links say, and the hardware of a vertex is what
the last label for it reflects.
-/

namespace RegionNet

/-! ### What lines say -/

def DeclaresLink (line : List Char) : Prop :=
  ∃ name target rest, Constructs line name target ("duplex-link".toList :: rest)

/-- The line declares the link: its name, its ends in order, and its bandwidth. -/
def StatesLink (line : List Char) (l : Link) : Prop :=
  ∃ target bandwidth rest,
    Constructs line l.name.toList target
      ("duplex-link".toList :: ('$' :: l.left.toList) :: ('$' :: l.right.toList) :: bandwidth ::
        rest) ∧
      Bandwidth.ofText (String.ofList bandwidth) = .ok l.bandwidth

def StatesLabel (line : List Char) (v : NodeName) (label : String) : Prop :=
  Text.words line = ["tb-set-node-os".toList, '$' :: v.toList, label.toList]

/-- Among the lines that label the vertex, the last one does so with the label. -/
def LastLabel (lines : List (List Char)) (v : NodeName) (label : String) : Prop :=
  ∃ before line after, lines = before ++ line :: after ∧ StatesLabel line v label ∧
    ∀ l ∈ after, ∀ other, ¬ StatesLabel l v other

theorem lastLabel_nil (v : NodeName) (label : String) : ¬ LastLabel [] v label := by
  rintro ⟨before, line, after, lines, _⟩
  simp at lines

theorem lastLabel_concat (lines : List (List Char)) (line : List Char) (v : NodeName)
    (label : String) :
    LastLabel (lines ++ [line]) v label ↔
      StatesLabel line v label ∨
        LastLabel lines v label ∧ ∀ other, ¬ StatesLabel line v other := by
  constructor
  · rintro ⟨before, l, after, same, states, silent⟩
    rcases List.eq_nil_or_concat after with rfl | ⟨after', last, rfl⟩
    · obtain ⟨rfl, here⟩ := List.append_inj' same rfl
      cases here
      exact .inl states
    · -- the label stands before the last line, which does not label the vertex
      rw [List.concat_eq_append, ← List.cons_append, ← List.append_assoc] at same
      obtain ⟨rfl, here⟩ := List.append_inj' same rfl
      cases here
      rw [List.concat_eq_append] at silent
      exact .inr ⟨⟨before, l, after', rfl, states, fun l' member =>
        silent l' (List.mem_append_left _ member)⟩, silent line (by simp)⟩
  · rintro (states | ⟨⟨before, l, after, rfl, states, silent⟩, last⟩)
    · exact ⟨lines, line, [], rfl, states, by simp⟩
    · refine ⟨before, l, after ++ [line], by simp, states, fun l' member => ?_⟩
      rcases List.mem_append.1 member with old | new
      · exact silent l' old
      · rw [List.mem_singleton.1 new]
        exact last

namespace Statement

theorem ofLine_eq_hardware_iff (line : List Char) (operands : List (List Char)) :
    ofLine line = hardware (operands.map String.ofList) ↔
      Text.words line = hardwareKeyword :: operands := by
  constructor
  · intro read
    by_cases label : (Text.words line).head? = some hardwareKeyword
    · obtain ⟨rest, words⟩ := List.head?_eq_some_iff.1 label
      rw [ofLine_of_hardware line rest words] at read
      rw [words, List.map_injective_iff.2 (fun _ _ => String.ofList_injective) (hardware.inj read)]
    · -- no other line labels a vertex
      by_cases set : (Text.words line).head? = some setKeyword
      · rw [ofLine_of_set line set, ofSetLine] at read
        grind
      · rw [ofLine_of_other line set label] at read
        cases read
  · exact ofLine_of_hardware line operands

theorem statesLabel_iff (line : List Char) (v : NodeName) (label : String) :
    StatesLabel line v label ↔ ofLine line = hardware [Topology.mark v, label] := by
  have read := ofLine_eq_hardware_iff line ['$' :: v.toList, label.toList]
  simp only [List.map_cons, List.map_nil, String.ofList_toList] at read
  exact read.symm

def makesLink : Statement → Bool
  | construct _ _ (type :: _) => type == "duplex-link"
  | _ => false

theorem makesLink_iff (statement : Statement) :
    statement.makesLink = true ↔
      ∃ name target rest, statement = construct name target ("duplex-link" :: rest) := by
  cases statement with
  | construct name target operands => cases operands <;> simp [makesLink]
  | _ => simp [makesLink]

theorem declaresLink_iff (line : List Char) :
    DeclaresLink line ↔
      ∃ name target rest, ofLine line = construct name target ("duplex-link" :: rest) := by
  constructor
  · rintro ⟨name, target, rest, constructs⟩
    exact ⟨_, _, _, ofLine_of_constructs line name target _ constructs⟩
  · rintro ⟨name, target, rest, read⟩
    rw [← String.ofList_toList (s := name)] at read
    exact ⟨name.toList, target.toList, rest.map String.toList,
      constructs_of_ofLine line name.toList target _ read⟩

end Statement

instance (line : List Char) : Decidable (DeclaresLink line) :=
  decidable_of_iff ((Statement.ofLine line).makesLink = true) (by
    rw [Statement.makesLink_iff, Statement.declaresLink_iff])

/-! ### What is read -/

namespace Topology

variable {lines : List (List Char)} {line : List Char} {source : DocumentSource} {t t' : Topology}

/-- Labels replace each other, and nothing else labels a vertex. -/
theorem Effect.hardware_iff {statement : Statement} (effect : Effect source t statement t')
    (v : NodeName) (label : String) :
    t'.hardware? v = some label ↔
      statement = .hardware [mark v, label] ∨
        t.hardware? v = some label ∧ ∀ other, statement ≠ .hardware [mark v, other] := by
  cases effect with
  | silent => simp
  | simulator => simp [hardware?]
  | @node name _ _ document _ new _ =>
    by_cases same : v = name
    · -- a vertex without a label, like the one that was not there
      simp [hardware?, same, SortedMap.get?_insert, hardware_new, get?_of_missing name new]
    · simp [hardware?, same, SortedMap.get?_insert]
  | @link name _ left right _ _ speed _ _ =>
    have kept : (t.connect ⟨name, left, right, speed⟩).hardware? v = t.hardware? v := by
      simp only [hardware?, connect, SortedMap.get?_modify]
      cases t.members.get? v <;> grind [Member.addNeighbor, Vertex.addNeighbor]
    simp [kept]
  | @hardware w os known =>
    obtain ⟨m, present⟩ := (SortedMap.contains_iff _ _).1 known
    by_cases same : v = w
    · simp [hardware?, same, SortedMap.get?_modify, present, Member.setHardware, eq_comm]
    · have other : mark w ≠ mark v := by
        simpa [mark, String.ofList_inj, String.toList_inj] using fun eq => same eq.symm
      simp [hardware?, same, SortedMap.get?_modify, other]

theorem Effect.links_concat {statement : Statement} (effect : Effect source t statement t')
    (name target : String) (operands : List String)
    (read : statement = .construct name target ("duplex-link" :: operands)) :
    ∃ left right bandwidth rest speed, operands = mark left :: mark right :: bandwidth :: rest ∧
      Bandwidth.ofText bandwidth = .ok speed ∧
      t'.links = t.links ++ [⟨name, left, right, speed⟩] := by
  cases effect with
  | link _ _ _ value =>
    cases read
    exact ⟨_, _, _, _, _, rfl, value, rfl⟩
  | _ => simp at read

theorem Effect.links_keep {statement : Statement} (effect : Effect source t statement t')
    (other : statement.makesLink = false) : t'.links = t.links := by
  cases effect with
  | link => simp [Statement.makesLink] at other
  | _ => rfl

theorem Effect.states_links (effect : Effect source t (Statement.ofLine line) t')
    (links : List.Forall₂ StatesLink (lines.filter DeclaresLink) t.links) :
    List.Forall₂ StatesLink ((lines ++ [line]).filter DeclaresLink) t'.links := by
  rw [List.filter_append]
  by_cases declares : DeclaresLink line
  · obtain ⟨name, target, operands, read⟩ := (Statement.declaresLink_iff line).1 declares
    obtain ⟨left, right, bandwidth, rest, speed, rfl, value, added⟩ :=
      (read ▸ effect).links_concat name target operands rfl
    rw [← String.ofList_toList (s := name)] at read
    have constructs := Statement.constructs_of_ofLine line name.toList target _ read
    have states : StatesLink line ⟨name, left, right, speed⟩ :=
      ⟨_, _, _, by simpa [mark] using constructs, by simpa using value⟩
    rw [List.filter_cons_of_pos (by simpa using declares), List.filter_nil, added]
    exact List.rel_append links (.cons states .nil)
  · have other : (Statement.ofLine line).makesLink = false := by
      simpa [Statement.declaresLink_iff, ← Statement.makesLink_iff] using declares
    rw [List.filter_cons_of_neg (by simpa using declares), List.filter_nil, List.append_nil,
      effect.links_keep other]
    exact links

/-- What is built from the lines read so far is what they say. -/
structure Reflects (source : DocumentSource) (lines : List (List Char)) (t : Topology) : Prop where
  agrees : Agrees lines t
  declares : Declares source t.members
  wired : Wired t
  links : List.Forall₂ StatesLink (lines.filter DeclaresLink) t.links
  labels : ∀ v label, t.hardware? v = some label ↔ LastLabel lines v label

theorem reflects_nil : Reflects source [] empty where
  agrees := agrees_nil
  declares := declares_empty
  wired := wired_empty
  links := .nil
  labels v label := by simp [hardware?, empty, lastLabel_nil]

theorem Reflects.next (reflects : Reflects source lines t)
    (effect : Effect source t (Statement.ofLine line) t') :
    Reflects source (lines ++ [line]) t' where
  agrees := reflects.agrees.next effect
  declares := effect.declares reflects.declares
  wired := effect.wired reflects.wired
  links := effect.states_links reflects.links
  labels v label := by
    simp only [effect.hardware_iff, lastLabel_concat, reflects.labels, Statement.statesLabel_iff,
      ne_eq]

theorem reflects_of_run (lines : List (List Char))
    (run : lines.foldlM (readStatement source) empty = .ok t) : Reflects source lines t := by
  induction lines using List.reverseRecOn generalizing t with
  | nil =>
    cases run
    exact reflects_nil
  | append_singleton earlier line ih =>
    rw [List.foldlM_append, Outcome.bind_eq_ok_iff] at run
    obtain ⟨t₀, before, last⟩ := run
    rw [List.foldlM_cons, Outcome.bind_eq_ok_iff] at last
    obtain ⟨t₁, obeyed, done⟩ := last
    cases done
    exact (ih before).next (effect_of_obey _ obeyed)

theorem reflects_of_read (text : String) (read : Topology.read source text = .ok t) :
    Reflects source (statementLines text) t := by
  rw [read_eq_foldlM] at read
  exact reflects_of_run (statementLines text) read

end Topology

/-! ### Nodes and clients -/

namespace Graph

variable {window : EstimationWindow} {t : Topology}

theorem nodes_ofTopology (v : NodeName) :
    (ofTopology window t).nodes.get? v =
      (t.members.get? v).bind fun m => if m.isClient then none else some (nodeOf window m) :=
  SortedMap.get?_filterMap ..

/-- Every node of the graph of a topology was made from a member. -/
theorem nodeOf_of_present (v : NodeName) (n : Node)
    (present : (ofTopology window t).nodes.get? v = some n) :
    ∃ m, t.members.get? v = some m ∧ n = nodeOf window m := by
  rw [nodes_ofTopology, Option.bind_eq_some_iff] at present
  obtain ⟨m, member, kind⟩ := present
  split at kind
  · cases kind
  · exact ⟨m, member, (Option.some.inj kind).symm⟩

theorem clients_ofTopology (v : NodeName) :
    (ofTopology window t).clients.get? v =
      (t.members.get? v).bind fun m => if m.isClient then some m.vertex else none :=
  SortedMap.get?_filterMap ..

/-- A member is a node or a client of the graph, and either way its vertex is the member's. -/
theorem vertex?_ofTopology (v : NodeName) :
    (ofTopology window t).vertex? v = (t.members.get? v).map Member.vertex := by
  rw [vertex?, nodes_ofTopology, clients_ofTopology]
  cases t.members.get? v with
  | none => rfl
  | some m => cases kind : m.isClient <;> simp [kind, nodeOf, Node.new]

theorem contains_eq_isSome (g : Graph) (v : NodeName) : g.contains v = (g.vertex? v).isSome := by
  simp [contains, SortedMap.contains, vertex?]

theorem contains_ofTopology (v : NodeName) :
    (ofTopology window t).contains v = t.members.contains v := by
  rw [contains_eq_isSome, vertex?_ofTopology, Option.isSome_map, SortedMap.contains]

/-- The graph is what the lines say, with every vertex as its document asks. -/
structure Describes (source : DocumentSource) (lines : List (List Char)) (g : Graph) : Prop where
  disjoint : ∀ v, ¬ (g.nodes.contains v = true ∧ g.clients.contains v = true)
  names : ∀ v x, g.vertex? v = some x → x.name = v
  vertices : ∀ v, g.contains v = true ↔ Declared lines v.toList
  clients : ∀ v, g.contains v = true → ∃ document, source v = .ok document ∧
    (g.clients.contains v = true ↔ Vertex.isClient document = true)
  links : List.Forall₂ StatesLink (lines.filter DeclaresLink) g.links
  ends : ∀ l ∈ g.links, g.contains l.left = true ∧ g.contains l.right = true
  neighbors : ∀ u x, g.vertex? u = some x → ∀ v,
    (x.hasNeighbor v = true ↔ ∃ l ∈ g.links, l.Joins u v) ∧
      x.neighbors.get? v = lastBandwidth g.links u v
  symmetric : ∀ u x v y, g.vertex? u = some x → g.vertex? v = some y →
    x.neighbors.get? v = y.neighbors.get? u
  hardware : ∀ v x, g.vertex? v = some x → ∀ label,
    x.hardware = some label ↔ LastLabel lines v label

/-- Whatever is read from a text is the graph that the text describes. -/
theorem describes_of_read (source : DocumentSource) (text : String) (window : EstimationWindow)
    (t : Topology) (read : Topology.read source text = .ok t) :
    Describes source (statementLines text) (ofTopology window t) := by
  have reflects := Topology.reflects_of_read text read
  have bandwidths (u : NodeName) (x : Vertex) (vertex : (ofTopology window t).vertex? u = some x)
      (v : NodeName) : x.neighbors.get? v = lastBandwidth t.links u v := by
    rw [vertex?_ofTopology, Option.map_eq_some_iff] at vertex
    obtain ⟨m, member, rfl⟩ := vertex
    exact reflects.wired.neighbors u m member v
  constructor
  case disjoint =>
    rintro v ⟨node, client⟩
    rw [SortedMap.contains, nodes_ofTopology] at node
    rw [SortedMap.contains, clients_ofTopology] at client
    cases member : t.members.get? v with
    | none => simp [member] at node
    | some m => cases kind : m.isClient <;> simp [member, kind] at node client
  case names =>
    intro v x vertex
    rw [vertex?_ofTopology, Option.map_eq_some_iff] at vertex
    obtain ⟨m, member, rfl⟩ := vertex
    exact reflects.declares.names v m member
  case vertices =>
    intro v
    rw [contains_ofTopology, ← reflects.agrees.members, String.ofList_toList]
  case clients =>
    intro v known
    rw [contains_ofTopology, SortedMap.contains_iff] at known
    obtain ⟨m, member⟩ := known
    obtain ⟨found, kind⟩ := reflects.declares.documents v m member
    refine ⟨m.document, found, ?_⟩
    rw [SortedMap.contains, clients_ofTopology, member, ← kind]
    cases flag : m.isClient <;> simp [flag]
  case links => exact reflects.links
  case ends =>
    intro l link
    rw [contains_ofTopology, contains_ofTopology]
    exact reflects.wired.ends l link
  case neighbors =>
    intro u x vertex v
    refine ⟨?_, bandwidths u x vertex v⟩
    rw [Vertex.hasNeighbor, SortedMap.contains, bandwidths u x vertex v]
    exact lastBandwidth_isSome_iff t.links u v
  case symmetric =>
    intro u x v y vertex vertex'
    rw [bandwidths u x vertex v, bandwidths v y vertex' u]
    exact lastBandwidth_comm t.links u v
  case hardware =>
    intro v x vertex label
    rw [vertex?_ofTopology, Option.map_eq_some_iff] at vertex
    obtain ⟨m, member, rfl⟩ := vertex
    rw [← reflects.labels, Topology.hardware?, member]
    rfl

/-- A node with a label, joined to a client. -/
theorem describes_of_read_with_client :
    let source : DocumentSource := fun v =>
      .ok (if v = "b" then .object [("client", .bool true)] else .null)
    let text := "set s [new Simulator]
set a [$s node]
set b [$s node]
set l [$s duplex-link $b $a 1mb]
tb-set-node-os $a O"
    ∃ t, Topology.read source text = .ok t ∧
      Describes source (statementLines text) (ofTopology .short t) := by
  intro source text
  have succeeds : (Topology.read source text).toBool = true := by decide +kernel
  cases read : Topology.read source text with
  | error e => simp [read, Except.toBool] at succeeds
  | ok t => exact ⟨t, rfl, describes_of_read source text .short t read⟩

end Graph

end RegionNet
