import Mathlib.Data.List.Induction
import Mathlib.Logic.Relation
import RegionNet.Graph
import RegionNet.Proofs.Text.Lines
import RegionNet.Proofs.Topology.Effect
import RegionNet.Proofs.Topology.Grammar

/-!
# Texts that say the same

The reader keeps of a text the trimmed lines that hold a statement. Other lines, white space at the
ends of a line and the choice of a line end are not among them, so that texts which differ in
nothing else are read alike, into one graph or with one error. This holds whatever makes the
vertices of the graph.
-/

namespace RegionNet

/-! ### Factories -/

/-- What makes the nodes and the clients of a graph from their names and documents. -/
structure Factory where
  node : NodeName → Json → Node
  client : NodeName → Json → Vertex

namespace Factory

variable (factory : Factory)

def vertex (name : NodeName) (document : Json) : Vertex :=
  if Vertex.isClient document then factory.client name document
  else (factory.node name document).vertex

/-- What a statement on a line adds, if the factory makes its vertex. -/
def obey (source : DocumentSource) (t : Topology) (line : List Char) :
    Except TopologyError Topology :=
  (t.obey source (String.ofList line) (Statement.ofLine line)).map fun t' =>
    match Statement.ofLine line with
    | .construct name _ ("node" :: _) =>
      { t' with
        members := t'.members.modify name fun m =>
          { m with vertex := factory.vertex name m.document } }
    | _ => t'

/-- The graph of what the factory made, with the neighbors and labels of the vertices. -/
def graph (t : Topology) : Graph where
  nodes := t.members.filterMap fun name m =>
    if m.isClient then none else some { factory.node name m.document with vertex := m.vertex }
  clients := t.members.filterMap fun _ m => if m.isClient then some m.vertex else none
  links := t.links

/-- Reads a graph from a text. -/
def parse (source : DocumentSource) (text : String) : Except TopologyError Graph :=
  ((Text.lines text.toList).foldlM (fun t raw => factory.obey source t (Text.trim raw))
    Topology.empty).map factory.graph

/-- Nodes that were never started, and report over `window`. -/
def basic (window : EstimationWindow) : Factory where
  node name document := Graph.nodeOf window (Member.new name document)
  client name document := (Member.new name document).vertex

theorem vertex_basic (window : EstimationWindow) (name : NodeName) (document : Json) :
    (basic window).vertex name document = (Member.new name document).vertex := by
  rw [vertex]
  split <;> rfl

theorem obey_basic (window : EstimationWindow) (source : DocumentSource) (t : Topology)
    (line : List Char) :
    (basic window).obey source t line =
      t.obey source (String.ofList line) (Statement.ofLine line) := by
  rw [obey]
  cases result : t.obey source (String.ofList line) (Statement.ofLine line) with
  | error e => rfl
  | ok t' =>
    have effect := Topology.effect_of_obey _ result
    refine congrArg Except.ok ?_
    generalize Statement.ofLine line = statement at *
    cases effect with
    | silent => rfl
    | simulator => rfl
    | node _ _ _ =>
      -- the new vertex is the one that would be made in its place
      refine congrArg (fun members => { t with members := members }) ?_
      apply SortedMap.ext_get?
      intro v
      rw [SortedMap.get?_modify, SortedMap.get?_insert]
      split
      next => simp only [Option.map_some, vertex_basic]; rfl
      next => rfl
    | link => rfl
    | hardware => rfl

end Factory

namespace Topology

variable {source : DocumentSource} {t t' : Topology}

/-- What new vertices have and vertices keep with more neighbors and labels, all vertices have. -/
theorem Effect.forall_members {statement : Statement} (effect : Effect source t statement t')
    {P : NodeName → Member → Prop} (new : ∀ v document, P v (Member.new v document))
    (neighbor : ∀ v m w bandwidth, P v m → P v (m.addNeighbor w bandwidth))
    (hardware : ∀ v m label, P v m → P v (m.setHardware label))
    (holds : ∀ v m, t.members.get? v = some m → P v m) :
    ∀ v m, t'.members.get? v = some m → P v m := by
  have modify (members : SortedMap NodeName Member) (name : NodeName) (f : Member → Member)
      (keeps : ∀ v m, P v m → P v (f m)) (holds : ∀ v m, members.get? v = some m → P v m) :
      ∀ v m, (members.modify name f).get? v = some m → P v m := by
    intro v m present
    rw [SortedMap.get?_modify] at present
    split at present
    next =>
      obtain ⟨m₀, present₀, rfl⟩ := Option.map_eq_some_iff.1 present
      exact keeps v m₀ (holds v m₀ present₀)
    next => exact holds v m present
  cases effect with
  | silent => exact holds
  | simulator => exact holds
  | @node name _ _ document =>
    intro v m present
    rw [SortedMap.get?_insert] at present
    split at present
    next same =>
      cases present
      rw [same]
      exact new name document
    next => exact holds v m present
  | link =>
    exact modify _ _ _ (fun v m => neighbor v m _ _)
      (modify _ _ _ (fun v m => neighbor v m _ _) holds)
  | hardware => exact modify _ _ _ (fun v m => hardware v m _) holds

/-- Whatever is declared stays in the region that its document names. -/
theorem region_of_read (text : String) (read : Topology.read source text = .ok t) :
    ∀ v m, t.members.get? v = some m →
      m.vertex.region = (Member.new v m.document).vertex.region := by
  rw [Topology.read] at read
  generalize Text.lines text.toList = lines at read
  induction lines using List.reverseRecOn generalizing t with
  | nil =>
    cases read
    intro v m present
    simp [empty] at present
  | append_singleton earlier raw ih =>
    rw [List.foldlM_append, Outcome.bind_eq_ok_iff] at read
    obtain ⟨t₀, before, last⟩ := read
    rw [List.foldlM_cons, Outcome.bind_eq_ok_iff] at last
    obtain ⟨t₁, obeyed, done⟩ := last
    cases done
    exact (effect_of_obey _ obeyed).forall_members (fun _ _ => rfl) (fun _ _ _ _ region => region)
      (fun _ _ _ region => region) (ih before)

end Topology

namespace Factory

theorem graph_basic (window : EstimationWindow) (t : Topology)
    (regions : ∀ v m, t.members.get? v = some m →
      m.vertex.region = (Member.new v m.document).vertex.region) :
    (basic window).graph t = Graph.ofTopology window t := by
  rw [graph, Graph.ofTopology]
  congr 1
  apply SortedMap.ext_get?
  intro v
  rw [SortedMap.get?_filterMap, SortedMap.get?_filterMap]
  cases present : t.members.get? v with
  | none => rfl
  | some m =>
    rw [Option.bind_some, Option.bind_some]
    split
    next => rfl
    next =>
      -- beside its vertex, a node that was never started knows only the region of the vertex
      simp only [basic, Graph.nodeOf, Node.new, regions v m present]
      rfl

/-- The graph of a simulation is what its factory makes of the text. -/
theorem parse_basic (window : EstimationWindow) (source : DocumentSource) (text : String) :
    (basic window).parse source text =
      (Topology.read source text).map (Graph.ofTopology window) := by
  have each : (fun t raw => (basic window).obey source t (Text.trim raw)) =
      Topology.readLine source := by
    funext t raw
    exact obey_basic window source t (Text.trim raw)
  rw [parse, each]
  change (Topology.read source text).map _ = _
  cases read : Topology.read source text with
  | error e => rfl
  | ok t => exact congrArg Except.ok (graph_basic window t (Topology.region_of_read text read))

end Factory

/-! ### Lines that hold a statement -/

/-- The trimmed lines that say something. -/
def spokenLines (cs : List Char) : List (List Char) :=
  ((Text.splitAt (· == '\n') cs).map Text.trim).filter fun line => Statement.ofLine line ≠ .silent

/-- How a text is cut into lines adds no line that says something. -/
theorem filter_lines (cs : List Char) :
    ((Text.lines cs).map Text.trim).filter (fun line => Statement.ofLine line ≠ .silent) =
      spokenLines cs := by
  have trimmed (pieces : List (List Char)) :
      (pieces.map Text.dropReturn).map Text.trim = pieces.map Text.trim := by
    simp [Text.trim_dropReturn]
  rw [Text.lines, spokenLines]
  rcases List.eq_nil_or_concat (Text.splitAt (· == '\n') cs) with none | ⟨pieces, last, split⟩
  · rw [none]
    rfl
  · rw [split, List.concat_eq_append, List.dropLast_concat, List.getLast?_concat, List.map_append,
      List.map_append, trimmed, List.filter_append, List.filter_append]
    -- the piece after the last line feed is a line unless it is empty, and then it says nothing
    cases last with
    | nil => rfl
    | cons c last => rfl

theorem spokenLines_append_feed (cs cs' : List Char) :
    spokenLines (cs ++ '\n' :: cs') = spokenLines cs ++ spokenLines cs' := by
  simp only [spokenLines, Text.splitAt_eq_splitOnP]
  rw [List.splitOnP_append_cons cs cs' (by decide), List.map_append, List.filter_append]

theorem spokenLines_of_line (line : List Char) (one : '\n' ∉ line) :
    spokenLines line = [Text.trim line].filter fun line => Statement.ofLine line ≠ .silent := by
  have same : ∀ c ∈ line, ¬ (c == '\n') = true := by
    rintro c member feed
    rw [beq_iff_eq] at feed
    exact one (feed ▸ member)
  rw [spokenLines, Text.splitAt_eq_splitOnP, List.splitOnP_eq_singleton (by simpa using same)]
  rfl

/-- A line of a text starts after the characters. -/
def StartsLine (before : List Char) : Prop :=
  before = [] ∨ ∃ lines, before = lines ++ ['\n']

inductive IsLineEnd : List Char → Prop
  | feed : IsLineEnd ['\n']
  | returned : IsLineEnd ['\r', '\n']

/-- A line of a text ends before the characters. -/
def EndsLine (after : List Char) : Prop :=
  after = [] ∨ ∃ ending rest, IsLineEnd ending ∧ after = ending ++ rest

/-- White space within a line. -/
def IsPadding (gap : List Char) : Prop := ∀ c ∈ gap, Text.isBlank c = true ∧ c ≠ '\n'

theorem spokenLines_append_of_startsLine {before : List Char} (starts : StartsLine before)
    (cs : List Char) : spokenLines (before ++ cs) = spokenLines before ++ spokenLines cs := by
  have nothing : spokenLines [] = [] := rfl
  rcases starts with rfl | ⟨lines, rfl⟩
  · rw [nothing]
    rfl
  · rw [List.append_assoc, List.singleton_append, spokenLines_append_feed, spokenLines_append_feed,
      nothing, List.append_nil]

theorem exists_last_line (cs : List Char) :
    ∃ start last, cs = start ++ last ∧ StartsLine start ∧ '\n' ∉ last := by
  induction cs using List.reverseRecOn with
  | nil => exact ⟨[], [], rfl, .inl rfl, List.not_mem_nil⟩
  | append_singleton cs c ih =>
    by_cases feed : c = '\n'
    · subst feed
      exact ⟨cs ++ ['\n'], [], (List.append_nil _).symm, .inr ⟨cs, rfl⟩, List.not_mem_nil⟩
    · obtain ⟨start, last, rfl, starts, one⟩ := ih
      refine ⟨start, last ++ [c], List.append_assoc .., starts, ?_⟩
      simp [one, Ne.symm feed]

theorem spokenLines_append_padding {gap : List Char} (padding : IsPadding gap) (cs : List Char) :
    spokenLines (cs ++ gap) = spokenLines cs := by
  obtain ⟨start, last, rfl, starts, one⟩ := exists_last_line cs
  have one' : '\n' ∉ last ++ gap := by
    rw [List.mem_append]
    rintro (member | member)
    · exact one member
    · exact (padding _ member).2 rfl
  rw [List.append_assoc, spokenLines_append_of_startsLine starts,
    spokenLines_append_of_startsLine starts, spokenLines_of_line _ one', spokenLines_of_line _ one,
    Text.trim_append_right last gap fun c member => (padding c member).1]

theorem spokenLines_lineEnd {ending : List Char} (ends : IsLineEnd ending) (cs cs' : List Char) :
    spokenLines (cs ++ ending ++ cs') = spokenLines cs ++ spokenLines cs' := by
  cases ends with
  | feed => rw [List.append_assoc, List.singleton_append, spokenLines_append_feed]
  | returned =>
    have padding : IsPadding ['\r'] := by
      intro c member
      rw [List.mem_singleton.1 member]
      decide
    have split : cs ++ ['\r', '\n'] ++ cs' = (cs ++ ['\r']) ++ '\n' :: cs' := by simp
    rw [split, spokenLines_append_feed, spokenLines_append_padding padding]

theorem exists_first_line (cs : List Char) :
    '\n' ∉ cs ∨ ∃ first rest, cs = first ++ '\n' :: rest ∧ '\n' ∉ first := by
  induction cs with
  | nil => exact .inl List.not_mem_nil
  | cons c cs ih =>
    by_cases feed : c = '\n'
    · exact .inr ⟨[], cs, by rw [feed]; rfl, List.not_mem_nil⟩
    · rcases ih with one | ⟨first, rest, rfl, one⟩
      · exact .inl (by simp [one, Ne.symm feed])
      · exact .inr ⟨c :: first, rest, rfl, by simp [one, Ne.symm feed]⟩

theorem spokenLines_padding_append {gap : List Char} (padding : IsPadding gap) (cs : List Char) :
    spokenLines (gap ++ cs) = spokenLines cs := by
  have line (first : List Char) (one : '\n' ∉ first) :
      spokenLines (gap ++ first) = spokenLines first := by
    have one' : '\n' ∉ gap ++ first := by
      rw [List.mem_append]
      rintro (member | member)
      · exact (padding _ member).2 rfl
      · exact one member
    rw [spokenLines_of_line _ one', spokenLines_of_line _ one,
      Text.trim_append_left gap first fun c member => (padding c member).1]
  rcases exists_first_line cs with one | ⟨first, rest, rfl, one⟩
  · exact line cs one
  · rw [← List.append_assoc, spokenLines_append_feed, spokenLines_append_feed, line first one]

/-- A trimmed line that holds no statement. -/
inductive Ignorable : List Char → Prop
  | blank : Ignorable []
  | comment {rest} : Ignorable ('#' :: rest)
  | keyword {line word rest} (words : Text.words line = word :: rest) (noSet : word ≠ "set".toList)
      (noHardware : word ≠ "tb-set-node-os".toList) : Ignorable line
  | set {line name arguments} (form : IsSet line name arguments)
      (other : arguments ≠ "new Simulator".toList)
      (plain : ∀ token ∈ (Text.words arguments).head?, token.head? ≠ some '$') : Ignorable line

theorem Ignorable.silent {line : List Char} (ignorable : Ignorable line) :
    Statement.ofLine line = .silent := by
  cases ignorable with
  | blank => rfl
  | comment => rfl
  | keyword words noSet noHardware =>
    apply Statement.ofLine_of_other
    · rw [words]
      exact fun same => noSet (Option.some.inj same)
    · rw [words]
      exact fun same => noHardware (Option.some.inj same)
  | @set line name arguments form other plain =>
    have other : arguments ≠ Statement.simulatorArguments := other
    rw [Statement.ofLine_of_isSet line name arguments form, if_neg other]
    split
    next target rest words =>
      rw [words] at plain
      exact absurd rfl (plain _ rfl)
    next => rfl

theorem spokenLines_ignorable {raw : List Char} (one : '\n' ∉ raw)
    (ignorable : Ignorable (Text.trim raw)) : spokenLines raw = [] := by
  rw [spokenLines_of_line raw one]
  simp [ignorable.silent]

/-! ### Edits -/

/-- One text comes of another by adding a line that holds no statement, by adding white space at an
end of a line, or by another line end. -/
inductive Edit : List Char → List Char → Prop
  /-- A whole line is inserted before another one. -/
  | insert {before raw ending after} (starts : StartsLine before) (one : '\n' ∉ raw)
      (ignorable : Ignorable (Text.trim raw)) (ends : IsLineEnd ending) :
      Edit (before ++ after) (before ++ raw ++ ending ++ after)
  /-- A last line is added that is not ended, to a text whose last line is. -/
  | append {before raw} (starts : StartsLine before) (one : '\n' ∉ raw)
      (ignorable : Ignorable (Text.trim raw)) : Edit before (before ++ raw)
  /-- The last line is ended, and another one added. -/
  | extend {before raw ending} (one : '\n' ∉ raw) (ignorable : Ignorable (Text.trim raw))
      (ends : IsLineEnd ending) : Edit before (before ++ ending ++ raw)
  | indent {before gap after} (starts : StartsLine before) (padding : IsPadding gap) :
      Edit (before ++ after) (before ++ gap ++ after)
  | trail {before gap after} (ends : EndsLine after) (padding : IsPadding gap) :
      Edit (before ++ after) (before ++ gap ++ after)
  | exchange {before ending ending' after} (ends : IsLineEnd ending) (ends' : IsLineEnd ending') :
      Edit (before ++ ending ++ after) (before ++ ending' ++ after)

theorem Edit.spokenLines_eq {text text' : List Char} (edit : Edit text text') :
    spokenLines text' = spokenLines text := by
  cases edit with
  | insert starts one ignorable ends =>
    rw [spokenLines_lineEnd ends, spokenLines_append_of_startsLine starts,
      spokenLines_ignorable one ignorable, List.append_nil, spokenLines_append_of_startsLine starts]
  | append starts one ignorable =>
    rw [spokenLines_append_of_startsLine starts, spokenLines_ignorable one ignorable,
      List.append_nil]
  | extend one ignorable ends =>
    rw [spokenLines_lineEnd ends, spokenLines_ignorable one ignorable, List.append_nil]
  | indent starts padding =>
    rw [List.append_assoc, spokenLines_append_of_startsLine starts,
      spokenLines_padding_append padding, spokenLines_append_of_startsLine starts]
  | trail ends padding =>
    rcases ends with rfl | ⟨ending, rest, ends, rfl⟩
    · rw [List.append_nil, List.append_nil, spokenLines_append_padding padding]
    · rw [← List.append_assoc, ← List.append_assoc, spokenLines_lineEnd ends,
        spokenLines_lineEnd ends, spokenLines_append_padding padding]
  | exchange ends ends' => rw [spokenLines_lineEnd ends', spokenLines_lineEnd ends]

theorem spokenLines_eq_of_edits {text text' : List Char}
    (edits : Relation.ReflTransGen Edit text text') : spokenLines text' = spokenLines text := by
  induction edits with
  | refl => rfl
  | tail _ edit ih => exact edit.spokenLines_eq.trans ih

namespace Factory

variable (factory : Factory) (source : DocumentSource)

theorem obey_of_silent (t : Topology) {line : List Char}
    (silent : Statement.ofLine line = .silent) : factory.obey source t line = .ok t := by
  rw [obey, silent]
  rfl

/-- What a text says is all that is read of it. -/
theorem parse_eq (text : String) :
    factory.parse source text =
      ((spokenLines text.toList).foldlM (factory.obey source) Topology.empty).map
        factory.graph := by
  rw [parse, ← filter_lines, List.foldlM_filter, List.foldlM_map]
  congr 2
  funext t raw
  split
  next => rfl
  next silent => exact factory.obey_of_silent source t (by simpa using silent)

/-- Texts are read alike, into one graph or with one error, if one comes of the other by any edits
of what is not read. What is added after a text that is refused is not read at all. -/
theorem parse_ignores_edits :
    (∀ text text' : String, Relation.ReflTransGen Edit text.toList text'.toList →
      factory.parse source text' = factory.parse source text) ∧
    ∀ (p q : String) (e : TopologyError), factory.parse source p = .error e →
      factory.parse source (p ++ "\n" ++ q) = .error e := by
  refine ⟨fun text text' edits => ?_, fun p q e refused => ?_⟩
  · rw [parse_eq, spokenLines_eq_of_edits edits, parse_eq]
  · have joined : (p ++ "\n" ++ q).toList = p.toList ++ '\n' :: q.toList := by simp
    rw [parse_eq] at refused ⊢
    rw [joined, spokenLines_append_feed, List.foldlM_append]
    -- the reader does not come to the lines that are added
    cases run : (spokenLines p.toList).foldlM (factory.obey source) Topology.empty with
    | ok t => rw [run] at refused; cases refused
    | error e' =>
      rw [run] at refused
      cases refused
      rfl

/-- A text with another line end, white space after a line and before one, and a comment between. A
simulation reads one graph from both. -/
theorem parse_ignores_edits_of_two_lines :
    let source : DocumentSource := fun _ => .ok .emptyObject
    let text := "set s [new Simulator]\nset a [$s node]"
    let edited := "set s [new Simulator]\t\r\n# a node\n  set a [$s node]"
    let refused := "set a [$s node]"
    let e := TopologyError.missingSimulator "set a [$s node]"
    (basic .short).parse source edited = (basic .short).parse source text ∧
      (Topology.read source edited).map (Graph.ofTopology .short) =
        (Topology.read source text).map (Graph.ofTopology .short) ∧
      (basic .short).parse source (refused ++ "\n" ++ text) = .error e := by
  intro source text edited refused e
  obtain ⟨edits, refusals⟩ := parse_ignores_edits (basic .short) source
  let first := "set s [new Simulator]".toList
  let comment := "# a node".toList
  let second := "set a [$s node]".toList
  have exchanged : Edit (first ++ ['\n'] ++ second) (first ++ ['\r', '\n'] ++ second) :=
    .exchange .feed .returned
  have trailed : Edit (first ++ (['\r', '\n'] ++ second))
      (first ++ ['\t'] ++ (['\r', '\n'] ++ second)) :=
    .trail (.inr ⟨_, second, .returned, rfl⟩) (by simp [IsPadding]; decide)
  have starts : StartsLine (first ++ ['\t'] ++ ['\r', '\n']) := .inr ⟨first ++ ['\t', '\r'], rfl⟩
  have indented : Edit (first ++ ['\t'] ++ ['\r', '\n'] ++ second)
      (first ++ ['\t'] ++ ['\r', '\n'] ++ [' ', ' '] ++ second) :=
    .indent starts (by simp [IsPadding]; decide)
  have inserted : Edit (first ++ ['\t'] ++ ['\r', '\n'] ++ ([' ', ' '] ++ second))
      (first ++ ['\t'] ++ ['\r', '\n'] ++ comment ++ ['\n'] ++ ([' ', ' '] ++ second)) :=
    .insert starts (by decide) .comment .feed
  have all := (((Relation.ReflTransGen.single exchanged).tail trailed).tail indented).tail inserted
  have text_chars : text.toList = first ++ ['\n'] ++ second := by decide
  have edited_chars : edited.toList =
      first ++ ['\t'] ++ ['\r', '\n'] ++ comment ++ ['\n'] ++ ([' ', ' '] ++ second) := by decide
  have alike : (basic .short).parse source edited = (basic .short).parse source text := by
    apply edits text edited
    rw [text_chars, edited_chars]
    exact all
  refine ⟨alike, ?_, refusals refused text e ?_⟩
  · rw [← parse_basic, ← parse_basic, alike]
  · have spoken : spokenLines refused.toList = [second] := by decide
    have statement : Statement.ofLine second = .construct "a" "s" ["node"] := by decide
    rw [parse_eq, spoken, List.foldlM_cons, obey, statement]
    rfl

end Factory

end RegionNet
