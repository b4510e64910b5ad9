import RegionNet.Topology.Error
import RegionNet.Topology.Statement
import RegionNet.Vertex.Document

/-!
A topology: the vertices and links that a text declares, one statement on a line.

Statements take effect in order. A vertex is declared once, by any name; a link joins two vertices
that are declared already and makes each the neighbor of the other. The first statement that is
wrong refuses the whole text.
-/

namespace RegionNet

/-- A duplex link, with its bandwidth in bytes per second. -/
structure Link where
  name : String
  left : NodeName
  right : NodeName
  bandwidth : Float
deriving DecidableEq

/-- A declared vertex and the document that configures it. -/
structure Member where
  vertex : Vertex
  document : Json
  isClient : Bool

namespace Member

/-- The vertex is in the region that its document names. -/
def new (name : NodeName) (document : Json) : Member :=
  let isClient := Vertex.isClient document
  let vertex := Vertex.new name
  ⟨if isClient then vertex.applyClientDocument document else vertex.applyDocument document,
    document, isClient⟩

def addNeighbor (m : Member) (neighbor : NodeName) (bandwidth : Float) : Member :=
  { m with vertex := m.vertex.addNeighbor neighbor bandwidth }

def setHardware (m : Member) (label : String) : Member :=
  { m with vertex := { m.vertex with hardware := some label } }

end Member

/-- Links are in the order in which they are declared. -/
structure Topology where
  simulator : Option String
  members : SortedMap NodeName Member
  links : List Link

/-- Where the configuration document of a node comes from. -/
abbrev DocumentSource := NodeName → Except TopologyError Json

namespace Topology

def empty : Topology := ⟨none, ∅, []⟩

/-- A name that a token refers to. -/
def reference (fault : StatementFault) (line token : String) : Except TopologyError String :=
  match token.toList with
  | '$' :: name => .ok (String.ofList name)
  | _ => .error (.malformedStatement fault line)

/-- The name of a declared vertex that a token refers to. -/
def endpoint (t : Topology) (fault : StatementFault) (line token : String) :
    Except TopologyError NodeName := do
  let name ← reference fault line token
  if t.members.contains name then return name else throw (.unknownNode name line)

def addNode (source : DocumentSource) (line : String) (t : Topology) (name : NodeName) :
    Except TopologyError Topology :=
  if t.members.contains name then .error (.duplicateNode name line)
  else do
    let document ← source name
    return { t with members := t.members.insert name (Member.new name document) }

/-- Joins two vertices. -/
def connect (t : Topology) (l : Link) : Topology :=
  { t with
    members := (t.members.modify l.left (·.addNeighbor l.right l.bandwidth)).modify l.right
      (·.addNeighbor l.left l.bandwidth)
    links := t.links ++ [l] }

/-- The bandwidth may be followed by more, which says nothing here. -/
def addLink (line : String) (t : Topology) (name : String) :
    List String → Except TopologyError Topology
  | left :: right :: bandwidth :: _ => do
    let left ← t.endpoint .endpointMark line left
    let right ← t.endpoint .endpointMark line right
    match Bandwidth.ofText bandwidth with
    | .error cause => throw (.invalidBandwidth line cause)
    | .ok bandwidth => return t.connect ⟨name, left, right, bandwidth⟩
  | _ => .error (.malformedStatement .incompleteLink line)

def labelHardware (line : String) (t : Topology) : List String → Except TopologyError Topology
  | [token, label] => do
    let name ← t.endpoint .nodeNameMark line token
    return { t with members := t.members.modify name (·.setHardware label) }
  | _ => .error (.malformedStatement .hardwareTokens line)

/-- What a statement on a line adds. -/
def obey (source : DocumentSource) (line : String) (t : Topology) :
    Statement → Except TopologyError Topology
  | .silent => .ok t
  | .malformedSet => .error (.malformedSet line)
  | .simulator name =>
    match t.simulator with
    | some first => .error (.duplicateSimulator first name)
    | none => .ok { t with simulator := some name }
  | .construct name target arguments =>
    match t.simulator with
    | none => .error (.missingSimulator line)
    | some simulator =>
      if target ≠ simulator then .error (.foreignObject line)
      else
        match arguments with
        | [] => .error (.malformedStatement .missingObjectType line)
        | "node" :: _ => t.addNode source line name
        | "duplex-link" :: rest => t.addLink line name rest
        | objectType :: _ => .error (.unsupportedObject objectType line)
  | .hardware arguments => t.labelHardware line arguments

/-- Reads one line, white space at its ends aside. -/
def readLine (source : DocumentSource) (t : Topology) (raw : List Char) :
    Except TopologyError Topology :=
  let line := Text.trim raw
  t.obey source (String.ofList line) (Statement.ofLine line)

/-- Reads a topology from its text. -/
def read (source : DocumentSource) (text : String) : Except TopologyError Topology :=
  (Text.lines text.toList).foldlM (readLine source) empty

/-- The names that the text would make nodes of, also if it is refused. -/
def nodeNames (text : String) : List NodeName :=
  (Text.lines text.toList).filterMap fun raw =>
    match Statement.ofLine (Text.trim raw) with
    | .construct name _ ("node" :: _) => some name
    | _ => none

end Topology

end RegionNet
