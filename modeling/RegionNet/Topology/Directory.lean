import RegionNet.FilePath
import RegionNet.Files
import RegionNet.Json.Reader
import RegionNet.Topology

/-!
Topologies in files: the text in one file, and the document of each node in a file that is named
after the node. A node without a file has the empty document.
-/

namespace RegionNet.Topology

/-- The name of the topology in a directory that holds one with its documents. -/
def fileName : String := "topology.ns"

def documentPath (directory : String) (node : NodeName) : String :=
  FilePath.join directory (node ++ ".json")

/-- The document of a node from what is found at its path. -/
def documentOf (node : NodeName) (path : String) (content : FileContent) :
    Except TopologyError Json :=
  match content with
  | .missing => .ok Json.emptyObject
  | content =>
    match content.text? with
    | none => .error (.nodeDocument node path .unreadable)
    | some text =>
      match Json.ofText? text with
      | none => .error (.nodeDocument node path .notJson)
      | some (.object fields) => .ok (Json.object fields).canonical
      | some _ => .error (.nodeDocument node path .notObject)

variable {m : Type → Type} [Monad m]

/-- The documents of the nodes that a text names. -/
def loadDocuments (files : Files m) (directory text : String) : m DocumentSource := do
  let table ← (nodeNames text).mapM fun node => do
    let path := documentPath directory node
    return (node, documentOf node path (← files.read path))
  return fun node => (table.lookup node).getD (.ok Json.emptyObject)

/-- Loads a topology and the documents of its nodes. -/
def load (files : Files m) (path directory : String) : m (Except TopologyError Topology) := do
  match (← files.read path).text? with
  | none => return .error (.unreadable path)
  | some text => return read (← loadDocuments files directory text) text

/-- Loads a topology from a directory that holds it with its documents. -/
def loadDirectory (files : Files m) (directory : String) : m (Except TopologyError Topology) :=
  load files (FilePath.join directory fileName) directory

end RegionNet.Topology
