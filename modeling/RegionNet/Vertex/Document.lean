import RegionNet.Json.Printer
import RegionNet.Vertex

/-!
What the configuration document of a vertex says about the vertex itself: its region, whether it is
a resource pool, and whether it is only a client.
-/

namespace RegionNet.Vertex

def regionKey : String := "region"

def poolKey : String := "pool"

def clientKey : String := "client"

/-- ASCII letters are compared without regard to case. -/
def equalIgnoringCase (s t : String) : Bool :=
  s.toList.map Char.toLower == t.toList.map Char.toLower

/-- A flag is set by `true` and by the word `true` in any case, and by nothing else. -/
def isSet : Option Json → Bool
  | some (.bool b) => b
  | some (.string s) => equalIgnoringCase s "true"
  | _ => false

/-- The region that a document names: a string names itself, any other value but `null` its text. -/
def regionOf (document : Json) : Option RegionName :=
  match document.field? regionKey with
  | none => none
  | some .null => none
  | some (.string s) => some s
  | some j => some j.compactText

def poolOf (document : Json) : Bool :=
  isSet (document.field? poolKey)

def isClient (document : Json) : Bool :=
  isSet (document.field? clientKey)

/-- The vertex as its document describes it. What the document leaves out stays as it is. -/
def applyDocument (v : Vertex) (document : Json) : Vertex :=
  { v with
    region := (regionOf document).getD v.region
    isPool := if (document.field? poolKey).isSome then poolOf document else v.isPool }

/-- Clients take only their region from the document. -/
def applyClientDocument (v : Vertex) (document : Json) : Vertex :=
  { v with region := (regionOf document).getD v.region }

end RegionNet.Vertex
