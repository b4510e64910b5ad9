import RegionNet.Json
import RegionNet.Report.Basic

/-!
The resource section of a node's configuration document: what the node offers and how it is used.

Whatever in the section cannot be used is left out, and the rest is still used: an entry whose key
is no attribute or whose value is no number, and a load that is no object. The document is read as a
table, so it lists each key once.
-/

namespace RegionNet

/-- What a node offers, the load of its services, how long its services take, and the load of its
links. The loads count as demand, too. -/
structure ResourceSection where
  serverCapacity : NodeLoad Float
  serverLoad : SortedMap ServiceName (NodeLoad Float)
  averageProcessingTime : SortedMap ServiceName Float
  networkLoad : SortedMap NodeName (LinkLoad Float)
deriving DecidableEq

namespace ResourceSection

def key : String := "resource-report"

def serverCapacityKey : String := "serverCapacity"

def serverLoadKey : String := "serverLoad"

def averageProcessingTimeKey : String := "serverAverageProcessingTime"

def networkLoadKey : String := "networkLoad"

/-- The link load under this name is that of every neighbor without one of its own. -/
def wildcard : NodeName := "*"

def empty : ResourceSection := ⟨∅, ∅, ∅, ∅⟩

def number? : Json → Option Float
  | .number n => some n.toFloat
  | _ => none

/-- The fields of an object whose name and value can be used. -/
def usableEntries {κ α : Type} [Ord κ] [Std.TransOrd κ] (key : String → Option κ)
    (read : Json → Option α) (fields : List (String × Json)) : SortedMap κ α :=
  SortedMap.ofList (fields.filterMap fun f => do return (← key f.1, ← read f.2))

def nodeLoad? (j : Json) : Option (NodeLoad Float) :=
  j.fields?.map (usableEntries NodeAttribute.ofName? number?)

def linkLoad? (j : Json) : Option (LinkLoad Float) :=
  j.fields?.map (usableEntries LinkAttribute.ofName? number?)

/-- The fields of the object under a key of the section, none if there is no such object. -/
def entriesAt (values : Json) (key : String) : List (String × Json) :=
  ((values.field? key).bind Json.fields?).getD []

/-- The section of a configuration document. Without one nothing is offered and nothing is used. -/
def ofDocument (document : Json) : ResourceSection :=
  match (document.field? key).bind Json.fields? with
  | none => empty
  | some fields =>
    let values := Json.object fields
    { serverCapacity :=
        usableEntries NodeAttribute.ofName? number? (entriesAt values serverCapacityKey)
      serverLoad := usableEntries some nodeLoad? (entriesAt values serverLoadKey)
      averageProcessingTime :=
        usableEntries some number? (entriesAt values averageProcessingTimeKey)
      networkLoad := usableEntries some linkLoad? (entriesAt values networkLoadKey) }

/-- The load of the link to a neighbor. -/
def linkLoadOf (s : ResourceSection) (neighbor : NodeName) : Option (LinkLoad Float) :=
  match s.networkLoad.get? neighbor with
  | some load => some load
  | none => s.networkLoad.get? wildcard

end ResourceSection

end RegionNet
