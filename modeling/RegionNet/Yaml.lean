import RegionNet.Yaml.Event

/-!
YAML values, built from the events of a document.

An alias stands for the last node that has its anchor, wherever that is. A collection that is open
where a text goes wrong has what was read of it.
-/

namespace RegionNet

inductive Yaml
  | alias (anchor : Nat)
  | scalar (properties : Yaml.Properties) (style : Yaml.Style) (text : String)
  | sequence (properties : Yaml.Properties) (items : List Yaml)
  | mapping (properties : Yaml.Properties) (entries : List (Yaml × Yaml))
deriving Inhabited

namespace Yaml

mutual

/-- Takes a node off the front of events, unless the collection around it ends. -/
def takeNode : Nat → List Event → Option (Yaml × List Event)
  | 0, _ => none
  | _, [] => none
  | fuel + 1, e :: rest =>
    match e with
    | .alias anchor => some (.alias anchor, rest)
    | .scalar p style text => some (scalar p style text, rest)
    | .sequenceStart p =>
      let (items, rest) := takeItems fuel rest
      some (sequence p items, rest)
    | .mappingStart p =>
      let (entries, rest) := takeEntries fuel rest
      some (mapping p entries, rest)
    | .collectionEnd => none

def takeItems : Nat → List Event → List Yaml × List Event
  | 0, events => ([], events)
  | fuel + 1, events =>
    match takeNode fuel events with
    | none => ([], events.drop 1)
    | some (item, rest) =>
      let (items, rest) := takeItems fuel rest
      (item :: items, rest)

def takeEntries : Nat → List Event → List (Yaml × Yaml) × List Event
  | 0, events => ([], events)
  | fuel + 1, events =>
    match takeNode fuel events with
    | none => ([], events.drop 1)
    | some (key, rest) =>
      match takeNode fuel rest with
      | none => ([], rest.drop 1)
      | some (value, rest) =>
        let (entries, rest) := takeEntries fuel rest
        ((key, value) :: entries, rest)

end

mutual

/-- The anchored nodes of a value, in the order of the text. -/
def anchored : Yaml → List (Nat × Yaml)
  | .alias _ => []
  | scalar p style text => (p.anchor.map fun a => (a, scalar p style text)).toList
  | sequence p items =>
    (p.anchor.map fun a => (a, sequence p items)).toList ++ anchoredItems items
  | mapping p entries =>
    (p.anchor.map fun a => (a, mapping p entries)).toList ++ anchoredEntries entries

def anchoredItems : List Yaml → List (Nat × Yaml)
  | [] => []
  | item :: rest => anchored item ++ anchoredItems rest

def anchoredEntries : List (Yaml × Yaml) → List (Nat × Yaml)
  | [] => []
  | (key, value) :: rest => anchored key ++ anchored value ++ anchoredEntries rest

end

/-- A text as a value, as far as the text goes. -/
structure Document where
  /-- The root, if the text goes as far as that. -/
  root : Option Yaml
  /-- Is the whole text one document? -/
  isWhole : Bool

namespace Document

def ofEvents (e : Events) : Document :=
  ⟨(takeNode (2 * e.events.length + 1) e.events).map Prod.fst, e.isWhole⟩

def ofText (text : String) : Document :=
  ofEvents (Events.ofTokens (Tokens.ofChars text.toList))

/-- The node that an alias stands for, or the node itself. -/
def follow (d : Document) : Yaml → Option Yaml
  | .alias anchor => d.root.bind fun root => (anchored root).reverse.lookup anchor
  | node => some node

end Document

end Yaml

end RegionNet
