import RegionNet.Configuration.Draft
import RegionNet.Text.Numeral
import RegionNet.Yaml

/-!
Configurations as YAML texts.

The root is a mapping from the names of the fields. A text field takes any scalar as it is written;
a field that may be left out also takes `null` for nothing. A count is a plain scalar in base ten
without needless zeros, or in base sixteen, eight or two.
-/

namespace RegionNet.Configuration

open ReadFault (orMalformed)

def nullTag : Yaml.Tag := Yaml.Tag.core.append (.ofText "null")

def integerTag : Yaml.Tag := Yaml.Tag.core.append (.ofText "int")

def isNullText (s : String) : Bool :=
  s == "null" || s == "Null" || s == "NULL" || s == "~"

def textOf? : Yaml → Option String
  | .scalar _ _ text => some text
  | _ => none

/-- Only a plain scalar may stand for nothing. -/
def optionalTextOf? : Yaml → Option (Option String)
  | .scalar p .plain text =>
    match p.tag with
    | none => some (if text.isEmpty || isNullText text then none else some text)
    | some t =>
      if t = nullTag then if isNullText text then some none else none
      else some (some text)
  | .scalar _ _ text => some (some text)
  | _ => none

/-- A decimal count: a zero in front of more digits makes it a text. -/
def decimalCount? (ds : List Char) : Option UInt64 :=
  if ds.length > 1 && ds.head? == some '0' then none else Text.word? 10 ds

def countOfChars? (cs : List Char) : Option UInt64 :=
  let digits := if cs.head? = some '+' then cs.tail else cs
  match digits with
  | '0' :: 'x' :: rest => Text.word? 16 rest
  | '0' :: 'o' :: rest => Text.word? 8 rest
  | '0' :: 'b' :: rest => Text.word? 2 rest
  | _ => decimalCount? digits

def countOf? : Yaml → Option UInt64
  | .scalar _ .plain text => countOfChars? text.toList
  | .scalar p .literal text =>
    if p.tag = some integerTag then countOfChars? text.toList else none
  | _ => none

/-- The name that a tag of the document's own gives. -/
def nameOfTag? (tag : Yaml.Tag) : Option String := do
  match (← tag.text?).toList with
  | '!' :: name => return String.ofList name
  | _ => none

/-- A window is given by its name, or by its name as the tag of nothing. -/
def windowOf? : Yaml → Option EstimationWindow
  | .scalar p style text =>
    match p.tag.bind nameOfTag? with
    | none => EstimationWindow.ofName? text
    | some name =>
      if style = .plain && (text.isEmpty || isNullText text) then EstimationWindow.ofName? name
      else none
  | _ => none

/-- The values of a document, behind aliases or not. -/
def yamlValues (d : Yaml.Document) : ValueReader Yaml where
  text y := (d.follow y).bind textOf?
  optionalText y := (d.follow y).bind optionalTextOf?
  count y := (d.follow y).bind countOf?
  window y := (d.follow y).bind windowOf?

/-- Reads the mapping at the root of a document. What stands before a fault of the text is read all
the same. -/
def ofYaml (d : Yaml.Document) : Except ReadFault Configuration :=
  match d.root with
  | some (.mapping _ entries) => do
    let values := yamlValues d
    let draft ← entries.foldlM
      (fun (draft : Draft) e => do draft.setNamed values (← orMalformed (values.text e.1)) e.2)
      Draft.empty
    let c ← draft.finish
    if d.isWhole then return c else throw .malformed
  | _ => .error .malformed

def ofText (text : String) : Except ReadFault Configuration :=
  ofYaml (Yaml.Document.ofText text)

end RegionNet.Configuration
