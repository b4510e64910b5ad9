import RegionNet.Json
import RegionNet.Decimal.Shortest
import RegionNet.Text.Pieces

/-!
Writing JSON text, in one line without blank space or with one field a line. A number that is not
finite has no JSON form, as little as what stands for nothing, and is written as `null`.
-/

namespace RegionNet.Json

/-- What stands in a string for one of its characters. -/
def escape (c : Char) : List Char :=
  if c = '"' then ['\\', '"']
  else if c = '\\' then ['\\', '\\']
  else if c = '\x08' then ['\\', 'b']
  else if c = '\x0c' then ['\\', 'f']
  else if c = '\n' then ['\\', 'n']
  else if c = '\r' then ['\\', 'r']
  else if c = '\t' then ['\\', 't']
  else if c.toNat < 0x20 then
    ['\\', 'u', '0', '0', Nat.digitChar (c.toNat / 16), Nat.digitChar (c.toNat % 16)]
  else [c]

def quote (s : String) : List Char :=
  '"' :: (s.toList.flatMap escape ++ ['"'])

def Number.write : Number → List Char
  | integer z => Decimal.integerDigits z
  | real x => (Decimal.shortestText? Decimal.documentLayout x).getD "null".toList

mutual

/-- The text in one line. -/
def compact : Json → List Char
  | meaningless => "null".toList
  | null => "null".toList
  | bool true => "true".toList
  | bool false => "false".toList
  | number n => n.write
  | string s => quote s
  | array items => '[' :: (Text.joinWith [','] (compactItems items) ++ [']'])
  | object fields => '\x7b' :: (Text.joinWith [','] (compactFields fields) ++ ['\x7d'])

def compactItems : List Json → List (List Char)
  | [] => []
  | v :: rest => compact v :: compactItems rest

def compactFields : List (String × Json) → List (List Char)
  | [] => []
  | (k, v) :: rest => (quote k ++ ':' :: compact v) :: compactFields rest

end

def compactText (j : Json) : String :=
  String.ofList j.compact

/-- A line end and the blank space in front of a line at the given depth. -/
def newline (depth : Nat) : List Char :=
  '\n' :: List.replicate (2 * depth) ' '

/-- Pieces one a line between brackets, or the brackets alone. -/
def enclose (opening closing : Char) (depth : Nat) (pieces : List (List Char)) : List Char :=
  if pieces.isEmpty then [opening, closing]
  else
    opening :: (newline (depth + 1) ++ Text.joinWith (',' :: newline (depth + 1)) pieces ++
      newline depth ++ [closing])

mutual

/-- The text with one item or field a line, indented by its depth. -/
def indented (depth : Nat) : Json → List Char
  | meaningless => "null".toList
  | null => "null".toList
  | bool true => "true".toList
  | bool false => "false".toList
  | number n => n.write
  | string s => quote s
  | array items => enclose '[' ']' depth (indentedItems (depth + 1) items)
  | object fields => enclose '\x7b' '\x7d' depth (indentedFields (depth + 1) fields)

def indentedItems (depth : Nat) : List Json → List (List Char)
  | [] => []
  | v :: rest => indented depth v :: indentedItems depth rest

def indentedFields (depth : Nat) : List (String × Json) → List (List Char)
  | [] => []
  | (k, v) :: rest => (quote k ++ ':' :: ' ' :: indented depth v) :: indentedFields depth rest

end

def indentedText (j : Json) : String :=
  String.ofList (j.indented 0)

end RegionNet.Json
