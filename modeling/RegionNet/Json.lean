import RegionNet.SortedMap
import RegionNet.Decimal.Nearest

/-!
JSON values.

A value keeps the fields of an object as they were written, repetitions included: a record may not
repeat a field, while in a table the last entry for a key counts. `Json.canonical` is the reading as
a table throughout.
-/

namespace RegionNet

/-- A number is an integer if it was written as one and fits 64 bits, signed or unsigned. -/
inductive Json.Number
  | integer (z : Int)
  | real (x : Float)
deriving Inhabited

inductive Json
  /-- What is written well but stands for nothing, such as a number beyond the range of a double. -/
  | meaningless
  | null
  | bool (b : Bool)
  | number (n : Json.Number)
  | string (s : String)
  | array (items : List Json)
  | object (fields : List (String × Json))
deriving Inhabited

namespace Json

def Number.toFloat : Number → Float
  | integer z => Decimal.ofInt z
  | real x => x

def ofInt (z : Int) : Json := .number (.integer z)

def ofNat (n : Nat) : Json := .number (.integer n)

def ofFloat (x : Float) : Json := .number (.real x)

def emptyObject : Json := .object []

def fields? : Json → Option (List (String × Json))
  | object fields => some fields
  | _ => none

/-- The last field of that name. -/
def field? (j : Json) (name : String) : Option Json :=
  match j with
  | object fields => (fields.reverse.find? fun f => f.1 == name).map Prod.snd
  | _ => none

mutual

/-- Each object lists its keys in order and once, each with the last value it was given. -/
def canonical : Json → Json
  | meaningless => meaningless
  | null => null
  | bool b => bool b
  | number n => number n
  | string s => string s
  | array items => array (canonicalItems items)
  | object fields => object (SortedMap.ofList (canonicalFields fields)).entries

def canonicalItems : List Json → List Json
  | [] => []
  | v :: rest => canonical v :: canonicalItems rest

def canonicalFields : List (String × Json) → List (String × Json)
  | [] => []
  | (k, v) :: rest => (k, canonical v) :: canonicalFields rest

end

mutual

/-- Does every part of a value stand for something? -/
def isMeaningful : Json → Bool
  | meaningless => false
  | null => true
  | bool _ => true
  | number _ => true
  | string _ => true
  | array items => areMeaningful items
  | object fields => haveMeaning fields

def areMeaningful : List Json → Bool
  | [] => true
  | v :: rest => isMeaningful v && areMeaningful rest

def haveMeaning : List (String × Json) → Bool
  | [] => true
  | (_, v) :: rest => isMeaningful v && haveMeaning rest

end

end Json

end RegionNet
