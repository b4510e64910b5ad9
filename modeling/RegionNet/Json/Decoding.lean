import RegionNet.Json

/-!
Typed reading of JSON values.

A record may be given as an object or as the list of its fields in order. Unknown fields are ignored
and no field may be repeated; in a table the last entry for a key counts. An enumerated value may
also be given as the object whose one key is its name and whose value is `null`.
-/

namespace RegionNet.Json

def toString? : Json → Option String
  | string s => some s
  | _ => none

def toFloat? : Json → Option Float
  | number n => some n.toFloat
  | _ => none

def toBool? : Json → Option Bool
  | bool b => some b
  | _ => none

def toUInt64? : Json → Option UInt64
  | number (.integer z) => if 0 ≤ z ∧ z < UInt64.size then some (UInt64.ofNat z.toNat) else none
  | _ => none

def toInt64? : Json → Option Int64
  | number (.integer z) =>
    if Int64.minValue.toInt ≤ z ∧ z ≤ Int64.maxValue.toInt then some (Int64.ofInt z) else none
  | _ => none

/-- A value that may be `null`. -/
def toOptional? {α : Type} (read : Json → Option α) : Json → Option (Option α)
  | null => some none
  | j => (read j).map some

def toList? {α : Type} (read : Json → Option α) : Json → Option (List α)
  | array items => items.mapM read
  | _ => none

/-- A value written as its name. -/
def toNamed? {α : Type} (named : String → Option α) : Json → Option α
  | string s => named s
  | object [(s, null)] => named s
  | _ => none

/-- A table with keys read by `key` and values by `read`. -/
def toTable? {κ α : Type} [Ord κ] [Std.TransOrd κ] (key : String → Option κ)
    (read : Json → Option α) : Json → Option (SortedMap κ α)
  | object fields =>
    (fields.mapM fun (f : String × Json) => do return (← key f.1, ← read f.2)).map SortedMap.ofList
  | _ => none

/-- The one value that `fields` give for `name`; `none` if they give two. -/
def fieldOnce? (fields : List (String × Json)) (name : String) : Option (Option Json) :=
  match fields.filter fun f => f.1 == name with
  | [] => some none
  | [f] => some (some f.2)
  | _ => none

/-- The values of a record with the given fields, each present or not. -/
def toRecord? (names : List String) : Json → Option (List (Option Json))
  | object fields => names.mapM (fieldOnce? fields)
  | array items =>
    if items.length ≤ names.length then
      some (items.map some ++ List.replicate (names.length - items.length) none)
    else none
  | _ => none

/-- Writes a table with keys written by `key` and values by `write`. -/
def ofTable {κ α : Type} [Ord κ] (key : κ → String) (write : α → Json) (m : SortedMap κ α) : Json :=
  .object (m.entries.map fun e => (key e.1, write e.2))

end RegionNet.Json
