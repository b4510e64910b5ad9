import RegionNet.Decimal.Numeral
import RegionNet.Text.Numeral
import RegionNet.Text.Pieces

/-!
Socket addresses and their text, `a.b.c.d:port` or `[groups]:port`.
-/

namespace RegionNet

inductive Host
  | v4 (octets : List UInt8)
  | v6 (groups : List UInt16) (scope : UInt32)
deriving DecidableEq, Repr

structure SocketAddress where
  host : Host
  port : UInt16
deriving DecidableEq, Repr

namespace SocketAddress

/-- The address of this machine for itself. -/
def loopback (port : UInt16) : SocketAddress :=
  ⟨.v4 [127, 0, 0, 1], port⟩

/-- A number of at most `longest` digits that is below `bound`. -/
def boundedNatural? (longest bound : Nat) (ds : List Char) : Option Nat := do
  let n ← Decimal.natural? ds
  if ds.length ≤ longest ∧ n < bound then some n else none

/-- One of the four numbers of an address; no zero stands in front of another digit. -/
def octet? (ds : List Char) : Option UInt8 := do
  let n ← boundedNatural? 3 256 ds
  if ds.length ≠ 1 ∧ ds.head? = some '0' then none else some (UInt8.ofNat n)

def octets? (cs : List Char) : Option (List UInt8) := do
  let octets ← (Text.splitAt (· == '.') cs).mapM octet?
  if octets.length = 4 then some octets else none

/-- A group has four digits at most. -/
def group? (ds : List Char) : Option UInt16 := do
  let n ← Text.natural? 16 ds
  if ds.length ≤ 4 then some (UInt16.ofNat n) else none

def joinOctets (high low : UInt8) : UInt16 :=
  UInt16.ofNat (high.toNat * 256 + low.toNat)

/-- Groups between colons. The last two may be written as four octets. -/
def groups? (allowOctets : Bool) (cs : List Char) : Option (List UInt16) :=
  if cs.isEmpty then some []
  else
    let pieces := Text.splitAt (· == ':') cs
    let last := pieces.getLast?.getD []
    if allowOctets && last.contains '.' then do
      let groups ← pieces.dropLast.mapM group?
      match ← octets? last with
      | [a, b, c, d] => some (groups ++ [joinOctets a b, joinOctets c d])
      | _ => none
    else pieces.mapM group?

/-- Splits at the first double colon. -/
def splitGap : List Char → Option (List Char × List Char)
  | ':' :: ':' :: rest => some ([], rest)
  | c :: rest => (splitGap rest).map fun r => (c :: r.1, r.2)
  | [] => none

/-- Eight groups, or fewer with a double colon in the place of one zero group or more. -/
def hostGroups? (cs : List Char) : Option (List UInt16) :=
  match splitGap cs with
  | none => do
    let groups ← groups? true cs
    if groups.length = 8 then some groups else none
  | some (front, back) => do
    let front ← groups? false front
    let back ← groups? true back
    if front.length + back.length ≤ 7 then
      some (front ++ List.replicate (8 - front.length - back.length) 0 ++ back)
    else none

def port? (ds : List Char) : Option UInt16 := do
  let n ← Decimal.natural? ds
  if n < UInt16.size then some (UInt16.ofNat n) else none

def scope? (ds : List Char) : Option UInt32 := do
  let n ← Decimal.natural? ds
  if n < UInt32.size then some (UInt32.ofNat n) else none

def ofChars? : List Char → Option SocketAddress
  | '[' :: cs => do
    let inside := cs.takeWhile (· != ']')
    match cs.dropWhile (· != ']') with
    | ']' :: ':' :: port =>
      let groups ← hostGroups? (inside.takeWhile (· != '%'))
      let scope ←
        match inside.dropWhile (· != '%') with
        | [] => some 0
        | _ :: ds => scope? ds
      return ⟨.v6 groups scope, ← port? port⟩
    | _ => none
  | cs => do
    match Text.splitAt (· == ':') cs with
    | [host, port] => return ⟨.v4 (← octets? host), ← port? port⟩
    | _ => none

def ofText? (s : String) : Option SocketAddress :=
  ofChars? s.toList

def octetsText (octets : List UInt8) : String :=
  ".".intercalate (octets.map fun o => Decimal.natText o.toNat)

def groupText (g : UInt16) : String :=
  String.ofList (Nat.toDigits 16 g.toNat)

def groupsText (groups : List UInt16) : String :=
  ":".intercalate (groups.map groupText)

/-- The length of the run of zeros at the front. -/
def zeroRun (groups : List UInt16) : Nat :=
  (groups.takeWhile (· == 0)).length

/-- Where the longest run of zeros starts, the first of several, and how long it is. -/
def longestZeroRun (groups : List UInt16) : Nat × Nat :=
  (List.range groups.length).foldl
    (fun best i =>
      let run := zeroRun (groups.drop i)
      if best.2 < run then (i, run) else best) (0, 0)

/-- A run of two zero groups or more is left out; an address of the older kind inside keeps its own
form. -/
def hostText : Host → String
  | .v4 octets => octetsText octets
  | .v6 groups scope =>
    let text :=
      match groups with
      | [0, 0, 0, 0, 0, 0xFFFF, g, h] =>
        "::ffff:" ++ octetsText [UInt8.ofNat (g.toNat / 256), UInt8.ofNat (g.toNat % 256),
          UInt8.ofNat (h.toNat / 256), UInt8.ofNat (h.toNat % 256)]
      | _ =>
        let (start, length) := longestZeroRun groups
        if 1 < length then
          groupsText (groups.take start) ++ "::" ++ groupsText (groups.drop (start + length))
        else groupsText groups
    if scope = 0 then text else text ++ "%" ++ Decimal.natText scope.toNat

def text (a : SocketAddress) : String :=
  match a.host with
  | .v4 _ => hostText a.host ++ ":" ++ Decimal.natText a.port.toNat
  | .v6 _ _ => "[" ++ hostText a.host ++ "]:" ++ Decimal.natText a.port.toNat

end SocketAddress

end RegionNet
