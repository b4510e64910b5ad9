/-!
Decimal numerals of natural numbers and of integers, over the ten digits of ASCII.
-/

namespace RegionNet.Decimal

/-- The digits of `n` in base ten, without a leading zero; zero has one digit. -/
def digits (n : Nat) : List Char :=
  Nat.toDigits 10 n

def digitValue (c : Char) : Nat :=
  c.toNat - '0'.toNat

/-- The number that a list of digits writes; the empty list writes zero. -/
def value (ds : List Char) : Nat :=
  ds.foldl (fun acc c => 10 * acc + digitValue c) 0

/-- Reads one digit or more and nothing else. -/
def natural? (ds : List Char) : Option Nat :=
  if ds.isEmpty || !ds.all Char.isDigit then none else some (value ds)

def integerDigits (z : Int) : List Char :=
  if z < 0 then '-' :: digits z.natAbs else digits z.natAbs

def natText (n : Nat) : String :=
  String.ofList (digits n)

end RegionNet.Decimal
