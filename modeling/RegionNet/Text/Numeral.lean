/-!
Numerals in any base up to sixteen. The digits above nine are letters of either case.
-/

namespace RegionNet.Text

def digitValue? (c : Char) : Option Nat :=
  if c.isDigit then some (c.toNat - '0'.toNat)
  else if 'a' ≤ c ∧ c ≤ 'f' then some (c.toNat - 'a'.toNat + 10)
  else if 'A' ≤ c ∧ c ≤ 'F' then some (c.toNat - 'A'.toNat + 10)
  else none

/-- Reads one digit of the base or more and nothing else. -/
def natural? (base : Nat) (ds : List Char) : Option Nat :=
  if ds.isEmpty then none
  else do
    let values ← ds.mapM digitValue?
    if values.all (· < base) then return values.foldl (fun n d => n * base + d) 0 else none

/-- A number of 64 bits. -/
def word? (base : Nat) (ds : List Char) : Option UInt64 :=
  ((natural? base ds).filter (· < UInt64.size)).map UInt64.ofNat

end RegionNet.Text
