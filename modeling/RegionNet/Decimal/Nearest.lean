/-!
The double that lies nearest to a decimal number.

That documents are read with the nearest double is an assumption about the library that reads them:
unless it is asked for exact round trips, it may give a neighbor of that double for a number with
many digits. What is proved of reading back what was written needs the assumption for the shortest
texts of doubles only.
-/

namespace RegionNet.Decimal

/-- Above this power of ten every positive number is too large for a double, and below its inverse
every number rounds to zero. -/
def farExponent : Nat := 400

/-- `mantissa · 10 ^ exponent`, rounded to the nearest double, a tie to the even one. A number
beyond the largest double becomes infinite. -/
def nearest (mantissa : Nat) (exponent : Int) : Float :=
  if mantissa = 0 then 0.0
  else
    let magnitude : Int := (Nat.toDigits 10 mantissa).length + exponent
    if magnitude > farExponent then Float.ofBits 0x7FF0000000000000
    else if magnitude < -(farExponent : Int) then 0.0
    else Float.ofScientific mantissa (exponent < 0) exponent.natAbs

/-- The double nearest to an integer. -/
def ofInt (z : Int) : Float :=
  if z < 0 then -(nearest z.natAbs 0) else nearest z.natAbs 0

end RegionNet.Decimal
