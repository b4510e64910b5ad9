import RegionNet.Decimal.Numeral

/-!
The shortest decimal that reads back to a double.

A finite double is `m · 2 ^ q`. The reals that round to it form an interval, whose ends belong to it
exactly if `m` is even. Of the decimals in the interval the shortest one is taken, and of those the
nearest to the double. `Layout` then says how its digits are written out.
-/

namespace RegionNet.Decimal

/-- What the bits of a double say. -/
inductive Parts
  | notANumber
  | infinite (negative : Bool)
  | finite (negative : Bool) (mantissa : Nat) (exponent : Int)
deriving DecidableEq, Repr

/-- The mantissa of a double whose exponent field is not zero is at least this. -/
def hiddenBit : Nat := Nat.pow 2 52

def parts (x : Float) : Parts :=
  let bits := x.toBits.toNat
  let negative := bits / Nat.pow 2 63 == 1
  let field : Nat := bits / hiddenBit % Nat.pow 2 11
  let fraction : Nat := bits % hiddenBit
  if field = 2047 then
    if fraction = 0 then .infinite negative else .notANumber
  else if field = 0 then .finite negative fraction (-1074)
  else .finite negative (hiddenBit + fraction) ((field : Int) - 1075)

/-- The interval of reals that round to `m · 2 ^ q`, in units of `2 ^ (q - 2)`. Right above a power
of two the doubles below lie twice as dense as those above. -/
structure Interval where
  lower : Nat
  centre : Nat
  upper : Nat
  closed : Bool
  exponent : Int
deriving DecidableEq, Repr

def Interval.ofDyadic (m : Nat) (q : Int) : Interval where
  lower := if m = hiddenBit ∧ q ≠ -1074 then 4 * m - 1 else 4 * m - 2
  centre := 4 * m
  upper := 4 * m + 2
  closed := m % 2 == 0
  exponent := q - 2

/-- Multiplying by `numerator` and dividing by `denominator` turns the units of an interval into
multiples of a power of ten. -/
structure Scale where
  numerator : Nat
  denominator : Nat
deriving DecidableEq, Repr

def Interval.scale (i : Interval) (power : Int) : Scale where
  numerator := Nat.pow 2 i.exponent.toNat * Nat.pow 10 (-power).toNat
  denominator := Nat.pow 2 (-i.exponent).toNat * Nat.pow 10 power.toNat

/-- Does `d · 10 ^ power` lie in the interval? -/
def Interval.holds (i : Interval) (s : Scale) (d : Nat) : Bool :=
  if i.closed then
    i.lower * s.numerator ≤ d * s.denominator && d * s.denominator ≤ i.upper * s.numerator
  else
    i.lower * s.numerator < d * s.denominator && d * s.denominator < i.upper * s.numerator

/-- The multiple of `10 ^ power` in the interval that is nearest to the centre, if one is there. If
any multiple is in the interval, so is one of the centre's two neighbours. -/
def Interval.multiple? (i : Interval) (power : Int) : Option Nat :=
  let s := i.scale power
  let d := i.centre * s.numerator / s.denominator
  let twice := 2 * (i.centre * s.numerator)
  let middle := (2 * d + 1) * s.denominator
  match i.holds s d, i.holds s (d + 1) with
  | true, true =>
    if twice < middle ∨ (twice = middle ∧ d % 2 = 0) then some d else some (d + 1)
  | true, false => some d
  | false, true => some (d + 1)
  | false, false => none

/-- The exponent of the leading decimal digit of `m · 2 ^ q`. -/
def leadingPower (m : Nat) (q : Int) : Int :=
  let n := m * Nat.pow 2 q.toNat
  let d := Nat.pow 2 (-q).toNat
  let k : Int := (digits n).length - (digits d).length
  if d * Nat.pow 10 k.toNat ≤ n * Nat.pow 10 (-k).toNat then k else k - 1

/-- A decimal number `significand · 10 ^ exponent`. -/
structure Scientific where
  significand : Nat
  exponent : Int
deriving DecidableEq, Repr

/-- Moves trailing zeros of the significand into the exponent. -/
def Scientific.strip (fuel : Nat) (x : Scientific) : Scientific :=
  match fuel with
  | 0 => x
  | fuel + 1 =>
    if x.significand ≠ 0 ∧ x.significand % 10 = 0 then
      strip fuel ⟨x.significand / 10, x.exponent + 1⟩
    else x

/-- No double needs more significant digits than this. -/
def mostDigits : Nat := 17

/-- The shortest decimal in the interval around `m · 2 ^ q`: grids of ever smaller powers of ten are
tried, from the leading digit on. -/
def shortest (m : Nat) (q : Int) : Scientific :=
  let i := Interval.ofDyadic m q
  let top := leadingPower m q
  let found := (List.range mostDigits).findSome? fun (n : Nat) =>
    (i.multiple? (top - (n : Int))).map fun d => Scientific.mk d (top - (n : Int))
  match found with
  | some x => x.strip (mostDigits + 1)
  | none => ⟨m * Nat.pow 2 q.toNat, 0⟩

/-- How digits are written out: the leading digits whose power lies in the given range are written
with a point in place, all others with an exponent. -/
structure Layout where
  leastPlain : Int
  mostPlain : Int
  leastFractionDigits : Nat
  exponentMark : Char
  plusSign : Bool

def zeros (n : Nat) : List Char :=
  List.replicate n '0'

/-- The digits before and after the point, with zeros where the digits do not reach. -/
def Layout.plain (l : Layout) (ds : List Char) (leading : Int) : List Char :=
  if leading < 0 then '0' :: '.' :: (zeros (-leading - 1).toNat ++ ds)
  else
    let wholeLength := leading.toNat + 1
    let whole := ds.take wholeLength ++ zeros (wholeLength - ds.length)
    let fraction := ds.drop wholeLength
    let padded := fraction ++ zeros (l.leastFractionDigits - fraction.length)
    if padded.isEmpty then whole else whole ++ '.' :: padded

/-- One digit, the others after a point if there are any, and the exponent with its sign. -/
def Layout.scientific (l : Layout) (ds : List Char) (leading : Int) : List Char :=
  let mantissa :=
    match ds with
    | d :: rest@(_ :: _) => d :: '.' :: rest
    | _ => ds
  let sign := if leading < 0 then ['-'] else if l.plusSign then ['+'] else []
  mantissa ++ l.exponentMark :: (sign ++ digits leading.natAbs)

def Layout.write (l : Layout) (x : Scientific) : List Char :=
  let ds := digits x.significand
  let leading : Int := ds.length - 1 + x.exponent
  if l.leastPlain ≤ leading ∧ leading ≤ l.mostPlain then l.plain ds leading
  else l.scientific ds leading

/-- Numbers in documents: plain from `0.00001` to below `10 ^ 16`, always with a fraction, and
otherwise with a signed exponent. -/
def documentLayout : Layout := ⟨-5, 15, 1, 'e', true⟩

/-- The text of a finite double; the others have none. Zero keeps its sign. -/
def shortestText? (l : Layout) (x : Float) : Option (List Char) :=
  match parts x with
  | .finite negative m q =>
    let magnitude := if m = 0 then l.plain ['0'] 0 else l.write (shortest m q)
    some (if negative then '-' :: magnitude else magnitude)
  | _ => none

end RegionNet.Decimal
