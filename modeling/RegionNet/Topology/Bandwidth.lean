import RegionNet.Decimal.Nearest
import RegionNet.Decimal.Numeral
import RegionNet.Text.Blank
import RegionNet.Text.DecimalDigit

/-!
Bandwidths as a topology writes them: a number and a unit without a space between, in bytes per
second.

A number is a run of decimal digits of any script, with an optional point and more digits after it.
The unit is the rest of the token. A token that is a number to its end gives up its last character
as unit, so that the unit is never empty. Only numbers of ASCII digits and the units `mb` and `kb`
are understood.
-/

namespace RegionNet

/-- Why a token is not a bandwidth. -/
inductive BandwidthError
  | malformed (token : String)
  | unknownUnit (unit : String)
deriving DecidableEq, Repr

def BandwidthError.message : BandwidthError → String
  | malformed token => s!"Bandwidth spec doesn't match expected format: '{token}'"
  | unknownUnit unit => s!"Unknown bandwidth units: {unit}"

namespace Bandwidth

def kilobyte : Float := 1024.0

def megabyte : Float := 1024.0 * 1024.0

/-- Cuts off the longest number. The number is empty if the text does not start with a digit. -/
def number (cs : List Char) : List Char × List Char :=
  match cs.takeWhile Text.isDecimalDigit, cs.dropWhile Text.isDecimalDigit with
  | [], _ => ([], cs)
  | whole, '.' :: rest =>
    (whole ++ '.' :: rest.takeWhile Text.isDecimalDigit, rest.dropWhile Text.isDecimalDigit)
  | whole, rest => (whole, rest)

/-- Cuts a token into a number and a unit that is neither empty nor contains white space. -/
def split? (cs : List Char) : Option (List Char × List Char) :=
  match number cs with
  | ([], _) => none
  | (digits, []) =>
    if digits.length = 1 then none
    else some (digits.dropLast, digits.drop (digits.length - 1))
  | (digits, unit) => if unit.any Text.isBlank then none else some (digits, unit)

/-- The factor of a unit, whatever the case of its letters. -/
def factor? (unit : List Char) : Option Float :=
  match unit.map Char.toLower with
  | ['m', 'b'] => some megabyte
  | ['k', 'b'] => some kilobyte
  | _ => none

/-- The double nearest to a number, if all of its digits are ASCII. -/
def value? (number : List Char) : Option Float :=
  let digits := number.filter (· != '.')
  if digits.all Char.isDigit then
    some (Decimal.nearest (Decimal.value digits)
      (-((number.dropWhile (· != '.')).drop 1).length))
  else none

def ofChars (token : List Char) : Except BandwidthError Float :=
  match split? token with
  | none => .error (.malformed (String.ofList token))
  | some (number, unit) =>
    match value? number, factor? unit with
    | none, _ => .error (.malformed (String.ofList token))
    | some _, none => .error (.unknownUnit (String.ofList unit))
    | some value, some factor => .ok (value * factor)

/-- Reads a bandwidth in bytes per second. -/
def ofText (token : String) : Except BandwidthError Float :=
  ofChars token.toList

end Bandwidth

end RegionNet
