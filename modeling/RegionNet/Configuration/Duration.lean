import RegionNet.Decimal.Numeral
import RegionNet.Text.Blank

/-!
Durations and their text: numbers with units that are added up, such as `1h 30m`.

White space may stand between items, between a number and its unit, and within a number; a unit is a
run of letters. No amount on the way may exceed 64 bits. A fraction is a whole number of
nanoseconds, and for the units above a minute a whole number of seconds. A year has 365.25 days and
a month 30.44.
-/

namespace RegionNet

/-- Why a text does not read. -/
inductive ReadFault
  | malformed
  /-- The last carry of a sum had no room. Nothing checks it beforehand: all reading ends there. -/
  | overflow
deriving DecidableEq, Repr

namespace ReadFault

def overflowMessage : String := "overflow in Duration::new"

def orMalformed {α : Type} : Option α → Except ReadFault α
  | some a => .ok a
  | none => .error malformed

end ReadFault

open ReadFault (orMalformed)

/-- The number of nanoseconds in a second. -/
def Duration.second : Nat := 1000000000

structure Duration where
  seconds : Nat
  nanoseconds : Nat
  seconds_lt : seconds < UInt64.size := by decide
  nanoseconds_lt : nanoseconds < Duration.second := by decide
deriving DecidableEq

namespace Duration

def zero : Duration := { seconds := 0, nanoseconds := 0 }

instance : Inhabited Duration := ⟨zero⟩

def isZero (d : Duration) : Bool :=
  d.seconds == 0 && d.nanoseconds == 0

def ofSeconds (seconds : Nat) (h : seconds < UInt64.size := by decide) : Duration :=
  { seconds := seconds, nanoseconds := 0, seconds_lt := h }

def toNanoseconds (d : Duration) : Nat :=
  d.seconds * second + d.nanoseconds

/-- A span whose nanoseconds may make up whole seconds. -/
def ofParts (seconds nanoseconds : Nat) : Except ReadFault Duration :=
  if h : seconds + nanoseconds / second < UInt64.size then
    .ok {
      seconds := seconds + nanoseconds / second
      nanoseconds := nanoseconds % second
      seconds_lt := h
      nanoseconds_lt := Nat.mod_lt _ (by decide) }
  else .error .overflow

/-- A number that has 64 bits. -/
def fits (n : Nat) : Except ReadFault Nat :=
  if n < UInt64.size then .ok n else .error .malformed

/-- A number of seconds or of nanoseconds. -/
inductive Amount
  | seconds (n : Nat)
  | nanoseconds (n : Nat)
deriving DecidableEq, Repr

namespace Amount

/-- Changes the number, which must still fit. -/
def map (f : Nat → Except ReadFault Nat) : Amount → Except ReadFault Amount
  | seconds n => return seconds (← f n)
  | nanoseconds n => return nanoseconds (← f n)

def times (count : Nat) : Amount → Except ReadFault Amount :=
  map fun n => fits (count * n)

/-- So many parts of an amount cut into `parts` equal ones, if nothing is left over. -/
def share (count parts : Nat) : Amount → Except ReadFault Amount :=
  map fun n => do
    let scaled ← fits (count * n)
    if scaled % parts = 0 then return scaled / parts else throw .malformed

end Amount

/-- Adds an amount. More nanoseconds than a second has are carried at once; exactly a second of them
is carried last. -/
def add (d : Duration) : Amount → Except ReadFault Duration
  | .seconds n => do ofParts (← fits (d.seconds + n)) d.nanoseconds
  | .nanoseconds n => do
    let sum ← fits (d.nanoseconds + n)
    if second < sum then ofParts (← fits (d.seconds + sum / second)) (sum % second)
    else ofParts d.seconds sum

def minute : Nat := 60

def hour : Nat := 60 * minute

def day : Nat := 24 * hour

def year : Nat := 31557600

def month : Nat := 2630016

/-- The units and their spellings. Case matters. -/
def units : List (Amount × List String) :=
  [(.nanoseconds 1, ["nanos", "nsec", "ns"]),
    (.nanoseconds 1000, ["usec", "us", "µs"]),
    (.nanoseconds 1000000, ["millis", "msec", "ms"]),
    (.seconds 1, ["seconds", "second", "secs", "sec", "s"]),
    (.seconds minute, ["minutes", "minute", "min", "mins", "m"]),
    (.seconds hour, ["hours", "hour", "hrs", "hr", "h"]),
    (.seconds day, ["days", "day", "d"]),
    (.seconds (7 * day), ["weeks", "week", "wks", "wk", "w"]),
    (.seconds month, ["months", "month", "M"]),
    (.seconds year, ["years", "year", "yrs", "yr", "y"])]

def unit? (name : List Char) : Option Amount :=
  (units.find? fun u => u.2.contains (String.ofList name)).map Prod.fst

/-- What fractions of a unit are taken of. A nanosecond has none, and what is longer than a minute
is only divided into seconds. -/
def divisible? : Amount → Option Amount
  | .nanoseconds n => if n = 1 then none else some (.nanoseconds n)
  | .seconds n => some (if n ≤ minute then .nanoseconds (n * second) else .seconds n)

/-- An item of a duration. The fraction is empty if there is none. -/
structure Item where
  whole : List Char
  fraction : List Char
  unit : Amount

/-- Adds the whole part of an item and then its fraction. -/
def addItem (d : Duration) (i : Item) : Except ReadFault Duration := do
  let sum ← d.add (← i.unit.times (Decimal.value i.whole))
  if i.fraction.isEmpty then return sum
  else
    let divided ← orMalformed (divisible? i.unit)
    sum.add (← divided.share (Decimal.value i.fraction) (Nat.pow 10 i.fraction.length))

/-- The characters of units. -/
def isUnitChar (c : Char) : Bool :=
  c.isAlpha || c == 'µ'

def isNumberChar (c : Char) : Bool :=
  c.isDigit || Text.isBlank c

/-- Cuts off a run of digits, which may have white space between and after them. -/
def takeDigits (cs : List Char) : List Char × List Char :=
  ((cs.takeWhile isNumberChar).filter Char.isDigit, cs.dropWhile isNumberChar)

/-- A point and the digits after it, which are not too many for 64 bits. -/
def takeFraction : List Char → Except ReadFault (List Char × List Char)
  | '.' :: rest => do
    let (fraction, rest) := takeDigits rest
    if fraction.isEmpty then throw .malformed
    else
      let _ ← fits (Nat.pow 10 fraction.length)
      return (fraction, rest)
  | rest => return ([], rest)

/-- Cuts off the next item of a text that starts with a digit. White space or another item follows
its unit. -/
def readItem (cs : List Char) : Except ReadFault (Item × List Char) := do
  if !cs.head?.any Char.isDigit then throw .malformed
  else
    let (whole, rest) := takeDigits cs
    let _ ← fits (Decimal.value whole)
    let (fraction, rest) ← takeFraction rest
    let unit ← orMalformed (unit? (rest.takeWhile isUnitChar))
    let rest := rest.dropWhile isUnitChar
    if rest.head?.all isNumberChar then return (⟨whole, fraction, unit⟩, rest)
    else throw .malformed

/-- Adds up the items of a text. -/
def sumItems : Nat → Duration → List Char → Except ReadFault Duration
  | 0, _, _ => .error .malformed
  | fuel + 1, sum, cs => do
    let (item, rest) ← readItem cs
    let sum ← sum.addItem item
    match Text.trimLeft rest with
    | [] => return sum
    | next => sumItems fuel sum next

def ofChars (cs : List Char) : Except ReadFault Duration :=
  if cs = ['0'] then .ok zero
  else
    match Text.trimLeft cs with
    | [] => .error .malformed
    | cs => sumItems cs.length zero cs

def ofText (text : String) : Except ReadFault Duration :=
  ofChars text.toList

/-- The items of a duration that are not zero. Only the three longest units have a plural. -/
def items (d : Duration) : List (Nat × String × Bool) :=
  let inYear := d.seconds % year
  let inMonth := inYear % month
  let inDay := inMonth % day
  [(d.seconds / year, "year", true), (inYear / month, "month", true), (inMonth / day, "day", true),
    (inDay / hour, "h", false), (inDay % hour / minute, "m", false), (inDay % minute, "s", false),
    (d.nanoseconds / 1000000, "ms", false), (d.nanoseconds / 1000 % 1000, "us", false),
    (d.nanoseconds % 1000, "ns", false)].filter fun i => i.1 ≠ 0

def itemChars (i : Nat × String × Bool) : List Char :=
  Decimal.digits i.1 ++ i.2.1.toList ++ if i.2.2 && i.1 ≠ 1 then ['s'] else []

def chars (d : Duration) : List Char :=
  if d.isZero then ['0', 's'] else Text.joinWith [' '] (d.items.map itemChars)

/-- The text of a duration, which reads back to it. -/
def text (d : Duration) : String :=
  String.ofList d.chars

end Duration

end RegionNet
