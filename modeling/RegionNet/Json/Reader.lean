import RegionNet.Json
import RegionNet.Decimal.Numeral
import RegionNet.Text.Numeral

/-!
Reading JSON text.

A text is one value with blank space around it, without comments, byte order mark or control
characters inside strings. Each reading step takes a prefix of the text and returns the rest.

A string with half of a surrogate pair and a number beyond the range of a double stand for nothing.
A document (`ofText?`) holds neither, and nests no value deeper than `deepest`. A text of which
only some fields matter (`readText?`) may hold them elsewhere.
-/

namespace RegionNet.Json

/-- How many arrays and objects may lie inside one another. -/
def deepest : Nat := 127

def isSpace (c : Char) : Bool :=
  c == ' ' || c == '\t' || c == '\n' || c == '\r'

def skipSpace (cs : List Char) : List Char :=
  cs.dropWhile isSpace

/-- The number that the four digits of an escape write. -/
def hexQuad? (a b c d : Char) : Option Nat :=
  Text.natural? 16 [a, b, c, d]

def isHighSurrogate (n : Nat) : Bool := 0xD800 ≤ n && n < 0xDC00

def isLowSurrogate (n : Nat) : Bool := 0xDC00 ≤ n && n < 0xE000

/-- The character that a pair of surrogates stands for. -/
def pairedChar (high low : Nat) : Char :=
  Char.ofNat (0x10000 + (high - 0xD800) * 0x400 + (low - 0xDC00))

/-- The character that a one-letter escape stands for. -/
def escapedChar? : Char → Option Char
  | '"' => some '"'
  | '\\' => some '\\'
  | '/' => some '/'
  | 'b' => some '\x08'
  | 'f' => some '\x0c'
  | 'n' => some '\n'
  | 'r' => some '\r'
  | 't' => some '\t'
  | _ => none

/-- Reads the inside of a string as it is written, up to and with the closing quote. -/
def readStringBody : List Char → Option (List Char × List Char)
  | [] => none
  | '"' :: rest => some ([], rest)
  | '\\' :: 'u' :: a :: b :: c :: d :: rest =>
    if (hexQuad? a b c d).isNone then none
    else (readStringBody rest).map fun r => ('\\' :: 'u' :: a :: b :: c :: d :: r.1, r.2)
  | '\\' :: c :: rest =>
    if (escapedChar? c).isNone then none
    else (readStringBody rest).map fun r => ('\\' :: c :: r.1, r.2)
  | c :: rest =>
    if c.toNat < 0x20 || c == '\\' then none
    else (readStringBody rest).map fun r => (c :: r.1, r.2)

/-- What the inside of a string stands for, unless it has half of a surrogate pair. -/
def unescape? : List Char → Option (List Char)
  | [] => some []
  | '\\' :: 'u' :: a :: b :: c :: d :: rest =>
    match hexQuad? a b c d with
    | none => none
    | some n =>
      if isHighSurrogate n then
        match rest with
        | '\\' :: 'u' :: e :: f :: g :: h :: rest =>
          match hexQuad? e f g h with
          | none => none
          | some low =>
            if isLowSurrogate low then (unescape? rest).map (pairedChar n low :: ·) else none
        | _ => none
      else if isLowSurrogate n then none
      else (unescape? rest).map (Char.ofNat n :: ·)
  | '\\' :: c :: rest =>
    match escapedChar? c with
    | none => none
    | some c => (unescape? rest).map (c :: ·)
  | c :: rest => (unescape? rest).map (c :: ·)

/-- Reads a string after its opening quote. -/
def readString (cs : List Char) : Option (Option String × List Char) :=
  (readStringBody cs).map fun r => ((unescape? r.1).map String.ofList, r.2)

/-- The parts of a written number. -/
structure Literal where
  negative : Bool
  whole : List Char
  fraction : Option (List Char)
  exponent : Option (Bool × List Char)

/-- Splits off a run of one digit or more. -/
def readDigits (cs : List Char) : Option (List Char × List Char) :=
  let ds := cs.takeWhile Char.isDigit
  if ds.isEmpty then none else some (ds, cs.dropWhile Char.isDigit)

def readFraction : List Char → Option (Option (List Char) × List Char)
  | '.' :: rest => (readDigits rest).map fun r => (some r.1, r.2)
  | cs => some (none, cs)

def readExponent : List Char → Option (Option (Bool × List Char) × List Char)
  | c :: rest =>
    if c == 'e' || c == 'E' then
      match rest with
      | '-' :: rest => (readDigits rest).map fun r => (some (true, r.1), r.2)
      | '+' :: rest => (readDigits rest).map fun r => (some (false, r.1), r.2)
      | rest => (readDigits rest).map fun r => (some (false, r.1), r.2)
    else some (none, c :: rest)
  | [] => some (none, [])

/-- A digit zero at the front of the whole part stands alone. -/
def readLiteral (cs : List Char) : Option (Literal × List Char) := do
  let (negative, cs) :=
    match cs with
    | '-' :: rest => (true, rest)
    | cs => (false, cs)
  let (whole, cs) ← readDigits cs
  if whole.head? = some '0' ∧ whole.length ≠ 1 then none
  else
    let (fraction, cs) ← readFraction cs
    let (exponent, cs) ← readExponent cs
    return (⟨negative, whole, fraction, exponent⟩, cs)

def Literal.isInteger (l : Literal) : Bool :=
  l.fraction.isNone && l.exponent.isNone

def Literal.toInt (l : Literal) : Int :=
  if l.negative then -(Decimal.value l.whole : Int) else Decimal.value l.whole

/-- The nearest double, as it is assumed of every reader (`Decimal.nearest`). -/
def Literal.toFloat (l : Literal) : Float :=
  let fraction := l.fraction.getD []
  let exponent : Int :=
    match l.exponent with
    | none => 0
    | some (negative, ds) => if negative then -(Decimal.value ds : Int) else Decimal.value ds
  let digits := Decimal.value (l.whole ++ fraction)
  let magnitude := Decimal.nearest digits (exponent - fraction.length)
  if l.negative then -magnitude else magnitude

/-- Integers of 64 bits, signed or unsigned. Minus zero is none of them. -/
def isWord (negative : Bool) (z : Int) : Bool :=
  if negative then z ≠ 0 && Int64.minValue.toInt ≤ z else z < UInt64.size

/-- What a literal means, if it is not too large for a double. -/
def Literal.number? (l : Literal) : Option Number :=
  if l.isInteger && isWord l.negative l.toInt then some (.integer l.toInt)
  else if l.toFloat.isFinite then some (.real l.toFloat)
  else none

def readNumber (cs : List Char) : Option (Json × List Char) := do
  let (l, rest) ← readLiteral cs
  return ((l.number?.map Json.number).getD meaningless, rest)

/-- Reads values separated by commas, up to and with the closing bracket. The rest is missing if the
text goes wrong before it. -/
def readItems (read : List Char → Option (Json × List Char)) :
    Nat → List Char → List Json × Option (List Char)
  | 0, _ => ([], none)
  | fuel + 1, cs =>
    match read (skipSpace cs) with
    | none => ([], none)
    | some (v, cs) =>
      match skipSpace cs with
      | ',' :: cs =>
        let (vs, rest) := readItems read fuel cs
        (v :: vs, rest)
      | ']' :: cs => ([v], some cs)
      | _ => ([v], none)

/-- A field whose name may stand for nothing. -/
abbrev WrittenField := Option String × Json

/-- Reads one field. -/
def readField (read : List Char → Option (Json × List Char)) (cs : List Char) :
    Option (WrittenField × List Char) :=
  match skipSpace cs with
  | '"' :: cs => do
    let (name, cs) ← readString cs
    match skipSpace cs with
    | ':' :: cs => (read (skipSpace cs)).map fun r => ((name, r.1), r.2)
    | _ => none
  | _ => none

/-- Reads fields separated by commas, up to and with the closing brace, like `readItems`. -/
def readFields (read : List Char → Option (Json × List Char)) :
    Nat → List Char → List WrittenField × Option (List Char)
  | 0, _ => ([], none)
  | fuel + 1, cs =>
    match readField read cs with
    | none => ([], none)
    | some (f, cs) =>
      match skipSpace cs with
      | ',' :: cs =>
        let (fs, rest) := readFields read fuel cs
        (f :: fs, rest)
      | '\x7d' :: cs => ([f], some cs)
      | _ => ([f], none)

/-- Reads an array after its opening bracket. -/
def readArray (read : List Char → Option (Json × List Char)) (cs : List Char) :
    List Json × Option (List Char) :=
  match skipSpace cs with
  | ']' :: rest => ([], some rest)
  | cs => readItems read cs.length cs

/-- Reads an object after its opening brace. -/
def readObject (read : List Char → Option (Json × List Char)) (cs : List Char) :
    List WrittenField × Option (List Char) :=
  match skipSpace cs with
  | '\x7d' :: rest => ([], some rest)
  | cs => readFields read cs.length cs

def namedField? (f : WrittenField) : Option (String × Json) :=
  f.1.map fun name => (name, f.2)

/-- The object with the given fields, all of whose names have to stand for something. -/
def ofWrittenFields (fields : List WrittenField) : Json :=
  ((fields.mapM namedField?).map object).getD meaningless

/-- The rest of `cs` after `word`. -/
def dropWord? (word cs : List Char) : Option (List Char) :=
  if word.isPrefixOf cs then some (cs.drop word.length) else none

/-- Reads one value, without blank space in front, in which at most `depth` values are nested. -/
def readValue : Nat → List Char → Option (Json × List Char)
  | _, 'n' :: rest => (dropWord? "ull".toList rest).map fun rest => (null, rest)
  | _, 't' :: rest => (dropWord? "rue".toList rest).map fun rest => (bool true, rest)
  | _, 'f' :: rest => (dropWord? "alse".toList rest).map fun rest => (bool false, rest)
  | _, '"' :: rest => (readString rest).map fun r => ((r.1.map string).getD meaningless, r.2)
  | 0, '[' :: _ => none
  | depth + 1, '[' :: rest =>
    let (items, rest) := readArray (readValue depth) rest
    rest.map fun rest => (array items, rest)
  | 0, '\x7b' :: _ => none
  | depth + 1, '\x7b' :: rest =>
    let (fields, rest) := readObject (readValue depth) rest
    rest.map fun rest => (ofWrittenFields fields, rest)
  | _, cs => readNumber cs

/-- A text read as far as it goes. -/
structure Reading where
  /-- The value of the text, or an array or object of what stands before the fault in one. -/
  value : Json
  /-- Is the text a value as a whole? -/
  isWhole : Bool

namespace Reading

def endsText (rest : List Char) : Bool :=
  (skipSpace rest).isEmpty

/-- Reads a text in which at most `depth` values are nested. -/
def ofChars (depth : Nat) (cs : List Char) : Reading :=
  match skipSpace cs with
  | '[' :: rest =>
    let (items, rest) := readArray (readValue (depth - 1)) rest
    ⟨.array items, rest.any endsText⟩
  | '\x7b' :: rest =>
    let (fields, rest) := readObject (readValue (depth - 1)) rest
    let named := (fields.map namedField?).takeWhile Option.isSome
    ⟨.object (named.filterMap id), rest.any endsText && named.length == fields.length⟩
  | cs =>
    match readValue depth cs with
    | some (v, rest) => ⟨v, endsText rest⟩
    | none => ⟨.meaningless, false⟩

/-- Reads a text of any depth. -/
def ofText (text : String) : Reading :=
  ofChars (text.length + 1) text.toList

def whole? (r : Reading) : Option Json :=
  if r.isWhole then some r.value else none

end Reading

/-- The value that a text writes, parts of which may stand for nothing. -/
def readText? (text : String) : Option Json :=
  (Reading.ofText text).whole?

/-- The value that a whole text writes. -/
def ofChars? (cs : List Char) : Option Json :=
  (Reading.ofChars deepest cs).whole?.filter isMeaningful

def ofText? (text : String) : Option Json :=
  ofChars? text.toList

end RegionNet.Json
