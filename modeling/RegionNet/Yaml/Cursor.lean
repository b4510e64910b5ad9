/-!
A place in a YAML text: what is left to read, how far it is from the start of its line, and how many
bytes were before it.

Line ends are brought to one form before reading, so that a line end is a single character.
-/

namespace RegionNet.Yaml

/-- Line ends that are kept as they are within a scalar are the two Unicode separators. -/
def isBreak (c : Char) : Bool :=
  c == '\n' || c == '\u2028' || c == '\u2029'

def isSpace (c : Char) : Bool :=
  c == ' ' || c == '\t'

def isGap (c : Char) : Bool :=
  isSpace c || isBreak c

/-- The characters of anchors and of handles. -/
def isNameChar (c : Char) : Bool :=
  c.isAlphanum || c == '_' || c == '-'

/-- May a character stand in a YAML text at all? -/
def isPrintable (c : Char) : Bool :=
  c == '\t' || c == '\n' || c == '\r' || c == '\u0085'
    || (0x20 ≤ c.toNat && c.toNat ≤ 0x7E)
    || (0xA0 ≤ c.toNat && c.toNat ≠ 0xFFFE && c.toNat ≠ 0xFFFF)

/-- Writes every line end but the Unicode separators as a line feed. -/
def normalizeBreaks : List Char → List Char
  | [] => []
  | '\r' :: '\n' :: cs => '\n' :: normalizeBreaks cs
  | '\r' :: cs => '\n' :: normalizeBreaks cs
  | '\u0085' :: cs => '\n' :: normalizeBreaks cs
  | c :: cs => c :: normalizeBreaks cs

structure Cursor where
  rest : List Char
  /-- The number of bytes before this place. -/
  offset : Nat
  line : Nat
  column : Nat
deriving DecidableEq, Repr

namespace Cursor

def start (cs : List Char) : Cursor := ⟨cs, 0, 0, 0⟩

/-- The place after the next character. -/
def next (c : Cursor) : Cursor :=
  match c.rest with
  | [] => c
  | x :: rest =>
    let offset := c.offset + x.utf8Size
    if isBreak x then ⟨rest, offset, c.line + 1, 0⟩ else ⟨rest, offset, c.line, c.column + 1⟩

def skip : Nat → Cursor → Cursor
  | 0, c => c
  | n + 1, c => skip n c.next

/-- Takes the longest run of characters that satisfy `p`. -/
def takeWhile (c : Cursor) (p : Char → Bool) : List Char × Cursor :=
  let run := c.rest.takeWhile p
  (run, skip run.length c)

def skipWhile (c : Cursor) (p : Char → Bool) : Cursor :=
  (c.takeWhile p).2

/-- The character that is `n` places ahead. -/
def peek (c : Cursor) (n : Nat) : Option Char :=
  c.rest[n]?

/-- Skips white space and a comment, up to the end of the line or to something else. -/
def skipComment (c : Cursor) : Cursor :=
  let c := c.skipWhile isSpace
  if c.peek 0 == some '#' then c.skipWhile fun x => !isBreak x else c

/-- Is there white space or the end of the text `n` places ahead? -/
def gapAt (c : Cursor) (n : Nat) : Bool :=
  (c.peek n).all isGap

/-- Does a line start here with a mark between documents? -/
def atMark (c : Cursor) (mark : Char) : Bool :=
  c.column == 0 && c.rest.take 3 == [mark, mark, mark] && c.gapAt 3

def atDocumentMark (c : Cursor) : Bool :=
  c.atMark '-' || c.atMark '.'

end Cursor

end RegionNet.Yaml
