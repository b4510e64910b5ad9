import RegionNet.Yaml.Token.Basic

/-!
What is known of a YAML text between two of its tokens.

Block structure comes from indentation: a deeper column opens a collection, and a lesser one closes
it. A key is only known by the colon after it, so the place of every node that may be a key is kept
for as long as the colon may still come, and the token that marks the key is put there later.
-/

namespace RegionNet.Yaml

/-- A place where a key may have started. -/
structure Candidate where
  /-- The number of the token that the key starts with. -/
  token : Nat
  /-- Nothing but a key may stand there. -/
  required : Bool
  offset : Nat
  line : Nat
  column : Nat
deriving DecidableEq, Repr

/-- What is known between two tokens. -/
structure TokenState where
  cursor : Cursor
  tokens : TokenRow
  /-- The columns of the open block collections, the innermost first. -/
  indents : List Nat
  /-- One place for each open bracket and one for the outside, the innermost first. -/
  candidates : List (Option Candidate)
  /-- May a key start here? -/
  keyAllowed : Bool

namespace TokenState

def start (c : Cursor) : TokenState :=
  ⟨c, .empty, [], [none], true⟩

/-- The column of the innermost block collection, or one before the first column. -/
def indent (s : TokenState) : Int :=
  match s.indents with
  | [] => -1
  | column :: _ => column

def inFlow (s : TokenState) : Bool :=
  s.candidates.length > 1

def emit (s : TokenState) (t : Token) : TokenState :=
  { s with tokens := s.tokens.push t }

/-- Closes the block collections that lie deeper than a column. -/
def closeTo (s : TokenState) (column : Int) : TokenState :=
  if s.inFlow then s
  else
    let closed := s.indents.takeWhile fun (i : Nat) => decide (column < i)
    { s with
      tokens := closed.foldl (fun row _ => row.push .blockEnd) s.tokens
      indents := s.indents.drop closed.length }

/-- Opens a block collection at a column, unless one is open there, before the given token. -/
def openAt (s : TokenState) (column : Nat) (before : Nat) (opening : Token) : TokenState :=
  if s.inFlow then s
  else if s.indent < column then
    { s with
      tokens := s.tokens.insertAt before opening
      indents := column :: s.indents }
  else s

/-- Gives up the innermost candidate. -/
def dropCandidate (s : TokenState) : Option TokenState :=
  match s.candidates with
  | some k :: outer => if k.required then none else some { s with candidates := none :: outer }
  | _ => some s

/-- Makes this place a candidate if a key may start here. -/
def saveCandidate (s : TokenState) : Option TokenState := do
  if s.keyAllowed then
    let s ← s.dropCandidate
    let here := Candidate.mk s.tokens.size (!s.inFlow && s.indent == s.cursor.column)
      s.cursor.offset s.cursor.line s.cursor.column
    return { s with candidates := some here :: s.candidates.tail }
  else return s

/-- A key ends on the line where it starts and has at most this many bytes. -/
def longestKey : Nat := 1024

/-- Gives up the candidates to which no colon can come any more. -/
def dropStale (s : TokenState) : Option TokenState := do
  let candidates ← s.candidates.mapM fun candidate =>
    match candidate with
    | none => some none
    | some k =>
      if k.line < s.cursor.line || k.offset + longestKey < s.cursor.offset then
        if k.required then none else some none
      else some (some k)
  return { s with candidates := candidates }

end TokenState

end RegionNet.Yaml
