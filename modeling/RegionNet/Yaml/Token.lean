import RegionNet.Yaml.Token.State

/-!
Reading the tokens of a YAML text.

A text that goes wrong has the tokens before the fault, up to the first that might have become a
key.
-/

namespace RegionNet.Yaml

namespace TokenState

/-- A mark of the byte order says nothing where a line starts, but takes a column. -/
def byteOrderMark : Char := '\uFEFF'

/-- Skips white space, comments and line ends up to the next token. -/
def skipGap : Nat → TokenState → TokenState
  | 0, s => s
  | fuel + 1, s =>
    let c := s.cursor
    let c := if c.column == 0 && c.peek 0 == some byteOrderMark then c.next else c
    let c := c.skipWhile fun x => x == ' ' || (x == '\t' && (s.inFlow || !s.keyAllowed))
    let c := if c.peek 0 == some '#' then c.skipWhile fun x => !isBreak x else c
    if (c.peek 0).any isBreak then
      skipGap fuel { s with cursor := c.next, keyAllowed := s.keyAllowed || !s.inFlow }
    else { s with cursor := c }

/-- A token of so many characters after which a key may or may not start. -/
def mark (s : TokenState) (t : Token) (length : Nat) (keyAllowed : Bool) : TokenState :=
  { s.emit t with cursor := Cursor.skip length s.cursor, keyAllowed := keyAllowed }

/-- A token that a document starts or ends with closes everything. -/
def documentMark (s : TokenState) (t : Token) (length : Nat) : Option TokenState := do
  let s ← (s.closeTo (-1)).dropCandidate
  return s.mark t length false

/-- A line that tells something about the next document. -/
def directive (s : TokenState) : Option TokenState := do
  let s ← (s.closeTo (-1)).dropCandidate
  let (d, c) ← Directive.read s.cursor
  return { s.emit (.directive d) with cursor := c, keyAllowed := false }

def openFlow (s : TokenState) (t : Token) : Option TokenState := do
  let s ← s.saveCandidate
  return { s.mark t 1 true with candidates := none :: s.candidates }

def closeFlow (s : TokenState) (t : Token) : Option TokenState := do
  let s ← s.dropCandidate
  let closed := match s.candidates with
    | _ :: outer :: more => outer :: more
    | candidates => candidates
  return { s.mark t 1 false with candidates := closed }

def flowEntry (s : TokenState) : Option TokenState := do
  return (← s.dropCandidate).mark .flowEntry 1 true

def blockEntry (s : TokenState) : Option TokenState := do
  if !s.inFlow && !s.keyAllowed then none
  else
    let s := s.openAt s.cursor.column s.tokens.size .sequenceStart
    return (← s.dropCandidate).mark .entry 1 true

def keyMark (s : TokenState) : Option TokenState := do
  if !s.inFlow && !s.keyAllowed then none
  else
    let s := s.openAt s.cursor.column s.tokens.size .mappingStart
    return (← s.dropCandidate).mark .key 1 (!s.inFlow)

/-- A colon makes a key of the candidate, if there is one. -/
def valueMark (s : TokenState) : Option TokenState :=
  match s.candidates with
  | some k :: outer =>
    let keyed := { s with
      tokens := s.tokens.insertAt k.token .key
      candidates := none :: outer }
    some ((keyed.openAt k.column k.token .mappingStart).mark .value 1 false)
  | _ =>
    if !s.inFlow && !s.keyAllowed then none
    else
      let opened := s.openAt s.cursor.column s.tokens.size .mappingStart
      some (opened.mark .value 1 (!s.inFlow))

/-- The name of an anchor or an alias ends at white space or at a mark. -/
def name (s : TokenState) (token : String → Token) : Option TokenState := do
  let s ← s.saveCandidate
  let (name, c) := s.cursor.next.takeWhile isNameChar
  let ended := c.gapAt 0 ||
    (c.peek 0).any fun x => x ∈ ['?', ':', ',', ']', '}', '%', '@', '\x60']
  if name.isEmpty || !ended then none
  else return { s.emit (token (String.ofList name)) with cursor := c, keyAllowed := false }

/-- A tag ends at white space, or at a comma between brackets. -/
def tag (s : TokenState) : Option TokenState := do
  let s ← s.saveCandidate
  let (t, c) ← readTag s.cursor
  if c.gapAt 0 || (s.inFlow && c.peek 0 == some ',') then
    return { s.emit (.tag t) with cursor := c, keyAllowed := false }
  else none

def block (s : TokenState) (isFolded : Bool) : Option TokenState := do
  let s ← s.dropCandidate
  let (text, c) ← readBlock isFolded s.indent s.cursor.next
  return { s.emit (.scalar (if isFolded then .folded else .literal) (String.ofList text)) with
    cursor := c
    keyAllowed := true }

def quoted (s : TokenState) (quote : Char) : Option TokenState := do
  let s ← s.saveCandidate
  let (text, c) ← readQuoted quote s.cursor
  return { s.emit (.scalar .quoted (String.ofList text)) with cursor := c, keyAllowed := false }

def plain (s : TokenState) : Option TokenState := do
  let s ← s.saveCandidate
  let p ← readPlain s.inFlow (s.indent + 1).toNat s.cursor
  return { s.emit (.scalar .plain (String.ofList p.text)) with
    cursor := p.cursor
    keyAllowed := p.brokenLine }

/-- Marks that no plain scalar starts with. -/
def isMark (c : Char) : Bool :=
  c ∈ ['-', '?', ':', ',', '[', ']', '{', '}', '#', '&', '*', '!', '|', '>', '\'', '"', '%', '@',
    '\x60']

/-- Reads the token that starts here. -/
def token (s : TokenState) (x : Char) : Option TokenState :=
  let c := s.cursor
  if c.column == 0 && x == '%' then s.directive
  else if c.atMark '-' then s.documentMark .documentStart 3
  else if c.atMark '.' then s.documentMark .documentEnd 3
  else if x == '[' then s.openFlow .flowSequenceStart
  else if x == '{' then s.openFlow .flowMappingStart
  else if x == ']' then s.closeFlow .flowSequenceEnd
  else if x == '}' then s.closeFlow .flowMappingEnd
  else if x == ',' then s.flowEntry
  else if x == '-' && c.gapAt 1 then s.blockEntry
  else if x == '?' && (s.inFlow || c.gapAt 1) then s.keyMark
  else if x == ':' && (s.inFlow || c.gapAt 1) then s.valueMark
  else if x == '*' then s.name .alias
  else if x == '&' then s.name .anchor
  else if x == '!' then s.tag
  else if x == '|' && !s.inFlow then s.block false
  else if x == '>' && !s.inFlow then s.block true
  else if x == '\'' || x == '"' then s.quoted x
  else if !(isMark x || isGap x) || (x == '-' && !(c.peek 1).any isSpace)
      || (!s.inFlow && (x == '?' || x == ':') && !c.gapAt 1) then s.plain
  else none

/-- Reads on to the next token, or to the end of the text, where everything is closed. -/
def advance (s : TokenState) : Option TokenState := do
  let s ← (s.skipGap (s.cursor.rest.length + 1)).dropStale
  let s := s.closeTo s.cursor.column
  let s ← match s.cursor.rest with
    | [] => (s.closeTo (-1)).dropCandidate
    | x :: _ => s.token x
  s.dropStale

/-- The tokens before any that may still become a key. -/
def settled (s : TokenState) : List Token :=
  match s.candidates.reverse.findSome? id with
  | some k => s.tokens.firsts k.token
  | none => s.tokens.toList

end TokenState

/-- The tokens of a text as far as it goes. -/
structure Tokens where
  tokens : List Token
  /-- Was the whole text read? -/
  isWhole : Bool

namespace Tokens

def readAll : Nat → TokenState → Tokens
  | 0, s => ⟨s.settled, false⟩
  | fuel + 1, s =>
    match s.advance with
    | none => ⟨s.settled, false⟩
    | some next => if s.cursor.rest.isEmpty then ⟨next.tokens.toList, true⟩ else readAll fuel next

/-- Reads a text. One with a character that may not stand in it has no tokens. -/
def ofChars (cs : List Char) : Tokens :=
  if cs.all isPrintable then
    let normal := normalizeBreaks cs
    readAll (normal.length + 2) (TokenState.start (Cursor.start normal))
  else ⟨[], false⟩

end Tokens

end RegionNet.Yaml
