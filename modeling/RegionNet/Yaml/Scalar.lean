import RegionNet.Text.Numeral
import RegionNet.Yaml.Cursor

/-!
Scalars of a YAML text: plain ones, quoted ones, and blocks of lines.

In a plain or quoted scalar a line end folds into a space, and of several line ends in a row all but
the first are kept. In a block of lines the first line fixes the indentation.
-/

namespace RegionNet.Yaml

/-- How a scalar was written. -/
inductive Style
  | plain
  | quoted
  | literal
  | folded
deriving DecidableEq, Repr

/-- The text of a gap between two parts of a scalar. -/
def fold (gap : List Char) : List Char :=
  match gap.filter isBreak with
  | [] => gap
  | ['\n'] => [' ']
  | '\n' :: more => more
  | breaks => breaks

/-- Characters that end a plain scalar within brackets. -/
def isFlowMark (c : Char) : Bool :=
  c == ',' || c == '[' || c == ']' || c == '{' || c == '}'

/-- Characters that may not follow a colon in a plain scalar within brackets. -/
def refusesColon (c : Char) : Bool :=
  isFlowMark c || c == '?'

/-- The part of a plain scalar up to white space or to what ends the scalar; `none` if a colon
within brackets has no place there. -/
def plainRun (inFlow : Bool) : List Char → Option (List Char)
  | [] => some []
  | ':' :: rest =>
    if rest.head?.all isGap then some []
    else if inFlow && rest.head?.any refusesColon then none
    else (plainRun inFlow rest).map (':' :: ·)
  | c :: rest =>
    if isGap c || (inFlow && isFlowMark c) then some []
    else (plainRun inFlow rest).map (c :: ·)

/-- Does a line of the gap start with a tab short of the indentation? -/
def tabViolates (indent : Nat) (gap : List Char) : Bool :=
  match gap.dropWhile fun c => !isBreak c with
  | [] => false
  | _ :: rest =>
    ((rest.foldl
      (fun (acc : Nat × Bool) c =>
        if isBreak c then (0, acc.2)
        else (acc.1 + 1, acc.2 || (c == '\t' && acc.1 < indent))) (0, false))).2

/-- The end of a plain scalar: its text, the place after the gap that follows it, and whether that
gap has a line end. -/
structure PlainEnd where
  text : List Char
  cursor : Cursor
  brokenLine : Bool

/-- Reads on in a plain scalar after `text` and `gap`. -/
def readPlainFrom (inFlow : Bool) (indent : Nat) :
    Nat → List Char → List Char → Cursor → Option PlainEnd
  | 0, text, gap, c => some ⟨text, c, gap.any isBreak⟩
  | fuel + 1, text, gap, c => do
    if c.atDocumentMark || c.peek 0 == some '#' then return ⟨text, c, gap.any isBreak⟩
    let run ← plainRun inFlow c.rest
    if run.isEmpty then return ⟨text, c, gap.any isBreak⟩
    let after := Cursor.skip run.length c
    let (nextGap, c) := after.takeWhile isGap
    let text := text ++ fold gap ++ run
    if nextGap.isEmpty then return ⟨text, c, false⟩
    else if tabViolates indent nextGap then none
    else if !inFlow && nextGap.any isBreak && c.column < indent then return ⟨text, c, true⟩
    else readPlainFrom inFlow indent fuel text nextGap c

/-- Reads a plain scalar, whose further lines are indented by `indent`. -/
def readPlain (inFlow : Bool) (indent : Nat) (c : Cursor) : Option PlainEnd :=
  readPlainFrom inFlow indent (c.rest.length + 1) [] [] c

/-- The character with the code that so many hexadecimal digits write. -/
def hexChar? (count : Nat) (cs : List Char) : Option Char := do
  let digits := cs.take count
  let code ← Text.natural? 16 digits
  if digits.length = count then
    if h : code.isValidChar then return Char.ofNatAux code h else none
  else none

/-- What an escape stands for, and how many characters it has after the backslash. -/
def escape? : List Char → Option (Char × Nat)
  | '0' :: _ => some ('\x00', 1)
  | 'a' :: _ => some ('\x07', 1)
  | 'b' :: _ => some ('\x08', 1)
  | 't' :: _ => some ('\t', 1)
  | '\t' :: _ => some ('\t', 1)
  | 'n' :: _ => some ('\n', 1)
  | 'v' :: _ => some ('\x0b', 1)
  | 'f' :: _ => some ('\x0c', 1)
  | 'r' :: _ => some ('\r', 1)
  | 'e' :: _ => some ('\x1b', 1)
  | ' ' :: _ => some (' ', 1)
  | '"' :: _ => some ('"', 1)
  | '/' :: _ => some ('/', 1)
  | '\\' :: _ => some ('\\', 1)
  | 'N' :: _ => some ('\u0085', 1)
  | '_' :: _ => some ('\u00a0', 1)
  | 'L' :: _ => some ('\u2028', 1)
  | 'P' :: _ => some ('\u2029', 1)
  | 'x' :: cs => (hexChar? 2 cs).map fun c => (c, 3)
  | 'u' :: cs => (hexChar? 4 cs).map fun c => (c, 5)
  | 'U' :: cs => (hexChar? 8 cs).map fun c => (c, 9)
  | _ => none

/-- Reads on in a quoted scalar after `text`, up to its closing quote. -/
def readQuotedFrom (quote : Char) : Nat → List Char → Cursor → Option (List Char × Cursor)
  | 0, _, _ => none
  | fuel + 1, text, c =>
    match c.rest with
    | [] => none
    | x :: rest =>
      if c.atDocumentMark then none
      else if x = quote then
        if quote = '\'' && rest.head? = some '\'' then
          readQuotedFrom quote fuel (text ++ ['\'']) (Cursor.skip 2 c)
        else some (text, c.next)
      else if isGap x then
        let (gap, after) := c.takeWhile isGap
        readQuotedFrom quote fuel (text ++ fold gap) after
      else if quote = '"' && x = '\\' then
        if rest.head?.any isBreak then
          let (gap, after) := (Cursor.skip 2 c).takeWhile isGap
          readQuotedFrom quote fuel (text ++ gap.filter isBreak) after
        else
          match escape? rest with
          | none => none
          | some (e, length) =>
            readQuotedFrom quote fuel (text ++ [e]) (Cursor.skip (length + 1) c)
      else readQuotedFrom quote fuel (text ++ [x]) c.next

/-- Reads a quoted scalar from its opening quote. -/
def readQuoted (quote : Char) (c : Cursor) : Option (List Char × Cursor) :=
  readQuotedFrom quote (c.rest.length + 1) [] c.next

/-- What becomes of the line ends at the end of a block. -/
inductive Chomping
  | strip
  | clip
  | keep
deriving DecidableEq, Repr

structure BlockHeader where
  chomping : Chomping
  /-- An indentation beyond that of the block's parent. -/
  increment : Option Nat

/-- Reads the marks after the one that opens a block. -/
def readHeader (c : Cursor) : Option (BlockHeader × Cursor) :=
  let chomping? (x : Option Char) : Option Chomping :=
    match x with
    | some '+' => some .keep
    | some '-' => some .strip
    | _ => none
  let increment? (x : Option Char) : Option Nat :=
    x.bind fun d => if d.isDigit then some (d.toNat - '0'.toNat) else none
  let valid (chomping : Chomping) (n : Nat) (c : Cursor) : Option (BlockHeader × Cursor) :=
    if n = 0 then none else some (⟨chomping, some n⟩, c)
  match chomping? (c.peek 0), increment? (c.peek 0) with
  | some chomping, _ =>
    match increment? (c.peek 1) with
    | some n => valid chomping n (Cursor.skip 2 c)
    | none => some (⟨chomping, none⟩, c.next)
  | none, some n =>
    match chomping? (c.peek 1) with
    | some chomping => valid chomping n (Cursor.skip 2 c)
    | none => valid .clip n c.next
  | none, none => some (⟨.clip, none⟩, c)

/-- The blank lines before a line of a block. -/
structure BlockGap where
  breaks : List Char
  /-- The widest indentation of any of these lines. -/
  widest : Nat
  cursor : Cursor

/-- Skips blank lines, up to `indent` columns of each if the indentation is known. A tab may not
stand for indentation. -/
def readBlockGap (indent : Option Nat) : Nat → List Char → Nat → Cursor → Option BlockGap
  | 0, breaks, widest, c => some ⟨breaks, widest, c⟩
  | fuel + 1, breaks, widest, c =>
    let spaces := (c.rest.takeWhile (· == ' ')).length
    let c := Cursor.skip (indent.elim spaces (min spaces)) c
    let widest := max widest c.column
    if indent.all (c.column < ·) && c.peek 0 == some '\t' then none
    else
      match c.rest with
      | x :: _ =>
        if isBreak x then readBlockGap indent fuel (breaks ++ [x]) widest c.next
        else some ⟨breaks, widest, c⟩
      | [] => some ⟨breaks, widest, c⟩

/-- What was read of a block: its text, the end of its last line and the blank lines after it. -/
structure BlockText where
  text : List Char
  lineEnd : List Char
  breaks : List Char
  cursor : Cursor

/-- Reads the lines of a block. `spaced` says whether the line before started with white space,
whose line end does not fold then. -/
def readBlockLines (isFolded : Bool) (indent : Nat) : Nat → Bool → BlockText → Option BlockText
  | 0, _, b => some b
  | fuel + 1, spaced, b =>
    let c := b.cursor
    if c.column ≠ indent || c.rest.isEmpty then some b
    else do
      let startsSpaced := (c.peek 0).any isSpace
      let joint :=
        if isFolded && b.lineEnd == ['\n'] && !spaced && !startsSpaced then
          if b.breaks.isEmpty then [' '] else []
        else b.lineEnd
      let (line, c) := c.takeWhile fun x => !isBreak x
      let gap ← readBlockGap (some indent) (c.rest.length + 1) [] 0 c.next
      readBlockLines isFolded indent fuel startsSpaced
        ⟨b.text ++ joint ++ b.breaks ++ line, c.rest.take 1, gap.breaks, gap.cursor⟩

/-- Reads a block after its opening mark; `parent` is the indentation around it. -/
def readBlock (isFolded : Bool) (parent : Int) (c : Cursor) : Option (List Char × Cursor) := do
  let (header, c) ← readHeader c
  let c := c.skipComment
  if !(c.peek 0).all isBreak then none
  else
    let outer := parent.toNat
    let fixed := header.increment.map (outer + ·)
    let gap ← readBlockGap fixed (c.rest.length + 1) [] 0 c.next
    let indent := fixed.getD (max gap.widest (max (parent + 1).toNat 1))
    let b ← readBlockLines isFolded indent (c.rest.length + 1) false
      ⟨[], [], gap.breaks, gap.cursor⟩
    let tail := match header.chomping with
      | .strip => []
      | .clip => b.lineEnd
      | .keep => b.lineEnd ++ b.breaks
    return (b.text ++ tail, b.cursor)

end RegionNet.Yaml
