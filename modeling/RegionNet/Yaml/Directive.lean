import RegionNet.Yaml.Tag

/-!
Directives: the lines in front of a YAML document that tell which version it is written in and what
its tag handles stand for.
-/

namespace RegionNet.Yaml

/-- A line that tells something about the document after it. -/
inductive Directive
  | version (major minor : Nat)
  | handle (name : String) (tag : Tag)
deriving DecidableEq, Repr

namespace Directive

/-- A number of a version has one digit to nine. -/
def readNumber (c : Cursor) : Option (Nat × Cursor) := do
  let (digits, c) := c.takeWhile Char.isDigit
  if digits.length ≤ 9 then return (← Text.natural? 10 digits, c) else none

def readVersion (c : Cursor) : Option (Directive × Cursor) := do
  let (major, c) ← readNumber c
  if c.peek 0 == some '.' then
    let (minor, c) ← readNumber c.next
    return (version major minor, c)
  else none

/-- A handle is an exclamation mark, or a name between two of them, which may be empty. -/
def readHandle (c : Cursor) : Option (Directive × Cursor) := do
  let (name, after) := c.next.takeWhile isNameChar
  let (written, c) ←
    if c.peek 0 ≠ some '!' then none
    else if after.peek 0 == some '!' then
      some (String.ofList ('!' :: (name ++ ['!'])), after.next)
    else if name.isEmpty then some ("!", after)
    else none
  if (c.peek 0).any isSpace then
    let (tag, c) ← takeTag true (c.skipWhile isSpace)
    if c.gapAt 0 then return (handle written tag, c) else none
  else none

/-- Reads a directive with its line end. -/
def read (c : Cursor) : Option (Directive × Cursor) := do
  let (name, c) := c.next.takeWhile isNameChar
  if !c.gapAt 0 then none
  else
    let c := c.skipWhile isSpace
    let (directive, c) ←
      if name = "YAML".toList then readVersion c
      else if name = "TAG".toList then readHandle c
      else none
    let c := c.skipComment
    if (c.peek 0).all isBreak then return (directive, c.next) else none

end Directive

end RegionNet.Yaml
