import RegionNet.Text.Numeral
import RegionNet.Yaml.Cursor

/-!
Tags of a YAML text.

A tag is written in full between angle brackets, or as a suffix to what a handle stands for. It is
kept as its bytes, since an escape may write any of them. A byte of value zero ends it.
-/

namespace RegionNet.Yaml

structure Tag where
  bytes : List UInt8
deriving DecidableEq, Repr

namespace Tag

/-- The bytes before the first zero. -/
def ofBytes (bytes : List UInt8) : Tag :=
  ⟨bytes.takeWhile (· ≠ 0)⟩

def ofText (text : String) : Tag :=
  ⟨text.toUTF8.toList⟩

/-- The text of a tag whose bytes are UTF-8. -/
def text? (t : Tag) : Option String :=
  String.fromUTF8? ⟨t.bytes.toArray⟩

def append (t u : Tag) : Tag :=
  ⟨t.bytes ++ u.bytes⟩

/-- The bare exclamation mark. -/
def bare : Tag := ofText "!"

/-- Tags of the standard types start with this. -/
def core : Tag := ofText "tag:yaml.org,2002:"

end Tag

/-- A tag before its handle is looked up. A tag that is written in full has none. -/
structure WrittenTag where
  handle : Option String
  suffix : Tag
deriving DecidableEq, Repr

/-- Characters of tags. Those that divide the items of a collection need a bracket around the tag or
a line of its own. -/
def isTagChar (isEnclosed : Bool) (c : Char) : Bool :=
  isNameChar c
    || c ∈ [';', '/', '?', ':', '@', '&', '=', '+', '$', '.', '%', '!', '~', '*', '\'', '(', ')']
    || (isEnclosed && c ∈ [',', '[', ']'])

/-- How many bytes follow the first byte of a character in UTF-8. -/
def followers? (first : Nat) : Option Nat :=
  if first < 0x80 then some 0
  else if 0xC0 ≤ first && first < 0xE0 then some 1
  else if 0xE0 ≤ first && first < 0xF0 then some 2
  else if 0xF0 ≤ first && first < 0xF8 then some 3
  else none

/-- The bytes that tag characters write, where so many have to follow for the character that the
last escape belongs to. -/
def tagBytes? : Nat → List Char → Option (List UInt8)
  | 0, [] => some []
  | 0, '%' :: a :: b :: rest => do
    let byte ← Text.natural? 16 [a, b]
    return UInt8.ofNat byte :: (← tagBytes? (← followers? byte) rest)
  | 0, c :: rest =>
    if c == '%' then none else (tagBytes? 0 rest).map (UInt8.ofNat c.toNat :: ·)
  | more + 1, '%' :: a :: b :: rest => do
    let byte ← Text.natural? 16 [a, b]
    if 0x80 ≤ byte && byte < 0xC0 then return UInt8.ofNat byte :: (← tagBytes? more rest)
    else none
  | _ + 1, _ => none

/-- Takes a run of one tag character or more. -/
def takeTag (isEnclosed : Bool) (c : Cursor) : Option (Tag × Cursor) := do
  let (run, c) := c.takeWhile (isTagChar isEnclosed)
  if run.isEmpty then none else return (Tag.ofBytes (← tagBytes? 0 run), c)

/-- Reads a tag from its exclamation mark. A second one makes a handle of what is between them. -/
def readTag (c : Cursor) : Option (WrittenTag × Cursor) := do
  if c.peek 1 == some '<' then
    let (tag, c) ← takeTag true (Cursor.skip 2 c)
    if c.peek 0 == some '>' then return (⟨none, tag⟩, c.next) else none
  else
    let (name, after) := c.next.takeWhile isNameChar
    if after.peek 0 == some '!' then
      let (suffix, c) ← takeTag false after.next
      return (⟨some (String.ofList ('!' :: (name ++ ['!']))), suffix⟩, c)
    else
      let (run, c) := c.next.takeWhile (isTagChar false)
      let suffix := Tag.ofBytes (← tagBytes? 0 run)
      return (if suffix.bytes.isEmpty then ⟨none, .bare⟩ else ⟨some "!", suffix⟩, c)

/-- What handles stand for. -/
abbrev Handles := List (String × Tag)

/-- What the handles stand for that every document knows. -/
def standardHandles : Handles :=
  [("!", .bare), ("!!", .core)]

/-- The tag itself, if its handle is known. -/
def WrittenTag.resolve? (t : WrittenTag) (handles : Handles) : Option Tag :=
  match t.handle with
  | none => some t.suffix
  | some handle => (handles.lookup handle).map fun tag => tag.append t.suffix

end RegionNet.Yaml
