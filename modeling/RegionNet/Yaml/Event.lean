import RegionNet.Yaml.Token

/-!
The events of a YAML document: its nodes, as they start and end in the text.

An anchor is numbered by how many different names were anchored before it, so that a name which is
anchored anew changes its number, and two anchors may share one. An alias has the number that its
name has where it stands.

The events of a text that goes wrong are those before the fault.
-/

namespace RegionNet.Yaml

structure Properties where
  anchor : Option Nat
  tag : Option Tag
deriving DecidableEq, Repr

def Properties.none : Properties := ⟨.none, .none⟩

inductive Event
  | alias (anchor : Nat)
  | scalar (properties : Properties) (style : Style) (text : String)
  | sequenceStart (properties : Properties)
  | mappingStart (properties : Properties)
  /-- The innermost open collection ends. -/
  | collectionEnd
deriving DecidableEq, Repr

/-- What is known between two events. -/
structure EventState where
  tokens : List Token
  /-- Do the tokens go to the end of the text? -/
  isWhole : Bool
  handles : Handles
  /-- The numbers of the anchored names. -/
  anchors : List (String × Nat)
  /-- The events so far, the latest first. -/
  events : List Event

/-- Reading that may fail. The events before a failure stay. -/
abbrev EventReader := OptionT (StateM EventState)

namespace EventReader

/-- The tokens that are left. There are none to look at where the text goes wrong. -/
def peek : EventReader (List Token) := do
  let s ← get
  if s.tokens.isEmpty && !s.isWhole then failure else return s.tokens

def skip (count : Nat) : EventReader Unit :=
  modify fun s => { s with tokens := s.tokens.drop count }

def emit (e : Event) : EventReader Unit :=
  modify fun s => { s with events := e :: s.events }

def orFail {α : Type} : Option α → EventReader α
  | some a => return a
  | none => failure

/-- A node that was not written. -/
def emitMissing (p : Properties) : EventReader Unit :=
  emit (.scalar p .plain "")

/-- Anchors a name. -/
def anchor (name : String) : EventReader Nat := do
  let s ← get
  let number := s.anchors.length
  set { s with anchors := (name, number) :: s.anchors.filter fun a => a.1 != name }
  return number

def resolve (tag : WrittenTag) : EventReader Tag := do
  orFail (tag.resolve? (← get).handles)

/-- Reads an anchor and a tag, in either order. -/
def readProperties : EventReader Properties := do
  match ← peek with
  | .anchor a :: .tag t :: _ => skip 2; return ⟨← anchor a, ← resolve t⟩
  | .tag t :: .anchor a :: _ => skip 2; return ⟨← anchor a, ← resolve t⟩
  | .anchor a :: _ => skip 1; return ⟨← anchor a, none⟩
  | .tag t :: _ => skip 1; return ⟨none, ← resolve t⟩
  | _ => return .none

/-- A node of which only properties were written. -/
def emitBare (p : Properties) : EventReader Unit :=
  if p = .none then failure else emitMissing p

end EventReader

/-- Does the next token end an entry of a block? -/
def endsEntry : List Token → Bool
  | .key :: _ => true
  | .value :: _ => true
  | .blockEnd :: _ => true
  | _ => false

/-- Does the next token end an item of an indented sequence? -/
def endsItem : List Token → Bool
  | .entry :: _ => true
  | .blockEnd :: _ => true
  | _ => false

/-- Does the next token end an item of a sequence that is not indented? -/
def endsUnindented (tokens : List Token) : Bool :=
  endsItem tokens || endsEntry tokens

/-- Does the next token end a value before the `closing` bracket? -/
def endsFlowValue (closing : Token) : List Token → Bool
  | t :: _ => t == .flowEntry || t == closing
  | [] => false

/-- Does the next token end a key before the `closing` bracket? -/
def endsFlowKey (closing : Token) (tokens : List Token) : Bool :=
  tokens.head? == some .value || endsFlowValue closing tokens

open EventReader

mutual

/-- Reads a node. Block collections are read where `inBlock` is set; a sequence need not be indented
where `unindented` is. -/
def readNode : Nat → Bool → Bool → EventReader Unit
  | 0, _, _ => failure
  | fuel + 1, inBlock, unindented => do
    match ← peek with
    | .alias name :: _ => skip 1; emit (.alias (← orFail ((← get).anchors.lookup name)))
    | _ =>
      let p ← readProperties
      match ← peek with
      | .scalar style text :: _ => skip 1; emit (.scalar p style text)
      | .entry :: _ =>
        if unindented then emit (.sequenceStart p); readUnindented fuel else emitBare p
      | .sequenceStart :: _ =>
        if inBlock then skip 1; emit (.sequenceStart p); readItems fuel else emitBare p
      | .mappingStart :: _ =>
        if inBlock then skip 1; emit (.mappingStart p); readEntries fuel else emitBare p
      | .flowSequenceStart :: _ => skip 1; emit (.sequenceStart p); readFlowItems fuel true
      | .flowMappingStart :: _ => skip 1; emit (.mappingStart p); readFlowEntries fuel true
      | _ => emitBare p

/-- Reads a node, or takes it as missing if it ends before it starts. -/
def readOptional : Nat → Bool → Bool → (List Token → Bool) → EventReader Unit
  | 0, _, _, _ => failure
  | fuel + 1, inBlock, unindented, ends => do
    if ends (← peek) then emitMissing .none else readNode fuel inBlock unindented

/-- The items of an indented sequence. -/
def readItems : Nat → EventReader Unit
  | 0 => failure
  | fuel + 1 => do
    match ← peek with
    | .entry :: _ => skip 1; readOptional fuel true false endsItem; readItems fuel
    | .blockEnd :: _ => skip 1; emit .collectionEnd
    | _ => failure

/-- The items of a sequence that is not indented more than the key it belongs to. -/
def readUnindented : Nat → EventReader Unit
  | 0 => failure
  | fuel + 1 => do
    match ← peek with
    | .entry :: _ => skip 1; readOptional fuel true false endsUnindented; readUnindented fuel
    | _ => emit .collectionEnd

/-- The entries of a block mapping. -/
def readEntries : Nat → EventReader Unit
  | 0 => failure
  | fuel + 1 => do
    match ← peek with
    | .key :: _ =>
      skip 1
      readOptional fuel true true endsEntry
      match ← peek with
      | .value :: _ => skip 1; readOptional fuel true true endsEntry
      | _ => emitMissing .none
      readEntries fuel
    | .blockEnd :: _ => skip 1; emit .collectionEnd
    | _ => failure

/-- The items between brackets. -/
def readFlowItems : Nat → Bool → EventReader Unit
  | 0, _ => failure
  | fuel + 1, first => do
    match first, ← peek with
    | _, .flowSequenceEnd :: _ => skip 1; emit .collectionEnd
    | false, .flowEntry :: .flowSequenceEnd :: _ => skip 2; emit .collectionEnd
    | false, .flowEntry :: _ => skip 1; readFlowItem fuel
    | true, _ => readFlowItem fuel
    | false, _ => failure

/-- Reads an item between brackets and those after it. A marked key makes a mapping of its own. A
token that ends this key before it starts is passed over. -/
def readFlowItem : Nat → EventReader Unit
  | 0 => failure
  | fuel + 1 => do
    match ← peek with
    | .key :: rest =>
      emit (.mappingStart .none)
      if endsFlowKey .flowSequenceEnd rest then skip 2; emitMissing .none
      else skip 1; readNode fuel false false
      readFlowValue fuel .flowSequenceEnd
      emit .collectionEnd
    | _ => readNode fuel false false
    readFlowItems fuel false

/-- Reads the value after a marked key between brackets, if there is one. -/
def readFlowValue : Nat → Token → EventReader Unit
  | 0, _ => failure
  | fuel + 1, closing => do
    match ← peek with
    | .value :: _ => skip 1; readOptional fuel false false (endsFlowValue closing)
    | _ => emitMissing .none

/-- The entries between braces. -/
def readFlowEntries : Nat → Bool → EventReader Unit
  | 0, _ => failure
  | fuel + 1, first => do
    match first, ← peek with
    | _, .flowMappingEnd :: _ => skip 1; emit .collectionEnd
    | false, .flowEntry :: .flowMappingEnd :: _ => skip 2; emit .collectionEnd
    | false, .flowEntry :: _ => skip 1; readFlowEntry fuel
    | true, _ => readFlowEntry fuel
    | false, _ => failure

/-- Reads an entry between braces and those after it. A key that is not marked has no value. -/
def readFlowEntry : Nat → EventReader Unit
  | 0 => failure
  | fuel + 1 => do
    match ← peek with
    | .key :: _ =>
      skip 1
      readOptional fuel false false (endsFlowKey .flowMappingEnd)
      readFlowValue fuel .flowMappingEnd
    | _ => readNode fuel false false; emitMissing .none
    readFlowEntries fuel false

end

/-- What the directives at the front of the tokens add to `handles`, and the tokens after them.
Neither a version nor a handle may be given twice. -/
def readDirectives (isVersioned : Bool) (handles : Handles) :
    List Token → Option (Handles × List Token)
  | .directive (.version major minor) :: rest =>
    if isVersioned || major ≠ 1 || (minor ≠ 1 && minor ≠ 2) then none
    else readDirectives true handles rest
  | .directive (.handle name tag) :: rest =>
    if (handles.lookup name).isSome then none
    else readDirectives isVersioned ((name, tag) :: handles) rest
  | tokens => some (handles, tokens)

def endsDocument : List Token → Bool
  | [] => true
  | .directive _ :: _ => true
  | .documentStart :: _ => true
  | .documentEnd :: _ => true
  | _ => false

/-- Reads the root after a mark that starts a document. -/
def readMarked (fuel : Nat) : EventReader Unit := do
  let (handles, body) ← orFail (readDirectives false [] (← peek))
  match body with
  | .documentStart :: rest =>
    modify fun s => { s with tokens := rest, handles := handles ++ standardHandles }
    if endsDocument (← peek) then emitMissing .none else readNode fuel true false
  | _ => failure

/-- Reads the one document of a text. It starts with a mark, in front of which directives may stand,
or without. -/
def readDocument (fuel : Nat) : EventReader Unit := do
  match ← peek with
  | .directive _ :: _ => readMarked fuel
  | .documentStart :: _ => readMarked fuel
  | _ => readNode fuel true false
  let rest := (← peek).dropWhile (· == .documentEnd)
  if rest.isEmpty then return () else failure

/-- The events of a text as far as it goes. -/
structure Events where
  events : List Event
  /-- Is the whole text one document? -/
  isWhole : Bool

def Events.ofTokens (t : Tokens) : Events :=
  let (result, s) := (readDocument (4 * t.tokens.length + 4)).run.run
    ⟨t.tokens, t.isWhole, standardHandles, [], []⟩
  ⟨s.events.reverse, t.isWhole && result.isSome⟩

end RegionNet.Yaml
