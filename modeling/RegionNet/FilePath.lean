import RegionNet.Text.Pieces

/-!
Paths of files, with `/` between their parts.

A path is absolute if it starts with the separator. Empty parts and parts that are a single dot name
nothing, except for a dot at the start of a path that is not absolute.
-/

namespace RegionNet.FilePath

def separator : Char := '/'

/-- A part of a path that names something. -/
inductive Component
  | root
  | here
  | parent
  | name (text : List Char)
deriving DecidableEq, Repr

def isAbsolute (path : String) : Bool :=
  path.toList.head? == some separator

/-- The mark at the start of a path, and what follows it. -/
def splitStart : List Char → List Char × List Char
  | '/' :: rest => (['/'], rest)
  | ['.'] => (['.'], [])
  | '.' :: '/' :: rest => (['.'], '/' :: rest)
  | cs => ([], cs)

/-- The parts between separators; they may be empty. -/
def pieces (cs : List Char) : List (List Char) :=
  Text.splitAt (· == separator) cs

def namesNothing (piece : List Char) : Bool :=
  piece == [] || piece == ['.']

def Component.ofPiece (piece : List Char) : Component :=
  if piece = ['.', '.'] then .parent else .name piece

/-- What a path names, part by part. -/
def components (path : String) : List Component :=
  let (start, body) := splitStart path.toList
  let first := match start with
    | ['/'] => [Component.root]
    | ['.'] => [Component.here]
    | _ => []
  first ++ ((pieces body).filter fun piece => !namesNothing piece).map Component.ofPiece

/-- Drops the parts at the end that name nothing. -/
def dropTail (l : List (List Char)) : List (List Char) :=
  (l.reverse.dropWhile namesNothing).reverse

/-- The path without its last component. The root and the empty path have no parent. -/
def parent? (path : String) : Option String :=
  let (start, body) := splitStart path.toList
  match dropTail (pieces body) with
  | [] => if start = ['.'] then some "" else none
  | parts => some (String.ofList (start ++ Text.joinWith [separator] (dropTail parts.dropLast)))

/-- A path relative to `base`; an absolute path stays as it is. -/
def join (base path : String) : String :=
  if isAbsolute path then path
  else if base.toList.getLast?.any (· ≠ separator) then base ++ "/" ++ path
  else base ++ path

end RegionNet.FilePath
