import RegionNet.FilePath
import RegionNet.Files

/-!
A tree of files that is held in memory. A path that is not absolute starts at the working directory.
-/

namespace RegionNet

inductive FileEntry
  | directory
  | file (bytes : ByteArray)

/-- Every entry with the names on the way to it. The root needs no entry. -/
structure FileTree where
  workingDirectory : List (List Char)
  entries : List (List (List Char) × FileEntry)

namespace FileTree

def entry? (t : FileTree) (place : List (List Char)) : Option FileEntry :=
  if place.isEmpty then some .directory else t.entries.lookup place

/-- The place after one more part of a path. Only a directory has places after it. -/
def step (t : FileTree) (place : List (List Char)) (part : FilePath.Component) :
    Option (List (List Char)) :=
  match t.entry? place with
  | some .directory =>
    match part with
    | .root => some []
    | .here => some place
    | .parent => some place.dropLast
    | .name text => some (place ++ [text])
  | _ => none

/-- Where a path leads to, whether or not there is something. -/
def place? (t : FileTree) (path : String) : Option (List (List Char)) :=
  if path.isEmpty then none
  else
    let start := if FilePath.isAbsolute path then [] else t.workingDirectory
    (FilePath.components path).foldlM t.step start

/-- Only a directory is found at a path that ends with a separator. -/
def endsInDirectory (path : String) : Bool :=
  match (FilePath.pieces path.toList).getLast? with
  | some piece => FilePath.namesNothing piece
  | none => false

def read (t : FileTree) (path : String) : FileContent :=
  match (t.place? path).bind t.entry? with
  | none => .missing
  | some .directory => .directory
  | some (.file bytes) => if endsInDirectory path then .missing else .file bytes

/-- Puts an entry at a place, and directories where there is nothing on the way to it. -/
def insert (t : FileTree) (place : List (List Char)) (entry : FileEntry) : FileTree :=
  let above := (List.range place.length).filterMap fun n =>
    let place := place.take n
    if (t.entry? place).isSome then none else some (place, FileEntry.directory)
  { t with entries := (place, entry) :: (above ++ t.entries.filter fun e => e.1 != place) }

/-- Writes a text to a file in a directory that is there. -/
def write (t : FileTree) (path content : String) : Option FileTree :=
  match t.place? path with
  | none => none
  | some place =>
    match t.entry? place.dropLast, t.entry? place with
    | some .directory, some .directory => none
    | some .directory, _ =>
      if endsInDirectory path then none else some (t.insert place (.file content.toUTF8))
    | _, _ => none

/-- Access to the files of a tree that is threaded through. -/
def files : Files (StateM FileTree) where
  read path := do return (← get).read path
  write path content := do
    match (← get).write path content with
    | some t =>
      set t
      return true
    | none => return false

end FileTree

end RegionNet
