/-!
Files as a program sees them.
-/

namespace RegionNet

/-- What is found at a path. -/
inductive FileContent
  | missing
  | directory
  | file (bytes : ByteArray)

/-- The text of a file, if it is one and its bytes are UTF-8. -/
def FileContent.text? : FileContent → Option String
  | file bytes => String.fromUTF8? bytes
  | _ => none

/-- Reading and writing by path. A write says whether it was done. -/
structure Files (m : Type → Type) where
  read : String → m FileContent
  write : String → String → m Bool

end RegionNet
