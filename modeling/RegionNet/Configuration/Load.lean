import RegionNet.Configuration.Text
import RegionNet.Files

/-!
Configurations in files. Relative paths in a configuration start from the directory of its file.
-/

namespace RegionNet

/-- Why a configuration does not load. -/
inductive LoadError
  | unopened (path : String)
  | unreadable (path : String)
  | invalid (cause : ConfigurationError)
  /-- Reading broke off. -/
  | overflow
deriving DecidableEq, Repr

def LoadError.message : LoadError → String
  | unopened path => s!"Failed to open configuration '{path}'"
  | unreadable path => s!"Failed to parse configuration '{path}'"
  | invalid cause => cause.message
  | overflow => ReadFault.overflowMessage

namespace Configuration

/-- The configuration in a file, checked before its paths are resolved. -/
def ofFile (path : String) (content : FileContent) : Except LoadError Configuration :=
  match content with
  | .missing => .error (.unopened path)
  | content =>
    match (ReadFault.orMalformed content.text?).bind ofText with
    | .error .malformed => .error (.unreadable path)
    | .error .overflow => .error .overflow
    | .ok c =>
      match c.validate with
      | .error cause => .error (.invalid cause)
      | .ok () =>
        .ok (match FilePath.parent? path with
          | some base => c.resolvePaths base
          | none => c)

def load {m : Type → Type} [Monad m] (files : Files m) (path : String) :
    m (Except LoadError Configuration) := do
  return ofFile path (← files.read path)

end Configuration

end RegionNet
