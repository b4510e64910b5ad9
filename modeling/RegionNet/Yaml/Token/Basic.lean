import RegionNet.Yaml.Directive
import RegionNet.Yaml.Scalar

/-!
The tokens of a YAML text, and rows of them.
-/

namespace RegionNet.Yaml

inductive Token
  | directive (directive : Directive)
  | documentStart
  | documentEnd
  | sequenceStart
  | mappingStart
  | blockEnd
  | flowSequenceStart
  | flowSequenceEnd
  | flowMappingStart
  | flowMappingEnd
  | entry
  | flowEntry
  | key
  | value
  | anchor (name : String)
  | alias (name : String)
  | tag (tag : WrittenTag)
  | scalar (style : Style) (text : String)
deriving DecidableEq, Repr

/-- A row of tokens that grows at its end, or sometimes before a token close to its end. -/
structure TokenRow where
  /-- The tokens, the latest first. -/
  latest : List Token
  size : Nat
  size_eq : latest.length = size

namespace TokenRow

def empty : TokenRow := ⟨[], 0, rfl⟩

def toList (r : TokenRow) : List Token :=
  r.latest.reverse

def push (r : TokenRow) (t : Token) : TokenRow :=
  ⟨t :: r.latest, r.size + 1, by simp [r.size_eq]⟩

/-- Puts a token in front of the one with the given number. -/
def insertAt (r : TokenRow) (number : Nat) (t : Token) : TokenRow where
  latest := r.latest.take (r.size - number) ++ t :: r.latest.drop (r.size - number)
  size := r.size + 1
  size_eq := by
    have := r.size_eq
    simp only [List.length_append, List.length_take, List.length_cons, List.length_drop]
    omega

/-- The first tokens, up to the given number. -/
def firsts (r : TokenRow) (number : Nat) : List Token :=
  (r.latest.drop (r.size - number)).reverse

end TokenRow

end RegionNet.Yaml
