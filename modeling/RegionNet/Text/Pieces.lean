/-!
Texts as pieces with separators between them.
-/

namespace RegionNet.Text

/-- Cuts at every character that satisfies `p`; the pieces may be empty. -/
def splitAt (p : Char → Bool) : List Char → List (List Char)
  | [] => [[]]
  | c :: cs =>
    match splitAt p cs with
    | [] => [[]]
    | piece :: pieces => if p c then [] :: piece :: pieces else (c :: piece) :: pieces

/-- Puts a separator between pieces. -/
def joinWith (separator : List Char) : List (List Char) → List Char
  | [] => []
  | [piece] => piece
  | piece :: rest => piece ++ separator ++ joinWith separator rest

end RegionNet.Text
