import RegionNet.Name
import RegionNet.Text.Blank

/-!
The statements of a topology, one on a line.

A line says nothing if it is blank, a comment, or starts with a keyword that is not known here. A
`set` line has the form `set name [arguments]`; it opens the simulation, makes an object of the one
that its first argument refers to, or says nothing here.
-/

namespace RegionNet

inductive Statement
  | silent
  | malformedSet
  /-- Opens the simulation under a name. -/
  | simulator (name : String)
  /-- Makes `name` an object of `target`. -/
  | construct (name : String) (target : String) (arguments : List String)
  /-- Labels a vertex with its hardware. -/
  | hardware (arguments : List String)
deriving DecidableEq, Repr

namespace Statement

def commentMark : Char := '#'

def setKeyword : List Char := "set".toList

def hardwareKeyword : List Char := "tb-set-node-os".toList

/-- The arguments that open a simulation, to the character. -/
def simulatorArguments : List Char := "new Simulator".toList

/-- Cuts a `set` line into the name and the text between the brackets, which is not empty and has no
closing bracket. -/
def setParts? (line : List Char) : Option (List Char × List Char) :=
  let afterKeyword := line.drop setKeyword.length
  let afterBlank := afterKeyword.dropWhile Text.isBlank
  let name := afterBlank.takeWhile fun c => !Text.isBlank c
  let afterName := afterBlank.dropWhile fun c => !Text.isBlank c
  if setKeyword.isPrefixOf line && afterKeyword.head?.any Text.isBlank && !name.isEmpty
      && afterName.head?.any Text.isBlank then
    match afterName.dropWhile Text.isBlank with
    | '[' :: body =>
      let arguments := body.dropLast
      if body.getLast? = some ']' && !arguments.isEmpty && !arguments.contains ']' then
        some (name, arguments)
      else none
    | _ => none
  else none

def ofSetLine (line : List Char) : Statement :=
  match setParts? line with
  | none => malformedSet
  | some (name, arguments) =>
    if arguments = simulatorArguments then simulator (String.ofList name)
    else
      match Text.words arguments with
      | ('$' :: target) :: rest =>
        construct (String.ofList name) (String.ofList target) (rest.map String.ofList)
      | _ => silent

/-- Reads a line from which white space at both ends was taken. -/
def ofLine (line : List Char) : Statement :=
  if line.head? = some commentMark then silent
  else
    match Text.words line with
    | [] => silent
    | keyword :: rest =>
      if keyword = setKeyword then ofSetLine line
      else if keyword = hardwareKeyword then hardware (rest.map String.ofList)
      else silent

end Statement

end RegionNet
