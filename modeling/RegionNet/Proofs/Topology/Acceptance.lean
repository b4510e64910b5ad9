import RegionNet.Proofs.Topology.Grammar
import RegionNet.Topology.Error

/-!
# What a topology may say

Whether a line is accepted depends on the lines before it in two ways only: under which name they
open the simulation, and which vertices they declare. A line that is not accepted has a fault, the
first that is met when the line is read from its front; which one it is says the error.
-/

namespace RegionNet

/-- The lines that are read: without white space at their ends, and neither empty nor comments. -/
def statementLines (text : String) : List (List Char) :=
  ((Text.lines text.toList).map Text.trim).filter fun line => line ≠ [] ∧ line.head? ≠ some '#'

/-! ### The grammar -/

variable (earlier : List (List Char)) (line : List Char)

def Opened (simulator : List Char) : Prop :=
  ∃ l ∈ earlier, OpensSimulation l simulator

def Declared (vertex : List Char) : Prop :=
  ∃ l ∈ earlier, DeclaresVertex l vertex

/-- The token is `$v` for a vertex `v` that is declared before. -/
def RefersBack (token : List Char) : Prop :=
  ∃ v, token = '$' :: v ∧ Declared earlier v

/-- A new vertex, or a link with the bandwidth that its third operand says. -/
def AcceptedObject (name : List Char) (operands : List (List Char)) : Prop :=
  (operands.head? = some "node".toList ∧ ¬ Declared earlier name) ∨
    ∃ left right bandwidth rest speed,
      operands = "duplex-link".toList :: left :: right :: bandwidth :: rest ∧
      RefersBack earlier left ∧ RefersBack earlier right ∧
      Bandwidth.ofText (String.ofList bandwidth) = .ok speed

def AcceptedSet : Prop :=
  ∃ name arguments, IsSet line name arguments ∧
    (arguments = "new Simulator".toList → ∀ first, ¬ Opened earlier first) ∧
    ∀ target operands, Text.words arguments = ('$' :: target) :: operands →
      Opened earlier target ∧ AcceptedObject earlier name operands

def AcceptedHardware : Prop :=
  ∃ keyword token label, Text.words line = [keyword, token, label] ∧ RefersBack earlier token

/-- What is asked of a line after the lines before it. -/
def Accepted : Prop :=
  ((Text.words line).head? = some "set".toList → AcceptedSet earlier line) ∧
    ((Text.words line).head? = some "tb-set-node-os".toList → AcceptedHardware earlier line)

def Grammatical (lines : List (List Char)) : Prop :=
  ∀ earlier line later, lines = earlier ++ line :: later → Accepted earlier line

/-! ### Faults -/

/-- What is wrong with a token that refers to no vertex declared before. -/
inductive ReferenceFault (fault : StatementFault) (token : List Char) : TopologyError → Prop
  | unmarked : token.head? ≠ some '$' →
      ReferenceFault fault token (.malformedStatement fault (String.ofList line))
  | unknown {v : List Char} : token = '$' :: v → ¬ Declared earlier v →
      ReferenceFault fault token (.unknownNode (String.ofList v) (String.ofList line))

/-- What is wrong with the operands of an object, from the first to the last. -/
inductive ObjectFault (name : List Char) : List (List Char) → TopologyError → Prop
  | missingType :
      ObjectFault name [] (.malformedStatement .missingObjectType (String.ofList line))
  | unsupported {type : List Char} {rest : List (List Char)} :
      type ≠ "node".toList → type ≠ "duplex-link".toList →
      ObjectFault name (type :: rest)
        (.unsupportedObject (String.ofList type) (String.ofList line))
  | duplicate {rest : List (List Char)} : Declared earlier name →
      ObjectFault name ("node".toList :: rest)
        (.duplicateNode (String.ofList name) (String.ofList line))
  | incomplete {operands : List (List Char)} : operands.length < 3 →
      ObjectFault name ("duplex-link".toList :: operands)
        (.malformedStatement .incompleteLink (String.ofList line))
  | left {left right bandwidth : List Char} {rest : List (List Char)} {e : TopologyError} :
      ReferenceFault earlier line .endpointMark left e →
      ObjectFault name ("duplex-link".toList :: left :: right :: bandwidth :: rest) e
  | right {left right bandwidth : List Char} {rest : List (List Char)} {e : TopologyError} :
      RefersBack earlier left → ReferenceFault earlier line .endpointMark right e →
      ObjectFault name ("duplex-link".toList :: left :: right :: bandwidth :: rest) e
  | bandwidth {left right bandwidth : List Char} {rest : List (List Char)}
      {cause : BandwidthError} :
      RefersBack earlier left → RefersBack earlier right →
      Bandwidth.ofText (String.ofList bandwidth) = .error cause →
      ObjectFault name ("duplex-link".toList :: left :: right :: bandwidth :: rest)
        (.invalidBandwidth (String.ofList line) cause)

/-- What is wrong with a line after the lines before it. -/
inductive Fault : TopologyError → Prop
  | malformedSet : (Text.words line).head? = some "set".toList →
      (∀ name arguments, ¬ IsSet line name arguments) →
      Fault (.malformedSet (String.ofList line))
  | duplicateSimulator {first name : List Char} :
      OpensSimulation line name → Opened earlier first →
      Fault (.duplicateSimulator (String.ofList first) (String.ofList name))
  | missingSimulator {name target : List Char} {operands : List (List Char)} :
      Constructs line name target operands → (∀ first, ¬ Opened earlier first) →
      Fault (.missingSimulator (String.ofList line))
  | foreignObject {name target simulator : List Char} {operands : List (List Char)} :
      Constructs line name target operands → Opened earlier simulator → target ≠ simulator →
      Fault (.foreignObject (String.ofList line))
  | object {name target : List Char} {operands : List (List Char)} {e : TopologyError} :
      Constructs line name target operands → Opened earlier target →
      ObjectFault earlier line name operands e → Fault e
  | hardwareTokens {rest : List (List Char)} :
      Text.words line = "tb-set-node-os".toList :: rest → rest.length ≠ 2 →
      Fault (.malformedStatement .hardwareTokens (String.ofList line))
  | hardwareName {token label : List Char} {e : TopologyError} :
      Text.words line = ["tb-set-node-os".toList, token, label] →
      ReferenceFault earlier line .nodeNameMark token e → Fault e

theorem refersBack_or_fault (fault : StatementFault) (token : List Char) :
    RefersBack earlier token ∨ ∃ e, ReferenceFault earlier line fault token e := by
  by_cases marked : token.head? = some '$'
  · obtain ⟨v, rfl⟩ := List.head?_eq_some_iff.1 marked
    by_cases known : Declared earlier v
    · exact .inl ⟨v, rfl, known⟩
    · exact .inr ⟨_, .unknown rfl known⟩
  · exact .inr ⟨_, .unmarked marked⟩

theorem acceptedLink_or_fault (name : List Char) (operands : List (List Char)) :
    AcceptedObject earlier name ("duplex-link".toList :: operands) ∨
      ∃ e, ObjectFault earlier line name ("duplex-link".toList :: operands) e := by
  match operands with
  | [] | [_] | [_, _] => exact .inr ⟨_, .incomplete (by simp)⟩
  | left :: right :: bandwidth :: rest =>
    rcases refersBack_or_fault earlier line .endpointMark left with known | ⟨e, fault⟩
    · rcases refersBack_or_fault earlier line .endpointMark right with known' | ⟨e, fault⟩
      · cases speed : Bandwidth.ofText (String.ofList bandwidth) with
        | error cause => exact .inr ⟨_, .bandwidth known known' speed⟩
        | ok value =>
          exact .inl (.inr ⟨left, right, bandwidth, rest, value, rfl, known, known', speed⟩)
      · exact .inr ⟨e, .right known fault⟩
    · exact .inr ⟨e, .left fault⟩

theorem acceptedObject_or_fault (name : List Char) (operands : List (List Char)) :
    AcceptedObject earlier name operands ∨ ∃ e, ObjectFault earlier line name operands e := by
  match operands with
  | [] => exact .inr ⟨_, .missingType⟩
  | type :: rest =>
    by_cases node : type = "node".toList
    · subst node
      by_cases known : Declared earlier name
      · exact .inr ⟨_, .duplicate known⟩
      · exact .inl (.inl ⟨rfl, known⟩)
    · by_cases link : type = "duplex-link".toList
      · subst link
        exact acceptedLink_or_fault earlier line name rest
      · exact .inr ⟨_, .unsupported node link⟩

theorem acceptedSet_or_fault (first : (Text.words line).head? = some "set".toList) :
    AcceptedSet earlier line ∨ ∃ e, Fault earlier line e := by
  by_cases formless : ∀ name arguments, ¬ IsSet line name arguments
  · exact .inr ⟨_, .malformedSet first formless⟩
  · push Not at formless
    obtain ⟨name, arguments, form⟩ := formless
    by_cases opens : arguments = "new Simulator".toList
    · subst opens
      by_cases twice : ∃ first, Opened earlier first
      · obtain ⟨first, opened⟩ := twice
        exact .inr ⟨_, .duplicateSimulator form opened⟩
      · refine .inl ⟨name, _, form, fun _ first opened => twice ⟨first, opened⟩, ?_⟩
        intro target operands words
        exact absurd words (Statement.no_reference target operands)
    · by_cases object : ∃ target operands, Text.words arguments = ('$' :: target) :: operands
      · obtain ⟨target, operands, words⟩ := object
        have constructs : Constructs line name target operands := ⟨arguments, form, words⟩
        -- no simulation and another simulation are different faults
        by_cases opened : Opened earlier target
        · rcases acceptedObject_or_fault earlier line name operands with object | ⟨e, fault⟩
          · refine .inl ⟨name, arguments, form, fun same => absurd same opens, ?_⟩
            intro target' operands' words'
            rw [words] at words'
            cases words'
            exact ⟨opened, object⟩
          · exact .inr ⟨e, .object constructs opened fault⟩
        · by_cases other : ∃ simulator, Opened earlier simulator
          · obtain ⟨simulator, opened'⟩ := other
            refine .inr ⟨_, .foreignObject constructs opened' ?_⟩
            rintro rfl
            exact opened opened'
          · exact .inr ⟨_, .missingSimulator constructs fun first opened' => other ⟨first, opened'⟩⟩
      · exact .inl ⟨name, arguments, form, fun same => absurd same opens,
          fun target operands words => absurd ⟨target, operands, words⟩ object⟩

theorem acceptedHardware_or_fault (first : (Text.words line).head? = some "tb-set-node-os".toList) :
    AcceptedHardware earlier line ∨ ∃ e, Fault earlier line e := by
  obtain ⟨rest, words⟩ := List.head?_eq_some_iff.1 first
  match rest with
  | [token, label] =>
    rcases refersBack_or_fault earlier line .nodeNameMark token with known | ⟨e, fault⟩
    · exact .inl ⟨_, token, label, words, known⟩
    · exact .inr ⟨e, .hardwareName words fault⟩
  | [] | [_] | _ :: _ :: _ :: _ => exact .inr ⟨_, .hardwareTokens words (by simp)⟩

/-- Every line is accepted or has a fault. -/
theorem accepted_or_fault : Accepted earlier line ∨ ∃ e, Fault earlier line e := by
  by_cases set : (Text.words line).head? = some "set".toList
  · rcases acceptedSet_or_fault earlier line set with accepted | fault
    · -- a line has one first word, so that the other demand is void
      refine .inl ⟨fun _ => accepted, fun hardware => ?_⟩
      rw [set] at hardware
      simp at hardware
    · exact .inr fault
  · by_cases hardware : (Text.words line).head? = some "tb-set-node-os".toList
    · rcases acceptedHardware_or_fault earlier line hardware with accepted | fault
      · exact .inl ⟨fun set' => absurd set' set, fun _ => accepted⟩
      · exact .inr fault
    · exact .inl ⟨fun set' => absurd set' set, fun hardware' => absurd hardware' hardware⟩

end RegionNet
