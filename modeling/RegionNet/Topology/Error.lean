import RegionNet.Name
import RegionNet.Topology.Bandwidth

/-!
Why a topology is refused.
-/

namespace RegionNet

/-- What is wrong with a statement of a known kind. -/
inductive StatementFault
  | missingObjectType
  | incompleteLink
  | endpointMark
  | hardwareTokens
  | nodeNameMark
deriving DecidableEq, Repr

def StatementFault.message : StatementFault → String
  | missingObjectType => "Missing object type"
  | incompleteLink => "Expecting duplex-link to name two nodes and a bandwidth"
  | endpointMark => "Expecting link endpoints to start with $"
  | hardwareTokens => "Expecting tb-set-node-os to have 3 tokens"
  | nodeNameMark => "Expecting node name to start with $"

/-- What is wrong with the configuration document of a node. -/
inductive DocumentFault
  | unreadable
  | notJson
  | notObject
deriving DecidableEq, Repr

def DocumentFault.message : DocumentFault → String
  | unreadable => "the file cannot be read as text"
  | notJson => "the text is not JSON"
  | notObject => "top-level value is not an object"

inductive TopologyError
  | malformedSet (line : String)
  | duplicateSimulator (first second : String)
  | missingSimulator (line : String)
  | foreignObject (line : String)
  | unsupportedObject (objectType line : String)
  | duplicateNode (name : NodeName) (line : String)
  | unknownNode (name : NodeName) (line : String)
  | malformedStatement (fault : StatementFault) (line : String)
  | invalidBandwidth (line : String) (cause : BandwidthError)
  | nodeDocument (node : NodeName) (path : String) (fault : DocumentFault)
  | unreadable (path : String)
deriving DecidableEq, Repr

def TopologyError.message : TopologyError → String
  | malformedSet line => s!"line doesn't match expected format for set: '{line}'"
  | duplicateSimulator first second => s!"Cannot have 2 simulators: {first} and {second}"
  | missingSimulator line => s!"Cannot construct nodes and links without a simulator, line: {line}"
  | foreignObject line => s!"Only creating simulated objects is supported, line: {line}"
  | unsupportedObject objectType line => s!"Unsupported object type: {objectType} on line: {line}"
  | duplicateNode name line => s!"Node {name} is declared twice, line: {line}"
  | unknownNode name line => s!"Unknown node {name} on line: {line}"
  | malformedStatement fault line => s!"{fault.message} on line: {line}"
  | invalidBandwidth line cause => s!"Invalid bandwidth on line: {line}: {cause.message}"
  | nodeDocument node path fault =>
    s!"Invalid configuration for node {node} in {path}: {fault.message}"
  | unreadable path => s!"Failed to read topology {path}"

end RegionNet
