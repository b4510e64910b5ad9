import RegionNet.Configuration.Draft
import RegionNet.Json.Decoding
import RegionNet.Json.Reader
import RegionNet.Report.Document

/-!
Configurations as JSON records.
-/

namespace RegionNet

def Duration.toJson (d : Duration) : Json := .string d.text

namespace Configuration

/-- Optional fields are written only if they are given. -/
def toJson (c : Configuration) : Json :=
  .object ([("topology", .string c.topology)]
    ++ (c.nodeDataDir.map fun dir => ("node_data_dir", Json.string dir)).toList
    ++ [("cycle_interval", c.cycleInterval.toJson),
      ("max_executions", .ofNat c.maxExecutions.toNat),
      ("estimation_window", c.window.toJson)]
    ++ (c.logLevel.map fun level => ("log_level", Json.string level)).toList)

def jsonValues : ValueReader Json where
  text := Json.toString?
  optionalText := Json.toOptional? Json.toString?
  count := Json.toUInt64?
  window := EstimationWindow.ofJson?

/-- Reads an object by the names of its fields, or the list of the fields in their order. -/
def ofJson : Json → Except ReadFault Configuration
  | .object fields => do
    let draft ← fields.foldlM (fun d f => d.setNamed jsonValues f.1 f.2) Draft.empty
    draft.finish
  | .array items => do
    let draft ← (Field.all.zip items).foldlM (fun d f => d.set jsonValues f.1 f.2) Draft.empty
    if items.length ≤ Field.all.length then draft.finish else throw .malformed
  | _ => throw .malformed

/-- Reads a JSON text. What stands before a fault of the text is read all the same. -/
def ofJsonText (text : String) : Except ReadFault Configuration := do
  let reading := Json.Reading.ofText text
  let c ← ofJson reading.value
  if reading.isWhole then return c else throw .malformed

end Configuration

end RegionNet
