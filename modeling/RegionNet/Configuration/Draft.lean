import RegionNet.Configuration

/-!
Configurations put together field by field, in the order in which they are written.

The first fault decides. Unknown fields are passed over, no field may be given twice, and at the end
a field that was not given has its default, if it has one.
-/

namespace RegionNet.Configuration

open ReadFault (orMalformed)

inductive Field
  | topology
  | nodeDataDir
  | cycleInterval
  | maxExecutions
  | window
  | logLevel
deriving DecidableEq, Repr

namespace Field

def name : Field → String
  | topology => "topology"
  | nodeDataDir => "node_data_dir"
  | cycleInterval => "cycle_interval"
  | maxExecutions => "max_executions"
  | window => "estimation_window"
  | logLevel => "log_level"

/-- The fields in their order. -/
def all : List Field :=
  [topology, nodeDataDir, cycleInterval, maxExecutions, window, logLevel]

def ofName? (s : String) : Option Field :=
  all.find? fun f => f.name == s

end Field

/-- How a format writes the values of fields. -/
structure ValueReader (β : Type) where
  text : β → Option String
  /-- A text or nothing. -/
  optionalText : β → Option (Option String)
  count : β → Option UInt64
  window : β → Option EstimationWindow

/-- The fields that have been given. -/
structure Draft where
  topology : Option String
  nodeDataDir : Option (Option String)
  cycleInterval : Option Duration
  maxExecutions : Option UInt64
  window : Option EstimationWindow
  logLevel : Option (Option String)

namespace Draft

def empty : Draft := ⟨none, none, none, none, none, none⟩

/-- The value for a field that must not have one yet. -/
def once {α : Type} (old : Option α) (new : Except ReadFault α) : Except ReadFault (Option α) :=
  match old with
  | some _ => .error .malformed
  | none => new.map some

variable {β : Type}

/-- Gives a field its value. -/
def set (r : ValueReader β) (d : Draft) (f : Field) (value : β) : Except ReadFault Draft := do
  match f with
  | .topology => return { d with topology := ← once d.topology (orMalformed (r.text value)) }
  | .nodeDataDir =>
    return { d with nodeDataDir := ← once d.nodeDataDir (orMalformed (r.optionalText value)) }
  | .cycleInterval =>
    let interval := (orMalformed (r.text value)).bind Duration.ofText
    return { d with cycleInterval := ← once d.cycleInterval interval }
  | .maxExecutions =>
    return { d with maxExecutions := ← once d.maxExecutions (orMalformed (r.count value)) }
  | .window => return { d with window := ← once d.window (orMalformed (r.window value)) }
  | .logLevel =>
    return { d with logLevel := ← once d.logLevel (orMalformed (r.optionalText value)) }

def setNamed (r : ValueReader β) (d : Draft) (name : String) (value : β) :
    Except ReadFault Draft :=
  match Field.ofName? name with
  | some f => d.set r f value
  | none => .ok d

def finish (d : Draft) : Except ReadFault Configuration := do
  return {
    topology := ← orMalformed d.topology
    nodeDataDir := d.nodeDataDir.join
    cycleInterval := d.cycleInterval.getD defaultInterval
    maxExecutions := ← orMalformed d.maxExecutions
    window := d.window.getD .short
    logLevel := d.logLevel.join }

end Draft

end RegionNet.Configuration
