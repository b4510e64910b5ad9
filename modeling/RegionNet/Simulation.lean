import RegionNet.CommandLine
import RegionNet.Configuration.Load
import RegionNet.Report.Document
import RegionNet.Scenario.Play
import RegionNet.Topology.Directory

/-!
The program: from the arguments of a command line to the summaries of the regions.
-/

namespace RegionNet

/-- How the program ends. -/
structure Exit where
  code : UInt8
  output : String
  complaint : String
deriving DecidableEq, Repr

namespace Exit

def ok (output : String) : Exit := ⟨0, output, ""⟩

/-- Something that the program was told to do could not be done. -/
def failure (complaint : String) : Exit := ⟨1, "", complaint⟩

/-- Reading broke off. -/
def breakdown (complaint : String) : Exit := ⟨101, "", complaint⟩

/-- The command line was not understood. -/
def misuse (complaint : String) : Exit := ⟨2, "", complaint⟩

end Exit

namespace Simulation

def programName : String := "regionsim"

def version : String := "0.1.0"

def usage : String :=
  s!"Usage: {programName} [OPTIONS] --config <CONFIG>"

/-- The time at which a run starts, and how far a cycle of a given length moves it on. -/
structure Time where
  start : Timestamp
  advance : Duration → Timestamp

/-- The run of a graph that a configuration asks for. -/
def play (c : Configuration) (time : Time) (g : Graph) : Scenario :=
  let plan : Plan := ⟨time.start, time.advance c.cycleInterval, ∅, none⟩
  (Scenario.new (Fleet.ofGraph g) (.completed c.maxExecutions.toNat)).play plan

/-- The summaries after a run, as a text; or why there are none. -/
def summarize (c : Configuration) (s : Scenario) : Except String String :=
  match s.result? with
  | some (.error e) => .error s!"Failed to start scenario: {e.message}"
  | _ =>
    match s.graph.regionSummaries c.window with
    | .error e => .error s!"Failed to summarize regions: {e.message}"
    | .ok (summaries, _) => .ok (Summary.tableToJson summaries).indentedText

variable {m : Type → Type} [Monad m]

/-- Where the summaries go. -/
def deliver (files : Files m) (output : Option String) (text : String) : m Exit := do
  match output with
  | none => return .ok (text ++ "\n")
  | some path =>
    if ← files.write path text then return .ok ""
    else return .failure s!"Failed to write summaries to '{path}'"

/-- Runs the simulation that the arguments name. -/
def run (files : Files m) (time : Time) (a : Arguments) : m Exit := do
  match ← Configuration.load files a.configuration with
  | .error .overflow => return .breakdown LoadError.overflow.message
  | .error e => return .failure e.message
  | .ok c =>
    let c := c.override ⟨a.maxExecutions, a.logLevel⟩
    match c.validate with
    | .error e => return .failure e.message
    | .ok () =>
      match ← Topology.load files c.topology c.nodeDataPath with
      | .error e => return .failure s!"Failed to load topology '{c.topology}': {e.message}"
      | .ok t =>
        match summarize c (play c time (Graph.ofTopology c.window t)) with
        | .error complaint => return .failure complaint
        | .ok text => deliver files a.output text

/-- Does what a command line asks for. -/
def perform (files : Files m) (time : Time) (arguments : List String) : m Exit := do
  match Request.ofArguments arguments with
  | .error e => return .misuse (e.message ++ "\n\n" ++ usage)
  | .ok .version => return .ok s!"{programName} {version}\n"
  | .ok .help => return .ok (usage ++ "\n")
  | .ok (.run a) => run files time a

end Simulation

end RegionNet
