import RegionNet.Attribute
import RegionNet.Configuration.Duration
import RegionNet.FilePath
import RegionNet.Text.Blank

/-!
The configuration of a simulation: which topology to load and how long to run it.
-/

namespace RegionNet

structure Configuration where
  /-- The path of the topology. -/
  topology : String
  /-- The directory of the nodes' documents, if it is not that of the topology. -/
  nodeDataDir : Option String
  cycleInterval : Duration
  /-- So many cycles every node has to complete. -/
  maxExecutions : UInt64
  window : EstimationWindow
  logLevel : Option String
deriving DecidableEq

/-- Why a configuration is refused. -/
inductive ConfigurationError
  | emptyTopology
  | emptyNodeDataDir
  | noExecutions
  | noInterval
  | unknownLogLevel (level : String)
deriving DecidableEq, Repr

namespace Configuration

def defaultInterval : Duration := Duration.ofSeconds 2

def logLevels : List String := ["off", "error", "warn", "info", "debug", "trace"]

end Configuration

def ConfigurationError.message : ConfigurationError → String
  | emptyTopology => "Invalid topology configuration: topology path cannot be empty"
  | emptyNodeDataDir => "Invalid topology configuration: node_data_dir cannot be empty when given"
  | noExecutions => "Invalid execution configuration: max_executions must be greater than 0"
  | noInterval => "Invalid execution configuration: cycle_interval must be greater than 0"
  | unknownLogLevel level =>
    s!"Invalid log level: '{level}' is not one of " ++ ", ".intercalate Configuration.logLevels

namespace Configuration

def isBlankText (s : String) : Bool :=
  s.toList.all Text.isBlank

/-- ASCII letters of a log level may have any case. -/
def isLogLevel (level : String) : Bool :=
  logLevels.contains (level.map Char.toLower)

/-- The first reason to refuse a configuration, in the order of its fields. -/
def validate (c : Configuration) : Except ConfigurationError Unit :=
  if isBlankText c.topology then .error .emptyTopology
  else if c.nodeDataDir.any isBlankText then .error .emptyNodeDataDir
  else if c.maxExecutions = 0 then .error .noExecutions
  else if c.cycleInterval.isZero then .error .noInterval
  else
    match c.logLevel.filter fun level => !isLogLevel level with
    | some level => .error (.unknownLogLevel level)
    | none => .ok ()

/-- Where the nodes' documents are. -/
def nodeDataPath (c : Configuration) : String :=
  match c.nodeDataDir with
  | some dir => dir
  | none => (FilePath.parent? c.topology).getD "."

/-- Makes relative paths start from `base`. -/
def resolvePaths (c : Configuration) (base : String) : Configuration :=
  { c with
    topology := FilePath.join base c.topology
    nodeDataDir := c.nodeDataDir.map (FilePath.join base) }

/-- What the command line may say instead of the configuration. -/
structure Overrides where
  maxExecutions : Option UInt64
  logLevel : Option String

def override (c : Configuration) (o : Overrides) : Configuration :=
  { c with
    maxExecutions := o.maxExecutions.getD c.maxExecutions
    logLevel := o.logLevel.or c.logLevel }

end Configuration

end RegionNet
