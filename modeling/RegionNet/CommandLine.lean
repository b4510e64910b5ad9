import RegionNet.Text.Numeral

/-!
The command line: options with their values, read from left to right.

An option is given once, by its long name or its letter. Its value is the next argument, which may
not look like an option itself, or is attached to it. A request for the version or for help is
answered at once, whatever follows.
-/

namespace RegionNet

/-- What a run is asked to do. -/
structure Arguments where
  configuration : String
  maxExecutions : Option UInt64
  logLevel : Option String
  output : Option String
deriving DecidableEq, Repr

/-- What the command line asks for. -/
inductive Request
  | run (arguments : Arguments)
  | version
  | help
deriving DecidableEq, Repr

/-- Why a command line is refused. -/
inductive UsageError
  | unexpected (argument : String)
  | repeated (option : String)
  | noValue (option : String)
  | invalidValue (option value : String)
  | missingConfiguration
deriving DecidableEq, Repr

def UsageError.message : UsageError → String
  | unexpected argument => s!"error: unexpected argument '{argument}' found"
  | repeated option => s!"error: the argument '{option}' cannot be used multiple times"
  | noValue option => s!"error: a value is required for '{option}' but none was supplied"
  | invalidValue option value => s!"error: invalid value '{value}' for '{option}'"
  | missingConfiguration =>
    "error: the following required arguments were not provided: --config <CONFIG>"

namespace CommandLine

inductive ValueOption
  | configuration
  | maxExecutions
  | logLevel
  | output
deriving DecidableEq, Repr

inductive Switch
  | version
  | help
deriving DecidableEq, Repr

namespace ValueOption

def longName : ValueOption → String
  | configuration => "config"
  | maxExecutions => "max-executions"
  | logLevel => "log-level"
  | output => "output"

def letter? : ValueOption → Option Char
  | configuration => some 'c'
  | maxExecutions => some 'n'
  | logLevel => none
  | output => some 'o'

def all : List ValueOption := [configuration, maxExecutions, logLevel, output]

def written (o : ValueOption) : String :=
  "--" ++ o.longName

end ValueOption

def Switch.longName : Switch → String
  | version => "version"
  | help => "help"

def Switch.letter : Switch → Char
  | version => 'V'
  | help => 'h'

def Switch.all : List Switch := [version, help]

def Switch.request : Switch → Request
  | version => .version
  | help => .help

/-- The values so far. -/
structure Given where
  configuration : Option String
  maxExecutions : Option UInt64
  logLevel : Option String
  output : Option String

def Given.nothing : Given := ⟨none, none, none, none⟩

def setPath (o : ValueOption) (old : Option String) (value : String) :
    Except UsageError (Option String) :=
  if old.isSome then .error (.repeated o.written)
  else if value.isEmpty then .error (.noValue o.written)
  else .ok (some value)

/-- A count is written in digits, with a plus sign in front or not. -/
def count? (value : String) : Option UInt64 :=
  let cs := value.toList
  Text.word? 10 (if cs.head? = some '+' then cs.tail else cs)

def Given.set (g : Given) (o : ValueOption) (value : String) : Except UsageError Given :=
  match o with
  | .configuration => do return { g with configuration := ← setPath o g.configuration value }
  | .output => do return { g with output := ← setPath o g.output value }
  | .maxExecutions =>
    if g.maxExecutions.isSome then .error (.repeated o.written)
    else
      match count? value with
      | some n => .ok { g with maxExecutions := some n }
      | none => .error (.invalidValue o.written value)
  | .logLevel =>
    if g.logLevel.isSome then .error (.repeated o.written)
    else .ok { g with logLevel := some value }

/-- Does an argument look like an option? A single dash does not. -/
def looksLikeOption (argument : String) : Bool :=
  match argument.toList with
  | '-' :: _ :: _ => true
  | _ => false

/-- What one argument is, apart from the arguments after it. -/
inductive Shape
  | attached (option : ValueOption) (value : String)
  | detached (option : ValueOption)
  | switch (switch : Switch)
  | unexpected
deriving DecidableEq, Repr

def shapeOfLong (body : List Char) : Shape :=
  let name := String.ofList (body.takeWhile (· ≠ '='))
  let rest := body.dropWhile (· ≠ '=')
  let option := ValueOption.all.find? (·.longName == name)
  match option, Switch.all.find? (·.longName == name), rest with
  | some o, _, '=' :: value => .attached o (String.ofList value)
  | some o, _, _ => .detached o
  | none, some s, [] => .switch s
  | none, _, _ => .unexpected

def shapeOfLetter (letter : Char) (rest : List Char) : Shape :=
  let option := ValueOption.all.find? (·.letter? == some letter)
  match option, Switch.all.find? (·.letter == letter), rest with
  | some o, _, [] => .detached o
  | some o, _, '=' :: value => .attached o (String.ofList value)
  | some o, _, value => .attached o (String.ofList value)
  | none, some s, _ => .switch s
  | none, none, _ => .unexpected

def shape (argument : String) : Shape :=
  match argument.toList with
  | '-' :: '-' :: body => if body.isEmpty then .unexpected else shapeOfLong body
  | '-' :: letter :: rest => shapeOfLetter letter rest
  | _ => .unexpected

def finish (g : Given) : Except UsageError Request :=
  match g.configuration with
  | some path => .ok (.run ⟨path, g.maxExecutions, g.logLevel, g.output⟩)
  | none => .error .missingConfiguration

def read (g : Given) : List String → Except UsageError Request
  | [] => finish g
  | ["--"] => finish g
  | argument :: rest =>
    match shape argument, rest with
    | .attached o value, rest => do read (← g.set o value) rest
    | .detached o, value :: rest =>
      if looksLikeOption value then .error (.noValue o.written) else do read (← g.set o value) rest
    | .detached o, [] => .error (.noValue o.written)
    | .switch s, _ => .ok s.request
    | .unexpected, _ => .error (.unexpected argument)

end CommandLine

/-- Reads the arguments of a command line. -/
def Request.ofArguments (arguments : List String) : Except UsageError Request :=
  CommandLine.read CommandLine.Given.nothing arguments

end RegionNet
