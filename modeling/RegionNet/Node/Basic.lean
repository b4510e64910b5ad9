import RegionNet.Heartbeat
import RegionNet.Network
import RegionNet.Resource.Manager

/-!
A node: a vertex that executes.

Its execution thread repeats a cycle of a hook, one round of the engine, a report to keep, and a
second hook. An outside caller starts it, stops it and moves it between regions. Thread and caller
run side by side, so what each of them does is cut into steps that nothing can come between; a
`Node` is the state between two such steps, with the place where every live thread and the call in
progress stand.
-/

namespace RegionNet

/-- What ended the execution of a node. -/
inductive EngineError
  | failed (node : NodeName) (message : String)
  | crashed (node : NodeName) (message : String)
deriving DecidableEq, Repr

def EngineError.message : EngineError → String
  | failed node text => s!"Engine on {node} failed: {text}"
  | crashed node text => s!"Engine on {node} panicked: {text}"

/-- Why a node does not start. -/
inductive LifecycleError
  | alreadyExecuting (node : NodeName)
  | network (node : NodeName) (cause : NetworkError)
deriving DecidableEq, Repr

def LifecycleError.message : LifecycleError → String
  | alreadyExecuting node => s!"Node {node} is already executing"
  | network node cause => s!"Failed to start network for node {node}: {cause.message}"

inductive LifecycleState
  /-- It was never started. -/
  | idle
  | running
  | stopped
  /-- An error ended its cycle. -/
  | failed
deriving DecidableEq, Repr

def LifecycleState.name : LifecycleState → String
  | idle => "Idle"
  | running => "Running"
  | stopped => "Stopped"
  | failed => "Failed"

/-- What a node was told of its region. It is forgotten when the node moves to another one. -/
structure RegionView where
  region : RegionName
  reports : List (Report Float)
  services : List ServiceReport
  summary : Option (Summary Float)
deriving DecidableEq

def RegionView.new (region : RegionName) : RegionView :=
  ⟨region, [], [], none⟩

/-- Threads are numbered in the order in which they were started. -/
abbrev ThreadId := Nat

/-- Where in its loop a thread is. The tests are those of the running flag. -/
inductive Phase
  | loopTest
  | preHook
  | preTest
  | beginCycle
  | engine
  | increment
  | countTest
  | buildReport
  | storeReport (report : Report Float)
  | storeTest
  | postHook
  | sleep
  | recordError (error : EngineError)
  | markFailed
deriving DecidableEq

/-- Where in a call the outside caller is. -/
inductive Call
  /-- A start found a thread that is left from before and stops the network. -/
  | reap (thread : ThreadId)
  /-- It waits for that thread to end. -/
  | reapJoin (thread : ThreadId)
  | launch
  | stopHook (thread : Option ThreadId)
  | stopNetwork (thread : Option ThreadId)
  | stopJoin (thread : Option ThreadId)
  | settle
  | dropReport (region : RegionName)
  | resetView (region : RegionName)
  | clearNetwork
deriving DecidableEq

/-- A place in the cycle where a node runs code that is not its own. -/
inductive Point
  | pre
  | engine
  | post
deriving DecidableEq, Repr

def Point.name : Point → String
  | pre => "pre"
  | engine => "engine"
  | post => "post"

/-- What happened at a node, in the order in which it happened. -/
inductive Event
  | networkStart
  | networkStop
  | clearNeighbors
  | launched (thread : ThreadId)
  | stopRequested (running : Bool)
  | preStop
  | preCycle
  | beginCycle
  | engineCalled (time : Timestamp)
  | engineRead (states : SortedMap NodeName NeighborState)
  | share (round : UInt64) (values : SortedMap String Float)
  | beat (heartbeat : Heartbeat)
  | engineReturned
  | reportStored
  | postCycle
  | stoppedItself (point : Point)
  | startedItself (error : LifecycleError)
deriving DecidableEq

/-- What one lock guards. -/
structure Control where
  running : Bool
  handle : Option ThreadId
  state : LifecycleState
deriving DecidableEq, Repr

structure Node where
  vertex : Vertex
  resources : ResourceManager
  window : EstimationWindow
  heartbeat : Heartbeat
  control : Control
  threads : SortedMap ThreadId Phase
  spawned : Nat
  call : Option Call
  /-- What the latest start returned. -/
  startResult : Except LifecycleError Unit
  /-- Counted in a word, which holds the count as long as fewer than `UInt64.size` cycles were
  completed. What the node shares bears it as a word. -/
  completedCycles : Nat
  latestReport : Option (Report Float)
  regionView : RegionView
  lastError : Option EngineError
  log : List Event

namespace Node

/-- A node that was never started. -/
def new (vertex : Vertex) (resources : ResourceManager) (window : EstimationWindow) : Node where
  vertex := vertex
  resources := resources
  window := window
  heartbeat := Heartbeat.new
  control := ⟨false, none, .idle⟩
  threads := ∅
  spawned := 0
  call := none
  startResult := .ok ()
  completedCycles := 0
  latestReport := none
  regionView := RegionView.new vertex.region
  lastError := none
  log := []

def name (n : Node) : NodeName :=
  n.vertex.name

def region (n : Node) : RegionName :=
  n.vertex.region

def isLive (n : Node) (thread : ThreadId) : Bool :=
  n.threads.contains thread

/-- Its thread is alive and was not told to stop. -/
def isExecuting (n : Node) : Bool :=
  n.control.running && n.control.handle.any n.isLive

def report (n : Node) (now : Timestamp) (window : EstimationWindow) : Report Float :=
  n.resources.report n.vertex now window

def serviceReport (n : Node) : ServiceReport :=
  n.resources.serviceReport n.vertex

def emit (n : Node) (e : Event) : Node :=
  { n with log := n.log ++ [e] }

/-- Sends a thread to its next phase. -/
def proceed (n : Node) (thread : ThreadId) (phase : Phase) : Node :=
  { n with threads := n.threads.insert thread phase }

/-- Ends a thread. -/
def exit (n : Node) (thread : ThreadId) : Node :=
  { n with threads := n.threads.erase thread }

end Node

end RegionNet
