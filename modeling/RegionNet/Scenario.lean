import RegionNet.Fleet
import RegionNet.Graph.RegionViews

/-!
One run of a fleet: start every node in the order of their names, look again and again whether the
run is done, stop every node.

A node that does not start ends the run, and the nodes that were started by it are stopped. The run,
the threads of the nodes and the network move side by side: `Move` names one step of any of them,
and a run is a sequence of moves.
-/

namespace RegionNet

/-- When a run is done. -/
inductive Termination
  /-- Every node that executes has completed so many cycles. -/
  | completed (minimum : Nat)
  | never
  /-- A condition of another kind. It may look at the nodes one after the other, at the time or at a
  state of its own, so what it answers when it is asked is left open: `Move.answer` says it. -/
  | other
deriving DecidableEq, Repr

/-- What is known when a run is over. -/
structure Outcome where
  timedOut : Bool
  failed : List (NodeName × EngineError)
deriving DecidableEq, Repr

/-- What a run is doing. `pending` are nodes that are still to be told to stop, `told` are those
that were. -/
inductive Stage
  | start (started rest : List NodeName)
  | starting (started : List NodeName) (node : NodeName) (rest : List NodeName)
  | undo (error : LifecycleError) (pending told : List NodeName)
  /-- Every node that is not in `rest` is done. -/
  | check (rest : List NodeName)
  /-- The node was seen to execute. -/
  | count (node : NodeName) (rest : List NodeName)
  | pause
  | stop (timedOut : Bool) (pending told : List NodeName)
  | ended (result : Except LifecycleError Outcome)

structure Scenario where
  fleet : Fleet
  termination : Termination
  stage : Stage

/-- A step of one of those who take part in a run. -/
inductive Move
  | thread (node : NodeName) (thread : ThreadId) (moment : Moment)
  /-- The call in progress at a node goes on. -/
  | call (node : NodeName)
  | run
  /-- A worker tells a pending node to stop. -/
  | tellStop (node : NodeName)
  /-- The condition of the run, if it is of another kind, answers that it is met or that it is not. -/
  | answer (met : Bool)
  /-- The time of the run is over. -/
  | expire
  | deliver (index : Nat)
  | lose (index : Nat)

namespace Scenario

/-- A run that is about to begin. -/
def new (fleet : Fleet) (termination : Termination) : Scenario :=
  ⟨fleet, termination, .start [] fleet.graph.nodes.keys⟩

def graph (s : Scenario) : Graph :=
  s.fleet.graph

def names (s : Scenario) : List NodeName :=
  s.graph.nodes.keys

/-- The nodes whose last execution ended with an error. -/
def failedNodes (g : Graph) : List (NodeName × EngineError) :=
  g.nodes.entries.filterMap fun e => e.2.lastError.map fun error => (e.1, error)

/-- Is no call in progress at any of these nodes? -/
def areFree (s : Scenario) (nodes : List NodeName) : Bool :=
  nodes.all fun name => (s.graph.nodes.get? name).all fun n => n.call.isNone

def isExecuting (s : Scenario) (name : NodeName) : Bool :=
  (s.graph.nodes.get? name).any Node.isExecuting

def completedCycles (s : Scenario) (name : NodeName) : Nat :=
  ((s.graph.nodes.get? name).map Node.completedCycles).getD 0

def withNode (s : Scenario) (name : NodeName) (act : Node → Fabric → Node × Fabric) : Scenario :=
  { s with fleet := s.fleet.withNode name act }

/-- The next step of the run itself. It stays where it is while it waits for a call to end or for
the answer of its condition. -/
def advance (s : Scenario) : Scenario :=
  match s.stage with
  | .start _ [] => { s with stage := .check s.names }
  | .start started (name :: rest) =>
    { s.withNode name fun n fabric => (n.beginStart, fabric) with
      stage := .starting started name rest }
  | .starting started name rest =>
    match s.graph.nodes.get? name with
    | none => { s with stage := .start started rest }
    | some n =>
      match n.call, n.startResult with
      | some _, _ => s
      | none, .ok () => { s with stage := .start (started ++ [name]) rest }
      | none, .error e => { s with stage := .undo e started [] }
  | .undo e [] told => if s.areFree told then { s with stage := .ended (.error e) } else s
  | .undo _ (_ :: _) _ => s
  | .check rest =>
    match s.termination, rest with
    | .never, _ => { s with stage := .pause }
    | .other, _ => s
    | .completed _, [] => { s with stage := .stop false s.names [] }
    | .completed _, name :: rest =>
      { s with stage := if s.isExecuting name then .count name rest else .check rest }
  | .count name rest =>
    match s.termination with
    | .completed minimum =>
      { s with stage := if minimum ≤ s.completedCycles name then .check rest else .pause }
    | _ => { s with stage := .pause }
  | .pause => { s with stage := .check s.names }
  | .stop timedOut [] told =>
    if s.areFree told then { s with stage := .ended (.ok ⟨timedOut, failedNodes s.graph⟩) } else s
  | .stop _ (_ :: _) _ => s
  | .ended _ => s

/-- Tells a node to stop that is still to be told. -/
def tellStop (s : Scenario) (name : NodeName) : Scenario :=
  match s.stage with
  | .undo e pending told =>
    if name ∈ pending then
      { s.withNode name fun n fabric => (n.beginStop, fabric) with
        stage := .undo e (pending.erase name) (name :: told) }
    else s
  | .stop timedOut pending told =>
    if name ∈ pending then
      { s.withNode name fun n fabric => (n.beginStop, fabric) with
        stage := .stop timedOut (pending.erase name) (name :: told) }
    else s
  | _ => s

def step (s : Scenario) : Move → Scenario
  | .thread name thread moment => s.withNode name fun n fabric => n.threadStep moment thread fabric
  | .call name => s.withNode name fun n fabric => n.callStep fabric
  | .run => s.advance
  | .tellStop name => s.tellStop name
  | .answer met =>
    match s.termination, s.stage with
    | .other, .check _ => { s with stage := if met then .stop false s.names [] else .pause }
    | _, _ => s
  | .expire =>
    match s.stage with
    | .pause => { s with stage := .stop true s.names [] }
    | _ => s
  | .deliver index => { s with fleet := s.fleet.deliver index }
  | .lose index => { s with fleet := s.fleet.lose index }

end Scenario

end RegionNet
