import RegionNet.Node.Basic
import RegionNet.Vertex.Document

/-!
What an outside caller does to a node: `beginStart`, `beginStop` and `beginMove` take the first step
of a call, `callStep` each further one. A caller that waits for a thread stays where it is until the
thread has ended.
-/

namespace RegionNet.Node

variable {ν : Type} [Network ν]

/-- A start ends with its result. -/
def answerStart (n : Node) (result : Except LifecycleError Unit) : Node :=
  { n with call := none, startResult := result }

/-- A running node is not started again. A thread that is left from before is taken to be reaped. -/
def beginStart (n : Node) : Node :=
  if n.control.running then n.answerStart (.error (.alreadyExecuting n.name))
  else
    { n with
      control := { n.control with handle := none }
      call := some (match n.control.handle with
        | some thread => .reap thread
        | none => .launch) }

/-- Does a stop have to run its hook and stop the network? An earlier stop already did, unless the
node is running or failed. -/
def stopSignals (n : Node) : Bool :=
  n.control.running || n.control.state == .failed

def beginStop (n : Node) : Node :=
  if n.control.running || n.control.handle.isSome then
    { n.emit (.stopRequested n.control.running) with
      control := { n.control with running := false, handle := none }
      call := some (if n.stopSignals then .stopHook n.control.handle
        else .stopJoin n.control.handle) }
  else n

/-- The node is in the new region from the first step of a move on. -/
def beginMove (n : Node) (region : RegionName) : Node :=
  { n with vertex := { n.vertex with region := region }, call := some (.dropReport region) }

/-- Starts the network and then a new thread. -/
def launch (n : Node) (net : ν) : Node × ν :=
  if n.control.running || n.control.handle.isSome then
    (n.answerStart (.error (.alreadyExecuting n.name)), net)
  else
    match Network.start n.vertex net with
    | .error cause =>
      ((n.emit .networkStart).answerStart (.error (.network n.name cause)), net)
    | .ok net' =>
      let launched := (n.emit .networkStart).emit (.launched n.spawned)
      ({ (launched.proceed n.spawned .loopTest).answerStart (.ok ()) with
          control := ⟨true, some n.spawned, .running⟩
          spawned := n.spawned + 1
          lastError := none },
        net')

/-- The state after a stop: a failure stays visible. -/
def settledState : LifecycleState → LifecycleState
  | .failed => .failed
  | _ => .stopped

/-- The next step of the call in progress. -/
def callStep (n : Node) (net : ν) : Node × ν :=
  match n.call with
  | none => (n, net)
  | some (.reap thread) =>
    ({ n.emit .networkStop with call := some (.reapJoin thread) }, Network.stop n.vertex net)
  | some (.reapJoin thread) =>
    (if n.isLive thread then n else { n with call := some .launch }, net)
  | some .launch => n.launch net
  | some (.stopHook thread) => ({ n.emit .preStop with call := some (.stopNetwork thread) }, net)
  | some (.stopNetwork thread) =>
    ({ n.emit .networkStop with call := some (.stopJoin thread) }, Network.stop n.vertex net)
  | some (.stopJoin thread) =>
    (if thread.any n.isLive then n else { n with call := some .settle }, net)
  | some .settle =>
    ({ n with control := { n.control with state := settledState n.control.state }, call := none },
      net)
  | some (.dropReport region) =>
    ({ n with latestReport := none, call := some (.resetView region) }, net)
  | some (.resetView region) =>
    ({ n with regionView := RegionView.new region, call := some .clearNetwork }, net)
  | some .clearNetwork =>
    ({ n.emit .clearNeighbors with call := none }, Network.clear n.vertex net)

/-- A move with nothing in between. -/
def setRegion (n : Node) (region : RegionName) (net : ν) : Node × ν :=
  let (n, net) := (n.beginMove region).callStep net
  let (n, net) := n.callStep net
  n.callStep net

def setPool (n : Node) (isPool : Bool) : Node :=
  { n with vertex := { n.vertex with isPool := isPool } }

/-- Does to the node what its configuration document says: it moves if a region is named, and a pool
flag is taken over if there is one. -/
def applyDocument (n : Node) (document : Json) (net : ν) : Node × ν :=
  let (n, net) :=
    match Vertex.regionOf document with
    | some region => n.setRegion region net
    | none => (n, net)
  (if (document.field? Vertex.poolKey).isSome then n.setPool (Vertex.poolOf document) else n, net)

end RegionNet.Node
