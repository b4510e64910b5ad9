import RegionNet.Node.Basic

/-!
What the execution thread of a node does, one phase at a time.

The running flag is read before every cycle, after the first hook, after the engine, after the
report is kept and after every sleep. A test that finds the flag cleared ends the cycle, and the
thread ends after the sleep. An error ends the cycle at once: it is kept, the node is marked as
failed, and the thread ends.
-/

namespace RegionNet

/-- What a hook or the engine may do beside its work. -/
inductive Act
  /-- It stops its own node. -/
  | stop
  /-- It starts its own node, which is always refused. -/
  | start
  /-- It crashes, with a text or with something that is none. -/
  | crash (text : Option String)
  /-- The engine returns an error. A hook cannot. -/
  | fail (message : String)
deriving DecidableEq, Repr

/-- What the world supplies to one step of a thread. -/
structure Moment where
  now : Timestamp
  acts : List Act
deriving DecidableEq, Repr

namespace Node

variable {ν : Type} [Network ν]

/-- A stop by the thread of the node. It cannot wait for itself, so the thread stays registered and
the next start or stop waits for it. -/
def stopItself (n : Node) (net : ν) : Node × ν :=
  if n.control.running || n.control.handle.isSome then
    let signals := n.control.running || n.control.state == .failed
    let requested := n.emit (.stopRequested n.control.running)
    let stopped := { n.control with
      running := false
      state := if n.control.state = .failed then .failed else .stopped }
    if signals then
      ({ (requested.emit .preStop).emit .networkStop with control := stopped },
        Network.stop n.vertex net)
    else ({ requested with control := stopped }, net)
  else (n, net)

/-- The text of a crash that carries none. -/
def unknownCrash : String := "unknown panic"

/-- Performs acts in order, up to the first that ends the cycle with an error. -/
def perform (point : Point) (n : Node) (net : ν) : List Act → Node × ν × Option EngineError
  | [] => (n, net, none)
  | .stop :: rest =>
    let (n, net) := n.stopItself net
    perform point (n.emit (.stoppedItself point)) net rest
  | .start :: rest => perform point (n.emit (.startedItself (.alreadyExecuting n.name))) net rest
  | .crash text :: _ => (n, net, some (.crashed n.name (text.getD unknownCrash)))
  | .fail message :: rest =>
    if point = .engine then (n, net, some (.failed n.name message))
    else perform point n net rest

/-- Runs a hook, and goes on to `next` unless the hook crashes. -/
def runHook (point : Point) (event : Event) (next : Phase) (m : Moment) (thread : ThreadId)
    (n : Node) (net : ν) : Node × ν :=
  match perform point (n.emit event) net m.acts with
  | (n, net, none) => (n.proceed thread next, net)
  | (n, net, some error) => (n.proceed thread (.recordError error), net)

/-- One round of the engine: the heartbeat reads what is known of the neighbors and shares its
counts under the number of the cycle. -/
def runEngine (m : Moment) (thread : ThreadId) (n : Node) (net : ν) : Node × ν :=
  match perform .engine (n.emit (.engineCalled m.now)) net m.acts with
  | (n, net, some error) => (n.proceed thread (.recordError error), net)
  | (n, net, none) =>
    let states := Network.states n.vertex net
    let heartbeat := n.heartbeat.beat states
    let round := UInt64.ofNat (n.completedCycles + 1)
    let n := (((n.emit (.engineRead states)).emit (.share round heartbeat.shared)).emit
      (.beat heartbeat)).emit .engineReturned
    ({ n with heartbeat := heartbeat }.proceed thread .increment,
      Network.share n.vertex round heartbeat.shared net)

/-- Goes on to `next` if the node is running, and to `otherwise` if it was stopped. -/
def test (n : Node) (thread : ThreadId) (next otherwise : Phase) : Node :=
  n.proceed thread (if n.control.running then next else otherwise)

/-- The next step of a thread, which does nothing if the thread has ended. -/
def threadStep (m : Moment) (thread : ThreadId) (n : Node) (net : ν) : Node × ν :=
  match n.threads.get? thread with
  | none => (n, net)
  | some .loopTest =>
    (if n.control.running then n.proceed thread .preHook else n.exit thread, net)
  | some .preHook => runHook .pre .preCycle .preTest m thread n net
  | some .preTest => (n.test thread .beginCycle .sleep, net)
  | some .beginCycle =>
    ((n.emit .beginCycle).proceed thread .engine, Network.beginCycle n.vertex net)
  | some .engine => runEngine m thread n net
  | some .increment =>
    ({ n with completedCycles := n.completedCycles + 1 }.proceed thread .countTest, net)
  | some .countTest => (n.test thread .buildReport .sleep, net)
  | some .buildReport => (n.proceed thread (.storeReport (n.report m.now n.window)), net)
  | some (.storeReport report) =>
    ({ n.emit .reportStored with latestReport := some report }.proceed thread .storeTest, net)
  | some .storeTest => (n.test thread .postHook .sleep, net)
  | some .postHook => runHook .post .postCycle .sleep m thread n net
  | some .sleep =>
    (if n.control.running then n.proceed thread .loopTest else n.exit thread, net)
  | some (.recordError error) =>
    ({ n with lastError := some error }.proceed thread .markFailed, net)
  | some .markFailed =>
    ({ n with control := { n.control with running := false, state := .failed } }.exit thread, net)

end Node

end RegionNet
