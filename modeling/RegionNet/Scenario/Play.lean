import RegionNet.Scenario

/-!
A run with a fixed order of moves: the nodes take turns, each with a whole cycle at a time, and
whatever was sent is delivered before the run looks whether it is done.
-/

namespace RegionNet

/-- An engine that works for some cycles and then ends with an error. -/
structure EngineFault where
  after : Nat
  message : String
  crashes : Bool
deriving DecidableEq, Repr, Inhabited

def EngineFault.act (f : EngineFault) : Act :=
  if f.crashes then .crash (some f.message) else .fail f.message

/-- What is given for a run: the time at its start, how far a cycle moves the time on, which engines
fail and how many cycles there is time for. -/
structure Plan where
  clock : Timestamp
  tick : Timestamp
  faults : SortedMap NodeName EngineFault
  patience : Option Nat

namespace Scenario

/-- A thread takes fewer steps than this in one cycle. -/
def longestCycle : Nat := 20

/-- A call takes fewer steps than this before it waits for a thread, and after it. -/
def longestCall : Nat := 6

/-- What the engine of a node does beside its work in its next cycle. -/
def engineActs (plan : Plan) (n : Node) : List Act :=
  match plan.faults.get? n.name, n.threads.values with
  | some fault, [.engine] => if fault.after ≤ n.heartbeat.round then [fault.act] else []
  | _, _ => []

/-- One step of every live thread of a node. -/
def threadTurn (plan : Plan) (now : Timestamp) (s : Scenario) (name : NodeName) : Scenario :=
  match s.graph.nodes.get? name with
  | none => s
  | some n =>
    n.threads.keys.foldl
      (fun s thread => s.step (.thread name thread ⟨now, engineActs plan n⟩)) s

/-- Is a live thread of the node anywhere but asleep? -/
def isBusy (s : Scenario) (name : NodeName) : Bool :=
  (s.graph.nodes.get? name).any fun n => n.threads.values.any (· ≠ .sleep)

/-- Lets a node go on until it sleeps or has ended. -/
def goOn (plan : Plan) (now : Timestamp) (name : NodeName) : Nat → Scenario → Scenario
  | 0, s => s
  | fuel + 1, s =>
    if s.isBusy name then goOn plan now name fuel (s.threadTurn plan now name) else s

/-- Wakes a node and lets it go on until it sleeps again or has ended. -/
def cycle (plan : Plan) (now : Timestamp) (s : Scenario) (name : NodeName) : Scenario :=
  goOn plan now name longestCycle (s.threadTurn plan now name)

def deliverAll (s : Scenario) : Scenario :=
  { s with fleet := s.fleet.deliverAll }

/-- One cycle of every node, one after the other. -/
def round (plan : Plan) (now : Timestamp) (s : Scenario) : Scenario :=
  (s.names.foldl (cycle plan now) s).deliverAll

def callSteps (name : NodeName) (s : Scenario) : Scenario :=
  (List.range longestCall).foldl (fun s _ => s.step (.call name)) s

/-- Completes the call in progress at a node, whose threads go on to their end if it waits for
one. -/
def completeCall (plan : Plan) (now : Timestamp) (s : Scenario) (name : NodeName) : Scenario :=
  let waiting := s.callSteps name
  if waiting.areFree [name] then waiting else (waiting.cycle plan now name).callSteps name

/-- Stops the nodes that are still to be told. -/
def stopNodes (plan : Plan) (now : Timestamp) (s : Scenario) (nodes : List NodeName) : Scenario :=
  nodes.foldl (fun s name => (s.step (.tellStop name)).completeCall plan now name) s

/-- Goes on with the run until it has ended. `rounds` counts the cycles so far. -/
def playFrom (plan : Plan) : Nat → Nat → Scenario → Scenario
  | 0, _, s => s
  | fuel + 1, rounds, s =>
    let now := plan.clock + plan.tick * Int64.ofNat rounds
    match s.stage with
    | .ended _ => s
    | .pause =>
      if plan.patience.any (· ≤ rounds) then playFrom plan fuel rounds (s.step .expire)
      else playFrom plan fuel (rounds + 1) ((s.round plan now).step .run)
    | .undo _ pending _ => playFrom plan fuel rounds ((s.stopNodes plan now pending).step .run)
    | .stop _ pending _ => playFrom plan fuel rounds ((s.stopNodes plan now pending).step .run)
    | .starting _ name _ => playFrom plan fuel rounds ((s.completeCall plan now name).step .run)
    | _ => playFrom plan fuel rounds (s.step .run)

/-- The number of cycles after which a run is over. -/
def longestRun (plan : Plan) : Termination → Nat
  | .completed minimum => plan.patience.elim minimum (min minimum)
  | _ => plan.patience.getD 0

/-- More steps than a run takes: two for each node at its start and in each look, and some more. -/
def playLength (plan : Plan) (s : Scenario) : Nat :=
  (longestRun plan s.termination + 3) * (2 * s.graph.nodes.size + 4)

/-- Plays a run from its beginning to its end. -/
def play (plan : Plan) (s : Scenario) : Scenario :=
  playFrom plan (s.playLength plan) 0 s

/-- Starts a node outside of a run. -/
def startNode (plan : Plan) (s : Scenario) (name : NodeName) : Scenario :=
  (s.withNode name fun n fabric => (n.beginStart, fabric)).completeCall plan plan.clock name

/-- The result of a run that has ended. -/
def result? (s : Scenario) : Option (Except LifecycleError Outcome) :=
  match s.stage with
  | .ended result => some result
  | _ => none

end Scenario

end RegionNet
