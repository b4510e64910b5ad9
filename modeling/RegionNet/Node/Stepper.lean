import RegionNet.Network.StandIn
import RegionNet.Node.Call
import RegionNet.Node.Thread

/-!
A node that is driven one cycle at a time, on a stand-in network.

Its hook before the cycle waits at a gate. `step` lets one cycle through, with a script of what
hooks and engine do in it; a stop opens the gate too, and the cycle that it lets through is silent,
since it ends at its first test. Between two operations the thread waits at the gate, sleeps or has
ended.
-/

namespace RegionNet

/-- What hooks and engine do in one cycle. -/
structure Script where
  pre : List Act
  engine : List Act
  post : List Act
deriving Inhabited

def Script.quiet : Script := ⟨[], [], []⟩

/-- The acts that fall into a phase. -/
def Script.acts (s : Script) : Phase → List Act
  | .preHook => s.pre
  | .engine => s.engine
  | .postHook => s.post
  | _ => []

structure Stepper where
  node : Node
  network : StandIn
  clock : Timestamp
  /-- Does the node sleep until it is stopped? -/
  sleepsLong : Bool

namespace Stepper

/-- A thread takes fewer steps than this from one wait to the next. -/
def longestCycle : Nat := 20

/-- Does a thread wait in this phase? -/
def waitsIn (s : Stepper) : Phase → Bool
  | .preHook => true
  | .sleep => s.sleepsLong && s.node.control.running
  | _ => false

def threadStep (s : Stepper) (script : Script) (thread : ThreadId) (phase : Phase) : Stepper :=
  let (node, network) := s.node.threadStep ⟨s.clock, script.acts phase⟩ thread s.network
  { s with node := node, network := network }

/-- The first thread that is alive, with its phase. -/
def thread? (s : Stepper) : Option (ThreadId × Phase) :=
  s.node.threads.entries.head?

/-- Lets the thread go on until it waits or has ended. -/
def settle (s : Stepper) (script : Script) : Nat → Stepper
  | 0 => s
  | fuel + 1 =>
    match s.thread? with
    | none => s
    | some (thread, phase) =>
      if s.waitsIn phase then s else (s.threadStep script thread phase).settle script fuel

/-- Lets the thread go on to its end, past the gate, after the node was told to stop. -/
def finish (s : Stepper) : Nat → Stepper
  | 0 => s
  | fuel + 1 =>
    match s.thread? with
    | none => s
    | some (thread, phase) => (s.threadStep Script.quiet thread phase).finish fuel

/-- Makes the caller go on for some steps, or until its call has ended. -/
def callSteps (s : Stepper) : Nat → Stepper
  | 0 => s
  | fuel + 1 =>
    match s.node.call with
    | none => s
    | some _ =>
      let (node, network) := s.node.callStep s.network
      { s with node := node, network := network }.callSteps fuel

/-- A call takes fewer steps than this. -/
def longestCall : Nat := 6

/-- Completes the call in progress. A thread that it waits for goes on to its end without a word. -/
def complete (s : Stepper) : Stepper :=
  let waiting := s.callSteps longestCall
  if waiting.node.call.isNone then waiting
  else
    let ended := waiting.finish longestCycle
    { ended with node := { ended.node with log := waiting.node.log } }.callSteps longestCall

def start (s : Stepper) : Except LifecycleError Unit × Stepper :=
  let s := { s with node := s.node.beginStart }.complete
  (s.node.startResult, s.settle Script.quiet longestCycle)

def stop (s : Stepper) : Stepper :=
  { s with node := s.node.beginStop }.complete

/-- Lets one cycle through the gate, and says whether a thread waited there. -/
def step (s : Stepper) (script : Script) : Bool × Stepper :=
  match s.thread? with
  | some (thread, .preHook) =>
    (true, (s.threadStep script thread .preHook).settle script longestCycle)
  | _ => (false, s)

def setRegion (s : Stepper) (region : RegionName) : Stepper :=
  let (node, network) := s.node.setRegion region s.network
  { s with node := node, network := network }

def applyDocument (s : Stepper) (document : Json) : Stepper :=
  let (node, network) := s.node.applyDocument document s.network
  { s with node := node, network := network }

end Stepper

end RegionNet
