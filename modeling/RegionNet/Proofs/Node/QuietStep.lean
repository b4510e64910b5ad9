import RegionNet.Node.Thread
import RegionNet.Proofs.SortedMap.Lookup

/-!
# What a thread does on its own

As long as hooks and engine do nothing beside their work, a step of a thread is determined by its
phase and by the running flag: where the thread goes next, that the counter of cycles goes up after
the engine, and that a report is kept after it was built. Nothing else of the node that others can
see changes, and no error arises.
-/

namespace RegionNet

/-- The phase after a quiet step, if the thread goes on. A report that is built is the one given. -/
def Phase.next (running : Bool) (report : Report Float) : Phase → Option Phase
  | .loopTest => if running then some .preHook else none
  | .preHook => some .preTest
  | .preTest => some (if running then .beginCycle else .sleep)
  | .beginCycle => some .engine
  | .engine => some .increment
  | .increment => some .countTest
  | .countTest => some (if running then .buildReport else .sleep)
  | .buildReport => some (.storeReport report)
  | .storeReport _ => some .storeTest
  | .storeTest => some (if running then .postHook else .sleep)
  | .postHook => some .sleep
  | .sleep => if running then some .loopTest else none
  | .recordError _ => some .markFailed
  | .markFailed => none

/-- Is the thread in its cycle, and not on its way out after an error? -/
def Phase.isCalm : Phase → Bool
  | .recordError _ => false
  | .markFailed => false
  | _ => true

theorem Phase.isCalm_next (running : Bool) (report : Report Float) (phase phase' : Phase)
    (calm : phase.isCalm = true) (next : phase.next running report = some phase') :
    phase'.isCalm = true := by
  cases phase with
  | recordError => cases calm
  | markFailed => cases calm
  | _ =>
    cases running <;> cases next <;> rfl

namespace Node

/-- A quiet step of a thread, said of everything that others can see of the node. -/
structure QuietStep (report : Report Float) (thread : ThreadId) (phase : Phase) (n n' : Node) :
    Prop where
  vertex : n'.vertex = n.vertex
  resources : n'.resources = n.resources
  window : n'.window = n.window
  control : n'.control = n.control
  call : n'.call = n.call
  startResult : n'.startResult = n.startResult
  threads : ∀ t, n'.threads.get? t =
    if t = thread then phase.next n.control.running report else n.threads.get? t
  completedCycles : n'.completedCycles =
    if phase = .increment then n.completedCycles + 1 else n.completedCycles
  latestReport : n'.latestReport =
    match phase with
    | .storeReport r => some r
    | _ => n.latestReport

theorem get?_proceed (n : Node) (thread t : ThreadId) (phase : Phase) :
    (n.proceed thread phase).threads.get? t =
      if t = thread then some phase else n.threads.get? t :=
  SortedMap.get?_insert n.threads thread t phase

theorem get?_exit (n : Node) (thread t : ThreadId) :
    (n.exit thread).threads.get? t = if t = thread then none else n.threads.get? t :=
  SortedMap.get?_erase n.threads thread t

theorem isLive_iff (n : Node) (t : ThreadId) :
    n.isLive t = true ↔ ∃ phase, n.threads.get? t = some phase :=
  SortedMap.contains_iff n.threads t

theorem isLive_proceed (n : Node) (thread t : ThreadId) (phase : Phase) :
    (n.proceed thread phase).isLive t = true ↔ t = thread ∨ n.isLive t = true := by
  simp only [isLive_iff, get?_proceed]
  split
  next same => simp [same]
  next differ => simp [differ]

theorem isLive_exit (n : Node) (thread t : ThreadId) :
    (n.exit thread).isLive t = true ↔ t ≠ thread ∧ n.isLive t = true := by
  simp only [isLive_iff, get?_exit]
  split
  next same => simp [same]
  next differ => simp [differ]

variable {ν : Type} [Network ν]

theorem threadStep_of_missing (m : Moment) (thread : ThreadId) (n : Node) (net : ν)
    (missing : n.threads.get? thread = none) : n.threadStep m thread net = (n, net) := by
  simp [threadStep, missing]

/-- A round of the engine counts what was heard and sends the thread on. -/
theorem runEngine_quiet (now : Timestamp) (thread : ThreadId) (n : Node) (net : ν) :
    ∃ heartbeat log, (runEngine ⟨now, []⟩ thread n net).1 =
      { n with heartbeat := heartbeat, log := log }.proceed thread .increment := by
  refine ⟨n.heartbeat.beat (Network.states n.vertex net),
    (runEngine ⟨now, []⟩ thread n net).1.log, ?_⟩
  simp only [runEngine, perform, emit, proceed]

theorem quietStep (now : Timestamp) (thread : ThreadId) (phase : Phase) (n : Node) (net : ν)
    (present : n.threads.get? thread = some phase) (calm : phase.isCalm = true) :
    QuietStep (n.report now n.window) thread phase n (n.threadStep ⟨now, []⟩ thread net).1 := by
  cases phase with
  | recordError => cases calm
  | markFailed => cases calm
  | loopTest =>
    cases running : n.control.running <;>
      simp only [threadStep, present, running] <;>
      exact ⟨rfl, rfl, rfl, rfl, rfl, rfl, by simp [get?_proceed, get?_exit, Phase.next, running],
        rfl, rfl⟩
  | sleep =>
    cases running : n.control.running <;>
      simp only [threadStep, present, running] <;>
      exact ⟨rfl, rfl, rfl, rfl, rfl, rfl, by simp [get?_proceed, get?_exit, Phase.next, running],
        rfl, rfl⟩
  | engine =>
    obtain ⟨heartbeat, log, engine⟩ := runEngine_quiet now thread n net
    simp only [threadStep, present, engine]
    exact ⟨rfl, rfl, rfl, rfl, rfl, rfl, fun t => get?_proceed _ thread t _, rfl, rfl⟩
  | _ =>
    simp only [threadStep, present]
    exact ⟨rfl, rfl, rfl, rfl, rfl, rfl, fun t => get?_proceed _ thread t _, rfl, rfl⟩

end Node

end RegionNet
