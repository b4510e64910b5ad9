import RegionNet.Proofs.Node.Failures
import RegionNet.Scenario

/-!
# The part of a node in a run

A run starts a node, looks at it now and then, and tells it to stop; its thread goes on meanwhile
and may fail at any time. In each of these parts the node answers for its latest execution, and a
node of which nothing more is asked stays so until it is started again.
-/

namespace RegionNet

namespace Node

section

variable {ν : Type} [Network ν]

/-- What a step of a thread changes of a node that no hook and no engine stops. What the lock guards
is written by a failure only. -/
structure ThreadFrame (n n' : Node) : Prop where
  call : n'.call = n.call
  startResult : n'.startResult = n.startResult
  control : n'.control = n.control ∨ n'.control = ⟨false, n.control.handle, .failed⟩

theorem threadStep_frame [LawfulNetwork ν] (m : Moment) (unstopped : .stop ∉ m.acts)
    (thread : ThreadId) (n : Node) (net : ν) : ThreadFrame n (n.threadStep m thread net).1 := by
  cases present : n.threads.get? thread with
  | none =>
    rw [threadStep_of_missing m thread n net present]
    exact ⟨rfl, rfl, .inl rfl⟩
  | some phase =>
    obtain ⟨log, outcome⟩ := threadStep_unstopped m thread n net present unstopped
    generalize (n.threadStep m thread net).1 = n' at outcome
    cases outcome with
    | fails => exact ⟨rfl, rfl, .inr rfl⟩
    | _ => exact ⟨rfl, rfl, .inl rfl⟩

/-- The latest execution stands at the error that its thread has met. -/
def Answers (met : ThreadId → EngineError → Prop) (n : Node) : Prop :=
  ∃ error, n.Latest error ∧ ∀ e, error = some e ↔ met (n.spawned - 1) e

/-- The node was started and not told to stop. It runs unless it has failed. -/
structure Runs (met : ThreadId → EngineError → Prop) (n : Node) : Prop where
  free : n.call = none
  executes : n.control.running = true ∨ n.control.state = .failed
  answers : n.Answers met

/-- The node was told to start, and the start is in progress or has returned. -/
inductive Starts (met : ThreadId → EngineError → Prop) (n : Node) : Prop
  | waiting (c : Call) (calls : n.call = some c) (isStart : c.isStart = true) : Starts met n
  | returned (free : n.call = none) (started : n.startResult = .ok () → n.Runs met) : Starts met n

/-- The node was started and told to stop, and the stop is in progress or has returned. -/
structure Stops (met : ThreadId → EngineError → Prop) (n : Node) : Prop where
  calls : ∀ c, n.call = some c → c.isStop = true
  stopped : n.control.running = false
  taken : n.control.handle = none
  answers : n.Answers met

/-- Nothing more is asked of the node. -/
def Done (minimum : Nat) (n : Node) : Prop :=
  n.control.state = .failed ∨ minimum ≤ n.completedCycles

variable {met : ThreadId → EngineError → Prop} {n n' : Node}

/-- A node that runs is seen to execute. -/
theorem Runs.failed_of_resting {net : ν} (runs : n.Runs met) (sane : Agent.Sane ⟨n, net⟩)
    (resting : n.isExecuting = false) : n.control.state = .failed := by
  refine runs.executes.resolve_left fun running => ?_
  cases resting.symm.trans (sane.isExecuting running)

/-! ### Steps of the thread -/

section

variable [LawfulNetwork ν] (m : Moment) (unstopped : .stop ∉ m.acts) (thread : ThreadId) (net : ν)
include unstopped

omit unstopped in
theorem Answers.threadStep (answers : n.Answers met) :
    (n.threadStep m thread net).1.Answers (n.metBy met thread m) := by
  obtain ⟨error, latest, known⟩ := answers
  obtain ⟨error', latest', meets⟩ := latest.threadStep m thread net
  refine ⟨error', latest', fun e => ?_⟩
  rw [meets, known, (threadStep_live m thread n net).1, metBy]
  -- whatever is met in this step is met by the latest thread, as no other one is alive
  refine or_congr_right ⟨fun met => ⟨?_, met⟩, And.right⟩
  obtain ⟨phase, _, present, _⟩ := met
  have last := latest.spawned_of_live present
  rw [← last]
  rfl

theorem Runs.threadStep (runs : n.Runs met) :
    (n.threadStep m thread net).1.Runs (n.metBy met thread m) where
  free := (threadStep_frame m unstopped thread n net).call.trans runs.free
  executes := by
    rcases (threadStep_frame m unstopped thread n net).control with same | failed
    · rw [same]
      exact runs.executes
    · exact .inr (by rw [failed])
  answers := runs.answers.threadStep m thread net

theorem Starts.threadStep (starts : n.Starts met) :
    (n.threadStep m thread net).1.Starts (n.metBy met thread m) := by
  have frame := threadStep_frame m unstopped thread n net
  cases starts with
  | waiting c calls isStart => exact .waiting c (frame.call.trans calls) isStart
  | returned free started =>
    refine .returned (frame.call.trans free) fun result => ?_
    rw [frame.startResult] at result
    exact (started result).threadStep m unstopped thread net

theorem Stops.threadStep (stops : n.Stops met) :
    (n.threadStep m thread net).1.Stops (n.metBy met thread m) := by
  have frame := threadStep_frame m unstopped thread n net
  -- a failure during the stop clears the flag once more, and leaves the handle with the caller
  have lock : (n.threadStep m thread net).1.control.running = false ∧
      (n.threadStep m thread net).1.control.handle = none := by
    rcases frame.control with same | failed
    · rw [same]
      exact ⟨stops.stopped, stops.taken⟩
    · rw [failed]
      exact ⟨rfl, stops.taken⟩
  exact ⟨frame.call ▸ stops.calls, lock.1, lock.2,
    stops.answers.threadStep m thread net⟩

theorem Done.threadStep {minimum : Nat} (done : n.Done minimum) :
    (n.threadStep m thread net).1.Done minimum := by
  rcases done with failed | enough
  · left
    rcases (threadStep_frame m unstopped thread n net).control with same | failed'
    · rw [same]
      exact failed
    · rw [failed']
  · exact .inr (Nat.le_trans enough (n.completedCycles_le_threadStep net m thread))

end

/-! ### Steps of the calls -/

/-- A stop settles the state, and changes nothing else of the latest execution. -/
theorem Answers.of_same (answers : n.Answers met)
    (state : n'.control.state = n.control.state ∨
      n'.control.state = settledState n.control.state)
    (lastError : n'.lastError = n.lastError) (threads : n'.threads = n.threads)
    (spawned : n'.spawned = n.spawned) : n'.Answers met := by
  obtain ⟨error, latest, known⟩ := answers
  refine ⟨error, latest.of_same state lastError threads spawned, fun e => ?_⟩
  rw [known, spawned]

/-- The new thread has met no error, and no other one is alive. -/
theorem runs_launched (numbered : n.Numbered met) (dead : ∀ t, n.isLive t = false) :
    n.launched.Runs met where
  free := rfl
  executes := .inl rfl
  answers := by
    have unmet (e : EngineError) : ¬ met n.spawned e := fun known =>
      Nat.lt_irrefl _ (numbered.met _ e known)
    exact ⟨none, .launched dead,
      fun e => ⟨fun none => (by cases none), fun known => absurd known (unmet e)⟩⟩

theorem starts_beginStart : n.beginStart.Starts met := by
  simp only [Node.beginStart]
  split
  · exact .returned rfl fun started => by cases started
  · cases n.control.handle with
    | some thread => exact .waiting (.reap thread) rfl rfl
    | none => exact .waiting .launch rfl rfl

theorem Starts.callStep {net : ν} (starts : n.Starts met) (numbered : n.Numbered met)
    (sane : Agent.Sane ⟨n, net⟩) : (n.callStep net).1.Starts met := by
  cases starts with
  | returned free started =>
    rw [n.callStep_of_free net free]
    exact .returned free started
  | waiting c calls isStart =>
    obtain ⟨stopped, taken⟩ := sane.busy c calls
    cases c with
    | reap thread =>
      simp only [Node.callStep, calls]
      exact .waiting _ rfl rfl
    | reapJoin thread =>
      simp only [Node.callStep, calls]
      split
      · exact .waiting _ calls rfl
      · exact .waiting _ rfl rfl
    | launch =>
      simp only [Node.callStep, calls]
      rcases n.launch_of_taken net stopped taken with ⟨cause, _, launch⟩ | ⟨net', _, launch⟩
      · rw [launch]
        exact .returned rfl fun started => by cases started
      · rw [launch]
        exact .returned rfl fun _ => runs_launched numbered (sane.dead_of_launch calls)
    | _ => cases isStart

theorem Runs.beginStop (runs : n.Runs met) : n.beginStop.Stops met := by
  simp only [Node.beginStop]
  split
  · refine ⟨fun c calls => ?_, rfl, rfl, runs.answers.of_same (.inl rfl) rfl rfl rfl⟩
    cases calls
    split <;> rfl
  next idle =>
    -- there is nothing to stop any more
    simp only [Bool.or_eq_true, not_or, Bool.not_eq_true, Option.isSome_eq_false_iff,
      Option.isNone_iff_eq_none] at idle
    refine ⟨fun c calls => ?_, idle.1, idle.2, runs.answers⟩
    cases runs.free.symm.trans calls

theorem Stops.callStep (stops : n.Stops met) (net : ν) : (n.callStep net).1.Stops met := by
  have same := stops.answers
  cases calls : n.call with
  | none =>
    rw [n.callStep_of_free net calls]
    exact stops
  | some c =>
    have isStop := stops.calls c calls
    cases c with
    | stopHook thread | stopNetwork thread =>
      simp only [Node.callStep, calls]
      exact ⟨by simp [Call.isStop], stops.stopped, stops.taken, same.of_same (.inl rfl) rfl rfl rfl⟩
    | stopJoin thread =>
      simp only [Node.callStep, calls]
      split
      · exact stops
      · exact ⟨by simp [Call.isStop], stops.stopped, stops.taken,
          same.of_same (.inl rfl) rfl rfl rfl⟩
    | settle =>
      simp only [Node.callStep, calls]
      exact ⟨by simp, stops.stopped, stops.taken, same.of_same (.inr rfl) rfl rfl rfl⟩
    | _ => cases isStop

theorem Done.beginStop {minimum : Nat} (done : n.Done minimum) : n.beginStop.Done minimum := by
  simp only [Node.beginStop]
  split <;> exact done

theorem Done.callStep {minimum : Nat} (done : n.Done minimum)
    (isStop : ∀ c, n.call = some c → c.isStop = true) (net : ν) :
    (n.callStep net).1.Done minimum := by
  rcases done with failed | enough
  · left
    cases calls : n.call with
    | none =>
      rw [n.callStep_of_free net calls]
      exact failed
    | some c =>
      have isStop := isStop c calls
      cases c with
      | stopHook thread | stopNetwork thread =>
        simp only [Node.callStep, calls]
        exact failed
      | stopJoin thread =>
        simp only [Node.callStep, calls]
        split <;> exact failed
      | settle =>
        simp only [Node.callStep, calls]
        exact settledState_eq_failed_iff.2 failed
      | _ => cases isStop
  · right
    rw [completedCycles_callStep]
    exact enough

/-- A node that was told to stop, when the stop has returned. -/
structure Rests (met : ThreadId → EngineError → Prop) (n : Node) : Prop where
  stopped : n.control.running = false
  dead : ∀ t, n.isLive t = false
  settled : n.control.state = .stopped ∨ n.control.state = .failed
  failed_iff : n.control.state = .failed ↔ n.lastError.isSome = true
  lastError_iff : ∀ e, n.lastError = some e ↔ met (n.spawned - 1) e

theorem Stops.rests {net : ν} (stops : n.Stops met) (free : n.call = none)
    (sane : Agent.Sane ⟨n, net⟩) : n.Rests met := by
  have returned := Agent.StopReturned.of_sane sane free stops.stopped stops.taken
  have dead : ∀ t, n.isLive t = false := returned.dead
  have gone (t : ThreadId) : n.threads.get? t = none := by
    have dead := dead t
    rwa [isLive, SortedMap.contains, Option.isSome_eq_false_iff, Option.isNone_iff_eq_none] at dead
  have stopped (unfailed : n.Unfailed) : n.control.state = .stopped :=
    unfailed.resolve_left returned.settled
  obtain ⟨error, latest, known⟩ := stops.answers
  -- an error that was met is kept and marked by now, as the thread has ended
  cases latest with
  | sound unfailed unkept _ =>
    refine ⟨stops.stopped, dead, .inl (stopped unfailed), ?_, fun e => by rw [unkept, known]⟩
    rw [stopped unfailed, unkept]
    simp
  | met e t _ _ _ threads => cases (gone t).symm.trans ((threads t _).2 ⟨rfl, rfl⟩)
  | kept e t _ _ _ threads => cases (gone t).symm.trans ((threads t _).2 ⟨rfl, rfl⟩)
  | failed e failed kept _ =>
    exact ⟨stops.stopped, dead, .inr failed, by simp [failed, kept], fun e' => by rw [kept, known]⟩

end

end Node

/-! ### The parts -/

/-- What a run asks of a node at some time. `looked` says of a node that the run has looked at it and
asks nothing more. -/
inductive Part
  | waits
  | starts
  | runs (looked : Prop)
  | stops (looked : Prop)
  | rests (looked : Prop)
  /-- The run has failed, and what it asks of the node is not followed up here. -/
  | undone

namespace Part

def Holds (met : ThreadId → EngineError → Prop) (termination : Termination) (n : Node) :
    Part → Prop
  | waits => n.call = none
  | starts => n.Starts met
  | runs looked =>
    n.Runs met ∧ (looked → ∀ minimum, termination = .completed minimum → n.Done minimum)
  | stops looked =>
    n.Stops met ∧ (looked → ∀ minimum, termination = .completed minimum → n.Done minimum)
  | rests looked =>
    n.call = none ∧ n.Stops met ∧
      (looked → ∀ minimum, termination = .completed minimum → n.Done minimum)
  | undone => True

variable {met : ThreadId → EngineError → Prop} {termination : Termination} {n : Node} {part : Part}

/-- Whatever happens in a step of the thread, a stop by a hook or the engine apart, the node keeps
its part. -/
theorem Holds.threadStep (holds : part.Holds met termination n) (m : Moment)
    (unstopped : .stop ∉ m.acts) (thread : ThreadId) (fabric : Fabric) :
    part.Holds (n.metBy met thread m) termination (n.threadStep m thread fabric).1 := by
  have call := (Node.threadStep_frame m unstopped thread n fabric).call
  have done (looked : Prop)
      (done : looked → ∀ minimum, termination = .completed minimum → n.Done minimum) :
      looked → ∀ minimum, termination = .completed minimum →
        (n.threadStep m thread fabric).1.Done minimum :=
    fun seen minimum asked => (done seen minimum asked).threadStep m unstopped thread fabric
  cases part with
  | waits => exact call.trans holds
  | starts => exact Node.Starts.threadStep m unstopped thread fabric holds
  | runs looked => exact ⟨holds.1.threadStep m unstopped thread fabric, done looked holds.2⟩
  | stops looked => exact ⟨holds.1.threadStep m unstopped thread fabric, done looked holds.2⟩
  | rests looked =>
    exact ⟨call.trans holds.1, holds.2.1.threadStep m unstopped thread fabric,
      done looked holds.2.2⟩
  | undone => trivial

theorem Holds.callStep {fabric : Fabric} (holds : part.Holds met termination n)
    (numbered : n.Numbered met) (sane : Agent.Sane ⟨n, fabric⟩) :
    part.Holds met termination (n.callStep fabric).1 := by
  have idle (free : n.call = none) : part.Holds met termination (n.callStep fabric).1 := by
    rwa [n.callStep_of_free fabric free]
  cases part with
  | waits => exact idle holds
  | starts => exact Node.Starts.callStep holds numbered sane
  | runs looked => exact idle holds.1.free
  | stops looked =>
    exact ⟨holds.1.callStep fabric,
      fun seen minimum asked => (holds.2 seen minimum asked).callStep holds.1.calls fabric⟩
  | rests looked => exact idle holds.1
  | undone => trivial

end Part

end RegionNet
