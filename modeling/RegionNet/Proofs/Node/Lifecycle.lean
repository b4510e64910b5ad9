import RegionNet.Proofs.Node.ThreadOutcome
import RegionNet.Proofs.Node.Underway

/-!
# The life of a node

A node and its network live through starts and stops by an outside caller, stops by hooks and engine
on the thread of the node, errors and crashes, in every order and with every interleaving of the
steps of caller and thread; only the calls do not overlap each other. The running flag, the handle,
the state and the network change in different steps. What relates them is `Sane`: it says what holds
between calls, and how far it is suspended while a call is in progress.
-/

namespace RegionNet

def Call.isStart : Call → Bool
  | .reap _ => true
  | .reapJoin _ => true
  | .launch => true
  | _ => false

/-- The thread whose handle the caller took out. -/
def Call.thread : Call → Option ThreadId
  | .reap thread => some thread
  | .reapJoin thread => some thread
  | .stopHook thread => thread
  | .stopNetwork thread => thread
  | .stopJoin thread => thread
  | _ => none

/-- Is the call yet to stop the network? -/
def Call.stopsNetwork : Call → Bool
  | .reap _ => true
  | .stopHook _ => true
  | .stopNetwork _ => true
  | _ => false

def Act.isCall : Act → Bool
  | .stop => true
  | .start => true
  | _ => false

/-- Does the thread run a hook or the engine? -/
def Phase.hosts : Phase → Bool
  | .preHook => true
  | .engine => true
  | .postHook => true
  | _ => false

/-- A node with the network that it alone starts and stops. -/
structure Agent (ν : Type) where
  node : Node
  network : ν

namespace Node

/-- A stop by the thread itself changes only what the lock guards. -/
theorem stopItself_frame {ν : Type} [Network ν] (n : Node) (net : ν) :
    ∃ control log, (n.stopItself net).1 = { n with control := control, log := log } := by
  refine ⟨(n.stopItself net).1.control, (n.stopItself net).1.log, ?_⟩
  simp only [stopItself]
  split
  · split <;> rfl
  · rfl

theorem settledState_eq_failed_iff {state : LifecycleState} :
    settledState state = .failed ↔ state = .failed := by
  cases state <;> simp [settledState]

/-- The node right after its new thread was started. -/
def launched (n : Node) : Node :=
  { (((n.emit .networkStart).emit (.launched n.spawned)).proceed n.spawned .loopTest).answerStart
      (.ok ()) with
    control := ⟨true, some n.spawned, .running⟩
    spawned := n.spawned + 1
    lastError := none }

/-- The node right after its network did not start. -/
def unlaunched (n : Node) (cause : NetworkError) : Node :=
  (n.emit .networkStart).answerStart (.error (.network n.name cause))

/-- Once the flag is cleared and the handle is taken, a launch is not refused. -/
theorem launch_of_taken {ν : Type} [Network ν] (n : Node) (net : ν)
    (stopped : n.control.running = false) (taken : n.control.handle = none) :
    (∃ cause, Network.start n.vertex net = .error cause ∧
      n.launch net = (n.unlaunched cause, net)) ∨
    ∃ net', Network.start n.vertex net = .ok net' ∧ n.launch net = (n.launched, net') := by
  cases started : Network.start n.vertex net with
  | error cause => exact .inl ⟨cause, rfl, by simp [launch, stopped, taken, started, unlaunched]⟩
  | ok net' => exact .inr ⟨net', rfl, by simp [launch, stopped, taken, started, launched]⟩

/-- The thread that someone will wait for: whoever stops or starts the node next, or the caller
whose call is in progress. -/
def registered (n : Node) : Option ThreadId :=
  n.call.elim n.control.handle Call.thread

end Node

namespace Agent

variable {ν : Type} [Network ν]

def networkRuns (a : Agent ν) : Bool :=
  Network.isRunning a.node.vertex a.network

def beginStart (a : Agent ν) : Agent ν :=
  { a with node := a.node.beginStart }

def beginStop (a : Agent ν) : Agent ν :=
  { a with node := a.node.beginStop }

def callStep (a : Agent ν) : Agent ν :=
  let (node, network) := a.node.callStep a.network
  ⟨node, network⟩

def threadStep (m : Moment) (thread : ThreadId) (a : Agent ν) : Agent ν :=
  let (node, network) := a.node.threadStep m thread a.network
  ⟨node, network⟩

def stopItself (a : Agent ν) : Agent ν :=
  let (node, network) := a.node.stopItself a.network
  ⟨node, network⟩

/-- What can happen to a node next. A call begins when no other one is in progress, and so does a
call by a hook or by the engine. -/
inductive Step : Agent ν → Agent ν → Prop
  | start (a : Agent ν) (free : a.node.call = none) : Step a a.beginStart
  | stop (a : Agent ν) (free : a.node.call = none) : Step a a.beginStop
  /-- A hook or the engine stops the node and has not returned yet. -/
  | stopInside (a : Agent ν) (thread : ThreadId) (phase : Phase)
      (present : a.node.threads.get? thread = some phase) (hosts : phase.hosts = true)
      (free : a.node.call = none) : Step a a.stopItself
  | call (a : Agent ν) : Step a a.callStep
  | thread (a : Agent ν) (m : Moment) (thread : ThreadId)
      (apart : ∀ act ∈ m.acts, act.isCall = true → a.node.call = none) :
      Step a (a.threadStep m thread)
  /-- Neighbors send, and what they sent arrives. -/
  | traffic (a : Agent ν) (network : ν)
      (unswitched : Network.isRunning a.node.vertex network = a.networkRuns) :
      Step a { a with network := network }

inductive Reachable : Agent ν → Prop
  | new (vertex : Vertex) (resources : ResourceManager) (window : EstimationWindow) (network : ν)
      (stopped : Network.isRunning vertex network = false) :
      Reachable ⟨Node.new vertex resources window, network⟩
  | step {a b : Agent ν} (reachable : Reachable a) (step : Step a b) : Reachable b

structure Sane (a : Agent ν) : Prop where
  unmoved : ∀ c, a.node.call = some c → c.isMove = false
  /-- Whoever calls has taken the handle and cleared the flag. -/
  busy : ∀ c, a.node.call = some c →
    a.node.control.running = false ∧ a.node.control.handle = none
  registered : ∀ t, a.node.isLive t = true → a.node.registered = some t
  executing : a.node.control.running = true →
    a.node.control.state = .running ∧ a.networkRuns = true ∧
      ∃ t, a.node.control.handle = some t ∧ a.node.isLive t = true
  /-- A stop clears the flag in its first step and settles the state in its last one. -/
  unsettled : a.node.control.state = .running →
    a.node.control.running = true ∨ ∃ c, a.node.call = some c ∧ c.isStop = true
  /-- After a failure the network is left running until someone takes the handle. -/
  network : a.networkRuns = true →
    a.node.control.running = true ∨
      a.node.control.handle.isSome = true ∧ a.node.control.state = .failed ∨
      ∃ c, a.node.call = some c ∧ c.stopsNetwork = true
  explained : a.node.control.state = .failed → a.node.lastError.isSome = true
  /-- An error is kept before the failure is marked. -/
  marked : ∀ t, a.node.threads.get? t = some .markFailed → a.node.lastError.isSome = true

/-- What a stop by a hook or the engine has come to: the thread is alive still, and its handle is
left to the next start or stop. -/
structure StoppedInside (a b : Agent ν) : Prop where
  stopped : b.node.control.running = false
  settled : b.node.control.state ≠ .running
  failed : b.node.control.state = .failed → a.node.control.state = .failed
  halted : b.networkRuns = false
  handle : b.node.control.handle = a.node.control.handle
  threads : b.node.threads = a.node.threads
  call : b.node.call = a.node.call
  lastError : b.node.lastError = a.node.lastError

namespace Sane

variable {n : Node} {net : ν} {a b : Agent ν}

theorem new (vertex : Vertex) (resources : ResourceManager) (window : EstimationWindow)
    (network : ν) (stopped : Network.isRunning vertex network = false) :
    Sane (⟨Node.new vertex resources window, network⟩ : Agent ν) where
  unmoved _ calls := by cases calls
  busy _ calls := by cases calls
  registered _ live := by cases live
  executing runs := by cases runs
  unsettled runs := by cases runs
  network runs := by
    have halted : Network.isRunning vertex network = true := runs
    rw [stopped] at halted
    cases halted
  explained failed := by cases failed
  marked _ marked := by cases marked

/-- Only what the lock guards, the call, the threads, the last error and the network count. -/
theorem of_same (sane : Sane a) (control : b.node.control = a.node.control)
    (call : b.node.call = a.node.call) (threads : b.node.threads = a.node.threads)
    (lastError : b.node.lastError = a.node.lastError) (runs : b.networkRuns = a.networkRuns) :
    Sane b where
  unmoved := call ▸ sane.unmoved
  busy := by
    rw [control, call]
    exact sane.busy
  registered t live := by
    rw [Node.isLive, threads] at live
    rw [Node.registered, control, call]
    exact sane.registered t live
  executing := by
    simp only [control, runs, Node.isLive, threads]
    exact sane.executing
  unsettled := by
    rw [control, call]
    exact sane.unsettled
  network := by
    rw [control, call, runs]
    exact sane.network
  explained := by
    rw [control, lastError]
    exact sane.explained
  marked := by
    rw [threads, lastError]
    exact sane.marked

theorem emit (sane : Sane ⟨n, net⟩) (e : Event) : Sane ⟨n.emit e, net⟩ :=
  sane.of_same rfl rfl rfl rfl rfl

/-- Between calls, the network is stopped unless the node is running or has failed. -/
theorem networkRuns_of_free (sane : Sane a) (free : a.node.call = none)
    (stopped : a.node.control.running = false)
    (left : a.node.control.handle = none ∨ a.node.control.state ≠ .failed) :
    a.networkRuns = false := by
  rw [← Bool.not_eq_true]
  intro runs
  rcases sane.network runs with running | ⟨held, failed⟩ | ⟨c, calls, _⟩
  · simp [stopped] at running
  · rcases left with gone | sound
    · simp [gone] at held
    · exact sound failed
  · simp [free] at calls

/-- During a call whose network stop is over, the network is stopped. -/
theorem networkRuns_of_busy (sane : Sane a) (c : Call) (calls : a.node.call = some c)
    (passed : c.stopsNetwork = false) : a.networkRuns = false := by
  rw [← Bool.not_eq_true]
  intro runs
  rcases sane.network runs with running | ⟨held, _⟩ | ⟨c', calls', stops⟩
  · simp [(sane.busy c calls).1] at running
  · simp [(sane.busy c calls).2] at held
  · have same : c = c' := Option.some.inj (calls.symm.trans calls')
    rw [← same, passed] at stops
    cases stops

/-- Nothing is in progress and the node does not run. -/
theorem of_rest (free : a.node.call = none) (stopped : a.node.control.running = false)
    (settled : a.node.control.state ≠ .running) (halted : a.networkRuns = false)
    (registered : ∀ t, a.node.isLive t = true → a.node.control.handle = some t)
    (explained : a.node.control.state = .failed → a.node.lastError.isSome = true)
    (marked : ∀ t, a.node.threads.get? t = some .markFailed → a.node.lastError.isSome = true) :
    Sane a where
  unmoved c calls := by simp [free] at calls
  busy c calls := by simp [free] at calls
  registered t live := by simpa [Node.registered, free] using registered t live
  executing running := by simp [stopped] at running
  unsettled state := absurd state settled
  network runs := by simp [halted] at runs
  explained := explained
  marked := marked

/-- A call is in progress, and not a move. -/
theorem of_call (c : Call) (calls : a.node.call = some c) (unmoved : c.isMove = false)
    (stopped : a.node.control.running = false) (taken : a.node.control.handle = none)
    (registered : ∀ t, a.node.isLive t = true → c.thread = some t)
    (unsettled : a.node.control.state = .running → c.isStop = true)
    (network : a.networkRuns = true → c.stopsNetwork = true)
    (explained : a.node.control.state = .failed → a.node.lastError.isSome = true)
    (marked : ∀ t, a.node.threads.get? t = some .markFailed → a.node.lastError.isSome = true) :
    Sane a where
  unmoved c' calls' := by
    cases calls.symm.trans calls'
    exact unmoved
  busy c' calls' := ⟨stopped, taken⟩
  registered t live := by simpa [Node.registered, calls] using registered t live
  executing running := by simp [stopped] at running
  unsettled state := .inr ⟨c, calls, unsettled state⟩
  network runs := .inr (.inr ⟨c, calls, network runs⟩)
  explained := explained
  marked := marked

theorem handle_of_live (sane : Sane a) (free : a.node.call = none) (t : ThreadId)
    (live : a.node.isLive t = true) : a.node.control.handle = some t := by
  simpa [Node.registered, free] using sane.registered t live

theorem thread_of_live (sane : Sane a) (c : Call) (calls : a.node.call = some c) (t : ThreadId)
    (live : a.node.isLive t = true) : c.thread = some t := by
  simpa [Node.registered, calls] using sane.registered t live

/-- A thread that was left from before has ended when a new one is launched. -/
theorem dead_of_launch (sane : Sane a) (calls : a.node.call = some .launch) (t : ThreadId) :
    a.node.isLive t = false := by
  rw [← Bool.not_eq_true]
  intro live
  cases sane.thread_of_live .launch calls t live

/-- While the flag is set, the thread of the node is alive. -/
theorem isExecuting (sane : Sane a) (running : a.node.control.running = true) :
    a.node.isExecuting = true := by
  obtain ⟨_, _, t, held, live⟩ := sane.executing running
  simp [Node.isExecuting, running, held, live]

/-- Between calls, the node is in the running state exactly while the flag is set. -/
theorem running_iff (sane : Sane a) (free : a.node.call = none) :
    a.node.control.running = true ↔ a.node.control.state = .running := by
  constructor
  · exact fun running => (sane.executing running).1
  · intro state
    rcases sane.unsettled state with running | ⟨c, calls, _⟩
    · exact running
    · simp [free] at calls

/-- The outcome of a step of a live thread. -/
theorem threadOutcome {n' : Node} {net' : ν} (sane : Sane ⟨n, net⟩) (thread : ThreadId)
    (phase : Phase) (present : n.threads.get? thread = some phase)
    (outcome : Node.ThreadOutcome thread phase n n')
    (unswitched : Network.isRunning n.vertex net' = Network.isRunning n.vertex net) :
    Sane ⟨n', net'⟩ := by
  have registered (t : ThreadId) (still : n'.isLive t = true) : n.registered = some t :=
    sane.registered t (outcome.isLive present t still)
  have before (runs : Network.isRunning n.vertex net' = true) :
      (⟨n, net⟩ : Agent ν).networkRuns = true :=
    unswitched.symm.trans runs
  have executing (running : n.control.running = true) :
      n.control.state = .running ∧ Network.isRunning n.vertex net' = true ∧
        ∃ t, n.control.handle = some t ∧ n.isLive t = true :=
    (sane.executing running).imp_right (And.imp_left unswitched.trans)
  cases outcome with
  | goesOn calm heartbeat completed latest log next unmarked _ _ _ =>
    refine ⟨sane.unmoved, sane.busy, registered, fun running => ?_, sane.unsettled,
      fun runs => sane.network (before runs), sane.explained, fun t marked => ?_⟩
    · obtain ⟨state, networkRuns, t, held, live⟩ := executing running
      exact ⟨state, networkRuns, t, held, (Node.isLive_proceed _ thread t next).2 (.inr live)⟩
    · rw [Node.get?_proceed] at marked
      split at marked
      · exact absurd (Option.some.inj marked) unmarked
      · exact sane.marked t marked
  | ends calm stopped =>
    -- a thread ends only after the flag was cleared, so no running node loses its thread
    refine ⟨sane.unmoved, sane.busy, registered, fun running => ?_, sane.unsettled,
      fun runs => sane.network (before runs), sane.explained, fun t marked => ?_⟩
    · cases stopped.symm.trans running
    · rw [Node.get?_exit] at marked
      split at marked
      · cases marked
      · exact sane.marked t marked
  | records error met =>
    refine ⟨sane.unmoved, sane.busy, registered, fun running => ?_, sane.unsettled,
      fun runs => sane.network (before runs), fun _ => rfl, fun _ _ => rfl⟩
    obtain ⟨state, networkRuns, t, held, live⟩ := executing running
    exact ⟨state, networkRuns, t, held, (Node.isLive_proceed _ thread t .markFailed).2 (.inr live)⟩
  | fails marked =>
    have explained : n.lastError.isSome = true := sane.marked thread (marked ▸ present)
    refine ⟨sane.unmoved, fun c calls => ⟨rfl, (sane.busy c calls).2⟩, registered,
      fun running => (by cases running), fun state => (by cases state), fun runs => ?_,
      fun _ => explained, fun _ _ => explained⟩
    rcases sane.network (before runs) with running | ⟨held, _⟩ | called
    · -- the network is left running, under the handle of the thread that failed
      obtain ⟨_, _, t, held, _⟩ := executing running
      exact .inr (.inl ⟨Option.isSome_iff_exists.2 ⟨t, held⟩, rfl⟩)
    · exact .inr (.inl ⟨held, rfl⟩)
    · exact .inr (.inr called)

theorem beginStart (sane : Sane a) (free : a.node.call = none) : Sane a.beginStart := by
  have running_of_state := (sane.running_iff free).2
  obtain ⟨n, net⟩ := a
  simp only [Agent.beginStart, Node.beginStart]
  split
  next running =>
    obtain ⟨state, networkRuns, held⟩ := sane.executing running
    exact ⟨fun c calls => (by cases calls), fun c calls => (by cases calls),
      fun t live => sane.handle_of_live free t live, fun _ => ⟨state, networkRuns, held⟩,
      fun _ => .inl running, fun _ => .inl running, sane.explained, sane.marked⟩
  next idle =>
    have stopped : n.control.running = false := by simpa using idle
    have settled (state : n.control.state = .running) : False := idle (running_of_state state)
    cases held : n.control.handle with
    | some thread =>
      refine of_call (.reap thread) rfl rfl stopped rfl (fun t live => ?_)
        (fun state => (settled state).elim) (fun _ => rfl) sane.explained sane.marked
      exact held.symm.trans (sane.handle_of_live free t live)
    | none =>
      -- without a handle no thread is alive, and no failure has left the network running
      have halted := sane.networkRuns_of_free free stopped (.inl held)
      refine of_call .launch rfl rfl stopped rfl (fun t live => ?_)
        (fun state => (settled state).elim) (fun runs => ?_) sane.explained sane.marked
      · exact held.symm.trans (sane.handle_of_live free t live)
      · cases halted.symm.trans runs

theorem beginStop (sane : Sane a) (free : a.node.call = none) : Sane a.beginStop := by
  obtain ⟨n, net⟩ := a
  simp only [Agent.beginStop, Node.beginStop]
  split
  next started =>
    have registered := sane.handle_of_live free
    cases signals : n.stopSignals with
    | true =>
      exact of_call (.stopHook n.control.handle) rfl rfl rfl rfl registered
        (fun _ => rfl) (fun _ => rfl) sane.explained sane.marked
    | false =>
      simp only [Node.stopSignals, Bool.or_eq_false_iff, beq_eq_false_iff_ne] at signals
      -- an earlier stop has stopped the network
      have halted := sane.networkRuns_of_free free signals.1 (.inr signals.2)
      refine of_call (.stopJoin n.control.handle) rfl rfl rfl rfl registered
        (fun _ => rfl) (fun runs => ?_) sane.explained sane.marked
      cases halted.symm.trans runs
  next idle => exact sane

variable [LawfulNetwork ν]

/-- A stop by a hook or the engine. -/
theorem stoppedInside (sane : Sane a) (free : a.node.call = none) :
    StoppedInside a a.stopItself := by
  have running_iff := sane.running_iff free
  obtain ⟨n, net⟩ := a
  simp only [Agent.stopItself, Node.stopItself]
  split
  next started =>
    have settled : (if n.control.state = .failed then LifecycleState.failed else .stopped) ≠
        .running := by
      split <;> simp
    have failed (state : (if n.control.state = .failed then LifecycleState.failed
        else .stopped) = .failed) : n.control.state = .failed := by
      split at state
      next before => exact before
      next => cases state
    split
    next signals =>
      exact ⟨rfl, settled, failed, LawfulNetwork.isRunning_stop n.vertex net, rfl, rfl, rfl, rfl⟩
    next silent =>
      simp only [Bool.or_eq_true, beq_iff_eq, not_or, Bool.not_eq_true] at silent
      have halted := sane.networkRuns_of_free free silent.1 (.inr silent.2)
      exact ⟨rfl, settled, failed, halted, rfl, rfl, rfl, rfl⟩
  next idle =>
    simp only [Bool.or_eq_true, not_or, Bool.not_eq_true, Option.isSome_eq_false_iff,
      Option.isNone_iff_eq_none] at idle
    have settled (state : n.control.state = .running) : False := by
      cases idle.1.symm.trans (running_iff.2 state)
    have halted := sane.networkRuns_of_free free idle.1 (.inl idle.2)
    exact ⟨idle.1, settled, id, halted, rfl, rfl, rfl, rfl⟩

theorem stopItself (sane : Sane a) (free : a.node.call = none) : Sane a.stopItself := by
  have done := sane.stoppedInside free
  refine of_rest (done.call.trans free) done.stopped done.settled done.halted ?_ ?_ ?_
  · intro t live
    rw [Node.isLive, done.threads] at live
    rw [done.handle]
    exact sane.handle_of_live free t live
  · rw [done.lastError]
    exact fun state => sane.explained (done.failed state)
  · rw [done.lastError, done.threads]
    exact sane.marked

theorem threadStep (sane : Sane a) (m : Moment) (thread : ThreadId)
    (apart : ∀ act ∈ m.acts, act.isCall = true → a.node.call = none) :
    Sane (a.threadStep m thread) := by
  obtain ⟨n, net⟩ := a
  cases present : n.threads.get? thread with
  | none =>
    simp only [Agent.threadStep, Node.threadStep_of_missing m thread n net present]
    exact sane
  | some phase =>
    -- hooks and engine do nothing to the threads
    let P (n' : Node) (net' : ν) : Prop :=
      Sane ⟨n', net'⟩ ∧ n'.call = n.call ∧ n'.threads = n.threads
    have stop (member : .stop ∈ m.acts) (n' : Node) (net' : ν) (holds : P n' net') :
        P (n'.stopItself net').1 (n'.stopItself net').2 := by
      obtain ⟨sane', call, threads⟩ := holds
      have free : n'.call = none := call.trans (apart .stop member rfl)
      obtain ⟨control, log, stopped⟩ := Node.stopItself_frame n' net'
      exact ⟨sane'.stopItself free, by rw [stopped, ← call], by rw [stopped, ← threads]⟩
    obtain ⟨n₁, net₁, ⟨sane₁, _, threads⟩, outcome, unswitched⟩ :=
      Node.threadStep_comesTo (fun n' net' e _ holds => ⟨holds.1.emit e, holds.2⟩) stop thread n net
        (show P n net from ⟨sane, rfl, rfl⟩) present
    exact sane₁.threadOutcome thread phase (threads ▸ present) outcome unswitched

/-- At a launch no thread is alive, so the new one is alone. -/
theorem launch (sane : Sane a) (calls : a.node.call = some .launch) : Sane a.callStep := by
  have registered := sane.thread_of_live .launch calls
  have halted := sane.networkRuns_of_busy .launch calls rfl
  have stopped := (sane.busy .launch calls).1
  have taken := (sane.busy .launch calls).2
  obtain ⟨n, net⟩ := a
  have calls : n.call = some .launch := calls
  have dead (t : ThreadId) (live : n.isLive t = true) : False := by
    cases registered t live
  rcases n.launch_of_taken net stopped taken with ⟨cause, _, launch⟩ | ⟨net', started, launch⟩
  · simp only [Agent.callStep, Node.callStep, calls, launch]
    refine of_rest rfl stopped (fun state => ?_) halted (fun t live => (dead t live).elim)
      sane.explained sane.marked
    rcases sane.unsettled state with running | ⟨c, calls', isStop⟩
    · cases stopped.symm.trans running
    · cases calls.symm.trans calls'
      cases isStop
  · simp only [Agent.callStep, Node.callStep, calls, launch]
    have live (t : ThreadId) : n.launched.isLive t = true ↔ t = n.spawned :=
      (n.isLive_proceed n.spawned t .loopTest).trans (or_iff_left (dead t))
    have networkRuns := LawfulNetwork.isRunning_of_start n.vertex net net' started
    refine ⟨fun c calls => (by cases calls), fun c calls => (by cases calls), fun t still => ?_,
      fun _ => ⟨rfl, networkRuns, n.spawned, rfl, (live n.spawned).2 rfl⟩, fun _ => .inl rfl,
      fun _ => .inl rfl, fun state => (by cases state), fun t marked => ?_⟩
    · exact congrArg some ((live t).1 still).symm
    · have placed : (n.proceed n.spawned .loopTest).threads.get? t = some .markFailed := marked
      rw [Node.get?_proceed] at placed
      split at placed
      · cases placed
      · exact (dead t ((Node.isLive_iff n t).2 ⟨_, placed⟩)).elim

theorem callStep (sane : Sane a) : Sane a.callStep := by
  cases calls : a.node.call with
  | none =>
    simp only [Agent.callStep, Node.callStep_of_free a.node a.network calls]
    exact sane
  | some c =>
    have stopped := (sane.busy c calls).1
    have taken := (sane.busy c calls).2
    have registered := sane.thread_of_live c calls
    have unmoved := sane.unmoved c calls
    have halted := sane.networkRuns_of_busy c calls
    have launch := sane.launch
    have unsettled (state : a.node.control.state = .running) : c.isStop = true := by
      rcases sane.unsettled state with running | ⟨c', calls', isStop⟩
      · cases stopped.symm.trans running
      · cases calls.symm.trans calls'
        exact isStop
    obtain ⟨n, net⟩ := a
    have calls : n.call = some c := calls
    have stop := LawfulNetwork.isRunning_stop n.vertex net
    cases c with
    | reap thread =>
      simp only [Agent.callStep, Node.callStep, calls]
      refine of_call (.reapJoin thread) rfl rfl stopped taken registered unsettled
        (fun runs => ?_) sane.explained sane.marked
      cases stop.symm.trans runs
    | reapJoin thread =>
      simp only [Agent.callStep, Node.callStep, calls]
      split
      · exact sane
      next ended =>
        refine of_call .launch rfl rfl stopped taken (fun t live => ?_) unsettled
          (fun runs => ?_) sane.explained sane.marked
        · have waited : thread = t := Option.some.inj (registered t live)
          exact absurd live (waited ▸ ended)
        · cases (halted rfl).symm.trans runs
    | launch => exact launch calls
    | stopHook thread =>
      simp only [Agent.callStep, Node.callStep, calls]
      exact of_call (.stopNetwork thread) rfl rfl stopped taken registered (fun _ => rfl)
        (fun _ => rfl) sane.explained sane.marked
    | stopNetwork thread =>
      simp only [Agent.callStep, Node.callStep, calls]
      refine of_call (.stopJoin thread) rfl rfl stopped taken registered (fun _ => rfl)
        (fun runs => ?_) sane.explained sane.marked
      cases stop.symm.trans runs
    | stopJoin thread =>
      simp only [Agent.callStep, Node.callStep, calls]
      split
      · exact sane
      next ended =>
        refine of_call .settle rfl rfl stopped taken (fun t live => ?_) (fun _ => rfl)
          (fun runs => ?_) sane.explained sane.marked
        · have waited : thread = some t := registered t live
          have still : n.isLive t = true := live
          simp [waited, still] at ended
        · cases (halted rfl).symm.trans runs
    | settle =>
      simp only [Agent.callStep, Node.callStep, calls]
      have settled : Node.settledState n.control.state ≠ .running := by
        cases n.control.state <;> simp [Node.settledState]
      refine of_rest rfl stopped settled (halted rfl) (fun t live => ?_) (fun state => ?_)
        sane.marked
      · cases registered t live
      · exact sane.explained (Node.settledState_eq_failed_iff.1 state)
    -- a node that is only started and stopped is not moved
    | dropReport region => cases unmoved
    | resetView region => cases unmoved
    | clearNetwork => cases unmoved

theorem step (sane : Sane a) (step : Step a b) : Sane b := by
  cases step with
  | start free => exact sane.beginStart free
  | stop free => exact sane.beginStop free
  | stopInside thread phase present hosts free => exact sane.stopItself free
  | call => exact sane.callStep
  | thread m thread apart => exact sane.threadStep m thread apart
  | traffic network unswitched => exact sane.of_same rfl rfl rfl rfl unswitched

end Sane

theorem Reachable.sane [LawfulNetwork ν] {a : Agent ν} (reachable : Reachable a) : Sane a := by
  induction reachable with
  | new vertex resources window network stopped =>
    exact Sane.new vertex resources window network stopped
  | step _ step sane => exact sane.step step

end Agent

end RegionNet
