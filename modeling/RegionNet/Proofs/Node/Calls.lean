import RegionNet.Proofs.Node.Lifecycle

/-!
# What the calls of an outside caller come to

A start that returns an error has changed nothing: no step of it writes the running flag, the state
or the last error, which are what they were, unless a thread that was left from before failed while
the start waited for it. It fails as the node is running, or as its network, which is stopped then,
does not start. When a stop returns, no thread is alive, no handle is left and the network is
stopped.
-/

namespace RegionNet

/-- What a start that fails must not change. -/
def Node.standing (n : Node) : Bool × LifecycleState × Option EngineError :=
  (n.control.running, n.control.state, n.lastError)

theorem Node.standing_beginStart (n : Node) : n.beginStart.standing = n.standing := by
  simp only [beginStart]
  split <;> rfl

namespace Agent

variable {ν : Type} [Network ν] {a b b' begun : Agent ν} {c : Call}

/-- The states from the first step of a call until it returns, which is when no call is in progress
any more. -/
inductive During (begun : Agent ν) : Agent ν → Prop
  | begun : During begun begun
  | step {b b' : Agent ν} (during : During begun b) (busy : b.node.call ≠ none)
      (step : Step b b') : During begun b'

theorem During.sane [LawfulNetwork ν] (during : During begun b) (sane : Sane begun) : Sane b := by
  induction during with
  | begun => exact sane
  | step _ _ step before => exact before.step step

/-- While a call is in progress, hooks and engine leave nothing but events. -/
theorem threadStep_of_busy [LawfulNetwork ν] (m : Moment) (thread : ThreadId) (phase : Phase)
    (busy : a.node.call ≠ none) (apart : ∀ act ∈ m.acts, act.isCall = true → a.node.call = none)
    (present : a.node.threads.get? thread = some phase) :
    ∃ log, Node.ThreadOutcome thread phase { a.node with log := log }
      (a.threadStep m thread).node := by
  obtain ⟨n, net⟩ := a
  exact n.threadStep_unstopped m thread net present fun member => busy (apart .stop member rfl)

/-! ### Starts -/

/-- How a start that began at `a` stands at `b`, while it is in progress. -/
structure Starting (a b : Agent ν) (c : Call) : Prop where
  calls : b.node.call = some c
  isStart : c.isStart = true
  stopped : a.node.control.running = false
  vertex : b.node.vertex = a.node.vertex
  left : ∀ t, b.node.isLive t = true → a.node.isLive t = true
  /-- Nothing has changed, or the thread left from before is failing, or it has failed. -/
  kept : b.node.control.state = a.node.control.state ∧ b.node.lastError = a.node.lastError ∨
    ∃ t, a.node.isLive t = true ∧
      (b.node.threads.get? t = some .markFailed ∨ b.node.control.state = .failed)

/-- Between `a` and `b`, a thread that was alive at `a` met an error, kept it and ended. -/
def FailedMeanwhile (a b : Agent ν) : Prop :=
  b.node.control.running = a.node.control.running ∧
    ∃ t, a.node.control.handle = some t ∧ a.node.isLive t = true ∧
      b.node.control.state = .failed ∧ b.node.lastError.isSome = true

/-- What a start that began at `a` and returned at `b` has come to. -/
structure StartReturned (a b : Agent ν) : Prop where
  started : b.node.startResult = .ok () →
    b.node.isExecuting = true ∧ b.networkRuns = true ∧ b.node.lastError = none
  /-- The network that does not start was stopped before. -/
  cause : ∀ e, b.node.startResult = .error e →
    e = .alreadyExecuting a.node.name ∧ a.node.control.running = true ∨
      ∃ cause, e = .network a.node.name cause ∧ cause ≠ .alreadyRunning a.node.name ∧
        Network.start b.node.vertex b.network = .error cause ∧ b.networkRuns = false
  kept : ∀ e, b.node.startResult = .error e →
    b.node.standing = a.node.standing ∨ FailedMeanwhile a b

/-- No thread is alive at a launch, so one that was failing has failed. -/
theorem Starting.kept_of_launch (starting : Starting a b .launch) (sane : Sane b)
    (began : Sane a) (free : a.node.call = none) :
    b.node.standing = a.node.standing ∨ FailedMeanwhile a b := by
  have stopped : b.node.control.running = a.node.control.running :=
    (sane.busy _ starting.calls).1.trans starting.stopped.symm
  rcases starting.kept with ⟨state, lastError⟩ | ⟨t, live, marked | failed⟩
  · exact .inl (by rw [Node.standing, Node.standing, stopped, state, lastError])
  · -- the thread would be alive, and nobody would wait for it
    have still : b.node.isLive t = true := (Node.isLive_iff b.node t).2 ⟨_, marked⟩
    cases sane.thread_of_live .launch starting.calls t still
  · exact .inr ⟨stopped, t, began.handle_of_live free t live, live, failed,
      sane.explained failed⟩

theorem beginStart_cases (free : a.node.call = none) :
    (∃ c, Starting a a.beginStart c) ∨
      a.beginStart.node.call = none ∧ StartReturned a a.beginStart := by
  obtain ⟨n, net⟩ := a
  simp only [Agent.beginStart, Node.beginStart]
  split
  next running =>
    refine .inr ⟨rfl, fun result => (by cases result), fun e result => ?_, fun _ _ => .inl rfl⟩
    cases result
    exact .inl ⟨rfl, running⟩
  next stopped =>
    have stopped : n.control.running = false := by simpa using stopped
    cases n.control.handle with
    | some thread => exact .inl ⟨.reap thread, rfl, rfl, stopped, rfl, fun _ => id, .inl ⟨rfl, rfl⟩⟩
    | none => exact .inl ⟨.launch, rfl, rfl, stopped, rfl, fun _ => id, .inl ⟨rfl, rfl⟩⟩

section

variable [LawfulNetwork ν]

theorem Starting.threadStep (starting : Starting a b c) (m : Moment) (thread : ThreadId)
    (apart : ∀ act ∈ m.acts, act.isCall = true → b.node.call = none) :
    Starting a (b.threadStep m thread) c := by
  have busy : b.node.call ≠ none := by simp [starting.calls]
  cases present : b.node.threads.get? thread with
  | none =>
    have same : b.threadStep m thread = b := by
      simp only [Agent.threadStep, Node.threadStep_of_missing m thread b.node b.network present]
    rwa [same]
  | some phase =>
    obtain ⟨log, outcome⟩ := threadStep_of_busy m thread phase busy apart present
    have isLive := outcome.isLive present
    have live : b.node.isLive thread = true := (Node.isLive_iff b.node thread).2 ⟨phase, present⟩
    obtain ⟨call, vertex⟩ := outcome.frame
    refine ⟨call.trans starting.calls, starting.isStart, starting.stopped,
      vertex.trans starting.vertex, fun t still => starting.left t (isLive t still), ?_⟩
    rcases outcome.standing present with ⟨state, lastError, marked⟩ | failing
    · -- a thread that was about to fail still is
      rw [state, lastError]
      exact starting.kept.imp_right (Exists.imp fun t => And.imp_right (Or.imp_left (marked t)))
    · exact .inr ⟨thread, starting.left thread live, failing⟩

theorem Starting.callStep (starting : Starting a b c) (sane : Sane b) (began : Sane a)
    (free : a.node.call = none) :
    (∃ c', Starting a b.callStep c') ∨
      b.callStep.node.call = none ∧ StartReturned a b.callStep := by
  have calls := starting.calls
  have isStart := starting.isStart
  obtain ⟨n, net⟩ := b
  have calls' : n.call = some c := calls
  cases c with
  | reap thread =>
    simp only [Agent.callStep, Node.callStep, calls']
    exact .inl ⟨.reapJoin thread, rfl, rfl, starting.stopped, starting.vertex, starting.left,
      starting.kept⟩
  | reapJoin thread =>
    simp only [Agent.callStep, Node.callStep, calls']
    split
    · exact .inl ⟨_, starting⟩
    · exact .inl ⟨.launch, rfl, rfl, starting.stopped, starting.vertex, starting.left,
        starting.kept⟩
  | launch =>
    have kept := starting.kept_of_launch sane began free
    have name : n.name = a.node.name := congrArg Vertex.name starting.vertex
    have halted := sane.networkRuns_of_busy .launch calls rfl
    rcases n.launch_of_taken net (sane.busy _ calls).1 (sane.busy _ calls).2 with
      ⟨cause, failed, launch⟩ | ⟨net', started, launch⟩
    · simp only [Agent.callStep, Node.callStep, calls', launch]
      refine .inr ⟨rfl, fun result => (by cases result), fun e result => ?_, fun _ _ => kept⟩
      cases result
      refine .inr ⟨cause, by rw [name], ?_, failed, halted⟩
      -- a network that refuses as it is running would be running
      rintro rfl
      have running := (LawfulNetwork.start_eq_alreadyRunning_iff n.vertex net).1
        (failed.trans (by rw [← name, Node.name]))
      cases halted.symm.trans running
    · have after := sane.callStep
      simp only [Agent.callStep, Node.callStep, calls', launch] at after ⊢
      exact .inr ⟨rfl, fun _ => ⟨after.isExecuting rfl, (after.executing rfl).2.1, rfl⟩,
        fun e result => (by cases result), fun e result => (by cases result)⟩
  | stopHook _ => cases isStart
  | stopNetwork _ => cases isStart
  | stopJoin _ => cases isStart
  | settle => cases isStart
  | dropReport _ => cases isStart
  | resetView _ => cases isStart
  | clearNetwork => cases isStart

theorem Starting.step (starting : Starting a b c) (step : Step b b') (sane : Sane b)
    (began : Sane a) (free : a.node.call = none) :
    (∃ c', Starting a b' c') ∨ b'.node.call = none ∧ StartReturned a b' := by
  have calls := starting.calls
  cases step with
  | start idle => cases calls.symm.trans idle
  | stop idle => cases calls.symm.trans idle
  | stopInside _ _ _ _ idle => cases calls.symm.trans idle
  | call => exact starting.callStep sane began free
  | thread m thread apart => exact .inl ⟨c, starting.threadStep m thread apart⟩
  | traffic network _ =>
    exact .inl ⟨c, calls, starting.isStart, starting.stopped, starting.vertex, starting.left,
      starting.kept⟩

/-- A start is in progress until it has returned. -/
theorem During.start (during : During a.beginStart b) (began : Sane a)
    (free : a.node.call = none) :
    (∃ c, Starting a b c) ∨ b.node.call = none ∧ StartReturned a b := by
  -- along the states of the call: it does not go on once it has returned
  induction during with
  | begun => exact beginStart_cases free
  | step during busy step ih =>
    rcases ih with ⟨c, starting⟩ | ⟨returned, _⟩
    · exact starting.step step (during.sane (began.beginStart free)) began free
    · exact absurd returned busy

end

/-! ### Stops -/

/-- What a stop that returned has come to. -/
structure StopReturned (b : Agent ν) : Prop where
  stopped : b.node.control.running = false
  taken : b.node.control.handle = none
  dead : ∀ t, b.node.isLive t = false
  settled : b.node.control.state ≠ .running
  halted : b.networkRuns = false

theorem StopReturned.of_sane (sane : Sane b) (free : b.node.call = none)
    (stopped : b.node.control.running = false) (taken : b.node.control.handle = none) :
    StopReturned b where
  stopped := stopped
  taken := taken
  dead t := by
    rw [← Bool.not_eq_true]
    intro live
    cases taken.symm.trans (sane.handle_of_live free t live)
  settled state := by
    cases stopped.symm.trans ((sane.running_iff free).2 state)
  halted := sane.networkRuns_of_free free stopped (.inl taken)

/-- A stop is in progress, or it has returned. -/
def Stopping (b : Agent ν) : Prop :=
  (∃ c, b.node.call = some c ∧ c.isStop = true) ∨ b.node.call = none ∧ StopReturned b

theorem beginStop_stopping (sane : Sane a) (free : a.node.call = none) :
    Stopping a.beginStop := by
  obtain ⟨n, net⟩ := a
  simp only [Agent.beginStop, Node.beginStop]
  split
  · refine .inl ⟨_, rfl, ?_⟩
    split <;> rfl
  next idle =>
    simp only [Bool.or_eq_true, not_or, Bool.not_eq_true, Option.isSome_eq_false_iff,
      Option.isNone_iff_eq_none] at idle
    exact .inr ⟨free, .of_sane sane free idle.1 idle.2⟩

section

variable [LawfulNetwork ν]

theorem callStep_stopping (sane : Sane b) (calls : b.node.call = some c)
    (isStop : c.isStop = true) : Stopping b.callStep := by
  have after := sane.callStep
  obtain ⟨stopped, taken⟩ := sane.busy c calls
  obtain ⟨n, net⟩ := b
  have calls : n.call = some c := calls
  cases c with
  | stopHook thread =>
    simp only [Agent.callStep, Node.callStep, calls]
    exact .inl ⟨_, rfl, rfl⟩
  | stopNetwork thread =>
    simp only [Agent.callStep, Node.callStep, calls]
    exact .inl ⟨_, rfl, rfl⟩
  | stopJoin thread =>
    simp only [Agent.callStep, Node.callStep, calls]
    split
    · exact .inl ⟨_, calls, rfl⟩
    · exact .inl ⟨_, rfl, rfl⟩
  | settle =>
    simp only [Agent.callStep, Node.callStep, calls] at after ⊢
    exact .inr ⟨rfl, .of_sane after rfl stopped taken⟩
  | _ => cases isStop

theorem During.stop (during : During a.beginStop b) (began : Sane a) (free : a.node.call = none) :
    Stopping b := by
  induction during with
  | begun => exact beginStop_stopping began free
  | @step b b' during busy step ih =>
    rcases ih with ⟨c, calls, isStop⟩ | ⟨returned, _⟩
    · have sane := during.sane (began.beginStop free)
      cases step with
      | start idle => exact absurd idle busy
      | stop idle => exact absurd idle busy
      | stopInside _ _ _ _ idle => exact absurd idle busy
      | call => exact callStep_stopping sane calls isStop
      | thread m thread apart =>
        refine .inl ⟨c, ?_, isStop⟩
        cases present : b.node.threads.get? thread with
        | none =>
          have ended := Node.threadStep_of_missing m thread b.node b.network present
          simpa only [Agent.threadStep, ended] using calls
        | some phase =>
          obtain ⟨log, outcome⟩ := threadStep_of_busy m thread phase busy apart present
          exact outcome.frame.1.trans calls
      | traffic network _ => exact .inl ⟨c, calls, isStop⟩
    · exact absurd returned busy

end

/-! ### The life of a node -/

/-- What holds of a node at every time of its life. -/
structure Safe (a : Agent ν) : Prop where
  one_thread : ∀ t t', a.node.isLive t = true → a.node.isLive t' = true → t = t'
  handle_of_live : a.node.call = none → ∀ t, a.node.isLive t = true →
    a.node.control.handle = some t
  running_iff : a.node.call = none →
    (a.node.control.running = true ↔ a.node.control.state = .running)
  network_of_running : a.node.call = none → a.node.control.running = true → a.networkRuns = true
  network_of_stopped : a.node.call = none → a.node.control.running = false →
    a.node.control.handle = none → a.networkRuns = false
  /-- A start of a network finds it stopped. -/
  launch : a.node.call = some .launch → a.networkRuns = false
  /-- No step of a start but the launch of a thread changes what a start that fails must not. -/
  start_keeps : ∀ c, a.node.call = some c → c.isStart = true →
    a.callStep.node.standing = a.node.standing ∨
      a.callStep.node.call = none ∧ a.callStep.node.startResult = .ok ()
  start_returns : a.node.call = none → a.beginStart.node.standing = a.node.standing ∧
    ∀ b, During a.beginStart b → b.node.call = none → StartReturned a b
  stop_returns : a.node.call = none →
    ∀ b, During a.beginStop b → b.node.call = none → StopReturned b
  stop_inside_returns : a.node.call = none → StoppedInside a a.stopItself

theorem standing_callStep (sane : Sane a) (calls : a.node.call = some c)
    (isStart : c.isStart = true) :
    a.callStep.node.standing = a.node.standing ∨
      a.callStep.node.call = none ∧ a.callStep.node.startResult = .ok () := by
  obtain ⟨stopped, taken⟩ := sane.busy c calls
  obtain ⟨n, net⟩ := a
  have calls : n.call = some c := calls
  cases c with
  | reap thread =>
    simp only [Agent.callStep, Node.callStep, calls]
    exact .inl rfl
  | reapJoin thread =>
    simp only [Agent.callStep, Node.callStep, calls]
    split <;> exact .inl rfl
  | launch =>
    rcases n.launch_of_taken net stopped taken with ⟨cause, _, launch⟩ | ⟨net', _, launch⟩
    · simp only [Agent.callStep, Node.callStep, calls, launch]
      exact .inl rfl
    · simp only [Agent.callStep, Node.callStep, calls, launch]
      exact .inr ⟨rfl, rfl⟩
  | _ => cases isStart

theorem safe_of_reachable [LawfulNetwork ν] (reachable : Reachable a) : Safe a where
  one_thread t t' live live' :=
    Option.some.inj ((reachable.sane.registered t live).symm.trans
      (reachable.sane.registered t' live'))
  handle_of_live free := reachable.sane.handle_of_live free
  running_iff free := reachable.sane.running_iff free
  network_of_running _ running := (reachable.sane.executing running).2.1
  network_of_stopped free stopped taken :=
    reachable.sane.networkRuns_of_free free stopped (.inl taken)
  launch calls := reachable.sane.networkRuns_of_busy .launch calls rfl
  start_keeps _ calls isStart := standing_callStep reachable.sane calls isStart
  start_returns free := by
    refine ⟨a.node.standing_beginStart, fun b during returned => ?_⟩
    rcases during.start reachable.sane free with ⟨c, starting⟩ | ⟨_, done⟩
    · cases returned.symm.trans starting.calls
    · exact done
  stop_returns free b during returned := by
    rcases during.stop reachable.sane free with ⟨c, calls, _⟩ | ⟨_, done⟩
    · cases returned.symm.trans calls
    · exact done
  stop_inside_returns free := reachable.sane.stoppedInside free

/-- A node that its hook has stopped: the thread is alive still, and registered. -/
theorem safe_of_stopped_in_hook :
    let node := Node.new (Vertex.new "a") .unmeasured .short
    let a : Agent StandIn :=
      ((Agent.mk node StandIn.new).beginStart.callStep.threadStep ⟨0, []⟩ 0).stopItself
    a.node.isLive 0 = true ∧ a.node.control = ⟨false, some 0, .stopped⟩ ∧ Safe a := by
  intro node a
  have reachable : Reachable a := by
    refine .step (.step (.step (.step (.new _ _ _ _ rfl) (.start _ rfl)) (.call _))
      (.thread _ _ _ (by simp))) (.stopInside _ 0 .preHook ?_ rfl ?_)
    · decide +kernel
    · decide +kernel
  exact ⟨by decide +kernel, by decide +kernel, safe_of_reachable reachable⟩

/-- A hook has stopped its node and crashes while a start waits for its thread. The network does not
start after that, so the start returns an error, at a node that has failed since the start began. -/
theorem start_fails_beside_crash :
    ∃ a b : Agent StandIn, Reachable a ∧ a.node.call = none ∧ During a.beginStart b ∧
      b.node.call = none ∧ (∃ e, b.node.startResult = .error e) ∧
      a.node.control.state = .stopped ∧ b.node.control.state = .failed ∧
      a.node.lastError = none ∧ b.node.lastError.isSome = true := by
  let node := Node.new (Vertex.new "a") .unmeasured .short
  let inHook := (Agent.mk node StandIn.new).beginStart.callStep.threadStep ⟨0, []⟩ 0
  -- the next start of the network will fail
  let a : Agent StandIn :=
    { inHook.stopItself with network := { inHook.stopItself.network with failing := true } }
  have reachable : Reachable a := by
    refine .step (.step (.step (.step (.step (.new _ _ _ _ rfl) (.start _ rfl)) (.call _))
      (.thread _ ⟨0, []⟩ 0 (by simp))) (.stopInside _ 0 .preHook ?_ rfl ?_)) (.traffic _ _ rfl)
    · decide +kernel
    · decide +kernel
  let crashing : Moment := ⟨0, [.crash (some "x")]⟩
  let waiting := a.beginStart.callStep
  let crashed := ((waiting.threadStep crashing 0).threadStep ⟨0, []⟩ 0).threadStep ⟨0, []⟩ 0
  have during : During a.beginStart crashed.callStep.callStep := by
    refine .step (.step (.step (.step (.step (.step .begun ?_ (.call _)) ?_
      (.thread _ crashing 0 ?_)) ?_ (.thread _ ⟨0, []⟩ 0 (by simp))) ?_
      (.thread _ ⟨0, []⟩ 0 (by simp))) ?_ (.call _)) ?_ (.call _)
    all_goals decide +kernel
  have failed : crashed.callStep.callStep.node.startResult.toBool = false := by decide +kernel
  have error : ∃ e, crashed.callStep.callStep.node.startResult = .error e := by
    cases result : crashed.callStep.callStep.node.startResult with
    | ok done => simp [result, Except.toBool] at failed
    | error e => exact ⟨e, rfl⟩
  refine ⟨a, _, reachable, ?_, during, ?_, error, ?_, ?_, ?_, ?_⟩
  all_goals decide +kernel

end Agent

end RegionNet
