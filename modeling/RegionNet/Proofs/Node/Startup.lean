import RegionNet.Proofs.Fleet.Deeds
import RegionNet.Proofs.Node.Failures

/-!
# A node while all nodes are started

All nodes are started one after the other. If one of them does not start, those before it are told
to stop again, and those after it are left alone. So each node has a status in such a start, which
says what it has come to since the start began: `n₀` is the node as it was then, and `failed` says
whether a thread has marked it as failed meanwhile.

A node does not start if it executes already, if its network does not start, or if the system has no
thread for it. In the last case its network is started and stopped again.
-/

namespace RegionNet

/-- What the system does for a start: it answers to whoever wants to listen, and it may deny the
node its thread, with an error. -/
structure Answer where
  binding : Binding
  denied : Option LifecycleError

namespace Node

/-- A launch that the system denies its thread. -/
def launchDenied (binding : Binding) (error : LifecycleError) (n : Node) (f : Fabric) :
    Node × Fabric :=
  if n.control.running || n.control.handle.isSome then
    (n.answerStart (.error (.alreadyExecuting n.name)), f)
  else
    match f.start binding n.vertex with
    | .error cause => (n.unlaunched cause, f)
    | .ok f' =>
      ({ (n.emit .networkStart).emit .networkStop with lastError := none }.answerStart
        (.error error), f'.stop n.vertex)

/-- The next step of the call in progress, as the system answers. -/
def answered (answer : Answer) (n : Node) (f : Fabric) : Node × Fabric :=
  match n.call, answer.denied with
  | some .launch, some error => n.launchDenied answer.binding error f
  | _, _ => (Deed.call answer.binding).act n f

/-- A node at any time: whoever calls has taken the handle and cleared the flag, a thread that is
alive is waited for, and a node that is to run has its thread. -/
structure Consistent (n : Node) : Prop where
  busy : ∀ c, n.call = some c → n.control.running = false ∧ n.control.handle = none
  registered : ∀ t, n.isLive t = true → n.registered = some t
  executing : n.control.running = true → ∃ t, n.control.handle = some t ∧ n.isLive t = true

variable {n₀ n n' : Node} {failed : Prop} {denied : LifecycleError → Prop}

theorem Consistent.of_sane {ν : Type} [Network ν] {net : ν} (sane : Agent.Sane ⟨n, net⟩) :
    n.Consistent where
  busy := sane.busy
  registered := sane.registered
  executing running := (sane.executing running).2.2

theorem Consistent.isExecuting_iff (consistent : n.Consistent) :
    n.isExecuting = true ↔ n.control.running = true := by
  simp only [isExecuting, Bool.and_eq_true, and_iff_left_iff_imp]
  intro running
  obtain ⟨t, handle, live⟩ := consistent.executing running
  rw [handle, Option.any_some, live]

/-! ### Steps of a thread -/

/-- What a step of a thread leaves as it is, while hooks and engine call nothing. -/
structure Spares (thread : ThreadId) (n n' : Node) : Prop where
  vertex : n'.vertex = n.vertex
  call : n'.call = n.call
  startResult : n'.startResult = n.startResult
  spawned : n'.spawned = n.spawned
  handle : n'.control.handle = n.control.handle
  live : ∀ t, n'.isLive t = true → n.isLive t = true
  running : n'.control.running = n.control.running ∨
    n'.control.running = false ∧ n.threads.get? thread = some .markFailed

theorem Spares.stopped {thread : ThreadId} (spares : Spares thread n n')
    (stopped : n.control.running = false) : n'.control.running = false := by
  rcases spares.running with same | ⟨cleared, _⟩
  · exact same.trans stopped
  · exact cleared

/-- No thread makes its node run. -/
theorem Spares.ran {thread : ThreadId} (spares : Spares thread n n')
    (running : n'.control.running = true) : n.control.running = true := by
  rcases spares.running with same | ⟨cleared, _⟩
  · exact same.symm.trans running
  · cases cleared.symm.trans running

section

variable {ν : Type} [Network ν] [LawfulNetwork ν] (m : Moment) (unstopped : .stop ∉ m.acts)
  (thread : ThreadId) (n : Node) (net : ν)
include unstopped

theorem threadStep_spares : Spares thread n (n.threadStep m thread net).1 := by
  cases present : n.threads.get? thread with
  | none =>
    rw [threadStep_of_missing m thread n net present]
    exact ⟨rfl, rfl, rfl, rfl, rfl, fun _ => id, .inl rfl⟩
  | some phase =>
    obtain ⟨log, outcome⟩ := threadStep_unstopped m thread n net present unstopped
    have live : ∀ t, (n.threadStep m thread net).1.isLive t = true → n.isLive t = true :=
      outcome.isLive present
    generalize (n.threadStep m thread net).1 = n' at outcome live
    cases outcome with
    | fails marked => exact ⟨rfl, rfl, rfl, rfl, rfl, live, .inr ⟨rfl, marked ▸ present⟩⟩
    | _ => exact ⟨rfl, rfl, rfl, rfl, rfl, live, .inl rfl⟩

/-- A thread ends only if the flag is cleared, by the thread itself or before. -/
theorem isLive_threadStep (running : (n.threadStep m thread net).1.control.running = true)
    (t : ThreadId) (live : n.isLive t = true) : (n.threadStep m thread net).1.isLive t = true := by
  cases present : n.threads.get? thread with
  | none =>
    rw [threadStep_of_missing m thread n net present]
    exact live
  | some phase =>
    obtain ⟨log, outcome⟩ := threadStep_unstopped m thread n net present unstopped
    generalize (n.threadStep m thread net).1 = n' at outcome running
    cases outcome with
    | goesOn _ _ _ _ _ next => exact (isLive_proceed _ thread t next).2 (.inr live)
    | records error => exact (isLive_proceed _ thread t .markFailed).2 (.inr live)
    | ends _ stopped => cases stopped.symm.trans running
    | fails => cases running

variable {n}

theorem Consistent.threadStep (consistent : n.Consistent) :
    (n.threadStep m thread net).1.Consistent := by
  have spares := threadStep_spares m unstopped thread n net
  have registered : (n.threadStep m thread net).1.registered = n.registered := by
    rw [Node.registered, Node.registered, spares.call, spares.handle]
  refine ⟨fun c calls => ?_, fun t live => ?_, fun running => ?_⟩
  · obtain ⟨stopped, taken⟩ := consistent.busy c (spares.call.symm.trans calls)
    exact ⟨spares.stopped stopped, spares.handle.trans taken⟩
  · rw [registered]
    exact consistent.registered t (spares.live t live)
  · -- the flag was set before, and its thread has not ended in this step
    obtain ⟨t, handle, live⟩ := consistent.executing (spares.ran running)
    exact ⟨t, spares.handle.trans handle,
      isLive_threadStep m unstopped thread n net running t live⟩

end

/-! ### Steps of a call -/

/-- Why a node does not start. -/
inductive Refusal (denied : LifecycleError → Prop) (n : Node) : LifecycleError → Prop
  | executing (running : n.control.running = true) : Refusal denied n (.alreadyExecuting n.name)
  | network (cause : NetworkError) : Refusal denied n (.network n.name cause)
  | system (error : LifecycleError) (denies : denied error) : Refusal denied n error

/-- A step starts no thread and ends none, and the node executes after it if it did before. -/
structure Stays (n n' : Node) : Prop where
  vertex : n'.vertex = n.vertex
  running : n'.control.running = n.control.running
  threads : n'.threads = n.threads
  spawned : n'.spawned = n.spawned

/-- What a step of a start can come to. -/
inductive StartStep (denied : LifecycleError → Prop) (n : Node) : Node → Prop
  | waits {n' : Node} (c : Call) (calls : n'.call = some c) (isStart : c.isStart = true)
      (stays : Stays n n') : StartStep denied n n'
  | refused {n' : Node} (e : LifecycleError) (why : Refusal denied n e) (free : n'.call = none)
      (result : n'.startResult = .error e) (stays : Stays n n') : StartStep denied n n'
  | launched (stopped : n.control.running = false) : StartStep denied n n.launched

/-- What a step of a stop can come to. -/
structure StopStep (n n' : Node) : Prop where
  calls : ∀ c, n'.call = some c → c.isStop = true
  stopped : n'.control.running = false
  taken : n'.control.handle = none
  spawned : n'.spawned = n.spawned
  startResult : n'.startResult = n.startResult

theorem StopStep.of_call {c : Call} (calls : n'.call = some c) (isStop : c.isStop = true)
    (stopped : n'.control.running = false) (taken : n'.control.handle = none)
    (spawned : n'.spawned = n.spawned) (startResult : n'.startResult = n.startResult) :
    StopStep n n' := by
  refine ⟨fun c' calls' => ?_, stopped, taken, spawned, startResult⟩
  cases calls.symm.trans calls'
  exact isStop

theorem StopStep.of_free (free : n'.call = none) (stopped : n'.control.running = false)
    (taken : n'.control.handle = none) (spawned : n'.spawned = n.spawned)
    (startResult : n'.startResult = n.startResult) : StopStep n n' := by
  refine ⟨fun c calls => ?_, stopped, taken, spawned, startResult⟩
  cases free.symm.trans calls

theorem Consistent.handle_of_live (consistent : n.Consistent) (free : n.call = none) (t : ThreadId)
    (live : n.isLive t = true) : n.control.handle = some t := by
  have registered := consistent.registered t live
  rwa [Node.registered, free] at registered

theorem Consistent.thread_of_live (consistent : n.Consistent) {c : Call} (calls : n.call = some c)
    (t : ThreadId) (live : n.isLive t = true) : c.thread = some t := by
  have registered := consistent.registered t live
  rwa [Node.registered, calls] at registered

/-- No thread is alive that nobody waits for. -/
theorem Consistent.dead (consistent : n.Consistent) {c : Call} (calls : n.call = some c)
    (none : c.thread = none) (t : ThreadId) : n.isLive t = false := by
  rw [← Bool.not_eq_true]
  intro live
  cases none.symm.trans (consistent.thread_of_live calls t live)

/-- The caller has the handle, whatever else it does. -/
theorem Consistent.of_call {c : Call} (stopped : n.control.running = false)
    (taken : n.control.handle = none) (calls : n.call = some c)
    (waited : ∀ t, n.isLive t = true → c.thread = some t) : n.Consistent where
  busy _ _ := ⟨stopped, taken⟩
  registered t live := by
    rw [Node.registered, calls]
    exact waited t live
  executing running := by cases stopped.symm.trans running

/-- A node that rests and that nobody calls. -/
theorem Consistent.of_dead (stopped : n.control.running = false) (free : n.call = none)
    (dead : ∀ t, n.isLive t = false) : n.Consistent where
  busy c calls := by cases free.symm.trans calls
  registered t live := by cases (dead t).symm.trans live
  executing running := by cases stopped.symm.trans running

theorem Consistent.launched (dead : ∀ t, n.isLive t = false) : n.launched.Consistent where
  busy c calls := by cases calls
  registered t live := by
    -- the new thread is the only one
    rcases (isLive_proceed n n.spawned t .loopTest).1 live with rfl | live
    · rfl
    · cases (dead t).symm.trans live
  executing _ := ⟨n.spawned, rfl, (isLive_proceed n n.spawned n.spawned .loopTest).2 (.inl rfl)⟩

theorem beginStart_steps (consistent : n.Consistent) (free : n.call = none) :
    n.beginStart.Consistent ∧ n.StartStep denied n.beginStart := by
  have registered := consistent.handle_of_live free
  simp only [beginStart]
  split
  next running =>
    exact ⟨⟨fun c calls => (by cases calls), registered, consistent.executing⟩,
      .refused _ (.executing running) rfl rfl ⟨rfl, rfl, rfl, rfl⟩⟩
  next stopped =>
    have stopped : n.control.running = false := by simpa using stopped
    cases handle : n.control.handle with
    | some thread =>
      refine ⟨.of_call stopped rfl rfl fun t live => ?_, .waits _ rfl rfl ⟨rfl, rfl, rfl, rfl⟩⟩
      exact handle.symm.trans (registered t live)
    | none =>
      refine ⟨.of_call stopped rfl rfl fun t live => ?_, .waits _ rfl rfl ⟨rfl, rfl, rfl, rfl⟩⟩
      cases handle.symm.trans (registered t live)

theorem callStep_start {ν : Type} [Network ν] (consistent : n.Consistent) {c : Call}
    (calls : n.call = some c) (isStart : c.isStart = true) (net : ν) :
    (n.callStep net).1.Consistent ∧ n.StartStep denied (n.callStep net).1 := by
  obtain ⟨stopped, taken⟩ := consistent.busy c calls
  have registered := consistent.thread_of_live calls
  cases c with
  | reap thread =>
    simp only [callStep, calls]
    exact ⟨.of_call stopped taken rfl registered, .waits _ rfl rfl ⟨rfl, rfl, rfl, rfl⟩⟩
  | reapJoin thread =>
    simp only [callStep, calls]
    split
    · exact ⟨consistent, .waits _ calls rfl ⟨rfl, rfl, rfl, rfl⟩⟩
    next ended =>
      -- the thread that it waits for is the only one
      refine ⟨.of_call stopped taken rfl fun t live => ?_, .waits _ rfl rfl ⟨rfl, rfl, rfl, rfl⟩⟩
      cases registered t live
      exact absurd live ended
  | launch =>
    have dead := consistent.dead calls rfl
    simp only [callStep, calls]
    rcases n.launch_of_taken net stopped taken with ⟨cause, _, launch⟩ | ⟨net', _, launch⟩
    · rw [launch]
      exact ⟨.of_dead stopped rfl dead, .refused _ (.network cause) rfl rfl ⟨rfl, rfl, rfl, rfl⟩⟩
    · rw [launch]
      exact ⟨.launched dead, .launched stopped⟩
  | _ => cases isStart

theorem launchDenied_start (consistent : n.Consistent) (calls : n.call = some .launch)
    (binding : Binding) (error : LifecycleError) (denies : denied error) (f : Fabric) :
    (n.launchDenied binding error f).1.Consistent ∧
      n.StartStep denied (n.launchDenied binding error f).1 := by
  obtain ⟨stopped, taken⟩ := consistent.busy _ calls
  have dead := consistent.dead calls rfl
  simp only [launchDenied, stopped, taken, Option.isSome_none, Bool.or_self, Bool.false_eq_true,
    if_false]
  split
  next cause _ =>
    exact ⟨.of_dead stopped rfl dead, .refused _ (.network cause) rfl rfl ⟨rfl, rfl, rfl, rfl⟩⟩
  next =>
    exact ⟨.of_dead stopped rfl dead,
      .refused _ (.system error denies) rfl rfl ⟨rfl, rfl, rfl, rfl⟩⟩

theorem answered_start (consistent : n.Consistent) {c : Call} (calls : n.call = some c)
    (isStart : c.isStart = true) (answer : Answer)
    (denies : ∀ e, answer.denied = some e → denied e) (f : Fabric) :
    (n.answered answer f).1.Consistent ∧ n.StartStep denied (n.answered answer f).1 := by
  simp only [answered]
  split
  next error launch without =>
    exact launchDenied_start consistent launch answer.binding error (denies error without) f
  next =>
    exact @callStep_start n denied Fabric (Fabric.answering answer.binding) consistent c calls
      isStart f

theorem beginStop_steps (consistent : n.Consistent) (free : n.call = none) :
    n.beginStop.Consistent ∧ n.StopStep n.beginStop := by
  have registered := consistent.handle_of_live free
  simp only [beginStop]
  split
  · split <;> exact ⟨.of_call rfl rfl rfl registered, .of_call rfl rfl rfl rfl rfl rfl⟩
  next idle =>
    simp only [Bool.or_eq_true, not_or, Bool.not_eq_true, Option.isSome_eq_false_iff,
      Option.isNone_iff_eq_none] at idle
    exact ⟨consistent, .of_free free idle.1 idle.2 rfl rfl⟩

theorem callStep_stop {ν : Type} [Network ν] (consistent : n.Consistent) {c : Call}
    (calls : n.call = some c) (isStop : c.isStop = true) (net : ν) :
    (n.callStep net).1.Consistent ∧ n.StopStep (n.callStep net).1 := by
  obtain ⟨stopped, taken⟩ := consistent.busy c calls
  have registered := consistent.thread_of_live calls
  cases c with
  | stopHook thread =>
    simp only [callStep, calls]
    exact ⟨.of_call stopped taken rfl registered, .of_call rfl rfl stopped taken rfl rfl⟩
  | stopNetwork thread =>
    simp only [callStep, calls]
    exact ⟨.of_call stopped taken rfl registered, .of_call rfl rfl stopped taken rfl rfl⟩
  | stopJoin thread =>
    simp only [callStep, calls]
    split
    · exact ⟨consistent, .of_call calls rfl stopped taken rfl rfl⟩
    next ended =>
      refine ⟨.of_call stopped taken rfl fun t live => ?_,
        .of_call rfl rfl stopped taken rfl rfl⟩
      have thread_eq : thread = some t := registered t live
      rw [thread_eq, Option.any_some] at ended
      exact absurd live ended
  | settle =>
    simp only [callStep, calls]
    exact ⟨.of_dead stopped rfl (consistent.dead calls rfl),
      .of_free rfl stopped taken rfl rfl⟩
  | _ => cases isStop

theorem answered_stop (consistent : n.Consistent) {c : Call} (calls : n.call = some c)
    (isStop : c.isStop = true) (answer : Answer) (f : Fabric) :
    (n.answered answer f).1.Consistent ∧ n.StopStep (n.answered answer f).1 := by
  simp only [answered]
  split
  next launch _ =>
    cases calls.symm.trans launch
    cases isStop
  next =>
    exact @callStep_stop n Fabric (Fabric.answering answer.binding) consistent c calls isStop f

theorem answered_of_free (free : n.call = none) (answer : Answer) (f : Fabric) :
    n.answered answer f = (n, f) := by
  simp only [answered, free, Deed.act, callStep]

/-! ### The status of a node -/

/-- Nothing was done to the node: its own threads have run, and they have called nothing. -/
inductive LeftAlone (n₀ : Node) : Node → Prop
  | refl : LeftAlone n₀ n₀
  | thread {n : Node} (alone : LeftAlone n₀ n) (m : Moment)
      (callFree : ∀ act ∈ m.acts, act.isCall = false) (thread : ThreadId) (f : Fabric) :
      LeftAlone n₀ (n.threadStep m thread f).1

/-- The node was neither started nor stopped since: it executes if it did before, unless it has
failed. -/
structure Unmoved (failed : Prop) (n₀ n : Node) : Prop where
  vertex : n.vertex = n₀.vertex
  spawned : n.spawned = n₀.spawned
  live : ∀ t, n.isLive t = true → n₀.isLive t = true
  resting : n.control.running = true → n₀.control.running = true
  running : n₀.control.running = true → n.control.running = true ∨ failed

/-- The node was started once since. It did not execute then: if it did before, it had failed. -/
structure Anew (failed : Prop) (n₀ n : Node) : Prop where
  spawned : n.spawned = n₀.spawned + 1
  result : n.startResult = .ok ()
  fallen : n₀.control.running = true → failed

/-- The start of the node has returned the error. -/
structure Refused (failed : Prop) (denied : LifecycleError → Prop) (error : LifecycleError)
    (n₀ n : Node) : Prop extends Unmoved failed n₀ n where
  why : Refusal denied n₀ error
  free : n.call = none
  result : n.startResult = .error error

/-- The node was started, and it executes unless it has failed since. -/
structure Started (failed : Prop) (n₀ n : Node) : Prop extends Anew failed n₀ n where
  free : n.call = none
  executing : n.control.running = true ∨ failed

/-- The node was started and told to stop. -/
structure Undone (failed : Prop) (n₀ n : Node) : Prop extends Anew failed n₀ n where
  stopped : n.control.running = false
  taken : n.control.handle = none

/-- The start of the node is in progress or has returned. -/
inductive Awaited (failed : Prop) (denied : LifecycleError → Prop) (n₀ n : Node) : Prop
  | waits (c : Call) (calls : n.call = some c) (isStart : c.isStart = true)
      (unmoved : Unmoved failed n₀ n)
  | refused (error : LifecycleError) (refused : Refused failed denied error n₀ n)
  | started (started : Started failed n₀ n)

/-- Afterwards no thread is new, a node executes only if it did before, and it still does if it did
and has not failed. -/
structure Restored (failed : Prop) (n₀ n : Node) : Prop where
  live : ∀ t, n.isLive t = true → n₀.isLive t = true
  resting : n₀.isExecuting = false → n.isExecuting = false
  executing : n₀.isExecuting = true → n.isExecuting = true ∨ failed

end Node

open Node

/-- What a node is to a start of all. -/
inductive Status
  | untouched
  | starting
  | started
  | stopping
  | stopped
  | refused (error : LifecycleError)

def Status.Holds (failed : Prop) (denied : LifecycleError → Prop) (n₀ n : Node) : Status → Prop
  | untouched => n.call = none ∧ LeftAlone n₀ n ∧ Unmoved failed n₀ n
  | starting => Awaited failed denied n₀ n
  | started => Started failed n₀ n
  | stopping => Undone failed n₀ n ∧ ∀ c, n.call = some c → c.isStop = true
  | stopped => Undone failed n₀ n ∧ n.call = none
  | refused error => Refused failed denied error n₀ n

namespace Node

variable {n₀ n n' : Node} {failed : Prop} {denied : LifecycleError → Prop}

theorem Spares.executing {thread : ThreadId} (spares : Spares thread n n')
    (marks : n.threads.get? thread = some .markFailed → failed)
    (executing : n.control.running = true ∨ failed) : n'.control.running = true ∨ failed := by
  rcases spares.running with same | ⟨_, marked⟩
  · rwa [same]
  · exact .inr (marks marked)

theorem Unmoved.refl (failed : Prop) (n : Node) : Unmoved failed n n :=
  ⟨rfl, rfl, fun _ => id, id, .inl⟩

theorem Unmoved.of_spares {thread : ThreadId} (unmoved : Unmoved failed n₀ n)
    (spares : Spares thread n n') (marks : n.threads.get? thread = some .markFailed → failed) :
    Unmoved failed n₀ n' where
  vertex := spares.vertex.trans unmoved.vertex
  spawned := spares.spawned.trans unmoved.spawned
  live t live := unmoved.live t (spares.live t live)
  resting running := unmoved.resting (spares.ran running)
  running before := spares.executing marks (unmoved.running before)

theorem Unmoved.of_stays (unmoved : Unmoved failed n₀ n) (stays : Stays n n') :
    Unmoved failed n₀ n' where
  vertex := stays.vertex.trans unmoved.vertex
  spawned := stays.spawned.trans unmoved.spawned
  live t live := unmoved.live t (by rwa [isLive, ← stays.threads])
  resting running := unmoved.resting (stays.running.symm.trans running)
  running before := by
    rw [stays.running]
    exact unmoved.running before

theorem Unmoved.launched (unmoved : Unmoved failed n₀ n) (stopped : n.control.running = false) :
    Started failed n₀ n.launched where
  spawned := congrArg (· + 1) unmoved.spawned
  result := rfl
  -- nobody but a failing thread can have cleared the flag
  fallen before := (unmoved.running before).resolve_left (by simp [stopped])
  free := rfl
  executing := .inl rfl

/-- A node that is refused for a reason would have been refused for it from the beginning. -/
theorem Unmoved.refusal (unmoved : Unmoved failed n₀ n) {error : LifecycleError}
    (why : Refusal denied n error) : Refusal denied n₀ error := by
  have name : n.name = n₀.name := congrArg Vertex.name unmoved.vertex
  cases why with
  | executing running =>
    rw [name]
    exact .executing (unmoved.resting running)
  | network cause =>
    rw [name]
    exact .network cause
  | system _ denies => exact .system error denies

theorem Unmoved.startStep (unmoved : Unmoved failed n₀ n) (step : StartStep denied n n') :
    Awaited failed denied n₀ n' := by
  cases step with
  | waits c calls isStart stays => exact .waits c calls isStart (unmoved.of_stays stays)
  | refused e why free result stays =>
    exact .refused e ⟨unmoved.of_stays stays, unmoved.refusal why, free, result⟩
  | launched stopped => exact .started (unmoved.launched stopped)

theorem Anew.stopStep (anew : Anew failed n₀ n) (step : StopStep n n') : Undone failed n₀ n' where
  spawned := step.spawned.trans anew.spawned
  result := step.startResult.trans anew.result
  fallen := anew.fallen
  stopped := step.stopped
  taken := step.taken

theorem Unmoved.restored (unmoved : Unmoved failed n₀ n) (before : n₀.Consistent)
    (after : n.Consistent) : Restored failed n₀ n where
  live := unmoved.live
  resting rested := by
    rw [← Bool.not_eq_true, before.isExecuting_iff] at rested
    rw [← Bool.not_eq_true, after.isExecuting_iff]
    exact fun running => rested (unmoved.resting running)
  executing := by
    rw [before.isExecuting_iff, after.isExecuting_iff]
    exact unmoved.running

/-- Once the stop has returned, no thread is left. -/
theorem Undone.isLive (undone : Undone failed n₀ n) (consistent : n.Consistent)
    (free : n.call = none) (t : ThreadId) : n.isLive t = false := by
  rw [← Bool.not_eq_true]
  intro live
  cases undone.taken.symm.trans (consistent.handle_of_live free t live)

/-- What was started is stopped again, so that a node which executed before does not execute any
more: it had failed. -/
theorem Undone.restored (undone : Undone failed n₀ n) (before : n₀.Consistent)
    (after : n.Consistent) (free : n.call = none) : Restored failed n₀ n where
  live t live := by cases (undone.isLive after free t).symm.trans live
  resting _ := by simp [isExecuting, undone.stopped]
  executing executed := .inr (undone.fallen (before.isExecuting_iff.1 executed))

theorem Awaited.started_of_ok (awaited : Awaited failed denied n₀ n) (free : n.call = none)
    (result : n.startResult = .ok ()) : Started failed n₀ n := by
  cases awaited with
  | waits c calls => cases free.symm.trans calls
  | refused error refused => cases result.symm.trans refused.result
  | started started => exact started

theorem Awaited.refused_of_error (awaited : Awaited failed denied n₀ n) (free : n.call = none)
    {error : LifecycleError} (result : n.startResult = .error error) :
    Refused failed denied error n₀ n := by
  cases awaited with
  | waits c calls => cases free.symm.trans calls
  | refused error refused =>
    cases result.symm.trans refused.result
    exact refused
  | started started => cases result.symm.trans started.result

section

variable {thread : ThreadId} (spares : Spares thread n n')
  (marks : n.threads.get? thread = some .markFailed → failed)
include spares

theorem Anew.of_spares (anew : Anew failed n₀ n) : Anew failed n₀ n' where
  spawned := spares.spawned.trans anew.spawned
  result := spares.startResult.trans anew.result
  fallen := anew.fallen

theorem Undone.of_spares (undone : Undone failed n₀ n) : Undone failed n₀ n' where
  toAnew := undone.toAnew.of_spares spares
  stopped := spares.stopped undone.stopped
  taken := spares.handle.trans undone.taken

include marks

theorem Refused.of_spares {error : LifecycleError} (refused : Refused failed denied error n₀ n) :
    Refused failed denied error n₀ n' where
  toUnmoved := refused.toUnmoved.of_spares spares marks
  why := refused.why
  free := spares.call.trans refused.free
  result := spares.startResult.trans refused.result

theorem Started.of_spares (started : Started failed n₀ n) : Started failed n₀ n' where
  toAnew := started.toAnew.of_spares spares
  free := spares.call.trans started.free
  executing := spares.executing marks started.executing

theorem Awaited.of_spares (awaited : Awaited failed denied n₀ n) : Awaited failed denied n₀ n' := by
  cases awaited with
  | waits c calls isStart unmoved =>
    exact .waits c (spares.call.trans calls) isStart (unmoved.of_spares spares marks)
  | refused error refused => exact .refused error (refused.of_spares spares marks)
  | started started => exact .started (started.of_spares spares marks)

end

end Node

namespace Status

variable {n₀ n : Node} {failed : Prop} {denied : LifecycleError → Prop} {status : Status}

/-- Threads run in every status, and no status is lost by it. -/
theorem Holds.threadStep (holds : status.Holds failed denied n₀ n) (m : Moment)
    (callFree : ∀ act ∈ m.acts, act.isCall = false) (thread : ThreadId)
    (marks : n.threads.get? thread = some .markFailed → failed) (f : Fabric) :
    status.Holds failed denied n₀ (n.threadStep m thread f).1 := by
  have unstopped : .stop ∉ m.acts := fun member => nomatch callFree .stop member
  have spares := threadStep_spares m unstopped thread n f
  cases status with
  | untouched =>
    obtain ⟨free, alone, unmoved⟩ := holds
    exact ⟨spares.call.trans free, .thread alone m callFree thread f,
      unmoved.of_spares spares marks⟩
  | starting => exact Awaited.of_spares spares marks holds
  | started => exact Started.of_spares spares marks holds
  | stopping => exact ⟨holds.1.of_spares spares, spares.call ▸ holds.2⟩
  | stopped => exact ⟨holds.1.of_spares spares, spares.call.trans holds.2⟩
  | refused error => exact Refused.of_spares spares marks holds

/-- The call in progress goes on, and stays within the status. -/
theorem Holds.answered (holds : status.Holds failed denied n₀ n) (consistent : n.Consistent)
    (answer : Answer) (denies : ∀ e, answer.denied = some e → denied e) (f : Fabric) :
    (n.answered answer f).1.Consistent ∧ status.Holds failed denied n₀ (n.answered answer f).1 := by
  have rests (free : n.call = none) : (n.answered answer f).1.Consistent ∧
      status.Holds failed denied n₀ (n.answered answer f).1 := by
    rw [answered_of_free free]
    exact ⟨consistent, holds⟩
  cases status with
  | untouched => exact rests holds.1
  | starting =>
    cases holds with
    | waits c calls isStart unmoved =>
      obtain ⟨after, step⟩ := answered_start consistent calls isStart answer denies f
      exact ⟨after, unmoved.startStep step⟩
    | refused error refused => exact rests refused.free
    | started started => exact rests started.free
  | started => exact rests (Started.free holds)
  | stopping =>
    cases calls : n.call with
    | none => exact rests calls
    | some c =>
      obtain ⟨undone, isStop⟩ := holds
      obtain ⟨after, step⟩ := answered_stop consistent calls (isStop c calls) answer f
      exact ⟨after, undone.toAnew.stopStep step, step.calls⟩
  | stopped => exact rests holds.2
  | refused error => exact rests (Refused.free holds)

theorem Holds.beginStart (holds : untouched.Holds failed denied n₀ n) (consistent : n.Consistent) :
    n.beginStart.Consistent ∧ starting.Holds failed denied n₀ n.beginStart := by
  obtain ⟨free, _, unmoved⟩ := holds
  obtain ⟨after, step⟩ := beginStart_steps consistent free
  exact ⟨after, unmoved.startStep step⟩

theorem Holds.beginStop (holds : started.Holds failed denied n₀ n) (consistent : n.Consistent) :
    n.beginStop.Consistent ∧ stopping.Holds failed denied n₀ n.beginStop := by
  obtain ⟨after, step⟩ := beginStop_steps consistent (Started.free holds)
  exact ⟨after, (Started.toAnew holds).stopStep step, step.calls⟩

end Status

end RegionNet
