import RegionNet.Proofs.Node.Lifecycle

/-!
# Which reports a node comes to cache

A thread builds a report in one step and caches it in the next, so a report is either cached or on
its way to be. What holds of all those reports, and of every report that is built, is kept by all
that thread and caller do: nothing else ever gets into the cache. The vertex and what the node was
told of its region are touched by moves only.
-/

namespace RegionNet.Node

/-- What holds of every report that is cached or about to be. -/
structure EveryReport (P : Report Float → Prop) (n : Node) : Prop where
  cached : ∀ r, n.latestReport = some r → P r
  underway : ∀ t r, n.threads.get? t = some (.storeReport r) → P r

namespace EveryReport

variable {P : Report Float → Prop} {n n' : Node}

theorem new (P : Report Float → Prop) (vertex : Vertex) (resources : ResourceManager)
    (window : EstimationWindow) : EveryReport P (Node.new vertex resources window) where
  cached _ latest := by cases latest
  underway _ _ present := by cases present

theorem underway_proceed (every : EveryReport P n) (thread t : ThreadId) (next : Phase)
    (r : Report Float) (built : next = .storeReport r → P r)
    (present : (n.proceed thread next).threads.get? t = some (.storeReport r)) : P r := by
  rw [get?_proceed] at present
  split at present
  · exact built (Option.some.inj present)
  · exact every.underway t r present

theorem underway_exit (every : EveryReport P n) (thread t : ThreadId) (r : Report Float)
    (present : (n.exit thread).threads.get? t = some (.storeReport r)) : P r := by
  rw [get?_exit] at present
  split at present
  · cases present
  · exact every.underway t r present

theorem threadOutcome {thread : ThreadId} {phase : Phase} (every : EveryReport P n)
    (fresh : ∀ now, P (n.report now n.window)) (present : n.threads.get? thread = some phase)
    (outcome : ThreadOutcome thread phase n n') : EveryReport P n' := by
  cases outcome with
  | goesOn calm heartbeat completed latest log next unmarked notes stored built =>
    -- the cache is filled from what is on its way, and that from the node as it is
    refine ⟨fun r cached => ?_, fun t r => every.underway_proceed thread t next r fun stores => ?_⟩
    · rcases stored with same | ⟨r', rfl, new⟩
      · exact every.cached r (same.symm.trans cached)
      · cases new.symm.trans cached
        exact every.underway thread r present
    · obtain ⟨now, rfl⟩ := built r stores
      exact fresh now
  | ends calm stopped => exact ⟨every.cached, fun t r => every.underway_exit thread t r⟩
  | records error met =>
    exact ⟨every.cached, fun t r => every.underway_proceed thread t .markFailed r (by simp)⟩
  | fails marked => exact ⟨every.cached, fun t r => every.underway_exit thread t r⟩

end EveryReport

/-- What no step changes but the first one of a move, and reports that are kept or given up. -/
structure Frame (n n' : Node) : Prop where
  vertex : n'.vertex = n.vertex
  resources : n'.resources = n.resources
  window : n'.window = n.window
  latest : ∀ r, n'.latestReport = some r → n.latestReport = some r
  underway : ∀ t r, n'.threads.get? t = some (.storeReport r) →
    n.threads.get? t = some (.storeReport r)

theorem Frame.every {P : Report Float → Prop} {n n' : Node} (frame : Frame n n')
    (every : EveryReport P n) : EveryReport P n' where
  cached r stored := every.cached r (frame.latest r stored)
  underway t r present := every.underway t r (frame.underway t r present)

theorem beginStart_frame (n : Node) : Frame n n.beginStart := by
  simp only [beginStart]
  split <;> exact ⟨rfl, rfl, rfl, fun _ => id, fun _ _ => id⟩

theorem beginStop_frame (n : Node) : Frame n n.beginStop := by
  simp only [beginStop]
  split <;> exact ⟨rfl, rfl, rfl, fun _ => id, fun _ _ => id⟩

/-- A start or a stop begins no move, and leaves alone what the node was told. -/
theorem beginStart_unmoved (n : Node) :
    n.beginStart.regionView = n.regionView ∧
      ∀ c, n.beginStart.call = some c → c.isMove = false := by
  simp only [beginStart]
  split
  · exact ⟨rfl, fun c calls => by cases calls⟩
  · refine ⟨rfl, fun c calls => ?_⟩
    split at calls <;> cases calls <;> rfl

theorem beginStop_unmoved (n : Node) (unmoved : ∀ c, n.call = some c → c.isMove = false) :
    n.beginStop.regionView = n.regionView ∧
      ∀ c, n.beginStop.call = some c → c.isMove = false := by
  simp only [beginStop]
  split
  · refine ⟨rfl, fun c calls => ?_⟩
    cases calls
    split <;> rfl
  · exact ⟨rfl, unmoved⟩

variable {ν : Type} [Network ν]

/-- A new thread starts without a report. -/
theorem launch_frame (n : Node) (net : ν) : Frame n (n.launch net).1 := by
  simp only [launch]
  split
  · exact ⟨rfl, rfl, rfl, fun _ => id, fun _ _ => id⟩
  · split
    · exact ⟨rfl, rfl, rfl, fun _ => id, fun _ _ => id⟩
    · refine ⟨rfl, rfl, rfl, fun _ => id, fun t r present => ?_⟩
      have placed : (n.proceed n.spawned .loopTest).threads.get? t = some (.storeReport r) :=
        present
      rw [get?_proceed] at placed
      split at placed
      · cases placed
      · exact placed

theorem callStep_frame (n : Node) (net : ν) : Frame n (n.callStep net).1 := by
  simp only [callStep]
  split
  case h_4 => exact n.launch_frame net
  case h_3 | h_7 => split <;> exact ⟨rfl, rfl, rfl, fun _ => id, fun _ _ => id⟩
  case h_9 => exact ⟨rfl, rfl, rfl, fun _ dropped => (by cases dropped), fun _ _ => id⟩
  all_goals exact ⟨rfl, rfl, rfl, fun _ => id, fun _ _ => id⟩

theorem launch_unmoved (n : Node) (net : ν) :
    (n.launch net).1.regionView = n.regionView ∧ (n.launch net).1.call = none := by
  rw [launch]
  split
  · exact ⟨rfl, rfl⟩
  · split <;> exact ⟨rfl, rfl⟩

/-- A call that is no move goes on with no move, and leaves alone what the node was told. -/
theorem callStep_unmoved (n : Node) (net : ν) (unmoved : ∀ c, n.call = some c → c.isMove = false) :
    (n.callStep net).1.regionView = n.regionView ∧
      ∀ c, (n.callStep net).1.call = some c → c.isMove = false := by
  cases calls : n.call with
  | none =>
    rw [n.callStep_of_free net calls]
    exact ⟨rfl, unmoved⟩
  | some c =>
    have stays := unmoved c calls
    cases c with
    | reap thread | stopHook thread | stopNetwork thread =>
      simp only [callStep, calls]
      exact ⟨rfl, by simp [Call.isMove]⟩
    | settle =>
      simp only [callStep, calls]
      exact ⟨trivial, by simp⟩
    | reapJoin thread | stopJoin thread =>
      simp only [callStep, calls]
      split
      · exact ⟨rfl, unmoved⟩
      · exact ⟨rfl, by simp [Call.isMove]⟩
    | launch =>
      obtain ⟨view, free⟩ := n.launch_unmoved net
      simp only [callStep, calls]
      exact ⟨view, by simp [free]⟩
    | dropReport region | resetView region | clearNetwork => cases stays

section

variable [LawfulNetwork ν] (n : Node) (m : Moment) (thread : ThreadId) (net : ν)

/-- Hooks and engine change at most what the lock guards, and leave events. -/
theorem threadStep_outcome {phase : Phase} (present : n.threads.get? thread = some phase) :
    ∃ control log, ThreadOutcome thread phase { n with control := control, log := log }
      (n.threadStep m thread net).1 := by
  -- kept by every act, so that the outcome starts from a node that differs in these two only
  let P (n' : Node) (_ : ν) : Prop := ∃ control log, n' = { n with control := control, log := log }
  have event (n' : Node) (net' : ν) (e : Event) (_ : e.isNote = true) (holds : P n' net') :
      P (n'.emit e) net' := by
    obtain ⟨control, log, rfl⟩ := holds
    exact ⟨_, _, rfl⟩
  have stop (_ : .stop ∈ m.acts) (n' : Node) (net' : ν) (holds : P n' net') :
      P (n'.stopItself net').1 (n'.stopItself net').2 := by
    obtain ⟨control, log, rfl⟩ := holds
    obtain ⟨control', log', stopped⟩ := stopItself_frame { n with control, log } net'
    exact ⟨control', log', stopped⟩
  obtain ⟨n₁, _, ⟨control, log, rfl⟩, outcome, _⟩ :=
    threadStep_comesTo event stop thread n net ⟨n.control, n.log, rfl⟩ present
  exact ⟨control, log, outcome⟩

/-- A thread leaves alone what a move changes. -/
theorem threadStep_keeps :
    (n.threadStep m thread net).1.vertex = n.vertex ∧
      (n.threadStep m thread net).1.resources = n.resources ∧
      (n.threadStep m thread net).1.window = n.window ∧
      (n.threadStep m thread net).1.regionView = n.regionView ∧
      (n.threadStep m thread net).1.call = n.call := by
  cases present : n.threads.get? thread with
  | none =>
    rw [threadStep_of_missing m thread n net present]
    exact ⟨rfl, rfl, rfl, rfl, rfl⟩
  | some phase =>
    obtain ⟨control, log, outcome⟩ := n.threadStep_outcome m thread net present
    generalize (n.threadStep m thread net).1 = n' at outcome
    cases outcome <;> exact ⟨rfl, rfl, rfl, rfl, rfl⟩

/-- A step of a thread caches what was on its way, or builds a report of the node as it is. -/
theorem EveryReport.threadStep {P : Report Float → Prop} (every : EveryReport P n)
    (fresh : ∀ now, P (n.report now n.window)) :
    EveryReport P (n.threadStep m thread net).1 := by
  cases present : n.threads.get? thread with
  | none => rwa [threadStep_of_missing m thread n net present]
  | some phase =>
    obtain ⟨control, log, outcome⟩ := n.threadStep_outcome m thread net present
    have every' : EveryReport P { n with control := control, log := log } :=
      ⟨every.cached, every.underway⟩
    exact every'.threadOutcome fresh present outcome

end

end RegionNet.Node
