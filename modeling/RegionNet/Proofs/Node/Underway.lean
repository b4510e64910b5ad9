import RegionNet.Node.Call
import RegionNet.Proofs.Node.QuietStep
import RegionNet.Proofs.Node.Report

/-!
# A node in an undisturbed run

While a node is started, runs and is stopped, and is not moved and does not fail, it reports the
same all the time, the time of the report aside, and so does whatever it keeps of its reports.

The stop can fall between two steps of a cycle. Only in the first cycle does it matter: a node that
was stopped after its first cycle was counted and before the report of that cycle was kept has no
report at all, and its thread ends. After a second cycle there is a report, whatever the stop does.
-/

namespace RegionNet

def Call.isMove : Call → Bool
  | .dropReport _ => true
  | .resetView _ => true
  | .clearNetwork => true
  | _ => false

def Call.isStop : Call → Bool
  | .stopHook _ => true
  | .stopNetwork _ => true
  | .stopJoin _ => true
  | .settle => true
  | _ => false

namespace Node

variable {ν : Type} [Network ν] {n₀ n n' : Node}

/-- The node reports what `n₀` does, as do the report that it keeps and the one that it is about to
keep. Nobody is moving it, and no thread of it has met an error. -/
structure Undisturbed (n₀ n : Node) : Prop where
  vertex : n.vertex = n₀.vertex
  resources : n.resources = n₀.resources
  window : n.window = n₀.window
  call : ∀ c, n.call = some c → c.isMove = false
  calm : ∀ t phase, n.threads.get? t = some phase → phase.isCalm = true
  cached : ∀ r, n.latestReport = some r → r.untimed = (n₀.report 0 n₀.window).untimed
  pending : ∀ t r, n.threads.get? t = some (.storeReport r) →
    r.untimed = (n₀.report 0 n₀.window).untimed

theorem Undisturbed.report_untimed (undisturbed : Undisturbed n₀ n) (now : Timestamp) :
    (n.report now n.window).untimed = (n₀.report 0 n₀.window).untimed := by
  have same : n.report now n.window = n₀.report now n₀.window := by
    simp only [report, undisturbed.vertex, undisturbed.resources, undisturbed.window]
  rw [same]
  exact Node.report_untimed n₀ now 0 n₀.window

theorem Undisturbed.quietStep (undisturbed : Undisturbed n₀ n) (now : Timestamp)
    (thread : ThreadId) (phase : Phase) (present : n.threads.get? thread = some phase)
    (step : QuietStep (n.report now n.window) thread phase n n') : Undisturbed n₀ n' := by
  constructor
  case vertex => exact step.vertex.trans undisturbed.vertex
  case resources => exact step.resources.trans undisturbed.resources
  case window => exact step.window.trans undisturbed.window
  case call => simpa only [step.call] using undisturbed.call
  case calm =>
    intro t phase' found
    rw [step.threads] at found
    split at found
    · exact Phase.isCalm_next _ _ phase phase' (undisturbed.calm thread phase present) found
    · exact undisturbed.calm t phase' found
  case cached =>
    intro r kept
    rw [step.latestReport] at kept
    split at kept
    next r' =>
      cases kept
      exact undisturbed.pending thread r present
    next => exact undisturbed.cached r kept
  case pending =>
    intro t r found
    rw [step.threads] at found
    split at found
    · -- a thread is about to keep a report only if it has just built it
      have built : r = n.report now n.window := by
        cases phase <;> simp only [Phase.next] at found <;> grind
      rw [built]
      exact undisturbed.report_untimed now
    · exact undisturbed.pending t r found

/-- A step without acts does nothing, as its thread has ended, or it is a quiet one. -/
theorem Undisturbed.threadStep_cases (undisturbed : Undisturbed n₀ n) (now : Timestamp)
    (thread : ThreadId) (net : ν) :
    (n.threadStep ⟨now, []⟩ thread net).1 = n ∨
      ∃ phase, n.threads.get? thread = some phase ∧ phase.isCalm = true ∧
        QuietStep (n.report now n.window) thread phase n (n.threadStep ⟨now, []⟩ thread net).1 := by
  cases present : n.threads.get? thread with
  | none => exact .inl (by rw [threadStep_of_missing _ thread n net present])
  | some phase =>
    have calm := undisturbed.calm thread phase present
    exact .inr ⟨phase, rfl, calm, Node.quietStep now thread phase n net present calm⟩

theorem Undisturbed.threadStep (undisturbed : Undisturbed n₀ n) (now : Timestamp)
    (thread : ThreadId) (net : ν) : Undisturbed n₀ (n.threadStep ⟨now, []⟩ thread net).1 := by
  rcases undisturbed.threadStep_cases now thread net with same | ⟨phase, present, _, step⟩
  · rwa [same]
  · exact undisturbed.quietStep now thread phase present step

/-- The steps of starts and stops change nothing that is reported. -/
theorem Undisturbed.of_frame (undisturbed : Undisturbed n₀ n) (vertex : n'.vertex = n.vertex)
    (resources : n'.resources = n.resources) (window : n'.window = n.window)
    (latest : n'.latestReport = n.latestReport)
    (call : ∀ c, n'.call = some c → c.isMove = false)
    (threads : ∀ t phase, n'.threads.get? t = some phase →
      phase = .loopTest ∨ n.threads.get? t = some phase) : Undisturbed n₀ n' := by
  constructor
  case vertex => exact vertex.trans undisturbed.vertex
  case resources => exact resources.trans undisturbed.resources
  case window => exact window.trans undisturbed.window
  case call => exact call
  case calm =>
    intro t phase found
    rcases threads t phase found with rfl | old
    · rfl
    · exact undisturbed.calm t phase old
  case cached => simpa only [latest] using undisturbed.cached
  case pending =>
    intro t r found
    rcases threads t _ found with new | old
    · cases new
    · exact undisturbed.pending t r old

theorem Undisturbed.beginStart (undisturbed : Undisturbed n₀ n) :
    Undisturbed n₀ n.beginStart := by
  simp only [Node.beginStart]
  split
  · exact undisturbed.of_frame rfl rfl rfl rfl (fun c => by simp [answerStart])
      fun _ _ => .inr
  · refine undisturbed.of_frame rfl rfl rfl rfl (fun c started => ?_) fun _ _ => .inr
    cases started
    split <;> rfl

theorem Undisturbed.beginStop (undisturbed : Undisturbed n₀ n) : Undisturbed n₀ n.beginStop := by
  simp only [Node.beginStop]
  split
  · refine undisturbed.of_frame rfl rfl rfl rfl (fun c started => ?_) fun _ _ => .inr
    cases started
    split <;> rfl
  · exact undisturbed

theorem Undisturbed.launch (undisturbed : Undisturbed n₀ n) (net : ν) :
    Undisturbed n₀ (n.launch net).1 := by
  simp only [Node.launch]
  split
  · exact undisturbed.of_frame rfl rfl rfl rfl (fun c => by simp [answerStart]) fun _ _ => .inr
  · split
    · exact undisturbed.of_frame rfl rfl rfl rfl (fun c => by simp [answerStart]) fun _ _ => .inr
    · refine undisturbed.of_frame rfl rfl rfl rfl (fun c => by simp [answerStart]) ?_
      intro t phase found
      have placed : (n.threads.insert n.spawned .loopTest).get? t = some phase := found
      rw [SortedMap.get?_insert] at placed
      split at placed
      · exact .inl (Option.some.inj placed).symm
      · exact .inr placed

theorem Undisturbed.callStep (undisturbed : Undisturbed n₀ n) (net : ν) :
    Undisturbed n₀ (n.callStep net).1 := by
  simp only [Node.callStep]
  split
  · exact undisturbed
  · exact undisturbed.of_frame rfl rfl rfl rfl (fun c same => by cases same; rfl) fun _ _ => .inr
  · split
    · exact undisturbed
    · exact undisturbed.of_frame rfl rfl rfl rfl (fun c same => by cases same; rfl) fun _ _ => .inr
  · exact undisturbed.launch net
  · exact undisturbed.of_frame rfl rfl rfl rfl (fun c same => by cases same; rfl) fun _ _ => .inr
  · exact undisturbed.of_frame rfl rfl rfl rfl (fun c same => by cases same; rfl) fun _ _ => .inr
  · split
    · exact undisturbed
    · exact undisturbed.of_frame rfl rfl rfl rfl (fun c same => by cases same; rfl) fun _ _ => .inr
  · exact undisturbed.of_frame rfl rfl rfl rfl (fun c same => by cases same) fun _ _ => .inr
  -- the steps of a move do not occur
  · next region moving => exact absurd (undisturbed.call _ moving) (by simp [Call.isMove])
  · next region moving => exact absurd (undisturbed.call _ moving) (by simp [Call.isMove])
  · next moving => exact absurd (undisturbed.call _ moving) (by simp [Call.isMove])

/-! ### How far a node is -/

/-- The node was not started. -/
structure Idle (n : Node) : Prop where
  control : n.control.running = false ∧ n.control.handle = none
  call : n.call = none
  threads : ∀ t, n.threads.get? t = none
  completedCycles : n.completedCycles = 0

/-- Is the thread between counting its first cycle and keeping the report of that cycle, or asleep
for the last time? -/
def pastCount (running : Bool) : Phase → Bool
  | .countTest => true
  | .buildReport => true
  | .storeReport _ => true
  | .sleep => !running
  | _ => false

/-- The node was started, and maybe told to stop. It has a report, or is in its first cycle still,
or was stopped in it. -/
structure Underway (n : Node) : Prop where
  call : ∀ c, n.call = some c → c.isStop = true
  alone : ∀ t t', n.isLive t = true → n.isLive t' = true → t = t'
  progress : n.latestReport.isSome = true ∨ n.completedCycles = 0 ∨
    n.completedCycles = 1 ∧
      ∀ t phase, n.threads.get? t = some phase → pastCount n.control.running phase = true

/-- The node was started and not told to stop. -/
structure Active (n : Node) : Prop extends Underway n where
  free : n.call = none
  executing : ∃ t phase, n.control = ⟨true, some t, .running⟩ ∧ n.threads.get? t = some phase

/-- The node is being started, or the start has ended. -/
inductive Launching (n : Node) : Prop
  | waiting : n.call = some .launch → n.control.running = false → n.control.handle = none →
      (∀ t, n.threads.get? t = none) → n.completedCycles = 0 → Launching n
  | ended : n.call = none → (n.startResult = .ok () → Active n) → Launching n

theorem Active.isExecuting (active : Active n) : n.isExecuting = true := by
  obtain ⟨t, phase, control, present⟩ := active.executing
  simp [Node.isExecuting, control, (isLive_iff n t).2 ⟨phase, present⟩]

theorem Underway.quietStep (underway : Underway n) (report : Report Float) (thread : ThreadId)
    (phase : Phase) (present : n.threads.get? thread = some phase)
    (step : QuietStep report thread phase n n') : Underway n' := by
  have only (t : ThreadId) (phase' : Phase) (found : n'.threads.get? t = some phase') :
      t = thread ∧ phase.next n.control.running report = some phase' := by
    rw [step.threads] at found
    split at found
    next same => exact ⟨same, found⟩
    next other =>
      exact absurd (underway.alone t thread ((isLive_iff n t).2 ⟨_, found⟩)
        ((isLive_iff n thread).2 ⟨_, present⟩)) other
  constructor
  case call => simpa only [step.call] using underway.call
  case alone =>
    intro t t' live live'
    obtain ⟨_, found⟩ := (isLive_iff n' t).1 live
    obtain ⟨_, found'⟩ := (isLive_iff n' t').1 live'
    rw [(only t _ found).1, (only t' _ found').1]
  case progress =>
    rcases underway.progress with kept | none | ⟨one, past⟩
    · left
      rw [step.latestReport]
      split
      · rfl
      · exact kept
    · -- the first cycle is counted, or it goes on
      right
      by_cases counts : phase = .increment
      · refine .inr ⟨by simp [step.completedCycles, counts, none], fun t phase' found => ?_⟩
        obtain ⟨_, next⟩ := only t phase' found
        rw [counts] at next
        cases next
        rfl
      · left
        rw [step.completedCycles, if_neg counts, none]
    · have here := past thread phase present
      by_cases stores : ∃ r, phase = .storeReport r
      · obtain ⟨r, rfl⟩ := stores
        exact .inl (by rw [step.latestReport]; rfl)
      · have counted : phase ≠ .increment := by
          rintro rfl
          cases here
        refine .inr (.inr ⟨by rw [step.completedCycles, if_neg counted, one], ?_⟩)
        intro t phase' found
        obtain ⟨_, next⟩ := only t phase' found
        rw [step.control]
        cases phase with
        | countTest =>
          cases running : n.control.running <;> simp only [running, Phase.next] at next <;>
            cases next <;> rfl
        | buildReport =>
          cases next
          rfl
        | storeReport r => exact absurd ⟨r, rfl⟩ stores
        | sleep =>
          -- it sleeps for the last time, so that the thread has ended
          simp only [pastCount, Bool.not_eq_true'] at here
          simp [Phase.next, here] at next
        | _ => cases here

theorem Active.quietStep (active : Active n) (report : Report Float) (thread : ThreadId)
    (phase : Phase) (present : n.threads.get? thread = some phase) (calm : phase.isCalm = true)
    (step : QuietStep report thread phase n n') : Active n' := by
  refine ⟨active.toUnderway.quietStep report thread phase present step,
    step.call.trans active.free, ?_⟩
  obtain ⟨t, phase₀, control, present₀⟩ := active.executing
  have same : t = thread := active.alone t thread ((isLive_iff n t).2 ⟨_, present₀⟩)
    ((isLive_iff n thread).2 ⟨_, present⟩)
  -- a thread that is not told to stop goes on from every phase
  have next : ∃ phase', phase.next true report = some phase' := by
    cases phase <;> first | exact ⟨_, rfl⟩ | cases calm
  obtain ⟨phase', next⟩ := next
  refine ⟨t, phase', step.control.trans control, ?_⟩
  rw [step.threads, if_pos same, control, next]

/-! ### The steps of a run -/

theorem Idle.threadStep (idle : Idle n) (m : Moment) (thread : ThreadId) (net : ν) :
    Idle (n.threadStep m thread net).1 := by
  rw [threadStep_of_missing m thread n net (idle.threads thread)]
  exact idle

theorem callStep_of_free (n : Node) (net : ν) (free : n.call = none) :
    n.callStep net = (n, net) := by
  simp [Node.callStep, free]

theorem Idle.beginStart (idle : Idle n) : Launching n.beginStart := by
  obtain ⟨running, handle⟩ := idle.control
  refine .waiting ?_ ?_ ?_ ?_ ?_
  all_goals simp [Node.beginStart, running, handle, idle.threads, idle.completedCycles]

theorem Underway.threadStep (underway : Underway n) (undisturbed : Undisturbed n₀ n)
    (now : Timestamp) (thread : ThreadId) (net : ν) :
    Underway (n.threadStep ⟨now, []⟩ thread net).1 := by
  rcases undisturbed.threadStep_cases now thread net with same | ⟨phase, present, _, step⟩
  · rwa [same]
  · exact underway.quietStep _ thread phase present step

theorem Active.threadStep (active : Active n) (undisturbed : Undisturbed n₀ n)
    (now : Timestamp) (thread : ThreadId) (net : ν) :
    Active (n.threadStep ⟨now, []⟩ thread net).1 := by
  rcases undisturbed.threadStep_cases now thread net with same | ⟨phase, present, calm, step⟩
  · rwa [same]
  · exact active.quietStep _ thread phase present calm step

theorem Launching.threadStep (launching : Launching n) (undisturbed : Undisturbed n₀ n)
    (now : Timestamp) (thread : ThreadId) (net : ν) :
    Launching (n.threadStep ⟨now, []⟩ thread net).1 := by
  cases launching with
  | waiting call running handle threads completed =>
    rw [threadStep_of_missing _ thread n net (threads thread)]
    exact .waiting call running handle threads completed
  | ended free active =>
    rcases undisturbed.threadStep_cases now thread net with same | ⟨phase, present, calm, step⟩
    · rw [same]
      exact .ended free active
    · refine .ended (step.call.trans free) fun started => ?_
      rw [step.startResult] at started
      exact (active started).quietStep _ thread phase present calm step

theorem Launching.callStep (launching : Launching n) (net : ν) :
    Launching (n.callStep net).1 := by
  cases launching with
  | waiting call running handle threads completed =>
    have step : n.callStep net = n.launch net := by simp [Node.callStep, call]
    rw [step, Node.launch]
    simp only [running, handle, Option.isSome_none, Bool.or_self, Bool.false_eq_true, ↓reduceIte]
    cases Network.start n.vertex net with
    | error cause => exact .ended rfl fun started => by cases started
    | ok net' =>
      -- the new thread is the only one, and it has done nothing yet
      have only (t : ThreadId) (phase : Phase)
          (found : (n.threads.insert n.spawned .loopTest).get? t = some phase) :
          t = n.spawned := by
        rw [SortedMap.get?_insert, threads t] at found
        split at found
        next same => exact same
        next => cases found
      refine .ended rfl fun _ => ⟨⟨fun c same => (by cases same), ?_, .inr (.inl completed)⟩, rfl,
        n.spawned, .loopTest, rfl, SortedMap.get?_insert_self n.threads n.spawned .loopTest⟩
      intro t t' live live'
      obtain ⟨phase, found⟩ := (isLive_iff _ t).1 live
      obtain ⟨phase', found'⟩ := (isLive_iff _ t').1 live'
      rw [only t phase found, only t' phase' found']
  | ended free active =>
    rw [callStep_of_free n net free]
    exact .ended free active

/-- The steps of a stop change neither the threads nor what is counted and kept. -/
theorem Underway.of_frame (underway : Underway n) (threads : n'.threads = n.threads)
    (latest : n'.latestReport = n.latestReport)
    (completed : n'.completedCycles = n.completedCycles)
    (running : n'.control.running = true → n.control.running = true)
    (call : ∀ c, n'.call = some c → c.isStop = true) : Underway n' := by
  constructor
  case call => exact call
  case alone => simpa only [isLive, threads] using underway.alone
  case progress =>
    rw [latest, completed, threads]
    refine underway.progress.imp_right (Or.imp_right fun past => ⟨past.1, fun t phase found => ?_⟩)
    have before := past.2 t phase found
    cases phase with
    | sleep =>
      simp only [pastCount, Bool.not_eq_true'] at before ⊢
      cases after : n'.control.running with
      | false => rfl
      | true => exact absurd (running after) (by simp [before])
    | _ => exact before

theorem Underway.beginStop (underway : Underway n) : Underway n.beginStop := by
  simp only [Node.beginStop]
  split
  · refine underway.of_frame rfl rfl rfl (fun running => by cases running) fun c same => ?_
    cases same
    split <;> rfl
  · exact underway

theorem Underway.callStep (underway : Underway n) (net : ν) : Underway (n.callStep net).1 := by
  cases call : n.call with
  | none =>
    rw [callStep_of_free n net call]
    exact underway
  | some c =>
    have stops := underway.call c call
    cases c with
    | stopHook thread =>
      simp only [Node.callStep, call]
      exact underway.of_frame rfl rfl rfl id fun c same => by cases same; rfl
    | stopNetwork thread =>
      simp only [Node.callStep, call]
      exact underway.of_frame rfl rfl rfl id fun c same => by cases same; rfl
    | stopJoin thread =>
      simp only [Node.callStep, call]
      split
      · exact underway
      · exact underway.of_frame rfl rfl rfl id fun c same => by cases same; rfl
    | settle =>
      simp only [Node.callStep, call]
      exact underway.of_frame rfl rfl rfl id fun c same => by cases same
    | _ => cases stops

/-- Nobody but the thread counts cycles. -/
theorem completedCycles_callStep (n : Node) (net : ν) :
    (n.callStep net).1.completedCycles = n.completedCycles := by
  simp only [Node.callStep, Node.launch]
  split <;> (try split) <;> (try split) <;> rfl

theorem completedCycles_beginStop (n : Node) : n.beginStop.completedCycles = n.completedCycles := by
  simp only [Node.beginStop]
  split <;> rfl

end Node

end RegionNet
