import Mathlib.Data.List.Induction
import Mathlib.Order.Nat
import RegionNet.Proofs.Node.Lifecycle

/-!
# How often the hook before a stop runs

A stop runs its hook if it finds the node running or failed. The events of a node between two
launches tell how often that was. A stop by the thread itself runs the hook and leaves the handle;
if the thread fails after that, the node counts as failed, and the next stop from outside runs the
hook again. That is a relapse. With relapses the hook runs at most twice between two launches, and
without them at most once. In either case, a stop that found the node running has the hook run
before the node is launched again.
-/

namespace RegionNet

namespace Event

def isLaunch : Event → Bool
  | launched _ => true
  | _ => false

/-- The count of hook runs since the latest launch after one more event. -/
def tally (count : Nat) : Event → Nat
  | launched _ => 0
  | preStop => count + 1
  | _ => count

theorem tally_of_note {e : Event} (note : e.isNote = true) (count : Nat) :
    tally count e = count := by
  cases e <;> first | rfl | cases note

theorem isLaunch_of_note {e : Event} (note : e.isNote = true) : e.isLaunch = false := by
  cases e <;> first | rfl | cases note

end Event

/-! ### What is read from a log -/

/-- How often the hook ran since the latest launch. -/
def hooksSince (log : List Event) : Nat :=
  log.foldl Event.tally 0

theorem hooksSince_append (log events : List Event) :
    hooksSince (log ++ events) = events.foldl Event.tally (hooksSince log) := by
  rw [hooksSince, List.foldl_append, hooksSince]

theorem hooksSince_concat (log : List Event) (e : Event) :
    hooksSince (log ++ [e]) = Event.tally (hooksSince log) e :=
  hooksSince_append log [e]

/-- Among events that follow each other without a launch, the hook runs at most `k` times. -/
def HooksAtMost (k : Nat) (log : List Event) : Prop :=
  ∀ events, events <:+: log → (∀ e ∈ events, e.isLaunch = false) → events.count .preStop ≤ k

/-- The latest events hold no more hook runs than there were since the latest launch. -/
theorem count_le_hooksSince (before events : List Event)
    (unlaunched : ∀ e ∈ events, e.isLaunch = false) :
    events.count .preStop ≤ hooksSince (before ++ events) := by
  -- from the last event back, since the count since a launch is kept from left to right
  induction events using List.reverseRecOn with
  | nil => exact Nat.zero_le _
  | append_singleton events e ih =>
    have earlier := ih fun e' member => unlaunched e' (List.mem_append_left _ member)
    have last := unlaunched e (by simp)
    rw [← List.append_assoc, hooksSince_concat, List.count_append]
    cases e with
    | launched thread => cases last
    | preStop => simpa [Event.tally] using earlier
    | _ => simpa [Event.tally] using earlier

theorem HooksAtMost.concat {k : Nat} {log : List Event} (most : HooksAtMost k log) (e : Event)
    (within : Event.tally (hooksSince log) e ≤ k) : HooksAtMost k (log ++ [e]) := by
  intro events part unlaunched
  -- events that end with the new one are counted since the latest launch
  rcases List.infix_concat_iff.1 part with ⟨before, last⟩ | earlier
  · have count := count_le_hooksSince before events unlaunched
    rw [last, hooksSince_concat] at count
    exact Nat.le_trans count within
  · exact most events earlier unlaunched

/-- The hook ran at most once more than `k` times after each launch, the latest included. -/
structure HooksWithin (k : Nat) (log : List Event) : Prop where
  most : HooksAtMost (k + 1) log
  total : hooksSince log ≤ k + 1

theorem HooksWithin.concat {k : Nat} {log : List Event} (within : HooksWithin k log) (e : Event)
    (total : Event.tally (hooksSince log) e ≤ k + 1) : HooksWithin k (log ++ [e]) :=
  ⟨within.most.concat e total, by rwa [hooksSince_concat]⟩

/-- The hook runs among these events before any launch. -/
def Answered (events : List Event) : Prop :=
  ∃ middle rest, (∀ e ∈ middle, e.isLaunch = false) ∧ events = middle ++ .preStop :: rest

theorem Answered.append {events : List Event} (answered : Answered events) (more : List Event) :
    Answered (events ++ more) := by
  obtain ⟨middle, rest, unlaunched, rfl⟩ := answered
  exact ⟨middle, rest ++ more, unlaunched, by simp⟩

/-- What is answered before a launch is answered by what comes before that launch. -/
theorem Answered.mem_of_launch {events after : List Event} (answered : Answered (events ++ after))
    (launch : ∀ e ∈ after.head?, e.isLaunch = true) : .preStop ∈ events := by
  obtain ⟨middle, rest, unlaunched, split⟩ := answered
  rcases List.append_eq_append_iff.1 split with ⟨between, rfl, same⟩ | ⟨between, rfl, same⟩
  · -- the hook would come after a launch, or would be one
    cases between with
    | nil =>
      subst same
      cases launch .preStop rfl
    | cons e between =>
      subst same
      cases (unlaunched e (by simp)).symm.trans (launch e rfl)
  · cases between with
    | nil =>
      cases same
      cases launch .preStop rfl
    | cons e between =>
      cases same
      simp

/-- Every stop that found the node running was followed by the hook, before the next launch. -/
def StopsAnswered (log : List Event) : Prop :=
  ∀ before after, log = before ++ .stopRequested true :: after → Answered after

/-- The latest stop that found the node running is yet to run the hook. -/
def Owes (log : List Event) : Prop :=
  ∃ earlier notes, StopsAnswered earlier ∧ (∀ e ∈ notes, e.isNote = true) ∧
    log = earlier ++ .stopRequested true :: notes

/-- What comes last after an event is the last event of all. -/
theorem split_concat {log before after : List Event} {e x : Event} (differ : x ≠ e)
    (split : log ++ [e] = before ++ x :: after) :
    ∃ after', after = after' ++ [e] ∧ log = before ++ x :: after' := by
  rcases List.eq_nil_or_concat after with rfl | ⟨after, e', rfl⟩
  · have last := (List.append_inj' split rfl).2
    exact absurd (by simpa using last.symm) differ
  · rw [List.concat_eq_append, ← List.cons_append, ← List.append_assoc] at split
    obtain ⟨same, last⟩ := List.append_inj' split rfl
    exact ⟨after, by rw [List.concat_eq_append, last], same⟩

theorem StopsAnswered.concat {log : List Event} (answered : StopsAnswered log) (e : Event)
    (other : e ≠ .stopRequested true) : StopsAnswered (log ++ [e]) := by
  intro before after split
  obtain ⟨after', rfl, same⟩ := split_concat other.symm split
  exact (answered before after' same).append [e]

theorem StopsAnswered.request {log : List Event} (answered : StopsAnswered log) :
    Owes (log ++ [.stopRequested true]) :=
  ⟨log, [], answered, by simp, rfl⟩

theorem Owes.note {log : List Event} (owes : Owes log) (e : Event) (note : e.isNote = true) :
    Owes (log ++ [e]) := by
  obtain ⟨earlier, notes, answered, all, rfl⟩ := owes
  refine ⟨earlier, notes ++ [e], answered, ?_, by simp⟩
  intro e' member
  rcases List.mem_append.1 member with before | last
  · exact all e' before
  · rw [List.mem_singleton.1 last]
    exact note

/-- While the hook is yet to run, it ran after every earlier stop, and nothing was launched since
the latest one. -/
theorem Owes.split {log : List Event} (owes : Owes log) (before after : List Event)
    (split : log = before ++ .stopRequested true :: after) :
    Answered after ∨ ∀ e ∈ after, e.isLaunch = false := by
  obtain ⟨earlier, notes, answered, all, rfl⟩ := owes
  have unlaunched (e : Event) (member : e ∈ notes) : e.isLaunch = false :=
    Event.isLaunch_of_note (all e member)
  rcases List.append_eq_append_iff.1 split with ⟨between, rfl, same⟩ | ⟨between, rfl, same⟩
  · cases between with
    | nil =>
      cases same
      exact .inr unlaunched
    | cons e between =>
      -- no note is a stop
      cases same
      have note := all (.stopRequested true) (by simp)
      cases note
  · cases between with
    | nil =>
      cases same
      exact .inr unlaunched
    | cons e between =>
      cases same
      exact .inl ((answered before between rfl).append _)

theorem Owes.answer {log : List Event} (owes : Owes log) : StopsAnswered (log ++ [.preStop]) := by
  intro before after split
  obtain ⟨after', rfl, same⟩ := split_concat (by simp) split
  rcases owes.split before after' same with answered | unlaunched
  · exact answered.append [.preStop]
  · exact ⟨after', [], unlaunched, rfl⟩

/-! ### What a step of a node keeps -/

namespace Node

theorem unfailed_stopItself {ν : Type} [Network ν] (n : Node) (net : ν)
    (sound : n.control.state ≠ .failed) : (n.stopItself net).1.control.state ≠ .failed := by
  simp only [stopItself]
  split
  · split <;> simp
  · exact sound

/-- How often the hook ran and may run, where `k` is one if the node may have relapsed and zero
otherwise. -/
structure HookState (k : Nat) (n : Node) : Prop where
  within : HooksWithin k n.log
  running : n.control.running = true → hooksSince n.log = 0
  calling : ∀ t, n.call = some (.stopHook t) → hooksSince n.log ≤ k
  /-- A handle is left by a stop of the thread itself, or by a failure. -/
  held : n.control.handle.isSome = true → hooksSince n.log ≤ 1
  failed : n.control.handle.isSome = true → n.control.state = .failed → hooksSince n.log ≤ k
  /-- A failure is marked as the thread ends, which is the last thing it does. -/
  ended : n.control.state = .failed → ∀ t, n.isLive t = false
  answered : StopsAnswered n.log ∨ Owes n.log ∧ ∃ t, n.call = some (.stopHook t)

namespace HookState

variable {k : Nat} {n n' : Node}

theorem new (k : Nat) (vertex : Vertex) (resources : ResourceManager) (window : EstimationWindow) :
    HookState k (Node.new vertex resources window) where
  within := ⟨fun events part _ => by simp [List.infix_nil.1 part], Nat.zero_le _⟩
  running runs := by cases runs
  calling _ calls := by cases calls
  held handle := by cases handle
  failed handle := by cases handle
  ended failed := by cases failed
  answered := .inl fun before after split => by simp [Node.new] at split

/-- A change of nothing that counts, unless threads end. -/
theorem of_frame (state : HookState k n) (log : n'.log = n.log) (control : n'.control = n.control)
    (call : n'.call = n.call) (live : ∀ t, n'.isLive t = true → n.isLive t = true) :
    HookState k n' := by
  -- the other fields say nothing of threads
  have ended (failed : n.control.state = .failed) (t : ThreadId) : n'.isLive t = false := by
    rw [← Bool.not_eq_true]
    intro still
    cases (state.ended failed t).symm.trans (live t still)
  constructor <;> simp only [log, control, call]
  · exact state.within
  · exact state.running
  · exact state.calling
  · exact state.held
  · exact state.failed
  · exact ended
  · exact state.answered

/-- The flag is cleared and the handle is taken, as it is during a call. -/
theorem of_taken (within : HooksWithin k n.log) (stopped : n.control.running = false)
    (taken : n.control.handle = none)
    (calling : ∀ t, n.call = some (.stopHook t) → hooksSince n.log ≤ k)
    (ended : n.control.state = .failed → ∀ t, n.isLive t = false)
    (answered : StopsAnswered n.log ∨ Owes n.log ∧ ∃ t, n.call = some (.stopHook t)) :
    HookState k n where
  within := within
  running runs := by cases stopped.symm.trans runs
  calling := calling
  held handle := by simp [taken] at handle
  failed handle := by simp [taken] at handle
  ended := ended
  answered := answered

theorem note (state : HookState k n) (e : Event) (note : e.isNote = true) :
    HookState k (n.emit e) := by
  have since : hooksSince (n.log ++ [e]) = hooksSince n.log := by
    rw [hooksSince_concat, Event.tally_of_note note]
  constructor
  · exact state.within.concat e (by rw [Event.tally_of_note note]; exact state.within.total)
  · exact fun runs => since.trans (state.running runs)
  · exact fun t calls => since.trans_le (state.calling t calls)
  · exact fun handle => since.trans_le (state.held handle)
  · exact fun handle failed => since.trans_le (state.failed handle failed)
  · exact state.ended
  · rcases state.answered with answered | ⟨owes, calls⟩
    · exact .inl (answered.concat e (by rintro rfl; cases note))
    · exact .inr ⟨owes.note e note, calls⟩

theorem notes (state : HookState k n) {log : List Event} (notes : Notes n.log log) :
    HookState k { n with log := log } := by
  obtain ⟨events, all, rfl⟩ := notes
  induction events using List.reverseRecOn with
  | nil => simpa using state
  | append_singleton events e ih =>
    have before := ih fun e' member => all e' (List.mem_append_left _ member)
    have after := before.note e (all e (by simp))
    simpa only [emit, List.append_assoc] using after

theorem answered_of_idle (state : HookState k n) (idle : ∀ t, n.call ≠ some (.stopHook t)) :
    StopsAnswered n.log := by
  rcases state.answered with answered | ⟨_, t, calls⟩
  · exact answered
  · exact absurd calls (idle t)

/-- A live thread stops its own node. The hook runs if the node was running, and the thread has not
failed yet. -/
theorem stopItself {ν : Type} [Network ν] (net : ν) (state : HookState k n)
    (sound : n.control.state ≠ .failed) (free : n.call = none) :
    HookState k (n.stopItself net).1 := by
  have answered := state.answered_of_idle (by simp [free])
  simp only [Node.stopItself]
  split
  next started =>
    rw [beq_false_of_ne sound, Bool.or_false]
    cases running : n.control.running with
    | true =>
      -- a running node has not run its hook since the launch
      have fresh := state.running running
      have requested := state.within.concat (.stopRequested true) state.within.total
      have hooked := requested.concat .preStop
        (by simp [hooksSince_append, Event.tally, fresh])
      have halted := hooked.concat .networkStop hooked.total
      have once : hooksSince
          (n.log ++ [.stopRequested true] ++ [.preStop] ++ [.networkStop]) = 1 := by
        simp [hooksSince_append, Event.tally, fresh]
      rw [if_pos rfl]
      refine ⟨halted, fun runs => (by cases runs), fun t calls => ?_, fun _ => once.le,
        fun _ failed => (by cases failed), fun failed => (by cases failed),
        .inl (answered.request.answer.concat _ (by simp))⟩
      cases free.symm.trans calls
    | false =>
      have since : hooksSince (n.log ++ [.stopRequested false]) = hooksSince n.log :=
        hooksSince_append _ _
      rw [if_neg Bool.false_ne_true]
      refine ⟨state.within.concat _ state.within.total, fun runs => (by cases runs),
        fun t calls => ?_, fun handle => since.trans_le (state.held handle),
        fun _ failed => (by cases failed), fun failed => (by cases failed),
        .inl (answered.concat _ (by simp))⟩
      cases free.symm.trans calls
  next => exact state

/-- The first step of a start from outside. -/
theorem beginStart (state : HookState k n) (free : n.call = none) : HookState k n.beginStart := by
  have answered := state.answered_of_idle (by simp [free])
  simp only [Node.beginStart]
  split
  · refine ⟨state.within, state.running, fun t calls => ?_, state.held, state.failed, state.ended,
      .inl answered⟩
    cases calls
  next idle =>
    refine of_taken state.within (by simpa using idle) rfl (fun t calls => ?_) state.ended
      (.inl answered)
    cases held : n.control.handle <;> simp [held] at calls

/-- The first step of a stop from outside. -/
theorem beginStop (state : HookState k n) (free : n.call = none) : HookState k n.beginStop := by
  have answered := state.answered_of_idle (by simp [free])
  have since (running : Bool) :
      hooksSince (n.log ++ [.stopRequested running]) = hooksSince n.log :=
    hooksSince_append _ _
  simp only [Node.beginStop]
  split
  next started =>
    refine of_taken (state.within.concat _ state.within.total) rfl rfl (fun t calls => ?_)
      state.ended ?_
    · -- the hook is about to run, as the node was running or has failed
      refine (since _).trans_le ?_
      cases running : n.control.running with
      | true => exact (state.running running).trans_le (Nat.zero_le k)
      | false =>
        rw [running, Bool.false_or] at started
        refine state.failed started ?_
        simp only [stopSignals, running, Bool.false_or, beq_iff_eq] at calls
        split at calls
        next failed => exact failed
        next => cases calls
    · cases running : n.control.running with
      | true => exact .inr ⟨answered.request, n.control.handle, by simp [stopSignals, running]⟩
      | false => exact .inl (answered.concat _ (by simp))
  next => exact state

/-- A thread takes its step. A failure after a stop is a relapse, for which there must be room. -/
theorem threadOutcome {thread : ThreadId} {phase : Phase} (state : HookState k n)
    (present : n.threads.get? thread = some phase)
    (alone : ∀ t, n.isLive t = true → t = thread)
    (outcome : ThreadOutcome thread phase n n')
    (room : phase = .markFailed → n.control.running = false → n.control.handle.isSome = true →
      1 ≤ k) : HookState k n' := by
  have live := outcome.isLive present
  have isLive : n.isLive thread = true := (isLive_iff n thread).2 ⟨phase, present⟩
  cases outcome with
  | goesOn calm heartbeat completed latest log next unmarked notes _ _ =>
    exact (state.notes notes).of_frame rfl rfl rfl live
  | ends calm stopped => exact state.of_frame rfl rfl rfl live
  | records error met => exact state.of_frame rfl rfl rfl live
  | fails marked =>
    refine ⟨state.within, fun runs => (by cases runs), state.calling, state.held,
      fun handle _ => ?_, fun _ t => ?_, state.answered⟩
    · -- a thread that was told to stop by itself leaves one run of the hook behind
      cases running : n.control.running with
      | true => exact (state.running running).trans_le (Nat.zero_le k)
      | false => exact (state.held handle).trans (room marked running handle)
    · rw [← Bool.not_eq_true]
      intro still
      obtain ⟨other, before⟩ := (isLive_exit _ thread t).1 still
      exact other (alone t before)

end HookState

end Node

namespace Agent

variable {ν : Type} [Network ν] {k : Nat} {a b : Agent ν}

/-- A node that has stopped itself fails. -/
def Relapse (a b : Agent ν) : Prop :=
  a.node.control.running = false ∧ a.node.control.handle.isSome = true ∧
    a.node.control.state ≠ .failed ∧ b.node.control.state = .failed

/-- The states that a node reaches without a relapse. -/
inductive Unrelapsed : Agent ν → Prop
  | new (vertex : Vertex) (resources : ResourceManager) (window : EstimationWindow) (network : ν)
      (stopped : Network.isRunning vertex network = false) :
      Unrelapsed ⟨Node.new vertex resources window, network⟩
  | step {a b : Agent ν} (unrelapsed : Unrelapsed a) (step : Step a b) (stays : ¬ Relapse a b) :
      Unrelapsed b

theorem Unrelapsed.reachable (unrelapsed : Unrelapsed a) : Reachable a := by
  induction unrelapsed with
  | new vertex resources window network stopped =>
    exact .new vertex resources window network stopped
  | step _ step _ reachable => exact .step reachable step

theorem Sane.alone (sane : Sane a) (thread : ThreadId) (live : a.node.isLive thread = true)
    (t : ThreadId) (still : a.node.isLive t = true) : t = thread :=
  Option.some.inj ((sane.registered t still).symm.trans (sane.registered thread live))

open Node (HookState)

theorem hookState_callStep (sane : Sane a) (state : HookState k a.node) :
    HookState k a.callStep.node := by
  obtain ⟨n, net⟩ := a
  cases calls : n.call with
  | none =>
    simp only [callStep, Node.callStep_of_free n net calls]
    exact state
  | some c =>
    -- during a call the flag is cleared and the handle is with the caller
    obtain ⟨stopped, taken⟩ := sane.busy c calls
    have unmoved := sane.unmoved c calls
    have idle (other : ∀ t, c ≠ .stopHook t) : StopsAnswered n.log :=
      state.answered_of_idle fun t same => other t (Option.some.inj (calls.symm.trans same))
    cases c with
    | reap thread =>
      simp only [callStep, Node.callStep, calls]
      exact .of_taken (state.within.concat _ state.within.total) stopped taken (by simp) state.ended
        (.inl ((idle (by simp)).concat _ (by simp)))
    | reapJoin thread =>
      simp only [callStep, Node.callStep, calls]
      split
      · exact state
      · exact .of_taken state.within stopped taken (by simp) state.ended (.inl (idle (by simp)))
    | launch =>
      have answered := (idle (by simp)).concat .networkStart (by simp)
      have within := state.within.concat .networkStart state.within.total
      rcases n.launch_of_taken net stopped taken with ⟨cause, _, launch⟩ | ⟨net', _, launch⟩
      · simp only [callStep, Node.callStep, calls, launch]
        refine .of_taken within stopped taken (fun t calls => ?_) state.ended (.inl answered)
        cases calls
      · simp only [callStep, Node.callStep, calls, launch]
        -- the count starts again
        have since : hooksSince n.launched.log = 0 := by
          simp [Node.launched, Node.emit, Node.answerStart, Node.proceed, hooksSince_append,
            Event.tally]
        exact ⟨within.concat (.launched n.spawned) (Nat.zero_le _), fun _ => since,
          fun t calls => (by cases calls), fun _ => since.trans_le (Nat.zero_le 1),
          fun _ failed => (by cases failed), fun failed => (by cases failed),
          .inl (answered.concat (.launched n.spawned) (by simp))⟩
    | stopHook thread =>
      simp only [callStep, Node.callStep, calls]
      have room := Nat.succ_le_succ (state.calling thread calls)
      refine .of_taken (state.within.concat _ room) stopped taken (by simp) state.ended (.inl ?_)
      rcases state.answered with answered | ⟨owes, _⟩
      · exact answered.concat _ (by simp)
      · exact owes.answer
    | stopNetwork thread =>
      simp only [callStep, Node.callStep, calls]
      exact .of_taken (state.within.concat _ state.within.total) stopped taken (by simp) state.ended
        (.inl ((idle (by simp)).concat _ (by simp)))
    | stopJoin thread =>
      simp only [callStep, Node.callStep, calls]
      split
      · exact state
      · exact .of_taken state.within stopped taken (by simp) state.ended (.inl (idle (by simp)))
    | settle =>
      simp only [callStep, Node.callStep, calls]
      refine .of_taken state.within stopped taken (by simp) (fun failed => ?_)
        (.inl (idle (by simp)))
      exact state.ended (Node.settledState_eq_failed_iff.1 failed)
    | dropReport region => cases unmoved
    | resetView region => cases unmoved
    | clearNetwork => cases unmoved

variable [LawfulNetwork ν]

omit [Network ν] [LawfulNetwork ν] in
theorem unfailed_of_live (state : HookState k a.node) (thread : ThreadId) (phase : Phase)
    (present : a.node.threads.get? thread = some phase) : a.node.control.state ≠ .failed := by
  intro failed
  cases (state.ended failed thread).symm.trans ((Node.isLive_iff _ thread).2 ⟨phase, present⟩)

theorem hookState_threadStep (sane : Sane a) (state : HookState k a.node) (m : Moment)
    (thread : ThreadId) (apart : ∀ act ∈ m.acts, act.isCall = true → a.node.call = none)
    (room : Relapse a (a.threadStep m thread) → 1 ≤ k) :
    HookState k (a.threadStep m thread).node := by
  have alone := sane.alone thread
  have unfailed := unfailed_of_live state thread
  obtain ⟨n, net⟩ := a
  cases present : n.threads.get? thread with
  | none =>
    simp only [Agent.threadStep, Node.threadStep_of_missing m thread n net present]
    exact state
  | some phase =>
    have live : n.isLive thread = true := (Node.isLive_iff n thread).2 ⟨phase, present⟩
    have sound : n.control.state ≠ .failed := unfailed phase present
    by_cases marked : phase = .markFailed
    · -- no hook and no engine runs in this step, so what is known of the node is still true
      subst marked
      have outcome : Node.ThreadOutcome thread .markFailed n (n.threadStep m thread net).1 := by
        simp only [Node.threadStep, present]
        exact .fails rfl
      refine state.threadOutcome present (alone live) outcome fun _ stopped handle => ?_
      refine room ⟨stopped, handle, sound, ?_⟩
      simp [Agent.threadStep, Node.threadStep, present, Node.exit]
    · let P (n' : Node) (net' : ν) : Prop :=
        HookState k n' ∧ n'.control.state ≠ .failed ∧ n'.call = n.call ∧ n'.threads = n.threads
      have event (n' : Node) (net' : ν) (e : Event) (note : e.isNote = true) (holds : P n' net') :
          P (n'.emit e) net' :=
        ⟨holds.1.note e note, holds.2⟩
      have stop (member : .stop ∈ m.acts) (n' : Node) (net' : ν) (holds : P n' net') :
          P (n'.stopItself net').1 (n'.stopItself net').2 := by
        obtain ⟨state', sound', call, threads⟩ := holds
        have free : n'.call = none := call.trans (apart .stop member rfl)
        have after := state'.stopItself net' sound' free
        obtain ⟨control, log, stopped⟩ := Node.stopItself_frame n' net'
        exact ⟨after, n'.unfailed_stopItself net' sound', by rw [stopped, ← call],
          by rw [stopped, ← threads]⟩
      obtain ⟨n₁, net₁, ⟨state₁, _, _, threads⟩, outcome, _⟩ :=
        Node.threadStep_comesTo event stop thread n net
          (show P n net from ⟨state, sound, rfl, rfl⟩) present
      refine state₁.threadOutcome (threads ▸ present) (fun t still => alone live t ?_) outcome
        fun fails => absurd fails marked
      rw [Node.isLive, threads] at still
      exact still

theorem hookState_step (sane : Sane a) (state : HookState k a.node) (step : Step a b)
    (room : Relapse a b → 1 ≤ k) : HookState k b.node := by
  cases step with
  | start free => exact state.beginStart free
  | stop free => exact state.beginStop free
  | stopInside thread phase present _ free =>
    exact state.stopItself a.network (unfailed_of_live state thread phase present) free
  | call => exact hookState_callStep sane state
  | thread m thread apart => exact hookState_threadStep sane state m thread apart room
  | traffic network _ => exact state

theorem Reachable.hookState (reachable : Reachable a) : HookState 1 a.node := by
  induction reachable with
  | new vertex resources window _ _ => exact .new 1 vertex resources window
  | step before step state => exact hookState_step before.sane state step fun _ => Nat.le_refl 1

theorem Unrelapsed.hookState (unrelapsed : Unrelapsed a) : HookState 0 a.node := by
  induction unrelapsed with
  | new vertex resources window _ _ => exact .new 0 vertex resources window
  | step before step stays state =>
    exact hookState_step before.reachable.sane state step fun relapse => absurd relapse stays

/-- What the log of a node tells of its hook before stops. -/
structure HookRuns (a : Agent ν) : Prop where
  /-- Between two launches, and after the last one, the hook runs at most once. -/
  at_most_once : Unrelapsed a → HooksAtMost 1 a.node.log
  /-- It runs exactly once if a stop found the node running, unless the step that runs it is the
  next one of that stop. -/
  exactly_once : Unrelapsed a → ∀ before events after, a.node.log = before ++ events ++ after →
    (∀ e ∈ events, e.isLaunch = false) → (∀ e ∈ after.head?, e.isLaunch = true) →
    .stopRequested true ∈ events →
      events.count .preStop = 1 ∨ after = [] ∧ ∃ t, a.node.call = some (.stopHook t)
  /-- A relapse lets it run once more. -/
  at_most_twice : HooksAtMost 2 a.node.log
  /-- Also with relapses, a stop that found the node running has the hook run before the next
  launch. -/
  at_least_once : ∀ before after, a.node.log = before ++ .stopRequested true :: after →
    Answered after ∨
      (∀ e ∈ after, e.isLaunch = false) ∧ ∃ t, a.node.call = some (.stopHook t)

theorem hook_runs_of_reachable (reachable : Reachable a) : HookRuns a := by
  have at_least_once (before after : List Event)
      (split : a.node.log = before ++ .stopRequested true :: after) :
      Answered after ∨
        (∀ e ∈ after, e.isLaunch = false) ∧ ∃ t, a.node.call = some (.stopHook t) := by
    rcases reachable.hookState.answered with answered | ⟨owes, calls⟩
    · exact .inl (answered before after split)
    · exact (owes.split before after split).imp_right fun unlaunched => ⟨unlaunched, calls⟩
  refine ⟨fun unrelapsed => unrelapsed.hookState.within.most, ?_, reachable.hookState.within.most,
    at_least_once⟩
  intro unrelapsed before events after split unlaunched bounded requested
  -- at most once by the count since the launch, and at least once as the stop is answered
  have most := unrelapsed.hookState.within.most events ⟨before, after, split.symm⟩ unlaunched
  obtain ⟨first, last, rfl⟩ := List.append_of_mem requested
  rcases at_least_once (before ++ first) (last ++ after) (by simp [split]) with answered | owed
  · have member := answered.mem_of_launch bounded
    have positive := List.count_pos_iff.2 (List.mem_append_right first
      (List.mem_cons_of_mem (.stopRequested true) member))
    exact .inl (Nat.le_antisymm most positive)
  · refine .inr ⟨?_, owed.2⟩
    cases after with
    | nil => rfl
    | cons e after =>
      have launch := bounded e rfl
      cases (owed.1 e (by simp)).symm.trans launch

/-- A node that was started. -/
def launchedAgent : Agent StandIn :=
  (Agent.mk (Node.new (Vertex.new "a") .unmeasured .short) StandIn.new).beginStart.callStep

theorem reachable_launchedAgent : Reachable launchedAgent :=
  .step (.step (.new _ _ _ _ rfl) (.start _ rfl)) (.call _)

/-- A node that its hook has stopped, and that is stopped from outside after that. -/
theorem hook_runs_of_stopped_in_hook :
    let a := (launchedAgent.threadStep ⟨0, []⟩ 0).stopItself.beginStop.callStep
    Unrelapsed a ∧ Event.stopRequested true ∈ a.node.log ∧ a.node.log.count .preStop = 1 ∧
      HookRuns a := by
  intro a
  have unfailed {a b : Agent StandIn} (state : b.node.control.state ≠ .failed) : ¬ Relapse a b :=
    fun relapse => state relapse.2.2.2
  have unrelapsed : Unrelapsed a := by
    refine .step (.step (.step (.step (.step (.step (.new _ _ _ _ rfl)
      (.start _ rfl) (unfailed ?_)) (.call _) (unfailed ?_))
      (.thread _ ⟨0, []⟩ 0 (by simp)) (unfailed ?_)) (.stopInside _ 0 .preHook ?_ rfl ?_)
      (unfailed ?_)) (.stop _ ?_) (unfailed ?_)) (.call _) (unfailed ?_)
    all_goals decide +kernel
  exact ⟨unrelapsed, by decide +kernel, by decide +kernel,
    hook_runs_of_reachable unrelapsed.reachable⟩

/-- The engine stops its node and then crashes, and the next stop from outside runs the hook
again. -/
theorem hook_runs_twice_after_relapse :
    ∃ a : Agent StandIn, Reachable a ∧ ¬ HooksAtMost 1 a.node.log := by
  let m : Moment := ⟨0, []⟩
  let crashing : Moment := ⟨0, [.stop, .crash (some "x")]⟩
  let inEngine := (((launchedAgent.threadStep m 0).threadStep m 0).threadStep m 0).threadStep m 0
  let failed := ((inEngine.threadStep crashing 0).threadStep m 0).threadStep m 0
  have reachable : Reachable failed.beginStop.callStep := by
    refine .step (.step (.step (.step (.step (.step (.step (.step (.step reachable_launchedAgent
      (.thread _ m 0 (by simp [m]))) (.thread _ m 0 (by simp [m]))) (.thread _ m 0 (by simp [m])))
      (.thread _ m 0 (by simp [m]))) (.thread _ crashing 0 ?_)) (.thread _ m 0 (by simp [m])))
      (.thread _ m 0 (by simp [m]))) (.stop _ ?_)) (.call _)
    · exact fun _ _ _ => by decide +kernel
    · decide +kernel
  refine ⟨_, reachable, fun most => ?_⟩
  have twice := most (failed.beginStop.callStep.node.log.drop 2) (List.drop_suffix _ _).isInfix
    (by decide +kernel)
  revert twice
  decide +kernel

end Agent

end RegionNet
