import RegionNet.Proofs.Node.Calls
import RegionNet.Proofs.Node.Sharing

/-!
# The error that ends an execution

A hook that crashes, or an engine that crashes or returns an error, ends the execution of its node.
The thread has met the error in that step; it keeps it in the next one, and marks the node as failed
and ends in the one after. So at each time the latest execution is sound, or it stands at one of
these steps with one error, whatever a stop does meanwhile.
-/

namespace RegionNet

/-- The error with which an act ends a cycle. A hook cannot return one. -/
def Act.error? (point : Point) (name : NodeName) : Act → Option EngineError
  | .stop => none
  | .start => none
  | .crash text => some (.crashed name (text.getD Node.unknownCrash))
  | .fail message => if point = .engine then some (.failed name message) else none

/-- The place in the cycle where a phase runs code that is not the node's own. -/
def Phase.point? : Phase → Option Point
  | .preHook => some .pre
  | .engine => some .engine
  | .postHook => some .post
  | _ => none

namespace Node

/-- In the next step of the thread a hook or the engine ends the cycle with the error. -/
def Meets (n : Node) (thread : ThreadId) (m : Moment) (error : EngineError) : Prop :=
  ∃ phase point, n.threads.get? thread = some phase ∧ phase.point? = some point ∧
    m.acts.findSome? (Act.error? point n.name) = some error

section

variable {ν : Type} [Network ν]

/-- The first act that ends the cycle decides on the error. -/
theorem perform_error (point : Point) (n : Node) (net : ν) (acts : List Act) :
    (perform point n net acts).2.2 = acts.findSome? (Act.error? point n.name) := by
  induction acts generalizing n net with
  | nil => rfl
  | cons act acts ih =>
    cases act with
    | stop =>
      obtain ⟨control, log, stopped⟩ := n.stopItself_frame net
      have name : ((n.stopItself net).1.emit (.stoppedItself point)).name = n.name := by
        rw [stopped]
        rfl
      simp only [perform]
      rw [ih, name]
      rfl
    | start => exact ih _ net
    | crash text => rfl
    | fail message =>
      simp only [perform]
      split
      next engine => simp [Act.error?, engine]
      next hook =>
        rw [ih]
        simp [Act.error?, hook]

variable (m : Moment) (thread : ThreadId) (n : Node) (net : ν)

theorem runHook_phase (point : Point) (event : Event) (next : Phase) :
    (runHook point event next m thread n net).1.threads.get? thread =
      some ((m.acts.findSome? (Act.error? point n.name)).elim next .recordError) := by
  have error := perform_error point (n.emit event) net m.acts
  change _ = m.acts.findSome? (Act.error? point n.name) at error
  rw [← error, runHook]
  split
  next performed => simp [performed, get?_proceed]
  next performed => simp [performed, get?_proceed]

theorem runEngine_phase :
    (runEngine m thread n net).1.threads.get? thread =
      some ((m.acts.findSome? (Act.error? .engine n.name)).elim .increment .recordError) := by
  have error := perform_error .engine (n.emit (.engineCalled m.now)) net m.acts
  change _ = m.acts.findSome? (Act.error? .engine n.name) at error
  rw [← error, runEngine]
  split
  next performed => simp [performed, get?_proceed]
  next performed => simp [performed, get?_proceed]

variable {n}

/-- A thread goes on to keep an error if and only if it has met it. -/
theorem threadStep_meets {phase : Phase} (present : n.threads.get? thread = some phase)
    (calm : phase.isCalm = true) (error : EngineError) :
    (n.threadStep m thread net).1.threads.get? thread = some (.recordError error) ↔
      n.Meets thread m error := by
  have meets : n.Meets thread m error ↔ ∃ point, phase.point? = some point ∧
      m.acts.findSome? (Act.error? point n.name) = some error := by
    simp [Meets, present]
  rw [meets]
  have decided (acts : Option EngineError) (next : Phase) (unrecorded : next ≠ .recordError error) :
      acts.elim next .recordError = .recordError error ↔ acts = some error := by
    cases acts with
    | none => simp [unrecorded]
    | some e => simp
  cases phase with
  | recordError => cases calm
  | markFailed => cases calm
  | preHook =>
    simp only [threadStep, present, runHook_phase, Phase.point?, Option.some.injEq, exists_eq_left']
    exact decided _ .preTest (by simp)
  | engine =>
    simp only [threadStep, present, runEngine_phase, Phase.point?, Option.some.injEq,
      exists_eq_left']
    exact decided _ .increment (by simp)
  | postHook =>
    simp only [threadStep, present, runHook_phase, Phase.point?, Option.some.injEq, exists_eq_left']
    exact decided _ .sleep (by simp)
  | loopTest | sleep =>
    -- these tests end the thread if they do not let it go on
    simp only [threadStep, present, Phase.point?]
    split <;> simp [get?_proceed, get?_exit]
  | preTest | countTest | storeTest =>
    simp only [threadStep, present, Phase.point?, test]
    split <;> simp [get?_proceed]
  | beginCycle | increment | buildReport | storeReport =>
    simp [threadStep, present, Phase.point?, get?_proceed]

end

/-- A thread that is not in its cycle any more meets nothing. -/
theorem not_meets_of_uncalm {n : Node} {thread : ThreadId} {phase : Phase}
    (present : n.threads.get? thread = some phase) (uncalm : phase.isCalm = false) (m : Moment)
    (error : EngineError) : ¬ n.Meets thread m error := by
  rintro ⟨phase', point, present', hosts, _⟩
  cases present.symm.trans present'
  cases phase with
  | recordError => cases hosts
  | markFailed => cases hosts
  | _ => cases uncalm

/-! ### The latest execution -/

/-- The node was started, and its latest execution is not known to have failed. -/
def Unfailed (n : Node) : Prop :=
  n.control.state = .running ∨ n.control.state = .stopped

/-- How the latest execution of a node stands, and the error that it has met. -/
inductive Latest (n : Node) : Option EngineError → Prop
  | sound (unfailed : n.Unfailed) (unkept : n.lastError = none)
      (threads : ∀ t phase, n.threads.get? t = some phase →
        t + 1 = n.spawned ∧ phase.isCalm = true) : Latest n none
  | met (error : EngineError) (thread : ThreadId) (last : thread + 1 = n.spawned)
      (unfailed : n.Unfailed) (unkept : n.lastError = none)
      (threads : ∀ t phase, n.threads.get? t = some phase ↔
        t = thread ∧ phase = .recordError error) : Latest n (some error)
  | kept (error : EngineError) (thread : ThreadId) (last : thread + 1 = n.spawned)
      (unfailed : n.Unfailed) (kept : n.lastError = some error)
      (threads : ∀ t phase, n.threads.get? t = some phase ↔ t = thread ∧ phase = .markFailed) :
      Latest n (some error)
  | failed (error : EngineError) (failed : n.control.state = .failed)
      (kept : n.lastError = some error) (dead : ∀ t, n.threads.get? t = none) :
      Latest n (some error)

section

variable {n : Node} {thread : ThreadId} (alone : ∀ t, t ≠ thread → n.threads.get? t = none)
include alone

theorem get?_exit_of_alone (t : ThreadId) : (n.exit thread).threads.get? t = none := by
  rw [get?_exit]
  split
  · rfl
  next other => exact alone t other

theorem get?_proceed_of_alone (next : Phase) (t : ThreadId) (phase : Phase) :
    (n.proceed thread next).threads.get? t = some phase ↔ t = thread ∧ phase = next := by
  rw [get?_proceed]
  split
  next same => simp [same, eq_comm]
  next other => simp [alone t other, other]

end

namespace Latest

variable {n n' : Node} {error : Option EngineError}

/-- A stop settles the state of the node, and changes nothing else of the execution. -/
theorem of_same (latest : n.Latest error)
    (state : n'.control.state = n.control.state ∨
      n'.control.state = settledState n.control.state)
    (lastError : n'.lastError = n.lastError) (threads : n'.threads = n.threads)
    (spawned : n'.spawned = n.spawned) : n'.Latest error := by
  have unfailed (before : n.Unfailed) : n'.Unfailed := by
    rcases state with same | settled
    · rwa [Unfailed, same]
    · refine .inr (settled.trans ?_)
      rcases before with running | stopped
      · rw [running]
        rfl
      · rw [stopped]
        rfl
  cases latest with
  | sound before unkept phases =>
    rw [← threads, ← spawned] at phases
    exact .sound (unfailed before) (lastError.trans unkept) phases
  | met e t last before unkept phases =>
    rw [← threads] at phases
    exact .met e t (last.trans spawned.symm) (unfailed before) (lastError.trans unkept) phases
  | kept e t last before kept phases =>
    rw [← threads] at phases
    exact .kept e t (last.trans spawned.symm) (unfailed before) (lastError.trans kept) phases
  | failed e failed kept dead =>
    rw [← threads] at dead
    refine .failed e ?_ (lastError.trans kept) dead
    rcases state with same | settled
    · exact same.trans failed
    · rw [settled, failed]
      rfl

/-- The thread of the latest execution is alone. -/
theorem spawned_of_live (latest : n.Latest error) {t : ThreadId} {phase : Phase}
    (present : n.threads.get? t = some phase) : t + 1 = n.spawned := by
  cases latest with
  | sound _ _ threads => exact (threads t phase present).1
  | met _ _ last _ _ threads => rw [((threads t phase).1 present).1, last]
  | kept _ _ last _ _ threads => rw [((threads t phase).1 present).1, last]
  | failed _ _ _ dead => cases (dead t).symm.trans present

/-- At a launch no thread is alive, and the new one has met no error. -/
theorem launched (dead : ∀ t, n.isLive t = false) : n.launched.Latest none := by
  refine .sound (.inl rfl) rfl fun t phase present => ?_
  have placed : (n.proceed n.spawned .loopTest).threads.get? t = some phase := present
  rw [get?_proceed] at placed
  split at placed
  next new =>
    cases placed
    exact ⟨congrArg (· + 1) new, rfl⟩
  next other =>
    have live : n.isLive t = true := (isLive_iff n t).2 ⟨phase, placed⟩
    rw [dead] at live
    cases live

section

variable {ν : Type} [Network ν]

/-- A stop by a hook or the engine settles the state. -/
theorem stopItself (latest : n.Latest error) (net : ν) : (n.stopItself net).1.Latest error := by
  have settled (state : LifecycleState) :
      (if state = .failed then LifecycleState.failed else .stopped) = settledState state := by
    cases state <;> rfl
  simp only [Node.stopItself]
  split
  · split
    · exact latest.of_same (.inr (settled _)) rfl rfl rfl
    · exact latest.of_same (.inr (settled _)) rfl rfl rfl
  · exact latest

variable [LawfulNetwork ν]

/-- In a step of its thread the execution may meet an error, if it has met none before, and goes on
to keep the one that it has met. -/
theorem threadStep (latest : n.Latest error) (m : Moment) (thread : ThreadId) (net : ν) :
    ∃ error', (n.threadStep m thread net).1.Latest error' ∧
      ∀ e, error' = some e ↔ error = some e ∨ n.Meets thread m e := by
  cases present : n.threads.get? thread with
  | none =>
    rw [threadStep_of_missing m thread n net present]
    have unmet (e : EngineError) : ¬ n.Meets thread m e := by
      rintro ⟨phase, _, present', _⟩
      cases present.symm.trans present'
    exact ⟨error, latest, fun e => (or_iff_left (unmet e)).symm⟩
  | some phase =>
    -- whatever hooks and engine do, the execution stands as before when the step comes to its end
    let P (n' : Node) (_ : ν) : Prop := n'.Latest error ∧ n'.threads = n.threads
    have event (n' : Node) (net' : ν) (e : Event) (_ : e.isNote = true) (holds : P n' net') :
        P (n'.emit e) net' := ⟨holds.1.of_same (.inl rfl) rfl rfl rfl, holds.2⟩
    have stop (_ : .stop ∈ m.acts) (n' : Node) (net' : ν) (holds : P n' net') :
        P (n'.stopItself net').1 (n'.stopItself net').2 := by
      obtain ⟨control, log, stopped⟩ := n'.stopItself_frame net'
      exact ⟨holds.1.stopItself net', by rw [stopped, ← holds.2]⟩
    obtain ⟨n₁, net₁, ⟨latest₁, same⟩, outcome, _⟩ :=
      threadStep_comesTo event stop thread n net (show P n net from ⟨latest, rfl⟩) present
    have meets := threadStep_meets m thread net present
    have unmet := fun uncalm e => not_meets_of_uncalm present uncalm m e
    rw [← same] at present
    have numbered := latest₁.spawned_of_live present
    -- a thread of this number is the only one, as all that are alive bear the latest number
    have alone (t : ThreadId) (other : t ≠ thread) : n₁.threads.get? t = none := by
      rw [Option.eq_none_iff_forall_ne_some]
      intro phase' placed
      exact other (Nat.add_right_cancel ((latest₁.spawned_of_live placed).trans numbered.symm))
    generalize (n.threadStep m thread net).1 = n' at outcome meets ⊢
    cases latest₁ with
    | sound unfailed unkept threads =>
      have calm := (threads thread phase present).2
      have meets := meets calm
      -- the next phase tells whether an error was met in this step
      cases outcome with
      | goesOn _ heartbeat completed latest log next unmarked _ _ _ =>
        have placed := get?_proceed_of_alone alone next
        simp only [get?_proceed, ↓reduceIte, Option.some.injEq] at meets
        cases next with
        | markFailed => exact absurd rfl unmarked
        | recordError e =>
          exact ⟨some e, .met e thread numbered unfailed unkept placed, fun e' => by simp [← meets]⟩
        | _ =>
          refine ⟨none, .sound unfailed unkept fun t phase' here => ?_, fun e' => by simp [← meets]⟩
          obtain ⟨rfl, rfl⟩ := (placed t phase').1 here
          exact ⟨numbered, rfl⟩
      | ends _ _ =>
        have dead := get?_exit_of_alone alone
        refine ⟨none, .sound unfailed unkept fun t phase' here => ?_, fun e' => ?_⟩
        · cases (dead t).symm.trans here
        · simp [← meets, get?_exit]
      | records error met =>
        subst met
        cases calm
      | fails marked =>
        subst marked
        cases calm
    | met e t last unfailed unkept threads =>
      obtain ⟨rfl, rfl⟩ := (threads thread phase).1 present
      have unmet := unmet rfl
      cases outcome with
      | goesOn calm => cases calm
      | ends calm => cases calm
      | fails marked => cases marked
      | records error met =>
        cases met
        exact ⟨some e, .kept e thread last unfailed rfl (get?_proceed_of_alone alone .markFailed),
          fun e' => by simp [unmet]⟩
    | kept e t last unfailed kept threads =>
      obtain ⟨rfl, rfl⟩ := (threads thread phase).1 present
      have unmet := unmet rfl
      cases outcome with
      | goesOn calm => cases calm
      | ends calm => cases calm
      | records error met => cases met
      | fails marked =>
        exact ⟨some e, .failed e rfl kept (get?_exit_of_alone alone), fun e' => by simp [unmet]⟩
    | failed e failed kept dead => cases (dead thread).symm.trans present

end

end Latest

/-! ### The numbers of threads -/

/-- Threads are alive, and errors were met, only of those that were started. -/
structure Numbered (met : ThreadId → EngineError → Prop) (n : Node) : Prop where
  live : ∀ t, n.isLive t = true → t < n.spawned
  met : ∀ t e, met t e → t < n.spawned

/-- The errors that were met, after one more step of a thread. -/
def metBy (met : ThreadId → EngineError → Prop) (n : Node) (thread : ThreadId) (m : Moment) :
    ThreadId → EngineError → Prop :=
  fun t e => met t e ∨ t = thread ∧ n.Meets thread m e

section

variable {ν : Type} [Network ν] {met : ThreadId → EngineError → Prop} {n n' : Node}

/-- A step of a thread starts no other one. -/
theorem threadStep_live [LawfulNetwork ν] (m : Moment) (thread : ThreadId) (n : Node) (net : ν) :
    (n.threadStep m thread net).1.spawned = n.spawned ∧
      ∀ t, (n.threadStep m thread net).1.isLive t = true → n.isLive t = true := by
  cases present : n.threads.get? thread with
  | none =>
    rw [threadStep_of_missing m thread n net present]
    exact ⟨rfl, fun _ => id⟩
  | some phase =>
    let P (n' : Node) (_ : ν) : Prop := n'.spawned = n.spawned ∧ n'.threads = n.threads
    have event (n' : Node) (net' : ν) (e : Event) (_ : e.isNote = true) (same : P n' net') :
        P (n'.emit e) net' := same
    have stop (_ : .stop ∈ m.acts) (n' : Node) (net' : ν) (same : P n' net') :
        P (n'.stopItself net').1 (n'.stopItself net').2 := by
      obtain ⟨control, log, stopped⟩ := n'.stopItself_frame net'
      rw [stopped]
      exact same
    obtain ⟨n₁, _, ⟨spawned, threads⟩, outcome, _⟩ :=
      threadStep_comesTo event stop thread n net ⟨rfl, rfl⟩ present
    have live := outcome.isLive (threads ▸ present)
    simp only [isLive, threads] at live ⊢
    refine ⟨?_, live⟩
    generalize (n.threadStep m thread net).1 = n' at outcome
    cases outcome <;> exact spawned

theorem Numbered.threadStep [LawfulNetwork ν] (numbered : n.Numbered met) (m : Moment)
    (thread : ThreadId) (net : ν) :
    (n.threadStep m thread net).1.Numbered (n.metBy met thread m) := by
  obtain ⟨spawned, live⟩ := threadStep_live m thread n net
  constructor
  case live =>
    intro t still
    rw [spawned]
    exact numbered.live t (live t still)
  case met =>
    intro t e known
    rw [spawned]
    rcases known with before | ⟨rfl, phase, _, present, _⟩
    · exact numbered.met t e before
    · exact numbered.live t ((isLive_iff n t).2 ⟨phase, present⟩)

theorem Numbered.of_same (numbered : n.Numbered met) (threads : n'.threads = n.threads)
    (spawned : n'.spawned = n.spawned) : n'.Numbered met := by
  constructor
  case live =>
    intro t live
    rw [isLive, threads] at live
    exact spawned ▸ numbered.live t live
  case met => exact spawned ▸ numbered.met

theorem Numbered.launch (numbered : n.Numbered met) (net : ν) :
    (n.launch net).1.Numbered met := by
  simp only [Node.launch]
  split
  · exact numbered.of_same rfl rfl
  · split
    · exact numbered.of_same rfl rfl
    · constructor
      case live =>
        intro t live
        rcases (isLive_proceed n n.spawned t .loopTest).1 live with rfl | before
        · exact Nat.lt_succ_self _
        · exact Nat.lt_succ_of_lt (numbered.live t before)
      case met => exact fun t e known => Nat.lt_succ_of_lt (numbered.met t e known)

theorem Numbered.callStep (numbered : n.Numbered met) (net : ν) :
    (n.callStep net).1.Numbered met := by
  simp only [Node.callStep]
  split
  case h_4 => exact numbered.launch net
  case h_3 | h_7 => split <;> exact numbered.of_same rfl rfl
  all_goals exact numbered.of_same rfl rfl

theorem Numbered.beginStart (numbered : n.Numbered met) : n.beginStart.Numbered met := by
  simp only [Node.beginStart]
  split <;> exact numbered.of_same rfl rfl

theorem Numbered.beginStop (numbered : n.Numbered met) : n.beginStop.Numbered met := by
  simp only [Node.beginStop]
  split <;> exact numbered.of_same rfl rfl

end

end Node

end RegionNet
