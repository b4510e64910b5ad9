import RegionNet.Proofs.Network.Lawful
import RegionNet.Proofs.Node.QuietStep

/-!
# What a step of a thread can come to

Hooks and engine may stop their node, crash or fail in any step that runs them. Whatever they do,
the step then comes to one of four outcomes: the thread goes on, or it ends as it was told to stop,
or it keeps the error that it met, or it marks its node as failed and ends.
-/

namespace RegionNet

/-- Is it an event that a thread writes of its cycle, and not one of a start, a stop or a move? -/
def Event.isNote : Event → Bool
  | .networkStart => false
  | .networkStop => false
  | .clearNeighbors => false
  | .launched _ => false
  | .stopRequested _ => false
  | .preStop => false
  | _ => true

namespace Node

/-- Nothing is written but notes. -/
def Notes (before after : List Event) : Prop :=
  ∃ events, (∀ e ∈ events, e.isNote = true) ∧ after = before ++ events

theorem Notes.refl (log : List Event) : Notes log log :=
  ⟨[], by simp, by simp⟩

theorem Notes.emit {log log' : List Event} (notes : Notes log log') (e : Event)
    (note : e.isNote = true) : Notes log (log' ++ [e]) := by
  obtain ⟨events, all, rfl⟩ := notes
  refine ⟨events ++ [e], ?_, by rw [List.append_assoc]⟩
  intro e' member
  rcases List.mem_append.1 member with earlier | last
  · exact all e' earlier
  · rw [List.mem_singleton.1 last]
    exact note

/-- The outcome of a step of a thread that was in a phase, as a change of the node as hooks and
engine left it. -/
inductive ThreadOutcome (thread : ThreadId) (phase : Phase) (n : Node) : Node → Prop
  | goesOn (calm : phase.isCalm = true) (heartbeat : Heartbeat) (completedCycles : Nat)
      (latestReport : Option (Report Float)) (log : List Event) (next : Phase)
      (unmarked : next ≠ .markFailed) (notes : Notes n.log log)
      (stored : latestReport = n.latestReport ∨
        ∃ r, phase = .storeReport r ∧ latestReport = some r)
      (built : ∀ r, next = .storeReport r → ∃ now, r = n.report now n.window) :
      ThreadOutcome thread phase n
        ({ n with
            heartbeat := heartbeat
            completedCycles := completedCycles
            latestReport := latestReport
            log := log }.proceed thread next)
  | ends (calm : phase.isCalm = true) (stopped : n.control.running = false) :
      ThreadOutcome thread phase n (n.exit thread)
  | records (error : EngineError) (met : phase = .recordError error) :
      ThreadOutcome thread phase n ({ n with lastError := some error }.proceed thread .markFailed)
  | fails (marked : phase = .markFailed) :
      ThreadOutcome thread phase n
        ({ n with control := { n.control with running := false, state := .failed } }.exit thread)

namespace ThreadOutcome

theorem proceed (thread : ThreadId) (phase next : Phase) (n : Node)
    (calm : phase.isCalm = true) (unmarked : next ≠ .markFailed)
    (built : ∀ r, next = .storeReport r → ∃ now, r = n.report now n.window) :
    ThreadOutcome thread phase n (n.proceed thread next) :=
  .goesOn calm n.heartbeat n.completedCycles n.latestReport n.log next unmarked (.refl _) (.inl rfl)
    built

/-- A step that leaves the cached report as it is and goes on with something else than a report. -/
theorem noted (thread : ThreadId) (phase next : Phase) (n : Node) (calm : phase.isCalm = true)
    (unmarked : next ≠ .markFailed) (unbuilt : ∀ r, next ≠ .storeReport r) (heartbeat : Heartbeat)
    (completedCycles : Nat) (log : List Event) (notes : Notes n.log log) :
    ThreadOutcome thread phase n
      ({ n with heartbeat := heartbeat, completedCycles := completedCycles, log := log }.proceed
        thread next) :=
  .goesOn calm heartbeat completedCycles n.latestReport log next unmarked notes (.inl rfl)
    fun r stores => absurd stores (unbuilt r)

variable {n n' : Node} {thread : ThreadId} {phase : Phase}

theorem frame (outcome : ThreadOutcome thread phase n n') :
    n'.call = n.call ∧ n'.vertex = n.vertex := by
  cases outcome <;> exact ⟨rfl, rfl⟩

/-- A step of a thread starts no other thread. -/
theorem isLive (outcome : ThreadOutcome thread phase n n')
    (present : n.threads.get? thread = some phase) (t : ThreadId) (still : n'.isLive t = true) :
    n.isLive t = true := by
  have before (went : t = thread ∨ n.isLive t = true) : n.isLive t = true := by
    rcases went with rfl | live
    · exact (isLive_iff n t).2 ⟨phase, present⟩
    · exact live
  cases outcome with
  | goesOn _ _ _ _ _ next => exact before ((isLive_proceed _ thread t next).1 still)
  | ends _ _ => exact ((isLive_exit _ thread t).1 still).2
  | records _ _ => exact before ((isLive_proceed _ thread t .markFailed).1 still)
  | fails _ => exact ((isLive_exit _ thread t).1 still).2

/-- A thread changes state and error only on its way to a failure. -/
theorem standing (outcome : ThreadOutcome thread phase n n')
    (present : n.threads.get? thread = some phase) :
    (n'.control.state = n.control.state ∧ n'.lastError = n.lastError ∧
        ∀ t, n.threads.get? t = some .markFailed → n'.threads.get? t = some .markFailed) ∨
      n'.threads.get? thread = some .markFailed ∨ n'.control.state = .failed := by
  have other (calm : phase.isCalm = true) (t : ThreadId)
      (marked : n.threads.get? t = some .markFailed) : t ≠ thread := by
    rintro rfl
    cases present.symm.trans marked
    cases calm
  cases outcome with
  | goesOn calm heartbeat completed latest log next =>
    refine .inl ⟨rfl, rfl, fun t marked => ?_⟩
    rw [get?_proceed, if_neg (other calm t marked)]
    exact marked
  | ends calm stopped =>
    refine .inl ⟨rfl, rfl, fun t marked => ?_⟩
    rw [get?_exit, if_neg (other calm t marked)]
    exact marked
  | records error met =>
    refine .inr (.inl ?_)
    rw [get?_proceed, if_pos rfl]
  | fails marked => exact .inr (.inr rfl)

end ThreadOutcome

variable {ν : Type} [Network ν]

/-- What is kept by stops by the thread itself, and by the notes of calls from inside, is kept by all
acts. -/
theorem perform_keeps (P : Node → ν → Prop) (point : Point) (acts : List Act)
    (called : ∀ n net e, (e = .stoppedItself point ∨ ∃ error, e = .startedItself error) →
      P n net → P (n.emit e) net)
    (stop : .stop ∈ acts → ∀ n net, P n net → P (n.stopItself net).1 (n.stopItself net).2)
    (n : Node) (net : ν) (holds : P n net) :
    P (perform point n net acts).1 (perform point n net acts).2.1 := by
  induction acts generalizing n net with
  | nil => exact holds
  | cons act acts ih =>
    have go (n : Node) (net : ν) (holds : P n net) :
        P (perform point n net acts).1 (perform point n net acts).2.1 :=
      ih (fun mem => stop (List.mem_cons_of_mem act mem)) n net holds
    cases act with
    | stop => exact go _ _ (called _ _ _ (.inl rfl) (stop List.mem_cons_self n net holds))
    | start => exact go _ _ (called _ _ _ (.inr ⟨_, rfl⟩) holds)
    | crash text => exact holds
    | fail message =>
      simp only [perform]
      split
      · exact holds
      · exact go _ _ holds

/-- What notes and stops by the thread itself keep is kept by all acts. -/
theorem perform_preserves (P : Node → ν → Prop) (point : Point) (acts : List Act)
    (event : ∀ n net e, e.isNote = true → P n net → P (n.emit e) net)
    (stop : .stop ∈ acts → ∀ n net, P n net → P (n.stopItself net).1 (n.stopItself net).2)
    (n : Node) (net : ν) (holds : P n net) :
    P (perform point n net acts).1 (perform point n net acts).2.1 := by
  refine perform_keeps P point acts (fun n net e which => event n net e ?_) stop n net holds
  rcases which with rfl | ⟨error, rfl⟩ <;> rfl

/-- Hooks and engine do what they do, which keeps `P`, and the step then comes to one of its
outcomes. Beside their stops nothing starts or stops the network. -/
def ComesTo (P : Node → ν → Prop) (thread : ThreadId) (phase : Phase) (after : Node × ν) : Prop :=
  ∃ n net, P n net ∧ ThreadOutcome thread phase n after.1 ∧
    Network.isRunning n.vertex after.2 = Network.isRunning n.vertex net

section

variable {P : Node → ν → Prop} {m : Moment}
  (event : ∀ n net e, e.isNote = true → P n net → P (n.emit e) net)
  (stop : .stop ∈ m.acts → ∀ n net, P n net → P (n.stopItself net).1 (n.stopItself net).2)
  (thread : ThreadId) {phase : Phase} (n : Node) (net : ν) (holds : P n net)
include holds

theorem comesTo_proceed (next : Phase) (calm : phase.isCalm = true)
    (unmarked : next ≠ .markFailed)
    (built : ∀ r, next = .storeReport r → ∃ now, r = n.report now n.window) :
    ComesTo P thread phase (n.proceed thread next, net) :=
  ⟨n, net, holds, .proceed thread phase next n calm unmarked built, rfl⟩

theorem comesTo_test (next : Phase) (calm : phase.isCalm = true) (unmarked : next ≠ .markFailed)
    (unbuilt : ∀ r, next ≠ .storeReport r) :
    ComesTo P thread phase
      (if n.control.running then n.proceed thread next else n.exit thread, net) := by
  split
  next running =>
    exact comesTo_proceed thread n net holds next calm unmarked fun r stores =>
      absurd stores (unbuilt r)
  next stopped => exact ⟨n, net, holds, .ends calm (by simpa using stopped), rfl⟩

include event stop

theorem runHook_comesTo (point : Point) (e : Event) (note : e.isNote = true) (next : Phase)
    (calm : phase.isCalm = true) (unmarked : next ≠ .markFailed)
    (unbuilt : ∀ r, next ≠ .storeReport r) :
    ComesTo P thread phase (runHook point e next m thread n net) := by
  have done := perform_preserves P point m.acts event stop (n.emit e) net (event _ _ _ note holds)
  simp only [runHook]
  split
  next n₁ net₁ performed =>
    rw [performed] at done
    exact comesTo_proceed thread n₁ net₁ done next calm unmarked fun r stores =>
      absurd stores (unbuilt r)
  next n₁ net₁ error performed =>
    rw [performed] at done
    exact comesTo_proceed thread n₁ net₁ done (.recordError error) calm (by simp) (by simp)

variable [LawfulNetwork ν]

theorem runEngine_comesTo : ComesTo P thread .engine (runEngine m thread n net) := by
  have done := perform_preserves P .engine m.acts event stop (n.emit (.engineCalled m.now)) net
    (event _ _ _ rfl holds)
  simp only [runEngine]
  split
  next n₁ net₁ error performed =>
    rw [performed] at done
    exact comesTo_proceed thread n₁ net₁ done (.recordError error) rfl (by simp) (by simp)
  next n₁ net₁ performed =>
    rw [performed] at done
    have notes (states : SortedMap NodeName NeighborState) (round : UInt64)
        (values : SortedMap String Float) (heartbeat : Heartbeat) :
        Notes n₁.log (n₁.log ++ [.engineRead states] ++ [.share round values] ++
          [.beat heartbeat] ++ [.engineReturned]) :=
      ((((Notes.refl n₁.log).emit (.engineRead states) rfl).emit (.share round values) rfl).emit
        (.beat heartbeat) rfl).emit .engineReturned rfl
    -- what the heartbeat shares leaves the network as it is
    refine ⟨n₁, net₁, done, ?_, LawfulNetwork.isRunning_share n₁.vertex _ _ net₁⟩
    simp only [emit]
    generalize n₁.heartbeat.beat (Network.states n₁.vertex net₁) = heartbeat
    exact .noted thread .engine .increment n₁ rfl (by simp) (by simp) heartbeat n₁.completedCycles
      _ (notes _ _ _ _)

theorem threadStep_comesTo (present : n.threads.get? thread = some phase) :
    ComesTo P thread phase (n.threadStep m thread net) := by
  cases phase with
  | loopTest =>
    simp only [threadStep, present]
    exact comesTo_test thread n net holds .preHook rfl (by simp) (by simp)
  | preHook =>
    simp only [threadStep, present]
    exact runHook_comesTo event stop thread n net holds .pre .preCycle rfl .preTest rfl (by simp)
      (by simp)
  | preTest | countTest | storeTest =>
    simp only [threadStep, present]
    exact comesTo_proceed thread n net holds _ rfl (by split <;> simp) (by split <;> simp)
  | beginCycle =>
    simp only [threadStep, present]
    refine ⟨n, net, holds, ?_, LawfulNetwork.isRunning_beginCycle n.vertex net⟩
    exact .noted thread .beginCycle .engine n rfl (by simp) (by simp) n.heartbeat n.completedCycles
      _ ((Notes.refl n.log).emit .beginCycle rfl)
  | engine =>
    simp only [threadStep, present]
    exact runEngine_comesTo event stop thread n net holds
  | increment =>
    simp only [threadStep, present]
    refine ⟨n, net, holds, ?_, rfl⟩
    exact .noted thread .increment .countTest n rfl (by simp) (by simp) n.heartbeat
      (n.completedCycles + 1) n.log (.refl _)
  | buildReport =>
    simp only [threadStep, present]
    refine comesTo_proceed thread n net holds _ rfl (by simp) fun r stores => ⟨m.now, ?_⟩
    cases stores
    rfl
  | storeReport report =>
    simp only [threadStep, present]
    refine ⟨n, net, holds, ?_, rfl⟩
    exact .goesOn rfl n.heartbeat n.completedCycles (some report) _ .storeTest (by simp)
      ((Notes.refl n.log).emit .reportStored rfl) (.inr ⟨report, rfl, rfl⟩) (by simp)
  | postHook =>
    simp only [threadStep, present]
    exact runHook_comesTo event stop thread n net holds .post .postCycle rfl .sleep rfl (by simp)
      (by simp)
  | sleep =>
    simp only [threadStep, present]
    exact comesTo_test thread n net holds .loopTest rfl (by simp) (by simp)
  | recordError error =>
    simp only [threadStep, present]
    exact ⟨n, net, holds, .records error rfl, rfl⟩
  | markFailed =>
    simp only [threadStep, present]
    exact ⟨n, net, holds, .fails rfl, rfl⟩

end

/-- Hooks and engine that do not stop the node leave nothing but events. -/
theorem threadStep_unstopped [LawfulNetwork ν] (m : Moment) (thread : ThreadId) (n : Node)
    (net : ν) {phase : Phase} (present : n.threads.get? thread = some phase)
    (unstopped : .stop ∉ m.acts) :
    ∃ log, ThreadOutcome thread phase { n with log := log } (n.threadStep m thread net).1 := by
  let P (n' : Node) (_ : ν) : Prop := ∃ log, n' = { n with log := log }
  have event (n' : Node) (net' : ν) (e : Event) (_ : e.isNote = true) (holds : P n' net') :
      P (n'.emit e) net' := by
    obtain ⟨log, rfl⟩ := holds
    exact ⟨_, rfl⟩
  have stop (member : .stop ∈ m.acts) (n' : Node) (net' : ν) (_ : P n' net') :
      P (n'.stopItself net').1 (n'.stopItself net').2 := absurd member unstopped
  obtain ⟨n₁, _, ⟨log, rfl⟩, outcome, _⟩ :=
    threadStep_comesTo event stop thread n net ⟨n.log, rfl⟩ present
  exact ⟨log, outcome⟩

end Node

end RegionNet
