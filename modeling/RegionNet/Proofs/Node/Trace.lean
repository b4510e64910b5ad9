import RegionNet.Proofs.Node.Chronicle

/-!
# What is seen of a thread

A thread runs the hook before its cycle, begins the cycle, calls the engine, keeps a report and runs
the hook after the cycle, again and again. Hooks and engine may fail in every step that runs them,
and the running flag may be cleared at any time, by the thread itself or by someone else, but it is
not set again while the thread lives. So what is seen of the thread is the beginning of the endless
repetition of its cycle, whatever happens beside it; once the flag is cleared the thread begins one
more part of the cycle at most, and after an error none.
-/

namespace RegionNet

/-- What is seen of a cycle. The engine is called and returns after the cycle has begun. -/
inductive Mark
  | pre
  | round
  | called
  | returned
  | report
  | post
deriving DecidableEq

namespace Mark

/-- The marks of one cycle. -/
def cycle : List Mark :=
  [.pre, .round, .called, .returned, .report, .post]

/-- Is it the start of one of the four parts of a cycle? -/
def isPart : Mark → Bool
  | called => false
  | returned => false
  | _ => true

end Mark

def Event.mark? : Event → Option Mark
  | preCycle => some .pre
  | beginCycle => some .round
  | engineCalled _ => some .called
  | engineReturned => some .returned
  | reportStored => some .report
  | postCycle => some .post
  | _ => none

/-- The marks that a thread leaves in a phase, unless it meets an error. -/
def Phase.marks : Phase → List Mark
  | .preHook => [.pre]
  | .beginCycle => [.round]
  | .engine => [.called, .returned]
  | .storeReport _ => [.report]
  | .postHook => [.post]
  | _ => []

/-- The beginning of the endless repetition of a list. -/
def Repeats {α : Type} (cycle trace : List α) : Prop :=
  ∃ k, trace <+: (List.replicate k cycle).flatten

namespace Node

/-- The marks that were left since a node was in the state `n₀`. -/
def since (n₀ n : Node) : List Mark :=
  (n.log.drop n₀.log.length).filterMap Event.mark?

/-! ### Marks -/

/-- These marks were left, and the running flag was not set. -/
structure Leaves (marks : List Mark) (n n' : Node) : Prop where
  log : ∃ events, n'.log = n.log ++ events ∧ events.filterMap Event.mark? = marks
  unset : n'.control.running = true → n.control.running = true

namespace Leaves

variable {n n' n'' : Node} {marks marks' : List Mark}

theorem refl (n : Node) : Leaves [] n n :=
  ⟨⟨[], (List.append_nil _).symm, rfl⟩, id⟩

/-- Nothing but the log and the running flag count. -/
theorem congr (leaves : Leaves marks n n') (log : n''.log = n'.log)
    (unset : n''.control.running = true → n'.control.running = true) : Leaves marks n n'' :=
  ⟨log ▸ leaves.log, leaves.unset ∘ unset⟩

theorem quiet (leaves : Leaves marks n n') (e : Event) (unmarked : e.mark? = none) :
    Leaves marks n (n'.emit e) := by
  obtain ⟨⟨events, log, marked⟩, unset⟩ := leaves
  refine ⟨⟨events ++ [e], ?_, ?_⟩, unset⟩
  · rw [emit, log, List.append_assoc]
  · rw [List.filterMap_append, marked]
    simp [unmarked]

theorem emit (leaves : Leaves marks n n') (e : Event) {mark : Mark} (marked : e.mark? = some mark) :
    Leaves (marks ++ [mark]) n (n'.emit e) := by
  obtain ⟨⟨events, log, earlier⟩, unset⟩ := leaves
  refine ⟨⟨events ++ [e], ?_, ?_⟩, unset⟩
  · rw [Node.emit, log, List.append_assoc]
  · rw [List.filterMap_append, earlier]
    simp [marked]

theorem trans (leaves : Leaves marks n n') (leaves' : Leaves marks' n' n'') :
    Leaves (marks ++ marks') n n'' := by
  obtain ⟨⟨events, log, marked⟩, unset⟩ := leaves
  obtain ⟨⟨events', log', marked'⟩, unset'⟩ := leaves'
  refine ⟨⟨events ++ events', ?_, ?_⟩, unset ∘ unset'⟩
  · rw [log', log, List.append_assoc]
  · rw [List.filterMap_append, marked, marked']

theorem since_eq (leaves : Leaves marks n n') : n.since n' = marks := by
  obtain ⟨⟨events, log, marked⟩, _⟩ := leaves
  rw [since, log, List.drop_left, marked]

theorem cleared (leaves : Leaves marks n n') (stopped : n.control.running = false) :
    n'.control.running = false := by
  rw [← Bool.not_eq_true] at stopped ⊢
  exact mt leaves.unset stopped

end Leaves

section

variable {ν : Type} [Network ν]

theorem leaves_stopItself (n : Node) (net : ν) : Leaves [] n (n.stopItself net).1 := by
  have requested := (Leaves.refl n).quiet (.stopRequested n.control.running) rfl
  simp only [stopItself]
  split
  · split
    · exact ((requested.quiet .preStop rfl).quiet .networkStop rfl).congr rfl (by simp)
    · exact requested.congr rfl (by simp)
  · exact .refl n

/-- Acts leave no marks. -/
theorem leaves_perform {marks : List Mark} {n n₁ : Node} (leaves : Leaves marks n n₁)
    (point : Point) (net : ν) (acts : List Act) : Leaves marks n (perform point n₁ net acts).1 := by
  refine perform_keeps (fun n' _ => Leaves marks n n') point acts ?_ ?_ n₁ net leaves
  · rintro n' _ e called leaves
    refine leaves.quiet e ?_
    rcases called with rfl | ⟨_, rfl⟩ <;> rfl
  · intro _ n' net' leaves
    rw [← List.append_nil marks]
    exact leaves.trans (leaves_stopItself n' net')

theorem leaves_runHook (point : Point) (e : Event) {mark : Mark} (marked : e.mark? = some mark)
    (next : Phase) (m : Moment) (thread : ThreadId) (n : Node) (net : ν) :
    Leaves [mark] n (runHook point e next m thread n net).1 := by
  have acts := leaves_perform ((Leaves.refl n).emit e marked) point net m.acts
  rw [runHook]
  generalize perform point (n.emit e) net m.acts = performed at acts
  obtain ⟨n₁, net₁, _ | error⟩ := performed
  · exact acts.congr rfl id
  · exact acts.congr rfl id

/-- The engine returns unless it ends the cycle with an error. -/
theorem leaves_runEngine (m : Moment) (thread : ThreadId) (n : Node) (net : ν) :
    Leaves (if (m.acts.findSome? (Act.error? .engine n.name)).isSome then [.called]
      else [.called, .returned]) n (runEngine m thread n net).1 := by
  have called : Leaves [.called] n (n.emit (.engineCalled m.now)) := (Leaves.refl n).emit _ rfl
  have acts := leaves_perform called .engine net m.acts
  have error := perform_error .engine (n.emit (.engineCalled m.now)) net m.acts
  change _ = m.acts.findSome? (Act.error? .engine n.name) at error
  rw [← error, runEngine]
  generalize perform .engine (n.emit (.engineCalled m.now)) net m.acts = performed at acts
  obtain ⟨n₁, net₁, _ | error⟩ := performed
  · let heartbeat := n₁.heartbeat.beat (Network.states n₁.vertex net₁)
    let round := UInt64.ofNat (n₁.completedCycles + 1)
    have read := acts.quiet (.engineRead (Network.states n₁.vertex net₁)) rfl
    have shared := read.quiet (.share round heartbeat.shared) rfl
    exact ((shared.quiet (.beat heartbeat) rfl).emit .engineReturned rfl).congr rfl id
  · exact acts.congr rfl id

/-- What a step of a thread comes to: the next phase and all marks of the phase, or an error and the
first of them. -/
inductive Turn (thread : ThreadId) (m : Moment) (phase : Phase) (n : Node) :
    List Mark → Option Phase → Prop
  | quiet (unmet : ∀ e, ¬ n.Meets thread m e) (report : Report Float) :
      Turn thread m phase n phase.marks (phase.next n.control.running report)
  | met (point : Point) (hosts : phase.point? = some point) (e : EngineError)
      (meets : n.Meets thread m e) :
      Turn thread m phase n (phase.marks.take 1) (some (.recordError e))

section

variable {m : Moment} {thread : ThreadId} {n : Node} {phase : Phase}
  (present : n.threads.get? thread = some phase)
include present

theorem Turn.unhosted (unhosted : phase.point? = none) (report : Report Float) :
    Turn thread m phase n phase.marks (phase.next n.control.running report) :=
  .quiet (fun e => by simp [Meets, present, unhosted]) report

theorem Turn.hosted (point : Point) (hosts : phase.point? = some point) (next : Phase)
    (goesOn : ∀ running report, phase.next running report = some next) :
    Turn thread m phase n
      (if (m.acts.findSome? (Act.error? point n.name)).isSome then phase.marks.take 1
        else phase.marks)
      (some ((m.acts.findSome? (Act.error? point n.name)).elim next .recordError)) := by
  cases ended : m.acts.findSome? (Act.error? point n.name) with
  | none =>
    rw [Option.elim_none, ← goesOn n.control.running (n.report 0 n.window)]
    exact .quiet (fun e => by simp [Meets, present, hosts, ended]) _
  | some e => exact .met point hosts e ⟨phase, point, present, hosts, ended⟩

/-- A test that ends the thread if it does not let it go on. -/
theorem exists_turn_of_test (unhosted : phase.point? = none) (unmarked : phase.marks = [])
    (next : Phase)
    (ends : ∀ running report, phase.next running report = if running then some next else none) :
    ∃ marks, Leaves marks n (if n.control.running then n.proceed thread next else n.exit thread) ∧
      Turn thread m phase n marks
        ((if n.control.running then n.proceed thread next else n.exit thread).threads.get?
          thread) := by
  have turn := Turn.unhosted (m := m) present unhosted (n.report 0 n.window)
  rw [ends, unmarked] at turn
  refine ⟨[], ?_, ?_⟩
  · split <;> exact (Leaves.refl n).congr rfl id
  · split
    next running =>
      rw [get?_proceed, if_pos rfl]
      rwa [if_pos running] at turn
    next stopped =>
      rw [get?_exit, if_pos rfl]
      rwa [if_neg stopped] at turn

end

theorem threadStep_turn (m : Moment) (thread : ThreadId) {n : Node} (net : ν) {phase : Phase}
    (present : n.threads.get? thread = some phase) :
    ∃ marks, Leaves marks n (n.threadStep m thread net).1 ∧
      Turn thread m phase n marks ((n.threadStep m thread net).1.threads.get? thread) := by
  have quiet (unhosted : phase.point? = none) := Turn.unhosted (m := m) present unhosted
  cases phase with
  | preHook =>
    simp only [threadStep, present, runHook_phase]
    refine ⟨_, leaves_runHook .pre .preCycle rfl .preTest m thread n net, ?_⟩
    simpa only [Phase.marks, List.take, ite_self] using
      Turn.hosted present .pre rfl .preTest fun _ _ => rfl
  | postHook =>
    simp only [threadStep, present, runHook_phase]
    refine ⟨_, leaves_runHook .post .postCycle rfl .sleep m thread n net, ?_⟩
    simpa only [Phase.marks, List.take, ite_self] using
      Turn.hosted present .post rfl .sleep fun _ _ => rfl
  | engine =>
    simp only [threadStep, present, runEngine_phase]
    exact ⟨_, leaves_runEngine m thread n net,
      Turn.hosted present .engine rfl .increment fun _ _ => rfl⟩
  | loopTest =>
    simp only [threadStep, present]
    exact exists_turn_of_test present rfl rfl .preHook fun _ _ => rfl
  | sleep =>
    simp only [threadStep, present]
    exact exists_turn_of_test present rfl rfl .loopTest fun _ _ => rfl
  | preTest | countTest | storeTest | increment | recordError =>
    simp only [threadStep, present, test, get?_proceed, ↓reduceIte]
    exact ⟨[], (Leaves.refl n).congr rfl id, quiet rfl (n.report 0 n.window)⟩
  | buildReport =>
    simp only [threadStep, present, get?_proceed, ↓reduceIte]
    exact ⟨[], (Leaves.refl n).congr rfl id, quiet rfl _⟩
  | beginCycle =>
    simp only [threadStep, present, get?_proceed, ↓reduceIte]
    exact ⟨_, ((Leaves.refl n).emit .beginCycle rfl).congr rfl id, quiet rfl (n.report 0 n.window)⟩
  | storeReport =>
    simp only [threadStep, present, get?_proceed, ↓reduceIte]
    exact ⟨_, ((Leaves.refl n).emit .reportStored rfl).congr rfl id,
      quiet rfl (n.report 0 n.window)⟩
  | markFailed =>
    simp only [threadStep, present, get?_exit, ↓reduceIte]
    exact ⟨[], (Leaves.refl n).congr rfl (by simp [exit]), quiet rfl (n.report 0 n.window)⟩

/-- What happens to a node while one of its threads lives, with the number of steps that the thread
takes. Whatever happens beside it leaves the thread where it is, leaves no marks and does not set
the running flag. -/
inductive Run (ν : Type) [Network ν] (thread : ThreadId) (n₀ : Node) : Nat → Node → Prop
  | refl : Run ν thread n₀ 0 n₀
  | own {k : Nat} {n : Node} (run : Run ν thread n₀ k n) (live : n.isLive thread = true)
      (m : Moment) (net : ν) : Run ν thread n₀ (k + 1) (n.threadStep m thread net).1
  | beside {k : Nat} {n n' : Node} (run : Run ν thread n₀ k n) (leaves : Leaves [] n n')
      (place : n'.threads.get? thread = n.threads.get? thread) : Run ν thread n₀ k n'

/-- A thread has met an error in the run, and is on its way out since. -/
def Failed (ν : Type) [Network ν] (thread : ThreadId) (n₀ n : Node) : Prop :=
  ∃ k n₁, Run ν thread n₀ k n₁ ∧ ∃ m e, n₁.Meets thread m e ∧
    ∃ (net : ν) (k' : Nat), Run ν thread (n₁.threadStep m thread net).1 k' n

end

end Node

/-! ### The place in the cycle -/

/-- The number of marks that the current cycle has left before a phase. -/
def Phase.marked : Phase → Nat
  | .preTest => 1
  | .beginCycle => 1
  | .engine => 2
  | .increment => 4
  | .countTest => 4
  | .buildReport => 4
  | .storeReport _ => 4
  | .storeTest => 5
  | .postHook => 5
  | .sleep => 6
  | _ => 0

/-- The current cycle has left `i` marks. Where a thread is says how many, unless it is on its way
out. -/
structure Fits (running : Bool) (phase? : Option Phase) (i : Nat) : Prop where
  within : i ≤ 6
  level : ∀ phase, phase? = some phase → phase.isCalm = true →
    (phase = .sleep → running = true) → i = phase.marked

namespace Fits

variable {running : Bool} {phase? : Option Phase} {i : Nat}

theorem here (running : Bool) (phase : Phase) : Fits running (some phase) phase.marked where
  within := by cases phase <;> simp [Phase.marked]
  level := by
    rintro _ ⟨⟩ _ _
    rfl

/-- A thread on its way out has left the cycle where it was. -/
theorem out (within : i ≤ 6) (leaves : ∀ phase, phase? = some phase → phase.isCalm = true →
    phase = .sleep ∧ running = false) : Fits running phase? i where
  within := within
  level phase present calm asleep := by
    obtain ⟨sleeps, stopped⟩ := leaves phase present calm
    cases (asleep sleeps).symm.trans stopped

theorem test (running : Bool) (phase : Phase) {i : Nat} (level : i = phase.marked)
    {running' : Bool} (unset : running' = true → running = true) :
    Fits running' (some (if running then phase else .sleep)) i := by
  cases running with
  | true =>
    rw [level]
    exact here running' phase
  | false =>
    refine out (level ▸ (here true phase).within) ?_
    rintro _ ⟨⟩ _
    exact ⟨rfl, by simpa using unset⟩

theorem turn {thread : ThreadId} {m : Moment} {phase : Phase} {n : Node} {marks : List Mark}
    {next : Option Phase} (fits : Fits n.control.running (some phase) i)
    (turn : Node.Turn thread m phase n marks next)
    (unset : running = true → n.control.running = true) :
    ∃ j i', Mark.cycle.take i ++ marks =
        (List.replicate j Mark.cycle).flatten ++ Mark.cycle.take i' ∧ Fits running next i' := by
  have level := fits.level phase rfl
  have stays (unmarked : marks = []) : Mark.cycle.take i ++ marks =
      (List.replicate 0 Mark.cycle).flatten ++ Mark.cycle.take i := by simp [unmarked]
  cases turn with
  | quiet unmet report =>
    cases phase with
    | sleep =>
      rw [Phase.next]
      split
      next set =>
        -- the next cycle begins
        obtain rfl := level rfl fun _ => set
        exact ⟨1, 0, rfl, here running .loopTest⟩
      next => exact ⟨0, i, stays rfl, out fits.within (by simp)⟩
    | loopTest =>
      obtain rfl := level rfl (by simp)
      rw [Phase.next]
      split
      next => exact ⟨0, 0, rfl, here running .preHook⟩
      next => exact ⟨0, 0, rfl, out (Nat.zero_le _) (by simp)⟩
    | recordError e => exact ⟨0, i, stays rfl, out fits.within (by simp [Phase.next, Phase.isCalm])⟩
    | markFailed => exact ⟨0, i, stays rfl, out fits.within (by simp [Phase.next])⟩
    | preTest =>
      obtain rfl := level rfl (by simp)
      exact ⟨0, 1, rfl, test n.control.running .beginCycle rfl unset⟩
    | countTest =>
      obtain rfl := level rfl (by simp)
      exact ⟨0, 4, rfl, test n.control.running .buildReport rfl unset⟩
    | storeTest =>
      obtain rfl := level rfl (by simp)
      exact ⟨0, 5, rfl, test n.control.running .postHook rfl unset⟩
    | preHook | beginCycle | engine | increment | buildReport | storeReport | postHook =>
      obtain rfl := level rfl (by simp)
      exact ⟨0, _, rfl, here running _⟩
  | met point hosts e meets =>
    have leaves (i' : Nat) (within : i' ≤ 6) : Fits running (some (.recordError e)) i' :=
      out within (by simp [Phase.isCalm])
    cases phase with
    | preHook =>
      obtain rfl := level rfl (by simp)
      exact ⟨0, 1, rfl, leaves 1 (by decide)⟩
    | engine =>
      obtain rfl := level rfl (by simp)
      exact ⟨0, 3, rfl, leaves 3 (by decide)⟩
    | postHook =>
      obtain rfl := level rfl (by simp)
      exact ⟨0, 6, rfl, leaves 6 (by decide)⟩
    | _ => cases hosts

end Fits

namespace Node

section

variable {ν : Type} [Network ν] {thread : ThreadId} {n₀ n n' : Node} {k : Nat}


/-- The marks since a thread stood at the test of its loop are whole cycles and what the current
one has left. -/
theorem Run.along (started : n₀.threads.get? thread = some .loopTest)
    (run : Run ν thread n₀ k n) :
    ∃ j i, Leaves ((List.replicate j Mark.cycle).flatten ++ Mark.cycle.take i) n₀ n ∧
      Fits n.control.running (n.threads.get? thread) i := by
  induction run with
  | refl => exact ⟨0, 0, .refl n₀, started ▸ .here _ .loopTest⟩
  | @own k n run live m net ih =>
    obtain ⟨j, i, before, fits⟩ := ih
    obtain ⟨phase, present⟩ := (isLive_iff n thread).1 live
    obtain ⟨marks, leaves, turn⟩ := threadStep_turn m thread net present
    obtain ⟨j', i', marked, fits'⟩ := (present ▸ fits).turn turn leaves.unset
    refine ⟨j + j', i', ?_, fits'⟩
    have all := before.trans leaves
    rwa [List.append_assoc, marked, ← List.append_assoc, ← List.flatten_append,
      List.replicate_append_replicate] at all
  | beside run leaves place ih =>
    obtain ⟨j, i, before, fits⟩ := ih
    have all := before.trans leaves
    rw [List.append_nil] at all
    refine ⟨j, i, all, ?_⟩
    rw [place]
    exact ⟨fits.within, fun phase present calm asleep =>
      fits.level phase present calm fun sleeps => leaves.unset (asleep sleeps)⟩

/-! ### The way out -/

end

end Node

/-- The most parts of a cycle that a thread begins in a phase and after it, once it is on its way
out. -/
def Phase.partsLeft : Phase → Nat
  | .preHook => 1
  | .beginCycle => 1
  | .buildReport => 1
  | .storeReport _ => 1
  | .postHook => 1
  | _ => 0

/-- The most steps that it takes then. -/
def Phase.stepsLeft : Phase → Nat
  | .loopTest => 1
  | .preHook => 3
  | .preTest => 2
  | .beginCycle => 5
  | .engine => 4
  | .increment => 3
  | .countTest => 2
  | .buildReport => 4
  | .storeReport _ => 3
  | .storeTest => 2
  | .postHook => 3
  | .sleep => 1
  | .recordError _ => 2
  | .markFailed => 1

namespace Node

section

variable {ν : Type} [Network ν] {thread : ThreadId} {n₀ n n' : Node} {k : Nat}

/-- The flag is cleared, or the thread has met an error. -/
def Closing (thread : ThreadId) (n : Node) : Prop :=
  n.control.running = false ∨
    ∀ phase, n.threads.get? thread = some phase → phase.isCalm = false

def partsLeft (n : Node) (thread : ThreadId) : Nat :=
  (n.threads.get? thread).elim 0 Phase.partsLeft

def stepsLeft (n : Node) (thread : ThreadId) : Nat :=
  (n.threads.get? thread).elim 0 Phase.stepsLeft

theorem left_le (n : Node) (thread : ThreadId) :
    n.partsLeft thread ≤ 1 ∧ n.stepsLeft thread ≤ 5 := by
  rw [partsLeft, stepsLeft]
  cases n.threads.get? thread with
  | none => simp
  | some phase => cases phase <;> simp [Phase.partsLeft, Phase.stepsLeft]

theorem Turn.closing {m : Moment} {phase : Phase} {marks : List Mark} {next : Option Phase}
    (turn : Turn thread m phase n marks next)
    (out : n.control.running = false ∨ phase.isCalm = false) :
    (marks.filter Mark.isPart).length + next.elim 0 Phase.partsLeft ≤ phase.partsLeft ∧
      next.elim 0 Phase.stepsLeft < phase.stepsLeft ∧
      (n.control.running = false ∨ ∀ phase', next = some phase' → phase'.isCalm = false) := by
  cases turn with
  | quiet unmet report =>
    rcases out with stopped | uncalm
    · rw [stopped]
      refine ⟨?_, ?_, .inl rfl⟩
      · cases phase <;>
          simp [Phase.next, Phase.marks, Phase.partsLeft, List.filter_cons, Mark.isPart]
      · cases phase <;> simp [Phase.next, Phase.stepsLeft]
    · cases phase with
      | recordError | markFailed =>
        simp [Phase.next, Phase.marks, Phase.partsLeft, Phase.stepsLeft, Phase.isCalm]
      | _ => cases uncalm
  | met point hosts e meets =>
    refine ⟨?_, ?_, .inr (by simp [Phase.isCalm])⟩
    · cases phase <;> simp [Phase.marks, Phase.partsLeft, List.filter_cons, Mark.isPart]
    · cases phase with
      | preHook | engine | postHook => simp [Phase.stepsLeft]
      | _ => cases hosts

/-- What is still to come of a thread on its way out. -/
theorem Run.closing (run : Run ν thread n₀ k n) (closing : n₀.Closing thread) :
    ∃ marks, Leaves marks n₀ n ∧ n.Closing thread ∧
      (marks.filter Mark.isPart).length + n.partsLeft thread ≤ n₀.partsLeft thread ∧
      k + n.stepsLeft thread ≤ n₀.stepsLeft thread := by
  induction run with
  | refl => exact ⟨[], .refl n₀, closing, by simp, by simp⟩
  | @own k n run live m net ih =>
    obtain ⟨before, leaves, closing', parts, steps⟩ := ih
    obtain ⟨phase, present⟩ := (isLive_iff n thread).1 live
    obtain ⟨marks, leaves', turn⟩ := threadStep_turn m thread net present
    simp only [partsLeft, stepsLeft, present, Option.elim_some] at parts steps
    obtain ⟨parts', steps', out⟩ := turn.closing (closing'.imp_right fun uncalm =>
      uncalm phase present)
    refine ⟨before ++ marks, leaves.trans leaves', out.imp_left leaves'.cleared, ?_, ?_⟩
    · rw [List.filter_append, List.length_append]
      simp only [partsLeft]
      omega
    · simp only [stepsLeft]
      omega
  | beside run leaves' place ih =>
    obtain ⟨before, leaves, closing', parts, steps⟩ := ih
    refine ⟨before, List.append_nil before ▸ leaves.trans leaves', ?_, ?_, ?_⟩
    · rw [Closing, place]
      exact closing'.imp_left leaves'.cleared
    · simpa only [partsLeft, place] using parts
    · simpa only [stepsLeft, place] using steps

/-- A thread is on its way out only after it has met an error. -/
theorem Run.failed (run : Run ν thread n₀ k n) (started : n₀.threads.get? thread = some .loopTest) :
    ∀ phase, n.threads.get? thread = some phase → phase.isCalm = false →
      Failed ν thread n₀ n := by
  induction run with
  | refl =>
    intro phase present uncalm
    cases started.symm.trans present
    cases uncalm
  | @own k n run live m net ih =>
    intro phase' present' uncalm'
    obtain ⟨phase, present⟩ := (isLive_iff n thread).1 live
    cases calm : phase.isCalm with
    | false =>
      obtain ⟨k₁, n₁, earlier, m₁, e, meets, net₁, k', later⟩ := ih phase present calm
      exact ⟨k₁, n₁, earlier, m₁, e, meets, net₁, k' + 1, later.own live m net⟩
    | true =>
      obtain ⟨marks, _, turn⟩ := threadStep_turn m thread net present
      rw [present'] at turn
      generalize next : some phase' = next? at turn
      cases turn with
      | quiet unmet report =>
        have goesOn := phase.isCalm_next n.control.running report phase' calm next.symm
        cases goesOn.symm.trans uncalm'
      | met point hosts e meets => exact ⟨k, n, run, m, e, meets, net, 0, .refl⟩
  | beside run leaves place ih =>
    intro phase present uncalm
    obtain ⟨k₁, n₁, earlier, m₁, e, meets, net₁, k', later⟩ := ih phase (place ▸ present) uncalm
    exact ⟨k₁, n₁, earlier, m₁, e, meets, net₁, k', later.beside leaves place⟩

/-! ### What is seen -/

/-- How often a mark was left since the state `n₀`. -/
def seen (n₀ n : Node) (mark : Mark) : Nat :=
  (n₀.since n).count mark

/-- Whole cycles and the beginning of another one. -/
theorem repeats_parts (j i : Nat) :
    Repeats [.pre, .round, .report, .post]
      (((List.replicate j Mark.cycle).flatten ++ Mark.cycle.take i).filter Mark.isPart) := by
  have within : (List.replicate j Mark.cycle).flatten ++ Mark.cycle.take i <+:
      (List.replicate (j + 1) Mark.cycle).flatten := by
    rw [List.replicate_succ', List.flatten_concat]
    exact (List.prefix_append_right_inj _).2 (List.take_prefix i Mark.cycle)
  refine ⟨j + 1, ?_⟩
  have parts := within.filter Mark.isPart
  rwa [List.filter_flatten, List.map_replicate] at parts

theorem count_marks (j i : Nat) (mark : Mark) :
    ((List.replicate j Mark.cycle).flatten ++ Mark.cycle.take i).count mark =
      j + (Mark.cycle.take i).count mark := by
  have once : Mark.cycle.count mark = 1 := by cases mark <;> rfl
  rw [List.count_append, List.count_flatten, List.map_replicate, once,
    List.sum_replicate_nat, Nat.mul_one]

/-- What is seen of a thread that stood at the test of its loop in the state `n₀`. -/
structure Cycles (ν : Type) [Network ν] (thread : ThreadId) (n₀ n : Node) : Prop where
  logged : n₀.log <+: n.log
  repeats : Repeats [.pre, .round, .report, .post] ((n₀.since n).filter Mark.isPart)
  counts : n₀.seen n .round ≤ n₀.seen n .pre ∧ n₀.seen n .called ≤ n₀.seen n .round ∧
    n₀.seen n .returned ≤ n₀.seen n .called ∧ n₀.seen n .report ≤ n₀.seen n .returned ∧
    n₀.seen n .post ≤ n₀.seen n .report ∧ n₀.seen n .pre ≤ n₀.seen n .post + 1
  /-- The thread ends if it finds the flag cleared, or after an error. -/
  ends : ∀ (m : Moment) (net : ν), n.isLive thread = true →
    (n.threadStep m thread net).1.isLive thread = false →
      n.control.running = false ∧ (n.threads.get? thread = some .loopTest ∨
        n.threads.get? thread = some .sleep) ∨ Failed ν thread n₀ n
  /-- Once the flag is cleared it stays so, and the thread takes five steps at most. -/
  cleared : n.control.running = false → ∀ k n', Run ν thread n k n' →
    n'.control.running = false ∧ k ≤ 5 ∧ ((n.since n').filter Mark.isPart).length ≤ 1
  failed : ∀ (m : Moment) (net : ν) (e : EngineError), n.Meets thread m e →
    ∀ k n', Run ν thread (n.threadStep m thread net).1 k n' →
      k ≤ 2 ∧ ((n.threadStep m thread net).1.since n').filter Mark.isPart = []

theorem Run.cycles (started : n₀.threads.get? thread = some .loopTest) (run : Run ν thread n₀ k n) :
    Cycles ν thread n₀ n := by
  obtain ⟨j, i, leaves, fits⟩ := run.along started
  have seen_eq (mark : Mark) : n₀.seen n mark = j + (Mark.cycle.take i).count mark := by
    rw [seen, leaves.since_eq, count_marks]
  constructor
  case logged =>
    obtain ⟨events, log, _⟩ := leaves.log
    exact ⟨events, log.symm⟩
  case repeats =>
    rw [leaves.since_eq]
    exact repeats_parts j i
  case counts =>
    have decreasing : ∀ i ≤ 6, (Mark.cycle.take i).count .round ≤ (Mark.cycle.take i).count .pre ∧
        (Mark.cycle.take i).count .called ≤ (Mark.cycle.take i).count .round ∧
        (Mark.cycle.take i).count .returned ≤ (Mark.cycle.take i).count .called ∧
        (Mark.cycle.take i).count .report ≤ (Mark.cycle.take i).count .returned ∧
        (Mark.cycle.take i).count .post ≤ (Mark.cycle.take i).count .report ∧
        (Mark.cycle.take i).count .pre ≤ (Mark.cycle.take i).count .post + 1 := by
      decide
    have within := decreasing i fits.within
    simp only [seen_eq]
    omega
  case ends =>
    intro m net live dead
    obtain ⟨phase, present⟩ := (isLive_iff n thread).1 live
    obtain ⟨marks, _, turn⟩ := threadStep_turn m thread net present
    have gone : (n.threadStep m thread net).1.threads.get? thread = none := by
      rw [Option.eq_none_iff_forall_ne_some]
      intro phase' present'
      rw [(isLive_iff _ thread).2 ⟨phase', present'⟩] at dead
      cases dead
    rw [gone] at turn
    generalize next : none = next? at turn
    cases turn with
    | met => cases next
    | quiet unmet report =>
      cases phase with
      | markFailed => exact .inr (run.failed started .markFailed present rfl)
      | loopTest =>
        rw [Phase.next] at next
        split at next
        · cases next
        next stopped => exact .inl ⟨by simpa using stopped, .inl present⟩
      | sleep =>
        rw [Phase.next] at next
        split at next
        · cases next
        next stopped => exact .inl ⟨by simpa using stopped, .inr present⟩
      | _ => cases next
  case cleared =>
    intro stopped k' n' run'
    obtain ⟨marks, leaves', _, parts, steps⟩ := run'.closing (.inl stopped)
    obtain ⟨parts_le, steps_le⟩ := n.left_le thread
    rw [leaves'.since_eq]
    exact ⟨leaves'.cleared stopped, by omega, by omega⟩
  case failed =>
    intro m net e meets k' n' run'
    have met := meets
    obtain ⟨phase, _, present, _⟩ := met
    have calm : phase.isCalm = true := by
      rw [← Bool.not_eq_false]
      exact fun uncalm => not_meets_of_uncalm present uncalm m e meets
    have out := (threadStep_meets m thread net present calm e).2 meets
    have closing : (n.threadStep m thread net).1.Closing thread :=
      .inr (by simp [out, Phase.isCalm])
    obtain ⟨marks, leaves', _, parts, steps⟩ := run'.closing closing
    simp only [partsLeft, stepsLeft, out, Option.elim_some, Phase.partsLeft, Phase.stepsLeft]
      at parts steps
    rw [leaves'.since_eq]
    exact ⟨by omega, List.eq_nil_of_length_eq_zero (by omega)⟩

/-! ### Calls -/

theorem leaves_beginStart (n : Node) : Leaves [] n n.beginStart := by
  simp only [beginStart]
  split <;> exact (Leaves.refl n).congr rfl id

theorem leaves_beginStop (n : Node) : Leaves [] n n.beginStop := by
  simp only [beginStop]
  split
  · exact ((Leaves.refl n).quiet (.stopRequested n.control.running) rfl).congr rfl (by simp)
  · exact .refl n

/-- A call sets the running flag in its launch only. -/
theorem leaves_callStep (n : Node) (net : ν) (rests : n.call ≠ some .launch) :
    Leaves [] n (n.callStep net).1 := by
  simp only [callStep]
  split
  case h_4 calls => exact absurd calls rests
  case h_1 => exact .refl n
  case h_2 | h_6 => exact ((Leaves.refl n).quiet .networkStop rfl).congr rfl id
  case h_3 | h_7 => split <;> exact (Leaves.refl n).congr rfl id
  case h_5 => exact ((Leaves.refl n).quiet .preStop rfl).congr rfl id
  case h_8 | h_9 | h_10 => exact (Leaves.refl n).congr rfl id
  case h_11 => exact ((Leaves.refl n).quiet .clearNeighbors rfl).congr rfl id

end

end Node

namespace Agent

variable {ν : Type} [Network ν] {a b : Agent ν} {thread : ThreadId}

/-- What the life of a node comes to while one of its threads is alive. -/
inductive Attends (thread : ThreadId) (a : Agent ν) : Agent ν → Prop
  | refl : Attends thread a a
  | step {b c : Agent ν} (attends : Attends thread a b) (live : b.node.isLive thread = true)
      (step : Step b c) : Attends thread a c

theorem Attends.reachable (attends : Attends thread a b) (reachable : Reachable a) :
    Reachable b := by
  induction attends with
  | refl => exact reachable
  | step _ _ step ih => exact .step ih step

/-- While its thread is alive, nothing happens to a node but what may happen in a run. -/
theorem Attends.run [LawfulNetwork ν] (attends : Attends thread a b) (reachable : Reachable a) :
    ∃ k, Node.Run ν thread a.node k b.node := by
  induction attends with
  | refl => exact ⟨0, .refl⟩
  | @step b c attends live step ih =>
    obtain ⟨k, run⟩ := ih
    have sane := (attends.reachable reachable).sane
    have aside {n' : Node} (leaves : Node.Leaves [] b.node n') (aside : b.node.Aside n') :
        ∃ k, Node.Run ν thread a.node k n' :=
      ⟨k, run.beside leaves (congrArg (fun threads => threads.get? thread) aside.threads)⟩
    cases step with
    | start => exact aside b.node.leaves_beginStart b.node.aside_beginStart
    | stop => exact aside b.node.leaves_beginStop b.node.aside_beginStop
    | stopInside =>
      exact aside (b.node.leaves_stopItself b.network) (b.node.aside_stopItself b.network)
    | call =>
      have rests : b.node.call ≠ some .launch := by
        intro launches
        rw [sane.dead_of_launch launches thread] at live
        cases live
      rcases b.node.callStep_cases b.network with ⟨launches, _⟩ | ⟨_, stays⟩
      · exact absurd launches rests
      · exact aside (b.node.leaves_callStep b.network rests) stays
    | thread m t =>
      by_cases same : t = thread
      · rw [same]
        exact ⟨k + 1, run.own live m b.network⟩
      · -- no other thread is alive
        have dead : b.node.threads.get? t = none := by
          rw [Option.eq_none_iff_forall_ne_some]
          intro phase present
          exact same (sane.alone thread live t ((Node.isLive_iff b.node t).2 ⟨phase, present⟩))
        rw [Agent.threadStep, Node.threadStep_of_missing m t b.node b.network dead]
        exact ⟨k, run⟩
    | traffic => exact ⟨k, run⟩

/-- Since it was at the test of its loop, a thread has gone through its cycle in order, whatever
hooks and engine did and whenever the flag was cleared; and nothing else happens to a node that has
one. -/
theorem thread_cycles (ν : Type) [Network ν] [LawfulNetwork ν] (thread : ThreadId) :
    (∀ n₀ k n, n₀.threads.get? thread = some .loopTest → Node.Run ν thread n₀ k n →
      Node.Cycles ν thread n₀ n) ∧
    ∀ a b : Agent ν, a.Reachable → Attends thread a b → ∃ k, Node.Run ν thread a.node k b.node :=
  ⟨fun _ _ _ started run => run.cycles started, fun _ _ reachable attends => attends.run reachable⟩

/-- The hook before the first cycle stops its node, and the thread ends after the test that follows
it and the sleep. -/
theorem thread_cycles_of_stopping_hook :
    let m : Moment := ⟨0, []⟩
    let a := launchedAgent.threadStep m 0
    let b := ((a.threadStep ⟨0, [.stop]⟩ 0).threadStep m 0).threadStep m 0
    launchedAgent.node.threads.get? 0 = some .loopTest ∧
      Node.Run StandIn 0 launchedAgent.node 4 b.node ∧ b.node.threads.get? 0 = none ∧
      launchedAgent.node.since b.node = [.pre] ∧
      Node.Cycles StandIn 0 launchedAgent.node b.node := by
  intro m a b
  have started : launchedAgent.node.threads.get? 0 = some .loopTest := by decide +kernel
  have own {k : Nat} {c : Agent StandIn} (run : Node.Run StandIn 0 launchedAgent.node k c.node)
      (live : c.node.isLive 0 = true) (m : Moment) :
      Node.Run StandIn 0 launchedAgent.node (k + 1) (c.threadStep m 0).node :=
    run.own live m c.network
  have run : Node.Run StandIn 0 launchedAgent.node 4 b.node :=
    own (own (own (own .refl (by decide +kernel) m) (by decide +kernel) _) (by decide +kernel) m)
      (by decide +kernel) m
  exact ⟨started, run, by decide +kernel, by decide +kernel,
    (thread_cycles StandIn 0).1 launchedAgent.node 4 b.node started run⟩

end Agent

end RegionNet
