import RegionNet.Proofs.Node.Failures
import RegionNet.Proofs.Node.HookRuns

/-!
# What a node shows of its failures and of its cycles

The error, the state and the counter of a node stand behind different locks and are written in
different steps, by the thread and by callers. They are compared here with what has happened to the
node: which starts were successful, which errors hooks and engine ended a cycle with, and how often
the engine returned. A node that is seen to have failed keeps the error that ended its latest
execution, through stops and through starts that fail, until a start succeeds; and its counter is
the number of times that the engine returned.
-/

namespace RegionNet

/-- What counts for the error and the counter that a node shows. -/
inductive Happening
  /-- A start was successful. -/
  | launched
  /-- A hook or the engine ended the cycle with an error. -/
  | met (error : EngineError)
  /-- The engine returned without an error. -/
  | returned
deriving DecidableEq

/-- The error that ended the latest execution, after one more happening. -/
def Happening.ended (before : Option EngineError) : Happening → Option EngineError
  | launched => none
  | met error => some error
  | returned => before

/-- The error that ended the latest execution, which began with the last launch. -/
def endedBy (history : List Happening) : Option EngineError :=
  history.foldl Happening.ended none

theorem endedBy_concat (history : List Happening) (h : Happening) :
    endedBy (history ++ [h]) = h.ended (endedBy history) := by
  simp [endedBy]

namespace Node

/-- What happens in the next step of a thread: where a hook or the engine runs, it ends the cycle
with an error or returns. -/
def happening (n : Node) (thread : ThreadId) (m : Moment) : List Happening :=
  match (n.threads.get? thread).bind Phase.point? with
  | none => []
  | some point =>
    match m.acts.findSome? (Act.error? point n.name) with
    | some error => [.met error]
    | none => if point = .engine then [.returned] else []

theorem happening_cases (n : Node) (thread : ThreadId) (m : Moment) :
    (∃ error, n.Meets thread m error ∧ n.happening thread m = [.met error]) ∨
    ((∀ error, ¬ n.Meets thread m error) ∧ n.threads.get? thread = some .engine ∧
      n.happening thread m = [.returned]) ∨
    ((∀ error, ¬ n.Meets thread m error) ∧ n.threads.get? thread ≠ some .engine ∧
      n.happening thread m = []) := by
  rw [happening]
  cases present : n.threads.get? thread with
  | none => exact .inr (.inr ⟨by simp [Meets, present], by simp, rfl⟩)
  | some phase =>
    cases hosts : phase.point? with
    | none =>
      refine .inr (.inr ⟨by simp [Meets, present, hosts], ?_, by simp [hosts]⟩)
      rintro ⟨⟩
      cases hosts
    | some point =>
      have engine : point = .engine ↔ phase = .engine := by
        cases phase <;> cases hosts <;> simp
      cases acts : m.acts.findSome? (Act.error? point n.name) with
      | some error =>
        exact .inl ⟨error, ⟨phase, point, present, hosts, acts⟩, by simp [hosts, acts]⟩
      | none =>
        have unmet (error : EngineError) : ¬ n.Meets thread m error := by
          simp [Meets, present, hosts, acts]
        by_cases here : phase = .engine
        · obtain rfl := engine.2 here
          exact .inr (.inl ⟨unmet, by rw [here], by simp [hosts, acts]⟩)
        · exact .inr (.inr ⟨unmet, by simpa using here, by simp [hosts, acts, engine, here]⟩)

/-! ### The counter -/

/-- The engine returns in the step that sends its thread on to count the cycle. -/
theorem count_happening {ν : Type} [Network ν] (n : Node) (m : Moment) (thread : ThreadId)
    (net : ν) {phase : Phase} (present : n.threads.get? thread = some phase) :
    (n.happening thread m).count .returned =
      if (n.threadStep m thread net).1.threads.get? thread = some .increment then 1 else 0 := by
  rcases n.happening_cases thread m with
    ⟨error, meets, happens⟩ | ⟨unmet, engine, happens⟩ | ⟨_, outside, happens⟩
  · have calm : phase.isCalm = true := by
      rw [← Bool.not_eq_false]
      exact fun uncalm => not_meets_of_uncalm present uncalm m error meets
    rw [happens, (threadStep_meets m thread net present calm error).2 meets]
    rfl
  · have sound : m.acts.findSome? (Act.error? .engine n.name) = none :=
      Option.eq_none_iff_forall_ne_some.2 fun error met =>
        unmet error ⟨.engine, .engine, engine, rfl, met⟩
    simp only [happens, threadStep, engine, runEngine_phase, sound, Option.elim_none]
    rfl
  · have deals : Deals (fun _ => True) thread phase n (n.threadStep m thread net) :=
      threadStep_deals thread (fun _ => id) m (fun _ => id) trivial present
    rw [happens, List.count_nil]
    symm
    refine if_neg ?_
    generalize n.threadStep m thread net = after at deals
    cases deals with
    | silent _ _ _ next unshared threads =>
      rcases threads with inserted | erased
      · rw [inserted, SortedMap.get?_insert_self]
        simpa using unshared
      · simp [erased, SortedMap.get?_erase]
    | shares _ engine => exact absurd (engine ▸ present) outside
    | counts _ _ _ _ _ _ _ threads => simp [threads, SortedMap.get?_insert_self]

/-- The engine has returned as often as its cycles were counted, or once more while the thread is
about to count. -/
structure Counted (returned : Nat) (n : Node) : Prop where
  ahead : ∀ t, n.threads.get? t = some .increment → returned = n.completedCycles + 1
  level : (∀ t, n.threads.get? t ≠ some .increment) → returned = n.completedCycles

namespace Counted

variable {n n' : Node} {returned : Nat}

theorem of_same (counted : n.Counted returned) (completed : n'.completedCycles = n.completedCycles)
    (threads : ∀ t, n'.threads.get? t = some .increment ↔ n.threads.get? t = some .increment) :
    n'.Counted returned where
  ahead t present := by
    rw [completed]
    exact counted.ahead t ((threads t).1 present)
  level none := by
    rw [completed]
    exact counted.level fun t present => none t ((threads t).2 present)

/-- A step of the only thread. -/
theorem threadStep {ν : Type} [Network ν] (counted : n.Counted returned) (m : Moment)
    (thread : ThreadId) (net : ν)
    (alone : n.isLive thread = true → ∀ t, n.isLive t = true → t = thread) :
    (n.threadStep m thread net).1.Counted
      (returned + (n.happening thread m).count .returned) := by
  cases present : n.threads.get? thread with
  | none =>
    rw [threadStep_of_missing m thread n net present]
    simpa [happening, present] using counted
  | some phase =>
    have only (t : ThreadId) (phase' : Phase) (found : n.threads.get? t = some phase') :
        t = thread ∧ phase' = phase := by
      obtain rfl := alone ((isLive_iff n thread).2 ⟨phase, present⟩) t
        ((isLive_iff n t).2 ⟨phase', found⟩)
      exact ⟨rfl, Option.some.inj (found.symm.trans present)⟩
    have deals : Deals (fun _ => True) thread phase n (n.threadStep m thread net) :=
      threadStep_deals thread (fun _ => id) m (fun _ => id) trivial present
    rw [n.count_happening m thread net present]
    generalize n.threadStep m thread net = after at deals
    cases deals with
    | @silent n' _ silent _ uncounted next unshared threads =>
      -- neither before nor after the step is the thread, which is the only one, about to count
      have before (t : ThreadId) : n.threads.get? t ≠ some .increment := fun counting =>
        uncounted (only t _ counting).2.symm
      have after (t : ThreadId) : n'.threads.get? t ≠ some .increment := by
        rcases threads with inserted | erased
        · rw [inserted, SortedMap.get?_insert]
          split
          · simpa using unshared
          · exact before t
        · rw [erased, SortedMap.get?_erase]
          split
          · simp
          · exact before t
      rw [if_neg (after thread)]
      exact counted.of_same silent.completed fun t => iff_of_false (after t) (before t)
    | shares _ engine _ completed _ _ _ threads =>
      have level := counted.level fun t counting => by
        cases engine.symm.trans (only t _ counting).2.symm
      have counting := n.threads.get?_insert_self thread .increment
      rw [← threads] at counting
      rw [if_pos counting, level, ← completed]
      exact ⟨fun _ _ => rfl, fun none => absurd counting (none thread)⟩
    | counts _ increment _ completed _ _ _ threads =>
      have ahead := counted.ahead thread (increment ▸ present)
      rw [threads, SortedMap.get?_insert_self, if_neg (by simp), ahead, ← completed]
      refine ⟨fun t counting => ?_, fun _ => rfl⟩
      rw [threads, SortedMap.get?_insert] at counting
      split at counting
      · cases counting
      next other => exact absurd (only t _ counting).1 other

end Counted

/-! ### The error -/

/-- A step that is not of a thread and starts none settles the state, at most. -/
structure Aside (n n' : Node) : Prop where
  state : n'.control.state = n.control.state ∨ n'.control.state = settledState n.control.state
  lastError : n'.lastError = n.lastError
  threads : n'.threads = n.threads
  spawned : n'.spawned = n.spawned
  completed : n'.completedCycles = n.completedCycles

theorem aside_beginStart (n : Node) : Aside n n.beginStart := by
  simp only [beginStart]
  split <;> exact ⟨.inl rfl, rfl, rfl, rfl, rfl⟩

theorem aside_beginStop (n : Node) : Aside n n.beginStop := by
  simp only [beginStop]
  split <;> exact ⟨.inl rfl, rfl, rfl, rfl, rfl⟩

section

variable {ν : Type} [Network ν] (n : Node) (net : ν)

theorem aside_stopItself : Aside n (n.stopItself net).1 := by
  have settled : (if n.control.state = .failed then LifecycleState.failed else .stopped) =
      settledState n.control.state := by
    cases n.control.state <;> rfl
  simp only [stopItself]
  split
  · split <;> exact ⟨.inr settled, rfl, rfl, rfl, rfl⟩
  · exact ⟨.inl rfl, rfl, rfl, rfl, rfl⟩

/-- The next step of the call in progress starts a thread. -/
def launches : Bool :=
  n.call == some .launch && (n.callStep net).1.startResult.isOk

theorem callStep_cases :
    n.call = some .launch ∧ n.launches net = true ∧ (n.callStep net).1 = n.launched ∨
      n.launches net = false ∧ Aside n (n.callStep net).1 := by
  cases calls : n.call with
  | none =>
    refine .inr ⟨by simp [launches, calls], ?_⟩
    simp only [callStep, calls]
    exact ⟨.inl rfl, rfl, rfl, rfl, rfl⟩
  | some c =>
    cases c with
    | launch =>
      simp only [launches, calls, callStep, launch]
      split
      · exact .inr ⟨rfl, .inl rfl, rfl, rfl, rfl, rfl⟩
      · split
        · exact .inr ⟨rfl, .inl rfl, rfl, rfl, rfl, rfl⟩
        · exact .inl ⟨trivial, rfl, rfl⟩
    | reapJoin | stopJoin =>
      refine .inr ⟨by simp [launches, calls], ?_⟩
      simp only [callStep, calls]
      split <;> exact ⟨.inl rfl, rfl, rfl, rfl, rfl⟩
    | settle =>
      refine .inr ⟨by simp [launches, calls], ?_⟩
      simp only [callStep, calls]
      exact ⟨.inr rfl, rfl, rfl, rfl, rfl⟩
    | _ =>
      refine .inr ⟨by simp [launches, calls], ?_⟩
      simp only [callStep, calls]
      exact ⟨.inl rfl, rfl, rfl, rfl, rfl⟩

end

/-- The node has no execution behind it. -/
structure Unstarted (n : Node) : Prop where
  unfailed : n.control.state ≠ .failed
  unkept : n.lastError = none
  dead : ∀ t, n.threads.get? t = none

/-- What a node shows, if this has happened to it. -/
structure Shows (history : List Happening) (n : Node) : Prop where
  standing : n.Unstarted ∨ n.Latest (endedBy history)
  counted : n.Counted (history.count .returned)

/-- A failure is still shown. -/
structure Keeps (n n' : Node) : Prop where
  failed : n.control.state = .failed → n'.control.state = .failed
  error : ∀ e, n.lastError = some e → n'.lastError = some e

theorem Keeps.refl (n : Node) : Keeps n n :=
  ⟨id, fun _ => id⟩

theorem Keeps.trans {n n' n'' : Node} (keeps : Keeps n n') (keeps' : Keeps n' n'') : Keeps n n'' :=
  ⟨fun failed => keeps'.failed (keeps.failed failed),
    fun e kept => keeps'.error e (keeps.error e kept)⟩

section

variable {n n' : Node} {history : List Happening}

theorem Aside.keeps (aside : Aside n n') : Keeps n n' where
  failed failed := by
    rcases aside.state with same | settled
    · exact same.trans failed
    · exact settled.trans (settledState_eq_failed_iff.2 failed)
  error e kept := aside.lastError.trans kept

theorem Shows.aside (shows : n.Shows history) (aside : Aside n n') : n'.Shows history where
  standing := by
    refine shows.standing.imp (fun unstarted => ⟨?_, ?_, ?_⟩) fun latest =>
      latest.of_same aside.state aside.lastError aside.threads aside.spawned
    · rcases aside.state with same | settled
      · exact same ▸ unstarted.unfailed
      · exact settled ▸ mt settledState_eq_failed_iff.1 unstarted.unfailed
    · exact aside.lastError.trans unstarted.unkept
    · exact aside.threads ▸ unstarted.dead
  counted := shows.counted.of_same aside.completed fun t => by rw [aside.threads]

/-- A launch forgets the error. -/
theorem Shows.launched (shows : n.Shows history) (dead : ∀ t, n.isLive t = false) :
    n.launched.Shows (history ++ [.launched]) where
  standing := by
    rw [endedBy_concat]
    exact .inr (Latest.launched dead)
  counted := by
    rw [List.count_append]
    refine shows.counted.of_same rfl fun t => ?_
    have live := dead t
    rw [← Bool.not_eq_true, isLive_iff, not_exists] at live
    -- no thread is alive before, and the new one starts with the test of its loop
    refine iff_of_false (fun counting => ?_) (live _)
    have placed : (n.proceed n.spawned .loopTest).threads.get? t = some .increment := counting
    rw [get?_proceed] at placed
    split at placed
    · cases placed
    · exact live _ placed

theorem Unfailed.ne_failed (unfailed : n.Unfailed) : n.control.state ≠ .failed := by
  intro failed
  rcases unfailed with running | stopped
  · cases running.symm.trans failed
  · cases stopped.symm.trans failed

variable {ν : Type} [Network ν]

theorem Shows.keeps_threadStep (shows : n.Shows history) (m : Moment) (thread : ThreadId)
    (net : ν) : Keeps n (n.threadStep m thread net).1 := by
  cases present : n.threads.get? thread with
  | none =>
    rw [threadStep_of_missing m thread n net present]
    exact Keeps.refl n
  | some phase =>
    rcases shows.standing with unstarted | latest
    · cases (unstarted.dead thread).symm.trans present
    · generalize endedBy history = ended at latest
      -- an error is kept already, or a failure marked, only by a thread at its end
      cases latest with
      | sound unfailed unkept | met _ _ _ unfailed unkept =>
        exact ⟨fun failed => absurd failed unfailed.ne_failed,
          fun e kept => by cases unkept.symm.trans kept⟩
      | kept _ _ _ _ _ threads =>
        obtain ⟨rfl, rfl⟩ := (threads thread phase).1 present
        simp only [threadStep, present]
        exact ⟨fun _ => rfl, fun _ => id⟩
      | failed _ _ _ dead => cases (dead thread).symm.trans present

theorem Shows.threadStep [LawfulNetwork ν] (shows : n.Shows history) (m : Moment)
    (thread : ThreadId) (net : ν)
    (alone : n.isLive thread = true → ∀ t, n.isLive t = true → t = thread) :
    (n.threadStep m thread net).1.Shows (history ++ n.happening thread m) where
  standing := by
    rcases shows.standing with unstarted | latest
    · rw [threadStep_of_missing m thread n net (unstarted.dead thread)]
      exact .inl unstarted
    · obtain ⟨error, latest', decided⟩ := latest.threadStep m thread net
      -- `Latest.threadStep` knows the error by where it was met, and so does the history
      have ended : endedBy (history ++ n.happening thread m) = error := by
        have same (unmet : ∀ e, ¬ n.Meets thread m e) : endedBy history = error :=
          Option.ext fun e => ((decided e).trans (or_iff_left (unmet e))).symm
        rcases n.happening_cases thread m with
          ⟨e, meets, happens⟩ | ⟨unmet, _, happens⟩ | ⟨unmet, _, happens⟩
        · rw [happens, endedBy_concat]
          exact ((decided e).2 (.inr meets)).symm
        · rw [happens, endedBy_concat]
          exact same unmet
        · rw [happens, List.append_nil]
          exact same unmet
      exact .inr (ended ▸ latest')
  counted := by
    rw [List.count_append]
    exact shows.counted.threadStep m thread net alone

end

end Node

namespace Agent

variable {ν : Type} [Network ν] {a b : Agent ν} {history events : List Happening}

/-- A step of a node, with what happens in it. -/
inductive Happens : Agent ν → List Happening → Agent ν → Prop
  | start (a : Agent ν) (free : a.node.call = none) : Happens a [] a.beginStart
  | stop (a : Agent ν) (free : a.node.call = none) : Happens a [] a.beginStop
  | stopInside (a : Agent ν) (thread : ThreadId) (phase : Phase)
      (present : a.node.threads.get? thread = some phase) (hosts : phase.hosts = true)
      (free : a.node.call = none) : Happens a [] a.stopItself
  | call (a : Agent ν) :
      Happens a (if a.node.launches a.network then [.launched] else []) a.callStep
  | thread (a : Agent ν) (m : Moment) (thread : ThreadId)
      (apart : ∀ act ∈ m.acts, act.isCall = true → a.node.call = none) :
      Happens a (a.node.happening thread m) (a.threadStep m thread)
  | traffic (a : Agent ν) (network : ν)
      (unswitched : Network.isRunning a.node.vertex network = a.networkRuns) :
      Happens a [] { a with network := network }

theorem step_iff : Step a b ↔ ∃ events, Happens a events b := by
  constructor
  case mp =>
    intro step
    cases step with
    | start free => exact ⟨_, .start a free⟩
    | stop free => exact ⟨_, .stop a free⟩
    | stopInside thread phase present hosts free =>
      exact ⟨_, .stopInside a thread phase present hosts free⟩
    | call => exact ⟨_, .call a⟩
    | thread m thread apart => exact ⟨_, .thread a m thread apart⟩
    | traffic network unswitched => exact ⟨_, .traffic a network unswitched⟩
  case mpr =>
    rintro ⟨events, happens⟩
    cases happens with
    | start free => exact .start a free
    | stop free => exact .stop a free
    | stopInside thread phase present hosts free =>
      exact .stopInside a thread phase present hosts free
    | call => exact .call a
    | thread m thread apart => exact .thread a m thread apart
    | traffic network unswitched => exact .traffic a network unswitched

/-- What happens from one state on until another one is reached. -/
inductive Leads (a : Agent ν) : List Happening → Agent ν → Prop
  | refl : Leads a [] a
  | step {b c : Agent ν} {before events : List Happening} (leads : Leads a before b)
      (happens : Happens b events c) : Leads a (before ++ events) c

/-- The history of a node from its creation on. -/
inductive Chronicle (a : Agent ν) (history : List Happening) : Prop
  | new (vertex : Vertex) (resources : ResourceManager) (window : EstimationWindow) (network : ν)
      (stopped : Network.isRunning vertex network = false)
      (leads : Leads ⟨Node.new vertex resources window, network⟩ history a)

theorem Chronicle.step (chronicle : Chronicle a history) (happens : Happens a events b) :
    Chronicle b (history ++ events) := by
  obtain ⟨vertex, resources, window, network, stopped, leads⟩ := chronicle
  exact ⟨vertex, resources, window, network, stopped, leads.step happens⟩

theorem Chronicle.leads (chronicle : Chronicle a history) (leads : Leads a events b) :
    Chronicle b (history ++ events) := by
  induction leads with
  | refl => rwa [List.append_nil]
  | step _ happens chronicle' =>
    rw [← List.append_assoc]
    exact chronicle'.step happens

theorem Chronicle.reachable (chronicle : Chronicle a history) : Reachable a := by
  obtain ⟨vertex, resources, window, network, stopped, leads⟩ := chronicle
  induction leads with
  | refl => exact .new vertex resources window network stopped
  | step _ happens reachable => exact .step reachable (step_iff.2 ⟨_, happens⟩)

/-! ### Failures -/

theorem Happens.shows [LawfulNetwork ν] (happens : Happens a events b) (sane : Sane a)
    (shows : a.node.Shows history) : b.node.Shows (history ++ events) := by
  cases happens with
  | start =>
    rw [List.append_nil]
    exact shows.aside a.node.aside_beginStart
  | stop =>
    rw [List.append_nil]
    exact shows.aside a.node.aside_beginStop
  | stopInside =>
    rw [List.append_nil]
    exact shows.aside (a.node.aside_stopItself a.network)
  | call =>
    rcases a.node.callStep_cases a.network with ⟨calls, launches, launched⟩ | ⟨rests, aside⟩
    · rw [if_pos launches]
      exact (congrArg (Node.Shows _) launched).mpr (shows.launched (sane.dead_of_launch calls))
    · rw [rests, if_neg Bool.false_ne_true, List.append_nil]
      exact shows.aside aside
  | thread m thread => exact shows.threadStep m thread a.network (sane.alone thread)
  | traffic =>
    rw [List.append_nil]
    exact shows

theorem Chronicle.shows [LawfulNetwork ν] (chronicle : Chronicle a history) :
    a.node.Shows history := by
  obtain ⟨vertex, resources, window, network, stopped, leads⟩ := chronicle
  induction leads with
  | refl =>
    refine ⟨.inl ⟨by simp [Node.new], rfl, fun t => rfl⟩, fun t counting => ?_, fun _ => rfl⟩
    cases counting
  | step leads happens shows =>
    have chronicle : Chronicle _ _ := ⟨vertex, resources, window, network, stopped, leads⟩
    exact happens.shows chronicle.reachable.sane shows

/-- Whatever happens but a launch, a failure is still shown. -/
theorem Happens.keeps (happens : Happens a events b) (shows : a.node.Shows history)
    (unlaunched : .launched ∉ events) : a.node.Keeps b.node := by
  cases happens with
  | start => exact a.node.aside_beginStart.keeps
  | stop => exact a.node.aside_beginStop.keeps
  | stopInside => exact (a.node.aside_stopItself a.network).keeps
  | call =>
    rcases a.node.callStep_cases a.network with ⟨_, launches, _⟩ | ⟨_, aside⟩
    · simp [launches] at unlaunched
    · exact aside.keeps
  | thread m thread => exact shows.keeps_threadStep m thread a.network
  | traffic => exact Node.Keeps.refl a.node

theorem Leads.keeps [LawfulNetwork ν] (leads : Leads a events b) (chronicle : Chronicle a history)
    (unlaunched : .launched ∉ events) : a.node.Keeps b.node := by
  induction leads with
  | refl => exact Node.Keeps.refl a.node
  | step leads happens before =>
    rw [List.mem_append, not_or] at unlaunched
    exact (before unlaunched.1).trans (happens.keeps (chronicle.leads leads).shows unlaunched.2)

/-- Nothing but the last step of a start launches a thread. -/
theorem Happens.launch (happens : Happens a events b) (launched : .launched ∈ events) :
    a.node.call = some .launch ∧ b.node.call = none ∧ b.node.startResult = .ok () := by
  cases happens with
  | start => cases launched
  | stop => cases launched
  | stopInside => cases launched
  | call =>
    rcases a.node.callStep_cases a.network with ⟨calls, _, same⟩ | ⟨rests, _⟩
    · exact ⟨calls, congrArg Node.call same, congrArg Node.startResult same⟩
    · simp [rests] at launched
  | thread m thread =>
    rcases a.node.happening_cases thread m with
      ⟨_, _, happens⟩ | ⟨_, _, happens⟩ | ⟨_, _, happens⟩ <;> simp [happens] at launched
  | traffic => cases launched

/-- A call in which a thread is launched is a start that has returned. -/
theorem During.leads {begun : Agent ν} (during : During begun b) :
    ∃ events, Leads begun events b ∧ (.launched ∈ events →
      b.node.call = none ∧ b.node.startResult = .ok () ∧
        ∃ before, During begun before ∧ before.node.call = some .launch) := by
  induction during with
  | begun => exact ⟨[], .refl, fun launched => by cases launched⟩
  | @step before b' during busy step ih =>
    obtain ⟨earlier, leads, ended⟩ := ih
    obtain ⟨events, happens⟩ := step_iff.1 step
    refine ⟨_, leads.step happens, fun launched => ?_⟩
    rcases List.mem_append.1 launched with early | now
    · exact absurd (ended early).1 busy
    · obtain ⟨calls, returned, ok⟩ := happens.launch now
      exact ⟨returned, ok, before, during, calls⟩

/-- What a node shows after a history. -/
structure FailuresShown (a : Agent ν) (history : List Happening) : Prop where
  explained : a.node.control.state = .failed →
    ∃ e, endedBy history = some e ∧ a.node.lastError = some e
  /-- Between its last two steps, a failing thread has kept its error and has yet to mark it. -/
  failed_of_error : (∀ t, a.node.threads.get? t ≠ some .markFailed) →
    ∀ e, a.node.lastError = some e → a.node.control.state = .failed
  persists : ∀ b events, Leads a events b → .launched ∉ events → a.node.Keeps b.node
  stop_keeps : a.node.call = none → ∀ b, During a.beginStop b → a.node.Keeps b.node
  stop_inside_keeps : a.node.Keeps a.stopItself.node
  failed_start_keeps : a.node.call = none → ∀ b, During a.beginStart b → b.node.call = none →
    ∀ e, b.node.startResult = .error e → a.node.Keeps b.node
  counted : (∀ t, a.node.threads.get? t ≠ some .increment) →
    a.node.completedCycles = history.count .returned
  /-- A cycle is counted in the step after the one in which the engine returns. -/
  counting : ∀ t, a.node.threads.get? t = some .increment →
    a.node.completedCycles + 1 = history.count .returned

theorem failures_shown_of_chronicle [LawfulNetwork ν] (chronicle : Chronicle a history) :
    FailuresShown a history where
  explained failed := by
    rcases chronicle.shows.standing with unstarted | latest
    · exact absurd failed unstarted.unfailed
    · generalize endedBy history = ended at latest
      cases latest with
      | failed e _ kept _ => exact ⟨e, rfl, kept⟩
      | sound unfailed | met _ _ _ unfailed | kept _ _ _ unfailed =>
        exact absurd failed unfailed.ne_failed
  failed_of_error unmarked e kept := by
    rcases chronicle.shows.standing with unstarted | latest
    · cases unstarted.unkept.symm.trans kept
    · generalize endedBy history = ended at latest
      cases latest with
      | failed _ failed _ _ => exact failed
      | sound _ unkept | met _ _ _ _ unkept => cases unkept.symm.trans kept
      | kept _ t _ _ _ threads => exact absurd ((threads t .markFailed).2 ⟨rfl, rfl⟩) (unmarked t)
  persists b events leads unlaunched := leads.keeps chronicle unlaunched
  stop_keeps free b during := by
    have begun : Happens a [] a.beginStop := .stop a free
    obtain ⟨events, leads, ended⟩ := during.leads
    refine (begun.keeps chronicle.shows (by simp)).trans
      (leads.keeps (chronicle.step begun) fun launched => ?_)
    -- a stop does not come to a launch
    obtain ⟨_, _, before, launching, calls⟩ := ended launched
    rcases launching.stop chronicle.reachable.sane free with ⟨c, stops, isStop⟩ | ⟨returned, _⟩
    · cases calls.symm.trans stops
      cases isStop
    · cases calls.symm.trans returned
  stop_inside_keeps := (a.node.aside_stopItself a.network).keeps
  failed_start_keeps free b during returned e failed := by
    have begun : Happens a [] a.beginStart := .start a free
    obtain ⟨events, leads, ended⟩ := during.leads
    refine (begun.keeps chronicle.shows (by simp)).trans
      (leads.keeps (chronicle.step begun) fun launched => ?_)
    obtain ⟨_, ok, _⟩ := ended launched
    cases failed.symm.trans ok
  counted level := (chronicle.shows.counted.level level).symm
  counting t counting := (chronicle.shows.counted.ahead t counting).symm

/-- The hook after the first cycle stops its node and crashes. The node is stopped from outside
after that, and a start fails as its network does not come up. -/
theorem failures_shown_of_crashed_hook :
    ∃ (a : Agent StandIn) (history : List Happening), Chronicle a history ∧
      history = [.launched, .returned, .met (.crashed "a" "x")] ∧
      a.node.startResult = .error (.network "a" (.unresolved "a")) ∧
      a.node.control.state = .failed ∧ a.node.lastError = some (.crashed "a" "x") ∧
      FailuresShown a history := by
  let m : Moment := ⟨0, []⟩
  let crash : Moment := ⟨0, [.stop, .crash (some "x")]⟩
  let inHook := Nat.repeat (threadStep m 0) 10 launchedAgent
  let failed := ((inHook.threadStep crash 0).threadStep m 0).threadStep m 0
  let stopped := failed.beginStop.callStep.callStep.callStep.callStep
  let cut : Agent StandIn := { stopped with network := { stopped.network with failing := true } }
  have quiet {b : Agent StandIn} {h : List Happening} (chronicle : Chronicle b h) :
      Chronicle (b.threadStep m 0) (h ++ b.node.happening 0 m) :=
    chronicle.step (.thread b m 0 (by simp [m]))
  have call {b : Agent StandIn} {h : List Happening} (chronicle : Chronicle b h) :
      Chronicle b.callStep (h ++ if b.node.launches b.network then [.launched] else []) :=
    chronicle.step (.call b)
  have launched : Chronicle launchedAgent [.launched] :=
    call (Chronicle.step ⟨_, _, _, _, rfl, .refl⟩ (.start _ rfl))
  have run : Chronicle inHook _ :=
    quiet (quiet (quiet (quiet (quiet (quiet (quiet (quiet (quiet (quiet launched)))))))))
  have ended : Chronicle failed _ :=
    quiet (quiet (run.step (.thread inHook crash 0 fun _ _ _ => by decide +kernel)))
  have halted : Chronicle stopped _ :=
    call (call (call (call (ended.step (.stop failed (by decide +kernel))))))
  have restarted : Chronicle cut.beginStart.callStep _ :=
    call ((halted.step (.traffic stopped cut.network (by decide +kernel))).step
      (.start cut (by decide +kernel)))
  refine ⟨cut.beginStart.callStep, _, restarted, ?_, ?_, ?_, ?_,
    failures_shown_of_chronicle restarted⟩
  all_goals decide +kernel

end Agent

end RegionNet
