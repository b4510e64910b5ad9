import RegionNet.Proofs.Fleet.Histories
import RegionNet.Proofs.Fleet.Sharing
import RegionNet.Proofs.Scenario.Parts
import RegionNet.Proofs.Scenario.Schedule
import RegionNet.Proofs.Scenario.Views

/-!
# What a run that has returned leaves

A run returns an outcome only after it has told every node to stop and has seen every stop return. A
node may have failed at any moment before that, also between two looks of the run at it and while it
was being stopped: the stop waits for the thread, and the thread keeps its error and marks the
failure before it ends. So the outcome lists the nodes that have failed, with what ended their
executions, and every other node that was looked at in time has completed its cycles.
-/

namespace RegionNet

/-- No hook and no engine starts or stops its node in the move. -/
def Move.IsCallFree : Move → Prop
  | .thread _ _ moment => ∀ act ∈ moment.acts, act.isCall = false
  | _ => True

instance : DecidablePred Move.IsCallFree
  | .thread _ _ moment => inferInstanceAs (Decidable (∀ act ∈ moment.acts, act.isCall = false))
  | .call _ | .run | .tellStop _ | .answer _ | .expire | .deliver _ | .lose _ => .isTrue trivial

namespace Stage

/-- What a stage asks of a node. -/
def part : Stage → NodeName → Part
  | .start _ rest, v => if v ∈ rest then .waits else .runs False
  | .starting _ name rest, v =>
    if v = name then .starts else if v ∈ rest then .waits else .runs False
  | .undo _ pending _, v => if v ∈ pending then .runs False else .undone
  | .check rest, v => .runs (v ∉ rest)
  | .count name rest, v => .runs (v ≠ name ∧ v ∉ rest)
  | .pause, _ => .runs False
  | .stop timedOut pending _, v =>
    if v ∈ pending then .runs (timedOut = false) else .stops (timedOut = false)
  | .ended (.ok outcome), _ => .rests (outcome.timedOut = false)
  | .ended (.error _), _ => .undone

/-- No node is started twice or told to stop twice, and none is left out; what is returned lists the
nodes that have failed. -/
def Orderly (g : Graph) : Stage → Prop
  | .start started rest => (started ++ rest).Nodup
  | .starting started name rest => (started ++ name :: rest).Nodup
  | .undo _ pending _ => pending.Nodup
  | .stop _ pending told =>
    pending.Nodup ∧ ∀ v, g.nodes.contains v = true → v ∈ pending ∨ v ∈ told
  | .ended (.ok outcome) => outcome.failed = Scenario.failedNodes g
  | _ => True

end Stage

/-- A step of a call, as a deed: the system answers with a free address. -/
theorem Deed.act_call (n : Node) (f : Fabric) :
    (Deed.call ⟨f.freeAddress, true⟩).act n f = n.callStep f := by
  simp only [Deed.act, Node.callStep]
  split <;> rfl

namespace Scenario

/-- The move is a step of a thread in which a hook or the engine ends the cycle with the error. -/
def Meets (s : Scenario) : Move → NodeName → ThreadId → EngineError → Prop
  | .thread name thread m, v, t, e =>
    v = name ∧ t = thread ∧ ∃ n, s.graph.nodes.get? name = some n ∧ n.Meets thread m e
  | _, _, _, _ => False

/-- The thread of the node met the error in one of the moves. -/
def Met (s : Scenario) (moves : List Move) (v : NodeName) (t : ThreadId) (e : EngineError) : Prop :=
  ∃ before move after, moves = before ++ move :: after ∧ (before.foldl step s).Meets move v t e

/-- A run at any time: every node has its part, and answers for the errors that it has met. -/
structure Regular (met : NodeName → ThreadId → EngineError → Prop) (s : Scenario) : Prop where
  lived : s.fleet.Lived
  orderly : s.stage.Orderly s.graph
  nodes : s.fleet.EachNode fun v n =>
    n.Numbered (met v) ∧ (s.stage.part v).Holds (met v) s.termination n

variable {met : NodeName → ThreadId → EngineError → Prop} {s : Scenario}

theorem mem_names_of_contains {v : NodeName} (contains : s.graph.nodes.contains v = true) :
    v ∈ s.names := by
  obtain ⟨n, present⟩ := (SortedMap.contains_iff _ v).1 contains
  exact mem_names_of_present present

theorem Regular.restage (regular : Regular met s) (stage : Stage) (orderly : stage.Orderly s.graph)
    (parts : ∀ v n, s.graph.nodes.get? v = some n →
      (s.stage.part v).Holds (met v) s.termination n →
        (stage.part v).Holds (met v) s.termination n) :
    Regular met { s with stage := stage } where
  lived := regular.lived
  orderly := orderly
  nodes v n present := (regular.nodes v n present).imp_right (parts v n present)

/-- One node does something, and the run may go on to another stage. -/
theorem Regular.act (regular : Regular met s) (name : NodeName) (n : Node)
    (here : s.graph.nodes.get? name = some n) (d : Deed) (allowed : d.Allowed n)
    (met' : NodeName → ThreadId → EngineError → Prop) (stage : Stage)
    (orderly : stage.Orderly (s.fleet.withNode name d.act).graph)
    (own : (d.act n s.fleet.fabric).1.Numbered (met' name) ∧
      (stage.part name).Holds (met' name) s.termination (d.act n s.fleet.fabric).1)
    (others : ∀ v n, v ≠ name → met' v = met v ∧
      ((s.stage.part v).Holds (met v) s.termination n →
        (stage.part v).Holds (met v) s.termination n)) :
    Regular met' { s.withNode name d.act with stage := stage } where
  lived := regular.lived.deed name n here d allowed
  orderly := orderly
  nodes := by
    intro v n' present
    have found : (s.fleet.withNode name d.act).graph.nodes.get? v = some n' := present
    rw [Fleet.nodes_withNode] at found
    split at found
    next same =>
      subst same
      cases (congrArg (Option.map _) here).symm.trans found
      exact own
    next other =>
      obtain ⟨same, keeps⟩ := others v n' other
      rw [same]
      exact (regular.nodes v n' found).imp_right keeps

theorem withNode_of_missing {name : NodeName} (missing : s.graph.nodes.get? name = none)
    (act : Node → Fabric → Node × Fabric) : s.withNode name act = s := by
  rw [withNode, Fleet.withNode_of_missing missing]

theorem Regular.advance_start (regular : Regular met s) {started rest : List NodeName}
    (stage : s.stage = .start started rest) : Regular met s.advance := by
  have orderly := regular.orderly
  rw [stage] at orderly
  cases rest with
  | nil =>
    simp only [Scenario.advance, stage]
    refine regular.restage _ trivial fun v n present holds => ?_
    rw [stage, Stage.part, if_neg List.not_mem_nil] at holds
    exact ⟨holds.1, fun looked => absurd (mem_names_of_present present) looked⟩
  | cons name rest =>
    simp only [Scenario.advance, stage]
    have others (v : NodeName) (n : Node) (other : v ≠ name)
        (holds : (s.stage.part v).Holds (met v) s.termination n) :
        ((Stage.starting started name rest).part v).Holds (met v) s.termination n := by
      rw [stage] at holds
      simpa only [Stage.part, List.mem_cons, other, false_or, ↓reduceIte] using holds
    cases here : s.graph.nodes.get? name with
    | none =>
      rw [withNode_of_missing here]
      refine regular.restage _ orderly fun v n present holds => others v n ?_ holds
      rintro rfl
      cases here.symm.trans present
    | some n =>
      obtain ⟨numbered, holds⟩ := regular.nodes name n here
      rw [stage, Stage.part, if_pos List.mem_cons_self] at holds
      refine regular.act name n here .start holds met _ orderly ⟨numbered.beginStart, ?_⟩
        fun v n other => ⟨rfl, others v n other⟩
      rw [Stage.part, if_pos rfl]
      exact Node.starts_beginStart

/-- The others keep their part, and the node that has started is one of those that run. -/
theorem part_of_started {started rest : List NodeName} {name v : NodeName} {n : Node}
    (stage : s.stage = .starting started name rest) (new : name ∉ rest)
    (runs : v = name → n.Runs (met v))
    (holds : (s.stage.part v).Holds (met v) s.termination n) :
    (if v ∈ rest then Part.waits else .runs False).Holds (met v) s.termination n := by
  rw [stage, Stage.part] at holds
  by_cases here : v = name
  · rw [if_neg (here ▸ new)]
    exact ⟨runs here, False.elim⟩
  · rwa [if_neg here] at holds

theorem Regular.advance_starting (regular : Regular met s) {started rest : List NodeName}
    {name : NodeName} (stage : s.stage = .starting started name rest) : Regular met s.advance := by
  have orderly := regular.orderly
  rw [stage, Stage.Orderly] at orderly
  obtain ⟨once, last, apart⟩ := List.nodup_append.1 orderly
  obtain ⟨new, _⟩ := List.nodup_cons.1 last
  cases present : s.graph.nodes.get? name with
  | none =>
    simp only [Scenario.advance, stage, present]
    refine regular.restage _ (orderly.sublist (by simp)) fun v n here =>
      part_of_started stage new fun same => ?_
    rw [same, present] at here
    cases here
  | some n =>
    cases call : n.call with
    | some c =>
      simp only [Scenario.advance, stage, present, call]
      exact regular
    | none =>
      cases result : n.startResult with
      | error e =>
        simp only [Scenario.advance, stage, present, call, result]
        refine regular.restage _ once fun v n here holds => ?_
        rw [stage, Stage.part] at holds
        rw [Stage.part]
        split
        next member =>
          -- those that were started by this run are told to stop
          have before : v ∉ name :: rest := fun later => apart v member v later rfl
          rw [List.mem_cons, not_or] at before
          rwa [if_neg before.1, if_neg before.2] at holds
        next => trivial
      | ok done =>
        simp only [Scenario.advance, stage, present, call, result]
        refine regular.restage _ (by simpa [Stage.Orderly] using orderly) fun v n' here holds =>
          part_of_started stage new (fun same => ?_) holds
        rw [stage, Stage.part, if_pos same] at holds
        rw [same, present] at here
        cases here
        -- the start has returned, and its result is not an error
        cases holds with
        | waiting c calls _ => cases call.symm.trans calls
        | returned _ started => exact started result

theorem Regular.advance_check (regular : Regular met s) {rest : List NodeName}
    (stage : s.stage = .check rest) : Regular met s.advance := by
  cases termination : s.termination with
  | never =>
    have step : s.advance = { s with stage := .pause } := by
      simp [Scenario.advance, stage, termination]
    rw [step]
    refine regular.restage _ trivial fun v n _ holds => ?_
    rw [stage] at holds
    exact ⟨holds.1, False.elim⟩
  | other =>
    have step : s.advance = s := by
      simp [Scenario.advance, stage, termination]
    rwa [step]
  | completed minimum =>
    cases rest with
    | nil =>
      rw [advance_checked stage termination]
      refine regular.restage _ ⟨SortedMap.keys_nodup _, fun v => .inl ∘ mem_names_of_contains⟩
        fun v n present holds => ?_
      rw [stage] at holds
      rw [Stage.part, if_pos (mem_names_of_present present)]
      exact ⟨holds.1, fun _ => holds.2 List.not_mem_nil⟩
    | cons name rest =>
      rw [Scenario.advance_check stage termination]
      refine regular.restage _ (by split <;> trivial) fun v n present holds => ?_
      rw [stage] at holds
      split
      next => exact ⟨holds.1, fun looked => holds.2 (by simpa [not_or] using looked)⟩
      next resting =>
        -- a node that was started and does not execute has failed, and nothing more is asked of it
        refine ⟨holds.1, fun looked minimum asked => ?_⟩
        by_cases same : v = name
        · subst same
          refine .inl (holds.1.failed_of_resting (regular.lived.sound v n present).2 ?_)
          simpa [isExecuting, present] using resting
        · exact holds.2 (by simp [same, looked]) minimum asked

theorem Regular.advance_count (regular : Regular met s) {name : NodeName} {rest : List NodeName}
    (stage : s.stage = .count name rest) : Regular met s.advance := by
  cases termination : s.termination with
  | never | other =>
    have step : s.advance = { s with stage := .pause } := by
      simp [Scenario.advance, stage, termination]
    rw [step]
    refine regular.restage _ trivial fun v n _ holds => ?_
    rw [stage] at holds
    exact ⟨holds.1, False.elim⟩
  | completed minimum =>
    rw [Scenario.advance_count stage termination]
    refine regular.restage _ (by split <;> trivial) fun v n present holds => ?_
    rw [stage] at holds
    split
    next enough =>
      refine ⟨holds.1, fun looked minimum' asked => ?_⟩
      by_cases same : v = name
      · subst same
        cases termination.symm.trans asked
        exact .inr (by simpa [completedCycles, present] using enough)
      · exact holds.2 ⟨same, looked⟩ minimum' asked
    next => exact ⟨holds.1, False.elim⟩

/-- A condition of another kind may answer at any look, whatever the nodes have done. -/
theorem Regular.answer (regular : Regular met s) (answer : Bool) :
    Regular met (s.step (.answer answer)) := by
  simp only [Scenario.step]
  split
  next rest other stage =>
    cases answer with
    | false =>
      refine regular.restage .pause trivial fun v n _ holds => ?_
      rw [stage] at holds
      exact ⟨holds.1, False.elim⟩
    | true =>
      refine regular.restage (.stop false s.names [])
        ⟨SortedMap.keys_nodup _, fun v => .inl ∘ mem_names_of_contains⟩ fun v n present holds => ?_
      rw [stage] at holds
      rw [Stage.part, if_pos (mem_names_of_present present)]
      -- no number of cycles was asked for
      refine ⟨holds.1, fun _ minimum asked => ?_⟩
      cases other.symm.trans asked
  next => exact regular

/-- Once all were told to stop and no call is in progress, all stops have returned. -/
theorem Regular.advance_stop (regular : Regular met s) {timedOut : Bool} {told : List NodeName}
    (stage : s.stage = .stop timedOut [] told) : Regular met s.advance := by
  simp only [Scenario.advance, stage]
  split
  next free =>
    have orderly := regular.orderly
    rw [stage] at orderly
    refine regular.restage _ rfl fun v n present holds => ?_
    rw [stage, Stage.part, if_neg List.not_mem_nil] at holds
    -- nobody is pending, so that this node is one of those that were told
    have listed := orderly.2 v ((SortedMap.contains_iff _ v).2 ⟨n, present⟩)
    have free := List.all_eq_true.1 free v (listed.resolve_left List.not_mem_nil)
    rw [present, Option.all_some, Option.isNone_iff_eq_none] at free
    exact ⟨free, holds⟩
  next => exact regular

theorem Regular.advance (regular : Regular met s) : Regular met s.advance := by
  cases stage : s.stage with
  | start started rest => exact regular.advance_start stage
  | starting started name rest => exact regular.advance_starting stage
  | undo e pending told =>
    cases pending with
    | nil =>
      simp only [Scenario.advance, stage]
      split
      · exact regular.restage _ trivial fun _ _ _ _ => trivial
      · exact regular
    | cons name rest =>
      simp only [Scenario.advance, stage]
      exact regular
  | check rest => exact regular.advance_check stage
  | count name rest => exact regular.advance_count stage
  | pause =>
    simp only [Scenario.advance, stage]
    refine regular.restage _ trivial fun v n present holds => ?_
    rw [stage] at holds
    exact ⟨holds.1, fun missing => absurd (mem_names_of_present present) missing⟩
  | stop timedOut pending told =>
    cases pending with
    | nil => exact regular.advance_stop stage
    | cons name rest =>
      simp only [Scenario.advance, stage]
      exact regular
  | ended result =>
    simp only [Scenario.advance, stage]
    exact regular

/-- A pending node is told to stop, and is pending no more. -/
theorem Regular.act_stop (regular : Regular met s) (name : NodeName) (stage : Stage)
    (runs : ∀ n, (s.stage.part name).Holds (met name) s.termination n → n.Runs (met name))
    (orderly : stage.Orderly (s.fleet.withNode name Deed.stop.act).graph)
    (own : ∀ n, (s.stage.part name).Holds (met name) s.termination n →
      (stage.part name).Holds (met name) s.termination n.beginStop)
    (others : ∀ v n, v ≠ name → (s.stage.part v).Holds (met v) s.termination n →
      (stage.part v).Holds (met v) s.termination n) :
    Regular met { s.withNode name Deed.stop.act with stage := stage } := by
  cases here : s.graph.nodes.get? name with
  | none =>
    rw [withNode_of_missing here]
    rw [Fleet.withNode_of_missing here] at orderly
    refine regular.restage _ orderly fun v n present holds => others v n ?_ holds
    rintro rfl
    cases here.symm.trans present
  | some n =>
    obtain ⟨numbered, holds⟩ := regular.nodes name n here
    exact regular.act name n here .stop (runs n holds).free met stage orderly
      ⟨numbered.beginStop, own n holds⟩ fun v n other => ⟨rfl, others v n other⟩

theorem Regular.tellStop (regular : Regular met s) (name : NodeName) :
    Regular met (s.tellStop name) := by
  have orderly := regular.orderly
  cases stage : s.stage with
  | undo e pending told =>
    rw [stage] at orderly
    simp only [Scenario.tellStop, stage]
    split
    next member =>
      refine regular.act_stop name _ (fun n holds => ?_) (orderly.erase name) (fun n _ => ?_)
        fun v n other holds => ?_
      · rw [stage, Stage.part, if_pos member] at holds
        exact holds.1
      · rw [Stage.part, if_neg (orderly.not_mem_erase)]
        trivial
      · rw [stage] at holds
        simpa only [Stage.part, List.mem_erase_of_ne other] using holds
    next => exact regular
  | stop timedOut pending told =>
    rw [stage] at orderly
    simp only [Scenario.tellStop, stage]
    split
    next member =>
      refine regular.act_stop name _ (fun n holds => ?_) ⟨orderly.1.erase name, fun v => ?_⟩
        (fun n holds => ?_) fun v n other holds => ?_
      · rw [stage, Stage.part, if_pos member] at holds
        exact holds.1
      · rw [Fleet.contains_withNode]
        intro listed
        by_cases same : v = name
        · exact .inr (same ▸ List.mem_cons_self)
        · rw [List.mem_erase_of_ne same]
          exact (orderly.2 v listed).imp_right (List.mem_cons_of_mem name)
      · rw [stage, Stage.part, if_pos member] at holds
        rw [Stage.part, if_neg (orderly.1.not_mem_erase)]
        exact ⟨holds.1.beginStop, fun looked minimum asked =>
          (holds.2 looked minimum asked).beginStop⟩
      · rw [stage] at holds
        simpa only [Stage.part, List.mem_erase_of_ne other] using holds
    next => exact regular
  | _ =>
    simp only [Scenario.tellStop, stage]
    exact regular

/-- A node that rests after the run stays as it is. -/
theorem Regular.orderly_withNode (regular : Regular met s) {name : NodeName} {n : Node}
    (here : s.graph.nodes.get? name = some n) (act : Node → Fabric → Node × Fabric)
    (rests : n.call = none → (∀ t, n.isLive t = false) → (act n s.fleet.fabric).1 = n) :
    s.stage.Orderly (s.fleet.withNode name act).graph := by
  have orderly := regular.orderly
  cases stage : s.stage with
  | stop timedOut pending told =>
    rw [stage] at orderly
    refine ⟨orderly.1, fun v => ?_⟩
    rw [Fleet.contains_withNode]
    exact orderly.2 v
  | ended result =>
    cases result with
    | error e => trivial
    | ok outcome =>
      obtain ⟨_, sane⟩ := regular.lived.sound name n here
      obtain ⟨_, holds⟩ := regular.nodes name n here
      rw [stage] at holds orderly
      have same := rests holds.1 (holds.2.1.rests holds.1 sane).dead
      rw [Stage.Orderly, Fleet.graph_withNode_of_same here same]
      exact orderly
  | _ =>
    rw [stage] at orderly
    exact orderly

/-- A thread of a node takes a step. -/
theorem Regular.thread (regular : Regular met s) (name : NodeName) (thread : ThreadId) (m : Moment)
    (callFree : ∀ act ∈ m.acts, act.isCall = false) :
    Regular (fun v t e => met v t e ∨ s.Meets (.thread name thread m) v t e)
      (s.step (.thread name thread m)) := by
  have unstopped : .stop ∉ m.acts := fun member => by cases callFree .stop member
  -- what is met in this step is met by this node alone
  have elsewhere (v : NodeName) (other : v ≠ name) :
      (fun t e => met v t e ∨ s.Meets (.thread name thread m) v t e) = met v := by
    funext t e
    simp [Meets, other]
  cases here : s.graph.nodes.get? name with
  | none =>
    have unmet : (fun v t e => met v t e ∨ s.Meets (.thread name thread m) v t e) = met := by
      funext v t e
      simp [Meets, here]
    rw [unmet]
    simp only [Scenario.step]
    rw [withNode_of_missing here]
    exact regular
  | some n =>
    have metBy : (fun t e => met name t e ∨ s.Meets (.thread name thread m) name t e) =
        n.metBy (met name) thread m := by
      funext t e
      simp [Meets, here, Node.metBy]
    obtain ⟨numbered, holds⟩ := regular.nodes name n here
    have holds' := holds.threadStep m unstopped thread s.fleet.fabric
    refine regular.act name n here (.thread thread m) (fun act member calls => ?_) _ s.stage ?_ ?_
      fun v n other => ⟨elsewhere v other, id⟩
    · cases (callFree act member).symm.trans calls
    · refine regular.orderly_withNode here _ fun _ dead => ?_
      have gone : n.threads.get? thread = none := by
        simpa [Node.isLive, SortedMap.contains] using dead thread
      simp only [Deed.act, Node.threadStep_of_missing m thread n s.fleet.fabric gone]
    · simp only [metBy]
      exact ⟨numbered.threadStep m thread s.fleet.fabric, holds'⟩

/-- The call in progress at a node goes on. -/
theorem Regular.call (regular : Regular met s) (name : NodeName) :
    Regular met (s.step (.call name)) := by
  simp only [Scenario.step]
  cases here : s.graph.nodes.get? name with
  | none =>
    rw [withNode_of_missing here]
    exact regular
  | some n =>
    obtain ⟨_, sane⟩ := regular.lived.sound name n here
    obtain ⟨numbered, holds⟩ := regular.nodes name n here
    have deed := Deed.act_call n s.fleet.fabric
    rw [withNode, ← Fleet.withNode_congr here deed]
    refine regular.act name n here (.call _) trivial met s.stage ?_ ?_ fun v n _ => ⟨rfl, id⟩
    · refine regular.orderly_withNode here _ fun free _ => ?_
      rw [deed, n.callStep_of_free s.fleet.fabric free]
    · rw [deed]
      exact ⟨numbered.callStep s.fleet.fabric, holds.callStep numbered sane⟩

/-- Nothing is met but in the steps of threads. -/
theorem Regular.of_unmet (regular : Regular met s) {s' : Scenario} {move : Move}
    (unmet : ∀ v t e, ¬ s'.Meets move v t e) :
    Regular (fun v t e => met v t e ∨ s'.Meets move v t e) s := by
  simpa only [unmet, or_false] using regular

theorem Regular.step (regular : Regular met s) (move : Move) (callFree : move.IsCallFree) :
    Regular (fun v t e => met v t e ∨ s.Meets move v t e) (s.step move) := by
  cases move with
  | thread name thread m => exact regular.thread name thread m callFree
  | call name => exact (regular.call name).of_unmet fun _ _ _ => id
  | run => exact regular.advance.of_unmet fun _ _ _ => id
  | tellStop name => exact (regular.tellStop name).of_unmet fun _ _ _ => id
  | answer answer => exact (regular.answer answer).of_unmet fun _ _ _ => id
  | expire =>
    refine Regular.of_unmet ?_ fun _ _ _ => id
    simp only [Scenario.step]
    split
    next stage =>
      refine regular.restage _ ⟨SortedMap.keys_nodup _, fun v => .inl ∘ mem_names_of_contains⟩
        fun v n present holds => ?_
      rw [stage] at holds
      rw [Stage.part, if_pos (mem_names_of_present present)]
      exact ⟨holds.1, fun inTime => by cases inTime⟩
    next => exact regular
  | deliver index =>
    have delivered : Regular met (s.step (.deliver index)) :=
      ⟨regular.lived.deliver index, regular.orderly, regular.nodes⟩
    exact delivered.of_unmet fun _ _ _ => id
  | lose index =>
    have lost : Regular met (s.step (.lose index)) :=
      ⟨regular.lived.lose index, regular.orderly, regular.nodes⟩
    exact lost.of_unmet fun _ _ _ => id

theorem met_cons (s : Scenario) (move : Move) (moves : List Move) (v : NodeName) (t : ThreadId)
    (e : EngineError) :
    s.Met (move :: moves) v t e ↔ s.Meets move v t e ∨ (s.step move).Met moves v t e := by
  constructor
  · rintro ⟨before, move', after, split, meets⟩
    cases before with
    | nil =>
      cases split
      exact .inl meets
    | cons first before =>
      cases split
      exact .inr ⟨before, move', after, rfl, meets⟩
  · rintro (meets | ⟨before, move', after, rfl, meets⟩)
    · exact ⟨[], move, moves, rfl, meets⟩
    · exact ⟨move :: before, move', after, rfl, meets⟩

theorem Regular.run (regular : Regular met s) (moves : List Move)
    (callFree : ∀ move ∈ moves, move.IsCallFree) :
    Regular (fun v t e => met v t e ∨ s.Met moves v t e) (moves.foldl Scenario.step s) := by
  induction moves generalizing s met with
  | nil => simpa [Met] using regular
  | cons move moves ih =>
    have next := ih (regular.step move (callFree move List.mem_cons_self))
      fun move' member => callFree move' (List.mem_cons_of_mem move member)
    rw [List.foldl_cons]
    simpa only [met_cons, or_assoc] using next

theorem regular_new {f : Fleet} (lived : f.Lived)
    (free : f.EachNode fun _ n => n.call = none) (termination : Termination) :
    Regular (fun _ _ _ => False) (new f termination) where
  lived := lived
  orderly := SortedMap.keys_nodup _
  nodes v n present := by
    have listed : v ∈ f.graph.nodes.keys := mem_names_of_present present
    refine ⟨lived.numbered v n present, ?_⟩
    rw [new, Stage.part, if_pos listed]
    exact free v n present

theorem termination_step (s : Scenario) (move : Move) :
    (s.step move).termination = s.termination := by
  cases move with
  | run =>
    simp only [step, advance]
    split
    case h_3 =>
      split
      · rfl
      · split <;> rfl
    all_goals first | rfl | split <;> rfl
  | tellStop name =>
    simp only [step, tellStop]
    split
    case h_3 => rfl
    all_goals split <;> rfl
  | answer _ | expire =>
    simp only [step]
    split <;> rfl
  | _ => rfl

theorem termination_run (s : Scenario) (moves : List Move) :
    (moves.foldl step s).termination = s.termination := by
  induction moves generalizing s with
  | nil => rfl
  | cons move moves ih => rw [List.foldl_cons, ih, termination_step]

/-! ### The outcome -/

/-- What is so when a run has returned. `met` are the errors that were met in its moves. -/
structure Concluded (met : NodeName → ThreadId → EngineError → Prop) (termination : Termination)
    (outcome : Outcome) (g : Graph) : Prop where
  rests : ∀ v n, g.nodes.get? v = some n →
    n.isExecuting = false ∧ (∀ t, n.isLive t = false) ∧
      (n.control.state = .stopped ∨ n.control.state = .failed)
  failed : outcome.failed.map Prod.fst =
    g.nodes.keys.filter fun v => (g.nodes.get? v).any fun n => n.control.state == .failed
  /-- The error that is listed is the one that was met by the latest thread of the node. -/
  error_iff : ∀ v e, (v, e) ∈ outcome.failed ↔
    ∃ n, g.nodes.get? v = some n ∧ met v (n.spawned - 1) e
  completed : ∀ minimum, termination = .completed minimum → outcome.timedOut = false →
    ∀ v n, g.nodes.get? v = some n → v ∉ outcome.failed.map Prod.fst →
      minimum ≤ n.completedCycles

theorem mem_failedNodes (g : Graph) (v : NodeName) (e : EngineError) :
    (v, e) ∈ failedNodes g ↔ ∃ n, g.nodes.get? v = some n ∧ n.lastError = some e := by
  simp only [failedNodes, List.mem_filterMap, Option.map_eq_some_iff]
  constructor
  · rintro ⟨⟨v', n⟩, listed, e', error, same⟩
    cases same
    exact ⟨n, (SortedMap.get?_eq_some_iff _ _ _).2 listed, error⟩
  · rintro ⟨n, present, error⟩
    exact ⟨(v, n), (SortedMap.get?_eq_some_iff _ _ _).1 present, e, error, rfl⟩

/-- The nodes that have failed, if these are the ones that keep an error. -/
theorem failedNodes_names (g : Graph)
    (failed_iff : ∀ v n, g.nodes.get? v = some n →
      (n.control.state = .failed ↔ n.lastError.isSome = true)) :
    (failedNodes g).map Prod.fst =
      g.nodes.keys.filter fun v => (g.nodes.get? v).any fun n => n.control.state == .failed := by
  have each (entries : List (NodeName × Node)) (listed : ∀ e ∈ entries, e ∈ g.nodes.entries) :
      (entries.filterMap fun e => e.2.lastError.map fun error => (e.1, error)).map Prod.fst =
        (entries.map Prod.fst).filter fun v =>
          (g.nodes.get? v).any fun n => n.control.state == .failed := by
    induction entries with
    | nil => rfl
    | cons entry rest ih =>
      obtain ⟨v, n⟩ := entry
      have tail := ih fun e member => listed e (List.mem_cons_of_mem _ member)
      have present : g.nodes.get? v = some n :=
        (SortedMap.get?_eq_some_iff _ _ _).2 (listed (v, n) List.mem_cons_self)
      have failed_iff := failed_iff v n present
      cases kept : n.lastError with
      | none =>
        have sound : n.control.state ≠ .failed := by simpa [kept] using failed_iff
        simpa [kept, present, sound] using tail
      | some error =>
        have failed : n.control.state = .failed := by simpa [kept] using failed_iff
        simpa [kept, present, failed] using tail
  exact each g.nodes.entries fun _ => id

/-- However the nodes of a fleet have come to be as they are: if no hook and no engine starts or
stops its node during the run, and whatever fails and however the steps of threads, calls, run and
network are interleaved, a run that returns an outcome has concluded. -/
theorem concluded_of_run (f : Fleet) (lived : f.Lived) (free : f.EachNode fun _ n => n.call = none)
    (termination : Termination) (moves : List Move) (callFree : ∀ move ∈ moves, move.IsCallFree)
    (outcome : Outcome)
    (returned : (moves.foldl step (new f termination)).result? = some (.ok outcome)) :
    Concluded ((new f termination).Met moves) termination outcome
      (moves.foldl step (new f termination)).graph := by
  have regular := (regular_new lived free termination).run moves callFree
  have asked := termination_run (new f termination) moves
  have ended := stage_of_result _ _ returned
  generalize moves.foldl step (new f termination) = s at regular asked ended ⊢
  simp only [false_or] at regular
  have orderly := regular.orderly
  rw [ended, Stage.Orderly] at orderly
  -- every stop has returned, so that no thread is left that could change anything
  have done (v : NodeName) (n : Node) (present : s.graph.nodes.get? v = some n) :
      n.Rests ((new f termination).Met moves v) ∧
        (outcome.timedOut = false → ∀ minimum, termination = .completed minimum →
          n.Done minimum) := by
    obtain ⟨_, sane⟩ := regular.lived.sound v n present
    obtain ⟨_, holds⟩ := regular.nodes v n present
    rw [ended, asked] at holds
    exact ⟨holds.2.1.rests holds.1 sane, holds.2.2⟩
  have names := failedNodes_names s.graph fun v n present => (done v n present).1.failed_iff
  rw [← orderly] at names
  constructor
  case rests =>
    intro v n present
    have rests := (done v n present).1
    exact ⟨by simp [Node.isExecuting, rests.stopped], rests.dead, rests.settled⟩
  case failed => exact names
  case error_iff =>
    intro v e
    rw [orderly, mem_failedNodes]
    exact exists_congr fun n => and_congr_right fun present =>
      (done v n present).1.lastError_iff e
  case completed =>
    intro minimum asks inTime v n present unlisted
    refine ((done v n present).2 inTime minimum asks).resolve_left fun failed => unlisted ?_
    rw [names, List.mem_filter]
    exact ⟨mem_names_of_present present, by simp [present, failed]⟩

/-- After a run that has returned an outcome, another one may follow. -/
theorem lived_of_run (f : Fleet) (lived : f.Lived) (free : f.EachNode fun _ n => n.call = none)
    (termination : Termination) (moves : List Move) (callFree : ∀ move ∈ moves, move.IsCallFree)
    (outcome : Outcome)
    (returned : (moves.foldl step (new f termination)).result? = some (.ok outcome)) :
    (moves.foldl step (new f termination)).fleet.Lived ∧
      (moves.foldl step (new f termination)).fleet.EachNode fun _ n => n.call = none := by
  have regular := (regular_new lived free termination).run moves callFree
  refine ⟨regular.lived, fun v n present => ?_⟩
  obtain ⟨_, holds⟩ := regular.nodes v n present
  rw [stage_of_result _ _ returned] at holds
  exact holds.1

/-- Both nodes are started again and complete a cycle. A hook of the one crashes while the node is
being stopped. -/
def tornHook : List Move :=
  let a : Move := .thread "a" 1 ⟨0, []⟩
  let b (acts : List Act) : Move := .thread "b" 1 ⟨0, acts⟩
  [.run, .call "a", .run, .run, .call "b", .run, .run] ++ List.replicate 9 a ++
    List.replicate 10 (b []) ++ List.replicate 5 .run ++
    [.tellStop "b", .call "b", .call "b", b [.crash (some "torn")], b [], b [], .call "b", .call "b",
      .tellStop "a", .call "a", .call "a", a, a, .call "a", .call "a", .run]

/-- Two nodes run twice. In the first run the engine of the one fails, in the second run a hook of
the other one crashes, and the error of the first run is gone. -/
theorem concluded_of_second_run :
    let first := Session.wornEngine.foldl step (new (Fleet.ofGraph Fleet.pair) (.completed 1))
    let second := tornHook.foldl step (new first.fleet (.completed 1))
    first.result? = some (.ok ⟨false, [("a", .failed "a" "worn")]⟩) ∧
      second.result? = some (.ok ⟨false, [("b", .crashed "b" "torn")]⟩) ∧
      (new first.fleet (.completed 1)).Met tornHook "b" 1 (.crashed "b" "torn") ∧
      ∃ n, second.graph.nodes.get? "a" = some n ∧ n.control.state = .stopped ∧
        1 ≤ n.completedCycles := by
  intro first second
  have fresh : (Fleet.ofGraph Fleet.pair).Lived :=
    .new _ (Graph.assembled_ofText ..).unused fun _ => rfl
  have free : (Fleet.ofGraph Fleet.pair).EachNode fun _ n => n.call = none := by
    intro v n present
    obtain ⟨vertex, resources, window, rfl, _⟩ := (Graph.assembled_ofText ..).unused v n present
    rfl
  have returned : first.result? = some (.ok ⟨false, [("a", .failed "a" "worn")]⟩) := by
    decide +kernel
  have returned' : second.result? = some (.ok ⟨false, [("b", .crashed "b" "torn")]⟩) := by
    decide +kernel
  obtain ⟨lived, free⟩ := lived_of_run _ fresh free _ Session.wornEngine
    (by decide +kernel) _ returned
  have concluded := concluded_of_run _ lived free _ tornHook (by decide +kernel) _
    returned'
  have here : second.graph.nodes.contains "a" = true := by decide +kernel
  have last : (second.graph.nodes.get? "b").all (fun n => n.spawned = 2) = true := by
    decide +kernel
  obtain ⟨n, present⟩ := (SortedMap.contains_iff _ _).1 here
  obtain ⟨n', present', met⟩ := (concluded.error_iff "b" (.crashed "b" "torn")).1 (by simp)
  refine ⟨returned, returned', ?_, n, present, ?_, ?_⟩
  · rw [present', Option.all_some, decide_eq_true_eq] at last
    rwa [last] at met
  · refine (concluded.rests "a" n present).2.2.resolve_right fun failed => ?_
    have listed : "a" ∈ second.graph.nodes.keys.filter fun v =>
        (second.graph.nodes.get? v).any fun n => n.control.state == .failed :=
      List.mem_filter.2 ⟨mem_names_of_present present, by simp [present, failed]⟩
    rw [← concluded.failed] at listed
    simp at listed
  · exact concluded.completed 1 rfl rfl "a" n present (by simp)

end Scenario

end RegionNet
