import RegionNet.Graph.RegionViews
import RegionNet.Proofs.Aggregation.Splits
import RegionNet.Proofs.Fleet
import RegionNet.Proofs.Node.Sharing
import RegionNet.Proofs.Node.Underway
import RegionNet.Proofs.Topology.Description
import RegionNet.Scenario.Play

/-!
# Whatever the schedule of a run is

A run without errors, hooks and moves of nodes ends with the same summaries in every schedule of its
threads, its calls and its network. When it ends by the number of cycles, every node has completed
as many as were asked for. A node that completed two has a report, and a report says what every
other report of that node says, its time aside. After one cycle a report may be missing: the stop
can come between the count and the report.
-/

namespace RegionNet

/-- Nothing but the program itself acts in the move. -/
def Move.IsQuiet : Move → Prop
  | .thread _ _ moment => moment.acts = []
  | _ => True

/-- How far a node is in a stage of a run that asks for a number of cycles. -/
def Stage.Role (minimum : Nat) : Stage → NodeName → Node → Prop
  | .start _ rest, v, n => (v ∈ rest → n.Idle) ∧ (v ∉ rest → n.Active)
  | .starting _ name rest, v, n =>
    (v = name → n.Launching) ∧ (v ≠ name → v ∈ rest → n.Idle) ∧ (v ≠ name → v ∉ rest → n.Active)
  | .undo .., _, _ => True
  | .check rest, v, n => n.Active ∧ (v ∉ rest → minimum ≤ n.completedCycles)
  | .count name rest, v, n => n.Active ∧ (v ≠ name → v ∉ rest → minimum ≤ n.completedCycles)
  | .pause, _, n => n.Active
  | .stop timedOut _ _, _, n => n.Underway ∧ (timedOut = false → minimum ≤ n.completedCycles)
  | .ended (.ok outcome), _, n =>
    n.Underway ∧ (outcome.timedOut = false → minimum ≤ n.completedCycles)
  | .ended (.error _), _, _ => True

/-- No node is started twice. -/
def Stage.StartsOnce : Stage → Prop
  | .start _ rest => rest.Nodup
  | .starting _ name rest => (name :: rest).Nodup
  | _ => True

namespace Stage

variable {minimum : Nat} {stage : Stage} {v : NodeName} {n₀ n : Node}

theorem role_threadStep (undisturbed : Node.Undisturbed n₀ n) (now : Timestamp)
    (thread : ThreadId) (fabric : Fabric) (role : stage.Role minimum v n) :
    stage.Role minimum v (n.threadStep ⟨now, []⟩ thread fabric).1 := by
  have counts := n.completedCycles_le_threadStep fabric ⟨now, []⟩ thread
  cases stage with
  | start started rest =>
    exact ⟨fun later => (role.1 later).threadStep _ thread fabric,
      fun done => (role.2 done).threadStep undisturbed now thread fabric⟩
  | starting started name rest =>
    exact ⟨fun here => (role.1 here).threadStep undisturbed now thread fabric,
      fun other later => (role.2.1 other later).threadStep _ thread fabric,
      fun other done => (role.2.2 other done).threadStep undisturbed now thread fabric⟩
  | undo => trivial
  | check rest =>
    exact ⟨role.1.threadStep undisturbed now thread fabric,
      fun done => Nat.le_trans (role.2 done) counts⟩
  | count name rest =>
    exact ⟨role.1.threadStep undisturbed now thread fabric,
      fun other done => Nat.le_trans (role.2 other done) counts⟩
  | pause => exact Node.Active.threadStep role undisturbed now thread fabric
  | stop =>
    exact ⟨role.1.threadStep undisturbed now thread fabric,
      fun inTime => Nat.le_trans (role.2 inTime) counts⟩
  | ended result =>
    cases result with
    | error => trivial
    | ok =>
      exact ⟨role.1.threadStep undisturbed now thread fabric,
        fun inTime => Nat.le_trans (role.2 inTime) counts⟩

theorem role_callStep (fabric : Fabric) (role : stage.Role minimum v n) :
    stage.Role minimum v (n.callStep fabric).1 := by
  have free (none : n.call = none) (P : Node → Prop) (holds : P n) : P (n.callStep fabric).1 := by
    rwa [Node.callStep_of_free n fabric none]
  cases stage with
  | start started rest =>
    exact ⟨fun later => free (role.1 later).call _ (role.1 later),
      fun done => free (role.2 done).free _ (role.2 done)⟩
  | starting started name rest =>
    exact ⟨fun here => (role.1 here).callStep fabric,
      fun other later => free (role.2.1 other later).call _ (role.2.1 other later),
      fun other done => free (role.2.2 other done).free _ (role.2.2 other done)⟩
  | undo => trivial
  | check rest => exact free role.1.free (Role minimum (.check rest) v) role
  | count name rest => exact free role.1.free (Role minimum (.count name rest) v) role
  | pause => exact free (Node.Active.free role) _ role
  | stop =>
    exact ⟨role.1.callStep fabric, by rw [Node.completedCycles_callStep]; exact role.2⟩
  | ended result =>
    cases result with
    | error => trivial
    | ok => exact ⟨role.1.callStep fabric, by rw [Node.completedCycles_callStep]; exact role.2⟩

end Stage

namespace Scenario

/-- A run that asks for a number of cycles, over the nodes of a graph as they were at its start. -/
structure Undisturbed (g₀ : Graph) (minimum : Nat) (s : Scenario) : Prop where
  termination : s.termination = .completed minimum
  once : s.stage.StartsOnce
  clients : s.graph.clients = g₀.clients
  names : ∀ v, s.graph.nodes.contains v = g₀.nodes.contains v
  nodes : ∀ v n, s.graph.nodes.get? v = some n → ∃ n₀, g₀.nodes.get? v = some n₀ ∧
    Node.Undisturbed n₀ n ∧ s.stage.Role minimum v n

variable {g₀ : Graph} {minimum : Nat} {s : Scenario}

theorem mem_names_of_present {v : NodeName} {n : Node} (present : s.graph.nodes.get? v = some n) :
    v ∈ s.names :=
  List.mem_map.2 ⟨(v, n), (SortedMap.get?_eq_some_iff _ _ _).1 present, rfl⟩

theorem Undisturbed.restage (undisturbed : s.Undisturbed g₀ minimum) (stage : Stage)
    (once : stage.StartsOnce)
    (roles : ∀ v n, s.graph.nodes.get? v = some n → s.stage.Role minimum v n →
      stage.Role minimum v n) :
    Undisturbed g₀ minimum { s with stage := stage } where
  termination := undisturbed.termination
  once := once
  clients := undisturbed.clients
  names := undisturbed.names
  nodes v n present := by
    obtain ⟨n₀, present₀, same, role⟩ := undisturbed.nodes v n present
    exact ⟨n₀, present₀, same, roles v n present role⟩

/-- A step at one node, which may take the run to another stage. -/
theorem Undisturbed.act (undisturbed : s.Undisturbed g₀ minimum) (name : NodeName)
    (act : Node → Fabric → Node × Fabric) (stage : Stage) (once : stage.StartsOnce)
    (here : ∀ n₀ n, Node.Undisturbed n₀ n → s.stage.Role minimum name n →
      Node.Undisturbed n₀ (act n s.fleet.fabric).1 ∧
        stage.Role minimum name (act n s.fleet.fabric).1)
    (others : ∀ v n, v ≠ name → s.stage.Role minimum v n → stage.Role minimum v n) :
    Undisturbed g₀ minimum { s.withNode name act with stage := stage } where
  termination := undisturbed.termination
  once := once
  clients := (Fleet.clients_withNode s.fleet name act).trans undisturbed.clients
  names v := (Fleet.contains_withNode s.fleet name v act).trans (undisturbed.names v)
  nodes v n present := by
    have found : (s.fleet.withNode name act).graph.nodes.get? v = some n := present
    rw [Fleet.nodes_withNode] at found
    split at found
    next same =>
      obtain ⟨n₁, present₁, rfl⟩ := Option.map_eq_some_iff.1 found
      obtain ⟨n₀, present₀, same₀, role⟩ := undisturbed.nodes v n₁ present₁
      subst same
      exact ⟨n₀, present₀, here n₀ n₁ same₀ role⟩
    next other =>
      obtain ⟨n₀, present₀, same₀, role⟩ := undisturbed.nodes v n found
      exact ⟨n₀, present₀, same₀, others v n other role⟩

/-! What the run itself does next, while it asks for a number of cycles. -/

theorem advance_checked (stage : s.stage = .check [])
    (asked : s.termination = .completed minimum) :
    s.advance = { s with stage := .stop false s.names [] } := by
  simp [advance, stage, asked]

theorem advance_check {name : NodeName} {rest : List NodeName}
    (stage : s.stage = .check (name :: rest)) (asked : s.termination = .completed minimum) :
    s.advance =
      { s with stage := if s.isExecuting name then .count name rest else .check rest } := by
  simp [advance, stage, asked]

theorem advance_count {name : NodeName} {rest : List NodeName}
    (stage : s.stage = .count name rest) (asked : s.termination = .completed minimum) :
    s.advance =
      { s with stage := if minimum ≤ s.completedCycles name then .check rest else .pause } := by
  simp [advance, stage, asked]

theorem Undisturbed.advance_start (undisturbed : s.Undisturbed g₀ minimum)
    {started rest : List NodeName} (stage : s.stage = .start started rest) :
    Undisturbed g₀ minimum s.advance := by
  have once := undisturbed.once
  rw [stage] at once
  cases rest with
  | nil =>
    simp only [Scenario.advance, stage]
    refine undisturbed.restage _ trivial fun v n present role => ?_
    rw [stage] at role
    exact ⟨role.2 (by simp), fun missing => absurd (mem_names_of_present present) missing⟩
  | cons name rest =>
    simp only [Scenario.advance, stage]
    refine undisturbed.act name _ _ once ?_ ?_
    · intro n₀ n same role
      rw [stage] at role
      exact ⟨same.beginStart, fun _ => (role.1 (by simp)).beginStart,
        fun other => absurd rfl other, fun other => absurd rfl other⟩
    · intro v n other role
      rw [stage] at role
      exact ⟨fun here => absurd here other, fun _ later => role.1 (by simp [later]),
        fun _ done => role.2 (by simp [other, done])⟩

theorem Undisturbed.advance_starting (undisturbed : s.Undisturbed g₀ minimum)
    {started rest : List NodeName} {name : NodeName}
    (stage : s.stage = .starting started name rest) : Undisturbed g₀ minimum s.advance := by
  have once := undisturbed.once
  rw [stage] at once
  obtain ⟨new, once⟩ := List.nodup_cons.1 once
  -- the others keep their part, and the started node is one of those that are active
  have roles (v : NodeName) (n : Node) (active : v = name → n.Active)
      (role : Stage.Role minimum (.starting started name rest) v n) :
      (v ∈ rest → n.Idle) ∧ (v ∉ rest → n.Active) := by
    by_cases here : v = name
    · exact ⟨fun later => absurd (here ▸ later) new, fun _ => active here⟩
    · exact ⟨role.2.1 here, role.2.2 here⟩
  cases present : s.graph.nodes.get? name with
  | none =>
    simp only [Scenario.advance, stage, present]
    refine undisturbed.restage _ once fun v n found role => ?_
    rw [stage] at role
    refine roles v n (fun here => ?_) role
    rw [here, present] at found
    cases found
  | some n =>
    cases call : n.call with
    | some c =>
      simp only [Scenario.advance, stage, present, call]
      exact undisturbed
    | none =>
      cases result : n.startResult with
      | error e =>
        simp only [Scenario.advance, stage, present, call, result]
        exact undisturbed.restage _ trivial fun _ _ _ _ => trivial
      | ok done =>
        simp only [Scenario.advance, stage, present, call, result]
        refine undisturbed.restage _ once fun v n' found role => ?_
        rw [stage] at role
        refine roles v n' (fun here => ?_) role
        rw [here, present] at found
        cases found
        cases role.1 here with
        | waiting launching => rw [call] at launching; cases launching
        | ended _ active => exact active result

theorem Undisturbed.advance_check (undisturbed : s.Undisturbed g₀ minimum)
    {rest : List NodeName} (stage : s.stage = .check rest) :
    Undisturbed g₀ minimum s.advance := by
  cases rest with
  | nil =>
    rw [advance_checked stage undisturbed.termination]
    refine undisturbed.restage _ trivial fun v n _ role => ?_
    rw [stage] at role
    exact ⟨role.1.toUnderway, fun _ => role.2 (by simp)⟩
  | cons name rest =>
    rw [Scenario.advance_check stage undisturbed.termination]
    refine undisturbed.restage _ (by split <;> trivial) fun v n present role => ?_
    rw [stage] at role
    split
    next => exact ⟨role.1, fun other done => role.2 (by simp [other, done])⟩
    next resting =>
      -- every node that is not told to stop executes
      refine ⟨role.1, fun done => role.2 ?_⟩
      rintro listed
      rcases List.mem_cons.1 listed with rfl | listed
      · simp [isExecuting, present, role.1.isExecuting] at resting
      · exact done listed

theorem Undisturbed.advance_count (undisturbed : s.Undisturbed g₀ minimum) {name : NodeName}
    {rest : List NodeName} (stage : s.stage = .count name rest) :
    Undisturbed g₀ minimum s.advance := by
  rw [Scenario.advance_count stage undisturbed.termination]
  refine undisturbed.restage _ (by split <;> trivial) fun v n present role => ?_
  rw [stage] at role
  split
  next enough =>
    refine ⟨role.1, fun done => ?_⟩
    by_cases here : v = name
    · subst here
      simpa [completedCycles, present] using enough
    · exact role.2 here done
  next => exact role.1

theorem Undisturbed.advance (undisturbed : s.Undisturbed g₀ minimum) :
    Undisturbed g₀ minimum s.advance := by
  cases stage : s.stage with
  | start started rest => exact undisturbed.advance_start stage
  | starting started name rest => exact undisturbed.advance_starting stage
  | undo e pending told =>
    cases pending with
    | nil =>
      simp only [Scenario.advance, stage]
      split
      · exact undisturbed.restage _ trivial fun _ _ _ _ => trivial
      · exact undisturbed
    | cons name rest =>
      simp only [Scenario.advance, stage]
      exact undisturbed
  | check rest => exact undisturbed.advance_check stage
  | count name rest => exact undisturbed.advance_count stage
  | pause =>
    simp only [Scenario.advance, stage]
    refine undisturbed.restage _ trivial fun v n present role => ?_
    rw [stage] at role
    exact ⟨role, fun missing => absurd (mem_names_of_present present) missing⟩
  | stop timedOut pending told =>
    cases pending with
    | nil =>
      simp only [Scenario.advance, stage]
      split
      · refine undisturbed.restage _ trivial fun v n _ role => ?_
        rw [stage] at role
        exact role
      · exact undisturbed
    | cons name rest =>
      simp only [Scenario.advance, stage]
      exact undisturbed
  | ended result =>
    simp only [Scenario.advance, stage]
    exact undisturbed

theorem Undisturbed.tellStop (undisturbed : s.Undisturbed g₀ minimum) (name : NodeName) :
    Undisturbed g₀ minimum (s.tellStop name) := by
  cases stage : s.stage with
  | undo e pending told =>
    simp only [Scenario.tellStop, stage]
    split
    · exact undisturbed.act name _ _ trivial (fun _ _ same _ => ⟨same.beginStop, trivial⟩)
        fun _ _ _ _ => trivial
    · exact undisturbed
  | stop timedOut pending told =>
    simp only [Scenario.tellStop, stage]
    split
    · refine undisturbed.act name _ _ trivial (fun n₀ n same role => ?_) fun v n _ role => ?_
      · rw [stage] at role
        refine ⟨same.beginStop, role.1.beginStop, ?_⟩
        rw [Node.completedCycles_beginStop]
        exact role.2
      · rw [stage] at role
        exact role
    · exact undisturbed
  | _ =>
    simp only [Scenario.tellStop, stage]
    exact undisturbed

theorem Undisturbed.step (undisturbed : s.Undisturbed g₀ minimum) (move : Move)
    (quiet : move.IsQuiet) : Undisturbed g₀ minimum (s.step move) := by
  cases move with
  | thread name thread moment =>
    obtain ⟨now, acts⟩ := moment
    obtain rfl : acts = [] := quiet
    exact undisturbed.act name _ s.stage undisturbed.once
      (fun n₀ n same role => ⟨same.threadStep now thread _,
        Stage.role_threadStep same now thread _ role⟩) fun _ _ _ role => role
  | call name =>
    exact undisturbed.act name _ s.stage undisturbed.once
      (fun n₀ n same role => ⟨same.callStep _, Stage.role_callStep _ role⟩) fun _ _ _ role => role
  | run => exact undisturbed.advance
  | tellStop name => exact undisturbed.tellStop name
  | answer met =>
    -- the run asks for a number of cycles, so nothing else is asked
    simp only [Scenario.step, undisturbed.termination]
    exact undisturbed
  | expire =>
    cases stage : s.stage with
    | pause =>
      simp only [Scenario.step, stage]
      refine undisturbed.restage _ trivial fun v n _ role => ?_
      rw [stage] at role
      exact ⟨Node.Active.toUnderway role, fun late => by cases late⟩
    | _ =>
      simp only [Scenario.step, stage]
      exact undisturbed
  | deliver index =>
    exact ⟨undisturbed.termination, undisturbed.once, undisturbed.clients, undisturbed.names,
      undisturbed.nodes⟩
  | lose index =>
    exact ⟨undisturbed.termination, undisturbed.once, undisturbed.clients, undisturbed.names,
      undisturbed.nodes⟩

theorem Undisturbed.run (undisturbed : s.Undisturbed g₀ minimum) (moves : List Move)
    (quiet : ∀ move ∈ moves, move.IsQuiet) :
    Undisturbed g₀ minimum (moves.foldl Scenario.step s) := by
  induction moves generalizing s with
  | nil => exact undisturbed
  | cons move rest ih =>
    exact ih (undisturbed.step move (quiet move List.mem_cons_self))
      fun move' member => quiet move' (List.mem_cons_of_mem _ member)

theorem undisturbed_new (window : EstimationWindow) (t : Topology) (minimum : Nat) :
    Undisturbed (Graph.ofTopology window t) minimum
      (new (Fleet.ofGraph (Graph.ofTopology window t)) (.completed minimum)) where
  termination := rfl
  once := SortedMap.keys_nodup _
  clients := rfl
  names _ := rfl
  nodes v n present := by
    obtain ⟨m, _, rfl⟩ := Graph.nodeOf_of_present v n present
    have listed : v ∈ (Graph.ofTopology window t).nodes.keys :=
      List.mem_map.2 ⟨(v, _), (SortedMap.get?_eq_some_iff _ _ _).1 present, rfl⟩
    refine ⟨_, present, ?_, fun _ => ?_, fun missing => absurd listed missing⟩
    · constructor <;> simp [Graph.nodeOf, Node.new]
    · constructor <;> simp [Graph.nodeOf, Node.new]

/-! ### The end of a run -/

theorem Undisturbed.missing (undisturbed : s.Undisturbed g₀ minimum) (v : NodeName)
    (missing : s.graph.nodes.get? v = none) : g₀.nodes.get? v = none := by
  have same := undisturbed.names v
  simpa [SortedMap.contains, missing] using same.symm

theorem Undisturbed.regionLookup_eq (undisturbed : s.Undisturbed g₀ minimum) :
    s.graph.regionLookup = g₀.regionLookup := by
  have vertices (v : NodeName) : s.graph.vertex? v = g₀.vertex? v := by
    rw [Graph.vertex?, Graph.vertex?, undisturbed.clients]
    congr 1
    cases present : s.graph.nodes.get? v with
    | some n =>
      obtain ⟨n₀, present₀, same, _⟩ := undisturbed.nodes v n present
      simp [present₀, same.vertex]
    | none =>
      rw [undisturbed.missing v present]
  funext v
  rw [Graph.regionLookup, Graph.regionLookup, Graph.region?, Graph.region?, vertices]

theorem Undisturbed.node (undisturbed : s.Undisturbed g₀ minimum) (n : Node)
    (listed : n ∈ s.graph.nodes.values) :
    ∃ v n₀, g₀.nodes.get? v = some n₀ ∧ Node.Undisturbed n₀ n ∧ s.stage.Role minimum v n := by
  obtain ⟨v, present⟩ := (SortedMap.mem_values_iff _ _).1 listed
  obtain ⟨n₀, present₀, same, role⟩ := undisturbed.nodes v n present
  exact ⟨v, n₀, present₀, same, role⟩

/-- The reports that a graph keeps are, their times aside, current reports of the nodes that keep
one. -/
theorem Undisturbed.latestReports_untimed (undisturbed : s.Undisturbed g₀ minimum)
    (window : EstimationWindow) (timed : ∀ v n₀, g₀.nodes.get? v = some n₀ → n₀.window = window)
    (times : NodeName → Timestamp) :
    (s.graph.latestReports window).map Report.untimed =
      ((s.graph.nodes.values.filter fun n => n.latestReport.isSome).map fun n =>
        n.report (times n.name) window).map Report.untimed := by
  have kept (n : Node) (listed : n ∈ s.graph.nodes.values) (r : Report Float)
      (latest : n.latestReport = some r) :
      r.window = window ∧ r.untimed = (n.report (times n.name) window).untimed := by
    obtain ⟨v, n₀, present₀, same, _⟩ := undisturbed.node n listed
    have own : n.window = window := same.window.trans (timed v n₀ present₀)
    have equal : r.untimed = (n.report (times n.name) window).untimed := by
      rw [same.cached r latest, ← own, same.report_untimed]
    have windows := congrArg Report.window equal
    simp only [Report.untimed, Node.window_report] at windows
    exact ⟨windows, equal⟩
  have each (nodes : List Node) (listed : ∀ n ∈ nodes, n ∈ s.graph.nodes.values) :
      ((nodes.filterMap Node.latestReport).filter fun r => r.window == window).map
          Report.untimed =
        ((nodes.filter fun n => n.latestReport.isSome).map fun n =>
          n.report (times n.name) window).map Report.untimed := by
    induction nodes with
    | nil => rfl
    | cons n rest ih =>
      have tail := ih fun n' member => listed n' (List.mem_cons_of_mem _ member)
      cases latest : n.latestReport with
      | none => simpa [latest] using tail
      | some r =>
        obtain ⟨windows, equal⟩ := kept n (listed n List.mem_cons_self) r latest
        simpa [latest, windows, equal] using tail
  exact each s.graph.nodes.values fun _ => id

/-- If every node keeps a report, these are, their times aside, the reports that the nodes would
have made before the run. -/
theorem Undisturbed.latestReports_of_all (undisturbed : s.Undisturbed g₀ minimum)
    (window : EstimationWindow) (timed : ∀ v n₀, g₀.nodes.get? v = some n₀ → n₀.window = window)
    (all : ∀ n ∈ s.graph.nodes.values, n.latestReport.isSome = true)
    (times : NodeName → Timestamp) :
    (s.graph.latestReports window).map Report.untimed =
      (g₀.nodes.values.map fun n => n.report (times n.name) window).map Report.untimed := by
  have same : (s.graph.nodes.map fun n => (n.report (times n.name) window).untimed) =
      g₀.nodes.map fun n => (n.report (times n.name) window).untimed := by
    apply SortedMap.ext_get?
    intro v
    rw [SortedMap.get?_map, SortedMap.get?_map]
    cases present : s.graph.nodes.get? v with
    | some n =>
      obtain ⟨n₀, present₀, same, _⟩ := undisturbed.nodes v n present
      simp [present₀, Node.report, Node.name, same.vertex, same.resources]
    | none =>
      rw [undisturbed.missing v present]
  rw [undisturbed.latestReports_untimed window timed times, List.filter_eq_self.2 all]
  simpa [SortedMap.values, SortedMap.map, SortedMap.mapValues, Function.comp_def]
    using congrArg SortedMap.values same

theorem stage_of_result (s : Scenario) (result : Except LifecycleError Outcome)
    (returned : s.result? = some result) : s.stage = .ended result := by
  rw [result?] at returned
  split at returned
  next same =>
    cases returned
    exact same
  next => cases returned

/-- In whatever order threads, calls, the run and the network take their steps: a run that asks for
a number of cycles and ends in time leaves the summaries, their spans aside, of one current report
of every node that keeps one. A node that keeps none has completed one cycle. So if two cycles are
asked for then every node counts, and the summaries are the same in every schedule. With exact
amounts they do not depend on how the reductions are split, and with doubles the same split gives
the same. -/
theorem summaries_independent_of_schedule {α : Type} [AddCommSemigroup α] (value : Float → α)
    (t : Topology) (window : EstimationWindow) (minimum : Nat) (positive : 1 ≤ minimum)
    (moves : List Move) (quiet : ∀ move ∈ moves, move.IsQuiet)
    (failed : List (NodeName × EngineError)) :
    let g := Graph.ofTopology window t
    let s := moves.foldl step (new (Fleet.ofGraph g) (.completed minimum))
    let kept := s.graph.latestReports window
    let current (nodes : List Node) (times : NodeName → Timestamp) :=
      nodes.map fun n => n.report (times n.name) window
    s.result? = some (.ok ⟨false, failed⟩) →
      SummarizedAs g.regionLookup window kept
        ((s.graph.regionSummaries window).map fun done => done.1) ∧
      (∀ times, SummarizedAlike value g.regionLookup window kept
        (current (s.graph.nodes.values.filter fun n => n.latestReport.isSome) times)) ∧
      (∀ n ∈ s.graph.nodes.values, n.latestReport = none → n.completedCycles = 1) ∧
      (2 ≤ minimum → (∀ n ∈ s.graph.nodes.values, n.latestReport.isSome = true) ∧
        ∀ times, SummarizedAlike value g.regionLookup window kept
          (current g.nodes.values times)) := by
  intro g s kept current returned
  have undisturbed : s.Undisturbed g minimum :=
    (undisturbed_new window t minimum).run moves quiet
  have ended := stage_of_result s _ returned
  have timed (v : NodeName) (n₀ : Node) (present : g.nodes.get? v = some n₀) :
      n₀.window = window := by
    rw [Graph.nodes_ofTopology, Option.bind_eq_some_iff] at present
    obtain ⟨m, _, kind⟩ := present
    split at kind
    · cases kind
    · cases kind
      rfl
  have summaries : (s.graph.regionSummaries window).map (fun done => done.1) =
      summarizeRegions g.regionLookup window kept := by
    simp only [kept, Graph.regionSummaries, undisturbed.regionLookup_eq]
    cases summarizeRegions g.regionLookup window (s.graph.latestReports window) <;> rfl
  have missing (n : Node) (listed : n ∈ s.graph.nodes.values) (none : n.latestReport = none) :
      n.completedCycles = 1 ∧ minimum ≤ 1 := by
    obtain ⟨v, n₀, _, _, role⟩ := undisturbed.node n listed
    rw [ended] at role
    have enough := role.2 rfl
    rcases role.1.progress with some | zero | ⟨one, _⟩
    · simp [none] at some
    · omega
    · exact ⟨one, one ▸ enough⟩
  refine ⟨?_, fun times => ?_, fun n listed none => (missing n listed none).1, fun two => ?_⟩
  · rw [summaries]
    exact summarizeRegions_summarizedAs g.regionLookup window kept
  · exact summarizedAlike_of_untimed value g.regionLookup window kept _
      (undisturbed.latestReports_untimed window timed times)
  · have all (n : Node) (listed : n ∈ s.graph.nodes.values) : n.latestReport.isSome = true := by
      cases latest : n.latestReport with
      | some r => rfl
      | none =>
        have := (missing n listed latest).2
        omega
    exact ⟨all, fun times => summarizedAlike_of_untimed value g.regionLookup window kept _
      (undisturbed.latestReports_of_all window timed all times)⟩

/-! ### A run of one node -/

def oneNode : Topology :=
  ⟨some "s", SortedMap.singleton "a" (Member.new "a" (.object [("region", .string "east")])), []⟩

/-- The node is started, its thread takes some steps, the run looks and tells it to stop, and the
thread ends while the run waits for it. -/
def lookAfter (steps : Nat) : List Move :=
  let thread : Move := .thread "a" 0 ⟨0, []⟩
  [.run, .call "a", .run, .run] ++ List.replicate steps thread ++
    [.run, .run, .run, .tellStop "a", .call "a", .call "a", thread, thread, .call "a", .call "a",
      .run]

theorem lookAfter_isQuiet (steps : Nat) : ∀ move ∈ lookAfter steps, move.IsQuiet := by
  intro move listed
  simp only [lookAfter, List.mem_append, List.mem_cons, List.mem_replicate, List.not_mem_nil,
    or_false] at listed
  rcases listed with (early | ⟨_, rfl⟩) | late
  · rcases early with rfl | rfl | rfl | rfl <;> trivial
  · rfl
  · rcases late with rfl | rfl | rfl | rfl | rfl | rfl | rfl | rfl | rfl | rfl | rfl <;> trivial

/-- The run looks when the second cycle is counted and its report is not built yet. The report of
the first cycle is there. Every amount counts as one. -/
theorem summaries_independent_of_schedule_of_one_node :
    let g := Graph.ofTopology .short oneNode
    let s := (lookAfter 18).foldl step (new (Fleet.ofGraph g) (.completed 2))
    s.result? = some (.ok ⟨false, []⟩) ∧
      (∀ n ∈ s.graph.nodes.values, n.latestReport.isSome = true) ∧
      SummarizedAlike (fun _ => (1 : Int)) g.regionLookup .short (s.graph.latestReports .short)
        (g.nodes.values.map fun n => n.report 7 .short) := by
  intro g s
  have returned : s.result? = some (.ok ⟨false, []⟩) := by decide +kernel
  obtain ⟨_, _, _, two⟩ := summaries_independent_of_schedule (fun _ => (1 : Int)) oneNode .short 2
    (by decide) (lookAfter 18) (lookAfter_isQuiet 18) [] returned
  obtain ⟨all, same⟩ := two (by decide)
  exact ⟨returned, all, same fun _ => 7⟩

/-- Three nodes of a region with capacities that are no binary fractions. -/
def threeNodes : Topology :=
  let node (name : NodeName) (capacity : Float) : Member := Member.new name (.object
    [("region", .string "east"), ("resource-report",
      .object [("serverCapacity", .object [("CPU", .ofFloat capacity)])])])
  ⟨some "s", SortedMap.ofList [("a", node "a" 0.1), ("b", node "b" 0.2), ("c", node "c" 0.3)], []⟩

/-- The capacity of a region, if the summaries have it. -/
def capacityOf (region : RegionName) :
    Except MergeError (SortedMap RegionName (Summary Float)) → Option Float
  | .ok summaries => (summaries.get? region).bind fun s => s.serverCapacity.get? .cpu
  | .error _ => none

/-- A run of one node that asks for one cycle, in two schedules. In the first the run looks, and
tells the node to stop, when its first cycle is counted and the report is not built: the node keeps
no report, and its region has no summary, though a current report would give one. In the second the
report is kept by then. And with doubles the current reports of three nodes have two summaries, as
the sum from the left and the one from the right are rounded to different doubles. -/
theorem summaries_of_one_cycle_depend_on_schedule :
    let g := Graph.ofTopology .short oneNode
    let s (steps : Nat) : Scenario :=
      (lookAfter steps).foldl step (new (Fleet.ofGraph g) (.completed 1))
    let regions (steps : Nat) := ((s steps).graph.regionSummaries .short).map fun done =>
      done.1.keys
    let g' := Graph.ofTopology .short threeNodes
    let current := g'.nodes.values.map fun n => n.report 0 .short
    (Topology.read (fun _ => .ok (.object [("region", .string "east")]))
      "set s [new Simulator]\nset a [$s node]" = .ok oneNode ∧
    (∀ steps, ∀ move ∈ lookAfter steps, move.IsQuiet) ∧
    (s 6).result? = some (.ok ⟨false, []⟩) ∧ (s 9).result? = some (.ok ⟨false, []⟩) ∧
    ((s 6).graph.nodes.get? "a").map (fun n => n.latestReport.isSome) = some false ∧
    regions 6 = .ok [] ∧ regions 9 = .ok ["east"] ∧
    ((s 6).graph.currentSummaries 0 .short).map (fun summaries => summaries.keys) =
      .ok ["east"]) ∧
    ∃ one two, SummarizedAs g'.regionLookup .short current one ∧
      SummarizedAs g'.regionLookup .short current two ∧
      capacityOf "east" one = some 0.6000000000000001 ∧ capacityOf "east" two = some 0.6 := by
  intro g s regions g' current
  refine ⟨⟨rfl, lookAfter_isQuiet, by decide +kernel⟩, ?_⟩
  have own : ∀ r ∈ current, g'.regionLookup r.node = some "east" ∧ r.window = .short := by
    decide +kernel
  have inhabited : current ≠ [] := by decide +kernel
  let fromLeft := Reduction.identity.inOrder current
  have left : fromLeft.reports = current := Reduction.reports_inOrder .identity current
  have right := Reduction.reports_fromRight current
  refine ⟨_, _, left ▸ SummarizedAs.of_region fromLeft (left ▸ inhabited) (left ▸ own),
    right ▸ SummarizedAs.of_region (.fromRight current) (right ▸ inhabited) (right ▸ own), ?_, ?_⟩
  · decide +kernel
  · decide +kernel

end Scenario

end RegionNet
