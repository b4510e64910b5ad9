import Mathlib.Logic.Function.Basic
import RegionNet.Proofs.Graph.RegionViews
import RegionNet.Proofs.Network.Lawful
import RegionNet.Proofs.Node.Caching
import RegionNet.Scenario.Play

/-!
# What the nodes know of their regions after any history

One caller runs the fleet, moves nodes and hands out summaries, any number of times and in any
order. What a node knows outlives the calls: it is forgotten when the node is moved, the reports and
services in it are replaced whenever summaries are handed out, and the summary in it only if there
is a new one. So a node keeps a summary for as long as its region has no reports, and the summary is
the one that was handed out if there was none before or the region has one now.
-/

namespace RegionNet

/-! ### What every step of a run keeps -/

/-- Whoever takes the next step at a node, a run does not change this. -/
structure Node.Kept (P : Node → Prop) : Prop where
  threadStep : ∀ (n : Node) (moment : Moment) (thread : ThreadId) (fabric : Fabric),
    P n → P (n.threadStep moment thread fabric).1
  callStep : ∀ (n : Node) (fabric : Fabric), P n → P (n.callStep fabric).1
  beginStart : ∀ n : Node, P n → P n.beginStart
  beginStop : ∀ n : Node, P n → P n.beginStop

namespace Scenario

/-- The run itself touches the fleet only to start a node. -/
theorem fleet_advance (s : Scenario) :
    s.advance.fleet = s.fleet ∨
      ∃ name, s.advance.fleet = s.fleet.withNode name fun n fabric => (n.beginStart, fabric) := by
  cases stage : s.stage with
  | start started rest =>
    cases rest with
    | nil => exact .inl (by simp only [advance, stage])
    | cons name rest => exact .inr ⟨name, by simp only [advance, stage, withNode]⟩
  -- in every other stage it looks at the nodes, and goes on or waits
  | starting started name rest =>
    left
    simp only [advance, stage]
    split
    · rfl
    · split <;> rfl
  | undo e pending told | stop timedOut pending told =>
    left
    cases pending with
    | nil =>
      simp only [advance, stage]
      split <;> rfl
    | cons name rest => simp only [advance, stage]
  | check rest =>
    left
    simp only [advance, stage]
    split <;> rfl
  | count name rest =>
    left
    simp only [advance, stage]
    split <;> rfl
  | pause | ended result => exact .inl (by simp only [advance, stage])

theorem fleet_tellStop (s : Scenario) (name : NodeName) :
    (s.tellStop name).fleet = s.fleet ∨
      (s.tellStop name).fleet = s.fleet.withNode name fun n fabric => (n.beginStop, fabric) := by
  rw [tellStop]
  split
  · split
    · exact .inr rfl
    · exact .inl rfl
  · split
    · exact .inr rfl
    · exact .inl rfl
  · exact .inl rfl

variable {P : NodeName → Node → Prop} {s : Scenario}

theorem eachNode_step (kept : ∀ v, Node.Kept (P v)) (each : s.fleet.EachNode P) (move : Move) :
    (s.step move).fleet.EachNode P := by
  cases move with
  | thread name thread moment =>
    exact each.withNode name _
      (fun n => (kept name).threadStep n moment thread s.fleet.fabric) fun _ _ _ => id
  | call name =>
    exact each.withNode name _ (fun n => (kept name).callStep n s.fleet.fabric) fun _ _ _ => id
  | run =>
    change s.advance.fleet.EachNode P
    rcases s.fleet_advance with same | ⟨name, started⟩
    · rwa [same]
    · rw [started]
      exact each.withNode name _ (fun n => (kept name).beginStart n) fun _ _ _ => id
  | tellStop name =>
    change (s.tellStop name).fleet.EachNode P
    rcases s.fleet_tellStop name with same | told
    · rwa [same]
    · rw [told]
      exact each.withNode name _ (fun n => (kept name).beginStop n) fun _ _ _ => id
  | answer _ | expire =>
    simp only [step]
    split
    · exact each
    · exact each
  | deliver index => exact each
  | lose index => exact each

theorem eachNode_run (kept : ∀ v, Node.Kept (P v)) (each : s.fleet.EachNode P)
    (moves : List Move) : (moves.foldl step s).fleet.EachNode P := by
  induction moves generalizing s with
  | nil => exact each
  | cons move rest ih => exact ih (eachNode_step kept each move)

end Scenario

/-! ### What a node knows -/

/-- The latest summary of a region, in what was handed out from the latest to the earliest. -/
def latestSummary (handed : List (SortedMap RegionName (Summary Float))) (region : RegionName) :
    Option (Summary Float) :=
  handed.findSome? fun summaries => summaries.get? region

theorem latestSummary_cons (summaries : SortedMap RegionName (Summary Float))
    (earlier : List (SortedMap RegionName (Summary Float))) (region : RegionName) :
    latestSummary (summaries :: earlier) region =
      (summaries.get? region).or (latestSummary earlier region) := by
  rw [latestSummary, List.findSome?_cons]
  cases summaries.get? region <;> rfl

/-- A node of this name that was handed these summaries since it was moved. It knows the latest one
of its region, and keeps no reports but its own. -/
structure Node.Informed (v : NodeName) (handed : List (SortedMap RegionName (Summary Float)))
    (n : Node) : Prop where
  name : n.vertex.name = v
  region : n.regionView.region = n.region
  summary : n.regionView.summary = latestSummary handed n.region
  unmoved : ∀ c, n.call = some c → c.isMove = false
  own : EveryReport (fun r => r.node = v) n

namespace Node.Informed

variable {v : NodeName} {handed : List (SortedMap RegionName (Summary Float))} {n n' : Node}

theorem new (vertex : Vertex) (resources : ResourceManager) (window : EstimationWindow) :
    Informed vertex.name [] (Node.new vertex resources window) where
  name := rfl
  region := rfl
  summary := rfl
  unmoved _ calls := by cases calls
  own := EveryReport.new _ vertex resources window

theorem of_same (informed : Informed v handed n) (vertex : n'.vertex = n.vertex)
    (view : n'.regionView = n.regionView) (unmoved : ∀ c, n'.call = some c → c.isMove = false)
    (own : EveryReport (fun r => r.node = v) n') : Informed v handed n' where
  name := by rw [vertex, informed.name]
  region := by rw [view, informed.region, Node.region, Node.region, vertex]
  summary := by rw [view, informed.summary, Node.region, Node.region, vertex]
  unmoved := unmoved
  own := own

theorem threadStep (informed : Informed v handed n) (moment : Moment) (thread : ThreadId)
    (fabric : Fabric) : Informed v handed (n.threadStep moment thread fabric).1 := by
  obtain ⟨vertex, _, _, view, call⟩ := n.threadStep_keeps moment thread fabric
  refine informed.of_same vertex view (by rw [call]; exact informed.unmoved) ?_
  exact informed.own.threadStep n moment thread fabric fun now =>
    (n.node_report now n.window).trans informed.name

/-- A call that is no move changes nothing that a node knows, and gives up reports at most. -/
theorem of_frame (informed : Informed v handed n) (frame : Frame n n')
    (view : n'.regionView = n.regionView) (unmoved : ∀ c, n'.call = some c → c.isMove = false) :
    Informed v handed n' :=
  informed.of_same frame.vertex view unmoved (frame.every informed.own)

theorem callStep (informed : Informed v handed n) (fabric : Fabric) :
    Informed v handed (n.callStep fabric).1 := by
  obtain ⟨view, unmoved⟩ := n.callStep_unmoved fabric informed.unmoved
  exact informed.of_frame (n.callStep_frame fabric) view unmoved

theorem beginStart (informed : Informed v handed n) : Informed v handed n.beginStart := by
  obtain ⟨view, unmoved⟩ := n.beginStart_unmoved
  exact informed.of_frame n.beginStart_frame view unmoved

theorem beginStop (informed : Informed v handed n) : Informed v handed n.beginStop := by
  obtain ⟨view, unmoved⟩ := n.beginStop_unmoved informed.unmoved
  exact informed.of_frame n.beginStop_frame view unmoved

theorem kept (v : NodeName) (handed : List (SortedMap RegionName (Summary Float))) :
    Node.Kept (Informed v handed) where
  threadStep _ moment thread fabric informed := informed.threadStep moment thread fabric
  callStep _ fabric informed := informed.callStep fabric
  beginStart _ informed := informed.beginStart
  beginStop _ informed := informed.beginStop

/-- Whoever is moved knows nothing of the new region. -/
theorem setRegion (informed : Informed v handed n) (region : RegionName) (fabric : Fabric) :
    Informed v [] (n.setRegion region fabric).1 where
  name := informed.name
  region := rfl
  summary := rfl
  unmoved _ calls := by cases calls
  own := ⟨fun _ cached => (by cases cached), informed.own.underway⟩

theorem tell (informed : Informed v handed n) (g : Graph) (window : EstimationWindow)
    (summaries : SortedMap RegionName (Summary Float)) :
    Informed v (summaries :: handed) (g.tell window summaries n) where
  name := informed.name
  region := informed.region
  summary := by
    have same : (g.tell window summaries n).region = n.region := rfl
    rw [same, latestSummary_cons, ← informed.summary]
    rfl
  unmoved := informed.unmoved
  own := ⟨informed.own.cached, informed.own.underway⟩

end Node.Informed

/-! ### Histories -/

/-- A fleet between two calls of its caller. `handed` are the summaries that were handed out since a
node was moved, from the latest to the earliest. -/
structure Session where
  fleet : Fleet
  handed : NodeName → List (SortedMap RegionName (Summary Float))

namespace Session

/-- The caller runs the fleet, moves nodes and hands out summaries, one call after another. -/
inductive Reached (window : EstimationWindow) : Session → Prop
  | new (fleet : Fleet)
      (fresh : fleet.EachNode fun v n =>
        ∃ vertex resources cached, n = Node.new vertex resources cached ∧ vertex.name = v) :
      Reached window ⟨fleet, fun _ => []⟩
  | run {s : Session} (reached : Reached window s) (termination : Termination)
      (moves : List Move) (result : Except LifecycleError Outcome)
      (returned : (moves.foldl Scenario.step (Scenario.new s.fleet termination)).result? =
        some result) :
      Reached window
        ⟨(moves.foldl Scenario.step (Scenario.new s.fleet termination)).fleet, s.handed⟩
  | move {s : Session} (reached : Reached window s) (v : NodeName) (region : RegionName) :
      Reached window ⟨s.fleet.setRegion v region, Function.update s.handed v []⟩
  | summarize {s : Session} (reached : Reached window s)
      (summaries : SortedMap RegionName (Summary Float)) (g : Graph)
      (returned : s.fleet.graph.regionSummaries window = .ok (summaries, g)) :
      Reached window ⟨{ s.fleet with graph := g }, fun v => summaries :: s.handed v⟩

variable {window : EstimationWindow} {s : Session}

theorem Reached.informed (reached : Reached window s) :
    s.fleet.EachNode fun v => Node.Informed v (s.handed v) := by
  induction reached with
  | new fleet fresh =>
    intro v n present
    obtain ⟨vertex, resources, cached, rfl, rfl⟩ := fresh v n present
    exact .new vertex resources cached
  | @run s _ termination moves _ _ informed =>
    exact Scenario.eachNode_run (fun v => Node.Informed.kept v (s.handed v)) informed moves
  | @move s _ v region informed =>
    -- what was handed out counts from here on for the moved node, and is kept for the others
    refine Fleet.EachNode.withNode informed v _ (fun n known => ?_) fun u n other known => ?_
    · simpa using known.setRegion region s.fleet.fabric
    · simpa [other] using known
  | @summarize s _ summaries g returned informed =>
    -- handing out always succeeds, so that this is the graph in which every node was told
    obtain ⟨summaries', returned', _⟩ := s.fleet.graph.regionSummaries_succeeds window
    cases returned'.symm.trans returned
    intro v n present
    rw [Graph.nodes_told] at present
    obtain ⟨n₀, present₀, rfl⟩ := Option.map_eq_some_iff.1 present
    exact (informed v n₀ present₀).tell s.fleet.graph window summaries

/-! ### Right after summaries were handed out -/

end Session

/-- What a node of a region knows right after `summaries` were handed out, where `earlier` are those
that it was handed before and since it was moved. The summary is the one of the region if the region
has one, or had none earlier. -/
structure Graph.Views (g : Graph) (window : EstimationWindow)
    (summaries : SortedMap RegionName (Summary Float))
    (earlier : List (SortedMap RegionName (Summary Float))) (region : RegionName)
    (view : RegionView) : Prop where
  own : view.region = region
  reports : view.reports = g.cachedReports window region
  services : view.services = (g.nodesOf region).map Node.serviceReport
  latest : view.summary = latestSummary (summaries :: earlier) region
  summary : summaries.contains region = true ∨ latestSummary earlier region = none →
    view.summary = summaries.get? region

namespace Session

open Outcome

/-- After any history summaries can be handed out. Nothing else changes than what the nodes know of
their regions, and that is the reports and services of the region as they are. The summary is that
of the region, except that a region which has no cached reports any more leaves the one that was
handed out earlier. -/
theorem views_of_reached (window : EstimationWindow) (s : Session) (reached : Reached window s) :
    let g := s.fleet.graph
    ∃ summaries g', g.regionSummaries window = .ok (summaries, g') ∧
      (∀ region, summaries.contains region = true ↔ g.cachedReports window region ≠ []) ∧
      ∀ v n, g.nodes.get? v = some n →
        ∃ view, g'.nodes.get? v = some { n with regionView := view } ∧
          g.Views window summaries (s.handed v) n.region view := by
  intro g
  have informed := reached.informed
  obtain ⟨summaries, returned, regions⟩ := g.regionSummaries_succeeds window
  have reports := g.reportsOf_eq window fun v n r present cached =>
    (informed v n present).own.cached r cached
  refine ⟨summaries, _, returned, fun region => ?_, fun v n present => ?_⟩
  · rw [regions, reports]
  · have known := (informed v n present).tell g window summaries
    refine ⟨(g.tell window summaries n).regionView, ?_, ?_⟩
    · rw [Graph.nodes_told, present]
      rfl
    · constructor
      case own => exact known.region
      case reports => exact reports n.region
      case services => exact g.servicesOf_eq n.region
      case latest => exact known.summary
      case summary =>
        -- the earlier ones count only where the region has no summary now
        have latest : (g.tell window summaries n).regionView.summary =
            (summaries.get? n.region).or (latestSummary (s.handed v) n.region) :=
          known.summary.trans (latestSummary_cons summaries (s.handed v) n.region)
        rintro (some | none)
        · obtain ⟨summary, found⟩ := (SortedMap.contains_iff _ _).1 some
          rw [latest, found, Option.some_or]
        · rw [latest, none, Option.or_none]

/-! ### A region that loses its reports -/

/-- A topology that was read from a text is where a history may begin. -/
theorem Reached.of_read (source : DocumentSource) (text : String) (t : Topology)
    (read : Topology.read source text = .ok t) (cached : EstimationWindow) :
    Reached window ⟨Fleet.ofGraph (Graph.ofTopology cached t), fun _ => []⟩ := by
  refine .new _ fun v n present => ?_
  have name := (Graph.networked_of_read source text cached t read).name_of_node v n present
  obtain ⟨m, _, rfl⟩ := Graph.nodeOf_of_present v n present
  exact ⟨m.vertex, _, cached, rfl, name⟩

def twoNodes : Topology :=
  ⟨some "s", SortedMap.ofList (["a", "b"].map fun v =>
    (v, Member.new v (.object [("region", .string "east")]))), []⟩

/-- Both nodes are started. The engine of the one fails, the other caches a report. The run sees
that it is done, and both are told to stop. -/
def wornEngine : List Move :=
  let a : Move := .thread "a" 0 ⟨0, [.fail "worn"]⟩
  let b : Move := .thread "b" 0 ⟨0, []⟩
  [.run, .call "a", .run, .run, .call "b", .run, .run] ++ List.replicate 7 a ++
    List.replicate 9 b ++ [.run, .run, .run, .run, .tellStop "a", .tellStop "b"] ++
    List.replicate 4 (.call "a") ++ [.call "b", .call "b", b, b, .call "b", .call "b", .run]

def wornRun : Scenario :=
  wornEngine.foldl Scenario.step
    (Scenario.new (Fleet.ofGraph (Graph.ofTopology .short twoNodes)) (.completed 1))

theorem reached_wornRun : Reached .short ⟨wornRun.fleet, fun _ => []⟩ := by
  have begun : Reached .short ⟨Fleet.ofGraph (Graph.ofTopology .short twoNodes), fun _ => []⟩ :=
    .of_read (fun _ => .ok (.object [("region", .string "east")]))
      "set s [new Simulator]\nset a [$s node]\nset b [$s node]" twoNodes rfl .short
  have returned : wornRun.result? = some (.ok ⟨false, [("a", .failed "a" "worn")]⟩) := by
    decide +kernel
  exact begun.run _ wornEngine _ returned

/-- The node that failed is told the report of the other one, and the summary. -/
theorem views_of_reached_after_failure :
    ∃ summaries g view, wornRun.graph.regionSummaries .short = .ok (summaries, g) ∧
      (g.nodes.get? "a").map Node.regionView = some view ∧
      view.reports.map Report.node = ["b"] ∧
      view.services.map ServiceReport.node = ["a", "b"] ∧
      summaries.contains "east" = true ∧ view.summary = summaries.get? "east" := by
  obtain ⟨summaries, g, returned, regions, views⟩ := views_of_reached .short _ reached_wornRun
  have computed : (wornRun.graph.nodes.get? "a").any (fun n => n.region = "east") = true ∧
      (wornRun.graph.cachedReports .short "east").map Report.node = ["b"] ∧
      ((wornRun.graph.nodesOf "east").map Node.serviceReport).map ServiceReport.node =
        ["a", "b"] := by
    decide +kernel
  obtain ⟨here, reports, services⟩ := computed
  obtain ⟨n, present, region⟩ := (Option.any_eq_true _ _).1 here
  obtain ⟨view, told, known⟩ := views "a" n present
  rw [of_decide_eq_true region] at known
  have listed : summaries.contains "east" = true := (regions "east").2 fun none => by
    change wornRun.graph.cachedReports .short "east" = [] at none
    simp [none] at reports
  refine ⟨summaries, g, view, returned, by simp [told], ?_, ?_, listed, known.summary (.inl listed)⟩
  · rw [known.reports]
    exact reports
  · rw [known.services]
    exact services

/-- When the other node is moved after that, its region loses the only report there was. The reports
that the first node is told are gone, and the summary that it was handed before stays. -/
theorem summary_outlives_reports :
    ∃ s summaries g n, Reached .short s ∧
      s.fleet.graph.regionSummaries .short = .ok (summaries, g) ∧ g.nodes.get? "a" = some n ∧
      n.region = "east" ∧ n.regionView.reports = [] ∧ summaries.get? n.region = none ∧
      n.regionView.summary ≠ none := by
  obtain ⟨first, returned, _⟩ := wornRun.graph.regionSummaries_succeeds .short
  have reached := (reached_wornRun.summarize first _ returned).move "b" "west"
  obtain ⟨summaries, returned', _⟩ := Graph.regionSummaries_succeeds
    (({ wornRun.fleet with graph := wornRun.graph.told .short first } : Fleet).setRegion
      "b" "west").graph .short
  -- the two calls are computed together, as the second starts from what the first returned
  have computed : (do
      let (_, g) ← wornRun.graph.regionSummaries .short
      let (summaries, g') ←
        (({ wornRun.fleet with graph := g } : Fleet).setRegion "b" "west").graph.regionSummaries
          .short
      return (g'.nodes.get? "a").any fun n => n.region = "east" ∧ n.regionView.reports = [] ∧
        summaries.contains "east" = false ∧ n.regionView.summary.isSome = true :
      Except MergeError Bool) = .ok true := by
    decide +kernel
  simp only [returned, ok_bind, returned', pure_eq_ok, Except.ok.injEq] at computed
  obtain ⟨n, present, facts⟩ := (Option.any_eq_true _ _).1 computed
  obtain ⟨region, reports, missing, kept⟩ := of_decide_eq_true facts
  refine ⟨_, summaries, _, n, reached, returned', present, region, reports, ?_, ?_⟩
  · rw [region]
    simpa [SortedMap.contains] using missing
  · exact Option.isSome_iff_ne_none.1 kept

end Session

end RegionNet
