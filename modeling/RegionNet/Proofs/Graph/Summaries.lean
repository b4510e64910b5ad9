import RegionNet.Proofs.Graph.Requests
import RegionNet.Proofs.Node.Report
import RegionNet.Proofs.Report.Exact

/-!
# From a topology to the summaries of its regions

The summaries over a current report of every node account for the graph. Every region has one, with
the capacities of its nodes and the loads of their services added up, and the links from its nodes
to the vertices of each region. Between regions of nodes alone a link is counted once from each
side, so that what two regions say of the links between them is the same.
-/

namespace RegionNet

namespace Graph

variable {α : Type}

/-- A current report of every node, each at a time of its own, with the amounts read exactly. -/
def currentReports (g : Graph) (value : Float → α) (times : NodeName → Timestamp)
    (window : EstimationWindow) : List (Report α) :=
  g.nodes.values.map fun n => (n.report (times n.name) window).map value

def nodesOf (g : Graph) (region : RegionName) : List Node :=
  g.nodes.values.filter fun n => n.region = region

/-- The bandwidths from the nodes of a region to the vertices of another, link by link. -/
def bandwidths (g : Graph) (region other : RegionName) : List Float :=
  (g.nodesOf region).flatMap fun n =>
    (n.vertex.neighbors.entries.filter fun e => g.regionLookup e.1 = some other).map Prod.snd

/-! ### Regions of nodes -/

theorem mem_nodesOf (g : Graph) (region : RegionName) (n : Node) :
    n ∈ g.nodesOf region ↔ (∃ v, g.nodes.get? v = some n) ∧ n.region = region := by
  rw [nodesOf, List.mem_filter, SortedMap.mem_values_iff, decide_eq_true_eq]

theorem regionLookup_eq_some_iff (g : Graph) (v : NodeName) (region : RegionName) :
    g.regionLookup v = some region ↔
      region.isUnassigned = false ∧ ∃ x, g.vertex? v = some x ∧ x.region = region := by
  simp only [regionLookup, region?, Option.filter_eq_some_iff, Option.map_eq_some_iff,
    Bool.not_eq_true']
  exact and_comm

variable {g : Graph}

theorem vertex?_of_node (v : NodeName) (n : Node) (node : g.nodes.get? v = some n) :
    g.vertex? v = some n.vertex := by
  simp [vertex?, node]

theorem Networked.name_of_node (networked : g.Networked) (v : NodeName) (n : Node)
    (node : g.nodes.get? v = some n) : n.vertex.name = v :=
  networked.names v n.vertex.name n.vertex.neighbors (by simp [wiring?, vertex?_of_node v n node])

theorem Networked.regionLookup_of_node (networked : g.Networked) (n : Node)
    (node : n ∈ g.nodes.values) (region : RegionName) :
    g.regionLookup n.vertex.name = some region ↔
      region.isUnassigned = false ∧ n.region = region := by
  obtain ⟨v, present⟩ := (SortedMap.mem_values_iff _ _).1 node
  rw [networked.name_of_node v n present, regionLookup_eq_some_iff, vertex?_of_node v n present]
  simp [Node.region]

/-- The reports of a region are those of its nodes. -/
theorem Networked.fromRegion_currentReports (networked : g.Networked) (value : Float → α)
    (times : NodeName → Timestamp) (window : EstimationWindow) (region : RegionName)
    (assigned : region.isUnassigned = false) :
    fromRegion g.regionLookup region (g.currentReports value times window) =
      (g.nodesOf region).map fun n => (n.report (times n.name) window).map value := by
  rw [fromRegion, currentReports, List.filter_map, nodesOf]
  congr 1
  apply List.filter_congr
  intro n node
  simp only [Function.comp_apply, Report.map, Node.node_report, decide_eq_decide]
  rw [networked.regionLookup_of_node n node region]
  simp [assigned]

/-! ### Links between two regions -/

/-- The links from the nodes of a region to the vertices of another, with both ends. -/
def crossings (g : Graph) (region other : RegionName) : List (NodeName × NodeName × Float) :=
  (g.nodesOf region).flatMap fun n =>
    (n.vertex.neighbors.entries.filter fun e => g.regionLookup e.1 = some other).map fun e =>
      (n.vertex.name, e)

theorem bandwidths_eq (g : Graph) (region other : RegionName) :
    g.bandwidths region other = (g.crossings region other).map fun c => c.2.2 := by
  simp [bandwidths, crossings, List.map_flatMap, Function.comp_def]

theorem Networked.mem_crossings (networked : g.Networked) (region other : RegionName)
    (c : NodeName × NodeName × Float) :
    c ∈ g.crossings region other ↔
      ∃ n, g.nodes.get? c.1 = some n ∧ n.region = region ∧
        n.vertex.neighbors.get? c.2.1 = some c.2.2 ∧ g.regionLookup c.2.1 = some other := by
  simp only [crossings, List.mem_flatMap, List.mem_map, List.mem_filter, mem_nodesOf,
    decide_eq_true_eq, SortedMap.get?_eq_some_iff]
  constructor
  · rintro ⟨n, ⟨⟨v, node⟩, own⟩, e, ⟨link, found⟩, rfl⟩
    have name := networked.name_of_node v n ((SortedMap.get?_eq_some_iff _ _ _).2 node)
    exact ⟨n, by simpa [name] using node, own, link, found⟩
  · rintro ⟨n, node, own, link, found⟩
    have name := networked.name_of_node c.1 n ((SortedMap.get?_eq_some_iff _ _ _).2 node)
    exact ⟨n, ⟨⟨c.1, node⟩, own⟩, c.2, ⟨link, found⟩, by rw [name]⟩

theorem Networked.crossings_nodup (networked : g.Networked) (region other : RegionName) :
    (g.crossings region other).Nodup := by
  -- two nodes have different names, and the entries of one table are different
  have names : (g.nodesOf region).Pairwise fun n n' => n.vertex.name ≠ n'.vertex.name := by
    have entries : g.nodes.entries.Pairwise fun e e' =>
        e.2.vertex.name ≠ e'.2.vertex.name := by
      apply g.nodes.ascending.imp_of_mem
      intro e e' member member' below same
      rw [networked.name_of_node e.1 e.2 ((SortedMap.get?_eq_some_iff _ _ _).2 member),
        networked.name_of_node e'.1 e'.2 ((SortedMap.get?_eq_some_iff _ _ _).2 member')] at same
      rw [same] at below
      simp at below
    have values : g.nodes.values.Pairwise fun n n' => n.vertex.name ≠ n'.vertex.name :=
      List.pairwise_map.2 entries
    exact values.filter _
  rw [crossings, List.nodup_flatMap]
  constructor
  · intro n _
    exact (n.vertex.neighbors.entries_nodup.filter _).map fun _ _ same => (Prod.mk.inj same).2
  · apply names.imp
    intro n n' differ
    simp only [Function.onFun, List.disjoint_left, List.mem_map, not_exists, not_and]
    rintro c ⟨e, _, rfl⟩ e' _ same
    exact differ (Prod.mk.inj same).1.symm

/-- Without clients every link between two regions is seen from both. -/
theorem Networked.bandwidths_perm (networked : g.Networked) (none : g.clients = ∅)
    (region other : RegionName) (assigned : region.isUnassigned = false)
    (assigned' : other.isUnassigned = false) :
    (g.bandwidths region other).Perm (g.bandwidths other region) := by
  have node_of_lookup (v : NodeName) (r : RegionName) (found : g.regionLookup v = some r) :
      ∃ n, g.nodes.get? v = some n ∧ n.region = r := by
    obtain ⟨_, x, vertex, own⟩ := (regionLookup_eq_some_iff g v r).1 found
    rw [vertex?, none, SortedMap.get?_empty, Option.or_none, Option.map_eq_some_iff] at vertex
    obtain ⟨n, node, rfl⟩ := vertex
    exact ⟨n, node, own⟩
  have turn (r r' : RegionName) (assigned : r.isUnassigned = false)
      (c : NodeName × NodeName × Float) (member : c ∈ g.crossings r r') :
      (c.2.1, c.1, c.2.2) ∈ g.crossings r' r := by
    obtain ⟨n, node, own, link, found⟩ := (networked.mem_crossings r r' c).1 member
    obtain ⟨n', node', own'⟩ := node_of_lookup c.2.1 r' found
    have back := networked.symmetric c.1 _ _ c.2.1 _ _
      (by rw [wiring?, vertex?_of_node _ _ node]; rfl)
      (by rw [wiring?, vertex?_of_node _ _ node']; rfl)
    refine (networked.mem_crossings r' r _).2 ⟨n', node', own', back ▸ link, ?_⟩
    exact (regionLookup_eq_some_iff g c.1 r).2
      ⟨assigned, n.vertex, vertex?_of_node c.1 n node, own⟩
  have perm : ((g.crossings region other).map fun c => (c.2.1, c.1, c.2.2)).Perm
      (g.crossings other region) := by
    have injective : Function.Injective fun c : NodeName × NodeName × Float =>
        (c.2.1, c.1, c.2.2) := by
      rintro ⟨u, v, b⟩ ⟨u', v', b'⟩ same
      simp only [Prod.mk.injEq] at same ⊢
      exact ⟨same.2.1, same.1, same.2.2⟩
    apply (List.perm_ext_iff_of_nodup ((networked.crossings_nodup region other).map injective)
      (networked.crossings_nodup other region)).2
    intro c
    rw [List.mem_map]
    constructor
    · rintro ⟨c, member, rfl⟩
      exact turn region other assigned c member
    · intro member
      exact ⟨_, turn other region assigned' c member, rfl⟩
  rw [bandwidths_eq, bandwidths_eq]
  have rates := perm.map fun c => c.2.2
  rwa [List.map_map] at rates

/-! ### The summaries -/

variable [AddCommMonoid α]

/-- The summaries say of every region what its nodes and links have, and nothing else. -/
structure Accounts (g : Graph) (value : Float → α)
    (summaries : SortedMap RegionName (Summary α)) : Prop where
  regions : summaries.keys = g.regions
  capacity : ∀ r s, summaries.get? r = some s → ∀ a, s.serverCapacity.get? a =
    total ((g.nodesOf r).filterMap fun n => (n.resources.computeCapacity.get? a).map value)
  load : ∀ r s, summaries.get? r = some s → ∀ service loads,
    s.serverLoad.get? service = some loads → loads.keys = [r]
  demand : ∀ r s, summaries.get? r = some s → ∀ service loads,
    s.serverDemand.get? service = some loads → loads.keys = [r]
  linked : ∀ r s, summaries.get? r = some s → ∀ other, s.networkCapacity.contains other = true ↔
    ∃ n ∈ g.nodesOf r, ∃ v, n.vertex.hasNeighbor v = true ∧ g.regionLookup v = some other
  rates : ∀ r s, summaries.get? r = some s → ∀ other load,
    s.networkCapacity.get? other = some load →
      load = SortedMap.singleton .dataRate ((g.bandwidths r other).map value).sum
  symmetric : g.clients = ∅ → ∀ r s r' s', summaries.get? r = some s →
    summaries.get? r' = some s' → s.networkCapacity.get? r' = s'.networkCapacity.get? r

variable {value : Float → α} {times : NodeName → Timestamp} {window : EstimationWindow}
  {region : RegionName} {s : Summary α}

/-- A region that has a summary is one to which vertices are assigned. -/
theorem assigned_of_regionEntry {reports : List (Report α)}
    (present : regionEntry g.regionLookup window reports region = some s) :
    region.isUnassigned = false := by
  have inhabited : fromRegion g.regionLookup region reports ≠ [] := by
    rw [ne_eq, ← regionEntry_eq_none_iff g.regionLookup window, present]
    simp
  obtain ⟨r, member⟩ := List.exists_mem_of_ne_nil _ inhabited
  have found := ((mem_fromRegion g.regionLookup region reports r).1 member).2
  exact ((regionLookup_eq_some_iff g r.node region).1 found).1

theorem Networked.serverCapacity_of_entry (networked : g.Networked)
    (present : regionEntry g.regionLookup window (g.currentReports value times window) region =
      some s) (a : NodeAttribute) :
    s.serverCapacity.get? a = total ((g.nodesOf region).filterMap fun n =>
      (n.resources.computeCapacity.get? a).map value) := by
  rw [get?_regionEntry Summary.serverCapacity rfl (fun _ _ => rfl) present,
    networked.fromRegion_currentReports value times window region (assigned_of_regionEntry present),
    List.filterMap_map]
  congr 2
  funext n
  simp [Regional.ofReport, Report.map, Node.serverCapacity_report, SortedMap.get?_map]

/-- The load of a service, which is reported node by node for the region of the node, counts for
that region. -/
theorem Networked.keys_of_load (networked : g.Networked)
    (table : Summary α → ServiceLoad α)
    (empty : table (Summary.null region window) = ∅)
    (add : ∀ one two, table (Summary.join one two) = table one + table two)
    (reported : ∀ n : Node, table (Regional.ofReport g.regionLookup region window
      ((n.report (times n.name) window).map value)).summary =
        ((n.serviceLoads).map (SortedMap.singleton n.region)).map (·.map (·.map value)))
    (present : regionEntry g.regionLookup window (g.currentReports value times window) region =
      some s) (service : ServiceName) (loads : SortedMap RegionName (NodeLoad α))
    (found : (table s).get? service = some loads) : loads.keys = [region] := by
  rw [get?_regionEntry table empty add present,
    networked.fromRegion_currentReports value times window region (assigned_of_regionEntry present),
    List.filterMap_map] at found
  have each : ((g.nodesOf region).filterMap fun n =>
      (table (Regional.ofReport g.regionLookup region window
        ((n.report (times n.name) window).map value)).summary).get? service) =
      ((g.nodesOf region).filterMap fun n =>
        ((n.serviceLoads).get? service).map (·.map value)).map (SortedMap.singleton region) := by
    rw [List.map_filterMap]
    apply List.filterMap_congr
    intro n node
    obtain ⟨_, own⟩ := (mem_nodesOf g region n).1 node
    simp only [reported, SortedMap.get?_map, own, Option.map_map, Function.comp_def,
      SortedMap.map_singleton]
  rw [Function.comp_def, each, total_map _ (SortedMap.singleton_add region)] at found
  obtain ⟨load, _, rfl⟩ := Option.map_eq_some_iff.1 found
  rfl

theorem Networked.networkCapacity_of_entry (networked : g.Networked)
    (present : regionEntry g.regionLookup window (g.currentReports value times window) region =
      some s) (other : RegionName) :
    s.networkCapacity.get? other =
      (total ((g.bandwidths region other).map value)).map (SortedMap.singleton .dataRate) := by
  rw [networkCapacity_regionEntry present,
    networked.fromRegion_currentReports value times window region (assigned_of_regionEntry present),
    ← total_map _ (SortedMap.singleton_add LinkAttribute.dataRate), List.flatMap_map, bandwidths,
    List.map_map, List.map_flatMap]
  congr 1
  apply List.flatMap_congr
  intro n node
  obtain ⟨⟨v, present⟩, _⟩ := (mem_nodesOf g region n).1 node
  have measured := networked.measured v n present
  simp only [Report.map, Node.networkCapacity_report n measured, SortedMap.map, SortedMap.mapValues,
    List.map_map, List.filter_map, Function.comp_def]
  rfl

theorem Networked.keys_eq_regions (networked : g.Networked)
    (summaries : SortedMap RegionName (Summary α))
    (entries : ∀ region, summaries.get? region =
      regionEntry g.regionLookup window (g.currentReports value times window) region) :
    summaries.keys = g.regions := by
  rw [regions]
  apply SortedMap.keys_eq_of_contains
  intro region
  rw [Bool.eq_iff_iff, SortedMap.contains_ofList, SortedMap.contains, entries,
    Option.isSome_iff_ne_none, ne_eq, regionEntry_eq_none_iff, List.eq_nil_iff_forall_not_mem,
    not_forall_not]
  simp only [mem_fromRegion, currentReports, List.mem_map, List.mem_filterMap]
  constructor
  · rintro ⟨_, ⟨n, node, rfl⟩, found⟩
    simp only [Report.map, Node.node_report] at found
    obtain ⟨assigned, rfl⟩ := (networked.regionLookup_of_node n node region).1 found
    exact ⟨(), n, node, by simp [assigned]⟩
  · rintro ⟨_, n, node, same⟩
    split at same
    next => cases same
    next assigned =>
      cases same
      refine ⟨_, ⟨n, node, rfl⟩, ?_⟩
      simp only [Report.map, Node.node_report]
      exact (networked.regionLookup_of_node n node _).2 ⟨by simpa using assigned, rfl⟩

theorem Networked.accounts (networked : g.Networked)
    (summaries : SortedMap RegionName (Summary α))
    (entries : ∀ region, summaries.get? region =
      regionEntry g.regionLookup window (g.currentReports value times window) region) :
    g.Accounts value summaries := by
  constructor
  case regions => exact networked.keys_eq_regions summaries entries
  case capacity =>
    intro r s present a
    rw [entries] at present
    exact networked.serverCapacity_of_entry present a
  case load =>
    intro r s present service loads
    rw [entries] at present
    exact networked.keys_of_load Summary.serverLoad rfl (fun _ _ => rfl)
      (fun n => by simp [Regional.ofReport, Report.map, Node.serverLoad_report])
      present service loads
  case demand =>
    intro r s present service loads
    rw [entries] at present
    exact networked.keys_of_load Summary.serverDemand rfl (fun _ _ => rfl)
      (fun n => by simp [Regional.ofReport, Report.map, Node.serverDemand_report,
        Node.serverLoad_report])
      present service loads
  case linked =>
    intro r s present other
    rw [entries] at present
    rw [SortedMap.contains, networked.networkCapacity_of_entry present, Option.isSome_map,
      Option.isSome_iff_ne_none, ne_eq, total_eq_none_iff, List.map_eq_nil_iff,
      List.eq_nil_iff_forall_not_mem, not_forall_not]
    simp only [bandwidths, List.mem_flatMap, List.mem_map, List.mem_filter, decide_eq_true_eq]
    constructor
    · rintro ⟨_, n, node, e, ⟨link, found⟩, _⟩
      refine ⟨n, node, e.1, ?_, found⟩
      exact (SortedMap.contains_iff _ _).2 ⟨e.2, (SortedMap.get?_eq_some_iff _ _ _).2 link⟩
    · rintro ⟨n, node, v, link, found⟩
      obtain ⟨rate, link⟩ := (SortedMap.contains_iff _ _).1 link
      exact ⟨rate, n, node, (v, rate), ⟨(SortedMap.get?_eq_some_iff _ _ _).1 link, found⟩, rfl⟩
  case rates =>
    intro r s present other load found
    rw [entries] at present
    rw [networked.networkCapacity_of_entry present, Option.map_eq_some_iff] at found
    obtain ⟨rate, sum, rfl⟩ := found
    rw [total_eq_some _ _ sum]
  case symmetric =>
    intro none r s r' s' present present'
    rw [entries] at present present'
    have perm := networked.bandwidths_perm none r r' (assigned_of_regionEntry present)
      (assigned_of_regionEntry present')
    rw [networked.networkCapacity_of_entry present, networked.networkCapacity_of_entry present',
      total_perm _ _ (perm.map value)]

/-- Whatever text the graph was read from and whatever was asked of its vertices since, the
summaries over current reports, in any order, account for the graph. -/
theorem summaries_account_for_graph (source : DocumentSource) (text : String)
    (cached : EstimationWindow) (t : Topology) (read : Topology.read source text = .ok t)
    (requests : List FleetRequest) (value : Float → α) (times : NodeName → Timestamp)
    (window : EstimationWindow) :
    let g := (requests.foldl Fleet.perform (Fleet.ofGraph (ofTopology cached t))).graph
    ∃ summaries, g.Accounts value summaries ∧
      ∀ reports : List (Report α), reports.Perm (g.currentReports value times window) →
        summarizeRegions g.regionLookup window reports = .ok summaries := by
  intro g
  have networked : g.Networked :=
    Networked.requests (f := Fleet.ofGraph _) (networked_of_read source text cached t read) requests
  have fit : ∀ r ∈ g.currentReports value times window, ¬ Offends g.regionLookup window r := by
    rintro r member ⟨_, differ⟩
    obtain ⟨n, _, rfl⟩ := List.mem_map.1 member
    exact differ (Node.window_report n _ window)
  obtain ⟨summaries, returned, entries⟩ :=
    summarizeRegions_of_fits g.regionLookup window (g.currentReports value times window) fit
  refine ⟨summaries, networked.accounts summaries entries, fun reports perm => ?_⟩
  rw [← returned]
  exact summarizeRegions_congr g.regionLookup window reports _ fun region => perm.filter _

/-- Two nodes with a link, of which one is moved and the other is configured, and a service that is
started and stopped. Every bandwidth counts as one. -/
theorem summaries_account_for_link :
    let text := "set s [new Simulator]
set a [$s node]
set b [$s node]
set l [$s duplex-link $b $a 1mb]"
    let requests : List FleetRequest :=
      [.move "a" "east", .configure "b" (.object [("region", .string "west")]),
        .startService "a" "search" ⟨∅, ∅⟩, .stopService "a" "Container-0"]
    ∃ t, Topology.read (fun _ => .ok .null) text = .ok t ∧
      let g := (requests.foldl Fleet.perform (Fleet.ofGraph (ofTopology .short t))).graph
      ∃ summaries, g.Accounts (fun _ => (1 : Int)) summaries ∧
        ∀ reports : List (Report Int),
          reports.Perm (g.currentReports (fun _ => 1) (fun _ => 7) .long) →
            summarizeRegions g.regionLookup .long reports = .ok summaries := by
  intro text requests
  have succeeds : (Topology.read (fun _ => .ok .null) text).toBool = true := by decide +kernel
  cases read : Topology.read (fun _ => .ok .null) text with
  | error e => simp [read, Except.toBool] at succeeds
  | ok t =>
    exact ⟨t, rfl, summaries_account_for_graph (fun _ => .ok .null) text .short t read requests
      (fun _ => (1 : Int)) (fun _ => 7) .long⟩

end Graph

end RegionNet
