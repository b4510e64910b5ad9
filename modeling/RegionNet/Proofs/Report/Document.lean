import RegionNet.Report.Document
import RegionNet.Proofs.Json.Decoding

/-!
# Reports and summaries are read as they are written
-/

namespace RegionNet

open Json

variable {κ α : Type} [Ord κ] {depth : ℕ}

/-- A table all of whose values satisfy `P`. -/
def SortedMap.All (P : α → Prop) (m : SortedMap κ α) : Prop :=
  ∀ e ∈ m.entries, P e.2

theorem SortedMap.all_singleton [Std.TransOrd κ] {P : α → Prop} {k : κ} {a : α} (holds : P a) :
    (singleton k a).All P := by
  intro e member
  rw [List.mem_singleton.1 (show e ∈ [(k, a)] from member)]
  exact holds

/-- A table of amounts none of which is infinite or no number. -/
abbrev SortedMap.IsFinite : SortedMap κ Float → Prop :=
  SortedMap.All fun x => x.isFinite = true

structure ContainerReport.IsFinite (r : ContainerReport Float) : Prop where
  computeCapacity : r.computeCapacity.IsFinite
  computeLoad : r.computeLoad.All SortedMap.IsFinite
  computeDemand : r.computeDemand.All SortedMap.IsFinite
  averageProcessingTime : r.averageProcessingTime.isFinite = true
  networkCapacity : r.networkCapacity.All SortedMap.IsFinite
  networkLoad : r.networkLoad.All SortedMap.IsFinite
  networkDemand : r.networkDemand.All SortedMap.IsFinite

structure Report.IsFinite (r : Report Float) : Prop where
  serverCapacity : r.serverCapacity.IsFinite
  serverLoad : r.serverLoad.All (SortedMap.All SortedMap.IsFinite)
  serverDemand : r.serverDemand.All (SortedMap.All SortedMap.IsFinite)
  networkCapacity : r.networkCapacity.All SortedMap.IsFinite
  networkLoad : r.networkLoad.All SortedMap.IsFinite
  networkDemand : r.networkDemand.All SortedMap.IsFinite
  containers : ∀ c ∈ r.containers, c.IsFinite

structure Summary.IsFinite (s : Summary Float) : Prop where
  serverCapacity : s.serverCapacity.IsFinite
  serverLoad : s.serverLoad.All (SortedMap.All SortedMap.IsFinite)
  serverDemand : s.serverDemand.All (SortedMap.All SortedMap.IsFinite)
  networkCapacity : s.networkCapacity.All SortedMap.IsFinite
  networkLoad : s.networkLoad.All SortedMap.IsFinite
  networkDemand : s.networkDemand.All SortedMap.IsFinite

theorem NodeAttribute.ofName?_name (a : NodeAttribute) : ofName? a.name = some a := by
  cases a <;> rfl

theorem LinkAttribute.ofName?_name (a : LinkAttribute) : ofName? a.name = some a := by
  cases a; rfl

theorem EstimationWindow.ofName?_name (w : EstimationWindow) : ofName? w.name = some w := by
  cases w <;> rfl

theorem ServiceStatus.ofName?_name (s : ServiceStatus) : ofName? s.name = some s := by
  cases s <;> rfl

theorem faithful_timestamp (depth : ℕ) (t : Timestamp) :
    Faithful Timestamp.toJson toInt64? depth t :=
  faithful_int64 depth t

theorem faithful_window (depth : ℕ) (w : EstimationWindow) :
    Faithful EstimationWindow.toJson EstimationWindow.ofJson? depth w :=
  faithful_named w.ofName?_name depth

theorem faithful_nodeLoad (depth : ℕ) {m : NodeLoad Float} (finite : SortedMap.IsFinite m) :
    Faithful NodeLoad.toJson NodeLoad.ofJson? (depth + 1) m :=
  faithful_ofTable NodeAttribute.ofName?_name fun e member =>
    faithful_ofFloat depth (finite e member)

theorem faithful_linkLoad (depth : ℕ) {m : LinkLoad Float} (finite : SortedMap.IsFinite m) :
    Faithful LinkLoad.toJson LinkLoad.ofJson? (depth + 1) m :=
  faithful_ofTable LinkAttribute.ofName?_name fun e member =>
    faithful_ofFloat depth (finite e member)

theorem faithful_table {write : α → Json} {read : Json → Option α} {m : SortedMap String α}
    (each : m.All (Faithful write read depth)) :
    Faithful (tableToJson write) (tableOfJson? read) (depth + 1) m :=
  faithful_ofTable (fun _ => rfl) each

theorem faithful_serviceLoad (depth : ℕ) {m : ServiceLoad Float}
    (finite : SortedMap.All (SortedMap.All SortedMap.IsFinite) m) :
    Faithful ServiceLoad.toJson ServiceLoad.ofJson? (depth + 3) m :=
  faithful_table fun e member => faithful_table fun e' member' =>
    faithful_nodeLoad depth (finite e member e' member')

theorem faithful_nodeLoads (depth : ℕ) {m : SortedMap NodeName (NodeLoad Float)}
    (finite : m.All SortedMap.IsFinite) :
    Faithful (tableToJson NodeLoad.toJson) (tableOfJson? NodeLoad.ofJson?) (depth + 2) m :=
  faithful_table fun e member => faithful_nodeLoad depth (finite e member)

theorem faithful_linkLoads (depth : ℕ) {m : SortedMap String (LinkLoad Float)}
    (finite : m.All SortedMap.IsFinite) :
    Faithful (tableToJson LinkLoad.toJson) (tableOfJson? LinkLoad.ofJson?) (depth + 2) m :=
  faithful_table fun e member => faithful_linkLoad depth (finite e member)

theorem faithful_containerReport (depth : ℕ) {r : ContainerReport Float} (finite : r.IsFinite) :
    Faithful ContainerReport.toJson ContainerReport.ofJson? (depth + 3) r := by
  have container := faithful_string (depth + 2) r.container
  have service := faithful_optional (depth + 2) r.service
  have timestamp := faithful_timestamp (depth + 2) r.timestamp
  have window := faithful_window (depth + 2) r.window
  have computeCapacity := faithful_nodeLoad (depth + 1) finite.computeCapacity
  have computeLoad := faithful_nodeLoads depth finite.computeLoad
  have computeDemand := faithful_nodeLoads depth finite.computeDemand
  have averageProcessingTime := faithful_ofFloat (depth + 2) finite.averageProcessingTime
  have networkCapacity := faithful_linkLoads depth finite.networkCapacity
  have networkLoad := faithful_linkLoads depth finite.networkLoad
  have networkDemand := faithful_linkLoads depth finite.networkDemand
  constructor
  · rw [ContainerReport.toJson]
    refine .object ?_
    simp only [List.forall_mem_cons]
    exact ⟨container.writable, service.writable, timestamp.writable, window.writable,
      computeCapacity.writable, computeLoad.writable, computeDemand.writable,
      averageProcessingTime.writable, networkCapacity.writable, networkLoad.writable,
      networkDemand.writable, nofun⟩
  · have record : r.toJson.toRecord? ContainerReport.fieldNames = some _ :=
      toRecord?_object rfl (by decide)
    simp only [ContainerReport.ofJson?, record, List.map_cons, List.map_nil, Option.bind_eq_bind,
      Option.bind_some, Option.getD_some, container.reads, service.reads, timestamp.reads,
      window.reads, computeCapacity.reads, computeLoad.reads, computeDemand.reads,
      averageProcessingTime.reads, networkCapacity.reads, networkLoad.reads, networkDemand.reads]
    rfl

theorem faithful_report (depth : ℕ) {r : Report Float} (finite : r.IsFinite) :
    Faithful Report.toJson Report.ofJson? (depth + 5) r := by
  have node := faithful_string (depth + 4) r.node
  have timestamp := faithful_timestamp (depth + 4) r.timestamp
  have window := faithful_window (depth + 4) r.window
  have serverCapacity := faithful_nodeLoad (depth + 3) finite.serverCapacity
  have serverLoad := faithful_serviceLoad (depth + 1) finite.serverLoad
  have serverDemand := faithful_serviceLoad (depth + 1) finite.serverDemand
  have networkCapacity := faithful_linkLoads (depth + 2) finite.networkCapacity
  have networkLoad := faithful_linkLoads (depth + 2) finite.networkLoad
  have networkDemand := faithful_linkLoads (depth + 2) finite.networkDemand
  have containers := faithful_list fun c member =>
    faithful_containerReport depth (finite.containers c member)
  constructor
  · refine .object ?_
    simp only [List.forall_mem_cons]
    exact ⟨node.writable, timestamp.writable, window.writable, serverCapacity.writable,
      serverLoad.writable, serverDemand.writable, networkCapacity.writable, networkLoad.writable,
      networkDemand.writable, containers.writable, nofun⟩
  · have record : r.toJson.toRecord? Report.fieldNames = some _ := toRecord?_object rfl (by decide)
    simp only [Report.ofJson?, record, List.map_cons, List.map_nil, Option.bind_eq_bind,
      Option.bind_some, node.reads, timestamp.reads, window.reads, serverCapacity.reads,
      serverLoad.reads, serverDemand.reads, networkCapacity.reads, networkLoad.reads,
      networkDemand.reads, containers.reads]
    rfl

theorem faithful_summary (depth : ℕ) {s : Summary Float} (finite : s.IsFinite) :
    Faithful Summary.toJson Summary.ofJson? (depth + 4) s := by
  have region := faithful_string (depth + 3) s.region
  have minTimestamp := faithful_timestamp (depth + 3) s.minTimestamp
  have maxTimestamp := faithful_timestamp (depth + 3) s.maxTimestamp
  have window := faithful_window (depth + 3) s.window
  have serverCapacity := faithful_nodeLoad (depth + 2) finite.serverCapacity
  have serverLoad := faithful_serviceLoad depth finite.serverLoad
  have serverDemand := faithful_serviceLoad depth finite.serverDemand
  have networkCapacity := faithful_linkLoads (depth + 1) finite.networkCapacity
  have networkLoad := faithful_linkLoads (depth + 1) finite.networkLoad
  have networkDemand := faithful_linkLoads (depth + 1) finite.networkDemand
  constructor
  · refine .object ?_
    simp only [List.forall_mem_cons]
    exact ⟨region.writable, minTimestamp.writable, maxTimestamp.writable, window.writable,
      serverCapacity.writable, serverLoad.writable, serverDemand.writable,
      networkCapacity.writable, networkLoad.writable, networkDemand.writable, nofun⟩
  · have record : s.toJson.toRecord? Summary.fieldNames = some _ := toRecord?_object rfl (by decide)
    simp only [Summary.ofJson?, record, List.map_cons, List.map_nil, Option.bind_eq_bind,
      Option.bind_some, region.reads, minTimestamp.reads, maxTimestamp.reads, window.reads,
      serverCapacity.reads, serverLoad.reads, serverDemand.reads, networkCapacity.reads,
      networkLoad.reads, networkDemand.reads]
    rfl

theorem faithful_serviceState (depth : ℕ) (s : ServiceState) :
    Faithful ServiceState.toJson ServiceState.ofJson? (depth + 1) s := by
  have service := faithful_string depth s.service
  have status : Faithful (fun s => .string s.name) ServiceStatus.ofJson? depth s.status :=
    faithful_named s.status.ofName?_name depth
  constructor
  · refine .object ?_
    simp only [List.forall_mem_cons]
    exact ⟨service.writable, status.writable, nofun⟩
  · have record : s.toJson.toRecord? ServiceState.fieldNames = some _ :=
      toRecord?_object rfl (by decide)
    simp only [ServiceState.ofJson?, record, List.map_cons, List.map_nil, Option.bind_eq_bind,
      Option.bind_some, service.reads, status.reads]
    rfl

theorem faithful_serviceReport (depth : ℕ) (r : ServiceReport) :
    Faithful ServiceReport.toJson ServiceReport.ofJson? (depth + 3) r := by
  have node := faithful_string (depth + 2) r.node
  have states := faithful_table (m := r.states) fun e _ => faithful_serviceState depth e.2
  constructor
  · refine .object ?_
    simp only [List.forall_mem_cons]
    exact ⟨node.writable, states.writable.mono (by omega), nofun⟩
  · have record : r.toJson.toRecord? ServiceReport.fieldNames = some _ :=
      toRecord?_object rfl (by decide)
    simp only [ServiceReport.ofJson?, record, List.map_cons, List.map_nil, Option.bind_eq_bind,
      Option.bind_some, node.reads, states.reads]
    rfl

end RegionNet
