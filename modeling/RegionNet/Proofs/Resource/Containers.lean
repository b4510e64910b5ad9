import Mathlib.Data.List.Induction
import Mathlib.Data.List.Perm.Lattice
import RegionNet.Proofs.Resource.Limit
import RegionNet.Proofs.SortedMap.Lookup

/-!
# Containers over a history of starts and stops

Services are started and stopped at a manager one call at a time. What should run is said of the
history alone: a container is outstanding from the start that named it until a stop of its name.
The table of the manager is kept in step with the history (`Ledger`): it holds what is outstanding,
and its counter is the number of starts that succeeded. Numbers have names of their own, and every
name in the table is that of a smaller number, so that no start finds its name in use.
-/

namespace RegionNet

/-- What a manager is asked to do with its containers. -/
inductive ContainerCall
  | start (service : ServiceName) (parameters : ContainerParameters)
  | stop (name : ContainerName)

/-- A call together with what it answered. -/
inductive ContainerEvent
  | started (name : ContainerName) (container : Container)
  | refused (service : ServiceName) (parameters : ContainerParameters)
  | stopped (name : ContainerName) (wasRunning : Bool)
deriving DecidableEq

namespace ContainerEvent

def startedName? : ContainerEvent → Option ContainerName
  | started name _ => some name
  | _ => none

/-- The names that starts answered with, in order. -/
def startedNames (history : List ContainerEvent) : List ContainerName :=
  history.filterMap startedName?

def settle (running : List (ContainerName × Container)) :
    ContainerEvent → List (ContainerName × Container)
  | started name container => running ++ [(name, container)]
  | refused _ _ => running
  | stopped name _ => running.filter fun e => e.1 ≠ name

/-- The containers that were started and not stopped since, whatever the stops answered. -/
def outstanding (history : List ContainerEvent) : List (ContainerName × Container) :=
  history.foldl settle []

@[simp] theorem startedNames_concat (history : List ContainerEvent) (e : ContainerEvent) :
    startedNames (history ++ [e]) = startedNames history ++ e.startedName?.toList := by
  rw [startedNames, List.filterMap_append, startedNames]
  cases h : e.startedName? <;> simp [h]

@[simp] theorem outstanding_concat (history : List ContainerEvent) (e : ContainerEvent) :
    outstanding (history ++ [e]) = settle (outstanding history) e := by
  rw [outstanding, List.foldl_concat, outstanding]

/-- Every container that is outstanding was started. -/
theorem length_outstanding_le (history : List ContainerEvent) :
    (outstanding history).length ≤ (startedNames history).length := by
  induction history using List.reverseRecOn with
  | nil => exact Nat.le_refl 0
  | append_singleton history e ih =>
    rw [outstanding_concat, startedNames_concat]
    cases e with
    | started name container => simpa [settle, startedName?] using ih
    | refused service parameters => simpa [settle, startedName?] using ih
    | stopped name wasRunning =>
      simpa [settle, startedName?] using (List.length_filter_le _ _).trans ih

end ContainerEvent

open ContainerEvent

namespace ResourceManager

def obey (m : ResourceManager) : ContainerCall → ContainerEvent × ResourceManager
  | .start service parameters =>
    match m.startService service parameters with
    | (some name, m') => (.started name ⟨service, parameters⟩, m')
    | (none, m') => (.refused service parameters, m')
  | .stop name => (.stopped name (m.stopService name).1, (m.stopService name).2)

/-- Makes calls in order and writes down what they answered. -/
def run (m : ResourceManager) (calls : List ContainerCall) :
    List ContainerEvent × ResourceManager :=
  calls.foldl (fun s call => (s.1 ++ [(s.2.obey call).1], (s.2.obey call).2)) ([], m)

theorem run_concat (m : ResourceManager) (calls : List ContainerCall) (call : ContainerCall) :
    m.run (calls ++ [call]) =
      ((m.run calls).1 ++ [((m.run calls).2.obey call).1], ((m.run calls).2.obey call).2) := by
  rw [run, List.foldl_concat, run]

end ResourceManager

/-! ### Names -/

/-- The name that the start with this number answers with, counted from zero. -/
def ContainerName.numbered (k : Nat) : ContainerName :=
  "Container-" ++ toString k

theorem ContainerName.ofNumber_eq (n : UInt64) : ofNumber n = numbered n.toNat := by
  rw [numbered, Nat.toString_eq_ofList_toDigits]
  rfl

theorem ContainerName.numbered_injective : Function.Injective numbered := by
  intro j k same
  rw [numbered, numbered, String.append_right_inj, Nat.toString_eq_ofList_toDigits,
    Nat.toString_eq_ofList_toDigits, String.ofList_inj] at same
  -- the digits of a number can be read back
  rw [← Nat.ofDigitChars_ten_toDigits (n := j), same, Nat.ofDigitChars_ten_toDigits]

/-! ### The table and the history -/

/-- A table that was kept in step with the names that starts answered with, fewer than a word has
values, and with what is outstanding. -/
structure Ledger (s : ResourceSection) (names : List ContainerName)
    (outstanding : List (ContainerName × Container)) (table : ContainerTable) : Prop where
  next : table.next.toNat = names.length
  named : names = (List.range names.length).map ContainerName.numbered
  running : table.running.entries.Perm outstanding
  started : ∀ e ∈ outstanding, e.1 ∈ names
  bounded : ∀ amount, s.serverCapacity.get? .taskContainers = some amount →
    table.running.size ≤ containerLimit amount

namespace Ledger

variable {s : ResourceSection} {names : List ContainerName}
  {running : List (ContainerName × Container)} {table : ContainerTable}

theorem empty (s : ResourceSection) : Ledger s [] [] ContainerTable.empty where
  next := rfl
  named := rfl
  running := .nil
  started := by simp
  bounded := fun _ _ => Nat.zero_le _

theorem get?_running (ledger : Ledger s names running table) (name : ContainerName)
    (c : Container) : table.running.get? name = some c ↔ (name, c) ∈ running := by
  rw [SortedMap.get?_eq_some_iff, ledger.running.mem_iff]

theorem contains_running (ledger : Ledger s names running table) (name : ContainerName) :
    table.running.contains name = true ↔ ∃ c, (name, c) ∈ running := by
  simp only [SortedMap.contains_iff, ledger.get?_running]

theorem size_running (ledger : Ledger s names running table) :
    table.running.size = running.length :=
  ledger.running.length_eq

/-- No container that is running has the next name. -/
theorem next_fresh (ledger : Ledger s names running table) :
    table.running.contains (ContainerName.ofNumber table.next) = false := by
  rw [Bool.eq_false_iff]
  intro used
  obtain ⟨c, member⟩ := (ledger.contains_running _).1 used
  have given := ledger.started _ member
  -- the name was given to an earlier start, so the counter would be a smaller number
  rw [ledger.named, ContainerName.ofNumber_eq, List.mem_map] at given
  obtain ⟨k, earlier, same⟩ := given
  have equal := ContainerName.numbered_injective same
  rw [List.mem_range, equal, ledger.next] at earlier
  exact Nat.lt_irrefl _ earlier

/-- A start finds the manager full, or it puts the service in the next container. -/
theorem startService_eq (ledger : Ledger s names running table) (service : ServiceName)
    (parameters : ContainerParameters) :
    (ResourceManager.measured s table).startService service parameters =
      if ResourceManager.isFull s table then (none, .measured s table)
      else
        (some (ContainerName.ofNumber table.next),
          .measured s
            ⟨table.next + 1,
              table.running.insert (ContainerName.ofNumber table.next) ⟨service, parameters⟩⟩) := by
  simp only [ResourceManager.startService, ledger.next_fresh, Bool.false_eq_true, if_false]

theorem isFull_iff (s : ResourceSection) (table : ContainerTable) :
    ResourceManager.isFull s table = true ↔
      ∃ amount, s.serverCapacity.get? .taskContainers = some amount ∧
        containerLimit amount ≤ table.running.size := by
  rw [ResourceManager.isFull]
  cases s.serverCapacity.get? .taskContainers <;> simp

/-- A start that succeeds keeps the table in step, as long as the counter does not wrap around. -/
theorem start (ledger : Ledger s names running table) (c : Container)
    (few : names.length + 1 < UInt64.size) (room : ResourceManager.isFull s table = false) :
    Ledger s (names ++ [ContainerName.ofNumber table.next])
      (running ++ [(ContainerName.ofNumber table.next, c)])
      ⟨table.next + 1, table.running.insert (ContainerName.ofNumber table.next) c⟩ := by
  have inserted := table.running.entries_insert_perm _ c ledger.next_fresh
  constructor
  · have fits : (table.next.toNat + 1) % UInt64.size = table.next.toNat + 1 :=
      Nat.mod_eq_of_lt (by rw [ledger.next]; exact few)
    rw [List.length_append, List.length_singleton, ← ledger.next]
    exact fits
  · rw [List.length_append, List.length_singleton, List.range_succ, List.map_append, ← ledger.named,
      ContainerName.ofNumber_eq, ledger.next, List.map_singleton]
  · exact inserted.trans (ledger.running.append_right _)
  · intro e member
    rw [List.mem_append, List.mem_singleton] at member ⊢
    rcases member with earlier | rfl
    · exact .inl (ledger.started e earlier)
    · exact .inr rfl
  · intro amount capacity
    -- there was room for one more
    have below : table.running.size < containerLimit amount := by
      apply Nat.lt_of_not_le
      intro full
      rw [(isFull_iff s table).2 ⟨amount, capacity, full⟩] at room
      cases room
    have size : (table.running.insert (ContainerName.ofNumber table.next) c).size =
        table.running.size + 1 := by
      rw [SortedMap.size, inserted.length_eq, List.length_append]
      rfl
    rw [size]
    exact below

theorem stop (ledger : Ledger s names running table) (name : ContainerName) :
    Ledger s names (running.filter fun e => e.1 ≠ name)
      { table with running := table.running.erase name } where
  next := ledger.next
  named := ledger.named
  running := by
    have kept : (table.running.erase name).entries =
        table.running.entries.filter fun e => e.1 ≠ name := by
      apply List.filter_congr
      intro e _
      by_cases same : e.1 = name
      · simp [same]
      · simp [same, show name ≠ e.1 from fun h => same h.symm]
    rw [kept]
    exact ledger.running.filter _
  started := fun e member => ledger.started e (List.mem_of_mem_filter member)
  bounded := fun amount capacity =>
    (List.length_filter_le _ _).trans (ledger.bounded amount capacity)

end Ledger

/-- A manager that was kept in step with a history. -/
def ResourceManager.Follows (s : ResourceSection) (history : List ContainerEvent)
    (m : ResourceManager) : Prop :=
  ∃ table, m = .measured s table ∧ Ledger s (startedNames history) (outstanding history) table

namespace ResourceManager

variable {s : ResourceSection} {history : List ContainerEvent} {m : ResourceManager}

theorem Follows.obey (follows : Follows s history m) (call : ContainerCall)
    (few : (startedNames (history ++ [(m.obey call).1])).length < UInt64.size) :
    Follows s (history ++ [(m.obey call).1]) (m.obey call).2 := by
  obtain ⟨table, rfl, ledger⟩ := follows
  cases call with
  | start service parameters =>
    have answer := ledger.startService_eq service parameters
    cases room : isFull s table with
    | true =>
      rw [room, if_pos rfl] at answer
      simp only [ResourceManager.obey, answer]
      exact ⟨table, rfl, by simpa [startedName?, settle] using ledger⟩
    | false =>
      rw [room, if_neg Bool.false_ne_true] at answer
      simp only [ResourceManager.obey, answer] at few ⊢
      rw [startedNames_concat, List.length_append] at few
      exact ⟨_, rfl, by
        simpa [startedName?, settle] using ledger.start ⟨service, parameters⟩ few room⟩
  | stop name =>
    refine ⟨_, rfl, ?_⟩
    simpa [ResourceManager.obey, startedName?, settle] using ledger.stop name

/-- The manager of a document is in step with its history, up to the largest word of starts. -/
theorem follows_run (document : Json) (calls : List ContainerCall)
    (few : (startedNames ((ofDocument document).run calls).1).length < UInt64.size) :
    Follows (ResourceSection.ofDocument document) ((ofDocument document).run calls).1
      ((ofDocument document).run calls).2 := by
  induction calls using List.reverseRecOn with
  | nil => exact ⟨ContainerTable.empty, rfl, .empty _⟩
  | append_singleton calls call ih =>
    -- fewer starts had succeeded before the last call
    rw [run_concat] at few ⊢
    have fewer : (startedNames ((ofDocument document).run calls).1).length < UInt64.size := by
      rw [startedNames_concat, List.length_append] at few
      exact Nat.lt_of_le_of_lt (Nat.le_add_right _ _) few
    exact (ih fewer).obey call few

/-! ### What is read from a manager -/

/-- What a manager names and refuses, and what its reports list, as its history has it. -/
structure AccountsFor (s : ResourceSection) (history : List ContainerEvent)
    (m : ResourceManager) : Prop where
  /-- The starts that succeeded were numbered from zero. -/
  named : startedNames history =
    (List.range (startedNames history).length).map ContainerName.numbered
  /-- No name was handed out twice, whatever was stopped. -/
  distinct : (startedNames history).Nodup
  /-- Never more containers run than the capacity allows. -/
  bounded : ∀ amount, s.serverCapacity.get? .taskContainers = some amount →
    ((outstanding history).length : ℕ∞) ≤ allowance amount
  /-- A start fails if as many containers run as the capacity allows, and only then. The second case
  is that of a capacity beyond the largest word: the limit is a word, so it is that word then, and as
  many containers leave no room for one more. No machine holds so many, and with fewer of them only
  the first case is left. -/
  refuses : ∀ service parameters, (m.startService service parameters).1 = none ↔
    ∃ amount, s.serverCapacity.get? .taskContainers = some amount ∧
      (allowance amount ≤ (outstanding history).length ∨
        (outstanding history).length = UInt64.size - 1)
  /-- A start that fails changes nothing. -/
  unchanged : ∀ service parameters, (m.startService service parameters).1 = none →
    (m.startService service parameters).2 = m
  /-- A stop says whether its container was started and not stopped since. -/
  stops : ∀ name, (m.stopService name).1 = true ↔ ∃ c, (name, c) ∈ outstanding history
  /-- The service report lists what is outstanding, with its service. -/
  served : ∀ v name state, (m.serviceReport v).states.get? name = some state ↔
    ∃ c, (name, c) ∈ outstanding history ∧ state = ⟨c.service, .running⟩
  /-- The resource report lists what is outstanding, each once, with its service and the compute
  capacity that it was started with. -/
  reported : ∀ v now window,
    ((m.report v now window).containers.map fun r =>
      (r.container, r.service, r.computeCapacity)).Perm
        ((outstanding history).map fun e => (e.1, some e.2.service, e.2.parameters.compute))
  ascending : ∀ v now window, (m.report v now window).containers.Pairwise fun a b =>
    compare a.container b.container = .lt
  /-- The containers of a service are those of its containers that are outstanding. -/
  located : ∀ v service name, name ∈ (m.serviceReport v).containersFor service ↔
    ∃ c, (name, c) ∈ outstanding history ∧ c.service = service

theorem mem_containersFor (r : ServiceReport) (service : ServiceName) (name : ContainerName) :
    name ∈ r.containersFor service ↔ r.states.get? name = some ⟨service, .running⟩ := by
  rw [SortedMap.get?_eq_some_iff]
  simp only [ServiceReport.containersFor, List.mem_map, List.mem_filter, Bool.and_eq_true,
    beq_iff_eq]
  constructor
  · rintro ⟨⟨_, _, _⟩, ⟨member, rfl, rfl⟩, rfl⟩
    exact member
  · intro member
    exact ⟨_, ⟨member, rfl, rfl⟩, rfl⟩

theorem states_serviceReport (s : ResourceSection) (table : ContainerTable) (v : Vertex)
    (name : ContainerName) :
    ((measured s table).serviceReport v).states.get? name =
      (table.running.get? name).map fun c => ⟨c.service, .running⟩ :=
  SortedMap.get?_mapValues _ _ _

theorem containers_report (s : ResourceSection) (table : ContainerTable) (v : Vertex)
    (now : Timestamp) (window : EstimationWindow) :
    ((measured s table).report v now window).containers =
      table.running.entries.map fun e => reportContainer s now window e.1 e.2 := rfl

/-- As many containers run as the limit says just if as many run as the amount allows, or as many as
a word can count. -/
theorem containerLimit_le_iff (amount : Float) (count : Nat) (few : count < UInt64.size) :
    containerLimit amount ≤ count ↔
      allowance amount ≤ (count : ℕ∞) ∨ count = UInt64.size - 1 := by
  rw [← ENat.natCast_le_natCast, containerLimit_eq, min_le_iff, ENat.natCast_le_natCast]
  have largest : UInt64.size - 1 ≤ count ↔ count = UInt64.size - 1 := by omega
  rw [largest]

theorem Follows.accounts (follows : Follows s history m)
    (few : (startedNames history).length < UInt64.size) : AccountsFor s history m := by
  obtain ⟨table, rfl, ledger⟩ := follows
  -- the table holds what is outstanding, so that whatever is read from it is read from the history
  have count := ledger.size_running
  have start_none (service : ServiceName) (parameters : ContainerParameters) :
      ((measured s table).startService service parameters).1 = none ↔ isFull s table = true := by
    rw [ledger.startService_eq]
    cases isFull s table <;> simp
  constructor
  · exact ledger.named
  · rw [ledger.named]
    exact List.nodup_range.map ContainerName.numbered_injective
  · intro amount capacity
    have limit := ledger.bounded amount capacity
    rw [count, ← ENat.natCast_le_natCast, containerLimit_eq] at limit
    exact limit.trans (min_le_left _ _)
  · intro service parameters
    have fewer := (length_outstanding_le history).trans_lt few
    simp only [start_none, Ledger.isFull_iff, count, containerLimit_le_iff _ _ fewer]
  · intro service parameters refused
    rw [start_none] at refused
    rw [ledger.startService_eq, if_pos refused]
  · exact ledger.contains_running
  · intro v name state
    rw [states_serviceReport, Option.map_eq_some_iff]
    simp only [ledger.get?_running, eq_comm]
  · intro v now window
    rw [containers_report, List.map_map]
    exact ledger.running.map _
  · intro v now window
    rw [containers_report]
    exact List.pairwise_map.2 table.running.ascending
  · intro v service name
    simp only [mem_containersFor, states_serviceReport, Option.map_eq_some_iff,
      ledger.get?_running, ServiceState.mk.injEq, and_true]

/-- Whatever is started and stopped at the manager of a document, and in whichever order, its names
are new, its limit holds, and its reports list what was started and not stopped since, as long as
fewer starts succeed than a word has values. -/
theorem accounts_for_history (document : Json) (calls : List ContainerCall)
    (few : (startedNames ((ofDocument document).run calls).1).length < 2 ^ 64) :
    AccountsFor (ResourceSection.ofDocument document) ((ofDocument document).run calls).1
      ((ofDocument document).run calls).2 :=
  (follows_run document calls few).accounts few

/-- A node that offers one container and a half. -/
def oneContainer : Json :=
  .object [(ResourceSection.key,
    .object [(ResourceSection.serverCapacityKey, .object [("TASK_CONTAINERS", .ofFloat 1.5)])])]

def noParameters : ContainerParameters := ⟨∅, ∅⟩

def restart : List ContainerCall :=
  [.start "web" noParameters, .start "web" noParameters, .stop "Container-0",
    .start "web" noParameters]

/-- One container is allowed: a second start is refused, and one after the stop gets a new name. -/
theorem accounts_for_restart :
    ((ofDocument oneContainer).run restart).1 =
      [.started "Container-0" ⟨"web", noParameters⟩, .refused "web" noParameters,
        .stopped "Container-0" true, .started "Container-1" ⟨"web", noParameters⟩] ∧
    AccountsFor (ResourceSection.ofDocument oneContainer)
      ((ofDocument oneContainer).run restart).1 ((ofDocument oneContainer).run restart).2 := by
  have events : ((ofDocument oneContainer).run restart).1 =
      [.started "Container-0" ⟨"web", noParameters⟩, .refused "web" noParameters,
        .stopped "Container-0" true, .started "Container-1" ⟨"web", noParameters⟩] := by
    decide +kernel
  exact ⟨events, accounts_for_history _ _ (by rw [events]; decide)⟩

end ResourceManager

end RegionNet
