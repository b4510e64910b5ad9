import RegionNet.Proofs.Node.Caching

/-!
# Reports of a node that moves

A move sets the region, gives up the cached report, resets what the node was told of its region, and
clears the network, in four steps, while the thread goes on with its cycle. Between moves the node
was told of its own region only. The cached report counts for the region too, as long as no move
gives up the cached report while the thread has a report for another region at hand: such a report
is cached later and stays.
-/

namespace RegionNet

/-- Everything that the report says of the load and the demand of services is for that region. -/
def Report.CountsFor (r : Report Float) (region : RegionName) : Prop :=
  ∀ service loads,
    r.serverLoad.get? service = some loads ∨ r.serverDemand.get? service = some loads →
      ∀ key load, loads.get? key = some load → key = region

/-- The region that a move is on its way to. -/
def Call.destination : Call → Option RegionName
  | .dropReport region => some region
  | .resetView region => some region
  | _ => none

theorem Call.destination_of_unmoved {c : Call} (unmoved : c.isMove = false) :
    c.destination = none := by
  cases c <;> first | rfl | cases unmoved

namespace Node

/-- What a node reports counts for its region. -/
theorem countsFor_report (n : Node) (now : Timestamp) (window : EstimationWindow) :
    (n.report now window).CountsFor n.region := by
  intro service loads reported key load present
  have listed : (n.report now window).serverLoad.get? service = some loads := by
    rcases reported with load | demand
    · exact load
    · rwa [serverDemand_report] at demand
  rw [serverLoad_report, SortedMap.get?_map] at listed
  obtain ⟨_, _, rfl⟩ := Option.map_eq_some_iff.1 listed
  rw [SortedMap.get?_singleton] at present
  split at present
  next same => exact same
  next => cases present

/-- The region of a node and the one that it was told of. -/
structure Placed (n : Node) : Prop where
  heading : ∀ c region, n.call = some c → c.destination = some region → n.region = region
  told : (∀ c, n.call = some c → c.destination = none) → n.regionView.region = n.region

/-- Unless a move is about to give up the cached report, all reports count for the region. -/
def Accounted (n : Node) : Prop :=
  (∀ region, n.call ≠ some (.dropReport region)) → EveryReport (Report.CountsFor · n.region) n

variable {n n' : Node}

theorem Placed.still (told : n.regionView.region = n.region)
    (still : ∀ c, n.call = some c → c.destination = none) : Placed n where
  heading c region calls heads := by
    cases (still c calls).symm.trans heads
  told _ := told

/-- A node that is not moved stays where it was and knows of the same region. -/
theorem Placed.of_unmoved (told : n.regionView.region = n.region) (frame : Frame n n')
    (view : n'.regionView = n.regionView) (unmoved : ∀ c, n'.call = some c → c.isMove = false) :
    Placed n' := by
  have region : n'.region = n.region := congrArg Vertex.region frame.vertex
  refine .still ?_ fun c calls => Call.destination_of_unmoved (unmoved c calls)
  rw [view, told, region]

theorem Frame.accounted (frame : Frame n n') (every : EveryReport (Report.CountsFor · n.region) n) :
    Accounted n' := by
  have region : n'.region = n.region := congrArg Vertex.region frame.vertex
  intro _
  rw [region]
  exact frame.every every

theorem Accounted.of_free (accounted : Accounted n) (free : n.call = none) :
    EveryReport (Report.CountsFor · n.region) n :=
  accounted fun region calls => by cases free.symm.trans calls

end Node

namespace Agent

variable {ν : Type} [Network ν] {a b : Agent ν} {allowed : Agent ν → Prop}

def beginMove (a : Agent ν) (region : RegionName) : Agent ν :=
  { a with node := a.node.beginMove region }

def setPool (a : Agent ν) (isPool : Bool) : Agent ν :=
  { a with node := a.node.setPool isPool }

/-- What can happen to a node that is moved by an outside caller. Only the calls of the caller wait
for each other. The caller goes on where that is allowed. -/
inductive MoveStep (allowed : Agent ν → Prop) : Agent ν → Agent ν → Prop
  | start (a : Agent ν) (free : a.node.call = none) : MoveStep allowed a a.beginStart
  | stop (a : Agent ν) (free : a.node.call = none) : MoveStep allowed a a.beginStop
  | move (a : Agent ν) (region : RegionName) (free : a.node.call = none) :
      MoveStep allowed a (a.beginMove region)
  | pool (a : Agent ν) (isPool : Bool) (free : a.node.call = none) :
      MoveStep allowed a (a.setPool isPool)
  | call (a : Agent ν) (permitted : allowed a) : MoveStep allowed a a.callStep
  | stopInside (a : Agent ν) : MoveStep allowed a a.stopItself
  | thread (a : Agent ν) (m : Moment) (thread : ThreadId) :
      MoveStep allowed a (a.threadStep m thread)
  | traffic (a : Agent ν) (network : ν) : MoveStep allowed a { a with network := network }

/-- The states that a node reaches in the course of moves. -/
inductive Moves (allowed : Agent ν → Prop) : Agent ν → Prop
  | new (vertex : Vertex) (resources : ResourceManager) (window : EstimationWindow) (network : ν) :
      Moves allowed ⟨Node.new vertex resources window, network⟩
  | step {a b : Agent ν} (moves : Moves allowed a) (step : MoveStep allowed a b) : Moves allowed b

/-- A move is about to give up the cached report, and the thread has a report for another region at
hand. -/
def Overtakes (a : Agent ν) : Prop :=
  ∃ region thread r, a.node.call = some (.dropReport region) ∧
    a.node.threads.get? thread = some (.storeReport r) ∧ ¬ r.CountsFor region

open Node (Placed Accounted EveryReport)

/-! ### The region of a node and what it was told -/

theorem placed_callStep (placed : Placed a.node) : Placed a.callStep.node := by
  by_cases unmoved : ∀ c, a.node.call = some c → c.isMove = false
  · obtain ⟨view, still⟩ := a.node.callStep_unmoved a.network unmoved
    have told := placed.told fun c calls => Call.destination_of_unmoved (unmoved c calls)
    exact .of_unmoved told (a.node.callStep_frame a.network) view still
  · obtain ⟨n, net⟩ := a
    cases calls : n.call with
    | none => exact absurd (fun c calls' => by cases calls.symm.trans calls') unmoved
    | some c =>
      cases c with
      | dropReport region =>
        simp only [callStep, Node.callStep, calls]
        refine ⟨fun c' region' calls' heads => ?_, fun still => ?_⟩
        · cases calls'
          exact placed.heading _ region' calls heads
        · cases still _ rfl
      | resetView region =>
        -- what the node is told from here on is of the region that it moved to
        have arrived := placed.heading _ region calls rfl
        simp only [callStep, Node.callStep, calls]
        exact .still arrived.symm (by simp [Call.destination])
      | clearNetwork =>
        have told := placed.told fun c' calls' => by
          cases calls.symm.trans calls'
          rfl
        simp only [callStep, Node.callStep, calls]
        exact .still told (by simp)
      | _ =>
        refine absurd (fun c' calls' => ?_) unmoved
        cases calls.symm.trans calls'
        rfl

theorem placed_step [LawfulNetwork ν] (placed : Placed a.node) (step : MoveStep allowed a b) :
    Placed b.node := by
  have told (free : a.node.call = none) : a.node.regionView.region = a.node.region :=
    placed.told fun c calls => by cases free.symm.trans calls
  cases step with
  | start free =>
    obtain ⟨view, unmoved⟩ := a.node.beginStart_unmoved
    exact .of_unmoved (told free) a.node.beginStart_frame view unmoved
  | stop free =>
    obtain ⟨view, unmoved⟩ := a.node.beginStop_unmoved fun c calls => by
      cases free.symm.trans calls
    exact .of_unmoved (told free) a.node.beginStop_frame view unmoved
  | move region free =>
    refine ⟨fun c region' calls heads => ?_, fun still => ?_⟩
    · cases calls
      exact Option.some.inj heads
    · cases still _ rfl
  | pool isPool free => exact ⟨placed.heading, placed.told⟩
  | call permitted => exact placed_callStep placed
  | stopInside =>
    obtain ⟨control, log, stopped⟩ := a.node.stopItself_frame a.network
    simp only [stopItself, stopped]
    exact ⟨placed.heading, placed.told⟩
  | thread m thread =>
    obtain ⟨vertex, _, _, view, call⟩ := a.node.threadStep_keeps m thread a.network
    refine ⟨fun c region calls heads => ?_, fun still => ?_⟩
    · exact (congrArg Vertex.region vertex).trans
        (placed.heading c region (call.symm.trans calls) heads)
    · have before := placed.told fun c calls => still c (call.trans calls)
      exact (congrArg RegionView.region view).trans
        (before.trans (congrArg Vertex.region vertex).symm)
  | traffic network => exact placed

/-! ### The region of a node and its reports -/

theorem accounted_step [LawfulNetwork ν] (accounted : Accounted a.node) (placed : Placed a.node)
    (step : MoveStep allowed a b) (orderly : allowed a → ¬ Overtakes a) : Accounted b.node := by
  cases step with
  | start free => exact a.node.beginStart_frame.accounted (accounted.of_free free)
  | stop free => exact a.node.beginStop_frame.accounted (accounted.of_free free)
  | move region free => exact fun undropped => absurd rfl (undropped region)
  | pool isPool free =>
    exact fun undropped => ⟨(accounted undropped).cached, (accounted undropped).underway⟩
  | call permitted =>
    by_cases drops : ∃ region, a.node.call = some (.dropReport region)
    · -- the cached report is given up, and the one at hand is for the region that the move is to
      obtain ⟨region, calls⟩ := drops
      have arrived : a.node.region = region := placed.heading _ region calls rfl
      have every : EveryReport (Report.CountsFor · a.node.region)
          { a.node with latestReport := none } := by
        refine ⟨fun r stored => (by cases stored), fun t r underway => ?_⟩
        apply Classical.byContradiction
        intro foreign
        exact orderly permitted ⟨region, t, r, calls, underway, arrived ▸ foreign⟩
      intro _
      simp only [callStep, Node.callStep, calls]
      exact ⟨every.cached, every.underway⟩
    · exact (a.node.callStep_frame a.network).accounted
        (accounted fun region calls => drops ⟨region, calls⟩)
  | stopInside =>
    obtain ⟨control, log, stopped⟩ := a.node.stopItself_frame a.network
    simp only [stopItself, stopped]
    exact fun undropped => ⟨(accounted undropped).cached, (accounted undropped).underway⟩
  | thread m thread =>
    obtain ⟨vertex, _, _, _, call⟩ := a.node.threadStep_keeps m thread a.network
    intro undropped
    -- the region is not moved by the thread, and a new report is for the region as it is
    have every := accounted fun region calls => undropped region (call.trans calls)
    have region : (a.threadStep m thread).node.region = a.node.region :=
      congrArg Vertex.region vertex
    rw [region]
    exact every.threadStep a.node m thread a.network fun now => a.node.countsFor_report now _
  | traffic network => exact accounted

theorem Moves.placed [LawfulNetwork ν] (moves : Moves allowed a) : Placed a.node := by
  induction moves with
  | new vertex resources window network => exact .still rfl (by simp [Node.new])
  | step _ step placed => exact placed_step placed step

theorem Moves.accounted [LawfulNetwork ν] (moves : Moves allowed a)
    (orderly : ∀ b : Agent ν, allowed b → ¬ Overtakes b) : Accounted a.node := by
  induction moves with
  | new vertex resources window network => exact fun _ => .new _ vertex resources window
  | step before step accounted => exact accounted_step accounted before.placed step (orderly _)

/-- Between moves, a node was told of its own region only, and its cached report counts for that
region, as long as no move overtakes a report. -/
theorem report_counts_for_region [LawfulNetwork ν] (moves : Moves allowed a)
    (settled : ∀ c, a.node.call = some c → c.isMove = false) :
    a.node.regionView.region = a.node.region ∧
      ((∀ b : Agent ν, allowed b → ¬ Overtakes b) →
        ∀ r, a.node.latestReport = some r → r.CountsFor a.node.region) := by
  constructor
  · exact moves.placed.told fun c calls => Call.destination_of_unmoved (settled c calls)
  · intro orderly r cached
    have undropped (region : RegionName) : a.node.call ≠ some (.dropReport region) := by
      intro calls
      cases settled _ calls
    exact (moves.accounted orderly undropped).cached r cached

/-! ### A move in the middle of a cycle -/

/-- A node with a service that loads it. -/
def loadedNode : Node :=
  .new { Vertex.new "a" with region := "east" }
    (.ofDocument (.object [(ResourceSection.key, .object [(ResourceSection.serverLoadKey,
      .object [("web", .object [("CPU", .ofFloat 1.0)])])])])) .short

def cycling (steps : Nat) (a : Agent StandIn) : Agent StandIn :=
  steps.repeat (Agent.threadStep ⟨0, []⟩ 0) a

theorem Moves.cycling {allowed : Agent StandIn → Prop} {a : Agent StandIn}
    (moves : Moves allowed a) (steps : Nat) : Moves allowed (a.cycling steps) := by
  induction steps with
  | zero => exact moves
  | succ steps moved => exact .step moved (.thread _ ⟨0, []⟩ 0)

/-- A move with nothing in between. -/
def moved (region : RegionName) (a : Agent StandIn) : Agent StandIn :=
  (a.beginMove region).callStep.callStep.callStep

omit [Network ν] in
theorem not_overtakes (a : Agent ν)
    (empty : a.node.threads.values.all fun | .storeReport _ => false | _ => true) :
    ¬ Overtakes a := by
  rintro ⟨_, thread, r, _, present, _⟩
  cases List.all_eq_true.1 empty _ ((SortedMap.mem_values_iff _ _).2 ⟨thread, present⟩)

/-- A node moves before its report is built: the report counts for the new region. -/
theorem report_counts_for_new_region :
    let launched : Agent StandIn := (Agent.mk loadedNode StandIn.new).beginStart.callStep
    let a := ((launched.cycling 7).moved "west").cycling 2
    a.node.region = "west" ∧ a.node.latestReport.isSome = true ∧
      ∀ r, a.node.latestReport = some r → r.CountsFor a.node.region := by
  intro launched a
  have moves : Moves (fun b => ¬ Overtakes b) a := by
    have started : Moves (fun b : Agent StandIn => ¬ Overtakes b) launched :=
      .step (.step (.new _ _ _ _) (.start _ rfl)) (.call _ (not_overtakes _ (by decide +kernel)))
    refine .cycling (.step (.step (.step (.step (started.cycling 7) (.move _ "west" ?_))
      (.call _ (not_overtakes _ ?_))) (.call _ (not_overtakes _ ?_)))
      (.call _ (not_overtakes _ ?_))) 2
    all_goals decide +kernel
  have free : a.node.call = none := by decide +kernel
  refine ⟨by decide +kernel, by decide +kernel, ?_⟩
  exact (report_counts_for_region moves (by simp [free])).2 fun _ => id

/-- A node moves after its report was built: the report for the old region is cached and stays. -/
theorem report_of_old_region_cached :
    ∃ a : Agent StandIn, Moves (fun _ => True) a ∧ a.node.call = none ∧
      ∃ r, a.node.latestReport = some r ∧ ¬ r.CountsFor a.node.region := by
  let launched : Agent StandIn := (Agent.mk loadedNode StandIn.new).beginStart.callStep
  let a := ((launched.cycling 8).moved "west").cycling 1
  have moves : Moves (fun _ => True) a := by
    have started : Moves (fun _ => True) launched :=
      .step (.step (.new _ _ _ _) (.start _ rfl)) (.call _ trivial)
    refine .cycling (.step (.step (.step (.step (started.cycling 8) (.move _ "west" ?_))
      (.call _ trivial)) (.call _ trivial)) (.call _ trivial)) 1
    decide +kernel
  refine ⟨a, moves, by decide +kernel, loadedNode.report 0 .short, by decide +kernel, ?_⟩
  intro counts
  let load : NodeLoad Float := SortedMap.singleton .cpu 1.0
  have west : "east" = a.node.region :=
    counts "web" (SortedMap.singleton "east" load) (.inl (by decide +kernel)) "east" load
      (by decide +kernel)
  revert west
  decide +kernel

end Agent

end RegionNet
