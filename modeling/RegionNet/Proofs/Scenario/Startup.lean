import RegionNet.Proofs.Node.Startup
import RegionNet.Proofs.Scenario.Outcome
import RegionNet.Proofs.SortedMap.Total

/-!
# All nodes are started, or none

A run starts the nodes in the order of their names. If one of them does not start, those before it
are told to stop, and the run ends with the error when their stops have returned. The nodes may have
any past: some execute already, some were stopped or have failed and left a thread behind. And they
may fail at any time meanwhile, so that a node that executed before is started anew, or one that was
started has failed when it is told to stop.
-/

namespace RegionNet

namespace Fleet

theorem keys_withNode (f : Fleet) (name : NodeName) (act : Node → Fabric → Node × Fabric) :
    (f.withNode name act).graph.nodes.keys = f.graph.nodes.keys :=
  SortedMap.keys_eq_of_contains _ _ fun v => f.contains_withNode name v act

/-- Names that are listed once each. -/
structure Apart (before : List NodeName) (name : NodeName) (after : List NodeName) : Prop where
  once : before.Nodup
  not_before : name ∉ before
  not_after : name ∉ after
  disjoint : ∀ v ∈ before, v ∉ after

theorem apart_of_keys {f : Fleet} {before after : List NodeName} {name : NodeName}
    (order : f.graph.nodes.keys = before ++ name :: after) : Apart before name after := by
  have once : (before ++ name :: after).Nodup := order ▸ SortedMap.keys_nodup _
  obtain ⟨first, last, apart⟩ := List.nodup_append.1 once
  refine ⟨first, fun member => ?_, (List.nodup_cons.1 last).1, fun v member later => ?_⟩
  · exact apart name member name List.mem_cons_self rfl
  · exact apart v member v (List.mem_cons_of_mem name later) rfl

theorem Lived.consistent {f : Fleet} (lived : f.Lived) : f.EachNode fun _ n => n.Consistent :=
  fun v n present => .of_sane (lived.sound v n present).2

end Fleet

namespace Stage

/-- Is the start of all over, and was it a success? -/
def isBeyond : Stage → Bool
  | .start .. | .starting .. | .undo .. | .ended (.error _) => false
  | _ => true

/-- What a start of all has returned, if it has returned just now. -/
def startResult? : Stage → Option (Except LifecycleError Unit)
  | .start _ [] => some (.ok ())
  | .ended (.error e) => some (.error e)
  | _ => none

theorem eq_of_startResult_ok {stage : Stage} (returned : stage.startResult? = some (.ok ())) :
    ∃ started, stage = .start started [] := by
  simp only [startResult?] at returned
  split at returned
  next started => exact ⟨started, rfl⟩
  next => cases returned
  next => cases returned

theorem eq_of_startResult_error {stage : Stage} {e : LifecycleError}
    (returned : stage.startResult? = some (.error e)) : stage = .ended (.error e) := by
  simp only [startResult?] at returned
  split at returned
  next => cases returned
  next =>
    cases returned
    rfl
  next => cases returned

/-- Before the nodes in `rest` are started. -/
def between (rest : List NodeName) (v : NodeName) : Status :=
  if v ∈ rest then .untouched else .started

def during (name : NodeName) (rest : List NodeName) (v : NodeName) : Status :=
  if v = name then .starting else between rest v

/-- What was started `before` the error, and is not `pending` any more, was told to stop. -/
def undoing (e : LifecycleError) (pending before after : List NodeName) (v : NodeName) : Status :=
  if v ∈ pending then .started else if v ∈ before then .stopping
  else if v ∈ after then .untouched else .refused e

def undone (e : LifecycleError) (before after : List NodeName) (v : NodeName) : Status :=
  if v ∈ before then .stopped else if v ∈ after then .untouched else .refused e

/-- The stages of a start of all and of its undoing, with the status that they give to each node. -/
inductive Casts (names : List NodeName) : Stage → (NodeName → Status) → Prop
  | start (started rest : List NodeName) (order : names = started ++ rest) :
      Casts names (.start started rest) (between rest)
  | starting (started : List NodeName) (name : NodeName) (rest : List NodeName)
      (order : names = started ++ name :: rest) :
      Casts names (.starting started name rest) (during name rest)
  | undo (before : List NodeName) (culprit : NodeName) (after : List NodeName)
      (order : names = before ++ culprit :: after) (e : LifecycleError)
      (pending told : List NodeName) (once : pending.Nodup) (within : ∀ v ∈ pending, v ∈ before)
      (all : ∀ v ∈ before, v ∈ pending ∨ v ∈ told) :
      Casts names (.undo e pending told) (undoing e pending before after)
  | undone (before : List NodeName) (culprit : NodeName) (after : List NodeName)
      (order : names = before ++ culprit :: after) (e : LifecycleError) :
      Casts names (.ended (.error e)) (undone e before after)

end Stage

namespace Scenario

/-- A move, and what the system answers if a node is started in it. -/
structure Turn where
  move : Move
  answer : Answer

def turn (s : Scenario) (t : Turn) : Scenario :=
  match t.move with
  | .call name => s.withNode name (Node.answered t.answer)
  | move => s.step move

/-- In the move a thread marks its node as failed. -/
def Fails (s : Scenario) : Move → NodeName → Prop
  | .thread name thread _, v => v = name ∧
      ∃ n, s.graph.nodes.get? name = some n ∧ n.threads.get? thread = some .markFailed
  | _, _ => False

/-- The node has failed in one of the turns. -/
def Failed (s : Scenario) (turns : List Turn) (v : NodeName) : Prop :=
  ∃ before t after, turns = before ++ t :: after ∧ (before.foldl turn s).Fails t.move v

/-- The system has denied a thread in one of the turns, with the error. -/
def Denied (turns : List Turn) (e : LifecycleError) : Prop :=
  ∃ t ∈ turns, t.answer.denied = some e

/-- The node is what its status says, compared with the node of that name before. -/
def Plays (failed : NodeName → Prop) (denied : LifecycleError → Prop) (f₀ : Fleet)
    (status : Status) (v : NodeName) (n : Node) : Prop :=
  n.Consistent ∧ ∃ n₀, f₀.graph.nodes.get? v = some n₀ ∧ status.Holds (failed v) denied n₀ n

/-- A start of all that began with `f₀`, while it goes on or is undone. -/
structure Follows (failed : NodeName → Prop) (denied : LifecycleError → Prop) (f₀ : Fleet)
    (status : NodeName → Status) (s : Scenario) : Prop where
  casts : s.stage.Casts f₀.graph.nodes.keys status
  names : s.names = f₀.graph.nodes.keys
  nodes : s.fleet.EachNode fun v n => Plays failed denied f₀ (status v) v n

/-- A start of all at any time, also when it has succeeded. -/
def Accounted (failed : NodeName → Prop) (denied : LifecycleError → Prop) (f₀ : Fleet)
    (s : Scenario) : Prop :=
  s.stage.isBeyond = true ∨ ∃ status, Follows failed denied f₀ status s

section

variable {failed : NodeName → Prop} {denied : LifecycleError → Prop} {f₀ : Fleet}
  {status : NodeName → Status} {s : Scenario}

theorem Follows.restage (follows : Follows failed denied f₀ status s) (stage : Stage)
    {status' : NodeName → Status} (casts : stage.Casts f₀.graph.nodes.keys status')
    (same : ∀ v n₀ n, s.graph.nodes.get? v = some n → (status v).Holds (failed v) denied n₀ n →
      (status' v).Holds (failed v) denied n₀ n) :
    Follows failed denied f₀ status' { s with stage := stage } where
  casts := casts
  names := follows.names
  nodes v n present := by
    obtain ⟨consistent, n₀, present₀, holds⟩ := follows.nodes v n present
    exact ⟨consistent, n₀, present₀, same v n₀ n present holds⟩

/-- One node does something, and the run may go on to another stage. -/
theorem Follows.act (follows : Follows failed denied f₀ status s) (name : NodeName)
    (act : Node → Fabric → Node × Fabric) (stage : Stage) {status' : NodeName → Status}
    (casts : stage.Casts f₀.graph.nodes.keys status')
    (own : ∀ n₀ n, s.graph.nodes.get? name = some n → n.Consistent →
      (status name).Holds (failed name) denied n₀ n →
        (act n s.fleet.fabric).1.Consistent ∧
          (status' name).Holds (failed name) denied n₀ (act n s.fleet.fabric).1)
    (others : ∀ v, v ≠ name → status' v = status v) :
    Follows failed denied f₀ status' { s.withNode name act with stage := stage } where
  casts := casts
  names := (s.fleet.keys_withNode name act).trans follows.names
  nodes := by
    intro v n' present
    have found : (s.fleet.withNode name act).graph.nodes.get? v = some n' := present
    rw [Fleet.nodes_withNode] at found
    split at found
    next same =>
      subst same
      obtain ⟨n, here, rfl⟩ := Option.map_eq_some_iff.1 found
      obtain ⟨consistent, n₀, present₀, holds⟩ := follows.nodes v n here
      obtain ⟨after, holds'⟩ := own n₀ n here consistent holds
      exact ⟨after, n₀, present₀, holds'⟩
    next other =>
      rw [others v other]
      exact follows.nodes v n' found

/-- What is done at a node within its status. -/
theorem Follows.within (follows : Follows failed denied f₀ status s) (name : NodeName)
    (act : Node → Fabric → Node × Fabric)
    (own : ∀ n₀ n, s.graph.nodes.get? name = some n → n.Consistent →
      (status name).Holds (failed name) denied n₀ n →
        (act n s.fleet.fabric).1.Consistent ∧
          (status name).Holds (failed name) denied n₀ (act n s.fleet.fabric).1) :
    Follows failed denied f₀ status (s.withNode name act) :=
  follows.act name act s.stage follows.casts own fun _ _ => rfl

theorem Follows.mem_names (follows : Follows failed denied f₀ status s) {v : NodeName} {n : Node}
    (present : s.graph.nodes.get? v = some n) : v ∈ f₀.graph.nodes.keys :=
  follows.names ▸ mem_names_of_present present

/-! ### The next step of the run -/

/-- A start of all that has succeeded is over. -/
theorem isBeyond_advance (beyond : s.stage.isBeyond = true) : s.advance.stage.isBeyond = true := by
  cases stage : s.stage with
  | start | starting | undo =>
    rw [stage] at beyond
    cases beyond
  | check rest =>
    cases termination : s.termination with
    | never => simp only [Scenario.advance, stage, termination, Stage.isBeyond]
    | other =>
      rw [stage] at beyond
      simp only [Scenario.advance, stage, termination]
      exact beyond
    | completed minimum =>
      cases rest with
      | nil => simp only [Scenario.advance, stage, termination, Stage.isBeyond]
      | cons name rest =>
        simp only [Scenario.advance, stage, termination]
        split <;> rfl
  | count name rest =>
    cases termination : s.termination with
    | never | other => simp only [Scenario.advance, stage, termination, Stage.isBeyond]
    | completed minimum =>
      simp only [Scenario.advance, stage, termination]
      split <;> rfl
  | pause => simp only [Scenario.advance, stage, Stage.isBeyond]
  | stop timedOut pending told =>
    cases pending with
    | nil =>
      simp only [Scenario.advance, stage]
      split
      · rfl
      · exact beyond
    | cons name pending =>
      rw [stage] at beyond
      simp only [Scenario.advance, stage]
      exact beyond
  | ended result =>
    rw [stage] at beyond
    simp only [Scenario.advance, stage]
    exact beyond

theorem isBeyond_tellStop (beyond : s.stage.isBeyond = true) (name : NodeName) :
    (s.tellStop name).stage.isBeyond = true := by
  rw [Scenario.tellStop]
  split
  next stage =>
    rw [stage] at beyond
    cases beyond
  next =>
    split
    · rfl
    · exact beyond
  next => exact beyond

theorem Follows.advance_start {started : List NodeName} {name : NodeName} {rest : List NodeName}
    (order : f₀.graph.nodes.keys = started ++ name :: rest)
    (follows : Follows failed denied f₀ (Stage.between (name :: rest)) s) :
    Follows failed denied f₀ (Stage.during name rest)
      { s.withNode name fun n fabric => (n.beginStart, fabric) with
        stage := .starting started name rest } := by
  refine follows.act name _ _ (.starting started name rest order) ?_ fun v other => ?_
  · intro n₀ n _ consistent holds
    rw [Stage.between, if_pos List.mem_cons_self] at holds
    rw [Stage.during, if_pos rfl]
    exact holds.beginStart consistent
  · simp only [Stage.during, Stage.between, List.mem_cons, other, false_or, if_false]

section

variable {started : List NodeName} {name : NodeName} {rest : List NodeName}
  (order : f₀.graph.nodes.keys = started ++ name :: rest)
  (follows : Follows failed denied f₀ (Stage.during name rest) s) {n : Node}
  (here : s.graph.nodes.get? name = some n) (free : n.call = none)
include order follows here free

/-- The node has started and is one of those that were started. -/
theorem Follows.advance_started (result : n.startResult = .ok ()) :
    Follows failed denied f₀ (Stage.between rest)
      { s with stage := .start (started ++ [name]) rest } := by
  have apart := Fleet.apart_of_keys order
  refine follows.restage _ (.start (started ++ [name]) rest (by simp [order])) ?_
  intro v n₀ n' present holds
  rw [Stage.during] at holds
  by_cases same : v = name
  · subst same
    cases here.symm.trans present
    rw [if_pos rfl] at holds
    rw [Stage.between, if_neg apart.not_after]
    exact Node.Awaited.started_of_ok holds free result
  · rwa [if_neg same] at holds

/-- The node has not started: it is the culprit. -/
theorem Follows.advance_refused {e : LifecycleError} (result : n.startResult = .error e) :
    Follows failed denied f₀ (Stage.undoing e started started rest)
      { s with stage := .undo e started [] } := by
  have apart := Fleet.apart_of_keys order
  refine follows.restage _ (.undo started name rest order e started [] apart.once
    (fun _ => id) fun _ => .inl) ?_
  intro v n₀ n' present holds
  rw [Stage.during] at holds
  rw [Stage.undoing]
  by_cases same : v = name
  · subst same
    cases here.symm.trans present
    rw [if_pos rfl] at holds
    rw [if_neg apart.not_before, if_neg apart.not_before, if_neg apart.not_after]
    exact Node.Awaited.refused_of_error holds free result
  · rw [if_neg same, Stage.between] at holds
    have listed := follows.mem_names present
    rw [order, List.mem_append, List.mem_cons] at listed
    rcases listed with before | rfl | after
    · -- those that were started are to be told to stop
      rw [if_neg (apart.disjoint v before)] at holds
      rwa [if_pos before]
    · exact absurd rfl same
    · -- the run has not come to the node, and it never will
      have unstarted : v ∉ started := fun earlier => apart.disjoint v earlier after
      rw [if_pos after] at holds
      rwa [if_neg unstarted, if_neg unstarted, if_pos after]

end

section

variable {before after : List NodeName} {culprit : NodeName}
  (order : f₀.graph.nodes.keys = before ++ culprit :: after) {e : LifecycleError}
include order

/-- All stops have returned. -/
theorem Follows.advance_undone {told : List NodeName} (all : ∀ v ∈ before, v ∈ told)
    (free : s.areFree told = true)
    (follows : Follows failed denied f₀ (Stage.undoing e [] before after) s) :
    Follows failed denied f₀ (Stage.undone e before after)
      { s with stage := .ended (.error e) } := by
  refine follows.restage _ (.undone before culprit after order e) ?_
  intro v n₀ n present holds
  rw [Stage.undoing, if_neg List.not_mem_nil] at holds
  rw [Stage.undone]
  split
  next member =>
    -- the node was told to stop, and no call is in progress at it
    have returned := List.all_eq_true.1 free v (all v member)
    rw [present, Option.all_some, Option.isNone_iff_eq_none] at returned
    rw [if_pos member] at holds
    exact ⟨holds.1, returned⟩
  next other => rwa [if_neg other] at holds

/-- A pending node is told to stop, and is pending no more. -/
theorem Follows.tellStop {pending told : List NodeName} (once : pending.Nodup)
    (within : ∀ v ∈ pending, v ∈ before) (all : ∀ v ∈ before, v ∈ pending ∨ v ∈ told)
    {name : NodeName} (member : name ∈ pending)
    (follows : Follows failed denied f₀ (Stage.undoing e pending before after) s) :
    Follows failed denied f₀ (Stage.undoing e (pending.erase name) before after)
      { s.withNode name fun n fabric => (n.beginStop, fabric) with
        stage := .undo e (pending.erase name) (name :: told) } := by
  have all' (v : NodeName) (listed : v ∈ before) : v ∈ pending.erase name ∨ v ∈ name :: told := by
    by_cases same : v = name
    · exact .inr (same ▸ List.mem_cons_self)
    · rw [List.mem_erase_of_ne same]
      exact (all v listed).imp_right (List.mem_cons_of_mem name)
  have within' (v : NodeName) (later : v ∈ pending.erase name) : v ∈ before :=
    within v (List.mem_of_mem_erase later)
  have casts := Stage.Casts.undo before culprit after order e (pending.erase name) (name :: told)
    (once.erase name) within' all'
  refine follows.act name _ _ casts (fun n₀ n _ consistent holds => ?_) fun v other => ?_
  · rw [Stage.undoing, if_pos member] at holds
    rw [Stage.undoing, if_neg once.not_mem_erase, if_pos (within name member)]
    exact holds.beginStop consistent
  · simp only [Stage.undoing, List.mem_erase_of_ne other]

end

/-! ### Turns -/

theorem Accounted.advance (accounted : Accounted failed denied f₀ s) :
    Accounted failed denied f₀ s.advance := by
  rcases accounted with beyond | ⟨status, follows⟩
  · exact .inl (isBeyond_advance beyond)
  have casts := follows.casts
  generalize stage : s.stage = current at casts
  cases casts with
  | start started rest order =>
    cases rest with
    | nil =>
      simp only [Scenario.advance, stage]
      exact .inl rfl
    | cons name rest =>
      simp only [Scenario.advance, stage]
      exact .inr ⟨_, follows.advance_start order⟩
  | starting started name rest order =>
    simp only [Scenario.advance, stage]
    split
    next missing =>
      -- the nodes are the same as before, and this is the name of one
      have listed : name ∈ s.names := by rw [follows.names, order]; simp
      have present := (SortedMap.mem_keys_iff _ name).1 listed
      rw [missing] at present
      cases present
    next n here =>
      split
      next => exact .inr ⟨_, follows⟩
      next free result => exact .inr ⟨_, follows.advance_started order here free result⟩
      next e free result => exact .inr ⟨_, follows.advance_refused order here free result⟩
  | undo before culprit after order e pending told once within all =>
    cases pending with
    | cons name pending =>
      simp only [Scenario.advance, stage]
      exact .inr ⟨_, follows⟩
    | nil =>
      simp only [Scenario.advance, stage]
      split
      next free =>
        have all' (v : NodeName) (member : v ∈ before) : v ∈ told :=
          (all v member).resolve_left List.not_mem_nil
        exact .inr ⟨_, follows.advance_undone order all' free⟩
      next => exact .inr ⟨_, follows⟩
  | undone before culprit after order e =>
    simp only [Scenario.advance, stage]
    exact .inr ⟨_, follows⟩

theorem Accounted.tellStop (accounted : Accounted failed denied f₀ s) (name : NodeName) :
    Accounted failed denied f₀ (s.tellStop name) := by
  rcases accounted with beyond | ⟨status, follows⟩
  · exact .inl (isBeyond_tellStop beyond name)
  have casts := follows.casts
  generalize stage : s.stage = current at casts
  cases casts with
  | undo before culprit after order e pending told once within all =>
    simp only [Scenario.tellStop, stage]
    split
    next member => exact .inr ⟨_, follows.tellStop order once within all member⟩
    next => exact .inr ⟨_, follows⟩
  | _ =>
    simp only [Scenario.tellStop, stage]
    exact .inr ⟨_, follows⟩

theorem Accounted.within (accounted : Accounted failed denied f₀ s) (name : NodeName)
    (act : Node → Fabric → Node × Fabric)
    (own : ∀ (status : Status) n₀ n, s.graph.nodes.get? name = some n → n.Consistent →
      status.Holds (failed name) denied n₀ n →
        (act n s.fleet.fabric).1.Consistent ∧
          status.Holds (failed name) denied n₀ (act n s.fleet.fabric).1) :
    Accounted failed denied f₀ (s.withNode name act) := by
  rcases accounted with beyond | ⟨status, follows⟩
  · exact .inl beyond
  · exact .inr ⟨status, follows.within name act (own (status name))⟩

/-- What is in flight does not count. -/
theorem Accounted.of_same {s' : Scenario} (accounted : Accounted failed denied f₀ s)
    (stage : s'.stage = s.stage) (graph : s'.fleet.graph = s.fleet.graph) :
    Accounted failed denied f₀ s' := by
  rcases accounted with beyond | ⟨status, casts, names, nodes⟩
  · exact .inl (stage ▸ beyond)
  · refine .inr ⟨status, stage ▸ casts, ?_, ?_⟩
    · rw [Scenario.names, Scenario.graph, graph]
      exact names
    · rw [Fleet.EachNode, graph]
      exact nodes

theorem Accounted.turn (accounted : Accounted failed denied f₀ s) (t : Turn)
    (callFree : t.move.IsCallFree) (fails : ∀ v, s.Fails t.move v → failed v)
    (denies : ∀ e, t.answer.denied = some e → denied e) :
    Accounted failed denied f₀ (s.turn t) := by
  obtain ⟨move, answer⟩ := t
  cases move with
  | thread name thread m =>
    refine accounted.within name _ fun status n₀ n here consistent holds => ?_
    have unstopped : .stop ∉ m.acts := fun member => nomatch callFree .stop member
    exact ⟨consistent.threadStep m unstopped thread s.fleet.fabric,
      holds.threadStep m callFree thread (fun marked => fails name ⟨rfl, n, here, marked⟩) _⟩
  | call name =>
    exact accounted.within name _ fun status n₀ n _ consistent holds =>
      holds.answered consistent answer denies s.fleet.fabric
  | run => exact accounted.advance
  | tellStop name => exact accounted.tellStop name
  | answer met =>
    simp only [Scenario.turn, Scenario.step]
    split
    next =>
      left
      cases met <;> rfl
    next => exact accounted
  | expire =>
    simp only [Scenario.turn, Scenario.step]
    split
    next => exact .inl rfl
    next => exact accounted
  | deliver index => exact accounted.of_same rfl rfl
  | lose index => exact accounted.of_same rfl rfl

theorem Failed.cons {t : Turn} {turns : List Turn} {v : NodeName}
    (later : (s.turn t).Failed turns v) : s.Failed (t :: turns) v := by
  obtain ⟨before, t', after, rfl, fails⟩ := later
  exact ⟨t :: before, t', after, rfl, fails⟩

theorem Accounted.run (accounted : Accounted failed denied f₀ s) (turns : List Turn)
    (callFree : ∀ t ∈ turns, t.move.IsCallFree) (fails : ∀ v, s.Failed turns v → failed v)
    (denies : ∀ e, Denied turns e → denied e) :
    Accounted failed denied f₀ (turns.foldl Scenario.turn s) := by
  induction turns generalizing s with
  | nil => exact accounted
  | cons t turns ih =>
    have next := accounted.turn t (callFree t List.mem_cons_self)
      (fun v here => fails v ⟨[], t, turns, rfl, here⟩)
      fun e here => denies e ⟨t, List.mem_cons_self, here⟩
    rw [List.foldl_cons]
    apply ih next
    · exact fun t' member => callFree t' (List.mem_cons_of_mem t member)
    · exact fun v later => fails v later.cons
    · rintro e ⟨t', member, without⟩
      exact denies e ⟨t', List.mem_cons_of_mem t member, without⟩

theorem accounted_new (failed : NodeName → Prop) (denied : LifecycleError → Prop) (f : Fleet)
    (before : f.EachNode fun _ n => n.Consistent ∧ n.call = none) (termination : Termination) :
    Accounted failed denied f (new f termination) := by
  refine .inr ⟨_, .start [] f.graph.nodes.keys rfl, rfl, fun v n present => ?_⟩
  obtain ⟨consistent, free⟩ := before v n present
  have listed : v ∈ f.graph.nodes.keys := mem_names_of_present (s := new f termination) present
  rw [Stage.between, if_pos listed]
  exact ⟨consistent, n, present, free, .refl, .refl _ n⟩

end

/-! ### What is left of a start of all -/

/-- What a start of all leaves that has returned an error, the one of the first node that did not
start. -/
structure TakenBack (failed : NodeName → Prop) (denied : LifecycleError → Prop) (f f' : Fleet)
    (e : LifecycleError) (before : List NodeName) (culprit : NodeName) (after : List NodeName) :
    Prop where
  order : f.graph.nodes.keys = before ++ culprit :: after
  nodes : ∀ v n₀, f.graph.nodes.get? v = some n₀ → ∃ n, f'.graph.nodes.get? v = some n ∧
    n.call = none ∧ n₀.Restored (failed v) n ∧
    (v ∈ before → n₀.Undone (failed v) n ∧ ∀ t, n.isLive t = false) ∧
    (v = culprit → n₀.Refused (failed v) denied e n) ∧ (v ∈ after → n₀.LeftAlone n)

/-- A start of all has started every node, or what it did is taken back. -/
structure AllOrNone (failed : NodeName → Prop) (denied : LifecycleError → Prop) (f : Fleet)
    (s : Scenario) : Prop where
  all : s.stage.startResult? = some (.ok ()) → ∀ v n₀, f.graph.nodes.get? v = some n₀ →
    ∃ n, s.fleet.graph.nodes.get? v = some n ∧ n₀.Started (failed v) n ∧
      (n.isExecuting = true ∨ failed v)
  none : ∀ e, s.stage.startResult? = some (.error e) →
    ∃ before culprit after, TakenBack failed denied f s.fleet e before culprit after

section

variable {failed : NodeName → Prop} {denied : LifecycleError → Prop} {f₀ : Fleet}
  {status : NodeName → Status} {s : Scenario}

/-- No node is lost. -/
theorem Follows.exists_node (follows : Follows failed denied f₀ status s) {v : NodeName} {n₀ : Node}
    (present₀ : f₀.graph.nodes.get? v = some n₀) :
    ∃ n, s.graph.nodes.get? v = some n ∧ n.Consistent ∧
      (status v).Holds (failed v) denied n₀ n := by
  have listed : v ∈ s.names := by
    rw [follows.names, SortedMap.mem_keys_iff, present₀, Option.isSome_some]
  obtain ⟨n, present⟩ := Option.isSome_iff_exists.1 ((SortedMap.mem_keys_iff _ v).1 listed)
  obtain ⟨consistent, n₀', present₀', holds⟩ := follows.nodes v n present
  cases present₀.symm.trans present₀'
  exact ⟨n, present, consistent, holds⟩

theorem Follows.takenBack (before₀ : f₀.EachNode fun _ n => n.Consistent) {e : LifecycleError}
    {before after : List NodeName} {culprit : NodeName}
    (order : f₀.graph.nodes.keys = before ++ culprit :: after)
    (follows : Follows failed denied f₀ (Stage.undone e before after) s) :
    TakenBack failed denied f₀ s.fleet e before culprit after where
  order := order
  nodes v n₀ present₀ := by
    obtain ⟨n, present, consistent, holds⟩ := follows.exists_node present₀
    have apart := Fleet.apart_of_keys order
    have listed : v ∈ before ++ culprit :: after := by
      rw [← order, SortedMap.mem_keys_iff, present₀, Option.isSome_some]
    have consistent₀ := before₀ v n₀ present₀
    refine ⟨n, present, ?_⟩
    rw [Stage.undone] at holds
    rw [List.mem_append, List.mem_cons] at listed
    rcases listed with member | rfl | member
    · -- the node was started, and its stop has returned
      rw [if_pos member] at holds
      obtain ⟨undone, free⟩ := holds
      refine ⟨free, undone.restored consistent₀ consistent free,
        fun _ => ⟨undone, undone.isLive consistent free⟩, fun same => ?_, fun later => ?_⟩
      · exact absurd (same ▸ member) apart.not_before
      · exact absurd later (apart.disjoint v member)
    · rw [if_neg apart.not_before, if_neg apart.not_after] at holds
      exact ⟨holds.free, holds.toUnmoved.restored consistent₀ consistent,
        fun earlier => absurd earlier apart.not_before, fun _ => holds,
        fun later => absurd later apart.not_after⟩
    · -- the run has not come to the node
      have unstarted : v ∉ before := fun earlier => apart.disjoint v earlier member
      rw [if_neg unstarted, if_pos member] at holds
      obtain ⟨free, alone, unmoved⟩ := holds
      refine ⟨free, unmoved.restored consistent₀ consistent,
        fun earlier => absurd earlier unstarted, fun same => ?_, fun _ => alone⟩
      exact absurd (same ▸ member) apart.not_after

theorem Accounted.allOrNone (accounted : Accounted failed denied f₀ s)
    (before₀ : f₀.EachNode fun _ n => n.Consistent) : AllOrNone failed denied f₀ s := by
  constructor
  case all =>
    intro returned v n₀ present₀
    obtain ⟨started, stage⟩ := Stage.eq_of_startResult_ok returned
    rcases accounted with beyond | ⟨status, follows⟩
    · rw [stage] at beyond
      cases beyond
    have casts := follows.casts
    rw [stage] at casts
    cases casts
    obtain ⟨n, present, consistent, holds⟩ := follows.exists_node present₀
    rw [Stage.between, if_neg List.not_mem_nil] at holds
    refine ⟨n, present, holds, ?_⟩
    rw [consistent.isExecuting_iff]
    exact holds.executing
  case none =>
    intro e returned
    have stage := Stage.eq_of_startResult_error returned
    rcases accounted with beyond | ⟨status, follows⟩
    · rw [stage] at beyond
      cases beyond
    have casts := follows.casts
    rw [stage] at casts
    cases casts with
    | undone before culprit after order e =>
      exact ⟨before, culprit, after, follows.takenBack before₀ order⟩

end

/-- In whatever order the run, the calls, the threads and the network take their steps, whatever the
nodes have done before, and whatever fails meanwhile: a start of all that returns has started every
node, or what it did is taken back. Then the error is that of the first node that did not start. The
nodes before it were started and are stopped again, and those after it are left alone. -/
theorem all_or_none_of_start (f : Fleet)
    (before : f.EachNode fun _ n => n.Consistent ∧ n.call = none) (termination : Termination)
    (turns : List Turn) (callFree : ∀ t ∈ turns, t.move.IsCallFree) :
    AllOrNone ((new f termination).Failed turns) (Denied turns) f
      (turns.foldl turn (new f termination)) := by
  have accounted := accounted_new ((new f termination).Failed turns) (Denied turns) f before
    termination
  have after := accounted.run turns callFree (fun _ => id) fun _ => id
  exact after.allOrNone fun v n present => (before v n present).1

/-- The second one of two nodes executes already. -/
def halfStarted : Fleet :=
  ((Fleet.ofGraph Fleet.pair).withNode "b" Deed.start.act).withNode "b"
    (Deed.call ⟨some (.loopback 3), true⟩).act

/-- The first node is started, the second one is refused, and the first one is told to stop. -/
def refusedStart : List Turn :=
  let a : Move := .call "a"
  [.run, a, .run, .run, .run, .tellStop "a", a, a, .thread "a" 0 ⟨0, []⟩, a, a, .run].map
    fun move => ⟨move, ⟨some (.loopback 7), true⟩, none⟩

/-- The node that executed before still does, and the one that was started does not. -/
theorem all_or_none_of_half_started :
    let s := refusedStart.foldl turn (new halfStarted .never)
    s.stage.startResult? = some (.error (.alreadyExecuting "b")) ∧
      (halfStarted.graph.nodes.get? "b").any Node.isExecuting = true ∧
      (s.fleet.graph.nodes.get? "b").any Node.isExecuting = true ∧
      ∃ a, s.fleet.graph.nodes.get? "a" = some a ∧ a.spawned = 1 ∧ a.isExecuting = false := by
  intro s
  have fresh : (Fleet.ofGraph Fleet.pair).Lived :=
    .new _ (Graph.assembled_ofText ..).unused fun _ => rfl
  have lived : halfStarted.Lived := by
    obtain ⟨n, here⟩ := (SortedMap.contains_iff (Fleet.ofGraph Fleet.pair).graph.nodes "b").1
      (by decide +kernel)
    obtain ⟨vertex, resources, window, rfl, _⟩ :=
      (Graph.assembled_ofText ..).unused "b" n here
    have begun := fresh.deed "b" _ here .start rfl
    obtain ⟨n', here'⟩ := (SortedMap.contains_iff
      ((Fleet.ofGraph Fleet.pair).withNode "b" Deed.start.act).graph.nodes "b").1
      (by decide +kernel)
    exact begun.deed "b" n' here' (.call ⟨some (.loopback 3), true⟩) trivial
  have free : (new halfStarted .never).areFree halfStarted.graph.nodes.keys = true := by
    decide +kernel
  have before : halfStarted.EachNode fun _ n => n.Consistent ∧ n.call = none := by
    intro v n present
    have listed := (SortedMap.mem_keys_iff _ v).2 (Option.isSome_iff_exists.2 ⟨n, present⟩)
    have idle := List.all_eq_true.1 free v listed
    have here : (new halfStarted .never).graph.nodes.get? v = some n := present
    rw [here, Option.all_some, Option.isNone_iff_eq_none] at idle
    exact ⟨lived.consistent v n present, idle⟩
  have returned : s.stage.startResult? = some (.error (.alreadyExecuting "b")) := by
    decide +kernel
  have allOrNone : AllOrNone ((new halfStarted .never).Failed refusedStart) (Denied refusedStart)
      halfStarted s :=
    all_or_none_of_start halfStarted before .never refusedStart (by decide +kernel)
  obtain ⟨_, _, _, takenBack⟩ := allOrNone.none _ returned
  have rested : (halfStarted.graph.nodes.get? "a").any Node.isExecuting = false := by
    decide +kernel
  obtain ⟨n₀, present₀⟩ := (SortedMap.contains_iff halfStarted.graph.nodes "a").1
    (by decide +kernel)
  obtain ⟨a, present, _, restored, _⟩ := takenBack.nodes "a" n₀ present₀
  have spawned : (s.fleet.graph.nodes.get? "a").all (fun n => n.spawned = 1) = true := by
    decide +kernel
  rw [present₀, Option.any_some] at rested
  rw [present, Option.all_some, decide_eq_true_eq] at spawned
  exact ⟨returned, by decide +kernel, by decide +kernel, a, present, spawned,
    restored.resting rested⟩

end Scenario

end RegionNet
