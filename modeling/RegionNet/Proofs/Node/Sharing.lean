import RegionNet.Proofs.Node.Lifecycle

/-!
# What a node reads and shares

In each cycle of its engine a node reads what it knows of its neighbors and shares one message. The
message is numbered by the cycles that the node has completed, while the heartbeat counts its own
rounds. The two numbers are equal: a thread that shared goes on to count its cycle whatever happens,
and no other thread of the node is alive.
-/

namespace RegionNet

def Event.read? : Event → Option (SortedMap NodeName NeighborState)
  | .engineRead states => some states
  | _ => none

def Event.share? : Event → Option (UInt64 × SortedMap String Float)
  | .share round values => some (round, values)
  | _ => none

namespace Node

/-- What the engine read of the neighbors, one cycle after the other. -/
def reads (n : Node) : List (SortedMap NodeName NeighborState) :=
  n.log.filterMap Event.read?

/-- What the engine shared, one cycle after the other. -/
def shares (n : Node) : List (UInt64 × SortedMap String Float) :=
  n.log.filterMap Event.share?

theorem vertex_emit (n : Node) (e : Event) : (n.emit e).vertex = n.vertex := rfl

/-- Nothing was read, shared or counted. -/
structure Silent (n n' : Node) : Prop where
  vertex : n'.vertex = n.vertex
  heartbeat : n'.heartbeat = n.heartbeat
  completed : n'.completedCycles = n.completedCycles
  reads : n'.reads = n.reads
  shares : n'.shares = n.shares

namespace Silent

variable {n n' : Node}

theorem refl (n : Node) : Silent n n := ⟨rfl, rfl, rfl, rfl, rfl⟩

theorem emit (silent : Silent n n') (e : Event) (unread : e.read? = none)
    (unshared : e.share? = none) : Silent n (n'.emit e) where
  vertex := silent.vertex
  heartbeat := silent.heartbeat
  completed := silent.completed
  reads := by simpa [Node.reads, Node.emit, unread] using silent.reads
  shares := by simpa [Node.shares, Node.emit, unshared] using silent.shares

/-- A change of the rest is silent. -/
theorem of_same {n'' : Node} (silent : Silent n n') (vertex : n''.vertex = n'.vertex)
    (heartbeat : n''.heartbeat = n'.heartbeat)
    (completed : n''.completedCycles = n'.completedCycles) (log : n''.log = n'.log) :
    Silent n n'' where
  vertex := vertex.trans silent.vertex
  heartbeat := heartbeat.trans silent.heartbeat
  completed := completed.trans silent.completed
  reads := by rw [← silent.reads, Node.reads, Node.reads, log]
  shares := by rw [← silent.shares, Node.shares, Node.shares, log]

theorem stopItself {ν : Type} [Network ν] (silent : Silent n n') (net : ν) :
    Silent n (n'.stopItself net).1 := by
  have requested := silent.emit (.stopRequested n'.control.running) rfl rfl
  simp only [Node.stopItself]
  split
  · split
    · exact ((requested.emit .preStop rfl rfl).emit .networkStop rfl rfl).of_same rfl rfl rfl rfl
    · exact requested.of_same rfl rfl rfl rfl
  · exact silent

theorem beginStart (silent : Silent n n') : Silent n n'.beginStart := by
  simp only [Node.beginStart]
  split
  · exact silent.of_same rfl rfl rfl rfl
  · exact silent.of_same rfl rfl rfl rfl

theorem beginStop (silent : Silent n n') : Silent n n'.beginStop := by
  simp only [Node.beginStop]
  split
  · exact (silent.emit (.stopRequested n'.control.running) rfl rfl).of_same rfl rfl rfl rfl
  · exact silent

end Silent

/-- What a step of a thread in a phase does to a node and its network. All that is done to the
network before something is shared keeps `P`. -/
inductive Deals {ν : Type} [Network ν] (P : ν → Prop) (thread : ThreadId) (phase : Phase)
    (n : Node) : Node × ν → Prop
  | silent {n' : Node} {net : ν} (silent : Silent n n') (holds : P net)
      (uncounted : phase ≠ .increment) (next : Phase) (unshared : next ≠ .increment)
      (threads : n'.threads = n.threads.insert thread next ∨
        n'.threads = n.threads.erase thread) : Deals P thread phase n (n', net)
  | shares {n' : Node} {net : ν} (holds : P net) (engine : phase = .engine)
      (vertex : n'.vertex = n.vertex) (completed : n'.completedCycles = n.completedCycles)
      (heartbeat : n'.heartbeat = n.heartbeat.beat (Network.states n.vertex net))
      (reads : n'.reads = n.reads ++ [Network.states n.vertex net])
      (shares : n'.shares =
        n.shares ++ [(UInt64.ofNat (n.completedCycles + 1), n'.heartbeat.shared)])
      (threads : n'.threads = n.threads.insert thread .increment) :
      Deals P thread phase n (n',
        Network.share n.vertex (UInt64.ofNat (n.completedCycles + 1)) n'.heartbeat.shared net)
  | counts {n' : Node} {net : ν} (holds : P net) (increment : phase = .increment)
      (vertex : n'.vertex = n.vertex) (completed : n'.completedCycles = n.completedCycles + 1)
      (heartbeat : n'.heartbeat = n.heartbeat) (reads : n'.reads = n.reads)
      (shares : n'.shares = n.shares) (threads : n'.threads = n.threads.insert thread .countTest) :
      Deals P thread phase n (n', net)

theorem Deals.mono {ν : Type} [Network ν] {P Q : ν → Prop} {thread : ThreadId} {phase : Phase}
    {n : Node} {after : Node × ν} (deals : Deals P thread phase n after)
    (weaker : ∀ net, P net → Q net) : Deals Q thread phase n after := by
  cases deals with
  | silent silent holds uncounted next unshared threads =>
    exact .silent silent (weaker _ holds) uncounted next unshared threads
  | shares holds engine vertex completed heartbeat reads shares threads =>
    exact .shares (weaker _ holds) engine vertex completed heartbeat reads shares threads
  | counts holds increment vertex completed heartbeat reads shares threads =>
    exact .counts (weaker _ holds) increment vertex completed heartbeat reads shares threads

theorem stopItself_network {ν : Type} [Network ν] (n : Node) (net : ν) (P : ν → Prop) (holds : P net)
    (stop : P (Network.stop n.vertex net)) : P (n.stopItself net).2 := by
  simp only [stopItself]
  split
  · split
    · exact stop
    · exact holds
  · exact holds

/-- What hooks and engine do beside their work. -/
structure Acted {ν : Type} (P : ν → Prop) (n n' : Node) (net : ν) : Prop where
  silent : Silent n n'
  threads : n'.threads = n.threads
  holds : P net

section

variable {ν : Type} [Network ν] {P : ν → Prop} {n n' : Node} {net : ν} {phase : Phase}
  (thread : ThreadId)

theorem Acted.proceed (acted : Acted P n n' net) (uncounted : phase ≠ .increment) (next : Phase)
    (unshared : next ≠ .increment) : Deals P thread phase n (n'.proceed thread next, net) :=
  .silent (acted.silent.of_same rfl rfl rfl rfl) acted.holds uncounted next unshared
    (.inl (by rw [Node.proceed, acted.threads]))

theorem Acted.exit (acted : Acted P n n' net) (uncounted : phase ≠ .increment) :
    Deals P thread phase n (n'.exit thread, net) :=
  .silent (acted.silent.of_same rfl rfl rfl rfl) acted.holds uncounted .sleep (by simp)
    (.inr (by rw [Node.exit, acted.threads]))

variable (stop : ∀ net, P net → P (Network.stop n.vertex net))
include stop

theorem Acted.perform (acted : Acted P n n' net) (point : Point) (acts : List Act) :
    Acted P n (Node.perform point n' net acts).1 (Node.perform point n' net acts).2.1 := by
  refine perform_keeps (Acted P n) point acts (fun n' net e which acted => ?_)
    (fun _ n' net acted => ?_) n' net acted
  · rcases which with rfl | ⟨error, rfl⟩ <;>
      exact ⟨acted.silent.emit _ rfl rfl, acted.threads, acted.holds⟩
  · obtain ⟨control, log, stopped⟩ := stopItself_frame n' net
    exact ⟨acted.silent.stopItself net, by rw [stopped, ← acted.threads],
      n'.stopItself_network net P acted.holds (acted.silent.vertex ▸ stop net acted.holds)⟩

theorem runHook_deals (m : Moment) (holds : P net) (point : Point) (e : Event)
    (unread : e.read? = none) (unshared : e.share? = none) (next : Phase)
    (uncounted : phase ≠ .increment) (unshared' : next ≠ .increment) :
    Deals P thread phase n (runHook point e next m thread n net) := by
  have acted : Acted P n (n.emit e) net := ⟨(Silent.refl n).emit e unread unshared, rfl, holds⟩
  have done := acted.perform stop point m.acts
  simp only [runHook]
  split
  next performed =>
    rw [performed] at done
    exact done.proceed thread uncounted next unshared'
  next performed =>
    rw [performed] at done
    exact done.proceed thread uncounted (.recordError _) (by simp)

theorem runEngine_deals (m : Moment) (holds : P net) :
    Deals P thread .engine n (runEngine m thread n net) := by
  have acted : Acted P n (n.emit (.engineCalled m.now)) net :=
    ⟨(Silent.refl n).emit _ rfl rfl, rfl, holds⟩
  have done := acted.perform stop .engine m.acts
  simp only [runEngine]
  split
  next performed =>
    rw [performed] at done
    exact done.proceed thread (by simp) (.recordError _) (by simp)
  next n₁ net₁ performed =>
    rw [performed] at done
    have vertex : n₁.vertex = n.vertex := done.silent.vertex
    have completed : n₁.completedCycles = n.completedCycles := done.silent.completed
    have heartbeat : n₁.heartbeat = n.heartbeat := done.silent.heartbeat
    have threads : n₁.threads = n.threads := done.threads
    have reads : n₁.reads = n.reads := done.silent.reads
    have shares : n₁.shares = n.shares := done.silent.shares
    simp only [vertex_emit, vertex, completed, heartbeat]
    refine .shares done.holds rfl rfl completed rfl ?_ ?_
      (congrArg (·.insert thread .increment) threads)
    · rw [← reads]
      simp only [Node.reads, Node.emit, Node.proceed, List.append_assoc, List.filterMap_append]
      rfl
    · rw [← shares]
      simp only [Node.shares, Node.emit, Node.proceed, List.append_assoc, List.filterMap_append]
      rfl

/-- The network is stopped and advanced, and nothing else, before something is shared. -/
theorem threadStep_deals (m : Moment) (begin : ∀ net, P net → P (Network.beginCycle n.vertex net))
    (holds : P net) (present : n.threads.get? thread = some phase) :
    Deals P thread phase n (n.threadStep m thread net) := by
  have unacted : Acted P n n net := ⟨Silent.refl n, rfl, holds⟩
  cases phase with
  | loopTest =>
    simp only [threadStep, present]
    split
    · exact unacted.proceed thread (by simp) .preHook (by simp)
    · exact unacted.exit thread (by simp)
  | preHook =>
    simp only [threadStep, present]
    exact runHook_deals thread stop m holds .pre .preCycle rfl rfl .preTest (by simp) (by simp)
  | preTest | countTest | storeTest =>
    simp only [threadStep, present]
    exact unacted.proceed thread (by simp) _ (by split <;> simp)
  | beginCycle =>
    simp only [threadStep, present]
    have begun : Acted P n (n.emit .beginCycle) (Network.beginCycle n.vertex net) :=
      ⟨(Silent.refl n).emit _ rfl rfl, rfl, begin net holds⟩
    exact begun.proceed thread (by simp) .engine (by simp)
  | engine =>
    simp only [threadStep, present]
    exact runEngine_deals thread stop m holds
  | increment =>
    simp only [threadStep, present]
    exact .counts holds rfl rfl rfl rfl rfl rfl rfl
  | buildReport =>
    simp only [threadStep, present]
    exact unacted.proceed thread (by simp) _ (by simp)
  | storeReport report =>
    simp only [threadStep, present]
    have stored : Acted P n { n.emit .reportStored with latestReport := some report } net :=
      ⟨((Silent.refl n).emit .reportStored rfl rfl).of_same rfl rfl rfl rfl, rfl, holds⟩
    exact stored.proceed thread (by simp) .storeTest (by simp)
  | postHook =>
    simp only [threadStep, present]
    exact runHook_deals thread stop m holds .post .postCycle rfl rfl .sleep (by simp) (by simp)
  | sleep =>
    simp only [threadStep, present]
    split
    · exact unacted.proceed thread (by simp) .loopTest (by simp)
    · exact unacted.exit thread (by simp)
  | recordError error =>
    simp only [threadStep, present]
    have recorded : Acted P n { n with lastError := some error } net :=
      ⟨(Silent.refl n).of_same rfl rfl rfl rfl, rfl, holds⟩
    exact recorded.proceed thread (by simp) .markFailed (by simp)
  | markFailed =>
    simp only [threadStep, present]
    have marked : Acted P n
        { n with control := { n.control with running := false, state := .failed } } net :=
      ⟨(Silent.refl n).of_same rfl rfl rfl rfl, rfl, holds⟩
    exact marked.exit thread (by simp)

end

section

variable {ν : Type} [Network ν] (n : Node) (net : ν)

theorem completedCycles_le_threadStep (m : Moment) (thread : ThreadId) :
    n.completedCycles ≤ (n.threadStep m thread net).1.completedCycles := by
  cases present : n.threads.get? thread with
  | none =>
    have same := threadStep_of_missing m thread n net present
    exact Nat.le_of_eq (congrArg (fun after => after.1.completedCycles) same.symm)
  | some phase =>
    have deals : Deals (fun _ => True) thread phase n (n.threadStep m thread net) :=
      threadStep_deals thread (fun _ => id) m (fun _ => id) trivial present
    generalize n.threadStep m thread net = after at deals
    cases deals with
    | silent silent => exact Nat.le_of_eq silent.completed.symm
    | shares _ _ _ completed => exact Nat.le_of_eq completed.symm
    | counts _ _ _ completed => rw [completed]; exact Nat.le_succ _

theorem launch_silent : Silent n (n.launch net).1 := by
  have tried := (Silent.refl n).emit .networkStart rfl rfl
  simp only [launch]
  split
  · exact (Silent.refl n).of_same rfl rfl rfl rfl
  · split
    · exact tried.of_same rfl rfl rfl rfl
    · exact (tried.emit (.launched n.spawned) rfl rfl).of_same rfl rfl rfl rfl

theorem callStep_silent : Silent n (n.callStep net).1 := by
  simp only [callStep]
  split
  case h_1 => exact Silent.refl n
  case h_2 => exact ((Silent.refl n).emit .networkStop rfl rfl).of_same rfl rfl rfl rfl
  case h_3 | h_7 => split <;> exact (Silent.refl n).of_same rfl rfl rfl rfl
  case h_4 => exact n.launch_silent net
  case h_5 => exact ((Silent.refl n).emit .preStop rfl rfl).of_same rfl rfl rfl rfl
  case h_6 => exact ((Silent.refl n).emit .networkStop rfl rfl).of_same rfl rfl rfl rfl
  case h_11 => exact ((Silent.refl n).emit .clearNeighbors rfl rfl).of_same rfl rfl rfl rfl
  all_goals exact (Silent.refl n).of_same rfl rfl rfl rfl

/-- Only a launch starts a thread. -/
theorem threads_callStep :
    (n.callStep net).1.threads = n.threads ∨
      n.call = some .launch ∧ (n.callStep net).1.threads = n.threads.insert n.spawned .loopTest := by
  simp only [callStep]
  split
  case h_3 | h_7 => split <;> exact .inl rfl
  case h_4 calls =>
    simp only [launch]
    split
    · exact .inl rfl
    · split
      · exact .inl rfl
      · exact .inr ⟨calls, rfl⟩
  all_goals exact .inl rfl

theorem callStep_network (P : ν → Prop) (holds : P net) (stop : P (Network.stop n.vertex net))
    (clear : P (Network.clear n.vertex net))
    (start : ∀ net', Network.start n.vertex net = .ok net' → P net') : P (n.callStep net).2 := by
  simp only [callStep]
  split
  case h_2 | h_6 => exact stop
  case h_4 =>
    simp only [launch]
    split
    · exact holds
    · split
      · exact holds
      next net' started => exact start net' started
  case h_11 => exact clear
  all_goals exact holds

end

/-! ### The ledger of a node -/

/-- What is shared in the cycle with a number, counted from zero, in which these states are read. -/
def shareOf (cycle : Nat) (states : SortedMap NodeName NeighborState) :
    UInt64 × SortedMap String Float :=
  (UInt64.ofNat (cycle + 1),
    Heartbeat.shared ⟨cycle + 1, states.values.countP NeighborState.isKnown⟩)

/-- What was shared follows from what was read, and the cycles are counted up to the one in which
the thread is. -/
structure Ledger (n : Node) : Prop where
  shares : n.shares = n.reads.mapIdx shareOf
  round : n.heartbeat.round = n.reads.length
  ahead : ∀ t, n.threads.get? t = some .increment → n.reads.length = n.completedCycles + 1
  level : (∀ t, n.threads.get? t ≠ some .increment) → n.reads.length = n.completedCycles
  neighbors : ∀ states ∈ n.reads, ∀ w, states.contains w = true → n.vertex.hasNeighbor w = true

namespace Ledger

variable {n n' : Node} {ν : Type} [Network ν] {net : ν}

theorem new (vertex : Vertex) (resources : ResourceManager) (window : EstimationWindow) :
    Ledger (Node.new vertex resources window) where
  shares := rfl
  round := rfl
  ahead t present := by cases present
  level _ := rfl
  neighbors states read := by cases read

/-- The cycles that were read and shared are those that were counted, or one more. -/
theorem length_reads_le (ledger : Ledger n) : n.reads.length ≤ n.completedCycles + 1 := by
  by_cases counting : ∃ t, n.threads.get? t = some .increment
  · obtain ⟨t, present⟩ := counting
    exact Nat.le_of_eq (ledger.ahead t present)
  · exact Nat.le_succ_of_le
      (Nat.le_of_eq (ledger.level fun t present => counting ⟨t, present⟩))

theorem silent (ledger : Ledger n) (silent : Silent n n')
    (threads : ∀ t, n'.threads.get? t = some .increment ↔ n.threads.get? t = some .increment) :
    Ledger n' where
  shares := by rw [silent.shares, silent.reads, ledger.shares]
  round := by rw [silent.heartbeat, silent.reads, ledger.round]
  ahead t present := by
    rw [silent.reads, silent.completed]
    exact ledger.ahead t ((threads t).1 present)
  level none := by
    rw [silent.reads, silent.completed]
    exact ledger.level fun t present => none t ((threads t).2 present)
  neighbors := by
    rw [silent.reads, silent.vertex]
    exact ledger.neighbors

/-- A step of the only thread. -/
theorem deals (ledger : Ledger n) {thread : ThreadId} {phase : Phase}
    (present : n.threads.get? thread = some phase)
    (alone : ∀ t, n.isLive t = true → t = thread) {after : Node × ν}
    (deals : Deals (fun net => ∀ w, (Network.states n.vertex net).contains w = true →
      n.vertex.hasNeighbor w = true) thread phase n after) : Ledger after.1 := by
  have only (t : ThreadId) (phase' : Phase) (found : n.threads.get? t = some phase') :
      t = thread ∧ phase' = phase := by
    have same := alone t ((isLive_iff n t).2 ⟨phase', found⟩)
    subst same
    exact ⟨rfl, Option.some.inj (found.symm.trans present)⟩
  cases deals with
  | silent silent holds uncounted next unshared threads =>
    refine ledger.silent silent fun t => ⟨fun increment => ?_, fun increment => ?_⟩
    · rcases threads with inserted | erased
      · rw [inserted, SortedMap.get?_insert] at increment
        split at increment
        · exact absurd (Option.some.inj increment) unshared
        · exact increment
      · rw [erased, SortedMap.get?_erase] at increment
        split at increment
        · cases increment
        · exact increment
    · exact absurd (only t _ increment).2.symm uncounted
  | shares holds engine vertex completed heartbeat reads shares threads =>
    -- the engine runs in the only thread, so that no cycle waits to be counted
    have level : n.reads.length = n.completedCycles := ledger.level fun t increment => by
      cases engine.symm.trans (only t _ increment).2.symm
    refine ⟨?_, ?_, fun t _ => ?_, fun none => ?_, fun states read w shown => ?_⟩
    · rw [shares, reads, List.mapIdx_concat, ledger.shares, heartbeat, Heartbeat.beat, ledger.round,
        shareOf, level]
    · rw [heartbeat, reads, Heartbeat.beat, ledger.round, List.length_append, List.length_singleton]
    · rw [reads, completed, List.length_append, List.length_singleton, level]
    · exact absurd (by rw [threads, SortedMap.get?_insert_self]) (none thread)
    · rw [vertex]
      -- what is read now is what the exchange shows
      rw [reads] at read
      rcases List.mem_append.1 read with earlier | now
      · exact ledger.neighbors states earlier w shown
      · rw [List.mem_singleton.1 now] at shown
        exact holds w shown
  | counts holds increment vertex completed heartbeat reads shares threads =>
    have ahead := ledger.ahead thread (increment ▸ present)
    refine ⟨by rw [shares, reads, ledger.shares], by rw [heartbeat, reads, ledger.round],
      fun t counting => ?_, fun _ => by rw [reads, completed, ahead],
      by rw [reads, vertex]; exact ledger.neighbors⟩
    rw [threads, SortedMap.get?_insert] at counting
    split at counting
    · cases counting
    next other => exact absurd (only t _ counting).1 other

/-- A step of a call. No thread is alive at a launch. -/
theorem callStep (ledger : Ledger n) (dead : n.call = some .launch → ∀ t, n.isLive t = false) :
    Ledger (n.callStep net).1 := by
  refine ledger.silent (n.callStep_silent net) fun t => ?_
  rcases n.threads_callStep net with same | ⟨calls, launched⟩
  · rw [same]
  · rw [launched, SortedMap.get?_insert]
    split
    next same =>
      have gone := dead calls t
      refine ⟨fun looping => (by cases looping), fun increment => ?_⟩
      rw [Node.isLive, SortedMap.contains, increment] at gone
      cases gone
    next => rfl

end Ledger

/-! ### What a share says -/

theorem value?_roundKey_shareOf (cycle : Nat) (states : SortedMap NodeName NeighborState) :
    (shareOf cycle states).2.get? Heartbeat.roundKey = some (Float.ofNat (cycle + 1)) := by
  have differ : Heartbeat.roundKey ≠ Heartbeat.heardKey := by decide
  rw [shareOf, Heartbeat.shared, SortedMap.get?_ofList, SortedMap.lastValue_cons,
    SortedMap.lastValue_cons, if_pos rfl, if_neg differ]
  rfl

theorem value?_heardKey_shareOf (cycle : Nat) (states : SortedMap NodeName NeighborState) :
    (shareOf cycle states).2.get? Heartbeat.heardKey =
      some (Float.ofNat (states.values.countP NeighborState.isKnown)) := by
  rw [shareOf, Heartbeat.shared, SortedMap.get?_ofList, SortedMap.lastValue_cons,
    SortedMap.lastValue_cons, if_pos rfl]
  rfl

/-- If only neighbors are shown, the known states are those of known neighbors. -/
theorem countP_isKnown (states : SortedMap NodeName NeighborState)
    (neighbors : SortedMap NodeName Float)
    (within : ∀ w, states.contains w = true → neighbors.contains w = true) :
    states.values.countP NeighborState.isKnown =
      neighbors.keys.countP fun w => (states.get? w).any NeighborState.isKnown := by
  have nodup : ((states.entries.filter fun e => e.2.isKnown).map Prod.fst).Nodup :=
    states.keys_nodup.sublist (List.filter_sublist.map Prod.fst)
  -- both sides count names without repetition, so that it is enough to compare which ones
  have perm : ((states.entries.filter fun e => e.2.isKnown).map Prod.fst).Perm
      (neighbors.keys.filter fun w => (states.get? w).any NeighborState.isKnown) := by
    rw [List.perm_ext_iff_of_nodup nodup (neighbors.keys_nodup.filter _)]
    intro w
    simp only [List.mem_map, List.mem_filter, SortedMap.keys, Option.any_eq_true]
    constructor
    · rintro ⟨⟨_, s⟩, ⟨entered, known⟩, rfl⟩
      have found := (SortedMap.get?_eq_some_iff _ _ _).2 entered
      obtain ⟨bandwidth, neighbor⟩ :=
        (SortedMap.contains_iff _ _).1 (within _ ((SortedMap.contains_iff _ _).2 ⟨s, found⟩))
      exact ⟨⟨_, (SortedMap.get?_eq_some_iff _ _ _).1 neighbor, rfl⟩, s, found, known⟩
    · rintro ⟨_, s, found, known⟩
      exact ⟨(w, s), ⟨(SortedMap.get?_eq_some_iff _ _ _).1 found, known⟩, rfl⟩
  rw [SortedMap.values, List.countP_map, List.countP_eq_length_filter,
    List.countP_eq_length_filter, ← perm.length_eq, List.length_map]
  rfl

theorem toNat_ofNat_of_counted {n : Nat} (counted : n < UInt64.size) :
    (UInt64.ofNat n).toNat = n := by
  rw [UInt64.toNat_ofNat', Nat.mod_eq_of_lt counted]

/-- The numbers of the shares ascend, as long as they can be counted in a word. -/
theorem Ledger.ascending {n : Node} (ledger : Ledger n)
    (counted : n.completedCycles + 1 < UInt64.size) :
    n.shares.Pairwise fun s s' => s.1 < s'.1 := by
  have length := ledger.length_reads_le
  rw [ledger.shares, List.pairwise_iff_getElem]
  intro i j first second before
  simp only [List.length_mapIdx] at first second
  simp only [List.getElem_mapIdx, shareOf, UInt64.lt_iff_toNat_lt]
  rw [toNat_ofNat_of_counted (by omega), toNat_ofNat_of_counted (by omega)]
  omega

/-- A message that a node shared tells of one of its cycles: the number of the cycle and the count
of the neighbors that were known to it when it read what it knew of them. -/
theorem Ledger.reads_of_share {n : Node} (ledger : n.Ledger) {round : UInt64}
    {values : SortedMap String Float} (shared : (round, values) ∈ n.shares) :
    ∃ cycle states, n.reads[cycle]? = some states ∧ n.shares[cycle]? = some (round, values) ∧
      round = UInt64.ofNat (cycle + 1) ∧
      (n.completedCycles + 1 < UInt64.size → round.toNat = cycle + 1) ∧
      (NeighborState.known round values).value? Heartbeat.roundKey =
        some (Float.ofNat (cycle + 1)) ∧
      (NeighborState.known round values).value? Heartbeat.heardKey =
        some (Float.ofNat (n.vertex.neighbors.keys.countP fun w =>
          (states.get? w).any NeighborState.isKnown)) := by
  obtain ⟨cycle, found⟩ := List.mem_iff_getElem?.1 shared
  have share := found
  rw [ledger.shares, List.getElem?_mapIdx, Option.map_eq_some_iff] at share
  obtain ⟨states, read, share⟩ := share
  have number : round = UInt64.ofNat (cycle + 1) := (congrArg Prod.fst share).symm
  have values_eq : values = (shareOf cycle states).2 := (congrArg Prod.snd share).symm
  refine ⟨cycle, states, read, found, number, fun counted => ?_, ?_, ?_⟩
  · have length := ledger.length_reads_le
    obtain ⟨below, _⟩ := List.getElem?_eq_some_iff.1 read
    rw [number, toNat_ofNat_of_counted (by omega)]
  · rw [NeighborState.value?, values_eq, value?_roundKey_shareOf]
  · rw [NeighborState.value?, values_eq, value?_heardKey_shareOf,
      countP_isKnown states n.vertex.neighbors
        (ledger.neighbors states (List.mem_of_getElem? read))]

end Node

end RegionNet
