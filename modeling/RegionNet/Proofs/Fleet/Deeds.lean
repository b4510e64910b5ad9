import RegionNet.Proofs.Fleet
import RegionNet.Proofs.Network.Homes
import RegionNet.Proofs.Node.Sharing

/-!
# What the nodes of a fleet do

The nodes of a fleet are started and stopped, their threads run, and all of them use one fabric.
Whatever a node does, it changes the exchange of no other node: so each of them lives the life that
it would live alone, with the others as traffic.
-/

namespace RegionNet

namespace Fabric

/-- The fabric, with what the system answers to whoever wants to listen. -/
@[reducible] def answering (binding : Binding) : Network Fabric :=
  { (inferInstance : Network Fabric) with start := fun v f => f.start binding v }

theorem lawful_answering (binding : Binding) : @LawfulNetwork Fabric (answering binding) :=
  have lawful : LawfulNetwork Fabric := inferInstance
  @LawfulNetwork.mk Fabric (answering binding)
    (fun v f => f.start_eq_alreadyRunning_iff binding v)
    (fun _ _ _ started => isRunning_of_start started)
    lawful.isRunning_stop lawful.isRunning_beginCycle lawful.isRunning_share

/-- What a node has done to the fabric while it sent nothing and was given an address, or none. -/
structure Worked (v : Vertex) (given : Option SocketAddress) (f f' : Fabric) : Prop
    extends Own v f f' where
  distinct : f.registry.Distinct → f'.registry.Distinct
  genuine : ∀ near Sent Heard, (∀ w, v.hasNeighbor w = true → near v.name w) →
    f.Genuine near Sent Heard → f'.Genuine near Sent Heard
  housed : ∀ home, (∀ a, given = some a → home v.name a) → f.Housed home → f'.Housed home

namespace Worked

variable {v : Vertex} {given : Option SocketAddress} {f f' f'' : Fabric}

theorem refl (v : Vertex) (given : Option SocketAddress) (f : Fabric) : Worked v given f f :=
  ⟨⟨fun _ _ => rfl, rfl⟩, id, fun _ _ _ _ => id, fun _ _ => id⟩

theorem trans (worked : Worked v given f f') (worked' : Worked v given f' f'') :
    Worked v given f f'' where
  others w other := (worked'.others w other).trans (worked.others w other)
  inFlight := worked'.inFlight.trans worked.inFlight
  distinct before := worked'.distinct (worked.distinct before)
  genuine near Sent Heard neighbors before :=
    worked'.genuine near Sent Heard neighbors (worked.genuine near Sent Heard neighbors before)
  housed home homes before := worked'.housed home homes (worked.housed home homes before)

theorem stop (worked : Worked v given f f') : Worked v given f (f'.stop v) := by
  refine worked.trans ⟨own_stop f' v, fun distinct => ?_, fun _ _ _ _ genuine => genuine.stop,
    fun _ _ housed => housed.stop⟩
  rw [Fabric.stop]
  split
  · exact distinct.unregister
  · exact distinct

theorem clear (worked : Worked v given f f') : Worked v given f (Network.clear v f') :=
  worked.trans ⟨own_setExchange f' v _, id, fun _ _ _ _ genuine => genuine.clear,
    fun _ _ housed => housed.setExchange rfl⟩

theorem beginCycle (worked : Worked v given f f') : Worked v given f (Network.beginCycle v f') :=
  worked.trans ⟨own_setExchange f' v _, id,
    fun _ _ _ neighbors genuine => genuine.beginCycle neighbors,
    fun _ _ housed => housed.setExchange (Exchange.address_beginCycle _ v)⟩

theorem start {binding : Binding} (worked : Worked v binding.address f f')
    (started : f'.start binding v = .ok f'') : Worked v binding.address f f'' := by
  obtain ⟨address, _, opened⟩ := opened_of_start started
  exact worked.trans ⟨opened.own, fun distinct => distinct.register opened.registered,
    fun _ _ _ _ genuine => genuine.start started,
    fun _ homes housed => housed.start started homes⟩

end Worked

end Fabric

/-- What a node does next, in one of its threads or for an outside caller. -/
inductive Deed
  | start
  | stop
  /-- A hook or the engine stops the node and has not returned yet. -/
  | stopInside (thread : ThreadId)
  /-- The call in progress goes on. If it starts the network, the system answers. -/
  | call (answer : Binding)
  | thread (thread : ThreadId) (moment : Moment)

namespace Deed

/-- A call begins when no other one is in progress. -/
def Allowed (n : Node) : Deed → Prop
  | start => n.call = none
  | stop => n.call = none
  | stopInside t => (∃ phase, n.threads.get? t = some phase ∧ phase.hosts = true) ∧ n.call = none
  | call _ => True
  | thread _ moment => ∀ act ∈ moment.acts, act.isCall = true → n.call = none

instance (d : Deed) (n : Node) : Decidable (d.Allowed n) :=
  match d with
  | start => inferInstanceAs (Decidable (n.call = none))
  | stop => inferInstanceAs (Decidable (n.call = none))
  | stopInside t =>
    decidable_of_iff ((n.threads.get? t).any Phase.hosts = true ∧ n.call = none)
      (by simp [Allowed, Option.any_eq_true])
  | call _ => isTrue trivial
  | thread _ moment =>
    inferInstanceAs (Decidable (∀ act ∈ moment.acts, act.isCall = true → n.call = none))

/-- The address that the system gives to the node. -/
def given : Deed → Option SocketAddress
  | call answer => answer.address
  | _ => none

/-- Is it a call of a hook or the engine, or does it contain one? -/
def callsInside : Deed → Bool
  | stopInside _ => true
  | thread _ moment => moment.acts.any Act.isCall
  | _ => false

def act : Deed → Node → Fabric → Node × Fabric
  | start, n, f => (n.beginStart, f)
  | stop, n, f => (n.beginStop, f)
  | stopInside _, n, f => n.stopItself f
  | call answer, n, f => @Node.callStep Fabric (Fabric.answering answer) n f
  | thread t moment, n, f => n.threadStep moment t f

/-- What a deed comes to: nothing is sent, or one message is shared after all else was done. -/
inductive Effect (given : Option SocketAddress) (n : Node) (f : Fabric) : Node × Fabric → Prop
  | quiet {n' : Node} {f' : Fabric} (vertex : n'.vertex = n.vertex) (shares : n'.shares = n.shares)
      (worked : Fabric.Worked n.vertex given f f') : Effect given n f (n', f')
  | shares {n' : Node} {f' : Fabric} (round : UInt64) (values : SortedMap String Float)
      (vertex : n'.vertex = n.vertex) (shares : n'.shares = n.shares ++ [(round, values)])
      (worked : Fabric.Worked n.vertex given f f')
      (known : ∀ w a, f'.registry.resolve w = some a → f.registry.resolve w = some a) :
      Effect given n f (n', f'.share n.vertex round values)

theorem Effect.silent {given : Option SocketAddress} {n n' : Node} {f f' : Fabric}
    (silent : Node.Silent n n') (worked : Fabric.Worked n.vertex given f f') :
    Effect given n f (n', f') :=
  .quiet silent.vertex silent.shares worked

/-- What a node does in a thread before it shares. -/
theorem deals_thread (thread : ThreadId) (moment : Moment) (n : Node) (f : Fabric) (phase : Phase)
    (present : n.threads.get? thread = some phase) :
    Node.Deals (fun f' => Fabric.Worked n.vertex none f f' ∧
        ∀ w a, f'.registry.resolve w = some a → f.registry.resolve w = some a)
      thread phase n (n.threadStep moment thread f) := by
  refine Node.threadStep_deals thread (fun f' ⟨worked, known⟩ => ⟨worked.stop, fun w a held => ?_⟩)
    moment (fun f' ⟨worked, known⟩ => ⟨worked.beginCycle, known⟩) ⟨.refl n.vertex none f, fun _ _ => id⟩
    present
  refine known w a ?_
  simp only [Network.stop, Fabric.stop] at held
  split at held
  · exact Registry.resolve_unregister w a held
  · exact held

theorem effect (d : Deed) (n : Node) (f : Fabric) : Effect d.given n f (d.act n f) := by
  have idle := Fabric.Worked.refl n.vertex d.given f
  cases d with
  | start => exact .silent (Node.Silent.refl n).beginStart idle
  | stop => exact .silent (Node.Silent.refl n).beginStop idle
  | stopInside thread =>
    exact .silent ((Node.Silent.refl n).stopItself f)
      (n.stopItself_network f (Fabric.Worked n.vertex none f) idle idle.stop)
  | call answer =>
    exact .silent (@Node.callStep_silent Fabric (Fabric.answering answer) n f)
      (@Node.callStep_network Fabric (Fabric.answering answer) n f
        (Fabric.Worked n.vertex answer.address f) idle idle.stop idle.clear
        fun _ started => idle.start started)
  | thread thread moment =>
    simp only [act]
    cases present : n.threads.get? thread with
    | none =>
      rw [Node.threadStep_of_missing moment thread n f present]
      exact .silent (Node.Silent.refl n) idle
    | some phase =>
      have deals := deals_thread thread moment n f phase present
      generalize n.threadStep moment thread f = after at deals
      cases deals with
      | silent silent holds => exact .silent silent holds.1
      | shares holds _ vertex _ _ _ shares => exact .shares _ _ vertex shares holds.1 holds.2
      | counts holds _ vertex _ _ _ shares => exact .quiet vertex shares holds.1

theorem vertex_act (d : Deed) (n : Node) (f : Fabric) : (d.act n f).1.vertex = n.vertex := by
  have effect := d.effect n f
  generalize d.act n f = after at effect
  cases effect with
  | quiet vertex => exact vertex
  | shares _ _ vertex => exact vertex

/-- No other exchange is changed. -/
theorem exchange_act (d : Deed) (n : Node) (f : Fabric) (w : NodeName) (other : w ≠ n.name) :
    (d.act n f).2.exchange w = f.exchange w := by
  have effect := d.effect n f
  generalize d.act n f = after at effect
  cases effect with
  | quiet _ _ worked => exact worked.others w other
  | shares _ _ _ _ worked => exact (Fabric.exchange_share _ _ _ _ w).trans (worked.others w other)

end Deed

namespace Agent

/-- Nothing depends on how the network starts. -/
theorem Sane.of_isRunning {ν : Type} {network network' : Network ν} {a : Agent ν}
    (same : ∀ v net, network.isRunning v net = network'.isRunning v net)
    (sane : @Sane ν network a) : @Sane ν network' a := by
  obtain ⟨unmoved, busy, registered, executing, unsettled, runs, explained, marked⟩ := sane
  have switched : @networkRuns ν network a = @networkRuns ν network' a :=
    same a.node.vertex a.network
  rw [switched] at executing runs
  exact @Sane.mk ν network' a unmoved busy registered executing unsettled runs explained marked

theorem Sane.deed {n : Node} {f : Fabric} (sane : Sane ⟨n, f⟩) (d : Deed) (allowed : d.Allowed n) :
    Sane ⟨(d.act n f).1, (d.act n f).2⟩ := by
  cases d with
  | start => exact sane.beginStart allowed
  | stop => exact sane.beginStop allowed
  | stopInside thread => exact sane.stopItself allowed.2
  | call answer =>
    have same (v : Vertex) (f : Fabric) :
        Network.isRunning v f = (Fabric.answering answer).isRunning v f := rfl
    have lawful := Fabric.lawful_answering answer
    have answered : @Sane Fabric (Fabric.answering answer) ⟨n, f⟩ := sane.of_isRunning same
    have stepped := @Sane.callStep Fabric (Fabric.answering answer) _ lawful answered
    exact @Sane.of_isRunning Fabric _ _ _ (fun v f => (same v f).symm) stepped
  | thread thread moment => exact sane.threadStep moment thread allowed

/-- Other nodes and deliveries are traffic. -/
theorem Sane.traffic {n : Node} {f f' : Fabric} (sane : Sane ⟨n, f⟩)
    (same : (f'.exchange n.name).isRunning = (f.exchange n.name).isRunning) : Sane ⟨n, f'⟩ :=
  sane.step (.traffic _ f' same)

/-- A node keeps its ledger if its exchange shows neighbors only. -/
theorem Sane.ledger_act {n : Node} {f : Fabric} (sane : Sane ⟨n, f⟩) (ledger : n.Ledger) (d : Deed)
    (shown : ∀ f', Fabric.Worked n.vertex none f f' → ∀ w,
      (Network.states n.vertex f').contains w = true → n.vertex.hasNeighbor w = true) :
    (d.act n f).1.Ledger := by
  have same (t : ThreadId) : n.threads.get? t = some .increment ↔
      n.threads.get? t = some .increment := .rfl
  cases d with
  | start =>
    refine ledger.silent (Node.Silent.refl n).beginStart fun t => ?_
    simp only [Deed.act, Node.beginStart]
    split <;> exact same t
  | stop =>
    refine ledger.silent (Node.Silent.refl n).beginStop fun t => ?_
    simp only [Deed.act, Node.beginStop]
    split <;> exact same t
  | stopInside thread =>
    obtain ⟨control, log, stopped⟩ := n.stopItself_frame f
    refine ledger.silent ((Node.Silent.refl n).stopItself f) fun t => ?_
    simp only [Deed.act, stopped]
  | call answer =>
    exact @Node.Ledger.callStep n Fabric (Fabric.answering answer) f ledger sane.dead_of_launch
  | thread thread moment =>
    simp only [Deed.act]
    cases present : n.threads.get? thread with
    | none =>
      rw [Node.threadStep_of_missing moment thread n f present]
      exact ledger
    | some phase =>
      have live : n.isLive thread = true := (Node.isLive_iff n thread).2 ⟨phase, present⟩
      -- both threads are the one that the node has registered
      have alone (t : ThreadId) (other : n.isLive t = true) : t = thread :=
        Option.some.inj ((sane.registered t other).symm.trans (sane.registered thread live))
      exact ledger.deals present alone
        ((Deed.deals_thread thread moment n f phase present).mono fun f' holds => shown f' holds.1)

end Agent

namespace Fleet

/-- Every node bears its name and lives as it would alone. -/
def Sound (f : Fleet) : Prop :=
  f.EachNode fun v n => n.name = v ∧ Agent.Sane ⟨n, f.fabric⟩

variable {f : Fleet}

theorem fabric_withNode {name : NodeName} {n : Node} (here : f.graph.nodes.get? name = some n)
    (act : Node → Fabric → Node × Fabric) :
    (f.withNode name act).fabric = (act n f.fabric).2 := by
  simp only [withNode, here]

/-- What is done at one node, without changing the exchange of another one. -/
theorem Sound.withNode (sound : f.Sound) (name : NodeName) (act : Node → Fabric → Node × Fabric)
    (n : Node) (here : f.graph.nodes.get? name = some n)
    (own : (act n f.fabric).1.name = n.name ∧
      Agent.Sane ⟨(act n f.fabric).1, (act n f.fabric).2⟩)
    (others : ∀ w, w ≠ n.name → (act n f.fabric).2.exchange w = f.fabric.exchange w) :
    (f.withNode name act).Sound := by
  have named := (sound name n here).1
  intro v n' present
  rw [nodes_withNode] at present
  rw [fabric_withNode here act]
  split at present
  next same =>
    rw [same, here] at present
    cases present
    exact ⟨own.1.trans (named.trans same.symm), own.2⟩
  next other =>
    obtain ⟨named', sane⟩ := sound v n' present
    refine ⟨named', sane.traffic ?_⟩
    rw [others n'.name (by rw [named', named]; exact other)]

theorem Sound.deed (sound : f.Sound) (name : NodeName) (n : Node)
    (here : f.graph.nodes.get? name = some n) (d : Deed) (allowed : d.Allowed n) :
    (f.withNode name d.act).Sound :=
  sound.withNode name d.act n here
    ⟨by rw [Node.name, d.vertex_act, ← Node.name], (sound name n here).2.deed d allowed⟩
    fun w other => d.exchange_act n f.fabric w other

theorem Sound.deliver (sound : f.Sound) (index : Nat) : (f.deliver index).Sound := by
  intro v n present
  obtain ⟨named, sane⟩ := sound v n present
  refine ⟨named, sane.traffic ?_⟩
  simp only [Fleet.deliver, Fabric.deliver]
  split
  · rfl
  · exact Fabric.isRunning_receive _ _ _ n.name

theorem Sound.lose (sound : f.Sound) (index : Nat) : (f.lose index).Sound := by
  intro v n present
  exact ⟨(sound v n present).1, (sound v n present).2.traffic rfl⟩

end Fleet

end RegionNet
