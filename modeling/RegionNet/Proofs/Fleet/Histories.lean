import RegionNet.Proofs.Fleet.Deeds
import RegionNet.Proofs.Graph.RegionViews
import RegionNet.Proofs.Node.Failures

/-!
# What may have been done to a fleet before

The nodes of a fleet may have been started and stopped any number of times, by callers, hooks and
engines, and may have failed; they may have been moved and told of their regions. All that a later
run finds of this are nodes that are sane, and threads that bear the numbers of earlier starts.
-/

namespace RegionNet

theorem Agent.Sane.setRegion {n : Node} {f : Fabric} (sane : Sane ⟨n, f⟩) (free : n.call = none)
    (region : RegionName) : Sane ⟨(n.setRegion region f).1, (n.setRegion region f).2⟩ := by
  refine sane.of_same rfl free.symm rfl rfl ?_
  have cleared := Fabric.exchange_setExchange f n.vertex.name n.vertex.name
    (f.exchange n.vertex.name).clear
  rw [if_pos rfl] at cleared
  change ((f.setExchange n.vertex.name (f.exchange n.vertex.name).clear).exchange
    n.vertex.name).isRunning = _
  rw [cleared]
  rfl

/-- No deed makes up a thread. -/
theorem Deed.numbered_act (d : Deed) {n : Node} (numbered : n.Numbered fun _ _ => False)
    (f : Fabric) : (d.act n f).1.Numbered fun _ _ => False := by
  cases d with
  | start => exact numbered.beginStart
  | stop => exact numbered.beginStop
  | stopInside thread =>
    obtain ⟨control, log, stopped⟩ := n.stopItself_frame f
    simp only [Deed.act, stopped]
    exact numbered.of_same rfl rfl
  | call answer => exact @Node.Numbered.callStep Fabric (Fabric.answering answer) _ n numbered f
  | thread thread moment =>
    exact ⟨(numbered.threadStep moment thread f).live, fun _ _ => False.elim⟩

namespace Fleet

/-- The fleets that nodes, their callers and the traffic between them can have come to. -/
inductive Lived : Fleet → Prop
  | new (f : Fleet)
      (fresh : f.EachNode fun v n =>
        ∃ vertex resources window, n = Node.new vertex resources window ∧ vertex.name = v)
      (stopped : ∀ v, (f.fabric.exchange v).isRunning = false) : Lived f
  | deed {f : Fleet} (lived : Lived f) (name : NodeName) (n : Node)
      (here : f.graph.nodes.get? name = some n) (d : Deed) (allowed : d.Allowed n) :
      Lived (f.withNode name d.act)
  | deliver {f : Fleet} (lived : Lived f) (index : Nat) : Lived (f.deliver index)
  | lose {f : Fleet} (lived : Lived f) (index : Nat) : Lived (f.lose index)
  | move {f : Fleet} (lived : Lived f) (name : NodeName) (region : RegionName)
      (free : ∀ n, f.graph.nodes.get? name = some n → n.call = none) :
      Lived (f.setRegion name region)
  | summarize {f : Fleet} (lived : Lived f) (window : EstimationWindow)
      (summaries : SortedMap RegionName (Summary Float)) (g : Graph)
      (returned : f.graph.regionSummaries window = .ok (summaries, g)) :
      Lived { f with graph := g }

variable {f : Fleet}

theorem Sound.move (sound : f.Sound) (name : NodeName) (region : RegionName)
    (free : ∀ n, f.graph.nodes.get? name = some n → n.call = none) :
    (f.setRegion name region).Sound := by
  -- the clients that are moved do not count
  change (f.withNode name fun n fabric => n.setRegion region fabric).Sound
  cases here : f.graph.nodes.get? name with
  | none => rwa [withNode_of_missing here]
  | some n =>
    refine sound.withNode name _ n here
      ⟨rfl, (sound name n here).2.setRegion (free n here) region⟩ fun w other => ?_
    have untouched := Fabric.exchange_setExchange f.fabric n.name w (f.fabric.exchange n.name).clear
    rwa [if_neg other] at untouched

theorem Lived.sound (lived : f.Lived) : f.Sound := by
  induction lived with
  | new f fresh stopped =>
    intro v n present
    obtain ⟨vertex, resources, window, rfl, named⟩ := fresh v n present
    exact ⟨named, .new vertex resources window _ (stopped vertex.name)⟩
  | deed _ name n here d allowed sound => exact sound.deed name n here d allowed
  | deliver _ index sound => exact sound.deliver index
  | lose _ index sound => exact sound.lose index
  | move _ name region free sound => exact sound.move name region free
  | @summarize f _ window summaries g returned sound =>
    obtain ⟨summaries', returned', _⟩ := f.graph.regionSummaries_succeeds window
    cases returned'.symm.trans returned
    intro v n present
    rw [Graph.nodes_told] at present
    obtain ⟨n₀, present₀, rfl⟩ := Option.map_eq_some_iff.1 present
    obtain ⟨named, sane⟩ := sound v n₀ present₀
    exact ⟨named, sane.of_same rfl rfl rfl rfl rfl⟩

theorem Lived.numbered (lived : f.Lived) : f.EachNode fun _ n => n.Numbered fun _ _ => False := by
  induction lived with
  | new f fresh _ =>
    intro v n present
    obtain ⟨vertex, resources, window, rfl, _⟩ := fresh v n present
    exact ⟨fun t live => (by cases live), fun _ _ => False.elim⟩
  | @deed f _ name n here d allowed numbered =>
    exact numbered.withNode name d.act (fun n before => d.numbered_act before f.fabric)
      fun _ _ _ => id
  | deliver _ _ numbered => exact numbered
  | lose _ _ numbered => exact numbered
  | @move f _ name region _ numbered =>
    exact numbered.withNode name _ (fun n before => before.of_same rfl rfl) fun _ _ _ => id
  | @summarize f _ window summaries g returned numbered =>
    obtain ⟨summaries', returned', _⟩ := f.graph.regionSummaries_succeeds window
    cases returned'.symm.trans returned
    intro v n present
    rw [Graph.nodes_told] at present
    obtain ⟨n₀, present₀, rfl⟩ := Option.map_eq_some_iff.1 present
    exact (numbered v n₀ present₀).of_same rfl rfl

end Fleet

end RegionNet
