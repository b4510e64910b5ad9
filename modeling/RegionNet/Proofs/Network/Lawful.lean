import RegionNet.Network.Fabric
import RegionNet.Network.StandIn
import RegionNet.Proofs.SortedMap.Lookup

/-!
# Networks that start and stop

Whether the network of a node runs is decided by the starts and stops of that node alone: a network
runs after a start, and does not after a stop, and is refused a start exactly while it runs. The
other operations, and the traffic of the neighbors, leave it running or stopped.
-/

namespace RegionNet

class LawfulNetwork (ν : Type) [Network ν] : Prop where
  start_eq_alreadyRunning_iff (v : Vertex) (net : ν) :
    Network.start v net = .error (.alreadyRunning v.name) ↔ Network.isRunning v net = true
  isRunning_of_start (v : Vertex) (net net' : ν) (started : Network.start v net = .ok net') :
    Network.isRunning v net' = true
  isRunning_stop (v : Vertex) (net : ν) : Network.isRunning v (Network.stop v net) = false
  isRunning_beginCycle (v : Vertex) (net : ν) :
    Network.isRunning v (Network.beginCycle v net) = Network.isRunning v net
  isRunning_share (v : Vertex) (round : UInt64) (values : SortedMap String Float) (net : ν) :
    Network.isRunning v (Network.share v round values net) = Network.isRunning v net

instance : LawfulNetwork StandIn where
  start_eq_alreadyRunning_iff v net := by
    simp only [Network.start, Network.isRunning]
    cases net.running <;> cases net.failing <;> simp
  isRunning_of_start v net net' started := by
    simp only [Network.start] at started
    split at started
    · cases started
    · split at started
      · cases started
      · cases started
        rfl
  isRunning_stop _ _ := rfl
  isRunning_beginCycle _ _ := rfl
  isRunning_share _ _ _ _ := rfl

namespace Fabric

theorem exchange_setExchange (f : Fabric) (node node' : NodeName) (x : Exchange) :
    (f.setExchange node x).exchange node' = if node' = node then x else f.exchange node' := by
  simp only [exchange, setExchange, SortedMap.get?_insert]
  split <;> rfl

theorem exchanges_foldl {α : Type} (step : Fabric → α → Fabric)
    (keeps : ∀ f a, (step f a).exchanges = f.exchanges) (l : List α) (f : Fabric) :
    (l.foldl step f).exchanges = f.exchanges := by
  induction l generalizing f with
  | nil => rfl
  | cons a l ih => rw [List.foldl_cons, ih, keeps]

/-- What is sent is in flight, and reaches nobody yet. -/
theorem exchanges_share (f : Fabric) (v : Vertex) (round : UInt64)
    (values : SortedMap String Float) : (f.share v round values).exchanges = f.exchanges := by
  simp only [share]
  split
  · refine exchanges_foldl _ (fun f neighbor => ?_) v.neighbors.keys f
    split
    · simp only [send]
      split <;> rfl
    · rfl
  · rfl

/-- Whatever the system answers, a start is refused exactly while the exchange is running. -/
theorem start_eq_alreadyRunning_iff (f : Fabric) (binding : Binding) (v : Vertex) :
    f.start binding v = .error (.alreadyRunning v.name) ↔
      (f.exchange v.name).isRunning = true := by
  simp only [start]
  split
  next running => simp [running]
  next stopped =>
    split
    · simp [stopped]
    · split
      · simp [stopped]
      · split <;> simp [stopped]

theorem isRunning_of_start {f f' : Fabric} {binding : Binding} {v : Vertex}
    (started : f.start binding v = .ok f') : (f'.exchange v.name).isRunning = true := by
  simp only [start] at started
  split at started
  · cases started
  · split at started
    · cases started
    next _ address _ =>
      split at started
      · cases started
      next registry _ =>
        split at started
        · cases started
          have bound := f.exchange_setExchange v.name v.name ((f.exchange v.name).listen address)
          rw [if_pos rfl] at bound
          exact congrArg Exchange.isRunning bound
        · cases started

end Fabric

instance : LawfulNetwork Fabric where
  start_eq_alreadyRunning_iff v f := f.start_eq_alreadyRunning_iff _ v
  isRunning_of_start _ _ _ started := Fabric.isRunning_of_start started
  isRunning_stop v f := by
    simp only [Network.stop, Network.isRunning, Fabric.stop]
    split
    next running =>
      have closed := f.exchange_setExchange v.name v.name (f.exchange v.name).close
      rw [if_pos rfl] at closed
      refine (congrArg Exchange.isRunning closed).trans ?_
      simp only [Exchange.close, running, ↓reduceIte]
      rfl
    next stopped => simpa using stopped
  isRunning_beginCycle v f := by
    simp only [Network.isRunning, Network.beginCycle, Fabric.exchange_setExchange, ↓reduceIte,
      Exchange.beginCycle]
    split <;> rfl
  isRunning_share v round values f := by
    simp only [Network.isRunning, Network.share, Fabric.exchange, Fabric.exchanges_share]

end RegionNet
