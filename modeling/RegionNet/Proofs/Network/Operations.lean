import RegionNet.Proofs.Network.Lawful

/-!
# What the operations of a fabric do

A node opens, closes, clears and advances its own exchange only. What it shares is in flight and
reaches nobody yet, and a delivery reaches the one exchange that listens at the destination.
-/

namespace RegionNet

namespace Exchange

@[simp] theorem address_beginCycle (x : Exchange) (v : Vertex) :
    (x.beginCycle v).address = x.address := by
  simp only [beginCycle]
  split <;> rfl

@[simp] theorem isRunning_beginCycle (x : Exchange) (v : Vertex) :
    (x.beginCycle v).isRunning = x.isRunning := by
  rw [isRunning, address_beginCycle, isRunning]

@[simp] theorem address_receive (x : Exchange) (v : Vertex) (payload : List UInt8) :
    (x.receive v payload).address = x.address := by
  simp only [receive, hear]
  repeat' split
  all_goals rfl

@[simp] theorem isRunning_receive (x : Exchange) (v : Vertex) (payload : List UInt8) :
    (x.receive v payload).isRunning = x.isRunning := by
  rw [isRunning, address_receive, isRunning]

end Exchange

namespace Fabric

variable {f f' : Fabric} {v : Vertex} {binding : Binding}

/-- What a start that succeeded has done. -/
structure Opened (f : Fabric) (v : Vertex) (address : SocketAddress) (f' : Fabric) : Prop where
  stopped : (f.exchange v.name).isRunning = false
  registered : f.registry.register v.name address = .ok f'.registry
  exchange : ∀ w, f'.exchange w =
    if w = v.name then (f.exchange v.name).listen address else f.exchange w
  inFlight : f'.inFlight = f.inFlight

theorem opened_of_start (started : f.start binding v = .ok f') :
    ∃ address, binding.address = some address ∧ Opened f v address f' := by
  simp only [start] at started
  split at started
  · cases started
  next stopped =>
    split at started
    · cases started
    next address bound =>
      split at started
      · cases started
      next registry registered =>
        split at started
        · cases started
          exact ⟨address, bound, by simpa using stopped, registered,
            fun w => exchange_setExchange f v.name w _, rfl⟩
        · cases started

theorem exchange_stop (f : Fabric) (v : Vertex) (w : NodeName) :
    (f.stop v).exchange w = if w = v.name then (f.exchange v.name).close else f.exchange w := by
  simp only [stop]
  split
  · exact exchange_setExchange f v.name w _
  next stopped =>
    split
    next same => rw [Exchange.close, if_neg stopped, same]
    next => rfl

theorem exchange_share (f : Fabric) (v : Vertex) (round : UInt64)
    (values : SortedMap String Float) (w : NodeName) :
    (f.share v round values).exchange w = f.exchange w := by
  rw [exchange, exchanges_share, exchange]

/-- The exchange that listens at the destination takes the datagram in, as its vertex is known. -/
theorem exchange_receive (f : Fabric) (vertices : NodeName → Option Vertex) (d : Datagram)
    (w : NodeName) :
    (f.receive vertices d).exchange w =
      if f.listener d.destination = some w then
        (vertices w).elim (f.exchange w) fun v => (f.exchange w).receive v d.payload
      else f.exchange w := by
  simp only [receive]
  cases listener : f.listener d.destination with
  | none => simp
  | some node =>
    simp only [Option.some.injEq]
    by_cases same : node = w
    · subst same
      cases vertices node with
      | none => simp
      | some v => simp [exchange_setExchange]
    · cases vertices node with
      | none => simp [same]
      | some v => simp [exchange_setExchange, same, Ne.symm same]

theorem inFlight_receive (f : Fabric) (vertices : NodeName → Option Vertex) (d : Datagram) :
    (f.receive vertices d).inFlight = f.inFlight := by
  simp only [receive]
  split
  · rfl
  · split <;> rfl

theorem registry_receive (f : Fabric) (vertices : NodeName → Option Vertex) (d : Datagram) :
    (f.receive vertices d).registry = f.registry := by
  simp only [receive]
  split
  · rfl
  · split <;> rfl

/-- A delivery starts and stops nothing. -/
theorem isRunning_receive (f : Fabric) (vertices : NodeName → Option Vertex) (d : Datagram)
    (w : NodeName) :
    ((f.receive vertices d).exchange w).isRunning = (f.exchange w).isRunning := by
  rw [exchange_receive]
  split
  · cases vertices w with
    | none => rfl
    | some v => exact Exchange.isRunning_receive _ v d.payload
  · rfl

end Fabric

end RegionNet
