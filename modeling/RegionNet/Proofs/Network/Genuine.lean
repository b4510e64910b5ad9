import RegionNet.Proofs.Network.Codec
import RegionNet.Proofs.Network.Operations

/-!
# Where messages come from

Every message that is in flight, or that an exchange has kept or shows, was shared by the vertex
that it names as its sender. A message goes to those only whom the registry resolves, each of them
once, and the registry resolves no two nodes to one address. But when a node has stopped, its address
may be given to another one, which then takes in what was meant for the first: so an exchange may hear
from a neighbor that never sent it anything.
-/

namespace RegionNet

/-- No two nodes are resolved to one address. -/
def Registry.Distinct (r : Registry) : Prop :=
  ∀ w w' a, r.resolve w = some a → r.resolve w' = some a → w = w'

namespace Registry

variable {r r' : Registry} {node : NodeName} {address : SocketAddress}

theorem distinct_empty : Registry.empty.Distinct := by
  intro w w' a known
  cases known

theorem resolve_unregister (w : NodeName) (a : SocketAddress)
    (known : (r.unregister node).resolve w = some a) : r.resolve w = some a := by
  rw [resolve, unregister, SortedMap.get?_erase] at known
  split at known
  · cases known
  · exact known

theorem Distinct.unregister (distinct : r.Distinct) : (r.unregister node).Distinct :=
  fun w w' a known known' =>
    distinct w w' a (resolve_unregister w a known) (resolve_unregister w' a known')

/-- An address is given to a node only if no other node holds it. -/
theorem Distinct.register (distinct : r.Distinct) (registered : r.register node address = .ok r') :
    r'.Distinct := by
  simp only [Registry.register] at registered
  split at registered
  · cases registered
  next free =>
    cases registered
    have unheld (w : NodeName) (known : r.resolve w = some address) : w = node := by
      simp only [otherOwner, Option.map_eq_none_iff, List.find?_eq_none] at free
      have held := free (w, address) ((SortedMap.get?_eq_some_iff _ _ _).1 known)
      simpa using held
    intro w w' a known known'
    simp only [resolve, SortedMap.get?_insert] at known known'
    split at known <;> split at known'
    next first second => rw [first, second]
    next first _ =>
      cases known
      exact first.trans (unheld w' known').symm
    next _ second =>
      cases known'
      exact (unheld w known).trans second.symm
    next => exact distinct w w' a known known'

end Registry

/-- A message that can be sent is read as it was written. -/
theorem ofBytes_of_short (m : Message Float) (short : m.toBytes.length ≤ largestDatagram) :
    Message.ofBytes m.toBytes = .ok m := by
  have fits := m.fits_of_length_toBytes (Nat.lt_of_le_of_lt short (by decide))
  simpa using Message.ofBytes_toBytes_append fits []

/-- What an exchange has kept and what it shows was shared by one of those that it is near to, and
it shows no one else. -/
structure Exchange.Genuine (near : NodeName → Prop) (Shared : Message Float → Prop) (x : Exchange) :
    Prop where
  inbox : ∀ w h, x.inbox.get? w = some h → near w ∧ Shared ⟨w, h.round, h.values⟩
  snapshot : ∀ w s, x.snapshot.get? w = some s →
    near w ∧ ∀ round values, s = .known round values → Shared ⟨w, round, values⟩

namespace Exchange.Genuine

variable {near : NodeName → Prop} {Shared Shared' : Message Float → Prop} {x : Exchange}
  {v : Vertex}

theorem mono (genuine : x.Genuine near Shared) (shared : ∀ m, Shared m → Shared' m) :
    x.Genuine near Shared' where
  inbox w h kept := (genuine.inbox w h kept).imp_right (shared _)
  snapshot w s shown := (genuine.snapshot w s shown).imp_right fun known round values same =>
    shared _ (known round values same)

theorem of_empty (inbox : x.inbox = ∅) (snapshot : x.snapshot = ∅) : x.Genuine near Shared where
  inbox w h kept := by simp [inbox] at kept
  snapshot w s shown := by simp [snapshot] at shown

theorem listen (genuine : x.Genuine near Shared) (address : SocketAddress) :
    (x.listen address).Genuine near Shared :=
  ⟨genuine.inbox, genuine.snapshot⟩

theorem close (genuine : x.Genuine near Shared) : x.close.Genuine near Shared := by
  simp only [Exchange.close]
  split
  · exact of_empty rfl rfl
  · exact genuine

theorem beginCycle (genuine : x.Genuine near Shared)
    (neighbors : ∀ w, v.hasNeighbor w = true → near w) : (x.beginCycle v).Genuine near Shared := by
  simp only [Exchange.beginCycle]
  split
  · refine ⟨genuine.inbox, fun w s shown => ?_⟩
    simp only [SortedMap.get?_mapValues, Option.map_eq_some_iff] at shown
    obtain ⟨bandwidth, neighbor, rfl⟩ := shown
    refine ⟨neighbors w ((SortedMap.contains_iff _ w).2 ⟨bandwidth, neighbor⟩),
      fun round values same => ?_⟩
    simp only [stateOf] at same
    split at same
    next h kept =>
      split at same
      · cases same
        exact (genuine.inbox w h kept).2
      · cases same
    next => cases same
  · exact genuine

theorem receive (genuine : x.Genuine near Shared)
    (neighbors : ∀ w, v.hasNeighbor w = true → near w) (m : Message Float)
    (short : m.toBytes.length ≤ largestDatagram) (shared : Shared m) :
    (x.receive v m.toBytes).Genuine near Shared := by
  have decoded := ofBytes_of_short m short
  simp only [Exchange.receive, decoded]
  split
  · split
    next neighbor =>
      refine ⟨fun w h kept => ?_, genuine.snapshot⟩
      simp only [hear, SortedMap.get?_insert] at kept
      split at kept
      next same =>
        cases kept
        exact ⟨same ▸ neighbors _ neighbor, same ▸ shared⟩
      next => exact genuine.inbox w h kept
    next => exact genuine
  · exact genuine

end Exchange.Genuine

namespace Fabric

/-- Every message in flight was sent to its destination, and every message that an exchange has was
heard by its node, which is near to the sender. -/
structure Genuine (near : NodeName → NodeName → Prop) (Sent : SocketAddress → Message Float → Prop)
    (Heard : NodeName → Message Float → Prop) (f : Fabric) : Prop where
  inFlight : ∀ d ∈ f.inFlight, d.payload.length ≤ largestDatagram ∧
    ∃ m, Sent d.destination m ∧ d.payload = m.toBytes
  exchange : ∀ u, (f.exchange u).Genuine (near u) (Heard u)

/-- Only what belongs to one node has changed, and nothing was sent. -/
structure Own (v : Vertex) (f f' : Fabric) : Prop where
  others : ∀ w, w ≠ v.name → f'.exchange w = f.exchange w
  inFlight : f'.inFlight = f.inFlight

/-- The datagrams that carry a payload to the neighbors whose address is known. -/
def addressed (f : Fabric) (v : Vertex) (payload : List UInt8) : List Datagram :=
  v.neighbors.keys.filterMap fun w => (f.registry.resolve w).map fun address => ⟨address, payload⟩

section

variable {f f' : Fabric} {v : Vertex} {near : NodeName → NodeName → Prop}
  {Sent Sent' : SocketAddress → Message Float → Prop} {Heard Heard' : NodeName → Message Float → Prop}

theorem own_stop (f : Fabric) (v : Vertex) : Own v f (f.stop v) where
  others w differ := by rw [exchange_stop, if_neg differ]
  inFlight := by
    rw [stop]
    split <;> rfl

theorem own_setExchange (f : Fabric) (v : Vertex) (x : Exchange) :
    Own v f (f.setExchange v.name x) where
  others w differ := by rw [exchange_setExchange, if_neg differ]
  inFlight := rfl

theorem Opened.own {address : SocketAddress} (opened : Opened f v address f') : Own v f f' where
  others w differ := by rw [opened.exchange, if_neg differ]
  inFlight := opened.inFlight

/-- Who listens at an address is bound to it. -/
theorem address_of_listener {u : NodeName} {a : SocketAddress} (listens : f.listener a = some u) :
    (f.exchange u).address = some a := by
  simp only [listener, Option.map_eq_some_iff] at listens
  obtain ⟨e, found, rfl⟩ := listens
  have bound : e.2.address = some a := by simpa using List.find?_some found
  have entered : f.exchanges.get? e.1 = some e.2 :=
    (SortedMap.get?_eq_some_iff _ _ _).2 (List.mem_of_find?_eq_some found)
  rw [exchange, entered]
  exact bound

namespace Genuine

theorem mono (genuine : f.Genuine near Sent Heard) (sent : ∀ a m, Sent a m → Sent' a m)
    (heard : ∀ u m, Heard u m → Heard' u m) : f.Genuine near Sent' Heard' where
  inFlight d member :=
    (genuine.inFlight d member).imp_right fun ⟨m, before, payload⟩ => ⟨m, sent _ m before, payload⟩
  exchange u := (genuine.exchange u).mono (heard u)

theorem empty : Fabric.empty.Genuine near Sent Heard where
  inFlight d member := by cases member
  exchange u := .of_empty rfl rfl

/-- An operation of a node on its own exchange. -/
theorem own (genuine : f.Genuine near Sent Heard) (own : Own v f f')
    (here : (f'.exchange v.name).Genuine (near v.name) (Heard v.name)) : f'.Genuine near Sent Heard where
  inFlight := by
    rw [own.inFlight]
    exact genuine.inFlight
  exchange u := by
    by_cases same : u = v.name
    · rw [same]
      exact here
    · rw [own.others u same]
      exact genuine.exchange u

theorem stop (genuine : f.Genuine near Sent Heard) : (f.stop v).Genuine near Sent Heard := by
  refine genuine.own (own_stop f v) ?_
  rw [exchange_stop, if_pos rfl]
  exact (genuine.exchange v.name).close

theorem start (genuine : f.Genuine near Sent Heard) {binding : Binding}
    (started : f.start binding v = .ok f') : f'.Genuine near Sent Heard := by
  obtain ⟨address, _, opened⟩ := opened_of_start started
  refine genuine.own opened.own ?_
  rw [opened.exchange, if_pos rfl]
  exact (genuine.exchange v.name).listen address

theorem setExchange (genuine : f.Genuine near Sent Heard) {x : Exchange}
    (here : x.Genuine (near v.name) (Heard v.name)) : (f.setExchange v.name x).Genuine near Sent Heard := by
  refine genuine.own (own_setExchange f v x) ?_
  rw [exchange_setExchange, if_pos rfl]
  exact here

theorem clear (genuine : f.Genuine near Sent Heard) : (Network.clear v f).Genuine near Sent Heard :=
  genuine.setExchange (.of_empty rfl rfl)

theorem beginCycle (genuine : f.Genuine near Sent Heard)
    (neighbors : ∀ w, v.hasNeighbor w = true → near v.name w) :
    (Network.beginCycle v f).Genuine near Sent Heard :=
  genuine.setExchange ((genuine.exchange v.name).beginCycle neighbors)

/-- A datagram that is taken in was in flight, and was sent to where the node listens. -/
theorem deliver (genuine : f.Genuine near Sent Heard) {vertices : NodeName → Option Vertex}
    (neighbors : ∀ u v, vertices u = some v → ∀ w, v.hasNeighbor w = true → near u w)
    (arrives : ∀ u a m, (f.exchange u).address = some a → Sent a m → Heard u m) (index : Nat) :
    (f.deliver vertices index).Genuine near Sent Heard := by
  rw [Fabric.deliver]
  split
  next => exact genuine
  next d found =>
    obtain ⟨short, m, sent, payload⟩ := genuine.inFlight d (List.mem_of_getElem? found)
    refine ⟨fun d' member => ?_, fun u => ?_⟩
    · rw [inFlight_receive] at member
      exact genuine.inFlight d' (List.mem_of_mem_eraseIdx member)
    · have same : ({ f with inFlight := f.inFlight.eraseIdx index } : Fabric).exchange u =
          f.exchange u := rfl
      rw [exchange_receive, same]
      split
      next listens =>
        cases known : vertices u with
        | none => exact genuine.exchange u
        | some v =>
          have heard : Heard u m := arrives u _ m (address_of_listener listens) sent
          rw [payload] at short ⊢
          exact (genuine.exchange u).receive (neighbors u v known) m short heard
      next => exact genuine.exchange u

theorem lose (genuine : f.Genuine near Sent Heard) (index : Nat) :
    (f.lose index).Genuine near Sent Heard where
  inFlight d member := genuine.inFlight d (List.mem_of_mem_eraseIdx member)
  exchange := genuine.exchange

end Genuine

end

/-! ### What is sent -/

theorem foldl_send (payload : List UInt8) (l : List NodeName) (f : Fabric) :
    let f' := l.foldl (fun f neighbor =>
      match f.registry.resolve neighbor with
      | some address => f.send ⟨address, payload⟩
      | none => f) f
    f'.registry = f.registry ∧ f'.inFlight = f.inFlight ++
      if payload.length ≤ largestDatagram then
        l.filterMap fun w => (f.registry.resolve w).map fun address => ⟨address, payload⟩
      else [] := by
  induction l generalizing f with
  | nil => simp
  | cons w l ih =>
    simp only [List.foldl_cons, List.filterMap_cons]
    cases known : f.registry.resolve w with
    | none => exact ih f
    | some address =>
      obtain ⟨registry, inFlight⟩ := ih (f.send ⟨address, payload⟩)
      have same : (f.send ⟨address, payload⟩).registry = f.registry := by
        rw [send]
        split <;> rfl
      refine ⟨registry.trans same, ?_⟩
      rw [inFlight, same, send]
      split
      · simp
      · rfl

theorem registry_share (f : Fabric) (v : Vertex) (round : UInt64)
    (values : SortedMap String Float) : (f.share v round values).registry = f.registry := by
  simp only [share]
  split
  · exact (foldl_send _ v.neighbors.keys f).1
  · rfl

/-- A datagram goes to every neighbor whose address is known, if the exchange is running and the
message is not too long. -/
theorem inFlight_share (f : Fabric) (v : Vertex) (round : UInt64)
    (values : SortedMap String Float) :
    (f.share v round values).inFlight = f.inFlight ++
      if (f.exchange v.name).isRunning ∧
          (Message.mk v.name round values).toBytes.length ≤ largestDatagram then
        f.addressed v (Message.mk v.name round values).toBytes
      else [] := by
  simp only [share]
  split
  next running =>
    simp only [running, true_and]
    exact (foldl_send _ v.neighbors.keys f).2
  next stopped => simp [stopped]

/-- Whatever is sent when a message is shared carries this message. -/
theorem Genuine.share {f : Fabric} {v : Vertex} {near : NodeName → NodeName → Prop}
    {Sent : SocketAddress → Message Float → Prop} {Heard : NodeName → Message Float → Prop}
    (genuine : f.Genuine near Sent Heard) (round : UInt64) (values : SortedMap String Float)
    (sent : ∀ w a, v.hasNeighbor w = true → f.registry.resolve w = some a →
      Sent a ⟨v.name, round, values⟩) :
    (f.share v round values).Genuine near Sent Heard where
  inFlight d member := by
    rw [inFlight_share] at member
    rcases List.mem_append.1 member with earlier | now
    · exact genuine.inFlight d earlier
    · split at now
      next running =>
        obtain ⟨w, neighbor, addressed⟩ := List.mem_filterMap.1 now
        obtain ⟨address, resolved, rfl⟩ := Option.map_eq_some_iff.1 addressed
        exact ⟨running.2, _, sent w address ((SortedMap.mem_keys_iff _ w).1 neighbor) resolved, rfl⟩
      next => cases now
  exchange u := by
    rw [exchange_share]
    exact genuine.exchange u

/-- No neighbor is sent a message twice. -/
theorem addressed_once {f : Fabric} {r : Registry} (distinct : r.Distinct)
    (known : ∀ w a, f.registry.resolve w = some a → r.resolve w = some a) (v : Vertex)
    (payload : List UInt8) (w : NodeName) :
    ((f.addressed v payload).filter fun d => r.resolve w == some d.destination).length ≤ 1 := by
  have once := List.nodup_iff_count_le_one.1 v.neighbors.keys_nodup w
  refine Nat.le_trans ?_ once
  rw [addressed]
  generalize v.neighbors.keys = keys
  induction keys with
  | nil => exact Nat.le_refl 0
  | cons k keys ih =>
    rw [List.filterMap_cons, List.count_cons]
    cases resolved : f.registry.resolve k with
    | none => exact Nat.le_add_right_of_le ih
    | some address =>
      simp only [Option.map_some, List.filter_cons]
      split
      next here =>
        -- only one node holds the address
        have same : w = k := distinct w k address (by simpa using here) (known k address resolved)
        simpa [same] using ih
      next => exact Nat.le_add_right_of_le ih

end Fabric

end RegionNet
