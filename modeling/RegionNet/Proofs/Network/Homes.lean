import RegionNet.Proofs.Network.Registration

/-!
# Where nodes are reached

The system gives every node that starts an address. If the addresses that it may give to a node are
known, its homes, then the node is registered and listens at one of them and nowhere else, whatever
is done in the fabric. What was sent to a neighbor is heard by a node that has a home in common with
it: by the neighbor itself, if no two nodes ever have the same home.
-/

namespace RegionNet

/-- A home of one of its neighbors is at the address. -/
def Addresses (near : NodeName → NodeName → Prop) (home : NodeName → SocketAddress → Prop)
    (v : NodeName) (a : SocketAddress) : Prop :=
  ∃ w, near v w ∧ home w a

/-- What a node sends to its neighbors may come to another one. -/
def Reaches (near : NodeName → NodeName → Prop) (home : NodeName → SocketAddress → Prop)
    (v u : NodeName) : Prop :=
  ∃ a, Addresses near home v a ∧ home u a

/-- It comes to neighbors only, if every home is the home of one node. -/
theorem Reaches.near {near : NodeName → NodeName → Prop} {home : NodeName → SocketAddress → Prop}
    {v u : NodeName} (reaches : Reaches near home v u)
    (own : ∀ w w' a, home w a → home w' a → w = w') : near v u := by
  obtain ⟨a, ⟨w, neighbor, there⟩, here⟩ := reaches
  rwa [own u w a here there]

namespace Fabric

/-- The nodes are registered, and listen, at homes of theirs. -/
structure Housed (home : NodeName → SocketAddress → Prop) (f : Fabric) : Prop where
  registered : ∀ w a, f.registry.resolve w = some a → home w a
  listens : ∀ w a, (f.exchange w).address = some a → home w a

namespace Housed

variable {f f' : Fabric} {v : Vertex} {home : NodeName → SocketAddress → Prop}

theorem empty : Fabric.empty.Housed home where
  registered w a resolved := by cases resolved
  listens w a bound := by cases bound

/-- An operation of a node on its own exchange that binds it to no other address. -/
theorem of_kept (housed : f.Housed home)
    (registered : ∀ w a, f'.registry.resolve w = some a → f.registry.resolve w = some a)
    (listens : ∀ w a, (f'.exchange w).address = some a → (f.exchange w).address = some a) :
    f'.Housed home where
  registered w a resolved := housed.registered w a (registered w a resolved)
  listens w a bound := housed.listens w a (listens w a bound)

theorem stop (housed : f.Housed home) : (f.stop v).Housed home := by
  refine housed.of_kept (fun w a resolved => ?_) fun w a bound => ?_
  · rw [Fabric.stop] at resolved
    split at resolved
    · exact Registry.resolve_unregister w a resolved
    · exact resolved
  · rw [exchange_stop] at bound
    split at bound
    next same =>
      rw [same]
      simp only [Exchange.close] at bound
      split at bound
      · cases bound
      · exact bound
    next => exact bound

theorem setExchange (housed : f.Housed home) {x : Exchange}
    (bound : x.address = (f.exchange v.name).address) : (f.setExchange v.name x).Housed home := by
  refine housed.of_kept (fun _ _ => id) fun w a listens => ?_
  rw [exchange_setExchange] at listens
  split at listens
  next same => rw [same, ← bound, listens]
  next => exact listens

theorem start (housed : f.Housed home) {binding : Binding}
    (started : f.start binding v = .ok f')
    (given : ∀ a, binding.address = some a → home v.name a) : f'.Housed home := by
  obtain ⟨address, bound, opened⟩ := opened_of_start started
  have here : home v.name address := given address bound
  refine ⟨fun w a resolved => ?_, fun w a listens => ?_⟩
  · rw [Registry.resolve_register opened.registered] at resolved
    split at resolved
    next same =>
      cases resolved
      exact same ▸ here
    next => exact housed.registered w a resolved
  · rw [opened.exchange] at listens
    split at listens
    next same =>
      cases listens
      exact same ▸ here
    next => exact housed.listens w a listens

theorem share (housed : f.Housed home) {round : UInt64} {values : SortedMap String Float} :
    (f.share v round values).Housed home :=
  housed.of_kept (fun w a resolved => by rwa [registry_share] at resolved)
    fun w a bound => by rwa [exchange_share] at bound

theorem deliver (housed : f.Housed home) (vertices : NodeName → Option Vertex) (index : Nat) :
    (f.deliver vertices index).Housed home := by
  rw [Fabric.deliver]
  split
  next => exact housed
  next d _ =>
    refine housed.of_kept (fun w a resolved => ?_) fun w a bound => ?_
    · rwa [registry_receive] at resolved
    · rw [exchange_receive] at bound
      split at bound
      · cases known : vertices w with
        | none =>
          rw [known] at bound
          exact bound
        | some v =>
          rw [known, Option.elim_some, Exchange.address_receive] at bound
          exact bound
      · exact bound

end Housed

end Fabric

end RegionNet
