import RegionNet.Proofs.Network.Genuine

/-!
# A node is resolved exactly while it listens

A start binds a socket, registers its address and sets up a receiver, and a stop takes these back in
another order. The system may give an address away as soon as its socket is closed, and any step of
a start may fail. Between two such calls the registry still says of every node at which address its
exchange listens, and nothing else; so no start ever meets an address that someone else has left
behind.
-/

namespace RegionNet

namespace Fabric

/-- A start statement by statement. The address is registered before it is known whether a receiver
can be set up, and is unregistered again if none can. -/
def startInSteps (f : Fabric) (binding : Binding) (v : Vertex) :
    Except NetworkError Unit × Fabric :=
  if (f.exchange v.name).isRunning then (.error (.alreadyRunning v.name), f)
  else
    match binding.address with
    | none => (.error .systemFailure, f)
    | some address =>
      match f.registry.register v.name address with
      | .error conflict => (.error (.addressConflict conflict), f)
      | .ok registry =>
        if binding.receiverStarted then
          (.ok (), { f.setExchange v.name ((f.exchange v.name).listen address) with
            registry := registry })
        else (.error .systemFailure, { f with registry := registry.unregister v.name })

/-- The system binds no address to which an open socket is bound. -/
def Grants (f : Fabric) (binding : Binding) : Prop :=
  ∀ a, binding.address = some a → a ∉ f.boundAddresses

/-- The fabrics that starts and stops, one at a time, come to. What else happens to a fabric changes
neither the registry nor where the exchanges listen. -/
inductive Served : Fabric → Prop
  | new (f : Fabric) (unknown : ∀ w, f.registry.resolve w = none)
      (stopped : ∀ w, (f.exchange w).address = none) : Served f
  | start {f : Fabric} (served : Served f) (binding : Binding) (v : Vertex)
      (grants : f.Grants binding) : Served (f.startInSteps binding v).2
  | stop {f : Fabric} (served : Served f) (v : Vertex) : Served (f.stop v)
  | traffic {f f' : Fabric} (served : Served f) (registry : f'.registry = f.registry)
      (addresses : ∀ w, (f'.exchange w).address = (f.exchange w).address) : Served f'

/-- The registry resolves the nodes that listen, each to the address that it listens at. -/
def Resolved (f : Fabric) : Prop :=
  ∀ w, f.registry.resolve w = (f.exchange w).address

variable {f : Fabric} {binding : Binding} {v : Vertex}

theorem mem_boundAddresses (w : NodeName) (a : SocketAddress)
    (listens : (f.exchange w).address = some a) : a ∈ f.boundAddresses := by
  rw [exchange] at listens
  cases kept : f.exchanges.get? w with
  | none =>
    rw [kept] at listens
    cases listens
  | some x =>
    rw [kept] at listens
    exact List.mem_filterMap.2 ⟨x, (SortedMap.mem_values_iff _ x).2 ⟨w, kept⟩, listens⟩

theorem grants_freeAddress (f : Fabric) : f.Grants ⟨f.freeAddress, true⟩ := by
  intro a free
  simpa using List.find?_some free

/-- A fresh address is registered without a conflict. -/
theorem register_of_grants (resolved : f.Resolved) (grants : f.Grants binding) {a : SocketAddress}
    (bound : binding.address = some a) :
    f.registry.register v.name a = .ok ⟨f.registry.addresses.insert v.name a⟩ := by
  have unowned : f.registry.otherOwner v.name a = none := by
    simp only [Registry.otherOwner, Option.map_eq_none_iff, List.find?_eq_none]
    rintro ⟨w, a'⟩ entry held
    obtain ⟨rfl, _⟩ : a' = a ∧ w ≠ v.name := by simpa using held
    -- whoever is registered at the address listens at it
    have listens := resolved w
    rw [Registry.resolve, (SortedMap.get?_eq_some_iff _ w a').2 entry] at listens
    exact grants a' bound (mem_boundAddresses w a' listens.symm)
  rw [Registry.register, unowned]

/-- What is registered for a node that had no address can be taken back. -/
theorem unregister_insert (r : Registry) (w : NodeName) (a : SocketAddress)
    (unknown : r.resolve w = none) :
    Registry.unregister ⟨r.addresses.insert w a⟩ w = r := by
  have same : (r.addresses.insert w a).erase w = r.addresses := by
    apply SortedMap.ext_get?
    intro k
    rw [SortedMap.get?_erase, SortedMap.get?_insert]
    split
    next here => rw [here]; exact unknown.symm
    next => rfl
  rw [Registry.unregister, same]

/-- What a start comes to, said of its result and of the fabric that it leaves behind. -/
inductive StartOutcome (f : Fabric) (binding : Binding) (v : Vertex) :
    Except NetworkError Unit × Fabric → Prop
  | refused (running : (f.exchange v.name).isRunning = true) :
      StartOutcome f binding v (.error (.alreadyRunning v.name), f)
  | failed (stopped : (f.exchange v.name).isRunning = false)
      (denied : binding.address = none ∨ binding.receiverStarted = false) :
      StartOutcome f binding v (.error .systemFailure, f)
  | opened (stopped : (f.exchange v.name).isRunning = false) (address : SocketAddress)
      (bound : binding.address = some address) (received : binding.receiverStarted = true) :
      StartOutcome f binding v
        (.ok (), { f.setExchange v.name ((f.exchange v.name).listen address) with
          registry := ⟨f.registry.addresses.insert v.name address⟩ })

theorem startOutcome (resolved : f.Resolved) (grants : f.Grants binding) :
    StartOutcome f binding v (f.startInSteps binding v) := by
  rw [startInSteps]
  split
  next running => exact .refused running
  next idle =>
    have stopped : (f.exchange v.name).isRunning = false := by simpa using idle
    split
    next denied => exact .failed stopped (.inl denied)
    next a bound =>
      rw [register_of_grants resolved grants bound]
      -- the node is not running, so nothing is registered for it that could be lost
      have unknown : f.registry.resolve v.name = none := by
        rw [resolved]
        simpa [Exchange.isRunning] using stopped
      dsimp only
      split
      next received => exact .opened stopped a bound received
      next unreceived =>
        rw [unregister_insert f.registry v.name a unknown]
        exact .failed stopped (.inr (by simpa using unreceived))

/-- A start in steps comes to what a start at once does. -/
theorem start_eq_startInSteps (resolved : f.Resolved) (grants : f.Grants binding) :
    f.start binding v = (f.startInSteps binding v).1.map fun _ => (f.startInSteps binding v).2 := by
  have outcome := startOutcome (v := v) resolved grants
  generalize f.startInSteps binding v = after at outcome
  cases outcome with
  | refused running => simp [start, running, Except.map]
  | failed stopped denied =>
    simp only [start, stopped]
    cases bound : binding.address with
    | none => rfl
    | some a =>
      have unreceived : binding.receiverStarted = false :=
        denied.resolve_left (by simp [bound])
      simp [register_of_grants resolved grants bound, unreceived, Except.map]
  | opened stopped a bound received =>
    simp [start, stopped, bound, register_of_grants resolved grants bound, received, Except.map]

/-! ### What every call keeps -/

theorem Resolved.start (resolved : f.Resolved) (grants : f.Grants binding) :
    (f.startInSteps binding v).2.Resolved := by
  have outcome := startOutcome (v := v) resolved grants
  generalize f.startInSteps binding v = after at outcome
  cases outcome with
  | refused | failed => exact resolved
  | opened stopped a bound received =>
    intro w
    have listening := exchange_setExchange f v.name w ((f.exchange v.name).listen a)
    change (f.registry.addresses.insert v.name a).get? w =
      ((f.setExchange v.name ((f.exchange v.name).listen a)).exchange w).address
    rw [listening, SortedMap.get?_insert]
    split
    · rfl
    · exact resolved w

theorem Resolved.stop (resolved : f.Resolved) : (f.stop v).Resolved := by
  intro w
  have closed := exchange_setExchange f v.name w (f.exchange v.name).close
  rw [Fabric.stop]
  split
  next running =>
    change (f.registry.addresses.erase v.name).get? w =
      ((f.setExchange v.name (f.exchange v.name).close).exchange w).address
    rw [closed, SortedMap.get?_erase]
    split
    · simp [Exchange.close, running]
    · exact resolved w
  next => exact resolved w

theorem distinct_startInSteps (resolved : f.Resolved) (grants : f.Grants binding)
    (distinct : f.registry.Distinct) : (f.startInSteps binding v).2.registry.Distinct := by
  have outcome := startOutcome (v := v) resolved grants
  generalize f.startInSteps binding v = after at outcome
  cases outcome with
  | refused | failed => exact distinct
  | opened stopped a bound received =>
    exact distinct.register (register_of_grants (v := v) resolved grants bound)

theorem Served.resolved (served : f.Served) : f.Resolved ∧ f.registry.Distinct := by
  induction served with
  | new f unknown stopped =>
    refine ⟨fun w => (unknown w).trans (stopped w).symm, fun w w' a known => ?_⟩
    cases (unknown w).symm.trans known
  | start _ binding v grants ih =>
    exact ⟨ih.1.start grants, distinct_startInSteps ih.1 grants ih.2⟩
  | @stop f _ v ih =>
    refine ⟨ih.1.stop, ?_⟩
    rw [Fabric.stop]
    split
    · exact ih.2.unregister
    · exact ih.2
  | traffic _ registry addresses ih =>
    refine ⟨fun w => ?_, registry ▸ ih.2⟩
    rw [registry, addresses]
    exact ih.1 w

/-- What holds of a fabric between any two calls. -/
structure Resolves (f : Fabric) : Prop where
  /-- An exchange has an address exactly while it is running. -/
  resolve_eq : ∀ w, f.registry.resolve w = (f.exchange w).address
  distinct : ∀ w w' a, f.registry.resolve w = some a → f.registry.resolve w' = some a → w = w'
  unconflicted : ∀ binding v, f.Grants binding →
    ∀ conflict, (f.startInSteps binding v).1 ≠ .error (.addressConflict conflict)
  refused_iff : ∀ binding v, f.Grants binding →
    ((∃ w, (f.startInSteps binding v).1 = .error (.alreadyRunning w)) ↔
      (f.exchange v.name).isRunning = true)
  started_iff : ∀ binding v, f.Grants binding →
    ((f.startInSteps binding v).1 = .ok () ↔ (f.exchange v.name).isRunning = false ∧
      binding.address.isSome = true ∧ binding.receiverStarted = true)
  restored : ∀ binding v, f.Grants binding → ∀ e, (f.startInSteps binding v).1 = .error e →
    (f.startInSteps binding v).2 = f
  start_eq : ∀ binding v, f.Grants binding →
    f.start binding v = (f.startInSteps binding v).1.map fun _ => (f.startInSteps binding v).2

/-- A node is resolvable exactly while its exchange is running, at the address that it is bound to.
No start meets a conflict, and one that fails leaves everything as it was. -/
theorem resolves_of_served (served : f.Served) : f.Resolves := by
  obtain ⟨resolved, distinct⟩ := served.resolved
  have outcome := fun binding v (grants : f.Grants binding) =>
    startOutcome (v := v) resolved grants
  refine ⟨resolved, distinct, ?_, ?_, ?_, ?_,
    fun binding v grants => start_eq_startInSteps resolved grants⟩
  all_goals
    intro binding v grants
    have outcome := outcome binding v grants
    generalize f.startInSteps binding v = after at outcome
  · intro conflict
    cases outcome <;> simp
  · cases outcome with
    | refused running => simp [running]
    | failed stopped _ => simp [stopped]
    | opened stopped _ _ _ => simp [stopped]
  · cases outcome with
    | refused running => simp [running]
    | failed stopped denied => rcases denied with none | unreceived <;> simp [*]
    | opened stopped a bound received => simp [stopped, bound, received]
  · intro e error
    cases outcome with
    | refused | failed => rfl
    | opened => cases error

/-- A node is started and stopped, the system gives its address to another one, and a third one is
not set up. -/
theorem resolves_of_reused_address :
    let a := SocketAddress.loopback 40000
    let first := (Fabric.empty.startInSteps ⟨some a, true⟩ (Vertex.new "a")).2.stop (Vertex.new "a")
    let second := (first.startInSteps ⟨some a, true⟩ (Vertex.new "b")).2
    let last := (second.startInSteps ⟨second.freeAddress, false⟩ (Vertex.new "c")).2
    last.Served ∧ last.registry.resolve "a" = none ∧ last.registry.resolve "b" = some a ∧
      last.registry.resolve "c" = none ∧ last.Resolves := by
  intro a first second last
  have served : last.Served := by
    refine .start (.start (.stop (.start (.new _ (fun _ => rfl) fun _ => rfl) _ _ ?_) _) _ _ ?_) _ _
      ?_
    · rintro _ ⟨⟩
      decide +kernel
    · rintro _ ⟨⟩
      decide +kernel
    · exact second.grants_freeAddress
  exact ⟨served, by decide +kernel, by decide +kernel, by decide +kernel, resolves_of_served served⟩

end Fabric

end RegionNet
