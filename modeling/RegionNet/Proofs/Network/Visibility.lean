import RegionNet.Proofs.Network.Codec
import RegionNet.Proofs.Network.Operations

/-!
# What a node sees of its neighbors

What an exchange shows is decided by what happened to it since its last start or clear. A cycle
fixes a state for every neighbor that the vertex has at that time: the last message that came from
it, if no more than two cycles were begun after it came, this one included. Nothing else is shown: a
datagram that is no message, or comes from no neighbor, leaves the exchange as it is.
-/

namespace RegionNet

/-- What can happen to the exchange of a node. A start that is refused changes nothing and is none
of these. -/
inductive Occurrence
  | start
  | stop
  | beginCycle
  | clear
  | addNeighbor (neighbor : NodeName)
  | arrive (payload : List UInt8)
deriving DecidableEq

namespace Exchange

/-- A fabric in which `before` has happened to the exchange of a node up to its last start or clear,
and `since` after that. The vertex of the node was `handle` at first and is `v` now. Whatever else
happens in the fabric leaves this exchange alone. -/
inductive Past (handle : Vertex) : List Occurrence → List Occurrence → Vertex → Fabric → Prop
  | new (f : Fabric) (unused : f.exchange handle.name = Exchange.new) : Past handle [] [] handle f
  | start {before since : List Occurrence} {v : Vertex} {f : Fabric}
      (past : Past handle before since v f) (binding : Binding) (f' : Fabric)
      (started : f.start binding v = .ok f') : Past handle (before ++ since ++ [.start]) [] v f'
  | clear {before since : List Occurrence} {v : Vertex} {f : Fabric}
      (past : Past handle before since v f) :
      Past handle (before ++ since ++ [.clear]) [] v (Network.clear v f)
  | stop {before since : List Occurrence} {v : Vertex} {f : Fabric}
      (past : Past handle before since v f) :
      Past handle before (since ++ [.stop]) v (Network.stop v f)
  | beginCycle {before since : List Occurrence} {v : Vertex} {f : Fabric}
      (past : Past handle before since v f) :
      Past handle before (since ++ [.beginCycle]) v (Network.beginCycle v f)
  | addNeighbor {before since : List Occurrence} {v : Vertex} {f : Fabric}
      (past : Past handle before since v f) (neighbor : NodeName) (bandwidth : Float) :
      Past handle before (since ++ [.addNeighbor neighbor]) (v.addNeighbor neighbor bandwidth) f
  | arrive {before since : List Occurrence} {v : Vertex} {f : Fabric}
      (past : Past handle before since v f) (vertices : NodeName → Option Vertex) (d : Datagram)
      (listens : f.listener d.destination = some v.name) (own : vertices v.name = some v) :
      Past handle before (since ++ [.arrive d.payload]) v (f.receive vertices d)
  | elsewhere {before since : List Occurrence} {v : Vertex} {f : Fabric}
      (past : Past handle before since v f) (f' : Fabric)
      (same : f'.exchange v.name = f.exchange v.name) : Past handle before since v f'

/-- Is a vertex a neighbor after all this? A neighbor is never given up. -/
def Linked (handle : Vertex) (events : List Occurrence) (w : NodeName) : Prop :=
  handle.hasNeighbor w = true ∨ .addNeighbor w ∈ events

/-- The datagram is a message of a vertex. -/
def IsFrom (w : NodeName) (payload : List UInt8) : Prop :=
  ∃ m, Message.ofBytes payload = .ok m ∧ m.sender = w

/-- The last message that came from its sender, of those that came while the sender was a neighbor,
and how many cycles were begun after it. -/
def LastHeard (handle : Vertex) (before since : List Occurrence) (m : Message Float) (age : Nat) :
    Prop :=
  ∃ first payload after, since = first ++ .arrive payload :: after ∧
    Message.ofBytes payload = .ok m ∧ Linked handle (before ++ first) m.sender ∧
    (∀ payload', .arrive payload' ∈ after → ¬ IsFrom m.sender payload') ∧
    after.count .beginCycle = age

/-- What the cycle that begins after all this has to show of a neighbor. -/
def Sees (handle : Vertex) (before since : List Occurrence) (w : NodeName) : NeighborState → Prop
  | .known round values =>
    ∃ age, LastHeard handle before since ⟨w, round, values⟩ age ∧ age + 1 ≤ 2
  | .unknown => ∀ m age, LastHeard handle before since m age → m.sender = w → 2 < age + 1

/-! ### One event more -/

section

variable {handle : Vertex} {before since : List Occurrence} {m : Message Float} {age : Nat}

theorem Linked.mono {events later : List Occurrence} {w : NodeName}
    (linked : Linked handle events w) : Linked handle (events ++ later) w :=
  linked.imp_right (List.mem_append_left later)

/-- What stands in a list with one more element at the end is this element, or stood there before. -/
theorem concat_eq_append_cons {l first after : List Occurrence} {e x : Occurrence}
    (split : l ++ [e] = first ++ x :: after) :
    (after = [] ∧ x = e ∧ l = first) ∨ ∃ after', after = after' ++ [e] ∧ l = first ++ x :: after' := by
  rcases List.eq_nil_or_concat after with rfl | ⟨after, e', rfl⟩
  · obtain ⟨same, last⟩ := List.append_inj' split rfl
    exact .inl ⟨rfl, (List.singleton_inj.1 last).symm, same⟩
  · rw [List.concat_eq_append, ← List.cons_append, ← List.append_assoc] at split
    obtain ⟨same, last⟩ := List.append_inj' split rfl
    exact .inr ⟨after, by rw [List.concat_eq_append, last], same⟩

theorem not_lastHeard_nil : ¬ LastHeard handle before [] m age := by
  rintro ⟨first, payload, after, split, _⟩
  simp at split

theorem LastHeard.linked (heard : LastHeard handle before since m age) :
    Linked handle (before ++ since) m.sender := by
  obtain ⟨first, payload, after, rfl, _, linked, _⟩ := heard
  rw [← List.append_assoc]
  exact linked.mono

/-- An event that brings no message of the sender makes the last one older, if a cycle begins. -/
theorem lastHeard_concat_of_other (e : Occurrence)
    (other : ∀ payload, e = .arrive payload → ¬ IsFrom m.sender payload) :
    LastHeard handle before (since ++ [e]) m age ↔
      ∃ younger, LastHeard handle before since m younger ∧
        younger + [e].count .beginCycle = age := by
  constructor
  · rintro ⟨first, payload, after, split, decoded, linked, last, rfl⟩
    -- the last message is this event, which is excluded, or one of the earlier events
    rcases concat_eq_append_cons split with ⟨_, rfl, _⟩ | ⟨after, rfl, rfl⟩
    · exact absurd ⟨m, decoded, rfl⟩ (other payload rfl)
    · exact ⟨after.count .beginCycle, ⟨first, payload, after, rfl, decoded, linked,
        fun payload' came => last payload' (List.mem_append_left _ came), rfl⟩,
        List.count_append.symm⟩
  · rintro ⟨_, ⟨first, payload, after, rfl, decoded, linked, last, rfl⟩, rfl⟩
    refine ⟨first, payload, after ++ [e], by simp, decoded, linked, fun payload' came => ?_,
      List.count_append⟩
    rcases List.mem_append.1 came with earlier | here
    · exact last payload' earlier
    · exact other payload' (List.mem_singleton.1 here).symm

/-- A message of a neighbor is the last one when it has come. -/
theorem lastHeard_concat_arrive {payload : List UInt8} {m₀ : Message Float}
    (decoded : Message.ofBytes payload = .ok m₀)
    (linked : Linked handle (before ++ since) m₀.sender) (same : m.sender = m₀.sender) :
    LastHeard handle before (since ++ [.arrive payload]) m age ↔ m = m₀ ∧ age = 0 := by
  constructor
  · rintro ⟨first, payload', after, split, decoded', _, last, rfl⟩
    rcases concat_eq_append_cons split with ⟨rfl, arrived, rfl⟩ | ⟨after, rfl, rfl⟩
    · cases arrived
      cases decoded.symm.trans decoded'
      exact ⟨rfl, rfl⟩
    · exact absurd ⟨m₀, decoded, same.symm⟩ (last payload (by simp))
  · rintro ⟨rfl, rfl⟩
    exact ⟨since, payload, [], rfl, decoded, linked, by simp, rfl⟩

/-- Something can be said of every vertex. -/
theorem exists_sees (handle : Vertex) (before since : List Occurrence) (w : NodeName) :
    ∃ s, Sees handle before since w s := by
  by_cases fresh : ∃ m age, LastHeard handle before since m age ∧ m.sender = w ∧ age + 1 ≤ 2
  · obtain ⟨m, age, heard, rfl, young⟩ := fresh
    exact ⟨.known m.round m.values, age, heard, young⟩
  · exact ⟨.unknown, fun m age heard sender =>
      Nat.lt_of_not_le fun young => fresh ⟨m, age, heard, sender, young⟩⟩

end

/-! ### What an exchange holds -/

/-- An exchange holds what its past says. -/
structure Holds (handle : Vertex) (before since : List Occurrence) (v : Vertex) (x : Exchange) :
    Prop where
  linked : ∀ w, v.hasNeighbor w = true ↔ Linked handle (before ++ since) w
  halted : x.isRunning = false → x.inbox = ∅ ∧ x.snapshot = ∅
  inbox : x.isRunning = true → ∀ m age, LastHeard handle before since m age ↔
    ∃ cycle, x.inbox.get? m.sender = some ⟨m.round, m.values, cycle⟩ ∧ cycle + age = x.cycle
  past : ∀ w h, x.inbox.get? w = some h → h.cycle ≤ x.cycle
  unbegun : .beginCycle ∉ since → x.snapshot = ∅
  snapshot : x.isRunning = true → ∀ earlier later, since = earlier ++ .beginCycle :: later →
    .beginCycle ∉ later → ∀ w s, x.snapshot.get? w = some s ↔
      Linked handle (before ++ earlier) w ∧ Sees handle before earlier w s

namespace Holds

variable {handle : Vertex} {before since : List Occurrence} {v : Vertex} {x : Exchange}

theorem new (handle : Vertex) : Holds handle [] [] handle Exchange.new where
  linked w := by simp [Linked]
  halted _ := ⟨rfl, rfl⟩
  inbox runs := by cases runs
  past w h kept := by cases kept
  unbegun _ := rfl
  snapshot runs := by cases runs

/-- Everything was forgotten: a period begins. -/
theorem reset (holds : Holds handle before since v x) (e : Occurrence)
    (other : ∀ w, e ≠ .addNeighbor w) (x' : Exchange) (inbox : x'.inbox = ∅)
    (snapshot : x'.snapshot = ∅) : Holds handle (before ++ since ++ [e]) [] v x' where
  linked w := by
    rw [holds.linked]
    simp [Linked, (other w).symm]
  halted _ := ⟨inbox, snapshot⟩
  inbox _ m age := by simp [inbox, not_lastHeard_nil]
  past w h kept := by simp [inbox] at kept
  unbegun _ := snapshot
  snapshot _ earlier later split := by simp at split

/-- An event that begins no cycle and brings no message of a neighbor leaves the exchange as it
is, or closes it. -/
theorem other (holds : Holds handle before since v x) (e : Occurrence) (v' : Vertex)
    (linked : ∀ w, v'.hasNeighbor w = true ↔ Linked handle (before ++ since ++ [e]) w)
    (unbegun : e ≠ .beginCycle)
    (unheard : ∀ payload, e = .arrive payload → ∀ w, IsFrom w payload → ¬ v.hasNeighbor w = true) :
    Holds handle before (since ++ [e]) v' x where
  linked w := by rw [linked, List.append_assoc]
  halted := holds.halted
  inbox runs m age := by
    rw [← holds.inbox runs]
    by_cases sent : ∃ payload, e = .arrive payload ∧ IsFrom m.sender payload
    case neg =>
      have silent : ∀ payload, e = .arrive payload → ¬ IsFrom m.sender payload :=
        fun payload same isFrom => sent ⟨payload, same, isFrom⟩
      have none : [e].count Occurrence.beginCycle = 0 := by simp [unbegun]
      simp only [lastHeard_concat_of_other e silent, none, Nat.add_zero, exists_eq_right]
    case pos =>
      -- a message of a vertex that is no neighbor: there is none of it before, either
      obtain ⟨payload, rfl, sent⟩ := sent
      have stranger := unheard payload rfl m.sender sent
      rw [holds.linked] at stranger
      constructor
      · rintro ⟨first, payload', after, split, _, neighbor, last, _⟩
        rcases concat_eq_append_cons split with ⟨_, _, rfl⟩ | ⟨after, rfl, rfl⟩
        · exact absurd neighbor stranger
        · exact absurd sent (last payload (by simp))
      · intro heard
        exact absurd heard.linked stranger
  past := holds.past
  unbegun none := holds.unbegun fun begun => none (List.mem_append_left _ begun)
  snapshot runs earlier later split none w s := by
    rcases concat_eq_append_cons split with ⟨_, same, _⟩ | ⟨later, rfl, rfl⟩
    · exact absurd same.symm unbegun
    · exact holds.snapshot runs earlier later rfl
        (fun begun => none (List.mem_append_left _ begun)) w s

theorem stopped (holds : Holds handle before since v x) (e : Occurrence)
    (other : ∀ w, e ≠ .addNeighbor w) (x' : Exchange) (halted : x'.isRunning = false)
    (inbox : x'.inbox = ∅) (snapshot : x'.snapshot = ∅) :
    Holds handle before (since ++ [e]) v x' where
  linked w := by
    rw [holds.linked]
    simp [Linked, (other w).symm]
  halted _ := ⟨inbox, snapshot⟩
  inbox runs := by simp [halted] at runs
  past w h kept := by simp [inbox] at kept
  unbegun _ := snapshot
  snapshot runs := by simp [halted] at runs

/-- A message of a neighbor is the last one of it. -/
theorem heard (holds : Holds handle before since v x) (payload : List UInt8) (m : Message Float)
    (running : x.isRunning = true) (decoded : Message.ofBytes payload = .ok m)
    (neighbor : v.hasNeighbor m.sender = true) :
    Holds handle before (since ++ [.arrive payload]) v (x.hear m) where
  linked w := by
    rw [holds.linked]
    simp [Linked]
  halted stopped := by
    rw [show (x.hear m).isRunning = x.isRunning from rfl, running] at stopped
    cases stopped
  inbox _ m' age := by
    simp only [hear, SortedMap.get?_insert]
    -- the sender's place in the inbox is taken over, all others stay
    split
    next same =>
      rw [lastHeard_concat_arrive decoded ((holds.linked m.sender).1 neighbor) same]
      constructor
      · rintro ⟨rfl, rfl⟩
        exact ⟨x.cycle, rfl, rfl⟩
      · rintro ⟨cycle, kept, aged⟩
        obtain ⟨sender, round, values⟩ := m'
        simp only [Option.some.injEq, Heard.mk.injEq] at kept same
        obtain ⟨rfl, rfl, rfl⟩ := kept
        exact ⟨by rw [same], by omega⟩
    next differ =>
      have silent (payload' : List UInt8) (same : Occurrence.arrive payload = .arrive payload') :
          ¬ IsFrom m'.sender payload' := by
        cases same
        rintro ⟨m₀, decoded', sender⟩
        cases decoded.symm.trans decoded'
        exact differ sender.symm
      have none : [Occurrence.arrive payload].count .beginCycle = 0 := by simp
      simp only [lastHeard_concat_of_other _ silent, none, Nat.add_zero, exists_eq_right,
        holds.inbox running]
  past w h kept := by
    simp only [hear, SortedMap.get?_insert] at kept
    split at kept
    · cases kept
      exact Nat.le_refl _
    · exact holds.past w h kept
  unbegun none := holds.unbegun fun begun => none (List.mem_append_left _ begun)
  snapshot runs earlier later split none w s := by
    rcases concat_eq_append_cons split with ⟨_, same, _⟩ | ⟨later, rfl, rfl⟩
    · cases same
    · exact holds.snapshot runs earlier later rfl
        (fun begun => none (List.mem_append_left _ begun)) w s

/-- What a cycle that begins now has to show of a neighbor. -/
theorem stateOf_eq_iff (holds : Holds handle before since v x) (running : x.isRunning = true)
    (w : NodeName) (s : NeighborState) :
    x.stateOf (x.cycle + 1) w = s ↔ Sees handle before since w s := by
  -- the age of a message and the cycle that is noted with it add up to the cycle of the exchange
  have ages (m : Message Float) (age : Nat) := holds.inbox running m age
  have fresh_eq : freshCycles = 2 := rfl
  simp only [stateOf]
  cases found : x.inbox.get? w with
  | none =>
    cases s with
    | known round values => simp [Sees, ages, found]
    | unknown =>
      simp only [Sees, true_iff]
      rintro m age heard rfl
      obtain ⟨cycle, kept, _⟩ := (ages m age).1 heard
      rw [found] at kept
      cases kept
  | some h =>
    have past := holds.past w h found
    cases s with
    | known round values =>
      simp only [Sees, ages, found]
      constructor
      · intro shown
        by_cases fresh : x.cycle + 1 - h.cycle ≤ freshCycles
        · rw [if_pos fresh] at shown
          cases shown
          exact ⟨x.cycle - h.cycle, ⟨h.cycle, rfl, by omega⟩, by omega⟩
        · rw [if_neg fresh] at shown
          cases shown
      · rintro ⟨age, ⟨cycle, same, aged⟩, fresh⟩
        cases same
        have fresh' : x.cycle + 1 - cycle ≤ freshCycles := by omega
        rw [if_pos fresh']
    | unknown =>
      simp only [Sees]
      constructor
      · rintro shown m age heard rfl
        obtain ⟨cycle, kept, aged⟩ := (ages m age).1 heard
        cases found.symm.trans kept
        by_cases fresh : x.cycle + 1 - cycle ≤ freshCycles
        · rw [if_pos fresh] at shown
          cases shown
        · omega
      · intro stale
        have old := stale ⟨w, h.round, h.values⟩ (x.cycle - h.cycle)
          ((ages _ _).2 ⟨h.cycle, found, by omega⟩) rfl
        have stale' : ¬ x.cycle + 1 - h.cycle ≤ freshCycles := by omega
        rw [if_neg stale']

/-- A cycle begins, if the exchange is running. -/
theorem begun (holds : Holds handle before since v x) :
    Holds handle before (since ++ [.beginCycle]) v (x.beginCycle v) where
  linked w := by
    rw [holds.linked]
    simp [Linked]
  halted stopped := by
    rw [isRunning_beginCycle] at stopped
    rw [beginCycle, if_neg (by simp [stopped])]
    exact holds.halted stopped
  inbox runs m age := by
    rw [isRunning_beginCycle] at runs
    have silent (payload : List UInt8) (same : Occurrence.beginCycle = .arrive payload) :
        ¬ IsFrom m.sender payload := by cases same
    simp only [lastHeard_concat_of_other _ silent, holds.inbox runs, beginCycle, runs, ↓reduceIte,
      List.count_singleton_self]
    constructor
    · rintro ⟨younger, ⟨cycle, kept, aged⟩, rfl⟩
      exact ⟨cycle, kept, by omega⟩
    · rintro ⟨cycle, kept, aged⟩
      have past : cycle ≤ x.cycle := holds.past _ _ kept
      exact ⟨x.cycle - cycle, ⟨cycle, kept, by omega⟩, by omega⟩
  past w h kept := by
    simp only [beginCycle] at kept ⊢
    split at kept
    next runs =>
      rw [if_pos runs]
      exact Nat.le_succ_of_le (holds.past w h kept)
    next stopped =>
      rw [if_neg stopped]
      exact holds.past w h kept
  unbegun none := absurd (by simp) none
  snapshot runs earlier later split none w s := by
    rw [isRunning_beginCycle] at runs
    rcases concat_eq_append_cons split with ⟨_, _, rfl⟩ | ⟨later, rfl, rfl⟩
    · simp only [beginCycle, runs, ↓reduceIte, SortedMap.get?_mapValues, Option.map_eq_some_iff,
        ← holds.linked, Vertex.hasNeighbor, SortedMap.contains_iff, ← holds.stateOf_eq_iff runs]
      constructor
      · rintro ⟨bandwidth, known, rfl⟩
        exact ⟨⟨bandwidth, known⟩, rfl⟩
      · rintro ⟨⟨bandwidth, known⟩, rfl⟩
        exact ⟨bandwidth, known, rfl⟩
    · -- then the latest cycle would be an earlier one
      exact absurd (by simp) none

/-- A datagram comes in. -/
theorem received (holds : Holds handle before since v x) (payload : List UInt8) :
    Holds handle before (since ++ [.arrive payload]) v (x.receive v payload) := by
  cases runs : x.isRunning with
  | false =>
    rw [receive, if_neg (by simp [runs])]
    exact holds.stopped _ (fun w => by simp) x runs (holds.halted runs).1 (holds.halted runs).2
  | true =>
    have linked (w : NodeName) :
        v.hasNeighbor w = true ↔ Linked handle (before ++ since ++ [.arrive payload]) w := by
      rw [holds.linked]
      simp [Linked]
    rw [receive, if_pos runs]
    split
    next m decoded =>
      split
      next neighbor => exact holds.heard payload m runs decoded neighbor
      next stranger =>
        refine holds.other _ v linked (by simp) ?_
        rintro _ ⟨⟩ w ⟨m', decoded', rfl⟩
        cases decoded.symm.trans decoded'
        exact stranger
    next e garbage =>
      refine holds.other _ v linked (by simp) ?_
      rintro _ ⟨⟩ w ⟨m, decoded, _⟩
      cases garbage.symm.trans decoded

end Holds

/-- What happened to an exchange says what it holds. -/
theorem Past.holds {handle v : Vertex} {before since : List Occurrence} {f : Fabric}
    (past : Past handle before since v f) :
    Holds handle before since v (f.exchange v.name) := by
  induction past with
  | new f unused =>
    rw [unused]
    exact Holds.new handle
  | @start before since v f _ binding f' started ih =>
    obtain ⟨address, _, opened⟩ := Fabric.opened_of_start started
    obtain ⟨inbox, snapshot⟩ := ih.halted opened.stopped
    rw [opened.exchange, if_pos rfl]
    exact ih.reset .start (by simp) _ inbox snapshot
  | @clear before since v f _ ih =>
    simp only [Network.clear, Fabric.exchange_setExchange, ↓reduceIte]
    exact ih.reset .clear (by simp) _ rfl rfl
  | @stop before since v f _ ih =>
    simp only [Network.stop, Fabric.exchange_stop, ↓reduceIte, close]
    split
    next running => exact ih.stopped .stop (by simp) _ rfl rfl rfl
    next stopped =>
      have halted := Bool.eq_false_iff.2 stopped
      exact ih.stopped .stop (by simp) _ halted (ih.halted halted).1 (ih.halted halted).2
  | @beginCycle before since v f _ ih =>
    simp only [Network.beginCycle, Fabric.exchange_setExchange, ↓reduceIte]
    exact ih.begun
  | @addNeighbor before since v f _ neighbor bandwidth ih =>
    refine ih.other (.addNeighbor neighbor) _ (fun w => ?_) (by simp) (by simp)
    have linked := ih.linked w
    simp only [Vertex.hasNeighbor] at linked
    simp only [Vertex.hasNeighbor, Vertex.addNeighbor, SortedMap.contains_insert, linked, Linked,
      List.mem_append, List.mem_singleton, Occurrence.addNeighbor.injEq, or_assoc]
  | @arrive before since v f _ vertices d listens own ih =>
    simp only [Fabric.exchange_receive, listens, own, ↓reduceIte, Option.elim_some]
    exact ih.received d.payload
  | @elsewhere before since v f _ f' same ih =>
    rw [same]
    exact ih

/-- A node sees nothing while its exchange is stopped, nor before its first cycle since the last start
or clear. After that it sees one state for each vertex that was a neighbor at the latest cycle: the
last message of it that came before that cycle, if no more than two cycles were begun after it came,
and unknown otherwise. What is no message, or comes from no neighbor, changes nothing. -/
theorem shows_what_was_heard {handle v : Vertex} {before since : List Occurrence} {f : Fabric}
    (past : Past handle before since v f) :
    (Network.isRunning v f = false → Network.states v f = ∅) ∧
    (.beginCycle ∉ since → Network.states v f = ∅) ∧
    (Network.isRunning v f = true →
      ∀ earlier later, since = earlier ++ .beginCycle :: later → .beginCycle ∉ later → ∀ w,
        ((Network.states v f).contains w = true ↔ Linked handle (before ++ earlier) w) ∧
        ∀ s, (Network.states v f).get? w = some s ↔
          Linked handle (before ++ earlier) w ∧ Sees handle before earlier w s) ∧
    (∀ (vertices : NodeName → Option Vertex) (d : Datagram),
      f.listener d.destination = some v.name → vertices v.name = some v →
      (∀ m, Message.ofBytes d.payload = .ok m → ¬ Linked handle (before ++ since) m.sender) →
        (f.receive vertices d).exchange v.name = f.exchange v.name) := by
  have holds := past.holds
  -- that every neighbor of the latest cycle is shown follows from there being a state to show
  refine ⟨fun stopped => (holds.halted stopped).2, holds.unbegun,
    fun running earlier later split last w => ?_, fun vertices d listens own noise => ?_⟩
  · have shown := holds.snapshot running earlier later split last w
    obtain ⟨s, sees⟩ := exists_sees handle before earlier w
    refine ⟨(SortedMap.contains_iff _ w).trans ⟨fun ⟨s, found⟩ => ((shown s).1 found).1,
      fun linked => ⟨s, (shown s).2 ⟨linked, sees⟩⟩⟩, shown⟩
  simp only [Fabric.exchange_receive, listens, own, ↓reduceIte, Option.elim_some, receive]
  split
  · split
    next m decoded =>
      have stranger := noise m decoded
      rw [← holds.linked] at stranger
      rw [if_neg stranger]
    next => rfl
  · rfl

theorem shows_message_before_first_cycle :
    let v := (Vertex.new "b").addNeighbor "a" 1.0
    let m : Message Float := ⟨"a", 3, ∅⟩
    let f := { Fabric.empty.setExchange "b" (Exchange.new.listen (.loopback 1)) with
      registry := ⟨SortedMap.singleton "b" (.loopback 1)⟩ }
    let f' := Network.beginCycle v (f.receive (fun _ => some v) ⟨.loopback 1, m.toBytes⟩)
    Past v [.start] [.arrive m.toBytes, .beginCycle] v f' ∧ Network.isRunning v f' = true ∧
      (Network.states v f').get? "a" = some (.known 3 ∅) := by
  intro v m f f'
  have started : Fabric.empty.start ⟨some (.loopback 1), true⟩ v = .ok f := by rfl
  have past : Past v [.start] [.arrive m.toBytes, .beginCycle] v f' :=
    (((Past.new Fabric.empty rfl).start _ f started).arrive (fun _ => some v)
      ⟨.loopback 1, m.toBytes⟩ (by decide +kernel) rfl).beginCycle
  have running : Network.isRunning v f' = true := by
    rw [LawfulNetwork.isRunning_beginCycle]
    exact (f.isRunning_receive _ _ "b").trans (by decide +kernel)
  have fits : m.Fits :=
    ⟨by rw [Message.TextFits]; decide +kernel, by decide +kernel, by rintro key ⟨⟩⟩
  have decoded : Message.ofBytes m.toBytes = .ok m := by
    simpa using Message.ofBytes_toBytes_append fits []
  have linked : Linked v [.start] "a" := .inl (by decide +kernel)
  have heard : LastHeard v [.start] [.arrive m.toBytes] m 0 :=
    ⟨[], m.toBytes, [], rfl, decoded, linked, by simp, rfl⟩
  refine ⟨past, running, ?_⟩
  obtain ⟨_, shown⟩ :=
    (shows_what_was_heard past).2.2.1 running [.arrive m.toBytes] [] rfl (by simp) "a"
  exact (shown _).2 ⟨linked.mono, 0, heard, by omega⟩

end Exchange

end RegionNet
