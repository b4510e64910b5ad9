import RegionNet.Proofs.Outcome
import RegionNet.Proofs.SortedMap.Lookup
import RegionNet.Topology

/-!
# What a statement does

A statement that is not refused opens the simulation, declares a vertex, joins two vertices, labels
one, or does nothing. Each of these is said with all that it requires of what was declared before,
and nothing else is ever done.
-/

namespace RegionNet.Topology

variable {source : DocumentSource} {t t' : Topology} {line : String}

/-- The token that refers to a vertex. -/
def mark (v : NodeName) : String :=
  String.ofList ('$' :: v.toList)

/-- What is built after a statement that is not refused. -/
inductive Effect (source : DocumentSource) (t : Topology) : Statement → Topology → Prop
  | silent : Effect source t .silent t
  | simulator {name : String} : t.simulator = none →
      Effect source t (.simulator name) { t with simulator := some name }
  | node {name target : String} {rest : List String} {document : Json} :
      t.simulator = some target → t.members.contains name = false → source name = .ok document →
      Effect source t (.construct name target ("node" :: rest))
        { t with members := t.members.insert name (Member.new name document) }
  | link {name target left right bandwidth : String} {rest : List String} {speed : Float} :
      t.simulator = some target → t.members.contains left = true →
      t.members.contains right = true → Bandwidth.ofText bandwidth = .ok speed →
      Effect source t
        (.construct name target ("duplex-link" :: mark left :: mark right :: bandwidth :: rest))
        (t.connect ⟨name, left, right, speed⟩)
  | hardware {v label : String} : t.members.contains v = true →
      Effect source t (.hardware [mark v, label])
        { t with members := t.members.modify v (·.setHardware label) }

/-! ### References -/

theorem reference_mark (fault : StatementFault) (v : NodeName) :
    reference fault line (mark v) = .ok v := by
  simp [reference, mark]

theorem reference_of_unmarked (fault : StatementFault) (token : String)
    (unmarked : token.toList.head? ≠ some '$') :
    reference fault line token = .error (.malformedStatement fault line) := by
  simp only [reference]
  split
  next name marked => simp [marked] at unmarked
  next => rfl

theorem reference_eq_ok_iff (fault : StatementFault) (token : String) (v : NodeName) :
    reference fault line token = .ok v ↔ token = mark v := by
  constructor
  · intro referred
    simp only [reference] at referred
    split at referred
    next name marked =>
      cases referred
      rw [mark, String.toList_ofList, ← marked, String.ofList_toList]
    next => cases referred
  · rintro rfl
    exact reference_mark fault v

theorem endpoint_of_unmarked (fault : StatementFault) (token : String)
    (unmarked : token.toList.head? ≠ some '$') :
    t.endpoint fault line token = .error (.malformedStatement fault line) := by
  simp [endpoint, reference_of_unmarked fault token unmarked]

theorem endpoint_of_unknown (fault : StatementFault) (v : NodeName)
    (unknown : t.members.contains v = false) :
    t.endpoint fault line (mark v) = .error (.unknownNode v line) := by
  simp [endpoint, reference_mark fault v, unknown]

theorem endpoint_of_known (fault : StatementFault) (v : NodeName)
    (known : t.members.contains v = true) : t.endpoint fault line (mark v) = .ok v := by
  simp [endpoint, reference_mark fault v, known]

theorem endpoint_eq_ok_iff (fault : StatementFault) (token : String) (v : NodeName) :
    t.endpoint fault line token = .ok v ↔ token = mark v ∧ t.members.contains v = true := by
  constructor
  · intro found
    cases referred : reference fault line token with
    | error e => simp [endpoint, referred] at found
    | ok name =>
      obtain rfl := (reference_eq_ok_iff fault token name).1 referred
      cases known : t.members.contains name with
      | false =>
        rw [endpoint_of_unknown fault name known] at found
        cases found
      | true =>
        rw [endpoint_of_known fault name known] at found
        cases found
        exact ⟨rfl, known⟩
  · rintro ⟨rfl, known⟩
    exact endpoint_of_known fault v known

/-! ### Statements -/

theorem addLink_eq_ok_iff (name : String) (operands : List String) :
    addLink line t name operands = .ok t' ↔
      ∃ left right bandwidth rest speed, operands = mark left :: mark right :: bandwidth :: rest ∧
        t.members.contains left = true ∧ t.members.contains right = true ∧
        Bandwidth.ofText bandwidth = .ok speed ∧ t' = t.connect ⟨name, left, right, speed⟩ := by
  constructor
  · intro added
    match operands with
    | [] | [_] | [_, _] => simp [addLink] at added
    | left :: right :: bandwidth :: rest =>
      simp only [addLink, Outcome.bind_eq_ok_iff] at added
      obtain ⟨v, found, w, found', added⟩ := added
      obtain ⟨rfl, known⟩ := (endpoint_eq_ok_iff _ _ _).1 found
      obtain ⟨rfl, known'⟩ := (endpoint_eq_ok_iff _ _ _).1 found'
      split at added
      next => cases added
      next speed read =>
        cases added
        exact ⟨v, w, bandwidth, rest, speed, rfl, known, known', read, rfl⟩
  · rintro ⟨left, right, bandwidth, rest, speed, rfl, known, known', read, rfl⟩
    simp [addLink, endpoint_of_known _ left known, endpoint_of_known _ right known', read]

theorem labelHardware_eq_ok_iff (operands : List String) :
    labelHardware line t operands = .ok t' ↔
      ∃ v label, operands = [mark v, label] ∧ t.members.contains v = true ∧
        t' = { t with members := t.members.modify v (·.setHardware label) } := by
  constructor
  · intro labelled
    match operands with
    | [token, label] =>
      simp only [labelHardware, Outcome.bind_eq_ok_iff] at labelled
      obtain ⟨v, found, labelled⟩ := labelled
      obtain ⟨rfl, known⟩ := (endpoint_eq_ok_iff _ _ _).1 found
      cases labelled
      exact ⟨v, label, rfl, known, rfl⟩
    | [] | [_] | _ :: _ :: _ :: _ => simp [labelHardware] at labelled
  · rintro ⟨v, label, rfl, known, rfl⟩
    simp [labelHardware, endpoint_of_known _ v known]

theorem addNode_eq_ok_iff (name : NodeName) :
    addNode source line t name = .ok t' ↔
      t.members.contains name = false ∧ ∃ document, source name = .ok document ∧
        t' = { t with members := t.members.insert name (Member.new name document) } := by
  cases known : t.members.contains name with
  | true => simp [addNode, known]
  | false =>
    cases found : source name with
    | error e => simp [addNode, known, found]
    | ok document => simp [addNode, known, found, eq_comm]

theorem effect_of_obey (statement : Statement) (obeyed : t.obey source line statement = .ok t') :
    Effect source t statement t' := by
  cases statement with
  | silent =>
    cases obeyed
    exact .silent
  | malformedSet => cases obeyed
  | simulator name =>
    simp only [obey] at obeyed
    split at obeyed
    next => cases obeyed
    next unopened =>
      cases obeyed
      exact .simulator unopened
  | construct name target operands =>
    simp only [obey] at obeyed
    split at obeyed
    next => cases obeyed
    next simulator opened =>
      split at obeyed
      next => cases obeyed
      next same =>
        obtain rfl := Decidable.of_not_not same
        -- the object is of the simulation: its type decides, and the other types are refused
        split at obeyed
        next => cases obeyed
        next =>
          obtain ⟨new, document, found, rfl⟩ := (addNode_eq_ok_iff name).1 obeyed
          exact .node opened new found
        next =>
          obtain ⟨left, right, bandwidth, rest, speed, rfl, known, known', read, rfl⟩ :=
            (addLink_eq_ok_iff name _).1 obeyed
          exact .link opened known known' read
        next => cases obeyed
  | hardware operands =>
    obtain ⟨v, label, rfl, known, rfl⟩ := (labelHardware_eq_ok_iff operands).1 obeyed
    exact .hardware known

theorem obey_of_effect (statement : Statement) (effect : Effect source t statement t') :
    t.obey source line statement = .ok t' := by
  cases effect with
  | silent => rfl
  | simulator unopened => simp [obey, unopened]
  | node opened new found =>
    simp [obey, opened, (addNode_eq_ok_iff _).2 ⟨new, _, found, rfl⟩]
  | link opened known known' read =>
    simp [obey, opened, (addLink_eq_ok_iff _ _).2 ⟨_, _, _, _, _, rfl, known, known', read, rfl⟩]
  | hardware known =>
    exact (labelHardware_eq_ok_iff _).2 ⟨_, _, rfl, known, rfl⟩

/-! ### What is kept -/

theorem Effect.simulator_iff {statement : Statement} (effect : Effect source t statement t')
    (name : String) :
    t'.simulator = some name ↔ t.simulator = some name ∨ statement = .simulator name := by
  cases effect with
  | simulator unopened => simp [unopened, eq_comm]
  | _ => simp [connect]

theorem Effect.contains_iff {statement : Statement} (effect : Effect source t statement t')
    (v : NodeName) :
    t'.members.contains v = true ↔
      t.members.contains v = true ∨
        ∃ target rest, statement = .construct v target ("node" :: rest) := by
  -- links and labels change vertices in place, and only a new vertex adds a key
  cases effect with
  | silent => simp
  | simulator => simp
  | node =>
    rw [SortedMap.contains_insert]
    constructor
    · rintro (known | rfl)
      · exact .inl known
      · exact .inr ⟨_, _, rfl⟩
    · rintro (known | ⟨_, _, same⟩)
      · exact .inl known
      · cases same
        exact .inr rfl
  | link => simp [connect, SortedMap.contains_modify]
  | hardware => simp [SortedMap.contains_modify]

end RegionNet.Topology
