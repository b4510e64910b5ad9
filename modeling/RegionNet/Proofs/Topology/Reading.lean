import Mathlib.Data.List.Induction
import RegionNet.Proofs.Topology.Acceptance
import RegionNet.Proofs.Topology.Effect

/-!
# A topology is read as far as it is accepted

What is built from the lines read so far knows two things about them: the name under which they open
the simulation, and the vertices that they declare. These are all that the next line is judged by.
So an accepted line has an effect, a line with a fault is refused with it, and a text is read to its
end or refused at its first line that is not accepted.
-/

namespace RegionNet

/-! ### What the reader keeps -/

namespace Topology

/-- What is built from the lines read so far knows what they open and what they declare. -/
structure Agrees (earlier : List (List Char)) (t : Topology) : Prop where
  simulator : ∀ name, t.simulator = some (String.ofList name) ↔ Opened earlier name
  members : ∀ v, t.members.contains (String.ofList v) = true ↔ Declared earlier v

variable {earlier : List (List Char)} {line : List Char} {source : DocumentSource} {t t' : Topology}

theorem agrees_nil : Agrees [] empty := by
  constructor
  · intro name
    simp [empty, Opened]
  · intro v
    simp [empty, Declared, SortedMap.contains]

theorem Agrees.next (agrees : Agrees earlier t)
    (effect : Effect source t (Statement.ofLine line) t') : Agrees (earlier ++ [line]) t' := by
  constructor
  · intro name
    rw [effect.simulator_iff, agrees.simulator, Statement.ofLine_eq_simulator_iff]
    simp [Opened, or_and_right, exists_or]
  · intro v
    rw [effect.contains_iff, agrees.members, ← Statement.declaresVertex_iff]
    simp [Declared, or_and_right, exists_or]

theorem Agrees.simulator_eq_none (agrees : Agrees earlier t)
    (unopened : ∀ name, ¬ Opened earlier name) : t.simulator = none := by
  cases opened : t.simulator with
  | none => rfl
  | some name =>
    rw [← String.ofList_toList (s := name), agrees.simulator] at opened
    exact absurd opened (unopened _)

theorem Agrees.missing (agrees : Agrees earlier t) (v : List Char)
    (unknown : ¬ Declared earlier v) : t.members.contains (String.ofList v) = false := by
  rw [← Bool.not_eq_true, agrees.members]
  exact unknown

theorem Agrees.refers (agrees : Agrees earlier t) (token : List Char)
    (known : RefersBack earlier token) :
    ∃ v, String.ofList token = mark v ∧ t.members.contains v = true := by
  obtain ⟨v, rfl, declared⟩ := known
  exact ⟨String.ofList v, by simp [mark], (agrees.members v).2 declared⟩

theorem endpoint_of_fault (agrees : Agrees earlier t) (kind : StatementFault) (token : List Char)
    (e : TopologyError) (fault : ReferenceFault earlier line kind token e) :
    t.endpoint kind (String.ofList line) (String.ofList token) = .error e := by
  cases fault with
  | unmarked unmarked => exact endpoint_of_unmarked kind _ (by simpa using unmarked)
  | @unknown v same unknown =>
    have failed : t.endpoint kind (String.ofList line) (mark (String.ofList v)) =
        .error (.unknownNode (String.ofList v) (String.ofList line)) :=
      endpoint_of_unknown kind (String.ofList v) (agrees.missing v unknown)
    rwa [mark, String.toList_ofList, ← same] at failed

theorem object_effect (agrees : Agrees earlier t) (documents : NodeName → Json)
    (name : List Char) (target : String) (operands : List (List Char))
    (opened : t.simulator = some target) (object : AcceptedObject earlier name operands) :
    ∃ t', Effect (fun n => .ok (documents n)) t
      (.construct (String.ofList name) target (operands.map String.ofList)) t' := by
  rcases object with ⟨first, new⟩ | ⟨left, right, bandwidth, rest, speed, rfl, known, known', read⟩
  · obtain ⟨rest, rfl⟩ := List.head?_eq_some_iff.1 first
    rw [List.map_cons, String.ofList_toList]
    exact ⟨_, .node opened (agrees.missing name new) rfl⟩
  · obtain ⟨v, same, member⟩ := agrees.refers left known
    obtain ⟨w, same', member'⟩ := agrees.refers right known'
    simp only [List.map_cons, String.ofList_toList, same, same']
    exact ⟨_, .link opened member member' read⟩

theorem obey_of_objectFault (agrees : Agrees earlier t) (name : List Char) (target : String)
    (operands : List (List Char)) (e : TopologyError) (opened : t.simulator = some target)
    (fault : ObjectFault earlier line name operands e) :
    t.obey source (String.ofList line)
      (.construct (String.ofList name) target (operands.map String.ofList)) = .error e := by
  cases fault with
  | missingType => simp [obey, opened]
  | @unsupported type rest noNode noLink =>
    have noNode' : String.ofList type ≠ "node" := by
      intro same
      exact noNode (by rw [← same, String.toList_ofList])
    have noLink' : String.ofList type ≠ "duplex-link" := by
      intro same
      exact noLink (by rw [← same, String.toList_ofList])
    -- the two facts are the side conditions under which the last case of the match applies
    simp [obey, opened]
  | duplicate known =>
    simp [obey, opened, addNode, (agrees.members name).2 known]
  | @incomplete operands short =>
    rcases operands with _ | ⟨_, _ | ⟨_, _ | ⟨_, _⟩⟩⟩
    · simp [obey, opened, addLink]
    · simp [obey, opened, addLink]
    · simp [obey, opened, addLink]
    · simp only [List.length_cons] at short
      omega
  | @left left right bandwidth rest _ wrong =>
    simp [obey, opened, addLink, endpoint_of_fault agrees _ left e wrong]
  | @right left right bandwidth rest _ known wrong =>
    obtain ⟨v, same, member⟩ := agrees.refers left known
    simp [obey, opened, addLink, same, endpoint_of_known _ v member,
      endpoint_of_fault agrees _ right e wrong]
  | @bandwidth left right bandwidth rest cause known known' read =>
    obtain ⟨v, same, member⟩ := agrees.refers left known
    obtain ⟨w, same', member'⟩ := agrees.refers right known'
    simp [obey, opened, addLink, same, same', endpoint_of_known _ v member,
      endpoint_of_known _ w member', read]

/-- An accepted line has an effect. -/
theorem effect_of_accepted (agrees : Agrees earlier t) (documents : NodeName → Json)
    (accepted : Accepted earlier line) :
    ∃ t', Effect (fun n => .ok (documents n)) t (Statement.ofLine line) t' := by
  by_cases set : (Text.words line).head? = some "set".toList
  · obtain ⟨name, arguments, form, first, object⟩ := accepted.1 set
    rw [Statement.ofLine_of_isSet line name arguments form]
    split
    next opens => exact ⟨_, .simulator (agrees.simulator_eq_none (first opens))⟩
    next =>
      split
      next target operands words =>
        obtain ⟨opened, object⟩ := object target operands words
        exact object_effect agrees documents name _ operands ((agrees.simulator target).2 opened)
          object
      next => exact ⟨t, .silent⟩
  · by_cases label : (Text.words line).head? = some "tb-set-node-os".toList
    · obtain ⟨keyword, token, os, words, known⟩ := accepted.2 label
      rw [words] at label
      cases label
      obtain ⟨v, same, member⟩ := agrees.refers token known
      rw [Statement.ofLine_of_hardware line _ words]
      simp only [List.map_cons, List.map_nil, same]
      exact ⟨_, .hardware member⟩
    · rw [Statement.ofLine_of_other line set label]
      exact ⟨t, .silent⟩

/-- A line with a fault is refused with it. -/
theorem obey_of_fault (agrees : Agrees earlier t) (e : TopologyError)
    (fault : Fault earlier line e) :
    t.obey source (String.ofList line) (Statement.ofLine line) = .error e := by
  cases fault with
  | malformedSet first formless =>
    rw [Statement.ofLine_of_malformed line first formless]
    rfl
  | @duplicateSimulator first name opens opened =>
    rw [Statement.ofLine_of_opens line name opens]
    simp [obey, (agrees.simulator first).2 opened]
  | missingSimulator constructs unopened =>
    rw [Statement.ofLine_of_constructs line _ _ _ constructs]
    simp [obey, agrees.simulator_eq_none unopened]
  | @foreignObject name target simulator operands constructs opened other =>
    rw [Statement.ofLine_of_constructs line _ _ _ constructs]
    simp [obey, (agrees.simulator simulator).2 opened, String.ofList_inj, other]
  | @object name target operands _ constructs opened wrong =>
    rw [Statement.ofLine_of_constructs line _ _ _ constructs]
    exact obey_of_objectFault agrees name _ operands e ((agrees.simulator target).2 opened) wrong
  | @hardwareTokens rest words count =>
    rw [Statement.ofLine_of_hardware line _ words]
    rcases rest with _ | ⟨_, _ | ⟨_, _ | ⟨_, _⟩⟩⟩
    · rfl
    · rfl
    · exact absurd rfl count
    · rfl
  | @hardwareName token label _ words wrong =>
    rw [Statement.ofLine_of_hardware line _ words]
    simp [obey, labelHardware, endpoint_of_fault agrees _ token e wrong]

/-! ### Whole texts -/

def readStatement (source : DocumentSource) (t : Topology) (line : List Char) :
    Except TopologyError Topology :=
  t.obey source (String.ofList line) (Statement.ofLine line)

/-- A line that is skipped says nothing. -/
theorem readStatement_of_skipped (source : DocumentSource) (t : Topology) (line : List Char)
    (skipped : ¬ (line ≠ [] ∧ line.head? ≠ some '#')) : readStatement source t line = .ok t := by
  have silent : Statement.ofLine line = .silent := by
    cases line with
    | nil => rfl
    | cons c rest =>
      have comment : c = '#' := by simpa using skipped
      simp [Statement.ofLine, Statement.commentMark, comment]
  rw [readStatement, silent]
  rfl

theorem read_eq_foldlM (source : DocumentSource) (text : String) :
    read source text = (statementLines text).foldlM (readStatement source) empty := by
  rw [statementLines, List.foldlM_filter, List.foldlM_map]
  have each : readLine source = fun t raw =>
      if decide (Text.trim raw ≠ [] ∧ (Text.trim raw).head? ≠ some '#') = true
      then readStatement source t (Text.trim raw) else pure t := by
    funext t raw
    split
    next => rfl
    next skipped =>
      exact readStatement_of_skipped source t (Text.trim raw) (by simpa using skipped)
  rw [read, each]

theorem grammatical_concat (lines : List (List Char)) (line : List Char) :
    Grammatical (lines ++ [line]) ↔ Grammatical lines ∧ Accepted lines line := by
  constructor
  · intro grammatical
    refine ⟨fun earlier l later same => ?_, grammatical lines line [] rfl⟩
    exact grammatical earlier l (later ++ [line]) (by simp [same])
  · rintro ⟨grammatical, accepted⟩ earlier l later same
    -- either the line in question is the last one or the last one comes after it
    rcases List.eq_nil_or_concat later with rfl | ⟨later', last, rfl⟩
    · obtain ⟨rfl, here⟩ := List.append_inj' same rfl
      cases here
      exact accepted
    · rw [List.concat_eq_append, ← List.cons_append, ← List.append_assoc] at same
      exact grammatical earlier l later' (List.append_inj' same rfl).1

/-- A grammatical text is read to its end. -/
theorem run_of_grammatical (documents : NodeName → Json) (lines : List (List Char))
    (grammatical : Grammatical lines) :
    ∃ t, lines.foldlM (readStatement fun n => .ok (documents n)) empty = .ok t ∧
      Agrees lines t := by
  -- from the end, since the lines before the last one are what it is judged by
  induction lines using List.reverseRecOn with
  | nil => exact ⟨empty, rfl, agrees_nil⟩
  | append_singleton earlier line ih =>
    obtain ⟨before, accepted⟩ := (grammatical_concat earlier line).1 grammatical
    obtain ⟨t, run, agrees⟩ := ih before
    obtain ⟨t', effect⟩ := effect_of_accepted agrees documents accepted
    refine ⟨t', ?_, agrees.next effect⟩
    rw [List.foldlM_append, run]
    simp [readStatement, obey_of_effect _ effect]

/-- A text is refused with the fault of a line before which it is grammatical. -/
theorem run_of_fault (documents : NodeName → Json) (before after : List (List Char))
    (line : List Char) (e : TopologyError) (grammatical : Grammatical before)
    (fault : Fault before line e) :
    (before ++ line :: after).foldlM (readStatement fun n => .ok (documents n)) empty =
      .error e := by
  obtain ⟨t, run, agrees⟩ := run_of_grammatical documents before grammatical
  rw [List.foldlM_append, run]
  simp [readStatement, obey_of_fault agrees e fault]

theorem grammatical_or_fault (lines : List (List Char)) :
    Grammatical lines ∨ ∃ before line after e, lines = before ++ line :: after ∧
      Grammatical before ∧ Fault before line e := by
  induction lines using List.reverseRecOn with
  | nil =>
    left
    intro earlier line later same
    simp at same
  | append_singleton earlier line ih =>
    -- a fault among the lines before stays the first one
    rcases ih with grammatical | ⟨before, first, after, e, rfl, grammatical, fault⟩
    · rcases accepted_or_fault earlier line with accepted | ⟨e, fault⟩
      · exact .inl ((grammatical_concat earlier line).2 ⟨grammatical, accepted⟩)
      · exact .inr ⟨earlier, line, [], e, rfl, grammatical, fault⟩
    · exact .inr ⟨before, first, after ++ [line], e, by simp, grammatical, fault⟩

theorem not_accepted_of_fault (before : List (List Char)) (line : List Char) (e : TopologyError)
    (grammatical : Grammatical before) (fault : Fault before line e) : ¬ Accepted before line := by
  intro accepted
  -- an accepted line would have an effect on what is built from the lines before it
  let documents : NodeName → Json := fun _ => .null
  obtain ⟨t, _, agrees⟩ := run_of_grammatical documents before grammatical
  obtain ⟨t', effect⟩ := effect_of_accepted agrees documents accepted
  have refused : t.obey (fun n => .ok (documents n)) (String.ofList line)
      (Statement.ofLine line) = .error e := obey_of_fault agrees e fault
  rw [obey_of_effect _ effect] at refused
  cases refused

/-- A text is read if and only if each of its lines is accepted after those before it. Otherwise it
is refused with the fault of the first line that is not, whatever the lines after it are. -/
theorem read_accepts_grammar (documents : NodeName → Json) (text : String) :
    ((∃ t, read (fun n => .ok (documents n)) text = .ok t) ↔
      Grammatical (statementLines text)) ∧
    ∀ e, read (fun n => .ok (documents n)) text = .error e ↔
      ∃ before line after, statementLines text = before ++ line :: after ∧
        Grammatical before ∧ ¬ Accepted before line ∧ Fault before line e := by
  rw [read_eq_foldlM]
  rcases grammatical_or_fault (statementLines text) with
    grammatical | ⟨before, line, after, e, lines, grammatical, fault⟩
  · obtain ⟨t, run, _⟩ := run_of_grammatical documents _ grammatical
    rw [run]
    refine ⟨⟨fun _ => grammatical, fun _ => ⟨t, rfl⟩⟩, fun e => ⟨fun refused => ?_, ?_⟩⟩
    · cases refused
    · rintro ⟨before, line, after, lines, _, unaccepted, _⟩
      exact absurd (grammatical before line after lines) unaccepted
  · have unaccepted := not_accepted_of_fault before line e grammatical fault
    have failed := run_of_fault documents before after line e grammatical fault
    rw [lines, failed]
    refine ⟨⟨?_, fun whole => absurd (whole before line after rfl) unaccepted⟩,
      fun e' => ⟨fun refused => ?_, ?_⟩⟩
    · rintro ⟨t, read⟩
      cases read
    · cases refused
      exact ⟨before, line, after, rfl, grammatical, unaccepted, fault⟩
    · -- two faults of one text are one, as the reader has one outcome
      rintro ⟨before', line', after', same, grammatical', _, fault'⟩
      have failed' := run_of_fault documents before' after' line' e' grammatical' fault'
      rwa [← same, failed] at failed'

end Topology

end RegionNet
