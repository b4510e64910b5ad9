import RegionNet.Proofs.Text.Pieces
import RegionNet.Proofs.Text.Words
import RegionNet.Topology.Statement

/-!
# The forms of the lines of a topology

What it is for a line to be a `set` line, to open a simulation, to make an object and to declare a
vertex, said by the pieces that the line is put together from. The reader finds exactly these forms:
a `set` line comes apart in one way only, and the statement on a line is decided by its first word
and, for a `set` line, by the text between its brackets.
-/

namespace RegionNet

def IsGap (cs : List Char) : Prop := cs ≠ [] ∧ ∀ c ∈ cs, Text.isBlank c = true

def IsWord (cs : List Char) : Prop := cs ≠ [] ∧ ∀ c ∈ cs, Text.isBlank c = false

/-- The line is `set name [arguments]`, with white space before the name and before the bracket. -/
def IsSet (line name arguments : List Char) : Prop :=
  ∃ gap gap', IsGap gap ∧ IsWord name ∧ IsGap gap' ∧ (arguments ≠ [] ∧ ']' ∉ arguments) ∧
    line = "set".toList ++ gap ++ name ++ gap' ++ ['['] ++ arguments ++ [']']

def OpensSimulation (line name : List Char) : Prop :=
  IsSet line name "new Simulator".toList

/-- The line is a `set` line whose first argument is `$target`, with more arguments after it. -/
def Constructs (line name target : List Char) (operands : List (List Char)) : Prop :=
  ∃ arguments, IsSet line name arguments ∧ Text.words arguments = ('$' :: target) :: operands

def DeclaresVertex (line name : List Char) : Prop :=
  ∃ target rest, Constructs line name target ("node".toList :: rest)

/-! ### The one way in which a set line comes apart -/

theorem setParts?_of_isSet (line name arguments : List Char) (form : IsSet line name arguments) :
    Statement.setParts? line = some (name, arguments) := by
  obtain ⟨gap, gap', ⟨gap_ne, gap_blank⟩, ⟨name_ne, name_solid⟩, ⟨gap'_ne, gap'_blank⟩,
    ⟨arguments_ne, closed⟩, rfl⟩ := form
  obtain ⟨g, gap, rfl⟩ := List.exists_cons_of_ne_nil gap_ne
  obtain ⟨n, name, rfl⟩ := List.exists_cons_of_ne_nil name_ne
  obtain ⟨g', gap', rfl⟩ := List.exists_cons_of_ne_nil gap'_ne
  have g_blank := gap_blank g List.mem_cons_self
  have g'_blank := gap'_blank g' List.mem_cons_self
  have n_solid := name_solid n List.mem_cons_self
  have name_run : ∀ c ∈ n :: name, (!Text.isBlank c) = true := by
    intro c member
    simp [name_solid c member]
  -- each cut stops at the first character of the piece after it
  let bracket := '[' :: (arguments ++ [']'])
  have past_gap : List.dropWhile Text.isBlank
      ((g :: gap) ++ ((n :: name) ++ ((g' :: gap') ++ bracket))) =
        (n :: name) ++ ((g' :: gap') ++ bracket) :=
    Text.dropWhile_run _ _ gap_blank (by simp [n_solid])
  have name_cut : List.takeWhile (fun c => !Text.isBlank c)
      ((n :: name) ++ ((g' :: gap') ++ bracket)) = n :: name :=
    Text.takeWhile_run _ _ name_run (by simp [g'_blank])
  have past_name : List.dropWhile (fun c => !Text.isBlank c)
      ((n :: name) ++ ((g' :: gap') ++ bracket)) = (g' :: gap') ++ bracket :=
    Text.dropWhile_run _ _ name_run (by simp [g'_blank])
  have past_gap' : List.dropWhile Text.isBlank ((g' :: gap') ++ bracket) = bracket :=
    Text.dropWhile_run _ _ gap'_blank (by simp [bracket, show Text.isBlank '[' = false by decide])
  have past_keyword : List.drop Statement.setKeyword.length
      ("set".toList ++ (g :: gap) ++ (n :: name) ++ (g' :: gap') ++ ['['] ++ arguments ++ [']']) =
        (g :: gap) ++ ((n :: name) ++ ((g' :: gap') ++ bracket)) := by
    simp [Statement.setKeyword, bracket]
  have keyword : Statement.setKeyword.isPrefixOf
      ("set".toList ++ (g :: gap) ++ (n :: name) ++ (g' :: gap') ++ ['['] ++ arguments ++ [']']) =
        true := by
    simp [Statement.setKeyword]
  simp only [Statement.setParts?, past_keyword, past_gap, name_cut, past_name, past_gap', keyword]
  simp [bracket, g_blank, g'_blank, arguments_ne, closed]

theorem isGap_takeWhile (cs : List Char) (starts : cs.head?.any Text.isBlank = true) :
    IsGap (cs.takeWhile Text.isBlank) := by
  refine ⟨?_, fun c member => List.mem_takeWhile_imp member⟩
  cases cs with
  | nil => simp at starts
  | cons c cs =>
    have blank : Text.isBlank c = true := by simpa using starts
    simp [blank]

theorem isSet_of_setParts? (line name arguments : List Char)
    (parts : Statement.setParts? line = some (name, arguments)) : IsSet line name arguments := by
  simp only [Statement.setParts?] at parts
  split at parts
  next checks =>
    split at parts
    next body bracket =>
      split at parts
      next ending =>
        simp only [Bool.and_eq_true, List.isPrefixOf_iff_prefix] at checks
        obtain ⟨⟨⟨⟨rest, rfl⟩, gap_starts⟩, name_ne⟩, gap'_starts⟩ := checks
        rw [List.drop_left] at gap_starts name_ne gap'_starts bracket parts
        cases parts
        simp only [Bool.and_eq_true, decide_eq_true_eq, Bool.not_eq_true',
          List.isEmpty_eq_false_iff, List.contains_eq_mem, decide_eq_false_iff_not]
          at ending name_ne
        obtain ⟨⟨last, arguments_ne⟩, closed⟩ := ending
        refine ⟨_, _, isGap_takeWhile _ gap_starts, ⟨name_ne, ?_⟩, isGap_takeWhile _ gap'_starts,
          ⟨arguments_ne, closed⟩, ?_⟩
        · intro c member
          simpa using List.mem_takeWhile_imp member
        · obtain ⟨arguments, rfl⟩ := List.getLast?_eq_some_iff.1 last
          -- the pieces are what the cuts took off, one after the other
          rw [List.dropLast_concat]
          simp only [List.append_assoc, List.cons_append, List.nil_append]
          rw [← bracket, List.takeWhile_append_dropWhile, List.takeWhile_append_dropWhile,
            List.takeWhile_append_dropWhile]
          rfl
      next => cases parts
    next => cases parts
  next => cases parts

theorem setParts?_eq_some_iff (line name arguments : List Char) :
    Statement.setParts? line = some (name, arguments) ↔ IsSet line name arguments :=
  ⟨isSet_of_setParts? line name arguments, setParts?_of_isSet line name arguments⟩

theorem IsSet.unique {line name arguments name' arguments' : List Char}
    (form : IsSet line name arguments) (form' : IsSet line name' arguments') :
    name = name' ∧ arguments = arguments' := by
  rw [← setParts?_eq_some_iff] at form form'
  rw [form] at form'
  cases form'
  exact ⟨rfl, rfl⟩

theorem isWord_setKeyword : IsWord Statement.setKeyword := by
  refine ⟨by decide, fun c member => ?_⟩
  have solid : Statement.setKeyword.all (fun c => !Text.isBlank c) = true := by decide
  simpa using List.all_eq_true.1 solid c member

theorem IsSet.first_word {line name arguments : List Char} (form : IsSet line name arguments) :
    (Text.words line).head? = some "set".toList := by
  obtain ⟨gap, gap', ⟨gap_ne, gap_blank⟩, _, _, _, rfl⟩ := form
  have first := Text.words_append_gap "set".toList gap (name ++ gap' ++ ['['] ++ arguments ++ [']'])
    isWord_setKeyword.1 isWord_setKeyword.2 gap_ne gap_blank
  simp only [List.append_assoc] at first ⊢
  rw [first]
  rfl

/-! ### The statement on a line -/

namespace Statement

/-- A comment has a first word that starts with the mark, and so no keyword. -/
theorem no_comment (line word : List Char) (first : (Text.words line).head? = some word)
    (other : word.head? ≠ some commentMark) : line.head? ≠ some commentMark := by
  cases line with
  | nil => simp
  | cons c rest =>
    intro marked
    cases marked
    -- the first word starts with the mark itself
    obtain ⟨tail, words, cut⟩ := Text.words_cons_of_solid commentMark rest (by decide)
    rw [cut] at first
    cases first
    exact other rfl

theorem ofLine_of_set (line : List Char) (first : (Text.words line).head? = some setKeyword) :
    ofLine line = ofSetLine line := by
  have shown := no_comment line setKeyword first (by decide)
  cases words : Text.words line with
  | nil => simp [words] at first
  | cons keyword rest =>
    rw [words] at first
    cases first
    simp [ofLine, shown, words]

theorem ofLine_of_isSet (line name arguments : List Char) (form : IsSet line name arguments) :
    ofLine line =
      if arguments = simulatorArguments then simulator (String.ofList name)
      else
        match Text.words arguments with
        | ('$' :: target) :: rest =>
          construct (String.ofList name) (String.ofList target) (rest.map String.ofList)
        | _ => silent := by
  have parts := setParts?_of_isSet line name arguments form
  rw [ofLine_of_set line form.first_word]
  unfold ofSetLine
  split
  next missing =>
    rw [parts] at missing
    cases missing
  next found =>
    rw [parts] at found
    cases found
    rfl

theorem ofLine_of_malformed (line : List Char) (first : (Text.words line).head? = some setKeyword)
    (formless : ∀ name arguments, ¬ IsSet line name arguments) : ofLine line = malformedSet := by
  rw [ofLine_of_set line first, ofSetLine]
  cases parts : setParts? line with
  | none => rfl
  | some found => exact absurd ((setParts?_eq_some_iff line found.1 found.2).1 parts) (formless _ _)

theorem ofLine_of_hardware (line : List Char) (rest : List (List Char))
    (words : Text.words line = hardwareKeyword :: rest) :
    ofLine line = hardware (rest.map String.ofList) := by
  have shown := no_comment line hardwareKeyword (by rw [words]; rfl) (by decide)
  simp [ofLine, shown, words, show hardwareKeyword ≠ setKeyword by decide]

theorem ofLine_of_other (line : List Char) (noSet : (Text.words line).head? ≠ some setKeyword)
    (noHardware : (Text.words line).head? ≠ some hardwareKeyword) : ofLine line = silent := by
  rw [ofLine]
  split
  · rfl
  · cases words : Text.words line with
    | nil => rfl
    | cons keyword rest =>
      rw [words] at noSet noHardware
      have other : keyword ≠ setKeyword := fun same => noSet (by rw [same]; rfl)
      have other' : keyword ≠ hardwareKeyword := fun same => noHardware (by rw [same]; rfl)
      simp [other, other']

theorem words_simulatorArguments :
    Text.words simulatorArguments = ["new".toList, "Simulator".toList] := by
  decide

/-- The arguments that open a simulation refer to nothing. -/
theorem no_reference (target : List Char) (operands : List (List Char)) :
    Text.words simulatorArguments ≠ ('$' :: target) :: operands := by
  rw [words_simulatorArguments]
  simp

theorem ofLine_of_opens (line name : List Char) (opens : OpensSimulation line name) :
    ofLine line = simulator (String.ofList name) := by
  rw [ofLine_of_isSet line name _ opens]
  rfl

theorem ofLine_of_constructs (line name target : List Char) (operands : List (List Char))
    (constructs : Constructs line name target operands) :
    ofLine line =
      construct (String.ofList name) (String.ofList target) (operands.map String.ofList) := by
  obtain ⟨arguments, form, words⟩ := constructs
  have other : arguments ≠ simulatorArguments := by
    rintro rfl
    exact no_reference target operands words
  rw [ofLine_of_isSet line name arguments form, if_neg other, words]
  rfl

/-- A line that is no `set` line opens and makes nothing. -/
theorem isSet_or_plain (line : List Char) :
    (∃ name arguments, IsSet line name arguments) ∨ ofLine line = malformedSet ∨
      ofLine line = silent ∨ ∃ rest, ofLine line = hardware rest := by
  by_cases form : ∃ name arguments, IsSet line name arguments
  · exact .inl form
  · right
    push Not at form
    by_cases set : (Text.words line).head? = some setKeyword
    · exact .inl (ofLine_of_malformed line set form)
    · right
      by_cases label : (Text.words line).head? = some hardwareKeyword
      · obtain ⟨rest, words⟩ := List.head?_eq_some_iff.1 label
        exact .inr ⟨_, ofLine_of_hardware line rest words⟩
      · exact .inl (ofLine_of_other line set label)

theorem ofLine_eq_simulator_iff (line name : List Char) :
    ofLine line = simulator (String.ofList name) ↔ OpensSimulation line name := by
  constructor
  · intro read
    -- of the statements on a line only those of a set line are left
    rcases isSet_or_plain line with ⟨name', arguments, form⟩ | other | other | ⟨rest, other⟩
    · rw [ofLine_of_isSet line name' arguments form] at read
      split at read
      next opens =>
        subst opens
        obtain rfl := String.ofList_injective (simulator.inj read)
        exact form
      next => split at read <;> cases read
    all_goals
      rw [other] at read
      cases read
  · exact ofLine_of_opens line name

theorem constructs_of_ofLine (line name : List Char) (target : String) (operands : List String)
    (read : ofLine line = construct (String.ofList name) target operands) :
    Constructs line name target.toList (operands.map String.toList) := by
  rcases isSet_or_plain line with ⟨name', arguments, form⟩ | other | other | ⟨rest, other⟩
  · rw [ofLine_of_isSet line name' arguments form] at read
    split at read
    next => cases read
    next =>
      split at read
      next target' rest words =>
        obtain ⟨same, rfl, rfl⟩ := construct.inj read
        obtain rfl := String.ofList_injective same
        exact ⟨arguments, form, by simp [words, Function.comp_def]⟩
      next => cases read
  all_goals
    rw [other] at read
    cases read

theorem declaresVertex_iff (line name : List Char) :
    DeclaresVertex line name ↔
      ∃ target rest, ofLine line = construct (String.ofList name) target ("node" :: rest) := by
  constructor
  · rintro ⟨target, rest, constructs⟩
    exact ⟨_, _, ofLine_of_constructs line name target _ constructs⟩
  · rintro ⟨target, rest, read⟩
    exact ⟨target.toList, rest.map String.toList, constructs_of_ofLine line name target _ read⟩

end Statement

end RegionNet
