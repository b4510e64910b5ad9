import RegionNet.Proofs.Text.Pattern
import RegionNet.Proofs.Topology.Grammar

/-!
# The pattern of a set line

The cuts that take a `set` line apart find what a search for a pattern with two groups finds. The
name may have brackets in it, and the arguments white space and opening brackets, and still a line
is matched in one way at most: behind each run of the pattern stands a character that is not in the
run, so that a run which gives characters back never helps.
-/

namespace RegionNet

open Text Text.Pattern

/-- The keyword and the name are words between white space, so that the name is the second one. -/
theorem IsSet.second_word {line name arguments : List Char} (form : IsSet line name arguments) :
    (Text.words line)[1]? = some name := by
  obtain ⟨gap, gap', ⟨gap_ne, blank⟩, ⟨name_ne, solid⟩, ⟨gap'_ne, blank'⟩, -, rfl⟩ := form
  have words := words_append_gap "set".toList gap (name ++ gap' ++ (['['] ++ arguments ++ [']']))
    isWord_setKeyword.1 isWord_setKeyword.2 gap_ne blank
  rw [words_append_gap name gap' _ name_ne solid gap'_ne blank'] at words
  simp only [List.append_assoc] at words ⊢
  rw [words]
  rfl

namespace Statement

/-- The pattern `^set\s+(\S+)\s+\[([^\]]+)\]$`. -/
def setPattern : Pattern :=
  .seq .start <| .seq (.literal setKeyword) <| .seq (.run isBlank) <|
    .seq (.group (.run fun c => !isBlank c)) <| .seq (.run isBlank) <| .seq (.literal ['[']) <|
      .seq (.group (.run fun c => c != ']')) <| .seq (.literal [']']) .finish

/-! ### The readings of the pattern -/

section

variable {passed taken ahead : List Char} {kept : List (List Char)}

theorem reads_gap_iff :
    (run isBlank).Reads passed taken ahead kept ↔ IsGap taken ∧ kept = [] :=
  reads_run_iff

theorem reads_name_iff :
    (group (run fun c => !isBlank c)).Reads passed taken ahead kept ↔
      IsWord taken ∧ kept = [taken] := by
  simp only [reads_group_run_iff, IsWord, Bool.not_eq_true']

theorem reads_arguments_iff :
    (group (run fun c => c != ']')).Reads passed taken ahead kept ↔
      (taken ≠ [] ∧ ']' ∉ taken) ∧ kept = [taken] := by
  have unclosed : (∀ c ∈ taken, (c != ']') = true) ↔ ']' ∉ taken := by
    simp only [bne_iff_ne]
    constructor
    · intro others member
      exact others _ member rfl
    · rintro none c member rfl
      exact none member
  rw [reads_group_run_iff, unclosed]

end

/-- The pattern reads whole lines, and these are the `set` lines. -/
theorem reads_setPattern_iff (line ahead : List Char) (kept : List (List Char)) :
    setPattern.Reads [] line ahead kept ↔
      ahead = [] ∧ ∃ name arguments, kept = [name, arguments] ∧ IsSet line name arguments := by
  constructor
  · intro reads
    -- the parts, from the first to the last
    cases reads with | seq start reads => ?_
    cases reads with | seq keyword reads => ?_
    cases reads with | seq gap reads => ?_
    cases reads with | seq name reads => ?_
    cases reads with | seq gap' reads => ?_
    cases reads with | seq bracket reads => ?_
    cases reads with | seq arguments reads => ?_
    cases reads with | seq bracket' finish => ?_
    cases start
    cases keyword
    obtain ⟨isGap, rfl⟩ := reads_gap_iff.1 gap
    obtain ⟨isWord, rfl⟩ := reads_name_iff.1 name
    obtain ⟨isGap', rfl⟩ := reads_gap_iff.1 gap'
    cases bracket
    obtain ⟨filled, rfl⟩ := reads_arguments_iff.1 arguments
    cases bracket'
    cases finish
    refine ⟨rfl, _, _, rfl, _, _, isGap, isWord, isGap', filled, ?_⟩
    simp [setKeyword]
  · rintro ⟨rfl, name, arguments, rfl, gap, gap', isGap, isWord, isGap', filled, rfl⟩
    have reads : setPattern.Reads [] _ [] _ :=
      .seq .start <| .seq .literal <| .seq (reads_gap_iff.2 ⟨isGap, rfl⟩) <|
        .seq (reads_name_iff.2 ⟨isWord, rfl⟩) <| .seq (reads_gap_iff.2 ⟨isGap', rfl⟩) <|
          .seq .literal <| .seq (reads_arguments_iff.2 ⟨filled, rfl⟩) <| .seq .literal .finish
    simpa [setKeyword] using reads

/-! ### No second way -/

/-- The name refuses the white space before it, the white space behind the name refuses the name,
and the brackets refuse the runs that end at them. -/
theorem certain_setPattern : setPattern.Certain := by
  have closing : (seq (literal [']']) finish).Certain :=
    (certain_literal _).seq_certain certain_finish
  have arguments : (seq (group (run fun c => c != ']')) (seq (literal [']']) finish)).Certain :=
    .seq (hoards_run _).group ((refuses_literal [] rfl).seq _) closing
  have opening := (certain_literal ['[']).seq_certain arguments
  have gap' := Certain.seq (hoards_run isBlank) ((refuses_literal [] (by decide)).seq _) opening
  have name := Certain.seq (hoards_run fun c => !isBlank c).group
    ((refuses_run isBlank (by simp)).seq _) gap'
  have gap := Certain.seq (hoards_run isBlank)
    ((refuses_run (fun c => !isBlank c) (by simp)).group.seq _) name
  have keyword := (certain_literal setKeyword).seq_certain gap
  exact certain_start.seq_certain keyword

theorem captures?_setPattern_iff (line : List Char) (kept : List (List Char)) :
    setPattern.captures? line = some kept ↔
      ∃ name arguments, kept = [name, arguments] ∧ IsSet line name arguments := by
  rw [setPattern, captures?_eq_some_iff certain_setPattern, ← setPattern]
  constructor
  · rintro ⟨taken, ahead, rfl, reads⟩
    obtain ⟨rfl, form⟩ := (reads_setPattern_iff taken ahead kept).1 reads
    rwa [List.append_nil]
  · intro form
    exact ⟨line, [], List.append_nil line, (reads_setPattern_iff line [] kept).2 ⟨rfl, form⟩⟩

/-- The cuts give what the search for the pattern gives. -/
theorem captures?_setPattern (line : List Char) :
    setPattern.captures? line = (setParts? line).map fun parts => [parts.1, parts.2] := by
  apply Option.ext
  intro kept
  rw [captures?_setPattern_iff, Option.map_eq_some_iff]
  constructor
  · rintro ⟨name, arguments, rfl, form⟩
    exact ⟨_, setParts?_of_isSet line name arguments form, rfl⟩
  · rintro ⟨⟨name, arguments⟩, parts, rfl⟩
    exact ⟨name, arguments, rfl, isSet_of_setParts? line name arguments parts⟩

/-- A line, whatever stands at its ends, matches the pattern exactly if it is a `set` line, and the
cuts find the match. There is one way at most to match, and no name but the second word of the line
and no other arguments make it a `set` line. -/
theorem setPattern_exact (line : List Char) :
    (∀ name arguments,
      setPattern.captures? line = some [name, arguments] ↔ IsSet line name arguments) ∧
    setPattern.captures? line = (setParts? line).map (fun parts => [parts.1, parts.2]) ∧
    (setPattern.search [] line).length ≤ 1 ∧
    ∀ name arguments, IsSet line name arguments →
      (Text.words line)[1]? = some name ∧
        ∀ name' arguments', IsSet line name' arguments' →
          name' = name ∧ arguments' = arguments := by
  refine ⟨fun name arguments => ?_, captures?_setPattern line, ?_, fun name arguments form => ?_⟩
  · rw [captures?_setPattern_iff]
    constructor
    · rintro ⟨name', arguments', same, form⟩
      cases same
      exact form
    · intro form
      exact ⟨name, arguments, rfl, form⟩
  · rw [setPattern, search_start, ← setPattern]
    exact certain_setPattern [] line
  · exact ⟨form.second_word, fun name' arguments' form' => form'.unique form⟩

/-- Brackets in the name, and white space and a bracket in the arguments. -/
theorem setPattern_exact_of_brackets :
    IsSet "set a[b] \t[ [x y ]".toList "a[b]".toList " [x y ".toList ∧
      setPattern.captures? "set a[b] \t[ [x y ]".toList =
        some ["a[b]".toList, " [x y ".toList] ∧
      (Text.words "set a[b] \t[ [x y ]".toList)[1]? = some "a[b]".toList := by
  have form : IsSet "set a[b] \t[ [x y ]".toList "a[b]".toList " [x y ".toList :=
    isSet_of_setParts? _ _ _ (by decide)
  obtain ⟨matched, -, -, unique⟩ := setPattern_exact "set a[b] \t[ [x y ]".toList
  exact ⟨form, (matched _ _).2 form, (unique _ _ form).1⟩

end Statement

end RegionNet
