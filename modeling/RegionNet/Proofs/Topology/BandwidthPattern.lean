import RegionNet.Proofs.Text.Pattern
import RegionNet.Proofs.Topology.Bandwidth

/-!
# The pattern of a bandwidth

The cut that takes a bandwidth apart finds what a search for a pattern with two groups finds. Here
the pattern has more than one way, since a number may give characters back to the unit. Digits that
one run gives back may be taken by the other one, so a number is tried more than once; but the first
number that leaves a unit is the longest one.
-/

namespace RegionNet.Bandwidth

open Text Text.Pattern

/-- The pattern `\.?\d*`. A run that may be empty is a run that may be left out. -/
def afterWhole : Pattern :=
  .seq (.option (.literal ['.'])) (.option (.run isDecimalDigit))

/-- The pattern `\d+\.?\d*`. -/
def numberPattern : Pattern :=
  .seq (.run isDecimalDigit) afterWhole

/-- The pattern `(\S+)$`. -/
def unitPattern : Pattern :=
  .seq (.group (.run fun c => !isBlank c)) .finish

/-- The pattern `^(\d+\.?\d*)(\S+)$`. -/
def pattern : Pattern :=
  .seq .start <| .seq (.group numberPattern) unitPattern

/-! ### The readings of the pattern -/

section

variable {passed taken ahead : List Char} {kept : List (List Char)}

theorem reads_numberPattern_iff :
    numberPattern.Reads passed taken ahead kept ↔
      (∃ whole fraction, IsNumber isDecimalDigit whole fraction taken) ∧ kept = [] := by
  constructor
  · intro reads
    cases reads with | seq whole reads => ?_
    cases reads with | seq point fraction => ?_
    obtain ⟨⟨begun, digits⟩, rfl⟩ := reads_run_iff.1 whole
    have more {cs : List Char} {kept : List (List Char)} {passed ahead : List Char}
        (reads : (option (run isDecimalDigit)).Reads passed cs ahead kept) :
        (∀ c ∈ cs, isDecimalDigit c = true) ∧ kept = [] := by
      cases reads with
      | option run =>
        obtain ⟨⟨-, digits⟩, none⟩ := reads_run_iff.1 run
        exact ⟨digits, none⟩
      | nothing => exact ⟨by simp, rfl⟩
    obtain ⟨digits', rfl⟩ := more fraction
    cases point with
    | option point =>
      cases point
      exact ⟨⟨_, _, .point begun digits digits'⟩, rfl⟩
    | nothing =>
      refine ⟨⟨_, _, .whole (by simp [begun]) fun c member => ?_⟩, rfl⟩
      rcases List.mem_append.1 member with member | member
      · exact digits c member
      · exact digits' c member
  · rintro ⟨⟨whole, fraction, isNumber⟩, rfl⟩
    cases isNumber with
    | whole begun digits =>
      have reads : numberPattern.Reads passed (taken ++ ([] ++ [])) ahead ([] ++ ([] ++ [])) :=
        .seq (.run begun digits) (.seq .nothing .nothing)
      simpa using reads
    | point begun digits digits' =>
      rcases eq_or_ne fraction [] with rfl | more
      · exact .seq (.run begun digits) (.seq (.option .literal) .nothing)
      · exact .seq (.run begun digits) (.seq (.option .literal) (.option (.run more digits')))

theorem reads_unitPattern_iff :
    unitPattern.Reads passed taken ahead kept ↔ IsWord taken ∧ ahead = [] ∧ kept = [taken] := by
  constructor
  · intro reads
    cases reads with | seq word finish => ?_
    cases finish
    obtain ⟨⟨begun, solid⟩, rfl⟩ := reads_group_run_iff.1 word
    rw [List.append_nil]
    exact ⟨⟨begun, by simpa using solid⟩, rfl, rfl⟩
  · rintro ⟨⟨begun, solid⟩, rfl, rfl⟩
    have reads : unitPattern.Reads passed (taken ++ []) [] ([taken] ++ []) :=
      .seq (reads_group_run_iff.2 ⟨⟨begun, by simpa using solid⟩, rfl⟩) .finish
    simpa using reads

end

/-! ### The longest number is tried first -/

theorem ways_afterWhole_point (passed cs : List Char) :
    afterWhole.ways passed ('.' :: cs) =
      ((runs isDecimalDigit cs ++ [(⟨[], cs, []⟩ : Way)]).map fun w =>
        { w with taken := '.' :: w.taken }) ++ [⟨[], '.' :: cs, []⟩] := by
  -- the point is taken, or it is left and no digit comes next
  simp [afterWhole, ways_seq, ways_option, ways_literal, ways_run, runs_cons,
    isDecimalDigit_point, Way.andThen]

theorem ways_afterWhole (passed cs : List Char) (no_point : '.' ∉ cs.head?) :
    afterWhole.ways passed cs = runs isDecimalDigit cs ++ [⟨[], cs, []⟩] := by
  have fails : ¬ ['.'] <+: cs := by
    rintro ⟨rest, rfl⟩
    exact no_point rfl
  rw [afterWhole, ways_seq, ways_option, ways_literal, if_neg fails, List.nil_append,
    List.flatMap_cons, List.flatMap_nil, List.append_nil, map_andThen_nil, ways_option, ways_run]

/-- The first digit comes before a shorter number, or before what may follow a run. -/
theorem ways_numberPattern_cons (passed : List Char) (c : Char) (cs : List Char) :
    numberPattern.ways passed (c :: cs) =
      if isDecimalDigit c then
        (numberPattern.ways passed cs ++ afterWhole.ways passed cs).map fun w =>
          { w with taken := c :: w.taken }
      else [] := by
  rw [numberPattern, ways_seq, ways_seq, ways_run, ways_run, runs_cons_option]
  split
  · -- the first digit is in front of a shorter run, or it is the whole run
    simp only [List.map_append, List.flatMap_append, List.flatMap_map, List.map_flatMap,
      List.map_map, List.flatMap_cons, List.flatMap_nil, List.append_nil]
    rfl
  · rfl

theorem longestFirst_afterWhole (passed cs : List Char) :
    LongestFirst (afterWhole.ways passed cs) := by
  by_cases point : '.' ∈ cs.head?
  · obtain ⟨rest, rfl⟩ := List.head?_eq_some_iff.1 point
    rw [ways_afterWhole_point]
    exact ((longestFirst_option_run isDecimalDigit rest).map_cons '.').append (by simp)
  · rw [ways_afterWhole passed cs point]
    exact longestFirst_option_run isDecimalDigit cs

/-- What may follow a run may be a whole number in the place of a shorter one. -/
theorem longestFirst_number_or_rest (passed cs : List Char) :
    LongestFirst (numberPattern.ways passed cs ++ afterWhole.ways passed cs) := by
  induction cs with
  | nil => exact longestFirst_afterWhole passed []
  | cons c cs ih =>
    by_cases digit : isDecimalDigit c = true
    · have numbers : LongestFirst (numberPattern.ways passed (c :: cs)) := by
        rw [ways_numberPattern_cons, if_pos digit]
        exact ih.map_cons c
      refine numbers.append fun v member => ?_
      have no_point : '.' ∉ (c :: cs).head? := by
        rintro ⟨⟩
        cases isDecimalDigit_point.symm.trans digit
      rw [ways_afterWhole passed (c :: cs) no_point] at member
      rcases List.mem_append.1 member with again | none
      · -- a run of digits is a number that was tried before
        have ⟨joined, reads⟩ :
            v.taken ++ v.ahead = c :: cs ∧ (run isDecimalDigit).Reads passed v.taken v.ahead v.kept :=
          reads_of_mem_runs again
        obtain ⟨⟨begun, digits⟩, -⟩ := reads_run_iff.1 reads
        have number : numberPattern.Reads passed v.taken v.ahead [] :=
          reads_numberPattern_iff.2 ⟨⟨_, _, .whole begun digits⟩, rfl⟩
        have tried := number.mem_ways
        rw [joined] at tried
        exact .inr ⟨_, tried, rfl⟩
      · cases List.mem_singleton.1 none
        exact .inl rfl
    · rw [ways_numberPattern_cons, if_neg digit, List.nil_append]
      exact longestFirst_afterWhole passed (c :: cs)

theorem greedy_numberPattern : numberPattern.Greedy := by
  intro passed cs
  cases cs with
  | nil => exact longestFirst_nil
  | cons c cs =>
    rw [ways_numberPattern_cons]
    split
    · exact (longestFirst_number_or_rest passed cs).map_cons c
    · exact longestFirst_nil

/-! ### What the search finds -/

theorem ways_pattern (token : List Char) :
    pattern.ways [] token = (seq (group numberPattern) unitPattern).ways [] token := by
  rw [pattern, ways_seq, ways_start, if_pos rfl, List.flatMap_cons, List.flatMap_nil,
    List.append_nil, map_andThen_nil]
  rfl

/-- A way of the pattern splits the token. -/
theorem splits_of_ways {token : List Char} {u v : Way}
    (number : u ∈ (group numberPattern).ways [] token)
    (unit : v ∈ unitPattern.ways ([] ++ u.taken) u.ahead) :
    Splits token u.taken v.taken ∧ (u.andThen v).kept = [u.taken, v.taken] := by
  obtain ⟨joined, reads⟩ := reads_of_mem_ways number
  obtain ⟨joined', reads'⟩ := reads_of_mem_ways unit
  obtain ⟨isWord, ended, kept'⟩ := reads_unitPattern_iff.1 reads'
  rw [ended, List.append_nil] at joined'
  generalize taken_eq : u.taken = taken at *
  generalize kept_eq : u.kept = kept at *
  cases reads with
  | group part =>
    obtain ⟨isNumber, rfl⟩ := reads_numberPattern_iff.1 part
    refine ⟨⟨by rw [joined', joined], isNumber, isWord⟩, ?_⟩
    rw [Way.andThen, kept_eq, kept']
    rfl

/-- Whatever splits the token is a way of the pattern. -/
theorem ways_of_splits {token number unit : List Char} (splits : Splits token number unit) :
    ⟨number, unit, [number]⟩ ∈ (group numberPattern).ways [] token ∧
      ⟨unit, [], [unit]⟩ ∈ unitPattern.ways ([] ++ number) unit := by
  obtain ⟨rfl, isNumber, isWord⟩ := splits
  have first : (group numberPattern).Reads [] number unit [number] :=
    .group (reads_numberPattern_iff.2 ⟨isNumber, rfl⟩)
  have second : unitPattern.Reads ([] ++ number) unit [] [unit] :=
    reads_unitPattern_iff.2 ⟨isWord, rfl, rfl⟩
  have found := second.mem_ways
  rw [List.append_nil] at found
  exact ⟨first.mem_ways, found⟩

theorem splitsLongest_of_first {token : List Char} {w : Way}
    (first : (pattern.ways [] token).head? = some w) :
    ∃ number unit, w.kept = [number, unit] ∧ SplitsLongest token number unit := by
  rw [ways_pattern] at first
  obtain ⟨u, v, rfl, number, unit, longest⟩ := greedy_numberPattern.group.first_of_seq first
  obtain ⟨splits, kept⟩ := splits_of_ways number unit
  refine ⟨_, _, kept, splits, fun number' unit' splits' => ?_⟩
  obtain ⟨found, found'⟩ := ways_of_splits splits'
  exact longest _ found _ found'

theorem captures?_pattern_iff (token : List Char) (kept : List (List Char)) :
    pattern.captures? token = some kept ↔
      ∃ number unit, kept = [number, unit] ∧ SplitsLongest token number unit := by
  rw [captures?, pattern, search_start, ← pattern, Option.map_eq_some_iff]
  constructor
  · rintro ⟨w, first, rfl⟩
    exact splitsLongest_of_first first
  · rintro ⟨number, unit, rfl, longest⟩
    obtain ⟨found, found'⟩ := ways_of_splits longest.1
    -- there is a way, and the first one splits the token in the same place
    have member : (⟨number, unit, [number]⟩ : Way).andThen ⟨unit, [], [unit]⟩ ∈
        pattern.ways [] token := by
      rw [ways_pattern]
      exact List.mem_flatMap.2 ⟨_, found, List.mem_map.2 ⟨_, found', rfl⟩⟩
    obtain ⟨w, first⟩ := Option.isSome_iff_exists.1
      (List.isSome_head?.2 (List.ne_nil_of_mem member))
    obtain ⟨number', unit', kept, longest'⟩ := splitsLongest_of_first first
    obtain ⟨rfl, rfl⟩ := longest.unique longest'
    exact ⟨w, first, kept⟩

/-- The cut gives what the search for the pattern gives. -/
theorem captures?_pattern (token : List Char) :
    pattern.captures? token = (split? token).map fun parts => [parts.1, parts.2] := by
  apply Option.ext
  intro kept
  rw [captures?_pattern_iff, Option.map_eq_some_iff]
  constructor
  · rintro ⟨number, unit, rfl, longest⟩
    exact ⟨_, split?_eq_some_iff.2 longest, rfl⟩
  · rintro ⟨⟨number, unit⟩, split, rfl⟩
    exact ⟨number, unit, rfl, split?_eq_some_iff.1 split⟩

/-- A number to its end gives its last character to the unit. -/
example : pattern.captures? "12.".toList = some ["12".toList, ".".toList] := by decide

end RegionNet.Bandwidth
