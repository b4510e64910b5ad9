import RegionNet.Proofs.Decimal.Sign
import RegionNet.Proofs.Topology.Grammar
import RegionNet.Topology.Bandwidth

/-!
# The tokens that are bandwidths

A token is cut into a number and a unit such that the number is as long as it can be with a unit
left. The number counts if its digits are ASCII, and the unit is one of two. Every other token is
refused, for its unit if it has a number that counts and as a whole otherwise.
-/

namespace RegionNet.Bandwidth

/-! ### Characters -/

theorem isBlank_of_isDecimalDigit {c : Char} (digit : Text.isDecimalDigit c = true) :
    Text.isBlank c = false := by
  have apart : ∀ r ∈ Text.decimalDigitRanges, ∀ s ∈ Text.blankRanges, r.2 < s.1 ∨ s.2 < r.1 := by
    decide
  obtain ⟨r, member, within⟩ := List.any_eq_true.1 digit
  refine List.any_eq_false.2 fun s member' within' => ?_
  simp only [Bool.and_eq_true, decide_eq_true_eq] at within within'
  have := apart r member s member'
  omega

/-- Of all decimal digits those of ASCII come first. -/
theorem isDigit_iff {c : Char} :
    c.isDigit = true ↔ Text.isDecimalDigit c = true ∧ c.toNat < 128 := by
  have first : (0x30, 0x39) ∈ Text.decimalDigitRanges := by decide
  have others : ∀ r ∈ Text.decimalDigitRanges, r = (0x30, 0x39) ∨ 128 ≤ r.1 := by decide
  have least : '0'.toNat = 0x30 := rfl
  have most : '9'.toNat = 0x39 := rfl
  rw [Char.isDigit_iff_toNat, least, most, Text.isDecimalDigit, List.any_eq_true]
  constructor
  · intro within
    exact ⟨⟨_, first, by simpa using within⟩, by omega⟩
  · rintro ⟨⟨r, member, within⟩, ascii⟩
    simp only [Bool.and_eq_true, decide_eq_true_eq] at within
    rcases others r member with rfl | beyond
    · exact within
    · omega

theorem isDecimalDigit_point : Text.isDecimalDigit '.' = false := by decide

theorem toLower_eq_iff {c l : Char} (lower : l.toLower = l) :
    c.toLower = l ↔ c = l ∨ c = l.toUpper := by
  constructor
  · intro same
    by_cases small : c.isLower
    · have not_upper : ¬ c.isUpper = true := by
        simp only [Char.isLower, Char.isUpper, UInt32.le_iff_toNat_le, Bool.and_eq_true,
          decide_eq_true_eq] at small ⊢
        have least : 'a'.val.toNat = 97 := rfl
        have most : 'Z'.val.toNat = 90 := rfl
        omega
      exact .inl ((Char.toLower_eq_of_not_isUpper not_upper).symm.trans same)
    · rw [← same, Char.toUpper_toLower_eq_toUpper, Char.toUpper_eq_of_not_isLower small]
      exact .inr rfl
  · rintro (rfl | rfl)
    · exact lower
    · rw [Char.toLower_toUpper_eq_toLower, lower]

/-! ### Numbers -/

/-- The text is a run of digits, or one with a point and perhaps more digits after it. -/
inductive IsNumber (digit : Char → Bool) (whole : List Char) : (fraction text : List Char) → Prop
  | whole (begun : whole ≠ []) (digits : ∀ c ∈ whole, digit c = true) :
      IsNumber digit whole [] whole
  | point {fraction} (begun : whole ≠ []) (digits : ∀ c ∈ whole, digit c = true)
      (digits' : ∀ c ∈ fraction, digit c = true) :
      IsNumber digit whole fraction (whole ++ '.' :: fraction)

namespace IsNumber

variable {digit : Char → Bool} {whole fraction text : List Char}

theorem starts (number : IsNumber digit whole fraction text) :
    ∃ c rest, text = c :: rest ∧ digit c = true := by
  have front (begun : whole ≠ []) (digits : ∀ c ∈ whole, digit c = true) :
      ∃ c rest, whole = c :: rest ∧ digit c = true := by
    obtain ⟨c, rest, rfl⟩ := List.exists_cons_of_ne_nil begun
    exact ⟨c, rest, rfl, digits c List.mem_cons_self⟩
  cases number with
  | whole begun digits => exact front begun digits
  | point begun digits =>
    obtain ⟨c, rest, rfl, digit⟩ := front begun digits
    exact ⟨c, _, rfl, digit⟩

theorem digit_or_point (number : IsNumber digit whole fraction text) {c : Char}
    (member : c ∈ text) : digit c = true ∨ c = '.' := by
  cases number with
  | whole _ digits => exact .inl (digits c member)
  | point _ digits digits' =>
    rcases List.mem_append.1 member with member | member
    · exact .inl (digits c member)
    · rcases List.mem_cons.1 member with rfl | member
      · exact .inr rfl
      · exact .inl (digits' c member)

theorem forall_digit (number : IsNumber digit whole fraction text) :
    ∀ c ∈ whole ++ fraction, digit c = true := by
  cases number with
  | whole _ digits => simpa using digits
  | point _ digits digits' =>
    intro c member
    rcases List.mem_append.1 member with member | member
    · exact digits c member
    · exact digits' c member

theorem mono {digit' : Char → Bool} (number : IsNumber digit whole fraction text)
    (all : ∀ c ∈ whole ++ fraction, digit' c = true) : IsNumber digit' whole fraction text := by
  cases number with
  | whole begun => exact .whole begun (by simpa using all)
  | point begun =>
    exact .point begun (fun c member => all c (List.mem_append_left _ member))
      fun c member => all c (List.mem_append_right _ member)

theorem mem (number : IsNumber digit whole fraction text) {c : Char}
    (member : c ∈ whole ++ fraction) : c ∈ text := by
  cases number with
  | whole => simpa using member
  | point =>
    rw [List.mem_append] at member ⊢
    exact member.imp_right (List.mem_cons_of_mem _)

/-- A number that is longer than one character stays a number without its last one. -/
theorem dropLast (number : IsNumber digit whole fraction text) (long : 1 < text.length) :
    ∃ whole fraction, IsNumber digit whole fraction text.dropLast := by
  cases number with
  | whole begun digits =>
    have digits := fun c member => digits c (List.mem_of_mem_dropLast member)
    refine ⟨_, _, .whole (fun none => ?_) digits⟩
    rw [← List.length_eq_zero_iff, List.length_dropLast] at none
    omega
  | point begun digits digits' =>
    rcases List.eq_nil_or_concat fraction with rfl | ⟨fraction, c, rfl⟩
    · refine ⟨whole, [], ?_⟩
      rw [List.dropLast_concat]
      exact .whole begun digits
    · refine ⟨whole, fraction, ?_⟩
      rw [List.concat_eq_append, ← List.cons_append, ← List.append_assoc, List.dropLast_concat]
      exact .point begun digits fun c member => digits' c (by simp [member])

end IsNumber

/-- What cutting off a number gives, by what the text starts with. -/
inductive Cut : List Char → List Char × List Char → Prop
  | nothing {rest} (stop : ∀ c ∈ rest.head?, Text.isDecimalDigit c = false) : Cut rest ([], rest)
  | whole {whole rest} (begun : whole ≠ []) (digits : ∀ c ∈ whole, Text.isDecimalDigit c = true)
      (stop : ∀ c ∈ rest.head?, Text.isDecimalDigit c = false) (no_point : '.' ∉ rest.head?) :
      Cut (whole ++ rest) (whole, rest)
  | point {whole fraction rest} (begun : whole ≠ [])
      (digits : ∀ c ∈ whole, Text.isDecimalDigit c = true)
      (digits' : ∀ c ∈ fraction, Text.isDecimalDigit c = true)
      (stop : ∀ c ∈ rest.head?, Text.isDecimalDigit c = false) :
      Cut (whole ++ '.' :: (fraction ++ rest)) (whole ++ '.' :: fraction, rest)

theorem head?_dropWhile (p : Char → Bool) (cs : List Char) :
    ∀ c ∈ (cs.dropWhile p).head?, p c = false := by
  intro c first
  have passed := List.head?_dropWhile_not p cs
  rw [Option.mem_def.1 first] at passed
  exact passed

theorem cut_number (cs : List Char) : Cut cs (number cs) := by
  have joined := List.takeWhile_append_dropWhile (p := Text.isDecimalDigit) (l := cs)
  have digits : ∀ c ∈ cs.takeWhile Text.isDecimalDigit, Text.isDecimalDigit c = true :=
    fun c => List.mem_takeWhile_imp
  have stop := head?_dropWhile Text.isDecimalDigit cs
  rw [number]
  generalize cs.takeWhile Text.isDecimalDigit = whole at *
  generalize cs.dropWhile Text.isDecimalDigit = rest at *
  subst joined
  split
  next => exact .nothing stop
  next whole more begun =>
    have point := Cut.point begun digits (fun c => List.mem_takeWhile_imp (l := more))
      (head?_dropWhile Text.isDecimalDigit more)
    rwa [List.takeWhile_append_dropWhile] at point
  next whole rest begun no_point =>
    refine .whole begun digits stop fun point => ?_
    obtain ⟨more, rfl⟩ := List.head?_eq_some_iff.1 point
    exact no_point more rfl

theorem run_unique {p : Char → Bool} {run rest run' rest' : List Char}
    (all : ∀ c ∈ run, p c = true) (stop : ∀ c ∈ rest.head?, p c = false)
    (all' : ∀ c ∈ run', p c = true) (stop' : ∀ c ∈ rest'.head?, p c = false)
    (same : run ++ rest = run' ++ rest') : run = run' ∧ rest = rest' := by
  apply List.append_inj same
  rw [← Text.takeWhile_run run rest all stop, same, Text.takeWhile_run run' rest' all' stop']

theorem length_run_le {p : Char → Bool} {run rest run' rest' : List Char}
    (all : ∀ c ∈ run, p c = true) (stop : ∀ c ∈ rest.head?, p c = false)
    (all' : ∀ c ∈ run', p c = true) (same : run' ++ rest' = run ++ rest) :
    run'.length ≤ run.length := by
  have maximal := Text.takeWhile_run run rest all stop
  rw [← same, List.takeWhile_append_of_pos all'] at maximal
  rw [← maximal, List.length_append]
  exact Nat.le_add_right _ _

/-- A number at the start of a text is no longer than the one that is cut off. -/
theorem length_le_number {whole fraction text rest : List Char}
    (isNumber : IsNumber Text.isDecimalDigit whole fraction text) :
    text.length ≤ (number (text ++ rest)).1.length := by
  have cut := cut_number (text ++ rest)
  generalize same : text ++ rest = cs at *
  generalize number cs = pieces at *
  have before_point (more : List Char) :
      ∀ c ∈ ('.' :: more).head?, Text.isDecimalDigit c = false := by
    simp [isDecimalDigit_point]
  cases cut with
  | nothing stop =>
    obtain ⟨c, text, rfl, digit⟩ := isNumber.starts
    rw [stop c (by rw [← same]; rfl)] at digit
    cases digit
  | whole begun digits stop no_point =>
    cases isNumber with
    | whole _ digits' => exact length_run_le digits stop digits' same
    | point _ digits' =>
      -- both runs end where the digits do, and only one of them stands before a point
      rw [List.append_assoc] at same
      obtain ⟨-, rfl⟩ := run_unique digits' (before_point _) digits stop same
      exact absurd rfl no_point
  | point begun digits fraction_digits stop =>
    cases isNumber with
    | whole _ digits' =>
      have := length_run_le digits (before_point _) digits' same
      rw [List.length_append]
      omega
    | point _ digits' fraction_digits' =>
      rw [List.append_assoc] at same
      obtain ⟨rfl, after⟩ := run_unique digits' (before_point _) digits (before_point _) same
      have := length_run_le fraction_digits stop fraction_digits' (List.cons.inj after).2
      simp only [List.length_append, List.length_cons]
      omega

/-! ### Numbers with a unit -/

/-- The token is a number of decimal digits of any script and a unit without white space. -/
structure Splits (token number unit : List Char) : Prop where
  joined : number ++ unit = token
  isNumber : ∃ whole fraction, IsNumber Text.isDecimalDigit whole fraction number
  isWord : IsWord unit

/-- No longer start of the token is a number with a unit after it. -/
def SplitsLongest (token number unit : List Char) : Prop :=
  Splits token number unit ∧
    ∀ number' unit', Splits token number' unit' → number'.length ≤ number.length

theorem SplitsLongest.unique {token number unit number' unit' : List Char}
    (one : SplitsLongest token number unit) (two : SplitsLongest token number' unit') :
    number = number' ∧ unit = unit' :=
  List.append_inj (one.1.joined.trans two.1.joined.symm)
    (Nat.le_antisymm (two.2 _ _ one.1) (one.2 _ _ two.1))

theorem Splits.length_le {token number unit : List Char} (splits : Splits token number unit) :
    number.length ≤ (Bandwidth.number token).1.length := by
  obtain ⟨rfl, ⟨whole, fraction, isNumber⟩, -⟩ := splits
  exact length_le_number isNumber

theorem Splits.length_lt {token number unit : List Char} (splits : Splits token number unit) :
    number.length < token.length := by
  have := List.length_pos_iff.2 splits.isWord.1
  rw [← splits.joined, List.length_append]
  omega

theorem Cut.joined {cs : List Char} {pieces : List Char × List Char} (cut : Cut cs pieces) :
    pieces.1 ++ pieces.2 = cs := by
  cases cut <;> simp

theorem Cut.isNumber {cs : List Char} {pieces : List Char × List Char} (cut : Cut cs pieces)
    (begun : pieces.1 ≠ []) :
    ∃ whole fraction, IsNumber Text.isDecimalDigit whole fraction pieces.1 := by
  cases cut with
  | nothing => exact absurd rfl begun
  | whole begun' digits => exact ⟨_, _, .whole begun' digits⟩
  | point begun' digits digits' => exact ⟨_, _, .point begun' digits digits'⟩

/-- A token that is a number to its end gives up its last character as unit. -/
theorem splitsLongest_of_isNumber {whole fraction number : List Char} {c : Char}
    (isNumber : IsNumber Text.isDecimalDigit whole fraction (number ++ [c])) (begun : number ≠ []) :
    SplitsLongest (number ++ [c]) number [c] := by
  refine ⟨⟨rfl, ?_, by simp, ?_⟩, fun number' unit' splits => ?_⟩
  · have long : 1 < (number ++ [c]).length := by
      have := List.length_pos_iff.2 begun
      rw [List.length_append, List.length_singleton]
      omega
    have shorter := isNumber.dropLast long
    rwa [List.dropLast_concat] at shorter
  · intro c' member
    rw [List.mem_singleton.1 member]
    rcases isNumber.digit_or_point (c := c) (by simp) with digit | rfl
    · exact isBlank_of_isDecimalDigit digit
    · decide
  · have := splits.length_lt
    rw [List.length_append, List.length_singleton] at this
    omega

theorem Splits.ne_nil {token number unit : List Char} (splits : Splits token number unit) :
    number ≠ [] := by
  obtain ⟨_, _, isNumber⟩ := splits.isNumber
  obtain ⟨c, rest, rfl, -⟩ := isNumber.starts
  exact List.cons_ne_nil c rest

/-- The cut gives the longest number that leaves a unit, if there is a number with a unit at all. -/
theorem splitOutcome (token : List Char) :
    match split? token with
    | some (number, unit) => SplitsLongest token number unit
    | none => ∀ number unit, ¬ Splits token number unit := by
  have joined := (cut_number token).joined
  have isNumber := (cut_number token).isNumber
  have longest (number' unit' : List Char) (splits : Splits token number' unit') := splits.length_le
  rw [split?]
  generalize number token = pieces at *
  split
  next number unit found =>
    split at found
    next => cases found
    next digits begun =>
      -- the whole token is a number
      rw [List.append_nil] at joined
      subst joined
      obtain ⟨whole, fraction, isNumber⟩ := isNumber begun
      rcases List.eq_nil_or_concat digits with rfl | ⟨number', c, rfl⟩
      · exact absurd rfl begun
      rw [List.concat_eq_append] at *
      split at found
      next => cases found
      next single =>
        have begun' : number' ≠ [] := by
          rintro rfl
          exact single rfl
        simp only [List.dropLast_concat, List.length_append, List.length_singleton,
          Nat.add_sub_cancel, List.drop_left, Option.some.injEq, Prod.mk.injEq] at found
        obtain ⟨rfl, rfl⟩ := found
        exact splitsLongest_of_isNumber isNumber begun'
    next digits rest begun more =>
      split at found
      next => cases found
      next solid =>
        cases found
        refine ⟨⟨joined, isNumber begun, more, ?_⟩, longest⟩
        simpa using solid
  next found =>
    intro number' unit' splits
    have least := List.length_pos_iff.2 splits.ne_nil
    have shorter := longest number' unit' splits
    split at found
    next => exact absurd shorter (Nat.not_le_of_lt least)
    next digits begun =>
      split at found
      next single =>
        have := splits.length_lt
        rw [← joined, List.append_nil, single] at this
        omega
      next => cases found
    next digits rest begun more =>
      split at found
      next blank =>
        -- a unit that starts no later would contain the white space, too
        obtain ⟨c, member, blank⟩ := List.any_eq_true.1 blank
        have later : rest <:+ unit' := by
          refine List.suffix_of_suffix_length_le ⟨digits, joined⟩ ⟨number', splits.joined⟩ ?_
          have lengths := congrArg List.length (joined.trans splits.joined.symm)
          simp only [List.length_append] at lengths shorter
          omega
        rw [splits.isWord.2 c (later.mem member)] at blank
        cases blank
      next => cases found

theorem split?_eq_some_iff {token number unit : List Char} :
    split? token = some (number, unit) ↔ SplitsLongest token number unit := by
  have outcome := splitOutcome token
  constructor
  · intro split
    rwa [split] at outcome
  · intro longest
    split at outcome
    next number' unit' split =>
      obtain ⟨rfl, rfl⟩ := outcome.unique longest
      exact split
    next => exact absurd longest.1 (outcome number unit)

/-! ### What a token is worth -/

/-- The factor of a unit, in letters of either case. -/
inductive UnitFactor : List Char → Float → Prop
  | megabyte {m b : Char} (first : m = 'm' ∨ m = 'M') (second : b = 'b' ∨ b = 'B') :
      UnitFactor [m, b] (1024.0 * 1024.0)
  | kilobyte {k b : Char} (first : k = 'k' ∨ k = 'K') (second : b = 'b' ∨ b = 'B') :
      UnitFactor [k, b] 1024.0

theorem factor?_eq_some_iff {unit : List Char} {factor : Float} :
    factor? unit = some factor ↔ UnitFactor unit factor := by
  have m (c : Char) : c.toLower = 'm' ↔ c = 'm' ∨ c = 'M' := toLower_eq_iff rfl
  have k (c : Char) : c.toLower = 'k' ↔ c = 'k' ∨ c = 'K' := toLower_eq_iff rfl
  have b (c : Char) : c.toLower = 'b' ↔ c = 'b' ∨ c = 'B' := toLower_eq_iff rfl
  rw [factor?]
  constructor
  · intro found
    split at found
    next letters =>
      cases found
      simp only [List.map_eq_cons_iff, List.map_eq_nil_iff] at letters
      obtain ⟨c, _, rfl, first, c', _, rfl, second, rfl⟩ := letters
      exact .megabyte ((m c).1 first) ((b c').1 second)
    next letters =>
      cases found
      simp only [List.map_eq_cons_iff, List.map_eq_nil_iff] at letters
      obtain ⟨c, _, rfl, first, c', _, rfl, second, rfl⟩ := letters
      exact .kilobyte ((k c).1 first) ((b c').1 second)
    next => cases found
  · intro counts
    cases counts with
    | megabyte first second =>
      rw [List.map_cons, List.map_cons, (m _).2 first, (b _).2 second]
      rfl
    | kilobyte first second =>
      rw [List.map_cons, List.map_cons, (k _).2 first, (b _).2 second]
      rfl

/-- A unit does not start like a number goes on. -/
theorem UnitFactor.starts {unit : List Char} {factor : Float} (counts : UnitFactor unit factor) :
    ∃ c rest, unit = c :: rest ∧ Text.isDecimalDigit c = false ∧ c ≠ '.' := by
  cases counts with
  | megabyte first => rcases first with rfl | rfl <;> exact ⟨_, _, rfl, by decide, by decide⟩
  | kilobyte first => rcases first with rfl | rfl <;> exact ⟨_, _, rfl, by decide, by decide⟩

theorem UnitFactor.isWord {unit : List Char} {factor : Float} (counts : UnitFactor unit factor) :
    IsWord unit := by
  cases counts with
  | megabyte first second =>
    rcases first with rfl | rfl <;> rcases second with rfl | rfl <;> simp [IsWord] <;> decide
  | kilobyte first second =>
    rcases first with rfl | rfl <;> rcases second with rfl | rfl <;> simp [IsWord] <;> decide

theorem splitsLongest_of_unitFactor {whole fraction number unit : List Char} {factor : Float}
    (isNumber : IsNumber Text.isDecimalDigit whole fraction number)
    (counts : UnitFactor unit factor) : SplitsLongest (number ++ unit) number unit := by
  refine ⟨⟨rfl, ⟨_, _, isNumber⟩, counts.isWord⟩, fun number' unit' splits => ?_⟩
  obtain ⟨c, rest, rfl, letter, no_point⟩ := counts.starts
  obtain ⟨_, _, isNumber'⟩ := splits.isNumber
  obtain ⟨more, rfl, -⟩ | ⟨more, rfl, after⟩ := List.append_eq_append_iff.1 splits.joined
  · rw [List.length_append]
    exact Nat.le_add_right _ _
  · cases more with
    | nil => rw [List.append_nil]
    | cons c' more =>
      -- a longer number would have the first letter of the unit in it
      obtain ⟨rfl, -⟩ := List.cons.inj after
      rcases isNumber'.digit_or_point (c := c) (by simp) with digit | point
      · rw [letter] at digit
        cases digit
      · exact absurd point no_point

theorem value?_of_isNumber {whole fraction number : List Char}
    (isNumber : IsNumber Text.isDecimalDigit whole fraction number) :
    value? number = if (whole ++ fraction).all Char.isDigit then
        some (Decimal.nearest (Decimal.value (whole ++ fraction)) (-fraction.length))
      else none := by
  have no_point : ∀ c ∈ whole ++ fraction, (c != '.') = true := by
    intro c member
    rw [bne_iff_ne]
    rintro rfl
    have digit := isNumber.forall_digit '.' member
    rw [isDecimalDigit_point] at digit
    cases digit
  cases isNumber with
  | whole =>
    rw [List.append_nil] at *
    have run := Text.dropWhile_run whole [] no_point (by simp)
    rw [List.append_nil] at run
    rw [value?, List.filter_eq_self.2 no_point, run]
    rfl
  | point =>
    have whole_run : ∀ c ∈ whole, (c != '.') = true :=
      fun c member => no_point c (List.mem_append_left _ member)
    have fraction_run : ∀ c ∈ fraction, (c != '.') = true :=
      fun c member => no_point c (List.mem_append_right _ member)
    have run := Text.dropWhile_run whole ('.' :: fraction) whole_run (by simp)
    have digits : (whole ++ '.' :: fraction).filter (· != '.') = whole ++ fraction := by
      rw [List.filter_append, List.filter_cons, List.filter_eq_self.2 whole_run,
        List.filter_eq_self.2 fraction_run]
      rfl
    rw [value?, digits, run]
    rfl

/-- The digits of a number are those of ASCII if its characters are. -/
theorem IsNumber.all_isDigit_iff {whole fraction number : List Char}
    (isNumber : IsNumber Text.isDecimalDigit whole fraction number) :
    (whole ++ fraction).all Char.isDigit = true ↔ ∀ c ∈ number, c.toNat < 128 := by
  rw [List.all_eq_true]
  constructor
  · intro digits c member
    rcases (isNumber.mono digits).digit_or_point member with digit | rfl
    · exact (isDigit_iff.1 digit).2
    · decide
  · intro ascii c member
    exact isDigit_iff.2 ⟨isNumber.forall_digit c member, ascii c (isNumber.mem member)⟩

/-- The value of a number of ASCII digits with a unit. -/
inductive IsBandwidth : List Char → Float → Prop
  | intro {whole fraction number unit factor}
      (isNumber : IsNumber Char.isDigit whole fraction number) (counts : UnitFactor unit factor) :
      IsBandwidth (number ++ unit)
        (Decimal.nearest (Decimal.value (whole ++ fraction)) (-fraction.length) * factor)

/-- The error for a token that is no bandwidth. -/
inductive Misread (token : String) : BandwidthError → Prop
  | unknownUnit {number unit} (longest : SplitsLongest token.toList number unit)
      (ascii : ∀ c ∈ number, c.toNat < 128) : Misread token (.unknownUnit (String.ofList unit))
  | malformed (foreign : ∀ number unit, SplitsLongest token.toList number unit →
      ∃ c ∈ number, 128 ≤ c.toNat) : Misread token (.malformed token)

theorem Misread.unique {token : String} {one two : BandwidthError} (first : Misread token one)
    (second : Misread token two) : one = two := by
  -- an ASCII number and a number with another character are not the same start of the token
  have apart {number unit : List Char} (longest : SplitsLongest token.toList number unit)
      (ascii : ∀ c ∈ number, c.toNat < 128)
      (foreign : ∀ number unit, SplitsLongest token.toList number unit →
        ∃ c ∈ number, 128 ≤ c.toNat) : False := by
    obtain ⟨c, member, beyond⟩ := foreign number unit longest
    exact Nat.not_le_of_lt (ascii c member) beyond
  cases first with
  | unknownUnit longest ascii =>
    cases second with
    | unknownUnit longest' => rw [(longest.unique longest').2]
    | malformed foreign => exact (apart longest ascii foreign).elim
  | malformed foreign =>
    cases second with
    | unknownUnit longest ascii => exact (apart longest ascii foreign).elim
    | malformed => rfl

theorem ofChars_eq_ok_iff {token : List Char} {value : Float} :
    ofChars token = .ok value ↔ IsBandwidth token value := by
  constructor
  · intro accepted
    rw [ofChars] at accepted
    split at accepted
    next => cases accepted
    next number unit split =>
      obtain ⟨⟨rfl, ⟨whole, fraction, isNumber⟩, -⟩, -⟩ := split?_eq_some_iff.1 split
      rw [value?_of_isNumber isNumber] at accepted
      by_cases digits : (whole ++ fraction).all Char.isDigit = true
      · rw [if_pos digits] at accepted
        split at accepted
        next none => cases none
        next => cases accepted
        next amount factor same counts =>
          cases same
          cases accepted
          exact .intro (isNumber.mono (List.all_eq_true.1 digits)) (factor?_eq_some_iff.1 counts)
      · rw [if_neg digits] at accepted
        cases accepted
  · rintro ⟨isNumber, counts⟩
    have digits := isNumber.forall_digit
    have isNumber' := isNumber.mono fun c member => (isDigit_iff.1 (digits c member)).1
    rw [ofChars, split?_eq_some_iff.2 (splitsLongest_of_unitFactor isNumber' counts)]
    simp only [value?_of_isNumber isNumber', List.all_eq_true.2 digits,
      factor?_eq_some_iff.2 counts, if_true]

theorem misread_of_error {token : String} {e : BandwidthError} (refused : ofText token = .error e) :
    Misread token e := by
  rw [ofText, ofChars] at refused
  have outcome := splitOutcome token.toList
  split at refused
  next split =>
    rw [split] at outcome
    rw [String.ofList_toList] at refused
    cases refused
    exact .malformed fun number unit longest => absurd longest.1 (outcome number unit)
  next number unit split =>
    rw [split] at outcome
    obtain ⟨whole, fraction, isNumber⟩ := outcome.1.isNumber
    rw [value?_of_isNumber isNumber] at refused
    by_cases digits : (whole ++ fraction).all Char.isDigit = true
    · rw [if_pos digits] at refused
      split at refused
      next none => cases none
      next =>
        cases refused
        exact .unknownUnit outcome (isNumber.all_isDigit_iff.1 digits)
      next => cases refused
    · rw [if_neg digits, String.ofList_toList] at refused
      cases refused
      refine .malformed fun number' unit' longest => ?_
      obtain ⟨rfl, -⟩ := outcome.unique longest
      rw [isNumber.all_isDigit_iff] at digits
      push Not at digits
      exact digits

theorem IsBandwidth.isUnsigned {token : List Char} {value : Float}
    (isBandwidth : IsBandwidth token value) : Decimal.IsUnsigned value := by
  have positive : 0 < 2 ^ 52 := by decide
  have kilobyte : Bandwidth.kilobyte.toModel.unpack = .finite .positive _ (-42) positive := rfl
  have megabyte : Bandwidth.megabyte.toModel.unpack = .finite .positive _ (-32) positive := rfl
  obtain ⟨isNumber, counts⟩ := isBandwidth
  cases counts with
  | megabyte => exact (Decimal.isUnsigned_nearest _ _).mul megabyte
  | kilobyte => exact (Decimal.isUnsigned_nearest _ _).mul kilobyte

theorem ofText_eq_error_iff {token : String} {e : BandwidthError} :
    ofText token = .error e ↔ (∀ value, ¬ IsBandwidth token.toList value) ∧ Misread token e := by
  constructor
  · intro refused
    refine ⟨fun value isBandwidth => ?_, misread_of_error refused⟩
    rw [ofText, ofChars_eq_ok_iff.2 isBandwidth] at refused
    cases refused
  · rintro ⟨none, misread⟩
    cases result : ofText token with
    | ok value => exact absurd (ofChars_eq_ok_iff.1 result) (none value)
    | error e' => rw [(misread_of_error result).unique misread]

theorem not_isBandwidth_of_isNumber {whole fraction number : List Char} {c : Char}
    (isNumber : IsNumber Text.isDecimalDigit whole fraction (number ++ [c])) (begun : number ≠ [])
    (value : Float) : ¬ IsBandwidth (number ++ [c]) value := by
  intro isBandwidth
  generalize same : number ++ [c] = token at isBandwidth
  obtain ⟨isNumber', counts⟩ := isBandwidth
  have isNumber' := isNumber'.mono fun d member =>
    (isDigit_iff.1 (isNumber'.forall_digit d member)).1
  have longest := splitsLongest_of_isNumber isNumber begun
  rw [same] at longest
  -- the unit has one letter here and two there
  obtain ⟨-, rfl⟩ := longest.unique (splitsLongest_of_unitFactor isNumber' counts)
  cases counts

/-- Exactly the numbers of ASCII digits with the unit `mb` or `kb` are bandwidths, and none of them
is below zero or undefined. Every other token is refused for its unit, which is what the longest
number leaves, or as a whole; of a number without a unit, the last character is the unit. -/
theorem ofText_classifies (token : String) :
    (∀ value, ofText token = .ok value ↔ IsBandwidth token.toList value) ∧
    (∀ value, IsBandwidth token.toList value → 0.0 ≤ value ∧ value.isNaN = false) ∧
    (∀ e, ofText token = .error e ↔
      (∀ value, ¬ IsBandwidth token.toList value) ∧ Misread token e) ∧
    (∀ whole fraction number c, IsNumber Text.isDecimalDigit whole fraction (number ++ [c]) →
      number ≠ [] → (∀ d ∈ number, d.toNat < 128) → token.toList = number ++ [c] →
      ofText token = .error (.unknownUnit (String.ofList [c]))) := by
  refine ⟨fun value => ofChars_eq_ok_iff, fun value isBandwidth => ?_,
    fun e => ofText_eq_error_iff, fun whole fraction number c isNumber begun ascii same => ?_⟩
  · exact ⟨isBandwidth.isUnsigned.zero_le, isBandwidth.isUnsigned.isNaN⟩
  · have longest := splitsLongest_of_isNumber isNumber begun
    have foreign := not_isBandwidth_of_isNumber isNumber begun
    rw [← same] at longest foreign
    exact ofText_eq_error_iff.2 ⟨foreign, .unknownUnit longest ascii⟩

/-- A number alone, and two of them with a unit. -/
theorem ofText_classifies_with_unit :
    ofText "1.5" = .error (.unknownUnit "5") ∧
      ofText "3.kB" = .ok (Decimal.nearest 3 0 * 1024.0) ∧
      0.0 ≤ Decimal.nearest 3 0 * 1024.0 := by
  obtain ⟨-, -, -, numeric⟩ := ofText_classifies "1.5"
  obtain ⟨accepts, bounds, -, -⟩ := ofText_classifies "3.kB"
  have number : IsNumber Char.isDigit ['1'] ['5'] (['1', '.'] ++ ['5']) :=
    .point (by simp) (by simp) (by simp)
  have number' : IsNumber Char.isDigit ['3'] [] ['3', '.'] :=
    .point (by simp) (by simp) (by simp)
  have value : IsBandwidth "3.kB".toList (Decimal.nearest 3 0 * 1024.0) :=
    .intro number' (.kilobyte (.inl rfl) (.inr rfl))
  have decimal := number.mono fun c member => (isDigit_iff.1 (number.forall_digit c member)).1
  exact ⟨numeric _ _ _ _ decimal (by simp) (by simp) rfl, (accepts _).2 value,
    (bounds _ value).1⟩

example : ofText "٣mb" = .error (.malformed "٣mb") := rfl

end RegionNet.Bandwidth
