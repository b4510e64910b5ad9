import RegionNet.Json.Reader
import RegionNet.Json.Printer
import RegionNet.Proofs.Decimal.Shortest
import RegionNet.Proofs.Text.Pieces

/-!
# Numbers are read as they are written

A number is written as a literal: a whole part, a fraction after a point and an exponent after a
mark. The text of a literal is split into the same parts again, wherever a number may end. The
literal of a double writes a number in the interval of the double, so that it means that double.
-/

namespace RegionNet.Json

open Decimal (digits value documentLayout Scientific zeros)

/-! ### Literals -/

/-- What may follow a number. -/
def EndsNumber (rest : List Char) : Prop :=
  ∀ c ∈ rest.head?, c.isDigit = false ∧ c ≠ '.' ∧ c ≠ 'e' ∧ c ≠ 'E'

/-- A run of one digit or more. -/
structure IsRun (ds : List Char) : Prop where
  nonempty : ds ≠ []
  digits : ∀ c ∈ ds, c.isDigit = true

theorem isRun_digits (n : Nat) : IsRun (digits n) :=
  ⟨Nat.toDigits_ne_nil, fun _ => Decimal.isDigit_of_mem_digits⟩

theorem isRun_append {ds es : List Char} (nonempty : ds ++ es ≠ [])
    (front : ∀ c ∈ ds, c.isDigit = true) (back : ∀ c ∈ es, c.isDigit = true) : IsRun (ds ++ es) :=
  ⟨nonempty, fun c member => (List.mem_append.1 member).elim (front c) (back c)⟩

theorem IsRun.readDigits {ds : List Char} (run : IsRun ds) {rest : List Char}
    (ends : ∀ c ∈ rest.head?, c.isDigit = false) : readDigits (ds ++ rest) = some (ds, rest) := by
  rw [Json.readDigits, Text.takeWhile_run _ _ run.digits ends,
    Text.dropWhile_run _ _ run.digits ends]
  simp [run.nonempty]

namespace Literal

def fractionChars (l : Literal) : List Char :=
  l.fraction.elim [] fun ds => '.' :: ds

def exponentChars (l : Literal) : List Char :=
  l.exponent.elim [] fun e => 'e' :: (if e.1 then '-' else '+') :: e.2

/-- The text of a literal. -/
def chars (l : Literal) : List Char :=
  (if l.negative then ['-'] else []) ++ (l.whole ++ (l.fractionChars ++ l.exponentChars))

/-- A literal whose text can be read. -/
structure IsWritten (l : Literal) : Prop where
  whole : IsRun l.whole
  unpadded : l.whole.head? = some '0' → l.whole.length = 1
  fraction : ∀ ds, l.fraction = some ds → IsRun ds
  exponent : ∀ negative ds, l.exponent = some (negative, ds) → IsRun ds

namespace IsWritten

variable {l : Literal} (written : l.IsWritten) {rest : List Char}
include written

theorem readExponent (ends : EndsNumber rest) :
    readExponent (l.exponentChars ++ rest) = some (l.exponent, rest) := by
  rw [exponentChars]
  cases exponent : l.exponent with
  | none =>
    cases rest with
    | nil => rfl
    | cons c rest =>
      obtain ⟨-, -, lower, upper⟩ := ends c rfl
      simp [Json.readExponent, lower, upper]
  | some e =>
    obtain ⟨negative, ds⟩ := e
    have run := (written.exponent negative ds exponent).readDigits fun c head => (ends c head).1
    cases negative <;> simp [Json.readExponent, run]

theorem readFraction (ends : ∀ c ∈ rest.head?, c.isDigit = false ∧ c ≠ '.') :
    readFraction (l.fractionChars ++ rest) = some (l.fraction, rest) := by
  rw [fractionChars]
  cases fraction : l.fraction with
  | none =>
    cases rest with
    | nil => rfl
    | cons c rest =>
      obtain ⟨-, point⟩ := ends c rfl
      simp [Json.readFraction, point]
  | some ds =>
    have run := (written.fraction ds fraction).readDigits fun c head => (ends c head).1
    simp [Json.readFraction, run]

/-- The text of a literal reads back to it. -/
theorem readLiteral (ends : EndsNumber rest) : readLiteral (l.chars ++ rest) = some (l, rest) := by
  -- each part ends where the next one, or what follows the number, begins
  have behind : ∀ c ∈ (l.exponentChars ++ rest).head?, c.isDigit = false ∧ c ≠ '.' := by
    rw [exponentChars]
    cases l.exponent with
    | none => exact fun c head => ⟨(ends c head).1, (ends c head).2.1⟩
    | some e =>
      rintro c ⟨⟩
      exact ⟨rfl, by decide⟩
  have after : ∀ c ∈ (l.fractionChars ++ (l.exponentChars ++ rest)).head?, c.isDigit = false := by
    rw [fractionChars]
    cases l.fraction with
    | none => exact fun c head => (behind c head).1
    | some ds =>
      rintro c ⟨⟩
      rfl
  have whole := written.whole.readDigits after
  have fraction := written.readFraction behind
  have exponent := written.readExponent ends
  have unpadded : ¬ (l.whole.head? = some '0' ∧ l.whole.length ≠ 1) := fun padded =>
    padded.2 (written.unpadded padded.1)
  rw [chars, List.append_assoc, List.append_assoc, List.append_assoc]
  cases sign : l.negative with
  | true =>
    simp only [if_true, List.singleton_append, Json.readLiteral, whole, fraction, exponent,
      Option.bind_eq_bind, Option.bind_some, if_neg unpadded, Option.pure_def, ← sign]
  | false =>
    simp only [Bool.false_eq_true, if_false, List.nil_append]
    unfold Json.readLiteral
    split
    next same =>
      split at same
      next signed =>
        -- a digit is no sign
        obtain ⟨d, ds, front⟩ := List.exists_cons_of_ne_nil written.whole.nonempty
        rw [front, List.cons_append, List.cons.injEq] at signed
        have digit := written.whole.digits d (front ▸ List.mem_cons_self)
        rw [signed.1] at digit
        cases digit
      next =>
        cases same
        simp only [whole, fraction, exponent, Option.bind_eq_bind, Option.bind_some,
          if_neg unpadded, Option.pure_def, ← sign]

end IsWritten

/-- The digits of a literal as one number. -/
def significand (l : Literal) : ℕ :=
  value (l.whole ++ l.fraction.getD [])

/-- The power of ten that the last digit of a literal counts. -/
def power (l : Literal) : ℤ :=
  (match l.exponent with
  | none => 0
  | some (negative, ds) => if negative then -(value ds : ℤ) else value ds) -
    (l.fraction.getD []).length

theorem toFloat_eq (l : Literal) : l.toFloat =
    if l.negative then -Decimal.nearest l.significand l.power
    else Decimal.nearest l.significand l.power := rfl

end Literal

/-! ### Doubles -/

/-- A literal with a point or an exponent that writes a number with the given text. -/
structure WritesReal (l : Literal) (text : List Char) (x : ℚ) : Prop where
  written : l.IsWritten
  real : l.isInteger = false
  text : l.chars = (if l.negative then ['-'] else []) ++ text
  exact : (l.significand : ℚ) * 10 ^ l.power = x

section

variable {x : Scientific} (negative : Bool)

theorem writesReal_below_one {leading : ℤ} (below : leading < 0)
    (place : leading = (digits x.significand).length - 1 + x.exponent) :
    WritesReal ⟨negative, ['0'], some (zeros (-leading - 1).toNat ++ digits x.significand), none⟩
      (documentLayout.plain (digits x.significand) leading) x.value where
  written := {
    whole := isRun_digits 0
    unpadded _ := rfl
    fraction ds same := by
      cases same
      exact isRun_append (by simp [(isRun_digits _).nonempty])
        (fun c => Decimal.isDigit_of_mem_zeros) (isRun_digits _).digits
    exponent _ _ same := by cases same }
  real := rfl
  text := by
    simp [Literal.chars, Literal.fractionChars, Literal.exponentChars, Decimal.Layout.plain, below]
  exact := by
    have number : value ('0' :: (zeros (-leading - 1).toNat ++ digits x.significand)) =
        x.significand :=
      (Decimal.value_zeros_append ((-leading - 1).toNat + 1) _).trans (Decimal.value_digits _)
    have last : 0 - ((zeros (-leading - 1).toNat ++ digits x.significand).length : ℤ) =
        x.exponent := by
      rw [List.length_append, zeros, List.length_replicate]
      omega
    simp only [Literal.significand, Literal.power, Option.getD_some, List.singleton_append, number,
      last, Scientific.value]

theorem head?_take_digits {n k : ℕ} (positive : 0 < n) (zs : List Char) :
    ((digits n).take (k + 1) ++ zs).head? ≠ some '0' := by
  have front := Decimal.head?_digits positive
  cases same : digits n with
  | nil => exact absurd same (isRun_digits n).nonempty
  | cons d ds => rwa [same] at front

/-- A point among digits or behind them, with zeros up to it and one behind it if need be. -/
theorem value_split (ds : List Char) (n : ℕ) :
    (value (ds.take n ++ zeros (n - ds.length) ++
        (ds.drop n ++ zeros (1 - (ds.drop n).length))) : ℚ) *
      10 ^ (0 - (ds.drop n ++ zeros (1 - (ds.drop n).length)).length : ℤ) =
      value ds * 10 ^ ((n : ℤ) - ds.length) := by
  have zeros_length (n : ℕ) : (zeros n).length = n := List.length_replicate
  -- a point inside leaves no place for zeros, and one behind all digits leaves no digit after it
  rcases Nat.lt_or_ge n ds.length with inside | behind
  · have filled : 1 - (ds.drop n).length = 0 := by rw [List.length_drop]; omega
    have between : n - ds.length = 0 := by omega
    have last : 0 - ((ds.drop n).length : ℤ) = n - ds.length := by rw [List.length_drop]; omega
    simp only [filled, between, zeros, List.replicate_zero, List.append_nil, last,
      List.take_append_drop]
  · simp only [List.take_of_length_le behind, List.drop_of_length_le behind, List.length_nil,
      List.nil_append, Nat.sub_zero, zeros_length]
    rw [Decimal.value_append, Decimal.value_append, Decimal.value_zeros, Decimal.value_zeros,
      zeros_length, zeros_length, ← Nat.cast_sub behind, zpow_natCast]
    push_cast
    rw [add_zero, add_zero, zpow_neg_one, mul_inv_cancel_right₀ (by norm_num)]

/-- A number in a document has a digit behind its point. -/
theorem plain_of_whole (ds : List Char) {leading : ℤ} (above : 0 ≤ leading) :
    documentLayout.plain ds leading =
      ds.take (leading.toNat + 1) ++ zeros (leading.toNat + 1 - ds.length) ++
        '.' :: (ds.drop (leading.toNat + 1) ++
          zeros (1 - (ds.drop (leading.toNat + 1)).length)) := by
  rw [Decimal.Layout.plain, if_neg above.not_gt]
  refine if_neg ?_
  change ¬ (ds.drop (leading.toNat + 1) ++
    zeros (1 - (ds.drop (leading.toNat + 1)).length)).isEmpty = true
  rw [List.isEmpty_iff, ← List.length_eq_zero_iff, List.length_append, zeros, List.length_replicate]
  omega

theorem writesReal_whole (positive : 0 < x.significand) {leading : ℤ} (above : 0 ≤ leading)
    (place : leading = (digits x.significand).length - 1 + x.exponent) :
    ∃ whole fraction, WritesReal ⟨negative, whole, some fraction, none⟩
      (documentLayout.plain (digits x.significand) leading) x.value := by
  have run := isRun_digits x.significand
  have exponent : ((leading.toNat + 1 : ℕ) : ℤ) - (digits x.significand).length = x.exponent := by
    omega
  have exact := value_split (digits x.significand) (leading.toNat + 1)
  have front := head?_take_digits positive (k := leading.toNat)
    (zeros (leading.toNat + 1 - (digits x.significand).length))
  have whole : IsRun ((digits x.significand).take (leading.toNat + 1) ++
      zeros (leading.toNat + 1 - (digits x.significand).length)) :=
    isRun_append (by simp [run.nonempty])
      (fun c member => run.digits c (List.mem_of_mem_take member))
      fun c => Decimal.isDigit_of_mem_zeros
  have fraction : IsRun ((digits x.significand).drop (leading.toNat + 1) ++
      zeros (1 - ((digits x.significand).drop (leading.toNat + 1)).length)) := by
    refine isRun_append ?_ (fun c member => run.digits c (List.mem_of_mem_drop member))
      fun c => Decimal.isDigit_of_mem_zeros
    rw [ne_eq, ← List.length_eq_zero_iff, List.length_append, zeros, List.length_replicate]
    omega
  rw [exponent, Decimal.value_digits] at exact
  rw [plain_of_whole _ above]
  -- of the two parts nothing else is needed but that they are runs
  generalize (digits x.significand).take (leading.toNat + 1) ++ _ = ws at *
  generalize (digits x.significand).drop (leading.toNat + 1) ++ _ = fs at *
  refine ⟨ws, fs, {
    written := {
      whole := whole
      unpadded zero := absurd zero front
      fraction ds same := by
        cases same
        exact fraction
      exponent _ _ same := by cases same }
    real := rfl
    text := by simp [Literal.chars, Literal.fractionChars, Literal.exponentChars]
    exact := exact }⟩

theorem scientific_cons (d : Char) (ds : List Char) (leading : ℤ) :
    documentLayout.scientific (d :: ds) leading =
      d :: ((if ds = [] then [] else '.' :: ds) ++
        'e' :: (if leading < 0 then '-' else '+') :: digits leading.natAbs) := by
  by_cases below : leading < 0 <;> cases ds <;>
    simp [Decimal.Layout.scientific, documentLayout, below]

theorem writesReal_scientific {leading : ℤ}
    (place : leading = (digits x.significand).length - 1 + x.exponent) :
    ∃ whole fraction exponent, WritesReal ⟨negative, whole, fraction, some exponent⟩
      (documentLayout.scientific (digits x.significand) leading) x.value := by
  have run := isRun_digits x.significand
  have number := Decimal.value_digits x.significand
  have signed : (if decide (leading < 0) then -(value (digits leading.natAbs) : ℤ)
      else value (digits leading.natAbs)) = leading := by
    simp only [Decimal.value_digits, decide_eq_true_eq]
    split <;> omega
  generalize digits x.significand = ds at *
  obtain ⟨d, ds, rfl⟩ := List.exists_cons_of_ne_nil run.nonempty
  -- a single digit has no point behind it
  have fraction : (if ds = [] then none else some ds).getD [] = ds := by
    cases ds <;> rfl
  refine ⟨[d], if ds = [] then none else some ds, (decide (leading < 0), digits leading.natAbs), {
    written := {
      whole := ⟨List.cons_ne_nil _ _, fun c member => run.digits c (by simp_all)⟩
      unpadded _ := rfl
      fraction es same := by
        split at same
        · cases same
        next more =>
          cases same
          exact ⟨more, fun c member => run.digits c (List.mem_cons_of_mem _ member)⟩
      exponent _ _ same := by
        cases same
        exact isRun_digits _ }
    real := Bool.and_false _
    text := ?_
    exact := ?_ }⟩
  · rw [scientific_cons]
    cases ds <;> simp [Literal.chars, Literal.fractionChars, Literal.exponentChars]
  · have last : leading - ds.length = x.exponent := by
      rw [place, List.length_cons]
      omega
    simp only [Literal.significand, Literal.power, signed, fraction, last, Scientific.value,
      List.singleton_append, number]

/-- In a document every number that is not zero is written with a point or an exponent. -/
theorem exists_writesReal (positive : 0 < x.significand) :
    ∃ whole fraction exponent, WritesReal ⟨negative, whole, fraction, exponent⟩
      (documentLayout.write x) x.value := by
  rw [Decimal.Layout.write]
  split
  next =>
    rcases lt_or_ge (((digits x.significand).length : ℤ) - 1 + x.exponent) 0 with below | above
    · exact ⟨_, _, _, writesReal_below_one negative below rfl⟩
    · obtain ⟨whole, fraction, writes⟩ := writesReal_whole negative positive above rfl
      exact ⟨whole, fraction, none, writes⟩
  next =>
    obtain ⟨whole, fraction, exponent, writes⟩ := writesReal_scientific negative rfl
    exact ⟨whole, fraction, exponent, writes⟩

end

theorem shortestText?_eq {x : Float} {negative : Bool} {m : ℕ} {q : ℤ}
    (finite : Decimal.parts x = .finite negative m q) :
    Decimal.shortestText? documentLayout x = some ((if negative then ['-'] else []) ++
      if m = 0 then documentLayout.plain ['0'] 0
      else documentLayout.write (Decimal.shortest m q)) := by
  rw [Decimal.shortestText?, finite]
  cases negative <;> rfl

/-- A literal that a double is written as, and that means the double. -/
structure Means (l : Literal) (x : Float) : Prop where
  written : l.IsWritten
  real : l.isInteger = false
  text : (Number.real x).write = l.chars
  toFloat : l.toFloat = x

section

variable {x : Float} {sign : Float.Model.UnpackedFloat.Sign}

theorem exists_means_of_zero (unpacked : x.toModel.unpack = .zero sign) :
    ∃ l : Literal, Means l x := by
  have parts := Decimal.parts_eq x
  have same : Float.ofModel (.pack x.toModel.unpack) = x := Float.ofBits_toBits x
  rw [unpacked] at parts same
  refine ⟨⟨sign == .negative, ['0'], some ['0'], none⟩, {
    written := {
      whole := isRun_digits 0
      unpadded _ := rfl
      fraction ds same := by
        cases same
        exact isRun_digits 0
      exponent _ _ same := by cases same }
    real := rfl
    text := ?_
    toFloat := ?_ }⟩
  · rw [Number.write, shortestText?_eq parts]
    rfl
  · rw [← same, Literal.toFloat_eq]
    cases sign <;> rfl

/-- The literal of a double writes a number in the interval of the double. -/
theorem exists_means_of_finite {m : ℕ} {q : ℤ} {positive : 0 < m}
    (unpacked : x.toModel.unpack = .finite sign m q positive) : ∃ l : Literal, Means l x := by
  have parts := Decimal.parts_eq x
  rw [unpacked] at parts
  have canonical := Decimal.canonical_of_unpack unpacked
  have contains := Decimal.shortest_contains canonical
  obtain ⟨digits, -⟩ := Decimal.magnitude_bounds canonical contains
  obtain ⟨whole, fraction, exponent, writes⟩ := exists_writesReal (sign == .negative) digits
  refine ⟨_, writes.written, writes.real, ?_, ?_⟩
  · rw [Number.write, shortestText?_eq parts, if_neg positive.ne', writes.text]
    rfl
  · -- the sign is read apart from the number, so rounding is that of the magnitude
    rw [← writes.exact] at contains
    rw [Literal.toFloat_eq, Decimal.nearest_of_contains canonical contains, Decimal.neg_double,
      ← Decimal.double_of_unpack unpacked]
    cases sign <;> rfl

theorem exists_means (finite : x.isFinite = true) : ∃ l : Literal, Means l x := by
  change x.toModel.unpack.isFinite = true at finite
  cases unpacked : x.toModel.unpack with
  | notANumber =>
    rw [unpacked] at finite
    cases finite
  | infinity sign =>
    rw [unpacked] at finite
    cases finite
  | zero sign => exact exists_means_of_zero unpacked
  | finite sign m q positive => exact exists_means_of_finite unpacked

end

/-! ### Numbers -/

/-- The numbers that are read as they are written. -/
def Number.IsWritable : Number → Prop
  | integer z => Int64.minValue.toInt ≤ z ∧ z < UInt64.size
  | real x => x.isFinite = true

theorem Number.exists_literal {n : Number} (writable : n.IsWritable) :
    ∃ l : Literal, l.IsWritten ∧ n.write = l.chars ∧ l.number? = some n := by
  cases n with
  | integer z =>
    obtain ⟨least, most⟩ := writable
    have written : Literal.IsWritten ⟨decide (z < 0), digits z.natAbs, none, none⟩ := {
      whole := isRun_digits _
      unpadded zero := by
        rcases Nat.eq_zero_or_pos z.natAbs with none | some
        · rw [none]
          rfl
        · exact absurd zero (Decimal.head?_digits some)
      fraction _ same := by cases same
      exponent _ _ same := by cases same }
    refine ⟨_, written, ?_, ?_⟩
    · rw [Number.write, Decimal.integerDigits]
      by_cases below : z < 0 <;>
        simp [Literal.chars, Literal.fractionChars, Literal.exponentChars, below]
    · have same : Literal.toInt ⟨decide (z < 0), digits z.natAbs, none, none⟩ = z := by
        simp only [Literal.toInt, Decimal.value_digits, decide_eq_true_eq]
        split <;> omega
      -- a whole number in the range of the two words is not read as a double
      have word : isWord (decide (z < 0)) z = true := by
        by_cases below : z < 0
        · simpa [isWord, below, below.ne] using least
        · simpa [isWord, below] using most
      rw [Literal.number?, same]
      exact if_pos (by rw [word]; rfl)
  | real x =>
    obtain ⟨l, means⟩ := exists_means writable
    refine ⟨l, means.written, means.text, ?_⟩
    rw [Literal.number?, means.real, means.toFloat]
    exact if_pos writable

theorem readNumber_write {n : Number} (writable : n.IsWritable) {rest : List Char}
    (ends : EndsNumber rest) : readNumber (n.write ++ rest) = some (.number n, rest) := by
  obtain ⟨l, written, text, number⟩ := n.exists_literal writable
  rw [readNumber, text, written.readLiteral ends]
  simp only [Option.bind_eq_bind, Option.bind_some, number]
  rfl

/-- A number starts with a minus sign or a digit. -/
def StartsNumber (c : Char) : Prop :=
  c = '-' ∨ c.isDigit = true

theorem StartsNumber.ne {c : Char} (starts : StartsNumber c) (d : Char)
    (other : d ≠ '-' ∧ d.isDigit = false := by decide) : c ≠ d := by
  rintro rfl
  rcases starts with sign | digit
  · exact other.1 sign
  · rw [other.2] at digit
    cases digit

theorem Number.exists_front {n : Number} (writable : n.IsWritable) :
    ∃ c cs, n.write = c :: cs ∧ StartsNumber c := by
  obtain ⟨l, written, text, -⟩ := n.exists_literal writable
  rw [text, Literal.chars]
  split
  · exact ⟨_, _, rfl, .inl rfl⟩
  · obtain ⟨d, ds, front⟩ := List.exists_cons_of_ne_nil written.whole.nonempty
    rw [front]
    exact ⟨_, _, rfl, .inr (written.whole.digits d (front ▸ List.mem_cons_self))⟩

end RegionNet.Json
