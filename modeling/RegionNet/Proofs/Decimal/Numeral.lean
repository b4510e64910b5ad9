import Mathlib
import RegionNet.Decimal.Numeral
import RegionNet.Decimal.Shortest

/-!
# Numerals and the numbers they write
-/

namespace RegionNet.Decimal

theorem value_eq (ds : List Char) : value ds = Nat.ofDigitChars 10 ds 0 := rfl

@[simp] theorem value_digits (n : Nat) : value (digits n) = n := by
  rw [value_eq, digits, Nat.ofDigitChars_ten_toDigits]

theorem value_append (ds es : List Char) :
    value (ds ++ es) = value ds * 10 ^ es.length + value es := by
  rw [value_eq, Nat.ofDigitChars_append, Nat.ofDigitChars_eq_ofDigitChars_zero, ← value_eq,
    ← value_eq, Nat.mul_comm]

@[simp] theorem value_zeros (n : Nat) : value (zeros n) = 0 := by
  rw [value_eq, zeros, Nat.ofDigitChars_replicate_zero, Nat.mul_zero]

theorem value_zeros_append (n : Nat) (ds : List Char) : value (zeros n ++ ds) = value ds := by
  rw [value_append, value_zeros, Nat.zero_mul, Nat.zero_add]

theorem isDigit_of_mem_zeros {n : Nat} {c : Char} (member : c ∈ zeros n) : c.isDigit = true := by
  rw [List.eq_of_mem_replicate member]
  rfl

theorem isDigit_of_mem_digits {n : Nat} {c : Char} (member : c ∈ digits n) : c.isDigit = true :=
  Nat.isDigit_of_mem_toDigits (by decide) (by decide) member

theorem length_digits_pos (n : Nat) : 0 < (digits n).length :=
  Nat.length_toDigits_pos

theorem lt_ten_pow_length (n : Nat) : n < 10 ^ (digits n).length :=
  (Nat.length_toDigits_le_iff (by decide) (length_digits_pos n)).1 le_rfl

theorem ten_pow_length_le {n : Nat} (positive : 0 < n) : 10 ^ ((digits n).length - 1) ≤ n := by
  rcases Nat.eq_zero_or_pos ((digits n).length - 1) with single | more
  · rw [single]
    exact positive
  · rw [← not_lt, ← Nat.length_toDigits_le_iff (by decide) more, ← digits]
    omega

/-- A number has no zero in front. -/
theorem head?_digits {n : Nat} (positive : 0 < n) : (digits n).head? ≠ some '0' := by
  rw [digits]
  induction n using Nat.strong_induction_on with
  | h n ih =>
    rw [Nat.toDigits_eq_if (by decide)]
    split
    next single =>
      rw [List.head?_cons, ne_eq, Option.some_inj, Nat.digitChar_eq_zero]
      exact positive.ne'
    next more =>
      rw [List.head?_append_of_ne_nil _ Nat.toDigits_ne_nil]
      exact ih _ (by omega) (by omega)

end RegionNet.Decimal
