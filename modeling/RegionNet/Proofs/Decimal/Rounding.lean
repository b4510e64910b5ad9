import Mathlib
import RegionNet.Proofs.Decimal.Packing

/-!
# Rounding

A mantissa that was cut off keeps two bits of what it misses, and with them it still stands for the
exact number. So one rounding of a number takes it to the double in whose interval it lies.
-/

namespace RegionNet.Decimal

open Float.Model Float.Model.UnpackedFloat

/-- What the residual bits of a mantissa tell of the part that it misses. -/
def Residue : Bool → Bool → ℚ → Prop
  | false, false, r => r = 0
  | false, true, r => 0 < r ∧ r < 1 / 2
  | true, false, r => r = 1 / 2
  | true, true, r => 1 / 2 < r ∧ r < 1

theorem Residue.bounds {round sticky : Bool} {r : ℚ} (residue : Residue round sticky r) :
    0 ≤ r ∧ r < 1 := by
  cases round <;> cases sticky <;> simp only [Residue] at residue <;> constructor <;> linarith

/-- The bit that a shift drops becomes the first residual bit. -/
theorem Residue.shift {round sticky : Bool} {r : ℚ} (residue : Residue round sticky r)
    (odd : Bool) : Residue odd (round || sticky) ((r + if odd then 1 else 0) / 2) := by
  cases odd <;> cases round <;> cases sticky <;>
    simp only [Residue, Bool.or_self, Bool.or_true, Bool.or_false, Bool.false_eq_true, if_true,
      if_false] at residue ⊢ <;> (try constructor) <;> linarith

/-- A mantissa with its residual bits stands for a rational. -/
def Stands (extended : ExtendedMantissa) (x : ℚ) : Prop :=
  Residue extended.roundBit extended.stickyBit (x - extended.mantissa)

namespace Stands

variable {extended : ExtendedMantissa} {x : ℚ}

theorem shiftRightOne (stands : Stands extended x) : Stands extended.shiftRightOne (x / 2) := by
  obtain ⟨mantissa, round, sticky⟩ := extended
  have shifted := Residue.shift stands (mantissa % 2 != 0)
  have division : (mantissa : ℚ) = 2 * (mantissa / 2 : ℕ) + (mantissa % 2 : ℕ) := by
    exact_mod_cast (Nat.div_add_mod mantissa 2).symm
  have last : (if (mantissa % 2 != 0) = true then 1 else 0 : ℚ) = (mantissa % 2 : ℕ) := by
    rcases Nat.mod_two_eq_zero_or_one mantissa with even | odd
    · simp [even]
    · simp [odd]
  -- the part that is missing afterwards is half of the dropped bit and of what was missing before
  have missing : (x - mantissa + (mantissa % 2 : ℕ)) / 2 = x / 2 - (mantissa / 2 : ℕ) := by
    linarith
  rwa [last, missing] at shifted

theorem shiftRight (stands : Stands extended x) (bits : Nat) :
    Stands (extended >>> bits) (x / 2 ^ bits) := by
  change Stands (bits.repeat ExtendedMantissa.shiftRightOne extended) _
  induction bits with
  | zero => simpa [Nat.repeat] using stands
  | succ bits ih =>
    rw [Nat.repeat, pow_succ, ← div_div]
    exact ih.shiftRightOne

/-- It is rounded to the nearest integer, and in the middle between two of them to the even one. -/
theorem rounded (stands : Stands extended x) {n : ℕ} (near : |x - n| ≤ 1 / 2)
    (tie : |x - n| = 1 / 2 → n % 2 = 0) : extended.roundedMantissa = n := by
  obtain ⟨mantissa, round, sticky⟩ := extended
  obtain ⟨least, most⟩ := Residue.bounds stands
  rw [abs_le] at near
  -- less than one is missing, so the nearest integer is the mantissa or the next one
  have between : mantissa ≤ n ∧ n ≤ mantissa + 1 := by
    have low : (mantissa : ℚ) < n + 1 := by linarith
    have high : (n : ℚ) < mantissa + 2 := by linarith
    norm_cast at low high
    omega
  simp only [Stands, ExtendedMantissa.roundedMantissa] at stands ⊢
  rcases (show n = mantissa ∨ n = mantissa + 1 by omega) with rfl | rfl
  · cases round <;> cases sticky <;> simp only [Residue] at stands
    · rfl
    · rfl
    · have even := tie (by rw [stands]; norm_num)
      simp [ExtendedMantissa.accuracy, Accuracy.roundToNearestEven, even]
    · linarith
  · push_cast at near tie
    cases round <;> cases sticky <;> simp only [Residue] at stands
    · linarith
    · linarith
    · have even := tie (by rw [abs_eq (by norm_num)]; right; linarith)
      simp [ExtendedMantissa.accuracy, Accuracy.roundToNearestEven]
      omega
    · rfl

end Stands

/-! ### Doubles -/

def Interval.Contains (i : Interval) (x : ℚ) : Prop :=
  if i.closed then i.lower * 2 ^ i.exponent ≤ x ∧ x ≤ i.upper * 2 ^ i.exponent
  else i.lower * 2 ^ i.exponent < x ∧ x < i.upper * 2 ^ i.exponent

variable {m : ℕ} {q : ℤ} {x : ℚ}

def target (mantissa : ℕ) (exponent : ℤ) : ℤ :=
  Format.binary64.targetExponent (totalExponent mantissa exponent)

theorem target_eq (mantissa : ℕ) (exponent : ℤ) :
    target mantissa exponent = max (mantissa.log2 + exponent - 52) (-1074) := by
  simp only [target, Format.targetExponent, totalExponent, Format.mantissaBits, Format.minExponent]
  norm_num
  congr 1
  ring

theorem canonical_target (canonical : Canonical m q) : target m q = q := by
  obtain ⟨positive, bounded, least, most, full⟩ := canonical
  rw [target_eq]
  have log := (Nat.log2_lt positive.ne').2 bounded
  rcases full with full | rfl
  · have log' := (Nat.le_log2 positive.ne').2 full
    omega
  · omega

theorem two_pow_mul_zpow (a : ℕ) (b : ℤ) : (2 : ℚ) ^ a * 2 ^ b = 2 ^ (a + b) := by
  rw [zpow_add₀ two_ne_zero, zpow_natCast]

/-- What lies in the interval of a double is rounded to its mantissa. -/
theorem Interval.contains_ofDyadic (positive : 0 < m)
    (contains : (Interval.ofDyadic m q).Contains x) :
    |x / 2 ^ q - m| ≤ 1 / 2 ∧ (|x / 2 ^ q - m| = 1 / 2 → m % 2 = 0) ∧
      (m = 2 ^ 52 → q ≠ -1074 → (m : ℚ) - 1 / 4 ≤ x / 2 ^ q) := by
  have unit : (0 : ℚ) < 2 ^ q := by positivity
  have quarter : (2 : ℚ) ^ (q - 2) = 2 ^ q / 4 := by
    rw [zpow_sub₀ two_ne_zero]
    norm_num
  obtain ⟨u, rfl⟩ : ∃ u, x = u * 2 ^ q := ⟨x / 2 ^ q, (div_mul_cancel₀ x unit.ne').symm⟩
  rw [mul_div_cancel_right₀ u unit.ne']
  have scaled (n : ℚ) : n * (2 ^ q / 4) = n / 4 * 2 ^ q := by ring
  have lower : ((Interval.ofDyadic m q).lower : ℚ) =
      4 * m - if m = hiddenBit ∧ q ≠ -1074 then 1 else 2 := by
    simp only [Interval.ofDyadic]
    split <;> rw [Nat.cast_sub (by omega)] <;> norm_num
  have upper : ((Interval.ofDyadic m q).upper : ℚ) = 4 * m + 2 := by
    simp [Interval.ofDyadic]
  simp only [Contains, lower, upper] at contains
  simp only [Interval.ofDyadic, quarter, scaled, mul_le_mul_iff_left₀ unit,
    mul_lt_mul_iff_left₀ unit, beq_iff_eq] at contains
  rw [abs_le, abs_eq (by norm_num)]
  -- below a power of two the doubles are twice as dense, and the gap is half as wide
  have half : (if m = hiddenBit ∧ q ≠ -1074 then 1 else 2 : ℚ) ≤ 2 := by split <;> norm_num
  have narrow (power : m = 2 ^ 52) (normal : q ≠ -1074) :
      (if m = hiddenBit ∧ q ≠ -1074 then 1 else 2 : ℚ) = 1 := if_pos ⟨power, normal⟩
  generalize (if m = hiddenBit ∧ q ≠ -1074 then 1 else 2 : ℚ) = gap at *
  split at contains
  next even =>
    refine ⟨⟨by linarith, by linarith⟩, fun _ => even, fun power normal => ?_⟩
    linarith [narrow power normal]
  next =>
    -- the ends of the interval do not belong to it
    refine ⟨⟨by linarith, by linarith⟩, fun tie => ?_, fun power normal => ?_⟩
    · rcases tie with upper | lower <;> linarith
    · linarith [narrow power normal]

/-- Where the target of a shift lies, as the size of the number has it. -/
theorem target_bounds {mantissa : ℕ} {exponent : ℤ} {accuracy : Accuracy}
    (stands : Stands (.ofMantissaAndAccuracy mantissa accuracy) (x / 2 ^ exponent))
    (fine : exponent ≤ target mantissa exponent) :
    -1074 ≤ target mantissa exponent ∧
      (target mantissa exponent = -1074 ∨ 2 ^ 52 * 2 ^ target mantissa exponent ≤ x) ∧
      x < 2 ^ 53 * 2 ^ target mantissa exponent := by
  obtain ⟨least, most⟩ := Residue.bounds stands
  have same : (ExtendedMantissa.ofMantissaAndAccuracy mantissa accuracy).mantissa = mantissa := by
    cases accuracy with
    | exact => rfl
    | inexact order => cases order <;> rfl
  have unit : (0 : ℚ) < 2 ^ exponent := by positivity
  rw [same, sub_nonneg, le_div_iff₀ unit] at least
  rw [same, sub_lt_iff_lt_add', div_lt_iff₀ unit] at most
  have goal := target_eq mantissa exponent
  generalize target mantissa exponent = t at *
  rw [two_pow_mul_zpow, two_pow_mul_zpow]
  refine ⟨by omega, ?_⟩
  rcases Nat.eq_zero_or_pos mantissa with rfl | positive
  · -- a mantissa of zero has no size, so the target is the least exponent
    rw [Nat.log2_zero] at goal
    refine ⟨.inl (by omega), ?_⟩
    calc x < ((0 : ℕ) + 1) * 2 ^ exponent := most
      _ = 2 ^ exponent := by norm_num
      _ ≤ 2 ^ (((53 : ℕ) : ℤ) + t) := zpow_le_zpow_right₀ one_le_two (by push_cast; omega)
  · have low : 2 ^ mantissa.log2 ≤ mantissa := Nat.log2_self_le positive.ne'
    have high : mantissa + 1 ≤ 2 ^ (mantissa.log2 + 1) := Nat.lt_log2_self
    constructor
    · refine (eq_or_ne t (-1074)).imp_right fun finer => ?_
      calc (2 : ℚ) ^ (((52 : ℕ) : ℤ) + t) = 2 ^ mantissa.log2 * 2 ^ exponent := by
            rw [two_pow_mul_zpow]
            congr 1
            push_cast
            omega
        _ ≤ mantissa * 2 ^ exponent := by gcongr; exact_mod_cast low
        _ ≤ x := least
    · calc x < (mantissa + 1) * 2 ^ exponent := most
        _ ≤ 2 ^ (mantissa.log2 + 1) * 2 ^ exponent := by gcongr; exact_mod_cast high
        _ = 2 ^ (((mantissa.log2 + 1 : ℕ) : ℤ) + exponent) := two_pow_mul_zpow _ _
        _ ≤ 2 ^ (((53 : ℕ) : ℤ) + t) := zpow_le_zpow_right₀ one_le_two (by push_cast; omega)

/-- A number in the interval of a double is shifted to the exponent of the double, or to the one
below if it is less than a power of two that it is rounded to. -/
theorem target_of_contains (canonical : Canonical m q)
    (contains : (Interval.ofDyadic m q).Contains x) {t : ℤ} (floor : -1074 ≤ t)
    (lower : t = -1074 ∨ 2 ^ 52 * 2 ^ t ≤ x) (upper : x < 2 ^ 53 * 2 ^ t) :
    t = q ∨ t = q - 1 ∧ m = 2 ^ 52 ∧ q ≠ -1074 ∧ x / 2 ^ q < 2 ^ 52 := by
  obtain ⟨near, -, -⟩ := Interval.contains_ofDyadic canonical.positive contains
  obtain ⟨positive, bounded, least, most, full⟩ := canonical
  have unit : (0 : ℚ) < 2 ^ q := by positivity
  rw [abs_le] at near
  have bounded : (m : ℚ) + 1 ≤ 2 ^ 53 := by exact_mod_cast bounded
  have above : t ≤ q := by
    -- with a coarser unit, the number would have the size of the next power of two
    by_contra coarser
    rcases lower with rfl | lower
    · omega
    have step : (2 : ℚ) ^ (q + 1) ≤ 2 ^ t := zpow_le_zpow_right₀ one_le_two (by omega)
    rw [zpow_add_one₀ two_ne_zero] at step
    have size : x / 2 ^ q < 2 ^ 53 := by linarith
    rw [div_lt_iff₀ unit] at size
    linarith
  rcases eq_or_lt_of_le above with same | finer
  · exact .inl same
  · have full : (2 : ℚ) ^ 52 ≤ m := by exact_mod_cast full.resolve_right (by omega)
    have size : (2 : ℚ) ^ 52 - 1 / 2 ≤ x / 2 ^ q := by linarith
    rw [le_div_iff₀ unit] at size
    -- two powers of two finer, the number would be less than half of a full mantissa
    have next : t = q - 1 := by
      by_contra far
      have step : (2 : ℚ) ^ t ≤ 2 ^ (q - 2) := zpow_le_zpow_right₀ one_le_two (by omega)
      rw [zpow_sub₀ two_ne_zero] at step
      norm_num at step
      linarith
    have below : x / 2 ^ q < 2 ^ 52 := by
      rw [div_lt_iff₀ unit]
      rw [next, zpow_sub₀ two_ne_zero] at upper
      norm_num at upper ⊢
      linarith
    refine .inr ⟨next, ?_, by omega, below⟩
    have power : (m : ℚ) < 2 ^ 52 + 1 := by linarith
    have power : m < 2 ^ 52 + 1 := by exact_mod_cast power
    have full : 2 ^ 52 ≤ m := by exact_mod_cast full
    omega

theorem shiftToTargetExponent_eq {mantissa : ℕ} {exponent : ℤ} (accuracy : Accuracy)
    (fine : exponent ≤ target mantissa exponent) :
    shiftToTargetExponent .binary64 mantissa exponent accuracy =
      (ExtendedMantissa.ofMantissaAndAccuracy mantissa accuracy >>>
        (target mantissa exponent - exponent).toNat, target mantissa exponent) := by
  refine Prod.ext rfl ?_
  change exponent + ((target mantissa exponent - exponent).toNat : ℤ) = target mantissa exponent
  omega

/-- A number in the interval of a double is rounded to that double. -/
theorem roundWithAccuracy_of_contains (canonical : Canonical m q)
    (contains : (Interval.ofDyadic m q).Contains x) {mantissa : ℕ} {exponent : ℤ}
    {accuracy : Accuracy} (sign : Sign)
    (stands : Stands (.ofMantissaAndAccuracy mantissa accuracy) (x / 2 ^ exponent))
    (fine : exponent ≤ target mantissa exponent) :
    roundWithAccuracy .binary64 sign mantissa exponent accuracy =
      .finite sign m q canonical.positive := by
  obtain ⟨floor, lower, upper⟩ := target_bounds stands fine
  obtain ⟨near, tie, narrow⟩ := Interval.contains_ofDyadic canonical.positive contains
  have first := shiftToTargetExponent_eq accuracy fine
  have shifted := stands.shiftRight (target mantissa exponent - exponent).toNat
  rw [div_div, mul_comm, two_pow_mul_zpow, Int.toNat_of_nonneg (by omega), sub_add_cancel]
    at shifted
  rcases target_of_contains canonical contains floor lower upper with
    same | ⟨below, power, normal, less⟩
  · -- the second shift does nothing, since the rounded mantissa fits
    rw [same] at shifted first
    have rounded := shifted.rounded near tie
    have stays := canonical_target canonical
    have second := shiftToTargetExponent_eq .exact stays.ge
    rw [stays, sub_self] at second
    simp only [roundWithAccuracy, first, rounded, second]
    exact dif_neg canonical.positive.ne'
  · rw [below] at shifted first
    -- the mantissa is rounded up to the power of two, and the carry shifted out once more
    have double : x / 2 ^ (q - 1) = 2 * (x / 2 ^ q) := by
      rw [zpow_sub_one₀ two_ne_zero]
      field_simp
    have narrow := narrow power normal
    have near : |x / 2 ^ (q - 1) - (2 ^ 53 : ℕ)| ≤ 1 / 2 := by
      rw [power] at narrow
      rw [double, abs_le]
      push_cast at narrow ⊢
      constructor <;> linarith
    have rounded := shifted.rounded near fun _ => by norm_num
    have goal : target (2 ^ 53) (q - 1) = q := by
      rw [target_eq, Nat.log2_two_pow]
      have := canonical.least
      omega
    have low : q - 1 ≤ target (2 ^ 53) (q - 1) := by omega
    have second := shiftToTargetExponent_eq .exact low
    rw [goal, sub_sub_cancel] at second
    simp only [roundWithAccuracy, first, rounded, second]
    subst power
    exact dif_neg canonical.positive.ne'

end RegionNet.Decimal
