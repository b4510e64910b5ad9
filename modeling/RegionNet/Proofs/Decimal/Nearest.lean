import RegionNet.Proofs.Decimal.Rounding
import RegionNet.Proofs.Decimal.Numeral
import RegionNet.Decimal.Nearest

/-!
# Decimal numbers that are read as a double

Every way to compute the double next to a decimal number ends in one rounding of its exact value: of
a product that has all its bits, or of a quotient with as many bits as a mantissa and a remainder.
So a decimal number in the interval of a double is read as that double.
-/

namespace RegionNet.Decimal

open Float.Model (Format)
open Float.Model.UnpackedFloat

variable {m : ℕ} {q : ℤ}

section

variable {m₁ m₂ : ℕ} {e₁ e₂ : ℤ} {positive₁ : 0 < m₁} {positive₂ : 0 < m₂}

/-- A product has all its bits; there are enough of them if one factor is long. -/
theorem mul_of_contains (canonical : Canonical m q)
    (contains : (Interval.ofDyadic m q).Contains ((m₁ * 2 ^ e₁) * (m₂ * 2 ^ e₂)))
    (long : 2 ^ 52 ≤ m₁ * m₂) :
    mul .binary64 (.finite .positive m₁ e₁ positive₁) (.finite .positive m₂ e₂ positive₂) =
      .finite .positive m q canonical.positive := by
  refine roundWithAccuracy_of_contains canonical contains .positive ?_ ?_
  · have exact : (m₁ * 2 ^ e₁) * (m₂ * 2 ^ e₂) / 2 ^ (e₁ + e₂) = ((m₁ * m₂ : ℕ) : ℚ) := by
      rw [zpow_add₀ two_ne_zero]
      push_cast
      field_simp
    rw [exact]
    exact sub_self _
  · have log := (Nat.le_log2 (Nat.mul_pos positive₁ positive₂).ne').2 long
    rw [target_eq]
    omega

/-- How a fraction compares with a half says what its residual bits are. -/
theorem stands_div (a : ℕ) {b : ℕ} (positive : 0 < b) :
    Stands (.ofMantissaAndAccuracy (a / b) (accuracyOfFraction (a % b) b)) (a / b) := by
  have unit : (0 : ℚ) < b := by exact_mod_cast positive
  have division : (a : ℚ) / b - (a / b : ℕ) = (a % b : ℕ) / b := by
    have split : (a : ℚ) = b * (a / b : ℕ) + (a % b : ℕ) := by
      exact_mod_cast (Nat.div_add_mod a b).symm
    rw [eq_div_iff unit.ne', sub_mul, div_mul_cancel₀ _ unit.ne']
    linarith
  have rest : ((a % b : ℕ) : ℚ) < b := by exact_mod_cast Nat.mod_lt a positive
  have below : ((a % b : ℕ) : ℚ) / b < 1 := by rwa [div_lt_one unit]
  rw [Stands]
  -- the remainder and the divisor decide how the fraction compares with a half
  generalize a % b = num at *
  by_cases whole : num = 0
  · rw [accuracyOfFraction, if_pos whole]
    exact division.trans (by rw [whole, Nat.cast_zero, zero_div])
  · rw [accuracyOfFraction, if_neg whole]
    have part : (0 : ℚ) < (num : ℚ) / b := div_pos (by exact_mod_cast Nat.pos_of_ne_zero whole) unit
    rcases lt_trichotomy (2 * num) b with less | half | more
    · have less : (2 : ℚ) * num < b := by exact_mod_cast less
      rw [compare_lt_iff_lt.2 ‹_›]
      refine ⟨division ▸ part, division ▸ ?_⟩
      rw [div_lt_iff₀ unit]
      linarith
    · have half' : (2 : ℚ) * num = b := by exact_mod_cast half
      rw [compare_eq_iff_eq.2 half]
      refine division.trans ?_
      rw [div_eq_iff unit.ne']
      linarith
    · have more' : (b : ℚ) < 2 * num := by exact_mod_cast more
      rw [compare_gt_iff_gt.2 more]
      refine ⟨division ▸ ?_, division ▸ below⟩
      rw [lt_div_iff₀ unit]
      linarith

theorem div_of_contains (canonical : Canonical m q)
    (contains : (Interval.ofDyadic m q).Contains ((m₁ * 2 ^ e₁) / (m₂ * 2 ^ e₂))) :
    div .binary64 (.finite .positive m₁ e₁ positive₁) (.finite .positive m₂ e₂ positive₂) =
      .finite .positive m q canonical.positive := by
  have goal : Format.binary64.targetExponent
      (Float.Model.totalExponent m₁ e₁ - Float.Model.totalExponent m₂ e₂) =
      max (m₁.log2 + e₁ - m₂.log2 - e₂ - 53) (-1074) := by
    simp only [Format.targetExponent, Float.Model.totalExponent, Format.mantissaBits,
      Format.minExponent]
    norm_num
    congr 1
    ring
  simp only [div, divCore, goal, Nat.shiftLeft_eq]
  obtain ⟨shift, shifted⟩ : ∃ shift : ℕ, (shift : ℤ) =
      e₁ - e₂ - min (e₁ - e₂) (max (m₁.log2 + e₁ - m₂.log2 - e₂ - 53) (-1074)) :=
    ⟨_, Int.toNat_of_nonneg (by omega)⟩
  rw [← shifted, Int.toNat_natCast]
  generalize exponent_def : min (e₁ - e₂) (max (m₁.log2 + e₁ - m₂.log2 - e₂ - 53) (-1074)) = e at *
  refine roundWithAccuracy_of_contains canonical contains .positive ?_ ?_
  · have scaled : (m₁ * 2 ^ e₁) / (m₂ * 2 ^ e₂) / 2 ^ e = ((m₁ * 2 ^ shift : ℕ) : ℚ) / m₂ := by
      have powers : (2 : ℚ) ^ e₁ = 2 ^ shift * 2 ^ e * 2 ^ e₂ := by
        rw [two_pow_mul_zpow, ← zpow_add₀ two_ne_zero]
        congr 1
        omega
      rw [powers]
      push_cast
      field_simp
    rw [scaled]
    exact stands_div (m₁ * 2 ^ shift) positive₂
  · rw [target_eq]
    rcases le_or_gt e (-1074) with low | high
    · omega
    · -- the quotient was given as many bits as a mantissa has
      have long : 2 ^ 52 ≤ m₁ * 2 ^ shift / m₂ := by
        rw [Nat.le_div_iff_mul_le positive₂]
        calc 2 ^ 52 * m₂ ≤ 2 ^ 52 * 2 ^ (m₂.log2 + 1) := by gcongr; exact Nat.lt_log2_self.le
          _ = 2 ^ (52 + (m₂.log2 + 1)) := (pow_add 2 _ _).symm
          _ ≤ 2 ^ (m₁.log2 + shift) := Nat.pow_le_pow_right two_pos (by omega)
          _ = 2 ^ m₁.log2 * 2 ^ shift := pow_add 2 _ _
          _ ≤ m₁ * 2 ^ shift := by gcongr; exact Nat.log2_self_le positive₁.ne'
      have log := (Nat.le_log2 (by omega)).2 long
      omega

end

theorem two_pow_le_ten_pow (n : ℕ) : (2 : ℚ) ^ (3 * n) ≤ 10 ^ n := by
  rw [pow_mul]
  gcongr
  norm_num

/-- How large and how small a number in the interval of a double can be. -/
theorem Interval.Contains.bounds {x : ℚ} (canonical : Canonical m q)
    (contains : (Interval.ofDyadic m q).Contains x) :
    (10 : ℚ) ^ (-farExponent : ℤ) ≤ x ∧ x < 10 ^ farExponent := by
  -- every double lies within `2 ^ (3 * 400)`, which is less than `10 ^ 400`
  have far : farExponent = 400 := rfl
  obtain ⟨near, -, -⟩ := Interval.contains_ofDyadic canonical.positive contains
  have unit : (0 : ℚ) < 2 ^ q := by positivity
  have most : (m : ℚ) + 1 ≤ 2 ^ 53 := by exact_mod_cast canonical.bounded
  have least : (1 : ℚ) ≤ m := by exact_mod_cast canonical.positive
  rw [abs_le] at near
  constructor
  · have half : (1 / 2 : ℚ) ≤ x / 2 ^ q := by linarith
    rw [le_div_iff₀ unit] at half
    calc (10 : ℚ) ^ (-farExponent : ℤ) = (10 ^ farExponent)⁻¹ := by rw [zpow_neg, zpow_natCast]
      _ ≤ (2 ^ (3 * farExponent))⁻¹ :=
        inv_anti₀ (pow_pos two_pos _) (two_pow_le_ten_pow farExponent)
      _ = 2 ^ (-(3 * farExponent : ℕ) : ℤ) := by rw [zpow_neg, zpow_natCast]
      _ ≤ 2 ^ (q - 1) := zpow_le_zpow_right₀ one_le_two (by have := canonical.least; omega)
      _ = 1 / 2 * 2 ^ q := by rw [zpow_sub_one₀ two_ne_zero]; ring
      _ ≤ x := half
  · have size : x / 2 ^ q < 2 ^ 53 := by linarith
    rw [div_lt_iff₀ unit] at size
    calc x < 2 ^ 53 * 2 ^ q := size
      _ = 2 ^ (((53 : ℕ) : ℤ) + q) := two_pow_mul_zpow 53 q
      _ ≤ 2 ^ ((3 * farExponent : ℕ) : ℤ) :=
        zpow_le_zpow_right₀ one_le_two (by have := canonical.most; omega)
      _ = 2 ^ (3 * farExponent) := zpow_natCast _ _
      _ ≤ 10 ^ farExponent := two_pow_le_ten_pow farExponent

/-- The leading digit of a number in the interval of a double. -/
theorem magnitude_bounds (canonical : Canonical m q) {d : ℕ} {e : ℤ}
    (contains : (Interval.ofDyadic m q).Contains (d * 10 ^ e)) :
    0 < d ∧ -(farExponent : ℤ) < (digits d).length + e ∧
      (digits d).length + e ≤ farExponent := by
  obtain ⟨least, most⟩ := contains.bounds canonical
  have positive : 0 < d := by
    rw [Nat.pos_iff_ne_zero]
    rintro rfl
    rw [Nat.cast_zero, zero_mul] at least
    exact absurd least (not_le.2 (zpow_pos (by norm_num) _))
  have scale (n : ℕ) : (10 : ℚ) ^ n * 10 ^ e = 10 ^ ((n : ℤ) + e) := by
    rw [zpow_add₀ (by norm_num), zpow_natCast]
  have high : (d : ℚ) < 10 ^ (digits d).length := by exact_mod_cast lt_ten_pow_length d
  have low : (10 : ℚ) ^ ((digits d).length - 1) ≤ d := by
    exact_mod_cast ten_pow_length_le positive
  refine ⟨positive, ?_, ?_⟩
  · have below : (10 : ℚ) ^ (-farExponent : ℤ) < 10 ^ (((digits d).length : ℤ) + e) := by
      rw [← scale]
      exact lt_of_le_of_lt least (by gcongr)
    exact (zpow_lt_zpow_iff_right₀ (by norm_num)).1 below
  · have above : (10 : ℚ) ^ ((((digits d).length - 1 : ℕ) : ℤ) + e) < 10 ^ (farExponent : ℤ) := by
      rw [← scale, zpow_natCast 10 farExponent]
      exact lt_of_le_of_lt (by gcongr) most
    have := (zpow_lt_zpow_iff_right₀ (by norm_num)).1 above
    omega

theorem length_digits_le (d : ℕ) : (digits d).length ≤ d.log2 + 1 := by
  rw [digits, Nat.length_toDigits_le_iff (by decide) (Nat.succ_pos _)]
  exact Nat.lt_log2_self.trans_le (Nat.pow_le_pow_left (by decide) _)

/-- The general way to compute a decimal number is right. -/
theorem ofScientific_of_contains (canonical : Canonical m q) {d : ℕ} {e : ℤ}
    (contains : (Interval.ofDyadic m q).Contains (d * 10 ^ e)) :
    ofScientific .binary64 d e = .finite .positive m q canonical.positive := by
  obtain ⟨positive, least, most⟩ := magnitude_bounds canonical contains
  have far : farExponent = 400 := rfl
  have length := length_digits_pos d
  have log := length_digits_le d
  rw [ofScientific, dif_neg positive.ne', if_neg (by norm_num; omega), if_neg (by norm_num; omega)]
  split
  next upwards =>
    have bits : Format.binary64.mantissaBits = 53 := rfl
    -- the power of ten is a whole number: the product is exact, and shifted so far that it is long
    refine mul_of_contains canonical ?_ ?_
    · obtain ⟨n, rfl⟩ := Int.eq_ofNat_of_zero_le upwards
      convert contains using 1
      rw [Nat.shiftLeft_eq, Int.toNat_natCast, zpow_neg, zpow_zero, mul_one, zpow_natCast,
        zpow_natCast]
      push_cast
      rw [mul_inv_cancel_right₀ (by positivity)]
    · rw [Nat.shiftLeft_eq, bits]
      have ten : 0 < 10 ^ e.toNat := by positivity
      nlinarith
  next downwards =>
    -- the power of ten is a divisor
    refine div_of_contains canonical ?_
    obtain ⟨n, rfl⟩ : ∃ n : ℕ, e = -n := ⟨(-e).toNat, by omega⟩
    convert contains using 1
    rw [neg_neg, Int.toNat_natCast, zpow_neg, zpow_zero, mul_one, mul_one, zpow_natCast]
    push_cast
    rw [div_eq_mul_inv]

theorem Canonical.contains_self (canonical : Canonical m q) :
    (Interval.ofDyadic m q).Contains (m * 2 ^ q) := by
  have unit : (0 : ℚ) < 2 ^ (q - 2) := by positivity
  have centre : (m : ℚ) * 2 ^ q = (4 * m : ℕ) * 2 ^ (q - 2) := by
    rw [zpow_sub₀ two_ne_zero]
    push_cast
    ring
  have lower : (Interval.ofDyadic m q).lower < 4 * m := by
    have := canonical.positive
    simp only [Interval.ofDyadic]
    split <;> omega
  have upper : 4 * m < (Interval.ofDyadic m q).upper := Nat.lt_add_of_pos_right (by decide)
  have inner : ((Interval.ofDyadic m q).lower : ℚ) * 2 ^ (q - 2) < m * 2 ^ q ∧
      (m : ℚ) * 2 ^ q < (Interval.ofDyadic m q).upper * 2 ^ (q - 2) := by
    rw [centre]
    exact ⟨by gcongr, by gcongr⟩
  rw [Interval.Contains]
  split
  · exact ⟨inner.1.le, inner.2.le⟩
  · exact inner

/-- A double with a full mantissa that stands for `x`. -/
def Normal (float : Float) (x : ℚ) : Prop :=
  ∃ (m : ℕ) (q : ℤ) (canonical : Canonical m q), 2 ^ 52 ≤ m ∧ m * 2 ^ q = x ∧
    float = double .positive canonical

theorem normal_toFloat {d : ℕ} (positive : 0 < d) (short : d < 2 ^ 53) :
    Normal d.toUInt64.toFloat d := by
  have log := (Nat.log2_lt positive.ne').2 short
  have full : 2 ^ 52 ≤ d * 2 ^ (52 - d.log2) := by
    calc 2 ^ 52 = 2 ^ d.log2 * 2 ^ (52 - d.log2) := by rw [← pow_add]; congr 1; omega
      _ ≤ d * 2 ^ (52 - d.log2) := by gcongr; exact Nat.log2_self_le positive.ne'
  have bounded : d * 2 ^ (52 - d.log2) < 2 ^ 53 := by
    calc d * 2 ^ (52 - d.log2) < 2 ^ (d.log2 + 1) * 2 ^ (52 - d.log2) := by
          gcongr; exact Nat.lt_log2_self
      _ = 2 ^ 53 := by rw [← pow_add]; congr 1; omega
  have canonical : Canonical (d * 2 ^ (52 - d.log2)) (d.log2 - 52) :=
    ⟨by positivity, bounded, by omega, by omega, .inl full⟩
  have value : ((d * 2 ^ (52 - d.log2) : ℕ) : ℚ) * 2 ^ ((d.log2 : ℤ) - 52) = d := by
    have exponent : (d.log2 : ℤ) - 52 = -((52 - d.log2 : ℕ) : ℤ) := by omega
    rw [exponent, zpow_neg, zpow_natCast]
    push_cast
    exact mul_inv_cancel_right₀ (by positivity) _
  refine ⟨_, _, canonical, full, value, ?_⟩
  -- the conversion shifts the whole number until it is long, and has nothing to round
  have whole : (Nat.toUInt64 d).toNat = d :=
    UInt64.toNat_ofNat_of_lt' (short.trans (by decide))
  have compared : compare (d : ℤ) 0 = .gt := compare_gt_iff_gt.2 (by exact_mod_cast positive)
  have goal : Format.binary64.targetExponent (Float.Model.totalExponent d 0) = d.log2 - 52 := by
    have := target_eq d 0
    rw [target] at this
    omega
  have shift : (0 - ((d.log2 : ℤ) - 52)).toNat = 52 - d.log2 := by omega
  have down : 0 - ((52 - d.log2 : ℕ) : ℤ) = d.log2 - 52 := by omega
  simp only [UInt64.toFloat, Float.Model.ofUInt64, ofUInt64, Float.Model.UnpackedFloat.ofNat,
    Float.Model.UnpackedFloat.ofInt, Float.Model.UnpackedFloat.normalize, whole, compared,
    Float.Model.UnpackedFloat.round, goal, decreaseExponent, shift, down, Int.toNat_natCast,
    Nat.shiftLeft_eq]
  rw [roundWithAccuracy_of_contains canonical canonical.contains_self .positive
    (by rw [mul_div_cancel_right₀ _ (by positivity)]; exact sub_self _)
    (canonical_target canonical).ge]
  rfl

/-- The mantissa of a power of ten is the power, shifted so that it has all its bits. -/
theorem power_of_ten : ∀ e : Fin Float.exactlyRepresentablePowersOfTen.size,
    let k := Nat.log2 (10 ^ e.val)
    let m := 10 ^ e.val * 2 ^ 52 / 2 ^ k
    m * 2 ^ k = 10 ^ e.val * 2 ^ 52 ∧ 2 ^ 52 ≤ m ∧ m < 2 ^ 53 ∧ k ≤ 73 ∧
      ∃ positive : 0 < m, Float.exactlyRepresentablePowersOfTen[e.val] =
        .ofModel (.pack (.finite .positive m (k - 52) positive)) := by
  decide +kernel

theorem normal_power (e : ℕ) (small : e < Float.exactlyRepresentablePowersOfTen.size) :
    Normal Float.exactlyRepresentablePowersOfTen[e] (10 ^ e) := by
  obtain ⟨value, full, bounded, most, positive, same⟩ := power_of_ten ⟨e, small⟩
  refine ⟨_, _, ⟨positive, bounded, by omega, by omega, .inl full⟩, full, ?_, same⟩
  have value : (_ : ℚ) = _ := congrArg (Nat.cast (R := ℚ)) value
  push_cast at value
  rw [zpow_sub₀ two_ne_zero, zpow_natCast, mul_div_assoc', div_eq_iff (by positivity)]
  exact_mod_cast value

section

variable {a b : Float} {v w : ℚ}

theorem Normal.mul (normal : Normal a v) (normal' : Normal b w) (canonical : Canonical m q)
    (contains : (Interval.ofDyadic m q).Contains (v * w)) :
    a * b = double .positive canonical := by
  obtain ⟨m₁, q₁, canonical₁, full₁, rfl, rfl⟩ := normal
  obtain ⟨m₂, q₂, canonical₂, full₂, rfl, rfl⟩ := normal'
  have long : 2 ^ 52 ≤ m₁ * m₂ := full₁.trans (Nat.le_mul_of_pos_right m₁ canonical₂.positive)
  change Float.ofModel (.pack (Float.Model.UnpackedFloat.mul .binary64
    (double .positive canonical₁).toModel.unpack (double .positive canonical₂).toModel.unpack)) = _
  rw [unpack_double, unpack_double, mul_of_contains canonical contains long]
  rfl

theorem Normal.div (normal : Normal a v) (normal' : Normal b w) (canonical : Canonical m q)
    (contains : (Interval.ofDyadic m q).Contains (v / w)) :
    a / b = double .positive canonical := by
  obtain ⟨m₁, q₁, canonical₁, full₁, rfl, rfl⟩ := normal
  obtain ⟨m₂, q₂, canonical₂, full₂, rfl, rfl⟩ := normal'
  change Float.ofModel (.pack (Float.Model.UnpackedFloat.div .binary64
    (double .positive canonical₁).toModel.unpack (double .positive canonical₂).toModel.unpack)) = _
  rw [unpack_double, unpack_double, div_of_contains canonical contains]
  rfl

end

/-- A decimal number in the interval of a double is read as that double. -/
theorem nearest_of_contains (canonical : Canonical m q) {d : ℕ} {e : ℤ}
    (contains : (Interval.ofDyadic m q).Contains (d * 10 ^ e)) :
    nearest d e = double .positive canonical := by
  obtain ⟨positive, least, most⟩ := magnitude_bounds canonical contains
  simp only [nearest]
  change (if d = 0 then _ else if (digits d).length + e > (farExponent : ℤ) then _
    else if (digits d).length + e < -(farExponent : ℤ) then _ else _) = _
  rw [if_neg positive.ne', if_neg (by omega), if_neg (by omega), Float.ofScientific]
  split
  next small =>
    -- a short number and a small power are doubles themselves, and one operation rounds once
    obtain ⟨short, few⟩ := small
    have factor := normal_toFloat positive short
    have power := normal_power e.natAbs (Nat.lt_succ_of_le few)
    split
    next downwards =>
      refine factor.div power canonical ?_
      have exponent : e = -(e.natAbs : ℤ) := by
        rw [decide_eq_true_eq] at downwards
        omega
      rwa [exponent, zpow_neg, zpow_natCast, ← div_eq_mul_inv] at contains
    next upwards =>
      refine factor.mul power canonical ?_
      have exponent : e = (e.natAbs : ℤ) := by
        rw [decide_eq_true_eq] at upwards
        omega
      rwa [exponent, zpow_natCast] at contains
  next =>
    have exponent : (if decide (e < 0) = true then Int.negOfNat e.natAbs else Int.ofNat e.natAbs) =
        e := by
      cases e with
      | ofNat n => rfl
      | negSucc n =>
        rw [if_pos (decide_eq_true (Int.negSucc_lt_zero n))]
        rfl
    simp only [exponent]
    rw [Float.Model.ofScientific, ofScientific_of_contains canonical contains]
    rfl

end RegionNet.Decimal
