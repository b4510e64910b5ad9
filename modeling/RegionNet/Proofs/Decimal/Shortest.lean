import RegionNet.Proofs.Decimal.Nearest

/-!
# The shortest numeral of a double lies in its interval

Whether a multiple of a power of ten lies in an interval is decided in whole numbers. Of the
seventeen grids that are tried the last one is finer than the interval is long, so that one of its
multiples lies in the interval.
-/

namespace RegionNet.Decimal

variable {m : ℕ} {q : ℤ}

/-- The number that a scientific numeral writes. -/
def Scientific.value (x : Scientific) : ℚ :=
  x.significand * 10 ^ x.exponent

theorem zpow_eq_div {b : ℚ} (nonzero : b ≠ 0) (z : ℤ) : b ^ z = b ^ z.toNat / b ^ (-z).toNat := by
  rw [eq_div_iff (pow_ne_zero _ nonzero), ← zpow_natCast, ← zpow_natCast, ← zpow_add₀ nonzero]
  congr 1
  omega

section

variable (i : Interval) (power : ℤ) (a d : ℕ)

theorem Interval.denominator_pos : 0 < (i.scale power).denominator :=
  Nat.mul_pos (Nat.pow_pos two_pos) (Nat.pow_pos (by decide))

theorem Interval.scaled : (a : ℚ) * (i.scale power).numerator * 10 ^ power =
    a * 2 ^ i.exponent * (i.scale power).denominator := by
  rw [zpow_eq_div (by norm_num) power, zpow_eq_div two_ne_zero i.exponent]
  simp only [scale, Nat.pow_eq]
  push_cast
  field_simp

/-- Multiples of a power of ten are compared with the units of an interval in whole numbers. -/
theorem Interval.scaled_le_iff :
    a * (i.scale power).numerator ≤ d * (i.scale power).denominator ↔
      (a : ℚ) * 2 ^ i.exponent ≤ d * 10 ^ power := by
  have positive : (0 : ℚ) < (i.scale power).denominator := by exact_mod_cast i.denominator_pos power
  have ten : (0 : ℚ) < 10 ^ power := by positivity
  rw [← Nat.cast_le (α := ℚ), Nat.cast_mul, Nat.cast_mul, ← mul_le_mul_iff_left₀ ten, scaled,
    mul_right_comm (d : ℚ), mul_le_mul_iff_left₀ positive]

theorem Interval.le_scaled_iff :
    d * (i.scale power).denominator ≤ a * (i.scale power).numerator ↔
      (d : ℚ) * 10 ^ power ≤ a * 2 ^ i.exponent := by
  have positive : (0 : ℚ) < (i.scale power).denominator := by exact_mod_cast i.denominator_pos power
  have ten : (0 : ℚ) < 10 ^ power := by positivity
  rw [← Nat.cast_le (α := ℚ), Nat.cast_mul, Nat.cast_mul, ← mul_le_mul_iff_left₀ ten, scaled,
    mul_right_comm (d : ℚ), mul_le_mul_iff_left₀ positive]

theorem Interval.holds_iff :
    i.holds (i.scale power) d = true ↔ i.Contains (d * 10 ^ power) := by
  rw [holds, Contains]
  split <;>
    simp only [Bool.and_eq_true, decide_eq_true_eq, ← not_le, scaled_le_iff, le_scaled_iff]

end

theorem Interval.contains_of_multiple? {i : Interval} {power : ℤ} {d : ℕ}
    (found : i.multiple? power = some d) : i.Contains (d * 10 ^ power) := by
  rw [← holds_iff]
  simp only [multiple?] at found
  split at found
  next low high =>
    split at found
    · cases found
      exact low
    · cases found
      exact high
  next low _ =>
    cases found
    exact low
  next _ high =>
    cases found
    exact high
  next => cases found

theorem strip_value (fuel : ℕ) (x : Scientific) : (x.strip fuel).value = x.value := by
  induction fuel generalizing x with
  | zero => rfl
  | succ fuel ih =>
    rw [Scientific.strip]
    split
    next trailing =>
      rw [ih]
      have whole : (x.significand : ℚ) = (x.significand / 10 : ℕ) * 10 := by
        exact_mod_cast (Nat.div_mul_cancel (Nat.dvd_of_mod_eq_zero trailing.2)).symm
      simp only [Scientific.value]
      rw [zpow_add_one₀ (by norm_num), whole]
      ring
    next => rfl

theorem leadingPower_le (positive : 0 < m) (q : ℤ) : (10 : ℚ) ^ leadingPower m q ≤ m * 2 ^ q := by
  have bottom : 0 < 2 ^ (-q).toNat := Nat.pow_pos two_pos
  have top : 0 < m * 2 ^ q.toNat := Nat.mul_pos positive (Nat.pow_pos two_pos)
  have value : (m : ℚ) * 2 ^ q = (m * 2 ^ q.toNat : ℕ) / (2 ^ (-q).toNat : ℕ) := by
    rw [zpow_eq_div two_ne_zero q]
    push_cast
    rw [mul_div_assoc]
  have ten (n : ℕ) : (0 : ℚ) < 10 ^ n := by positivity
  rw [value]
  simp only [leadingPower, Nat.pow_eq]
  generalize m * 2 ^ q.toNat = n at *
  generalize 2 ^ (-q).toNat = d at *
  have divisor : (0 : ℚ) < d := by exact_mod_cast bottom
  split
  next reached =>
    rw [zpow_eq_div (by norm_num), div_le_div_iff₀ (ten _) divisor, mul_comm]
    exact_mod_cast reached
  next =>
    have low : (10 : ℚ) ^ ((digits n).length - 1) ≤ n := by exact_mod_cast ten_pow_length_le top
    have high : (d : ℚ) ≤ 10 ^ (digits d).length := by exact_mod_cast (lt_ten_pow_length d).le
    have exponent : ((digits n).length : ℤ) - (digits d).length - 1 =
        ((digits n).length - 1 : ℕ) - (digits d).length := by
      have := length_digits_pos n
      omega
    rw [exponent, zpow_sub₀ (by norm_num), zpow_natCast, zpow_natCast]
    exact div_le_div₀ (by positivity) low divisor high

theorem Interval.contains_of_inside {i : Interval} {x : ℚ} (low : i.lower * 2 ^ i.exponent < x)
    (high : x < i.upper * 2 ^ i.exponent) : i.Contains x := by
  rw [Contains]
  split
  · exact ⟨low.le, high.le⟩
  · exact ⟨low, high⟩

/-- Of the multiples of a power of ten that is less than the length of an interval, one lies in
it, and is next to the centre. -/
theorem Interval.isSome_multiple? {i : Interval} {power : ℤ} (lower : i.lower < i.centre)
    (upper : i.centre < i.upper)
    (fine : (10 : ℚ) ^ power < (i.upper - i.lower) * 2 ^ i.exponent) :
    (i.multiple? power).isSome = true := by
  have unit : (0 : ℚ) < 2 ^ i.exponent := by positivity
  -- a multiple above the lower end that was not taken lies above the upper one
  have outside (d : ℕ) (missed : i.holds (i.scale power) d = false)
      (low : (i.lower : ℚ) * 2 ^ i.exponent < d * 10 ^ power) :
      i.upper * 2 ^ i.exponent ≤ (d : ℚ) * 10 ^ power := by
    by_contra high
    rw [(i.holds_iff power d).2 (contains_of_inside low (not_le.1 high))] at missed
    cases missed
  have start : (i.lower : ℚ) * 2 ^ i.exponent < i.centre * 2 ^ i.exponent := by gcongr
  have stop : (i.centre : ℚ) * 2 ^ i.exponent < i.upper * 2 ^ i.exponent := by gcongr
  simp only [multiple?]
  generalize next : i.centre * (i.scale power).numerator / (i.scale power).denominator = d
  have left : (d : ℚ) * 10 ^ power ≤ i.centre * 2 ^ i.exponent := by
    rw [← le_scaled_iff, ← next]
    exact Nat.div_mul_le_self _ _
  have right : (i.centre : ℚ) * 2 ^ i.exponent ≤ (d + 1 : ℕ) * 10 ^ power := by
    rw [← scaled_le_iff, ← next]
    exact (Nat.lt_div_mul_add (i.denominator_pos power)).le.trans_eq (Nat.succ_mul _ _).symm
  split
  · split <;> rfl
  · rfl
  · rfl
  next low high =>
    -- the neighbours of the centre lie further apart than they do
    have high := outside (d + 1) high (start.trans_le right)
    have low : (d : ℚ) * 10 ^ power ≤ i.lower * 2 ^ i.exponent := by
      by_contra inside
      exact absurd (outside d low (not_le.1 inside)) (not_le.2 (lt_of_le_of_lt left stop))
    push_cast at high
    linarith

/-- The seventeen digits of the last grid suffice. -/
theorem isSome_multiple?_of_leadingPower (canonical : Canonical m q) :
    ((Interval.ofDyadic m q).multiple? (leadingPower m q - 16)).isSome = true := by
  have positive := canonical.positive
  have unit : (0 : ℚ) < 2 ^ (q - 2) := by positivity
  have size : (10 : ℚ) ^ (leadingPower m q - 16) ≤ 4 * m / 10 ^ 16 * 2 ^ (q - 2) := by
    have power := leadingPower_le positive q
    have quarter : (2 : ℚ) ^ q = 4 * 2 ^ (q - 2) := by
      rw [zpow_sub₀ two_ne_zero]
      ring
    rw [zpow_sub₀ (by norm_num)]
    calc (10 : ℚ) ^ leadingPower m q / 10 ^ (16 : ℤ) ≤ m * 2 ^ q / 10 ^ (16 : ℤ) := by gcongr
      _ = 4 * m / 10 ^ 16 * 2 ^ (q - 2) := by rw [quarter]; ring
  -- the interval is four units long, and three at a power of two, which is half as large
  have length : 4 * (m : ℚ) / 10 ^ 16 <
      (Interval.ofDyadic m q).upper - (Interval.ofDyadic m q).lower := by
    have short : (m : ℚ) < 9007199254740992 := by exact_mod_cast canonical.bounded
    have upper : ((Interval.ofDyadic m q).upper : ℚ) = 4 * m + 2 := by simp [Interval.ofDyadic]
    rw [upper, div_lt_iff₀ (by positivity)]
    simp only [Interval.ofDyadic]
    split
    next power =>
      have exact : (m : ℚ) = 2 ^ 52 := by exact_mod_cast power.1
      rw [Nat.cast_sub (by omega)]
      push_cast
      rw [exact]
      norm_num
    next =>
      rw [Nat.cast_sub (by omega)]
      push_cast
      linarith
  refine Interval.isSome_multiple? ?_ (Nat.lt_add_of_pos_right (by decide))
    (lt_of_le_of_lt size (mul_lt_mul_of_pos_right length unit))
  simp only [Interval.ofDyadic]
  split <;> omega

/-- The shortest numeral of a double lies in its interval. -/
theorem shortest_contains (canonical : Canonical m q) :
    (Interval.ofDyadic m q).Contains (shortest m q).value := by
  simp only [shortest]
  split
  next x found =>
    rw [strip_value]
    -- whichever grid it comes from, and without its trailing zeros
    obtain ⟨n, _, hit⟩ := List.exists_of_findSome?_eq_some found
    obtain ⟨d, multiple, rfl⟩ := Option.map_eq_some_iff.1 hit
    exact Interval.contains_of_multiple? multiple
  next missing =>
    have last := List.findSome?_eq_none_iff.1 missing 16 (by decide)
    have some := isSome_multiple?_of_leadingPower canonical
    rw [Option.map_eq_none_iff] at last
    change (Interval.ofDyadic m q).multiple? (leadingPower m q - 16) = none at last
    rw [last] at some
    cases some

end RegionNet.Decimal
