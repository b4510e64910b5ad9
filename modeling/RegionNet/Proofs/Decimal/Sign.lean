import RegionNet.Proofs.Decimal.Nearest

/-!
# Numbers without a sign

Rounding keeps the sign, and so a product of numbers that are not below zero is not below zero
either; it is a number unless one of them is infinite and the other is zero. What is read as the
double nearest to a decimal number without a sign is hence neither negative nor undefined.
-/

namespace RegionNet.Decimal

open Float.Model (Format)
open Float.Model.UnpackedFloat

/-- A number that is not below zero; it may be infinite. -/
inductive Unsigned : Float.Model.UnpackedFloat → Prop
  | infinity : Unsigned (.infinity .positive)
  | zero : Unsigned (.zero .positive)
  | finite (m : ℕ) (q : ℤ) (positive : 0 < m) : Unsigned (.finite .positive m q positive)

theorem unsigned_roundWithAccuracy (m : ℕ) (q : ℤ) (accuracy : Accuracy) :
    Unsigned (roundWithAccuracy .binary64 .positive m q accuracy) := by
  simp only [roundWithAccuracy]
  split
  next => exact .zero
  next => exact .finite _ _ _

section Operations

variable {x : Float.Model.UnpackedFloat} {m : ℕ} {q : ℤ} {positive : 0 < m}

theorem Unsigned.mul (unsigned : Unsigned x) :
    Unsigned (Float.Model.UnpackedFloat.mul .binary64 x (.finite .positive m q positive)) := by
  cases unsigned with
  | infinity => exact .infinity
  | zero => exact .zero
  | finite => exact unsigned_roundWithAccuracy _ _ _

theorem Unsigned.div (unsigned : Unsigned x) :
    Unsigned (Float.Model.UnpackedFloat.div .binary64 x (.finite .positive m q positive)) := by
  cases unsigned with
  | infinity => exact .infinity
  | zero => exact .zero
  | finite => exact unsigned_roundWithAccuracy _ _ _

theorem unsigned_ofScientific (d : ℕ) (e : ℤ) : Unsigned (ofScientific .binary64 d e) := by
  rw [ofScientific]
  split
  next => exact .zero
  next =>
    split_ifs
    · exact .infinity
    · exact .zero
    · exact (Unsigned.finite _ _ _).mul
    · exact (Unsigned.finite _ _ _).div

end Operations

/-! ### Bits -/

theorem unsigned_unpack_packComponents (exponent : BitVec 11) (mantissa : BitVec 52)
    (number : exponent = -1#11 → mantissa = 0#52) :
    Unsigned (unpack .binary64 (packComponents .binary64 .positive exponent mantissa)) := by
  simp only [unpack, unpackMantissa_packComponents, unpackExponent_packComponents,
    unpackSign_packComponents, ofBitVec_toBitVec]
  split
  next last =>
    rw [if_pos (number last)]
    exact .infinity
  next =>
    split
    next =>
      split
      next => exact .zero
      next => exact .finite _ _ _
    next => exact .finite _ _ _

/-- The bits of a number that is not below zero are those of such a number again. -/
theorem unsigned_unpack_pack {x : Float.Model.UnpackedFloat} (unsigned : Unsigned x) :
    Unsigned (unpack .binary64 (pack .binary64 x)) := by
  cases unsigned with
  | infinity => exact unsigned_unpack_packComponents _ _ fun _ => rfl
  | zero => exact unsigned_unpack_packComponents _ _ fun _ => rfl
  | finite m q =>
    simp only [pack]
    split_ifs with large full
    · exact unsigned_unpack_packComponents _ _ fun _ => rfl
    · -- the exponent does not reach the one of the undefined numbers
      refine unsigned_unpack_packComponents _ _ fun last => ?_
      rw [← BitVec.toNat_inj, BitVec.toNat_ofNat] at last
      have most : (-1#11).toNat = 2047 := rfl
      rw [most] at last
      omega
    · exact unsigned_unpack_packComponents _ _ fun last => absurd last (by decide)

/-- The double is a number and not below zero. -/
def IsUnsigned (x : Float) : Prop := Unsigned x.toModel.unpack

namespace IsUnsigned

variable {x : Float}

theorem zero_le (unsigned : IsUnsigned x) : 0.0 ≤ x := by
  have zero : (0.0 : Float).toModel.unpack = .zero .positive := rfl
  change decide ((0.0 : Float).toModel.unpack.le x.toModel.unpack = true) = true
  rw [zero]
  rw [IsUnsigned] at unsigned
  generalize x.toModel.unpack = unpacked at *
  cases unsigned <;> rfl

theorem isNaN (unsigned : IsUnsigned x) : x.isNaN = false := by
  change x.toModel.unpack.isNaN = false
  rw [IsUnsigned] at unsigned
  generalize x.toModel.unpack = unpacked at *
  cases unsigned <;> rfl

variable {y : Float} {m : ℕ} {q : ℤ} {positive : 0 < m}

theorem mul (unsigned : IsUnsigned x)
    (finite : y.toModel.unpack = .finite .positive m q positive) : IsUnsigned (x * y) := by
  change Unsigned (unpack .binary64 (pack .binary64
    (Float.Model.UnpackedFloat.mul .binary64 x.toModel.unpack y.toModel.unpack)))
  rw [finite]
  exact unsigned_unpack_pack (Unsigned.mul unsigned)

theorem div (unsigned : IsUnsigned x)
    (finite : y.toModel.unpack = .finite .positive m q positive) : IsUnsigned (x / y) := by
  change Unsigned (unpack .binary64 (pack .binary64
    (Float.Model.UnpackedFloat.div .binary64 x.toModel.unpack y.toModel.unpack)))
  rw [finite]
  exact unsigned_unpack_pack (Unsigned.div unsigned)

end IsUnsigned

theorem Normal.unpack {x : Float} {v : ℚ} (normal : Normal x v) :
    ∃ m q positive, x.toModel.unpack = .finite .positive m q positive := by
  obtain ⟨m, q, canonical, -, -, rfl⟩ := normal
  exact ⟨m, q, canonical.positive, unpack_double .positive canonical⟩

/-- A decimal number without a sign is read as a number that is not below zero. -/
theorem isUnsigned_nearest (d : ℕ) (e : ℤ) : IsUnsigned (nearest d e) := by
  have least : IsUnsigned 0.0 := .zero
  simp only [nearest]
  split_ifs with none large small
  · exact least
  · exact .infinity
  · exact least
  · rw [Float.ofScientific]
    split
    next few =>
      obtain ⟨m, q, positive, whole⟩ := (normal_toFloat (Nat.pos_of_ne_zero none) few.1).unpack
      obtain ⟨m', q', positive', power⟩ := (normal_power e.natAbs (Nat.lt_succ_of_le few.2)).unpack
      have unsigned : IsUnsigned d.toUInt64.toFloat := by
        rw [IsUnsigned, whole]
        exact .finite m q positive
      split
      next => exact unsigned.div power
      next => exact unsigned.mul power
    next => exact unsigned_unpack_pack (unsigned_ofScientific d _)

end RegionNet.Decimal
