import Mathlib
import RegionNet.Resource.Manager

/-!
# How many containers an amount allows

An amount is a double, and a finite double stands for a rational. As many containers are allowed as
are whole of it, and none if it is negative. The limit of a manager is a word; it is what the amount
allows as long as that is less than the largest word.
-/

namespace RegionNet

open Float.Model.UnpackedFloat

/-- The containers that an amount allows: the floor of the rational that it stands for, or zero
where that is negative. An infinite amount sets no bound. -/
def allowance (amount : Float) : ℕ∞ :=
  match amount.toModel.unpack with
  | .finite sign mantissa exponent _ => ⌊(sign.apply mantissa : ℚ) * 2 ^ exponent⌋₊
  | .infinity .positive => ⊤
  | _ => 0

/-! ### Truncation -/

/-- Shifting a mantissa to the right drops its last bits. -/
theorem mantissa_shiftRight (extended : ExtendedMantissa) (bits : Nat) :
    (extended >>> bits).mantissa = extended.mantissa / 2 ^ bits := by
  change (bits.repeat ExtendedMantissa.shiftRightOne extended).mantissa = _
  induction bits with
  | zero => simp [Nat.repeat]
  | succ bits ih =>
    rw [Nat.repeat, ExtendedMantissa.shiftRightOne, ih, Nat.div_div_eq_div_mul, pow_succ]

/-- A mantissa scaled by its exponent: upwards it stays whole, downwards the bits behind the point
are dropped. -/
theorem roundToInt_eq (sign : Sign) (mantissa : Nat) (exponent : Int) :
    roundToInt sign mantissa exponent =
      sign.apply (mantissa * 2 ^ exponent.toNat / 2 ^ (-exponent).toNat : Nat) := by
  simp only [roundToInt, decreaseExponent, shiftToExponent, mantissa_shiftRight,
    ExtendedMantissa.ofMantissaAndAccuracy, Nat.shiftLeft_eq, sub_zero, zero_sub]
  -- what is left to shift down after shifting up is what the exponent lies below zero
  have below : (-(exponent - exponent.toNat)).toNat = (-exponent).toNat := by omega
  rw [below]

theorem floor_scaled (mantissa : Nat) (exponent : Int) :
    ⌊(mantissa : ℚ) * 2 ^ exponent⌋₊ =
      mantissa * 2 ^ exponent.toNat / 2 ^ (-exponent).toNat := by
  have split : (2 : ℚ) ^ exponent = 2 ^ exponent.toNat / 2 ^ (-exponent).toNat := by
    rw [← zpow_natCast, ← zpow_natCast, ← zpow_sub₀ two_ne_zero]
    congr 1
    omega
  rw [split, ← mul_div_assoc]
  exact_mod_cast Nat.floor_div_eq_div (K := ℚ) (mantissa * 2 ^ exponent.toNat)
    (2 ^ (-exponent).toNat)

/-- What is whole of a double and not negative is the floor of the rational that it stands for. -/
theorem toNat_roundToInt (sign : Sign) (mantissa : Nat) (exponent : Int) :
    (roundToInt sign mantissa exponent).toNat =
      ⌊(sign.apply mantissa : ℚ) * 2 ^ exponent⌋₊ := by
  rw [roundToInt_eq]
  cases sign with
  | positive => exact (floor_scaled mantissa exponent).symm
  | negative =>
    have nonpositive : ((Sign.negative.apply mantissa : ℤ) : ℚ) * 2 ^ exponent ≤ 0 :=
      mul_nonpos_of_nonpos_of_nonneg (by simp [Sign.apply]) (zpow_nonneg zero_le_two exponent)
    rw [Nat.floor_of_nonpos nonpositive]
    exact Int.toNat_neg_natCast _

theorem toNat_ofNatClamp (n : Nat) : (UInt64.ofNatClamp n).toNat = min n (UInt64.size - 1) := by
  rw [UInt64.ofNatClamp]
  split
  next fits => exact (min_eq_left (Nat.le_sub_one_of_lt fits)).symm
  next large => exact (min_eq_right (Nat.sub_le_of_le_add (by omega))).symm

/-- The limit of a manager is what its amount allows, up to the largest word. -/
theorem containerLimit_eq (amount : Float) :
    (containerLimit amount : ℕ∞) = min (allowance amount) (UInt64.size - 1 : ℕ) := by
  change ((amount.toModel.unpack.toUInt64.toNat : ℕ) : ℕ∞) = _
  rw [allowance, Float.Model.UnpackedFloat.toUInt64, toNat_ofNatClamp]
  cases amount.toModel.unpack with
  | finite sign mantissa exponent positive =>
    rw [toInt, toNat_roundToInt]
    rfl
  | infinity sign => cases sign <;> simp [toInt]
  | notANumber => simp [toInt]
  | zero sign => simp [toInt]

end RegionNet
