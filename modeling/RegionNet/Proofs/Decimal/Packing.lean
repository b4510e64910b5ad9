import Mathlib
import RegionNet.Decimal.Shortest

/-!
# The bits of a double

A finite double other than zero is a mantissa and an exponent within bounds. Packing them into bits
and unpacking them again loses nothing, and `parts` reads them off the bits.
-/

namespace RegionNet.Decimal

open Float.Model (Format)
open Float.Model.UnpackedFloat

/-- The mantissas and exponents of finite doubles other than zero. -/
structure Canonical (m : ℕ) (q : ℤ) : Prop where
  positive : 0 < m
  bounded : m < 2 ^ 53
  least : -1074 ≤ q
  most : q ≤ 971
  full : 2 ^ 52 ≤ m ∨ q = -1074

variable {m : ℕ} {q : ℤ}

theorem unpackSign_packComponents {spec : Format} (sign : Sign)
    (exponent : BitVec spec.exponentBits) (mantissa : BitVec spec.mantissaBitsWithoutImplicit) :
    unpackSign (packComponents spec sign exponent mantissa) = sign.toBitVec := by
  ext i hi
  obtain rfl : i = 0 := by omega
  simp [unpackSign, packComponents, BitVec.getLsbD_append, BitVec.getElem_append]

theorem ofBitVec_toBitVec (sign : Sign) : Sign.ofBitVec sign.toBitVec = sign := by
  cases sign <;> rfl

section

variable (b : BitVec Format.binary64.numBits)

theorem toNat_unpackMantissa : (unpackMantissa b).toNat = b.toNat % 2 ^ 52 := by
  simp [unpackMantissa, BitVec.extractLsb_toNat]

theorem toNat_unpackExponent : (unpackExponent b).toNat = b.toNat / 2 ^ 52 % 2 ^ 11 := by
  simp [unpackExponent, BitVec.extractLsb_toNat, Nat.shiftRight_eq_div_pow]

theorem toNat_unpackSign : (unpackSign b).toNat = b.toNat / 2 ^ 63 := by
  have bits : b.toNat < 2 ^ 64 := b.isLt
  simp only [unpackSign, BitVec.toNat_cast, BitVec.extractLsb_toNat, Nat.shiftRight_eq_div_pow]
  norm_num
  omega

end

theorem toNat_one_append (b : BitVec 52) : (1#1 ++ b).toNat = 2 ^ 52 + b.toNat := by
  rw [BitVec.toNat_append, ← Nat.shiftLeft_add_eq_or_of_lt b.isLt]
  rfl

/-- The bits of a double from a power of two with a full mantissa on. -/
theorem pack_of_full (canonical : Canonical m q) (sign : Sign) (full : 2 ^ 52 ≤ m) :
    pack .binary64 (.finite sign m q canonical.positive) =
      packComponents .binary64 sign (.ofNat 11 (q + 1075).toNat) (.ofNat 52 m) := by
  have biased : (q + Format.binary64.exponentBias + (52 : ℕ)).toNat = (q + 1075).toNat := by
    simp [Format.exponentBias]
    omega
  have log : m.log2 = 52 :=
    (Nat.log2_eq_iff canonical.positive.ne').2 ⟨full, canonical.bounded⟩
  have room : ¬ 2 ^ 11 ≤ (q + 1075).toNat + 1 := by
    have := canonical.most
    omega
  simp only [pack, biased, log]
  rw [if_neg room, if_pos (show 52 + 1 = Format.binary64.mantissaBits from rfl)]

/-- The bits of a double without a full mantissa. -/
theorem pack_of_least (canonical : Canonical m (-1074)) (sign : Sign) (short : m < 2 ^ 52) :
    pack .binary64 (.finite sign m (-1074) canonical.positive) =
      packComponents .binary64 sign 0 (.ofNat 52 m) := by
  have log : m.log2 < 52 := (Nat.log2_lt canonical.positive.ne').2 short
  simp only [pack]
  rw [if_neg (by decide), if_neg]
  · rfl
  · simp only [Format.mantissaBits]
    omega

/-- Packing a double and unpacking it again. -/
theorem unpack_pack (canonical : Canonical m q) (sign : Sign) :
    unpack .binary64 (pack .binary64 (.finite sign m q canonical.positive)) =
      .finite sign m q canonical.positive := by
  have bounded := canonical.bounded
  by_cases full : 2 ^ 52 ≤ m
  · have room : (BitVec.ofNat 11 (q + 1075).toNat).toNat = (q + 1075).toNat := by
      have := canonical.most
      simp only [BitVec.toNat_ofNat]
      omega
    -- the biased exponent is neither of the two that stand for something else
    have low : ¬ BitVec.ofNat 11 (q + 1075).toNat = 0#11 := by
      rw [← BitVec.toNat_inj, room]
      have := canonical.least
      simp
      omega
    have high : ¬ BitVec.ofNat 11 (q + 1075).toNat = -1#11 := by
      rw [← BitVec.toNat_inj, room]
      have := canonical.most
      simp
      omega
    have whole : (1#1 ++ BitVec.ofNat 52 m).toNat = m := by
      rw [toNat_one_append, BitVec.toNat_ofNat]
      omega
    rw [pack_of_full canonical sign full]
    simp only [unpack, unpackMantissa_packComponents, unpackExponent_packComponents,
      unpackSign_packComponents, ofBitVec_toBitVec, room, whole]
    rw [if_neg high, if_neg low]
    congr 1
    simp [Format.exponentBias]
    have := canonical.least
    omega
  · -- without its leading bit a mantissa has the least exponent, whose field is zero
    obtain rfl := canonical.full.resolve_left full
    have short : m < 2 ^ 52 := by omega
    have held : (BitVec.ofNat 52 m).toNat = m := by
      simp only [BitVec.toNat_ofNat]
      omega
    have positive : ¬ BitVec.ofNat 52 m = 0#52 := by
      rw [← BitVec.toNat_inj, held]
      exact canonical.positive.ne'
    rw [pack_of_least canonical sign short]
    simp only [unpack, unpackMantissa_packComponents, unpackExponent_packComponents,
      unpackSign_packComponents, ofBitVec_toBitVec, held]
    rw [if_neg (by decide), if_pos (show (0 : BitVec 11) = 0#11 from rfl), dif_neg positive]
    rfl

/-- What a double is unpacked to, by its fields. -/
inductive Unpacked (field fraction : ℕ) (sign : Sign) : Float.Model.UnpackedFloat → Prop
  | infinity (last : field = 2047) (empty : fraction = 0) :
      Unpacked field fraction sign (.infinity sign)
  | notANumber (last : field = 2047) (filled : fraction ≠ 0) :
      Unpacked field fraction sign .notANumber
  | zero (first : field = 0) (empty : fraction = 0) : Unpacked field fraction sign (.zero sign)
  | least (first : field = 0) (positive : 0 < fraction) :
      Unpacked field fraction sign (.finite sign fraction (-1074) positive)
  | full (inner : 0 < field ∧ field < 2047) (positive : 0 < 2 ^ 52 + fraction) :
      Unpacked field fraction sign (.finite sign (2 ^ 52 + fraction) (field - 1075) positive)

theorem unpacked (b : BitVec Format.binary64.numBits) :
    Unpacked (b.toNat / 2 ^ 52 % 2 ^ 11) (b.toNat % 2 ^ 52) (.ofBitVec (unpackSign b))
      (unpack .binary64 b) := by
  rw [← toNat_unpackMantissa, ← toNat_unpackExponent]
  have empty_iff : unpackMantissa b = 0#52 ↔ (unpackMantissa b).toNat = 0 := by
    rw [← BitVec.toNat_inj]
    rfl
  have first_iff : unpackExponent b = 0#11 ↔ (unpackExponent b).toNat = 0 := by
    rw [← BitVec.toNat_inj]
    rfl
  have last_iff : unpackExponent b = -1#11 ↔ (unpackExponent b).toNat = 2047 := by
    rw [← BitVec.toNat_inj]
    rfl
  have within : (unpackExponent b).toNat < 2 ^ 11 := (unpackExponent b).isLt
  simp only [unpack]
  split
  next last =>
    split
    next empty => exact .infinity (last_iff.1 last) (empty_iff.1 empty)
    next filled => exact .notANumber (last_iff.1 last) (mt empty_iff.2 filled)
  next inner =>
    have inner := mt last_iff.2 inner
    split
    next first =>
      have first := first_iff.1 first
      split
      next empty => exact .zero first (empty_iff.1 empty)
      next filled =>
        have low : ((unpackExponent b).toNat : ℤ) - (Format.binary64.exponentBias + (52 : ℕ)) + 1 =
            -1074 := by
          rw [first]
          rfl
        simp only [low]
        exact .least first (Nat.pos_of_ne_zero (mt empty_iff.2 filled))
    next filled =>
      have filled := mt first_iff.2 filled
      have bias : (Format.binary64.exponentBias : ℤ) + (52 : ℕ) = 1075 := rfl
      have whole := toNat_one_append (unpackMantissa b)
      simp only [bias, whole]
      exact .full (by omega) (by omega)

/-- The mantissa and exponent that a double is unpacked to. -/
theorem canonical_of_unpack {x : Float.Model} {sign : Sign} {positive : 0 < m}
    (finite : x.unpack = .finite sign m q positive) : Canonical m q := by
  have unpacked := unpacked x.toBits.toBitVec
  change Unpacked _ _ _ x.unpack at unpacked
  rw [finite] at unpacked
  cases unpacked with
  | least first => exact ⟨positive, by omega, by omega, by omega, .inr rfl⟩
  | full inner => exact ⟨positive, by omega, by omega, by omega, .inl (by omega)⟩

theorem isNegative_unpackSign (b : BitVec Format.binary64.numBits) :
    (Sign.ofBitVec (unpackSign b) == .negative) = (b.toNat / 2 ^ 63 == 1) := by
  have bits : b.toNat < 2 ^ 64 := b.isLt
  rw [← toNat_unpackSign, Sign.ofBitVec]
  split
  next positive => rw [positive]; rfl
  next negative =>
    have odd : (unpackSign b).toNat = 1 := by
      have least : (unpackSign b).toNat ≠ 0 := by
        rw [← BitVec.toNat_inj] at negative
        exact negative
      have most : (unpackSign b).toNat < 2 := (unpackSign b).isLt
      omega
    rw [odd]
    rfl

/-- What the bits of a double say. -/
theorem parts_eq (x : Float) : parts x =
    match x.toModel.unpack with
    | .notANumber => .notANumber
    | .infinity sign => .infinite (sign == .negative)
    | .zero sign => .finite (sign == .negative) 0 (-1074)
    | .finite sign m q _ => .finite (sign == .negative) m q := by
  have unpacked := unpacked x.toModel.toBits.toBitVec
  have negative := isNegative_unpackSign x.toModel.toBits.toBitVec
  change Unpacked (x.toBits.toNat / hiddenBit % Nat.pow 2 11) (x.toBits.toNat % hiddenBit) _
    x.toModel.unpack at unpacked
  change _ = (x.toBits.toNat / Nat.pow 2 63 == 1) at negative
  simp only [parts, ← negative]
  -- `parts` tests the fields in the order of the cases of `Unpacked`
  generalize x.toModel.unpack = float at unpacked ⊢
  cases unpacked with
  | infinity last empty => rw [if_pos last, if_pos empty]
  | notANumber last filled => rw [if_pos last, if_neg filled]
  | zero first empty => rw [if_neg (by omega), if_pos first, empty]
  | least first => rw [if_neg (by omega), if_pos first]
  | full inner =>
    rw [if_neg (by omega), if_neg (by omega)]
    rfl

/-! ### The double of a mantissa and an exponent -/

/-- The double that stands for `m * 2 ^ q` or for its opposite. -/
def double (sign : Sign) (canonical : Canonical m q) : Float :=
  .ofModel (.pack (.finite sign m q canonical.positive))

theorem unpack_double (sign : Sign) (canonical : Canonical m q) :
    (double sign canonical).toModel.unpack = .finite sign m q canonical.positive :=
  unpack_pack canonical sign

theorem double_of_unpack {x : Float} {sign : Sign} {positive : 0 < m}
    (finite : x.toModel.unpack = .finite sign m q positive) :
    double sign (canonical_of_unpack finite) = x := by
  rw [double, ← finite]
  exact Float.ofBits_toBits x

theorem neg_double (sign : Sign) (canonical : Canonical m q) :
    -double sign canonical = double (-sign) canonical := by
  change Float.ofModel (.pack (double sign canonical).toModel.unpack.neg) = _
  rw [unpack_double]
  rfl

end RegionNet.Decimal
