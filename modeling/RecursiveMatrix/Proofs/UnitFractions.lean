import Mathlib
import RecursiveMatrix.Random.Replay
import RecursiveMatrix.Random.Seeded

/-!
# Fractions as floating-point numbers

A fraction `k / 2^53` is put together from its bits, and no arithmetic is done on floating-point
numbers. This file says which number the bits stand for (`rational?`): it is `k / 2^53` exactly, for
every `k` below `2^53`, and it lies in `[0, 1)`.

The bits of a number are an exponent field and a fraction field, and the leading bit of the
mantissa is not among them. If the mantissa is written over both fields together with its leading
bit, that bit adds one to the exponent field (`unpack_of_toNat_eq`). A mantissa that is
scaled to 53 bits is therefore all that is needed (`scaled_bounds`).
-/

namespace RecursiveMatrix

-- Powers are those of `Nat.pow`, whatever other instances are in scope.
attribute [local instance (high)] instPowNat

open Float.Model UnpackedFloat

/-- The rational number that a floating-point number is, unless it is infinite or no number. -/
def rational? (x : Float) : Option ℚ :=
  match x.toModel.unpack with
  | .zero _ => some 0
  | .finite sign mantissa exponent _ => some (sign.apply mantissa * 2 ^ exponent)
  | .infinity _ | .notANumber => none

/-! ## Fields -/

section Fields

variable (b : BitVec Format.binary64.numBits)

theorem toNat_unpackMantissa : (unpackMantissa b).toNat = b.toNat % 2 ^ 52 := by
  rw [unpackMantissa, BitVec.toNat_cast, BitVec.extractLsb_toNat]
  rfl

theorem toNat_unpackExponent : (unpackExponent b).toNat = b.toNat / 2 ^ 52 % 2 ^ 11 := by
  rw [unpackExponent, BitVec.toNat_cast, BitVec.extractLsb_toNat, Nat.shiftRight_eq_div_pow]
  rfl

theorem toNat_unpackSign : (unpackSign b).toNat = b.toNat / 2 ^ 63 % 2 := by
  rw [unpackSign, BitVec.toNat_cast, BitVec.extractLsb_toNat, Nat.shiftRight_eq_div_pow]
  rfl

end Fields

/-- The leading bit of the mantissa carries into the exponent field. -/
theorem unpack_of_toNat_eq {b : BitVec Format.binary64.numBits} {e m : ℕ}
    (hb : b.toNat = e * 2 ^ 52 + m) (hlow : 2 ^ 52 ≤ m) (hhigh : m < 2 ^ 53)
    (he : e < 2 ^ 11 - 2) :
    isNaNBits b = false
      ∧ ∃ hpos, UnpackedFloat.unpack Format.binary64 b = .finite .positive m (e - 1074) hpos := by
  obtain ⟨f, rfl⟩ := Nat.exists_eq_add_of_le hlow
  have hmantissa : (unpackMantissa b).toNat = f := by
    rw [toNat_unpackMantissa, hb]
    omega
  have hexponent : (unpackExponent b).toNat = e + 1 := by
    rw [toNat_unpackExponent, hb]
    omega
  have hsign : unpackSign b = 0#1 := by
    apply BitVec.eq_of_toNat_eq
    rw [toNat_unpackSign, hb, BitVec.toNat_ofNat]
    omega
  have hones : unpackExponent b ≠ -1#_ := by
    intro h
    rw [h] at hexponent
    exact absurd hexponent (Nat.succ_lt_succ he).ne'
  have hzero : unpackExponent b ≠ 0#_ := by
    intro h
    rw [h] at hexponent
    exact absurd hexponent (Nat.succ_ne_zero e).symm
  have hnormal : (1#1 ++ unpackMantissa b).toNat = 2 ^ 52 + f := by
    rw [BitVec.toNat_append, hmantissa, ← Nat.shiftLeft_add_eq_or_of_lt (by omega)]
    rfl
  have hbias : ((e + 1 : ℕ) : ℤ) - (Format.binary64.exponentBias + (52 : ℕ)) = e - 1074 := by
    have hbias : Format.binary64.exponentBias = 1023 := rfl
    omega
  refine ⟨decide_eq_false fun h ↦ hones h.1, by omega, ?_⟩
  rw [UnpackedFloat.unpack]
  simp only [hones, hzero, if_false, hsign, hexponent, hnormal, hbias]
  rfl

theorem unpack_ofBits {b : UInt64} (h : @isNaNBits Format.binary64 b.toBitVec = false) :
    (Float.ofBits b).toModel.unpack = UnpackedFloat.unpack Format.binary64 b.toBitVec := by
  have hpack := @pack_unpack Format.binary64 b.toBitVec
  rw [if_neg (Bool.not_eq_true _ ▸ h)] at hpack
  exact congrArg (UnpackedFloat.unpack Format.binary64) (hpack (by decide))

/-! ## The fraction -/

/-- A number is scaled to 53 bits by its length. -/
theorem scaled_bounds {n : ℕ} (h : n ≠ 0) (hn : n < 2 ^ 53) :
    n.log2 ≤ 52 ∧ 2 ^ 52 ≤ n * 2 ^ (52 - n.log2) ∧ n * 2 ^ (52 - n.log2) < 2 ^ 53 := by
  have hlog : n.log2 ≤ 52 := Nat.le_of_lt_succ ((Nat.log2_lt h).mpr hn)
  have hlow : 2 ^ n.log2 * 2 ^ (52 - n.log2) = 2 ^ 52 := by
    rw [← Nat.pow_add, Nat.add_sub_cancel' hlog]
  have hhigh : 2 ^ (n.log2 + 1) * 2 ^ (52 - n.log2) = 2 ^ 53 := by
    rw [Nat.pow_succ, Nat.mul_right_comm, hlow]
    rfl
  refine ⟨hlog, ?_, ?_⟩
  · rw [← hlow]
    exact Nat.mul_le_mul_right _ (Nat.log2_self_le h)
  · rw [← hhigh]
    exact Nat.mul_lt_mul_of_pos_right Nat.lt_log2_self (Nat.two_pow_pos _)

variable {k : UInt64}

theorem toNat_fractionBits (h : k.toNat ≠ 0) (hk : k.toNat < 2 ^ 53) :
    (((k.log2 + 969) <<< 52) + (k <<< (52 - k.log2))).toNat
      = (k.toNat.log2 + 969) * 2 ^ 52 + k.toNat * 2 ^ (52 - k.toNat.log2) := by
  obtain ⟨hlog, -, hhigh⟩ := scaled_bounds h hk
  have htoNat : k.log2.toNat = k.toNat.log2 := rfl
  have hexponent : (k.log2 + 969).toNat = k.toNat.log2 + 969 := by
    have hconst : (969 : UInt64).toNat = 969 := rfl
    rw [UInt64.toNat_add, htoNat, hconst]
    exact Nat.mod_eq_of_lt (by omega)
  have hshift : (52 - k.log2).toNat = 52 - k.toNat.log2 := by
    have hle : k.log2 ≤ 52 := UInt64.le_iff_toNat_le.mpr (htoNat.trans_le hlog)
    rw [UInt64.toNat_sub_of_le _ _ hle, htoNat]
    rfl
  have hfield : (52 : UInt64).toNat % 64 = 52 := rfl
  rw [UInt64.toNat_add, UInt64.toNat_shiftLeft, UInt64.toNat_shiftLeft, hexponent, hshift, hfield,
    Nat.mod_eq_of_lt (by omega : 52 - k.toNat.log2 < 64), Nat.shiftLeft_eq, Nat.shiftLeft_eq]
  omega

/-- A fraction has a mantissa of 53 bits, and it has no more than these after the point. -/
theorem unpack_unitFraction (h : k.toNat ≠ 0) (hk : k.toNat < 2 ^ 53) :
    ∃ hpos, (unitFraction k).toModel.unpack = .finite .positive
      (k.toNat * 2 ^ (52 - k.toNat.log2)) ((k.toNat.log2 + 969 : ℕ) - 1074) hpos := by
  obtain ⟨hlog, hlow, hhigh⟩ := scaled_bounds h hk
  rw [unitFraction, if_neg (mt (congrArg UInt64.toNat) h)]
  obtain ⟨hnumber, hunpack⟩ := unpack_of_toNat_eq (toNat_fractionBits h hk) hlow hhigh (by omega)
  rw [unpack_ofBits hnumber]
  exact hunpack

theorem unpack_unitFraction_zero : (unitFraction 0).toModel.unpack = .zero .positive := rfl

/-- **Nothing is rounded.** -/
theorem rational?_unitFraction (hk : k.toNat < 2 ^ 53) :
    rational? (unitFraction k) = some ((k.toNat : ℚ) / 2 ^ 53) := by
  by_cases h : k.toNat = 0
  · obtain rfl : k = 0 := UInt64.toNat_inj.mp h
    rw [rational?, unpack_unitFraction_zero]
    simp
  · obtain ⟨hlog, -, -⟩ := scaled_bounds h hk
    obtain ⟨hpos, hunpack⟩ := unpack_unitFraction h hk
    have hexponent : ((52 - k.toNat.log2 : ℕ) : ℤ) + ((k.toNat.log2 + 969 : ℕ) - 1074)
        = -(53 : ℕ) := by omega
    have hvalue : ((k.toNat * 2 ^ (52 - k.toNat.log2) : ℕ) : ℚ)
        * 2 ^ (((k.toNat.log2 + 969 : ℕ) : ℤ) - 1074) = k.toNat / 2 ^ 53 := by
      rw [Nat.cast_mul, Nat.cast_pow, Nat.cast_ofNat, mul_assoc, ← zpow_natCast,
        ← zpow_add₀ two_ne_zero, hexponent, zpow_neg, zpow_natCast, div_eq_mul_inv]
    rw [rational?, hunpack, ← hvalue]
    rfl

/-- A number whose mantissa of 53 bits ends further behind the point than that of one is below
one. -/
theorem inUnit_of_unpack {x : Float} {m : ℕ} {e : ℤ} {hpos : 0 < m}
    (h : x.toModel.unpack = .finite .positive m e hpos) (he : e < -52) : inUnit x = true := by
  have hzero : (0 : Float).toModel.unpack = .zero .positive := rfl
  have hone : (1 : Float).toModel.unpack = .finite .positive (2 ^ 52) (-52) (by decide) := rfl
  have hle : (0 : Float) ≤ x := by
    change decide ((0 : Float).toModel.unpack.le x.toModel.unpack) = true
    rw [hzero, h]
    rfl
  have hlt : x < 1 := by
    change decide (x.toModel.unpack.lt (1 : Float).toModel.unpack) = true
    rw [hone, h]
    simp [UnpackedFloat.lt, UnpackedFloat.compare, compare_lt_iff_lt.mpr he]
  rw [inUnit, decide_eq_true hle, decide_eq_true hlt]
  rfl

theorem inUnit_unitFraction (hk : k.toNat < 2 ^ 53) : inUnit (unitFraction k) = true := by
  by_cases h : k.toNat = 0
  · obtain rfl : k = 0 := UInt64.toNat_inj.mp h
    decide
  · obtain ⟨hlog, -, -⟩ := scaled_bounds h hk
    obtain ⟨hpos, hunpack⟩ := unpack_unitFraction h hk
    exact inUnit_of_unpack hunpack (by omega)

end RecursiveMatrix
