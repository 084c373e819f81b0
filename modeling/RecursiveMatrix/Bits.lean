/-!
# Bits of words

A word has a single bit set exactly if it is a power of two, and the zeros below that bit are the
exponent (`onesCount_eq_one_iff`, `toNat_trailingZeros`). So both questions, whether a word can be
halved down to one and how often, are answered by counting bits.

Bits are counted one position after another. Along the count a single bit set means that there is
one position with a bit and no other, which is what the induction carries
(`cpopNatRec_eq_one_iff`).
-/

namespace RecursiveMatrix

-- Powers are those of `Nat.pow`, whatever other instances are in scope.
attribute [local instance (high)] instPowNat

section Bits

variable {w n k : Nat} {x : BitVec w}

theorem cpopNatRec_eq_zero_iff :
    x.cpopNatRec n 0 = 0 ↔ ∀ i, i < n → x.getLsbD i = false := by
  induction n with
  | zero => exact iff_of_true rfl fun i hi ↦ absurd hi (Nat.not_lt_zero i)
  | succ n ih =>
    rw [BitVec.cpopNatRec_succ, BitVec.cpopNatRec_add, Nat.add_eq_zero_iff, ih,
      Bool.toNat_eq_zero]
    simp only [Nat.lt_succ_iff_lt_or_eq, or_imp, forall_and, forall_eq]

theorem cpopNatRec_eq_one_iff :
    x.cpopNatRec n 0 = 1 ↔ ∃ k, k < n ∧ ∀ i, i < n → (x.getLsbD i = true ↔ i = k) := by
  induction n with
  | zero => simp
  | succ n ih =>
    rw [BitVec.cpopNatRec_succ, BitVec.cpopNatRec_add]
    cases hbit : x.getLsbD n with
    | false =>
      rw [Bool.toNat_false, Nat.add_zero, ih]
      constructor
      · rintro ⟨k, hk, hset⟩
        refine ⟨k, Nat.lt_succ_of_lt hk, fun i hi ↦ ?_⟩
        rcases Nat.lt_succ_iff_lt_or_eq.mp hi with hlt | rfl
        · exact hset i hlt
        · simp [hbit, Nat.ne_of_gt hk]
      · rintro ⟨k, hk, hset⟩
        have hne : k ≠ n := by
          rintro rfl
          exact Bool.false_ne_true (hbit.symm.trans ((hset k hk).mpr rfl))
        exact ⟨k, by omega, fun i hi ↦ hset i (Nat.lt_succ_of_lt hi)⟩
    | true =>
      rw [Bool.toNat_true, Nat.add_eq_right, cpopNatRec_eq_zero_iff]
      constructor
      · intro hclear
        refine ⟨n, Nat.lt_succ_self n, fun i hi ↦ ?_⟩
        rcases Nat.lt_succ_iff_lt_or_eq.mp hi with hlt | rfl
        · simp [hclear i hlt, Nat.ne_of_lt hlt]
        · exact iff_of_true hbit rfl
      · rintro ⟨k, -, hset⟩ i hi
        have hk : n = k := (hset n (Nat.lt_succ_self n)).mp hbit
        have hother : ¬ x.getLsbD i = true := fun h ↦
          Nat.ne_of_lt hi (((hset i (Nat.lt_succ_of_lt hi)).mp h).trans hk.symm)
        simpa using hother

theorem cpop_eq_one_iff : x.cpop.toNat = 1 ↔ ∃ k, k < w ∧ x = BitVec.twoPow w k := by
  rw [BitVec.toNat_cpop, cpopNatRec_eq_one_iff]
  refine exists_congr fun k ↦ and_congr_right fun hk ↦ ?_
  constructor
  · intro hset
    refine BitVec.eq_of_getLsbD_eq fun i hi ↦ ?_
    rw [BitVec.getLsbD_twoPow, Bool.eq_iff_iff, hset i hi]
    simp [hk, eq_comm]
  · rintro rfl i hi
    rw [BitVec.getLsbD_twoPow]
    simp [hk, eq_comm]

theorem ctz_twoPow (h : k < w) : (BitVec.twoPow w k).ctz.toNat = k := by
  have hne : BitVec.twoPow w k ≠ 0#w := by
    intro hzero
    have hbit := congrArg (BitVec.getLsbD · k) hzero
    simp [h] at hbit
  -- The lowest bit that is set is the only one.
  have hbit := BitVec.getLsbD_true_ctz_of_ne_zero hne
  rw [BitVec.getLsbD_twoPow] at hbit
  simpa [h, eq_comm] using hbit

end Bits

/-- The number of bits of a word that are set. -/
def onesCount (n : UInt64) : Nat := n.toBitVec.cpop.toNat

/-- The number of bits of a word below the lowest one that is set. -/
def trailingZeros (n : UInt64) : UInt32 := UInt32.ofBitVec (n.toBitVec.ctz.setWidth 32)

variable {n : UInt64} {k : Nat}

theorem le_of_toNat_eq_two_pow (h : n.toNat = 2 ^ k) : k ≤ 63 := by
  have hlt : 2 ^ k < 2 ^ 64 := h ▸ n.toNat_lt
  exact Nat.le_of_lt_succ ((Nat.pow_lt_pow_iff_right Nat.one_lt_two).mp hlt)

theorem toBitVec_eq_twoPow_iff (h : k ≤ 63) :
    n.toBitVec = BitVec.twoPow 64 k ↔ n.toNat = 2 ^ k := by
  have hpow : (BitVec.twoPow 64 k).toNat = 2 ^ k := BitVec.toNat_twoPow_of_lt (Nat.lt_succ_of_le h)
  rw [← BitVec.toNat_inj, hpow, UInt64.toNat_toBitVec]

/-- **A single bit is set exactly in the powers of two.** -/
theorem onesCount_eq_one_iff : onesCount n = 1 ↔ ∃ k : Nat, k ≤ 63 ∧ n.toNat = 2 ^ k := by
  rw [onesCount, cpop_eq_one_iff]
  constructor
  · rintro ⟨k, hlt, hbit⟩
    have hle := Nat.le_of_lt_succ hlt
    exact ⟨k, hle, (toBitVec_eq_twoPow_iff hle).mp hbit⟩
  · rintro ⟨k, hle, hpow⟩
    exact ⟨k, Nat.lt_succ_of_le hle, (toBitVec_eq_twoPow_iff hle).mpr hpow⟩

/-- **The zeros below a single bit are the exponent of its power of two.** -/
theorem toNat_trailingZeros (h : n.toNat = 2 ^ k) : (trailingZeros n).toNat = k := by
  have hle := le_of_toNat_eq_two_pow h
  have hzeros : n.toBitVec.ctz.toNat = k := by
    rw [(toBitVec_eq_twoPow_iff hle).mpr h, ctz_twoPow (Nat.lt_succ_of_le hle)]
  rw [trailingZeros, UInt32.toNat_ofBitVec, BitVec.toNat_setWidth, hzeros]
  exact Nat.mod_eq_of_lt (Nat.lt_of_le_of_lt hle (by decide))

-- A word without a single bit has zeros all the way up.
example : [0, 1, 6, 9223372036854775808].map trailingZeros = [64, 0, 1, 63] := by cbv

theorem toNat_one_shiftLeft {scale : UInt32} (h : scale.toNat < 64) :
    ((1 : UInt64) <<< scale.toUInt64).toNat = 2 ^ scale.toNat := by
  have hlt : 2 ^ scale.toNat < 2 ^ 64 := Nat.pow_lt_pow_right Nat.one_lt_two h
  rw [UInt64.toNat_shiftLeft, UInt32.toNat_toUInt64, Nat.mod_eq_of_lt h, UInt64.toNat_one,
    Nat.one_shiftLeft, Nat.mod_eq_of_lt hlt]

/-! ## Wide words -/

/-- A word of 64 bits as one of 128 bits. -/
def widen (n : UInt64) : BitVec 128 := n.toBitVec.setWidth 128

theorem toNat_widen (n : UInt64) : (widen n).toNat = n.toNat := by
  have hlt : n.toNat < 2 ^ 128 := Nat.lt_trans n.toNat_lt (by decide)
  rw [widen, BitVec.toNat_setWidth, UInt64.toNat_toBitVec, Nat.mod_eq_of_lt hlt]

theorem toNat_widen_mul (m n : UInt64) : (widen m * widen n).toNat = m.toNat * n.toNat := by
  have hlt : m.toNat * n.toNat < 2 ^ 128 :=
    Nat.lt_of_lt_of_le (Nat.mul_lt_mul'' m.toNat_lt n.toNat_lt) (by decide)
  rw [BitVec.toNat_mul, toNat_widen, toNat_widen, Nat.mod_eq_of_lt hlt]

end RecursiveMatrix
