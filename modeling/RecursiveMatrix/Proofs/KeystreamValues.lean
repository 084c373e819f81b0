import RecursiveMatrix.Proofs.UnitFractions

/-!
# Values of a keystream by their positions

A keystream is read in order: it keeps the block at hand, the number of the next one and how far it
has been read. This file says what is read at a position, whatever was read before it: word `j` of
the stream (`keystreamWord`), and so value `n` is made from the words `2 * n` and `2 * n + 1`
(`Seeded.value_of_isAt`).

## The invariant

A keystream that stands at position `j` either has no word left, and then the block that holds word
`j` is the next one to be computed, or it has that block at hand (`Keystream.IsAt`). Reading a word
leads from one form to the other at the two ends of a block and stays in the second one between
them. Going over to another stream keeps the position, and so do the wrappers that are put around a
keystream.
-/

namespace RecursiveMatrix

-- Powers are those of `Nat.pow`, whatever other instances are in scope.
attribute [local instance (high)] instPowNat

open UniformSource

/-! ## Words -/

theorem toNat_joinWords (low high : UInt32) :
    (low.toUInt64 ||| (high.toUInt64 <<< 32)).toNat = low.toNat + 2 ^ 32 * high.toNat := by
  have hhigh : high.toNat < 2 ^ 32 := high.toNat_lt
  have hplace : (32 : UInt64).toNat % 64 = 32 := rfl
  have hshift : (high.toUInt64 <<< 32).toNat = 2 ^ 32 * high.toNat := by
    rw [UInt64.toNat_shiftLeft, hplace, UInt32.toNat_toUInt64, Nat.shiftLeft_eq, Nat.mul_comm]
    exact Nat.mod_eq_of_lt (by omega)
  rw [UInt64.toNat_or, hshift, UInt32.toNat_toUInt64, Nat.or_comm,
    ← Nat.two_pow_add_eq_or_of_lt low.toNat_lt, Nat.add_comm]

theorem toNat_splitWords (x : UInt64) :
    x.toUInt32.toNat + 2 ^ 32 * (x >>> 32).toUInt32.toNat = x.toNat := by
  have hx : x.toNat < 2 ^ 64 := x.toNat_lt
  have hplace : (32 : UInt64).toNat % 64 = 32 := rfl
  rw [UInt64.toNat_toUInt32, UInt64.toNat_toUInt32, UInt64.toNat_shiftRight, hplace,
    Nat.shiftRight_eq_div_pow]
  omega

/-! ## Positions -/

namespace Keystream

variable {key : ChaChaKey} {stream : UInt64} {j : ℕ} {k : Keystream}

/-- The word to be read next is word `j`. -/
inductive IsAt (key : ChaChaKey) (stream : UInt64) : ℕ → Keystream → Prop
  /-- All words of the block at hand have been read, and block `b` is the next one. -/
  | between (b : ℕ) (block : ChaChaBlock) :
    IsAt key stream (16 * b) ⟨key, stream, .ofNat b, block, 16⟩
  /-- Block `b` is at hand, and `i` words of it have been read. -/
  | inside (b i : ℕ) (hi : i < 16) : IsAt key stream (16 * b + i)
    ⟨key, stream, .ofNat (b + 1), keystreamBlock key stream (.ofNat b), i⟩

theorem isAt_start (seed : UInt64) : IsAt (.ofSeed seed) 0 0 (start seed) := .between 0 _

theorem keystreamWord_eq (key : ChaChaKey) (stream : UInt64) (b : ℕ) {i : ℕ} (hi : i < 16) :
    keystreamWord key stream (16 * b + i) = (keystreamBlock key stream (.ofNat b))[i] := by
  have hblock : (16 * b + i) / 16 = b := by omega
  have hword : (16 * b + i) % 16 = i := by omega
  simp only [keystreamWord, hblock, hword]

/-- After `i + 1` words of a block it is still at hand, or it has been read to its end. -/
theorem isAt_succ (key : ChaChaKey) (stream : UInt64) (b : ℕ) {i : ℕ} (hi : i < 16) :
    IsAt key stream (16 * b + i + 1)
      ⟨key, stream, .ofNat (b + 1), keystreamBlock key stream (.ofNat b), i + 1⟩ := by
  rcases Nat.lt_or_ge (i + 1) 16 with hlt | hge
  · exact .inside b (i + 1) hlt
  · obtain rfl : i = 15 := by omega
    exact .between (b + 1) _

/-- **The step.** The word at the position is read, and the position moves on. -/
theorem IsAt.next (h : IsAt key stream j k) :
    k.next.1 = keystreamWord key stream j ∧ IsAt key stream (j + 1) k.next.2 := by
  cases h with
  | between b block =>
    have hcounter : UInt64.ofNat b + 1 = .ofNat (b + 1) := (UInt64.ofNat_add b 1).symm
    refine ⟨(keystreamWord_eq key stream b (by decide : 0 < 16)).symm, ?_⟩
    rw [Keystream.next, dif_neg (Nat.lt_irrefl 16)]
    simp only [hcounter]
    exact isAt_succ key stream b (by decide : 0 < 16)
  | inside b i hi =>
    rw [keystreamWord_eq key stream b hi, Keystream.next, dif_pos hi]
    exact ⟨rfl, isAt_succ key stream b hi⟩

theorem IsAt.nextLong (h : IsAt key stream j k) :
    k.nextLong.1.toNat
        = (keystreamWord key stream j).toNat + 2 ^ 32 * (keystreamWord key stream (j + 1)).toNat
      ∧ IsAt key stream (j + 2) k.nextLong.2 := by
  obtain ⟨hlow, hnext⟩ := h.next
  obtain ⟨hhigh, hlast⟩ := hnext.next
  refine ⟨?_, hlast⟩
  rw [← hlow, ← hhigh]
  exact toNat_joinWords _ _

theorem IsAt.switch (h : IsAt key stream j k) (other : UInt64) :
    IsAt key other j (k.switch other) := by
  cases h with
  | between b block => exact .between b block
  | inside b i hi =>
    have hcounter : UInt64.ofNat (b + 1) - 1 = .ofNat b := by
      rw [UInt64.ofNat_add]
      exact UInt64.add_sub_cancel _ _
    rw [Keystream.switch, if_pos hi, hcounter]
    exact .inside b i hi

end Keystream

/-! ## Values -/

namespace Seeded

variable {key : ChaChaKey} {stream : UInt64} {s : Seeded} {m : ℕ}

/-- The number that stands for value `n`: the highest 53 bits of its two words. -/
def numerator (key : ChaChaKey) (stream : UInt64) (n : ℕ) : ℕ :=
  ((keystreamWord key stream (2 * n)).toNat
    + 2 ^ 32 * (keystreamWord key stream (2 * n + 1)).toNat) >>> 11

theorem numerator_lt (key : ChaChaKey) (stream : UInt64) (n : ℕ) :
    numerator key stream n < 2 ^ 53 := by
  have hlow := (keystreamWord key stream (2 * n)).toNat_lt
  have hhigh := (keystreamWord key stream (2 * n + 1)).toNat_lt
  rw [numerator, Nat.shiftRight_eq_div_pow]
  omega

theorem toNat_ofNat_numerator (key : ChaChaKey) (stream : UInt64) (n : ℕ) :
    (UInt64.ofNat (numerator key stream n)).toNat = numerator key stream n :=
  UInt64.toNat_ofNat_of_lt' ((numerator_lt key stream n).trans (by decide))

theorem next_eq (s : Seeded) :
    next s = (unitFraction (s.keystream.nextLong.1 >>> 11), ⟨s.keystream.nextLong.2⟩) := rfl

theorem next_of_isAt (h : s.keystream.IsAt key stream (2 * m)) :
    (next s).1 = unitFraction (.ofNat (numerator key stream m))
      ∧ (next s).2.keystream.IsAt key stream (2 * (m + 1)) := by
  obtain ⟨hword, hnext⟩ := h.nextLong
  have hplace : (11 : UInt64).toNat % 64 = 11 := rfl
  have hnumerator : s.keystream.nextLong.1 >>> 11 = .ofNat (numerator key stream m) := by
    apply UInt64.toNat_inj.mp
    rw [UInt64.toNat_shiftRight, hplace, hword, toNat_ofNat_numerator, numerator]
  rw [next_eq, hnumerator]
  exact ⟨rfl, hnext⟩

/-- **The run.** Drawing values moves the position on by two words for each. -/
theorem isAt_skip (h : s.keystream.IsAt key stream (2 * m)) (n : ℕ) :
    (skip n s).keystream.IsAt key stream (2 * (m + n)) := by
  induction n generalizing s m with
  | zero => exact h
  | succ n ih =>
    rw [skip_succ, ← Nat.succ_add_eq_add_succ]
    exact ih (next_of_isAt h).2

theorem value_of_isAt (h : s.keystream.IsAt key stream (2 * m)) (n : ℕ) :
    value s n = unitFraction (.ofNat (numerator key stream (m + n))) :=
  (next_of_isAt (isAt_skip h n)).1

/-! ## Handling a source -/

/-- What a source goes through. -/
inductive Handling where
  /-- Some values are drawn in a row. -/
  | draw (n : ℕ)
  /-- The keystream is taken out, and it is made a source again. -/
  | rewrap

namespace Handling

/-- What is drawn, and the source after it. -/
def apply (s : Seeded) : Handling → List Float × Seeded
  | draw n => UniformSource.draw n s
  | rewrap => ([], ⟨s.keystream⟩)

/-- The number of values that are drawn. -/
def draws : Handling → ℕ
  | draw n => n
  | rewrap => 0

theorem apply_eq (h : Handling) (s : Seeded) :
    h.apply s = ((List.range h.draws).map (value s), skip h.draws s) := by
  cases h with
  | draw n => exact draw_eq n s
  | rewrap => rfl

/-- Everything that is drawn while a source is handled, and the source after it. -/
def applyAll : List Handling → Seeded → List Float × Seeded
  | [], s => ([], s)
  | h :: hs, s =>
    let first := h.apply s
    let rest := applyAll hs first.2
    (first.1 ++ rest.1, rest.2)

/-- The number of all values that are drawn. -/
def drawsOf (hs : List Handling) : ℕ := (hs.map draws).sum

/-- However the source is handled, its values are drawn in their order. -/
theorem applyAll_eq (hs : List Handling) (s : Seeded) :
    applyAll hs s = ((List.range (drawsOf hs)).map (value s), skip (drawsOf hs) s) := by
  induction hs generalizing s with
  | nil => rfl
  | cons h hs ih =>
    have hsum : drawsOf (h :: hs) = h.draws + drawsOf hs := List.sum_cons
    have hrest : value (skip h.draws s) = value s ∘ (h.draws + ·) := funext (value_skip _ · s)
    rw [applyAll, h.apply_eq, ih, hsum, List.range_add, List.map_append, List.map_map, skip_add,
      hrest]

end Handling

/-- **The values of a seed and a stream are fractions of its keystream.** Value `n` is `k / 2^53`,
where `k` are the highest 53 bits of the words `2 * n` and `2 * n + 1`, and so it lies in `[0, 1)`.
Word `j` is word `j % 16` of block `j / 16`, numbered modulo `2^64`; the number of a block and the
number of the stream each take two words of what the block is computed from. The values come in
their order however they are drawn, and however often the keystream is taken out of its wrapper in
between. A seed starts at stream zero. Going over to another stream keeps the position, so that the
values of a stream are those of its seed that goes over to it before the first draw. -/
theorem values_are_keystream_fractions (seed stream : UInt64) :
    let key := ChaChaKey.ofSeed seed
    let w := keystreamWord key stream
    let s := ofStream seed stream
    (∀ j, (keystreamBlock key stream (.ofNat (j / 16 % 2 ^ 64)))[j % 16]? = some (w j))
      ∧ (∀ b : UInt64, let start := initialBlock key stream b
        start[12].toNat + 2 ^ 32 * start[13].toNat = b.toNat
          ∧ start[14].toNat + 2 ^ 32 * start[15].toNat = stream.toNat)
      ∧ (∀ n, let k := ((w (2 * n)).toNat + 2 ^ 32 * (w (2 * n + 1)).toNat) >>> 11
        k < 2 ^ 53 ∧ value s n = unitFraction (.ofNat k)
          ∧ rational? (value s n) = some ((k : ℚ) / 2 ^ 53) ∧ inUnit (value s n) = true)
      ∧ (∀ hs : List Handling, Handling.applyAll hs s
          = ((List.range (Handling.drawsOf hs)).map (value s), skip (Handling.drawsOf hs) s))
      ∧ (∀ n, value (ofStream seed 0) n = value (ofSeed seed) n)
      ∧ Seeded.mk ((ofSeed seed).keystream.switch stream) = s
      ∧ ∀ hs : List Handling, ∀ n,
        value (Seeded.mk ((Handling.applyAll hs (ofSeed seed)).2.keystream.switch stream)) n
          = value s (Handling.drawsOf hs + n) := by
  intro key w s
  have hseed : (ofSeed seed).keystream.IsAt key 0 (2 * 0) := Keystream.isAt_start seed
  have hstart : s.keystream.IsAt key stream (2 * 0) := hseed.switch stream
  refine ⟨fun j ↦ ?_, fun b ↦ ⟨toNat_splitWords b, toNat_splitWords stream⟩, fun n ↦ ?_,
    fun hs ↦ Handling.applyAll_eq hs s, fun n ↦ rfl, rfl, fun hs n ↦ ?_⟩
  · rw [UInt64.ofNat_mod_size]
    exact Vector.getElem?_eq_getElem (Nat.mod_lt j (by decide))
  · intro k
    have hvalue : value s n = unitFraction (.ofNat k) := by
      have hvalue := value_of_isAt hstart n
      rwa [Nat.zero_add] at hvalue
    have htoNat : (UInt64.ofNat k).toNat = k := toNat_ofNat_numerator key stream n
    have hk : k < 2 ^ 53 := numerator_lt key stream n
    have hlt : (UInt64.ofNat k).toNat < 2 ^ 53 := htoNat.trans_lt hk
    refine ⟨hk, hvalue, ?_, ?_⟩
    · rw [hvalue, rational?_unitFraction hlt, htoNat]
    · rw [hvalue, inUnit_unitFraction hlt]
  · have hlater := (isAt_skip hseed (Handling.drawsOf hs)).switch stream
    rw [Handling.applyAll_eq, value_of_isAt hstart, Nat.zero_add]
    rw [Nat.zero_add] at hlater
    exact value_of_isAt hlater n

end Seeded

end RecursiveMatrix
