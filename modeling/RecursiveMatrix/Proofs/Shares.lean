import Mathlib.Algebra.Ring.Nat
import RecursiveMatrix.Generator.Partitioned

/-!
# Fair shares

The shares of the workers in exact arithmetic. Everyone gets the rounded-down part, and what is left
over goes to the first workers, one edge each; the shares of the first `n` workers add up to what
that says (`sum_fairShare`), and those of all workers to everything.

A share is a stretch of the edges as well, which begins where the shares before it end
(`shareInterval`). Stretches of any lengths that are put end to end cover what the lengths add up to
(`flatMap_range'_sum`), so those of all workers are the edges, each of them once and in their order
(`shares_tile_total`).
-/

namespace RecursiveMatrix

-- Powers are those of `Nat.pow`, whatever other instances are in scope.
attribute [local instance (high)] instPowNat

/-- The part of `total` that number `index` of `workers` gets. -/
def fairShare (total workers index : ℕ) : ℕ :=
  total / workers + if index < total % workers then 1 else 0

theorem div_lt_of_mod_pos {total workers : ℕ} (h : 0 < total % workers) :
    total / workers < total := by
  rcases Nat.eq_zero_or_pos workers with rfl | hworkers
  · rw [Nat.mod_zero] at h
    rwa [Nat.div_zero]
  · have hle := Nat.le_mul_of_pos_left (total / workers) hworkers
    have hsplit := Nat.div_add_mod total workers
    omega

/-- The share in machine words is the exact one; adding the extra edge never wraps around. -/
theorem partitionShare_toNat (total index workers : UInt64) :
    (partitionShare total index workers).toNat
      = fairShare total.toNat workers.toNat index.toNat := by
  have hiff : index < total % workers ↔ index.toNat < total.toNat % workers.toNat := by
    rw [UInt64.lt_iff_toNat_lt, UInt64.toNat_mod]
  rw [partitionShare, fairShare]
  by_cases h : index.toNat < total.toNat % workers.toNat
  -- Where something is left over, the rounded-down part is not everything.
  · have hbound : total.toNat / workers.toNat + 1 < 2 ^ 64 :=
      Nat.lt_of_le_of_lt (div_lt_of_mod_pos (Nat.zero_lt_of_lt h)) total.toNat_lt
    rw [if_pos (hiff.mpr h), if_pos h, UInt64.toNat_add, UInt64.toNat_div, UInt64.toNat_one,
      Nat.mod_eq_of_lt hbound]
  · rw [if_neg (mt hiff.mp h), if_neg h, UInt64.toNat_div, Nat.add_zero]

theorem sum_fairShare (total workers n : ℕ) :
    ((List.range n).map (fairShare total workers)).sum
      = n * (total / workers) + min n (total % workers) := by
  induction n with
  | zero => simp
  | succ n ih =>
    have hmin : min (n + 1) (total % workers)
        = min n (total % workers) + if n < total % workers then 1 else 0 := by
      split <;> omega
    rw [List.range_succ, List.map_append, List.sum_append, ih, List.map_singleton,
      List.sum_singleton, fairShare, hmin, Nat.succ_mul]
    omega

theorem sum_fairShare_all (total : ℕ) {workers : ℕ} (h : 0 < workers) :
    ((List.range workers).map (fairShare total workers)).sum = total := by
  rw [sum_fairShare, Nat.min_eq_right (Nat.le_of_lt (Nat.mod_lt total h)), Nat.div_add_mod]

theorem fairShare_le_add_one (total workers i j : ℕ) :
    fairShare total workers i ≤ fairShare total workers j + 1 := by
  rw [fairShare, fairShare]
  split_ifs <;> omega

theorem fairShare_le_of_le (total workers : ℕ) {i j : ℕ} (h : i ≤ j) :
    fairShare total workers j ≤ fairShare total workers i := by
  rw [fairShare, fairShare]
  split_ifs <;> omega

/-! ## Intervals -/

/-- Intervals that begin where the ones before them end cover everything up to the last end. -/
theorem flatMap_range'_sum (length : ℕ → ℕ) (n : ℕ) :
    ((List.range n).flatMap fun i ↦ List.range' ((List.range i).map length).sum (length i))
      = List.range ((List.range n).map length).sum := by
  induction n with
  | zero => rfl
  | succ n ih =>
    rw [List.range_succ, List.flatMap_append, ih, List.flatMap_singleton, List.map_append,
      List.sum_append, List.map_singleton, List.sum_singleton]
    generalize ((List.range n).map length).sum = before
    have hnext : List.range' 0 before ++ List.range' (0 + before) (length n)
        = List.range' 0 (before + length n) := List.range'_append_1
    rwa [Nat.zero_add, ← List.range_eq_range', ← List.range_eq_range'] at hnext

/-- How many edges a worker generates, by its number. -/
def shareSize (total workers : UInt64) (i : ℕ) : ℕ :=
  (partitionShare total (.ofNat i) workers).toNat

/-- The positions of the edges that a worker generates: as many as its share, from the sum of the
shares before it on. -/
def shareInterval (total workers : UInt64) (i : ℕ) : List ℕ :=
  List.range' ((List.range i).map (shareSize total workers)).sum (shareSize total workers i)

theorem shareSize_eq {total workers : UInt64} {i : ℕ} (h : i < workers.toNat) :
    shareSize total workers i = fairShare total.toNat workers.toNat i := by
  rw [shareSize, partitionShare_toNat, UInt64.toNat_ofNat_of_lt' (Nat.lt_trans h workers.toNat_lt)]

theorem map_shareSize {total workers : UInt64} {n : ℕ} (h : n ≤ workers.toNat) :
    (List.range n).map (shareSize total workers)
      = (List.range n).map (fairShare total.toNat workers.toNat) :=
  List.map_congr_left fun _ hi ↦ shareSize_eq (Nat.lt_of_lt_of_le (List.mem_range.mp hi) h)

/-- **The shares tile everything.** They add up to the total, never grow from one worker to the
next, and differ by one edge at most: beyond the rounded-down part the first workers have one edge
more, as many of them as edges are left over. Put end to end in the order of the workers, their
intervals are all positions, without gap or overlap. The extra edge never makes a word wrap
around. -/
theorem shares_tile_total (total : UInt64) {workers : UInt64} (h : 1 ≤ workers.toNat) :
    ((List.range workers.toNat).map (shareSize total workers)).sum = total.toNat
      ∧ (∀ i j, i ≤ j → j < workers.toNat → shareSize total workers j ≤ shareSize total workers i)
      ∧ (∀ i < workers.toNat, ∀ j < workers.toNat,
        shareSize total workers i ≤ shareSize total workers j + 1)
      ∧ (∀ i < workers.toNat, shareSize total workers i
        = total.toNat / workers.toNat + if i < total.toNat % workers.toNat then 1 else 0)
      ∧ (List.range workers.toNat).flatMap (shareInterval total workers) = List.range total.toNat
      ∧ ∀ index, index < total % workers → (total / workers).toNat + 1 < UInt64.size := by
  have hsum : ((List.range workers.toNat).map (shareSize total workers)).sum = total.toNat := by
    rw [map_shareSize (Nat.le_refl _), sum_fairShare_all _ h]
  refine ⟨hsum, fun i j hij hj ↦ ?_, fun i hi j hj ↦ ?_, fun i hi ↦ shareSize_eq hi, ?_,
    fun index hindex ↦ ?_⟩
  · rw [shareSize_eq hj, shareSize_eq (Nat.lt_of_le_of_lt hij hj)]
    exact fairShare_le_of_le _ _ hij
  · rw [shareSize_eq hi, shareSize_eq hj]
    exact fairShare_le_add_one _ _ _ _
  · rw [← hsum]
    exact flatMap_range'_sum _ _
  · have hleft : 0 < total.toNat % workers.toNat := by
      rw [← UInt64.toNat_mod]
      exact Nat.zero_lt_of_lt (UInt64.lt_iff_toNat_lt.mp hindex)
    rw [UInt64.toNat_div]
    exact Nat.lt_of_le_of_lt (div_lt_of_mod_pos hleft) total.toNat_lt

/-- The largest total, shared by two: the extra edge goes to the first of them. -/
theorem shares_tile_total_for_two :
    1 ≤ (2 : UInt64).toNat
      ∧ ((List.range 2).map (shareSize 0xFFFFFFFFFFFFFFFF 2)).sum = 2 ^ 64 - 1
      ∧ shareSize 0xFFFFFFFFFFFFFFFF 2 0 = 2 ^ 63
      ∧ shareSize 0xFFFFFFFFFFFFFFFF 2 1 = 2 ^ 63 - 1 := by
  obtain ⟨hsum, -, -, hshare, -⟩ := @shares_tile_total 0xFFFFFFFFFFFFFFFF 2 (by decide)
  exact ⟨by decide, hsum, hshare 0 (by decide), hshare 1 (by decide)⟩

end RecursiveMatrix
