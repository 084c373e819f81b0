import Mathlib.Order.Basic
import RecursiveMatrix.Generator

/-!
# A descent halves ranges

A descent through the adjacency matrix keeps two running sums and half of the side of the block it
is in (`DescentState`). This file says what those sums stand for. Beside them runs a descent that
only knows ranges: it starts with all rows and all columns, and every draw keeps one half of each
(`MatrixBlock.quarter`).

## The invariant

The two descents make the same steps, and before every one of them the corner is where both ranges
begin and the side is how long they are (`Frames`). So the ranges of `2 ^ n` vertices have length
`2 ^ (n - k)` after `k` draws, and a single cell is left after `n`. Ranges only shrink, hence the
edge lies in the ranges of every moment, whatever is drawn afterwards.

The end of a range never exceeds the number of vertices, which is a 64-bit word. That is why the
running sums never wrap around (`Frames.add_half_lt`).
-/

namespace RecursiveMatrix

-- Powers are those of `Nat.pow`, whatever other instances are in scope.
attribute [local instance (high)] instPowNat

open UniformSource

/-! ## Ranges and blocks -/

/-- The indices from `first` on that lie below `stop`. -/
structure IndexRange where
  /-- The first index. -/
  first : ℕ
  /-- The index after the last one. -/
  stop : ℕ
  deriving DecidableEq, Repr

namespace IndexRange

instance : Membership ℕ IndexRange := ⟨fun r i ↦ r.first ≤ i ∧ i < r.stop⟩

theorem mem_iff {i : ℕ} {r : IndexRange} : i ∈ r ↔ r.first ≤ i ∧ i < r.stop := Iff.rfl

/-- How many indices there are. -/
def length (r : IndexRange) : ℕ := r.stop - r.first

def lowerHalf (r : IndexRange) : IndexRange := ⟨r.first, r.first + r.length / 2⟩

def upperHalf (r : IndexRange) : IndexRange := ⟨r.first + r.length / 2, r.stop⟩

theorem mem_of_mem_lowerHalf {i : ℕ} {r : IndexRange} (h : i ∈ r.lowerHalf) : i ∈ r := by
  simp only [mem_iff, lowerHalf, length] at h ⊢
  omega

theorem mem_of_mem_upperHalf {i : ℕ} {r : IndexRange} (h : i ∈ r.upperHalf) : i ∈ r := by
  simp only [mem_iff, upperHalf, length] at h ⊢
  omega

end IndexRange

/-- A block of the adjacency matrix. -/
structure MatrixBlock where
  /-- The sources of its edges. -/
  rows : IndexRange
  /-- The targets of its edges. -/
  columns : IndexRange
  deriving DecidableEq, Repr

namespace MatrixBlock

instance : Membership Edge MatrixBlock :=
  ⟨fun b e ↦ e.src.toNat ∈ b.rows ∧ e.dst.toNat ∈ b.columns⟩

theorem mem_iff {e : Edge} {b : MatrixBlock} :
    e ∈ b ↔ e.src.toNat ∈ b.rows ∧ e.dst.toNat ∈ b.columns := Iff.rfl

/-- The whole matrix of a graph with `n` vertices. -/
def whole (n : ℕ) : MatrixBlock := ⟨⟨0, n⟩, ⟨0, n⟩⟩

/-- The block that holds nothing but `e`. -/
def cell (e : Edge) : MatrixBlock :=
  ⟨⟨e.src.toNat, e.src.toNat + 1⟩, ⟨e.dst.toNat, e.dst.toNat + 1⟩⟩

theorem mem_cell (e : Edge) : e ∈ cell e :=
  ⟨⟨Nat.le_refl _, Nat.lt_succ_self _⟩, ⟨Nat.le_refl _, Nat.lt_succ_self _⟩⟩

def quarter (b : MatrixBlock) : Quadrant → MatrixBlock
  | .topLeft => ⟨b.rows.lowerHalf, b.columns.lowerHalf⟩
  | .topRight => ⟨b.rows.lowerHalf, b.columns.upperHalf⟩
  | .bottomLeft => ⟨b.rows.upperHalf, b.columns.lowerHalf⟩
  | .bottomRight => ⟨b.rows.upperHalf, b.columns.upperHalf⟩

theorem mem_of_mem_quarter {e : Edge} {b : MatrixBlock} {q : Quadrant} (h : e ∈ b.quarter q) :
    e ∈ b := by
  obtain ⟨hrow, hcolumn⟩ := h
  cases q with
  | topLeft =>
    exact ⟨IndexRange.mem_of_mem_lowerHalf hrow, IndexRange.mem_of_mem_lowerHalf hcolumn⟩
  | topRight =>
    exact ⟨IndexRange.mem_of_mem_lowerHalf hrow, IndexRange.mem_of_mem_upperHalf hcolumn⟩
  | bottomLeft =>
    exact ⟨IndexRange.mem_of_mem_upperHalf hrow, IndexRange.mem_of_mem_lowerHalf hcolumn⟩
  | bottomRight =>
    exact ⟨IndexRange.mem_of_mem_upperHalf hrow, IndexRange.mem_of_mem_upperHalf hcolumn⟩

end MatrixBlock

/-! ## The descent by ranges -/

namespace Thresholds

/-- The quadrant of the first threshold above a value, and the last quadrant where there is none. -/
def firstAbove (t : Thresholds) (x : Float) : Quadrant :=
  (([(t.first, .topLeft), (t.second, .topRight), (t.third, .bottomLeft)] :
    List (Float × Quadrant)).find? fun c ↦ x < c.1).elim .bottomRight Prod.snd

theorem select_eq_firstAbove (t : Thresholds) (x : Float) : t.select x = t.firstAbove x := by
  by_cases h₁ : x < t.first
  · simp [select, firstAbove, h₁]
  · by_cases h₂ : x < t.second
    · simp [select, firstAbove, h₁, h₂]
    · by_cases h₃ : x < t.third
      · simp [select, firstAbove, h₁, h₂, h₃]
      · simp [select, firstAbove, h₁, h₂, h₃]

/-- The block that is left of `b` after some draws. -/
def narrow (t : Thresholds) (b : MatrixBlock) (draws : List Float) : MatrixBlock :=
  draws.foldl (fun b x ↦ b.quarter (t.firstAbove x)) b

theorem mem_of_mem_narrow {t : Thresholds} {e : Edge} {b : MatrixBlock} {draws : List Float}
    (h : e ∈ t.narrow b draws) : e ∈ b := by
  induction draws generalizing b with
  | nil => exact h
  | cons x draws ih => exact MatrixBlock.mem_of_mem_quarter (ih h)

theorem narrow_append (t : Thresholds) (b : MatrixBlock) (xs ys : List Float) :
    t.narrow b (xs ++ ys) = t.narrow (t.narrow b xs) ys := List.foldl_append

end Thresholds

/-! ## The descent by running sums -/

/-- What a descent keeps from one draw to the next. -/
structure DescentState where
  /-- The side of the block it is in. -/
  side : UInt64
  /-- The top left cell of that block: the running sums. -/
  corner : Edge

namespace DescentState

/-- Enters the quadrant that a value chooses. -/
def enter (t : Thresholds) (d : DescentState) (x : Float) : DescentState :=
  ⟨d.side >>> 1, (t.select x).corner (d.side >>> 1) d.corner⟩

def enterAll (t : Thresholds) (d : DescentState) (draws : List Float) : DescentState :=
  draws.foldl (enter t) d

end DescentState

universe u v

variable {σ : Type u} [UniformSource σ]

namespace UniformSource

theorem length_draw (n : ℕ) (s : σ) : (draw n s).1.length = n := by
  rw [draw_eq, List.length_map, List.length_range]

theorem exists_draw_append (s : σ) {k n : ℕ} (h : k ≤ n) :
    ∃ rest, (draw n s).1 = (draw k s).1 ++ rest := by
  obtain ⟨m, rfl⟩ := Nat.exists_eq_add_of_le h
  rw [draw_eq, draw_eq, List.range_add, List.map_append]
  exact ⟨_, rfl⟩

theorem draw_congr {τ : Type v} [UniformSource τ] {r : τ} {s : σ} {k : ℕ}
    (h : ∀ i < k, value r i = value s i) : (draw k r).1 = (draw k s).1 := by
  rw [draw_eq, draw_eq]
  exact List.map_congr_left fun i hi ↦ h i (List.mem_range.mp hi)

end UniformSource

/-- A descent is a fold over its draws, of which there is one for each level. -/
theorem descend_eq (t : Thresholds) (levels : ℕ) (side : UInt64) (block : Edge) (s : σ) :
    descend t levels side block s
      = ((DescentState.enterAll t ⟨side, block⟩ (draw levels s).1).corner, skip levels s) := by
  induction levels generalizing side block s with
  | zero => rfl
  | succ levels ih =>
    rw [descend, ih]
    rfl

/-- Between two draws a descent goes on from its running sums. -/
theorem descend_add (t : Thresholds) (m n : ℕ) (d : DescentState) (s : σ) :
    descend t (m + n) d.side d.corner s
      = descend t n (d.enterAll t (draw m s).1).side (d.enterAll t (draw m s).1).corner
        (skip m s) := by
  induction m generalizing d s with
  | zero =>
    rw [Nat.zero_add]
    rfl
  | succ m ih =>
    rw [Nat.succ_add, descend]
    exact ih (d.enter t (UniformSource.next s).1) (UniformSource.next s).2

/-! ## The invariant -/

theorem toNat_shiftRight_one (side : UInt64) : (side >>> 1).toNat = side.toNat / 2 := by
  simp [UInt64.toNat_shiftRight, Nat.shiftRight_eq_div_pow]

/-- A range of `side` indices begins at `first`, and its end fits a word. -/
structure Frames (r : IndexRange) (first : UInt64) (side : ℕ) : Prop where
  /-- Where the range begins. -/
  first_eq : r.first = first.toNat
  /-- Where it ends. -/
  stop_eq : r.stop = first.toNat + side
  /-- The end is at most the number of words. -/
  stop_le : r.stop ≤ UInt64.size

namespace Frames

variable {r : IndexRange} {first half : UInt64} {side : ℕ}

theorem eq_mk (h : Frames r first side) : r = ⟨first.toNat, first.toNat + side⟩ :=
  congrArg₂ IndexRange.mk h.first_eq h.stop_eq

theorem length_eq (h : Frames r first side) : r.length = side := by
  rw [IndexRange.length, h.first_eq, h.stop_eq, Nat.add_sub_cancel_left]

theorem lowerHalf (h : Frames r first (2 * half.toNat)) : Frames r.lowerHalf first half.toNat := by
  have hmid : r.first + r.length / 2 = first.toNat + half.toNat := by
    rw [h.length_eq, h.first_eq, Nat.mul_div_cancel_left _ Nat.two_pos]
  have hle : first.toNat + half.toNat ≤ UInt64.size := by
    have hstop := h.stop_eq
    have hle := h.stop_le
    omega
  exact ⟨h.first_eq, hmid, hmid.trans_le hle⟩

/-- The running sum can take half of the side without wrapping around. -/
theorem add_half_lt (h : Frames r first (2 * half.toNat)) (hpos : 0 < half.toNat) :
    first.toNat + half.toNat < UInt64.size := by
  have hstop := h.stop_eq
  have hle := h.stop_le
  omega

theorem upperHalf (h : Frames r first (2 * half.toNat)) (hpos : 0 < half.toNat) :
    Frames r.upperHalf (first + half) half.toNat := by
  have hsum : (first + half).toNat = first.toNat + half.toNat := by
    rw [UInt64.toNat_add, Nat.mod_eq_of_lt (h.add_half_lt hpos)]
  have hmid : r.first + r.length / 2 = (first + half).toNat := by
    rw [h.length_eq, h.first_eq, Nat.mul_div_cancel_left _ Nat.two_pos, hsum]
  refine ⟨hmid, ?_, h.stop_le⟩
  rw [IndexRange.upperHalf, h.stop_eq, hsum]
  omega

end Frames

/-- The running sums with `levels` draws to come stand for the block `b`. -/
structure Tracks (levels : ℕ) (d : DescentState) (b : MatrixBlock) : Prop where
  /-- The side can be halved as often as there are draws to come. -/
  side_eq : d.side.toNat = 2 ^ levels
  /-- The rows begin at the first running sum. -/
  rows : Frames b.rows d.corner.src d.side.toNat
  /-- The columns begin at the second one. -/
  columns : Frames b.columns d.corner.dst d.side.toNat

namespace Tracks

variable {levels : ℕ} {d : DescentState} {b : MatrixBlock}

theorem half_eq (h : Tracks (levels + 1) d b) : (d.side >>> 1).toNat = 2 ^ levels := by
  rw [toNat_shiftRight_one, h.side_eq, Nat.pow_succ, Nat.mul_div_cancel _ Nat.two_pos]

theorem side_eq_two_mul (h : Tracks (levels + 1) d b) :
    d.side.toNat = 2 * (d.side >>> 1).toNat := by
  rw [h.half_eq, h.side_eq, Nat.pow_succ, Nat.mul_comm]

theorem half_pos (h : Tracks (levels + 1) d b) : 0 < (d.side >>> 1).toNat := by
  rw [h.half_eq]
  exact Nat.two_pow_pos levels

theorem rows_half (h : Tracks (levels + 1) d b) :
    Frames b.rows d.corner.src (2 * (d.side >>> 1).toNat) := h.side_eq_two_mul ▸ h.rows

theorem columns_half (h : Tracks (levels + 1) d b) :
    Frames b.columns d.corner.dst (2 * (d.side >>> 1).toNat) := h.side_eq_two_mul ▸ h.columns

/-- **The step.** A draw takes both descents into the same quadrant. -/
theorem enter (h : Tracks (levels + 1) d b) (t : Thresholds) (x : Float) :
    Tracks levels (d.enter t x) (b.quarter (t.firstAbove x)) := by
  have hlowerRows := h.rows_half.lowerHalf
  have hupperRows := h.rows_half.upperHalf h.half_pos
  have hlowerColumns := h.columns_half.lowerHalf
  have hupperColumns := h.columns_half.upperHalf h.half_pos
  rw [DescentState.enter, t.select_eq_firstAbove]
  cases t.firstAbove x with
  | topLeft => exact ⟨h.half_eq, hlowerRows, hlowerColumns⟩
  | topRight => exact ⟨h.half_eq, hlowerRows, hupperColumns⟩
  | bottomLeft => exact ⟨h.half_eq, hupperRows, hlowerColumns⟩
  | bottomRight => exact ⟨h.half_eq, hupperRows, hupperColumns⟩

/-- **The run.** The two descents stay together through any number of draws. -/
theorem enterAll {draws : List Float} (h : Tracks (levels + draws.length) d b) (t : Thresholds) :
    Tracks levels (d.enterAll t draws) (t.narrow b draws) := by
  induction draws generalizing d b with
  | nil => exact h
  | cons x draws ih => exact ih (h.enter t x)

theorem eq_cell (h : Tracks 0 d b) : b = MatrixBlock.cell d.corner := by
  -- A side of `2 ^ 0` leaves one row and one column.
  have hrows := h.rows.eq_mk
  have hcolumns := h.columns.eq_mk
  rw [h.side_eq, Nat.pow_zero] at hrows hcolumns
  exact congrArg₂ MatrixBlock.mk hrows hcolumns

end Tracks

/-! ## Placing an edge -/

namespace Generator

variable (g : Generator) (s : σ)

/-- The block that the first `k` draws of a source leave of the whole matrix. -/
def blockAfter (k : ℕ) : MatrixBlock :=
  g.probabilities.thresholds.narrow (.whole g.nodeCount.toNat) (draw k s).1

/-- The running sums after the first `k` draws of a source. -/
def stateAfter (k : ℕ) : DescentState :=
  DescentState.enterAll g.probabilities.thresholds ⟨g.nodeCount, ⟨0, 0⟩⟩ (draw k s).1

theorem place_eq : g.place s = ((g.stateAfter s g.levels).corner, skip g.levels s) :=
  (g.place_eq_descend s).trans (descend_eq ..)

variable {g s}

theorem tracks_whole :
    Tracks g.levels ⟨g.nodeCount, ⟨0, 0⟩⟩ (MatrixBlock.whole g.nodeCount.toNat) := by
  have hframes : Frames ⟨0, g.nodeCount.toNat⟩ 0 g.nodeCount.toNat :=
    ⟨rfl, (Nat.zero_add _).symm, Nat.le_of_lt g.nodeCount.toNat_lt⟩
  exact ⟨g.nodeCount_eq, hframes, hframes⟩

theorem tracks_after {k : ℕ} (hk : k ≤ g.levels) :
    Tracks (g.levels - k) (g.stateAfter s k) (g.blockAfter s k) := by
  have hlevels : g.levels - k + (draw k s).1.length = g.levels := by
    rw [length_draw, Nat.sub_add_cancel hk]
  exact (hlevels ▸ tracks_whole).enterAll _

theorem blockAfter_levels : g.blockAfter s g.levels = MatrixBlock.cell (g.place s).1 := by
  have htracks := tracks_after (s := s) (Nat.le_refl g.levels)
  rw [Nat.sub_self] at htracks
  rw [place_eq, htracks.eq_cell]

theorem place_mem_blockAfter {k : ℕ} (hk : k ≤ g.levels) : (g.place s).1 ∈ g.blockAfter s k := by
  obtain ⟨rest, hrest⟩ := exists_draw_append s hk
  -- The edge is in the last block, and the rest of the draws only narrowed the block down to it.
  have hcell : (g.place s).1 ∈ g.blockAfter s g.levels := by
    rw [blockAfter_levels]
    exact MatrixBlock.mem_cell _
  rw [blockAfter, hrest, Thresholds.narrow_append] at hcell
  exact Thresholds.mem_of_mem_narrow hcell

/-- The block after `k` draws is made of those draws alone. -/
theorem blockAfter_congr {τ : Type v} [UniformSource τ] {r : τ} {k : ℕ}
    (h : ∀ i < k, value r i = value s i) : g.blockAfter r k = g.blockAfter s k := by
  rw [blockAfter, blockAfter, draw_congr h]

theorem place_lt_nodeCount : (g.place s).1.src < g.nodeCount ∧ (g.place s).1.dst < g.nodeCount := by
  obtain ⟨hrow, hcolumn⟩ := place_mem_blockAfter (g := g) (s := s) (Nat.zero_le _)
  exact ⟨UInt64.lt_iff_toNat_lt.mpr hrow.2, UInt64.lt_iff_toNat_lt.mpr hcolumn.2⟩

theorem length_blockAfter {k : ℕ} (hk : k ≤ g.levels) :
    (g.blockAfter s k).rows.length = g.nodeCount.toNat / 2 ^ k
      ∧ (g.blockAfter s k).columns.length = g.nodeCount.toNat / 2 ^ k := by
  have htracks := tracks_after (s := s) hk
  have hside : (g.stateAfter s k).side.toNat = g.nodeCount.toNat / 2 ^ k := by
    rw [htracks.side_eq, g.nodeCount_eq, Nat.pow_div hk Nat.two_pos]
  rw [htracks.rows.length_eq, htracks.columns.length_eq, hside]
  exact ⟨rfl, rfl⟩

theorem place_eq_descend_stateAfter {k : ℕ} (hk : k ≤ g.levels) :
    g.place s = descend g.probabilities.thresholds (g.levels - k) (g.stateAfter s k).side
      (g.stateAfter s k).corner (skip k s) := by
  rw [stateAfter, ← descend_add, Nat.add_sub_cancel' hk, place_eq_descend]

theorem stateAfter_add_half_lt {k : ℕ} (hk : k < g.levels) :
    (g.stateAfter s k).corner.src.toNat + ((g.stateAfter s k).side >>> 1).toNat < UInt64.size
      ∧ (g.stateAfter s k).corner.dst.toNat + ((g.stateAfter s k).side >>> 1).toNat
        < UInt64.size := by
  -- A draw is still to come, so the side is a power of two that can be halved.
  obtain ⟨n, hn⟩ : ∃ n, g.levels - k = n + 1 := ⟨g.levels - k - 1, by omega⟩
  have htracks := hn ▸ tracks_after (s := s) (Nat.le_of_lt hk)
  exact ⟨htracks.rows_half.add_half_lt htracks.half_pos,
    htracks.columns_half.add_half_lt htracks.half_pos⟩

/-- **Placing an edge halves ranges.** After `k` draws both ranges have the length of `2 ^ k` equal
parts of the vertices, and the edge of every source with the same first `k` draws lies in them. All
draws together leave the cell of the edge and nothing else; they are as many as there are levels,
the edge stays among the vertices, and no running sum wraps around on the way. -/
theorem place_refines_halving (g : Generator) (s : σ) :
    (∀ k ≤ g.levels,
      (g.blockAfter s k).rows.length = g.nodeCount.toNat / 2 ^ k
        ∧ (g.blockAfter s k).columns.length = g.nodeCount.toNat / 2 ^ k
        ∧ ∀ {τ : Type v} [UniformSource τ] (r : τ), (∀ i < k, value r i = value s i) →
          (g.place r).1 ∈ g.blockAfter s k)
      ∧ g.blockAfter s g.levels = MatrixBlock.cell (g.place s).1
      ∧ g.place s = ((g.stateAfter s g.levels).corner, skip g.levels s)
      ∧ ((g.place s).1.src < g.nodeCount ∧ (g.place s).1.dst < g.nodeCount)
      ∧ ∀ k < g.levels,
        g.place s = descend g.probabilities.thresholds (g.levels - k) (g.stateAfter s k).side
            (g.stateAfter s k).corner (skip k s)
          ∧ (g.stateAfter s k).corner.src.toNat + ((g.stateAfter s k).side >>> 1).toNat
            < UInt64.size
          ∧ (g.stateAfter s k).corner.dst.toNat + ((g.stateAfter s k).side >>> 1).toNat
            < UInt64.size := by
  refine ⟨fun k hk ↦ ?_, blockAfter_levels, g.place_eq s, place_lt_nodeCount,
    fun k hk ↦ ⟨place_eq_descend_stateAfter (Nat.le_of_lt hk), stateAfter_add_half_lt hk⟩⟩
  obtain ⟨hrows, hcolumns⟩ := length_blockAfter (s := s) hk
  refine ⟨hrows, hcolumns, fun r hr ↦ ?_⟩
  rw [← blockAfter_congr hr]
  exact place_mem_blockAfter hk

end Generator

end RecursiveMatrix
