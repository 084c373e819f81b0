import Mathlib.Data.Set.Function
import RecursiveMatrix.Proofs.Descent

/-!
# Paths through the quadrants

What a descent does with its draws is to choose quadrants, and nothing else of them reaches the edge
(`Generator.place_eq_cellAt`). This file is about the quadrants alone: a path is a list of them, one
for each level, and it ends at a cell of the adjacency matrix (`Generator.cellAt`).

## Two numbers, written down from the left

A quadrant is a half of the rows and a half of the columns, and the two are chosen independently. So
a descent is two searches that halve a range side by side (`DescentState.corner_follow`). Such a
search writes down the index that it ends at, one binary digit with each halving and the highest
digit first (`toNat_halving`): the half that it adds to its sum is the weight of the digit.

A number below `2 ^ n` has exactly one such writing with `n` digits. That is why no two paths end at
the same cell, and why there is a path to every cell (`Generator.paths_reach_every_cell_once`).
-/

namespace RecursiveMatrix

-- Powers are those of `Nat.pow`, whatever other instances are in scope.
attribute [local instance (high)] instPowNat

open UniformSource

/-! ## Quadrants as pairs of halves -/

namespace Quadrant

/-- The quadrant that holds the lower rows or the upper ones, and the right columns or the left
ones. -/
def ofHalves : (bottom right : Bool) → Quadrant
  | false, false => topLeft
  | false, true => topRight
  | true, false => bottomLeft
  | true, true => bottomRight

@[simp] theorem isBottom_ofHalves (b r : Bool) : (ofHalves b r).isBottom = b := by
  cases b <;> cases r <;> rfl

@[simp] theorem isRight_ofHalves (b r : Bool) : (ofHalves b r).isRight = r := by
  cases b <;> cases r <;> rfl

variable {p q : Quadrant}

theorem eq_of_halves_eq (hbottom : p.isBottom = q.isBottom) (hright : p.isRight = q.isRight) :
    p = q := by
  revert hbottom hright
  cases p <;> cases q <;> decide

theorem isBottom_iff : q.isBottom = true ↔ q = .bottomLeft ∨ q = .bottomRight := by
  cases q <;> decide

theorem isRight_iff : q.isRight = true ↔ q = .topRight ∨ q = .bottomRight := by
  cases q <;> decide

end Quadrant

/-! ## Halving a range -/

/-- Where the range is left to begin that has `side` indices from `first` on and is halved again and
again. Each time either the upper half or the lower one is kept. -/
def halving (side first : UInt64) : (uppers : List Bool) → UInt64
  | [] => first
  | upper :: uppers =>
    halving (side >>> 1) (if upper then first + side >>> 1 else first) uppers

/-- The number with the given binary digits, the highest one first. -/
def binary (digits : List Bool) : ℕ := (BitVec.ofBoolListBE digits).toNat

theorem binary_cons (digit : Bool) (digits : List Bool) :
    binary (digit :: digits) = digit.toNat <<< digits.length + binary digits := BitVec.toNat_cons'

section Digits

variable {width : ℕ}

theorem binary_lt {digits : List Bool} (h : digits.length = width) : binary digits < 2 ^ width :=
  h ▸ (BitVec.ofBoolListBE digits).isLt

theorem testBit_binary {digits : List Bool} (h : digits.length = width) {i : ℕ}
    (hi : i < digits.length) : (binary digits).testBit (width - 1 - i) = digits[i] := by
  subst h
  have hdigit := @BitVec.getMsbD_ofBoolListBE digits i
  rwa [BitVec.getMsbD_eq_getLsbD, decide_eq_true hi, Bool.true_and, ← BitVec.testBit_toNat,
    List.getD_eq_getElem?_getD, List.getElem?_eq_getElem hi, Option.getD_some] at hdigit

/-- The digits of a number, the highest one first. -/
def digitsOf (width n : ℕ) : List Bool := (List.range width).map fun i ↦ n.testBit (width - 1 - i)

theorem length_digitsOf (width n : ℕ) : (digitsOf width n).length = width := by
  rw [digitsOf, List.length_map, List.length_range]

theorem binary_digitsOf {n : ℕ} (hn : n < 2 ^ width) : binary (digitsOf width n) = n := by
  have hlength := length_digitsOf width n
  refine Nat.eq_of_testBit_eq fun j ↦ ?_
  rcases Nat.lt_or_ge j width with hj | hj
  · have hi : width - 1 - j < (digitsOf width n).length := by omega
    have hback : width - 1 - (width - 1 - j) = j := by omega
    have hdigit := testBit_binary hlength hi
    simp only [digitsOf, List.getElem_map, List.getElem_range] at hdigit
    rwa [hback] at hdigit
  · have hpow : 2 ^ width ≤ 2 ^ j := Nat.pow_le_pow_right Nat.two_pos hj
    rw [Nat.testBit_lt_two_pow ((binary_lt hlength).trans_le hpow),
      Nat.testBit_lt_two_pow (hn.trans_le hpow)]

end Digits

/-- **The halves are binary digits.** As many halvings as there are in the side write down the
distance from the beginning, the highest digit first. -/
theorem toNat_halving {side first : UInt64} {uppers : List Bool}
    (hside : side.toNat = 2 ^ uppers.length)
    (hfits : first.toNat + 2 ^ uppers.length ≤ UInt64.size) :
    (halving side first uppers).toNat = first.toNat + binary uppers := by
  induction uppers generalizing side first with
  | nil => rfl
  | cons upper uppers ih =>
    rw [List.length_cons, Nat.pow_succ] at hside hfits
    have hhalf : (side >>> 1).toNat = 2 ^ uppers.length := by
      rw [toNat_shiftRight_one, hside, Nat.mul_div_cancel _ Nat.two_pos]
    have hpos : 0 < 2 ^ uppers.length := Nat.two_pow_pos _
    rw [halving, binary_cons]
    cases upper with
    | false =>
      rw [if_neg Bool.false_ne_true, ih hhalf (by omega), Bool.toNat_false, Nat.zero_shiftLeft,
        Nat.zero_add]
    | true =>
      have hsum : (first + side >>> 1).toNat = first.toNat + 2 ^ uppers.length := by
        rw [UInt64.toNat_add, hhalf, Nat.mod_eq_of_lt]
        exact Nat.lt_of_lt_of_le (by omega) hfits
      rw [if_pos rfl, ih hhalf (by omega), hsum, Bool.toNat_true, Nat.one_shiftLeft, Nat.add_assoc]

/-! ## Descents along a path -/

namespace DescentState

/-- Enters a quadrant. -/
def into (d : DescentState) (q : Quadrant) : DescentState :=
  ⟨d.side >>> 1, q.corner (d.side >>> 1) d.corner⟩

def follow (d : DescentState) (path : List Quadrant) : DescentState := path.foldl into d

theorem enterAll_eq_follow (t : Thresholds) (d : DescentState) (draws : List Float) :
    d.enterAll t draws = d.follow (draws.map t.select) := by
  rw [follow, List.foldl_map]
  rfl

theorem corner_follow (d : DescentState) (path : List Quadrant) :
    (d.follow path).corner
      = ⟨halving d.side d.corner.src (path.map Quadrant.isBottom),
        halving d.side d.corner.dst (path.map Quadrant.isRight)⟩ := by
  induction path generalizing d with
  | nil => rfl
  | cons q path ih => exact ih (d.into q)

end DescentState

/-! ## Cells -/

universe u v

namespace Generator

variable {g : Generator} {path : List Quadrant}

/-- The cell at the end of a path. -/
def cellAt (g : Generator) (path : List Quadrant) : Edge :=
  (DescentState.follow ⟨g.nodeCount, ⟨0, 0⟩⟩ path).corner

/-- The quadrants that a source chooses, one for each level. -/
def choices {σ : Type u} [UniformSource σ] (g : Generator) (s : σ) : List Quadrant :=
  (List.range g.levels).map fun i ↦ g.probabilities.thresholds.select (value s i)

theorem length_choices {σ : Type u} [UniformSource σ] (g : Generator) (s : σ) :
    (g.choices s).length = g.levels := by rw [choices, List.length_map, List.length_range]

theorem place_eq_cellAt {σ : Type u} [UniformSource σ] (g : Generator) (s : σ) :
    (g.place s).1 = g.cellAt (g.choices s) := by
  rw [place_eq, stateAfter, DescentState.enterAll_eq_follow, draw_eq, List.map_map]
  rfl

theorem toNat_halving_nodeCount {uppers : List Bool} (h : uppers.length = g.levels) :
    (halving g.nodeCount 0 uppers).toNat = binary uppers := by
  have hside : g.nodeCount.toNat = 2 ^ uppers.length := by rw [h, g.nodeCount_eq]
  have hfits : (0 : UInt64).toNat + 2 ^ uppers.length ≤ UInt64.size := by
    rw [← hside, UInt64.toNat_zero, Nat.zero_add]
    exact Nat.le_of_lt g.nodeCount.toNat_lt
  rw [toNat_halving hside hfits, UInt64.toNat_zero, Nat.zero_add]

theorem length_map_half (h : path.length = g.levels) (half : Quadrant → Bool) :
    (path.map half).length = g.levels := by rw [List.length_map, h]

theorem toNat_cellAt (h : path.length = g.levels) :
    (g.cellAt path).src.toNat = binary (path.map Quadrant.isBottom)
      ∧ (g.cellAt path).dst.toNat = binary (path.map Quadrant.isRight) := by
  rw [cellAt, DescentState.corner_follow]
  exact ⟨toNat_halving_nodeCount (length_map_half h _),
    toNat_halving_nodeCount (length_map_half h _)⟩

theorem cellAt_lt (h : path.length = g.levels) :
    (g.cellAt path).src.toNat < 2 ^ g.levels ∧ (g.cellAt path).dst.toNat < 2 ^ g.levels := by
  obtain ⟨hrow, hcolumn⟩ := toNat_cellAt h
  rw [hrow, hcolumn]
  exact ⟨binary_lt (length_map_half h _), binary_lt (length_map_half h _)⟩

/-- Each digit of the row and of the column says which half the quadrant of its level is. -/
theorem testBit_cellAt (h : path.length = g.levels) {i : ℕ} (hi : i < path.length) :
    (g.cellAt path).src.toNat.testBit (g.levels - 1 - i) = path[i].isBottom
      ∧ (g.cellAt path).dst.toNat.testBit (g.levels - 1 - i) = path[i].isRight := by
  have hdigit (half : Quadrant → Bool) :
      (binary (path.map half)).testBit (g.levels - 1 - i) = half path[i] := by
    have hi' : i < (path.map half).length := by rwa [List.length_map]
    rw [testBit_binary (length_map_half h half) hi', List.getElem_map]
  obtain ⟨hrow, hcolumn⟩ := toNat_cellAt h
  rw [hrow, hcolumn]
  exact ⟨hdigit _, hdigit _⟩

theorem eq_of_cellAt_eq {path' : List Quadrant} (h : path.length = g.levels)
    (h' : path'.length = g.levels) (heq : g.cellAt path = g.cellAt path') : path = path' := by
  refine List.ext_getElem (h.trans h'.symm) fun i hi hi' ↦ ?_
  obtain ⟨hbottom, hright⟩ := testBit_cellAt h hi
  obtain ⟨hbottom', hright'⟩ := testBit_cellAt h' hi'
  rw [heq] at hbottom hright
  exact Quadrant.eq_of_halves_eq (hbottom.symm.trans hbottom') (hright.symm.trans hright')

/-- The path to a cell, from the digits of its row and its column. -/
def pathTo (g : Generator) (e : Edge) : List Quadrant :=
  (List.range g.levels).map fun i ↦
    .ofHalves (e.src.toNat.testBit (g.levels - 1 - i)) (e.dst.toNat.testBit (g.levels - 1 - i))

theorem length_pathTo (g : Generator) (e : Edge) : (g.pathTo e).length = g.levels := by
  rw [pathTo, List.length_map, List.length_range]

theorem cellAt_pathTo {e : Edge} (hsrc : e.src.toNat < 2 ^ g.levels)
    (hdst : e.dst.toNat < 2 ^ g.levels) : g.cellAt (g.pathTo e) = e := by
  obtain ⟨hrow, hcolumn⟩ := toNat_cellAt (g.length_pathTo e)
  have hbottom : (g.pathTo e).map Quadrant.isBottom = digitsOf g.levels e.src.toNat := by
    simp [pathTo, digitsOf]
  have hright : (g.pathTo e).map Quadrant.isRight = digitsOf g.levels e.dst.toNat := by
    simp [pathTo, digitsOf]
  rw [hbottom, binary_digitsOf hsrc] at hrow
  rw [hright, binary_digitsOf hdst] at hcolumn
  generalize g.cellAt (g.pathTo e) = cell at hrow hcolumn
  exact congrArg₂ Edge.mk (UInt64.toNat_inj.mp hrow) (UInt64.toNat_inj.mp hcolumn)

theorem place_eq_place_iff {σ : Type u} [UniformSource σ] {τ : Type v} [UniformSource τ] {s : σ}
    {r : τ} :
    (g.place s).1 = (g.place r).1
      ↔ ∀ i < g.levels, g.probabilities.thresholds.select (value s i)
        = g.probabilities.thresholds.select (value r i) := by
  have hpaths : (g.place s).1 = (g.place r).1 ↔ g.choices s = g.choices r := by
    rw [place_eq_cellAt, place_eq_cellAt]
    exact ⟨eq_of_cellAt_eq (g.length_choices s) (g.length_choices r), congrArg g.cellAt⟩
  rw [hpaths, choices, choices, List.map_inj_left]
  simp only [List.mem_range]

/-- **Every cell is reached by one path.** The paths of the generator's length match the cells of
the adjacency matrix one to one. An edge is placed in the cell at the end of the path that its draws
choose, so two edges are the same exactly if their draws choose the same quadrant at every level.
Of the digits of the row, the highest one first, those are set whose quadrant is one of the lower
two, and of the digits of the column those whose quadrant is one of the right two. -/
theorem paths_reach_every_cell_once (g : Generator) :
    Set.BijOn g.cellAt {path | path.length = g.levels}
        {e | e.src.toNat < 2 ^ g.levels ∧ e.dst.toNat < 2 ^ g.levels}
      ∧ (∀ {σ : Type u} [UniformSource σ] (s : σ), (g.place s).1 = g.cellAt (g.choices s))
      ∧ (∀ {σ : Type u} [UniformSource σ] {τ : Type v} [UniformSource τ] (s : σ) (r : τ),
        (g.place s).1 = (g.place r).1
          ↔ ∀ i < g.levels, g.probabilities.thresholds.select (value s i)
            = g.probabilities.thresholds.select (value r i))
      ∧ ∀ path : List Quadrant, path.length = g.levels → ∀ (i : ℕ) (hi : i < path.length),
        ((g.cellAt path).src.toNat.testBit (g.levels - 1 - i) = true
            ↔ path[i] = .bottomLeft ∨ path[i] = .bottomRight)
          ∧ ((g.cellAt path).dst.toNat.testBit (g.levels - 1 - i) = true
            ↔ path[i] = .topRight ∨ path[i] = .bottomRight) := by
  refine ⟨⟨fun path h ↦ cellAt_lt h, fun path h path' h' ↦ eq_of_cellAt_eq h h', ?_⟩,
    fun s ↦ g.place_eq_cellAt s, fun s r ↦ place_eq_place_iff, ?_⟩
  · rintro e ⟨hsrc, hdst⟩
    exact ⟨g.pathTo e, g.length_pathTo e, cellAt_pathTo hsrc hdst⟩
  · intro path h i hi
    obtain ⟨hrow, hcolumn⟩ := testBit_cellAt h hi
    rw [hrow, hcolumn]
    exact ⟨Quadrant.isBottom_iff, Quadrant.isRight_iff⟩

end Generator

end RecursiveMatrix
