import RecursiveMatrix.Probabilities
import RecursiveMatrix.Random.Source

/-!
# Placing an edge

The adjacency matrix of a graph with `2^levels` vertices is cut into four quadrants, one of them is
chosen, that one is cut into four again, and after `levels` cuts a single cell is left: the edge
from its row to its column.

The descent keeps the top left corner of the block it is in. A quadrant is chosen by one uniform
value, and entering it moves the corner by half the side of the block, down, right, or both.
-/

namespace RecursiveMatrix

/-- One of the four blocks that a block of the adjacency matrix is cut into. -/
inductive Quadrant where
  /-- The upper rows and the left columns. -/
  | topLeft
  /-- The upper rows and the right columns. -/
  | topRight
  /-- The lower rows and the left columns. -/
  | bottomLeft
  /-- The lower rows and the right columns. -/
  | bottomRight
  deriving DecidableEq, Inhabited, Repr

namespace Quadrant

/-- The quadrant holds the lower half of the rows. -/
def isBottom : Quadrant → Bool
  | topLeft | topRight => false
  | bottomLeft | bottomRight => true

/-- The quadrant holds the right half of the columns. -/
def isRight : Quadrant → Bool
  | topLeft | bottomLeft => false
  | topRight | bottomRight => true

/-- The top left cell of a quadrant, from that of the whole block and half its side. -/
def corner (q : Quadrant) (half : UInt64) (block : Edge) : Edge :=
  ⟨if q.isBottom then block.src + half else block.src,
    if q.isRight then block.dst + half else block.dst⟩

end Quadrant

/-- The quadrant that a value chooses: the first one whose threshold it lies below, and otherwise
the last. -/
def Thresholds.select (t : Thresholds) (x : Float) : Quadrant :=
  if x < t.first then .topLeft
  else if x < t.second then .topRight
  else if x < t.third then .bottomLeft
  else .bottomRight

universe u

variable {σ : Type u} [UniformSource σ]

/-- Descends through `levels` cuts of a block of side `side`, with one draw for each of them. -/
def descend (t : Thresholds) : (levels : Nat) → (side : UInt64) → (block : Edge) → σ → Edge × σ
  | 0, _, block, s => (block, s)
  | levels + 1, side, block, s =>
    let half := side >>> 1
    let drawn := UniformSource.next s
    descend t levels half ((t.select drawn.1).corner half block) drawn.2

end RecursiveMatrix
