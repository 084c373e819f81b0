import RecursiveMatrix.Bits
import RecursiveMatrix.Failure

/-!
# The size of a graph

A graph of scale `s` has `2^s` vertices. It has `edgeFactor` edges per vertex, but never more than
there are pairs of vertices. With the usual edge factors the cap only matters for the smallest
scales; a single vertex has no edges at all.

The numbers of vertices and edges are 64-bit words, and the latter are worked out in words of 128
bits, which hold all that comes up on the way (`wideEdgeCount`). `cappedEdgeCount` is the number
itself (`toNat_wideEdgeCount`). A size is accepted only if it fits a word of 64 bits, so that
nothing is lost when the others are dropped (`GraphSize.edgeCount_toNat`).
-/

namespace RecursiveMatrix

-- Powers are those of `Nat.pow`, whatever other instances are in scope.
attribute [local instance (high)] instPowNat

def maxScale : Nat := 48

/-- The edges per vertex where nothing else is asked for. -/
def standardEdgeFactor : UInt64 := 16

/-- The number of edges of a graph: `edgeFactor` per vertex, and at most one per pair of
vertices. -/
def cappedEdgeCount (scale edgeFactor : Nat) : Nat :=
  min (2 ^ scale * edgeFactor) (2 ^ scale * (2 ^ scale - 1) / 2)

/-- The number of vertices of a graph, for the scales that are supported. -/
def nodesOf (scale : UInt32) : UInt64 := 1 <<< scale.toUInt64

theorem toNat_nodesOf {scale : UInt32} (h : scale.toNat ≤ maxScale) :
    (nodesOf scale).toNat = 2 ^ scale.toNat :=
  toNat_one_shiftLeft (Nat.lt_of_le_of_lt h (by decide))

/-- The number of edges in words of 128 bits. -/
def wideEdgeCount (nodes edgeFactor : UInt64) : BitVec 128 :=
  let byFactor := widen nodes * widen edgeFactor
  let pairs := widen nodes * (widen nodes - 1) / 2
  if byFactor ≤ pairs then byFactor else pairs

/-- No operation goes past the 128 bits. -/
theorem toNat_wideEdgeCount_of_pos {nodes : UInt64} (h : 1 ≤ nodes.toNat) (edgeFactor : UInt64) :
    (wideEdgeCount nodes edgeFactor).toNat
      = min (nodes.toNat * edgeFactor.toNat) (nodes.toNat * (nodes.toNat - 1) / 2) := by
  have hle : (1 : UInt64) ≤ nodes := UInt64.le_iff_toNat_le.mpr h
  have hpred : (nodes - 1).toNat = nodes.toNat - 1 := UInt64.toNat_sub_of_le _ _ hle
  have hsub : widen nodes - 1 = widen (nodes - 1) := by
    have hone : (1 : BitVec 128) ≤ widen nodes := by rwa [BitVec.le_def, toNat_widen]
    apply BitVec.eq_of_toNat_eq
    rw [BitVec.toNat_sub_of_le hone, toNat_widen, toNat_widen, hpred]
    rfl
  have hpairs : (widen nodes * (widen nodes - 1) / 2).toNat
      = nodes.toNat * (nodes.toNat - 1) / 2 := by
    rw [BitVec.toNat_udiv, hsub, toNat_widen_mul, hpred]
    rfl
  rw [wideEdgeCount, apply_ite BitVec.toNat, hpairs, toNat_widen_mul, Nat.min_def]
  simp only [BitVec.le_def, hpairs, toNat_widen_mul]

theorem toNat_wideEdgeCount {scale : UInt32} (h : scale.toNat ≤ maxScale) (edgeFactor : UInt64) :
    (wideEdgeCount (nodesOf scale) edgeFactor).toNat
      = cappedEdgeCount scale.toNat edgeFactor.toNat := by
  have hpos : 1 ≤ (nodesOf scale).toNat := toNat_nodesOf h ▸ Nat.two_pow_pos scale.toNat
  rw [toNat_wideEdgeCount_of_pos hpos, toNat_nodesOf h, cappedEdgeCount]

/-- A size that a graph can have. -/
structure GraphSize where
  /-- The number of vertices, as a power of two. -/
  scale : UInt32
  /-- The number of edges per vertex before the cap. -/
  edgeFactor : UInt64
  /-- The scale is supported. -/
  scale_le : scale.toNat ≤ maxScale
  /-- The number of edges fits a word. -/
  edges_lt : cappedEdgeCount scale.toNat edgeFactor.toNat < UInt64.size
  deriving DecidableEq

namespace GraphSize

/-- The size of the given scale and edge factor. The scale is checked first, then that there is an
edge factor, and then that the edges can be counted. -/
def ofScale (scale : UInt32) (edgeFactor : UInt64) : Except Failure GraphSize :=
  if hs : scale.toNat ≤ maxScale then
    if edgeFactor = 0 then .error (.rejected .zeroEdgeFactor)
    else if hc : (wideEdgeCount (nodesOf scale) edgeFactor).toNat < UInt64.size then
      .ok ⟨scale, edgeFactor, hs, toNat_wideEdgeCount hs edgeFactor ▸ hc⟩
    else .error (.rejected (.edgeFactorTooLarge edgeFactor.toNat scale.toNat))
  else .error (.rejected (.scaleTooLarge scale.toNat maxScale))

def nodeCount (size : GraphSize) : UInt64 := nodesOf size.scale

def edgeCount (size : GraphSize) : UInt64 :=
  .ofBitVec ((wideEdgeCount size.nodeCount size.edgeFactor).setWidth 64)

theorem nodeCount_toNat (size : GraphSize) : size.nodeCount.toNat = 2 ^ size.scale.toNat :=
  toNat_nodesOf size.scale_le

/-- The bits that are dropped are not set. -/
theorem edgeCount_toNat (size : GraphSize) :
    size.edgeCount.toNat = cappedEdgeCount size.scale.toNat size.edgeFactor.toNat := by
  rw [edgeCount, UInt64.toNat_ofBitVec, BitVec.toNat_setWidth, nodeCount,
    toNat_wideEdgeCount size.scale_le, Nat.mod_eq_of_lt size.edges_lt]

end GraphSize

end RecursiveMatrix
