import RecursiveMatrix.GraphSize
import RecursiveMatrix.Quadrant

/-!
# Generators

A generator knows how many vertices and edges a graph has and with which probabilities its edges
are placed. It places one edge with one draw for every level of the adjacency matrix (`place`), and
hands out the edges of a graph one by one (`EdgeStream`) or all at once (`generate`). Edges are kept
as they fall, loops and repetitions included.

What is kept of a generator is a plain record (`GeneratorRecord`), whose levels are found in the
bits of the number of vertices or taken over from a size. Either way its fields belong together, and
a `Generator` is a record of which that is known.
-/

namespace RecursiveMatrix

-- Powers are those of `Nat.pow`, whatever other instances are in scope.
attribute [local instance (high)] instPowNat

/-- What is kept of a generator, worked out once. -/
structure GeneratorRecord where
  /-- The number of vertices. -/
  nodeCount : UInt64
  /-- The number of edges. -/
  edgeCount : UInt64
  /-- The number of draws for an edge. -/
  levels : UInt32
  /-- The probabilities of the quadrants. -/
  probabilities : Probabilities
  /-- What draws are compared with. -/
  thresholds : Thresholds
  deriving DecidableEq

universe u

namespace GeneratorRecord

/-- The record for the given numbers of vertices and edges. The bits of the former are looked at, to
see whether it can be halved down to one vertex and how often. -/
def ofCounts (nodes edges : UInt64) (p : Probabilities) : Except Failure GeneratorRecord :=
  if onesCount nodes = 1 then .ok ⟨nodes, edges, trailingZeros nodes, p, p.thresholds⟩
  else .error (.rejected (.notPowerOfTwo nodes.toNat))

/-- The record for a graph of the given size. -/
def ofSize (size : GraphSize) (p : Probabilities) : GeneratorRecord :=
  ⟨size.nodeCount, size.edgeCount, size.scale, p, p.thresholds⟩

/-- Places an edge, with one draw for each level. -/
def place {σ : Type u} [UniformSource σ] (r : GeneratorRecord) (s : σ) : Edge × σ :=
  descend r.thresholds r.levels.toNat r.nodeCount ⟨0, 0⟩ s

/-- The fields of a record belong together. -/
structure IsCoherent (r : GeneratorRecord) : Prop where
  /-- Cutting the adjacency matrix that often leaves single cells. -/
  nodeCount_eq : r.nodeCount.toNat = 2 ^ r.levels.toNat
  /-- The thresholds are those of the probabilities. -/
  thresholds_eq : r.thresholds = r.probabilities.thresholds

theorem isCoherent_of_ofCounts {nodes edges : UInt64} {p : Probabilities} {r : GeneratorRecord}
    (h : ofCounts nodes edges p = .ok r) : r.IsCoherent := by
  rw [ofCounts] at h
  split at h
  next hone =>
    obtain ⟨levels, -, hpow⟩ := onesCount_eq_one_iff.mp hone
    obtain rfl := Except.ok.inj h
    refine ⟨?_, rfl⟩
    rw [toNat_trailingZeros hpow, hpow]
  next => cases h

/-- The number of vertices decides the number of levels, and the probabilities the thresholds. So a
record whose fields belong together is the one of its counts. -/
theorem IsCoherent.ofCounts_eq_ok {r : GeneratorRecord} (h : r.IsCoherent) :
    ofCounts r.nodeCount r.edgeCount r.probabilities = .ok r := by
  have hone : onesCount r.nodeCount = 1 :=
    onesCount_eq_one_iff.mpr ⟨_, le_of_toNat_eq_two_pow h.nodeCount_eq, h.nodeCount_eq⟩
  have hlevels : trailingZeros r.nodeCount = r.levels :=
    UInt32.toNat_inj.mp (toNat_trailingZeros h.nodeCount_eq)
  rw [ofCounts, if_pos hone, hlevels, ← h.thresholds_eq]

theorem isCoherent_ofSize (size : GraphSize) (p : Probabilities) : (ofSize size p).IsCoherent :=
  ⟨size.nodeCount_toNat, rfl⟩

end GeneratorRecord

/-- A generator of graphs. -/
structure Generator where
  /-- What is kept of it. -/
  record : GeneratorRecord
  /-- The fields of the record belong together. -/
  coherent : record.IsCoherent
  deriving DecidableEq

namespace Generator

/-- A generator of graphs with the given numbers of vertices and edges. Only a power of two can be
halved down to one vertex. -/
def ofCounts (nodes edges : UInt64) (p : Probabilities) : Except Failure Generator :=
  match h : GeneratorRecord.ofCounts nodes edges p with
  | .ok record => .ok ⟨record, GeneratorRecord.isCoherent_of_ofCounts h⟩
  | .error failure => .error failure

theorem map_record_ofCounts (nodes edges : UInt64) (p : Probabilities) :
    (ofCounts nodes edges p).map record = GeneratorRecord.ofCounts nodes edges p := by
  rw [ofCounts]
  split
  next h => exact h.symm
  next h => exact h.symm

/-- A generator of graphs of the given size. -/
def ofSize (size : GraphSize) (p : Probabilities) : Generator :=
  ⟨.ofSize size p, GeneratorRecord.isCoherent_ofSize size p⟩

variable (g : Generator)

def nodeCount : UInt64 := g.record.nodeCount

def edgeCount : UInt64 := g.record.edgeCount

def probabilities : Probabilities := g.record.probabilities

/-- The number of times the adjacency matrix can be cut into quadrants. -/
def levels : Nat := g.record.levels.toNat

theorem nodeCount_eq : g.nodeCount.toNat = 2 ^ g.levels := g.coherent.nodeCount_eq

/-- No generator is out of reach. -/
theorem ofCounts_self : ofCounts g.nodeCount g.edgeCount g.probabilities = .ok g := by
  have hrecord : GeneratorRecord.ofCounts g.nodeCount g.edgeCount g.probabilities = .ok g.record :=
    g.coherent.ofCounts_eq_ok
  rw [ofCounts]
  split
  next h =>
    obtain rfl := Except.ok.inj (hrecord.symm.trans h)
    rfl
  next h => cases hrecord.symm.trans h

variable {σ : Type u} [UniformSource σ]

def place (s : σ) : Edge × σ := g.record.place s

theorem place_eq_descend (s : σ) :
    g.place s = descend g.probabilities.thresholds g.levels g.nodeCount ⟨0, 0⟩ s := by
  rw [place, GeneratorRecord.place, g.coherent.thresholds_eq]
  rfl

end Generator

/-- Edges still to be placed, drawn from a source when they are asked for. -/
structure EdgeStream (σ : Type u) where
  /-- Places the edges. -/
  generator : Generator
  /-- Where their draws come from. -/
  source : σ
  /-- How many edges are still to come. -/
  remaining : UInt64

namespace EdgeStream

variable {σ : Type u} [UniformSource σ]

/-- The next edge and the edges after it, unless none are left. -/
def next? (edges : EdgeStream σ) : Option (Edge × EdgeStream σ) :=
  if edges.remaining = 0 then none
  else
    let placed := edges.generator.place edges.source
    some (placed.1, { edges with source := placed.2, remaining := edges.remaining - 1 })

/-- A lower and an upper bound on the number of edges to come. -/
def sizeHint (edges : EdgeStream σ) : UInt64 × Option UInt64 :=
  (edges.remaining, some edges.remaining)

/-- Takes up to `k` edges, and puts them after the edges taken earlier, which are given with the
latest first. -/
def takeOnto (earlier : List Edge) : Nat → EdgeStream σ → List Edge × EdgeStream σ
  | 0, edges => (earlier.reverse, edges)
  | k + 1, edges =>
    match edges.next? with
    | none => (earlier.reverse, edges)
    | some (e, rest) => takeOnto (e :: earlier) k rest

def take (k : Nat) (edges : EdgeStream σ) : List Edge × EdgeStream σ := takeOnto [] k edges

def toList (edges : EdgeStream σ) : List Edge × σ :=
  let taken := edges.take edges.remaining.toNat
  (taken.1, taken.2.source)

theorem length_takeOnto (earlier : List Edge) (k : Nat) (edges : EdgeStream σ) :
    (takeOnto earlier k edges).1.length = earlier.length + min k edges.remaining.toNat := by
  induction k generalizing earlier edges with
  | zero => simp [takeOnto]
  | succ k ih =>
    rw [takeOnto, next?]
    by_cases h : edges.remaining = 0
    · simp [h]
    · have hpos : 0 < edges.remaining.toNat :=
        Nat.pos_of_ne_zero fun h0 ↦ h (UInt64.toNat_inj.mp h0)
      have hpred : (edges.remaining - 1).toNat = edges.remaining.toNat - 1 :=
        UInt64.toNat_sub_of_le _ _ (UInt64.le_iff_toNat_le.mpr hpos)
      simp only [if_neg h, ih, hpred, List.length_cons]
      omega

theorem length_toList (edges : EdgeStream σ) :
    edges.toList.1.length = edges.remaining.toNat := by
  simp [toList, take, length_takeOnto]

end EdgeStream

namespace Generator

variable {σ : Type u} [UniformSource σ]

/-- The first `count` edges that a source gives, still to be placed. -/
def firstEdges (g : Generator) (count : UInt64) (s : σ) : EdgeStream σ := ⟨g, s, count⟩

/-- The edges of a graph, still to be placed. -/
def edges (g : Generator) (s : σ) : EdgeStream σ := g.firstEdges g.edgeCount s

def generate (g : Generator) (s : σ) : List Edge × σ := (g.edges s).toList

end Generator

end RecursiveMatrix
