/-!
# Vertices and edges

A graph is a list of directed edges between vertices, and a vertex is a 64-bit index. Lists keep
repeated edges and their order: a generated graph is a multigraph, and its file lists it in the
order of generation.
-/

namespace RecursiveMatrix

/-- A vertex, counted from zero. -/
abbrev Vertex := UInt64

/-- A directed edge. -/
structure Edge where
  /-- Where the edge starts; the row of the adjacency matrix. -/
  src : Vertex
  /-- Where the edge ends; the column of the adjacency matrix. -/
  dst : Vertex
  deriving DecidableEq, Hashable, Inhabited, Repr

namespace Edge

/-- The edge starts and ends at one vertex. -/
def isLoop (e : Edge) : Bool := e.src == e.dst

def reverse (e : Edge) : Edge := ⟨e.dst, e.src⟩

/-- Both ends of the edge are among the vertices `0, …, n - 1`. -/
def within (n : Nat) (e : Edge) : Bool := decide (e.src.toNat < n) && decide (e.dst.toNat < n)

theorem isLoop_iff {e : Edge} : e.isLoop = true ↔ e.src = e.dst := by simp [isLoop]

theorem within_iff {n : Nat} {e : Edge} :
    e.within n = true ↔ e.src.toNat < n ∧ e.dst.toNat < n := by simp [within]

end Edge

/-- One more than the larger end of every edge, and the largest of these numbers: the fewest
vertices `0, …, n - 1` that hold both ends of every edge. They are words, so an edge that ends at
the last word gives zero. -/
def vertexBound (edges : List Edge) : UInt64 :=
  edges.foldl (fun n e ↦ max n (max e.src e.dst + 1)) 0

end RecursiveMatrix
