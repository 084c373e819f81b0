import RecursiveMatrix.Edge
import Std.Data.HashMap

/-!
# Weakly connected components

Two vertices are connected if edges lead from one to the other, whichever way each of them is run.
The vertices fall into classes of connected ones, and every edge merges the classes of its ends.

`Classes` gives each vertex a label, which is the same for two vertices exactly when they are in one
class. Before any edge is looked at every vertex is a class of its own, labelled by itself, and
nothing is stored for it; so only the vertices that edges touch take any room. When two classes are
merged, the smaller one takes the label of the larger one. Each merge leaves one class fewer.
-/

namespace RecursiveMatrix

/-- The vertices of one class. -/
structure VertexClass where
  /-- How many there are. -/
  size : Nat
  /-- The vertices. -/
  vertices : List Vertex

namespace VertexClass

def singleton (v : Vertex) : VertexClass := ⟨1, [v]⟩

/-- Two classes together. -/
def union (small large : VertexClass) : VertexClass :=
  ⟨small.size + large.size, small.vertices ++ large.vertices⟩

end VertexClass

/-- The classes that edges have made so far. -/
structure Classes where
  /-- The labels of the vertices that are not labelled by themselves. -/
  labels : Std.HashMap Vertex Vertex
  /-- The classes of more than one vertex, by label. -/
  classes : Std.HashMap Vertex VertexClass
  /-- How often two classes have been merged. -/
  merges : Nat

namespace Classes

/-- Every vertex is a class of its own. -/
def discrete : Classes := ⟨∅, ∅, 0⟩

def label (p : Classes) (v : Vertex) : Vertex := p.labels.getD v v

def classOf (p : Classes) (label : Vertex) : VertexClass :=
  p.classes.getD label (.singleton label)

/-- Gives the class labelled `old` the label `new`, which is that of another class. -/
def relabel (p : Classes) (old new : Vertex) : Classes :=
  let moved := p.classOf old
  { labels := moved.vertices.foldl (fun labels v ↦ labels.insert v new) p.labels
    classes := p.classes.insert new (moved.union (p.classOf new))
    merges := p.merges + 1 }

def connect (p : Classes) (v w : Vertex) : Classes :=
  let a := p.label v
  let b := p.label w
  if a = b then p
  else if (p.classOf a).size ≤ (p.classOf b).size then p.relabel a b
  else p.relabel b a

/-- The classes that a list of edges makes. -/
def ofEdges (edges : List Edge) : Classes := edges.foldl (fun p e ↦ p.connect e.src e.dst) discrete

end Classes

/-- The number of weakly connected components of the graph with vertices `0, …, nodes - 1`. A vertex
without edges is a component. -/
def weakComponents (nodes : Nat) (edges : List Edge) : Nat := nodes - (Classes.ofEdges edges).merges

end RecursiveMatrix
