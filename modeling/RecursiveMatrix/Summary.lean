import RecursiveMatrix.Failure
import RecursiveMatrix.Summary.Components
import Std.Data.HashSet

/-!
# Summaries

A summary says how many vertices, edges, loops, distinct edges and components a graph has, and how
many edges the busiest vertex sends and receives. Repeated edges count as often as they occur; a
loop counts once among the edges sent and once among those received.

A program reads a summary off a graph that it builds, and the edges of that graph are numbered with
32 bits. An edge without a number breaks the program off, and nothing looks for it beforehand
(`Summary.summarise?`).
-/

namespace RecursiveMatrix

/-- How many vertices 32 bits can number, and how many edges: the last number stands for none. -/
def indexLimit : Nat := UInt32.size - 1

/-- Graphs with at least this many vertices are not summarised. -/
def summaryLimit : Nat := UInt32.size - 1

/-- How often the most frequent vertex of a list occurs. The fold keeps the number of occurrences of
every vertex met so far, and the largest of them. -/
def maxMultiplicity (vertices : List Vertex) : Nat :=
  (vertices.foldl
    (fun (acc : Std.HashMap Vertex Nat × Nat) v ↦
      let n := acc.1.getD v 0 + 1
      (acc.1.insert v n, max acc.2 n))
    (∅, 0)).2

/-- What a graph looks like from afar. -/
structure Summary where
  /-- The number of vertices. -/
  nodes : Nat
  /-- The number of edges. -/
  edges : Nat
  /-- The number of edges without their repetitions. -/
  distinctEdges : Nat
  /-- The number of edges that end where they start. -/
  selfLoops : Nat
  /-- The largest number of edges that one vertex sends. -/
  maxOutDegree : Nat
  /-- The largest number of edges that one vertex receives. -/
  maxInDegree : Nat
  /-- The number of components, whichever way the edges run. -/
  weakComponents : Nat
  deriving DecidableEq, Repr

namespace Summary

/-- Summarises the graph with vertices `0, …, nodes - 1`. The size is checked first, and then that
all edges stay among the vertices. -/
def ofEdges (nodes : Nat) (edges : List Edge) : Except Failure Summary :=
  if summaryLimit ≤ nodes then .error (.oversized nodes)
  else
    match edges.find? fun e ↦ !e.within nodes with
    | some e => .error (.rejected (.edgeOutside e nodes))
    | none =>
      .ok
        { nodes
          edges := edges.length
          distinctEdges := (Std.HashSet.ofList edges).size
          selfLoops := edges.countP Edge.isLoop
          maxOutDegree := maxMultiplicity (edges.map Edge.src)
          maxInDegree := maxMultiplicity (edges.map Edge.dst)
          weakComponents := RecursiveMatrix.weakComponents nodes edges }

theorem ofEdges_eq_ok_iff {nodes : Nat} {edges : List Edge} {s : Summary} :
    ofEdges nodes edges = .ok s
      ↔ nodes < summaryLimit ∧ (∀ e ∈ edges, e.within nodes = true) ∧ s =
        { nodes
          edges := edges.length
          distinctEdges := (Std.HashSet.ofList edges).size
          selfLoops := edges.countP Edge.isLoop
          maxOutDegree := maxMultiplicity (edges.map Edge.src)
          maxInDegree := maxMultiplicity (edges.map Edge.dst)
          weakComponents := RecursiveMatrix.weakComponents nodes edges } := by
  rw [ofEdges]
  by_cases hnodes : summaryLimit ≤ nodes
  · rw [if_pos hnodes]
    simp only [reduceCtorEq, false_iff]
    exact fun h ↦ Nat.not_le.mpr h.1 hnodes
  · rw [if_neg hnodes]
    cases hfind : edges.find? fun e ↦ !e.within nodes with
    | some e =>
      have houtside : e.within nodes = false := by simpa using List.find?_some hfind
      have hmem : e ∈ edges := List.mem_of_find?_eq_some hfind
      simp only [reduceCtorEq, false_iff]
      exact fun h ↦ Bool.false_ne_true (houtside.symm.trans (h.2.1 e hmem))
    | none =>
      have hedges : ∀ e ∈ edges, e.within nodes = true := by simpa using hfind
      simp only [Except.ok.injEq]
      exact ⟨fun h ↦ ⟨Nat.not_le.mp hnodes, hedges, h.symm⟩, fun h ↦ h.2.2.symm⟩

/-- Summarises a graph in the course of a program, which is broken off if there are edges without a
number. The checks come first. -/
def summarise? (nodes : Nat) (edges : List Edge) : Option (Except Failure Summary) :=
  match ofEdges nodes edges with
  | .error failure => some (.error failure)
  | .ok summary => if edges.length ≤ indexLimit then some (.ok summary) else none

theorem summarise?_of_error {nodes : Nat} {edges : List Edge} {failure : Failure}
    (h : ofEdges nodes edges = .error failure) :
    summarise? nodes edges = some (.error failure) := by
  rw [summarise?, h]

theorem summarise?_of_ok {nodes : Nat} {edges : List Edge} {s : Summary}
    (h : ofEdges nodes edges = .ok s) :
    summarise? nodes edges = if edges.length ≤ indexLimit then some (.ok s) else none := by
  rw [summarise?, h]

theorem summarise?_of_length_le {nodes : Nat} {edges : List Edge}
    (h : edges.length ≤ indexLimit) : summarise? nodes edges = some (ofEdges nodes edges) := by
  rcases hresult : ofEdges nodes edges with failure | s
  · rw [summarise?_of_error hresult]
  · rw [summarise?_of_ok hresult, if_pos h]

theorem ofEdges_of_summarise? {nodes : Nat} {edges : List Edge} {result : Except Failure Summary}
    (h : summarise? nodes edges = some result) : ofEdges nodes edges = result := by
  rcases hresult : ofEdges nodes edges with failure | s
  · rw [summarise?_of_error hresult] at h
    exact Option.some.inj h
  · rw [summarise?_of_ok hresult, Option.ite_none_right_eq_some] at h
    exact Option.some.inj h.2

/-- The summary as text, one line for each number. -/
def text (s : Summary) : String :=
  String.intercalate "\n"
    [s!"nodes: {s.nodes}", s!"edges: {s.edges}", s!"distinct edges: {s.distinctEdges}",
      s!"self loops: {s.selfLoops}", s!"max out degree: {s.maxOutDegree}",
      s!"max in degree: {s.maxInDegree}", s!"weak components: {s.weakComponents}"]

end Summary

end RecursiveMatrix
