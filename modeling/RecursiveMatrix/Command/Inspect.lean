import RecursiveMatrix.Command.Program
import RecursiveMatrix.Summary

/-!
# The command that inspects edge lists

The command loads an edge list and summarises its graph. The number of vertices is given, or else
the one that `vertexBound` works out.
-/

namespace RecursiveMatrix

/-- What the command is asked to do. -/
structure InspectSettings where
  /-- Where the edge list is. -/
  path : OsText
  /-- The number of vertices, if it is given. -/
  nodes? : Option UInt64
  deriving DecidableEq, Repr

def inspectGrammar : Grammar InspectSettings where
  program := "edge_list_stats"
  about := "Print summary statistics of an edge list."
  options :=
    [{ name := .long "nodes"
       intake := .value "NODES" fun v s ↦ return { s with nodes? := some (← wordValue v) }
       about := "Vertex count, e.g. 2^scale for generated graphs"
       standard? := none }]
  places :=
    [{ name := .place 0
       intake := .value "PATH" fun v s ↦ return { s with path := ← nameValue v }
       about := "Edge-list file, one `src dst` pair per line"
       standard? := none }]
  negativeNumbers := false
  initial := ⟨"", none⟩

namespace InspectSettings

/-- The number of vertices of a graph with the edges that have been loaded. -/
def nodeCount (s : InspectSettings) (edges : List Edge) : UInt64 :=
  s.nodes?.getD (vertexBound edges)

def task (s : InspectSettings) : FileTask (Option (Except CommandFailure Summary)) :=
  .load .whole s.path fun
    | .error failure => some (.error (.loading s.path failure))
    | .ok edges =>
      (Summary.summarise? (s.nodeCount edges).toNat edges).map (·.mapError .summarising)

end InspectSettings

def inspectProgram : Program InspectSettings where
  grammar := inspectGrammar
  warnings _ := []
  task s := s.task.map (·.map fun result ↦ result.map fun summary ↦ summary.text ++ "\n")

end RecursiveMatrix
