import RecursiveMatrix.Generator
import RecursiveMatrix.Random.Seeded

/-!
# Graphs generated in partitions

The edges of a graph can be divided among workers. Each worker draws its share from a stream of its
own, so what it generates does not depend on the other workers or on when it runs; the shares are
put together in the order of the workers.

Shares are as equal as possible: they differ by at most one edge, and the first workers take the
larger ones.
-/

namespace RecursiveMatrix

def maxWorkers : Nat := 1024

/-- Checks a number of partitions. -/
def checkWorkers (workers : UInt64) : Except Failure Unit :=
  if workers = 0 then .error (.rejected .noWorker)
  else if maxWorkers < workers.toNat then
    .error (.rejected (.tooManyWorkers workers.toNat maxWorkers))
  else .ok ()

/-- The number of edges, out of `total`, that worker `index` of `workers` generates. -/
def partitionShare (total index workers : UInt64) : UInt64 :=
  if index < total % workers then total / workers + 1 else total / workers

/-- The share of a worker, if there are workers to share among. -/
def partitionShare? (total index workers : UInt64) : Option UInt64 :=
  if workers = 0 then none else some (partitionShare total index workers)

namespace Generator

/-- The edges that worker `index` of `workers` generates. -/
def partition (g : Generator) (seed workers index : UInt64) : List Edge :=
  (g.firstEdges (partitionShare g.edgeCount index workers) (Seeded.ofStream seed index)).toList.1

/-- The edges of a graph, generated in partitions. -/
def generatePartitioned (g : Generator) (seed workers : UInt64) : Except Failure (List Edge) := do
  checkWorkers workers
  return (List.range workers.toNat).flatMap fun index ↦ g.partition seed workers (.ofNat index)

end Generator

end RecursiveMatrix
