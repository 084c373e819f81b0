import RecursiveMatrix.Generator
import Std.Data.HashSet

/-!
# Graphs without loops and repetitions

A simple graph is generated by placing edges and keeping those that are neither loops nor already
there. Each edge placed is one attempt, and the number of attempts is limited: there are 32 for each
edge asked for, and never fewer than 1024.
-/

namespace RecursiveMatrix

/-- The attempts for each edge asked for. -/
def attemptsPerEdge : Nat := 32

/-- The attempts that even the smallest graph gets. -/
def minAttempts : Nat := 1024

/-- The attempts for a graph of `edges` edges, which have to fit a 64-bit word. -/
def attemptBudget (edges : Nat) : Nat :=
  max (min (attemptsPerEdge * edges) (UInt64.size - 1)) minAttempts

/-- The edges kept so far. -/
structure Kept where
  /-- The edges, the latest first. -/
  latest : List Edge
  /-- The same edges, to look them up. -/
  seen : Std.HashSet Edge

namespace Kept

def empty : Kept := ⟨[], ∅⟩

/-- Keeps an edge unless it is a loop or already there. -/
def offer (kept : Kept) (e : Edge) : Kept :=
  if e.isLoop || kept.seen.contains e then kept else ⟨e :: kept.latest, kept.seen.insert e⟩

def count (kept : Kept) : Nat := kept.seen.size

/-- The edges in the order in which they were first placed. -/
def toList (kept : Kept) : List Edge := kept.latest.reverse

end Kept

namespace Generator

universe u

variable {σ : Type u} [UniformSource σ]

/-- The number of edges that a simple graph can have: one for each ordered pair of distinct
vertices. -/
def availablePairs (g : Generator) : Nat := g.nodeCount.toNat * (g.nodeCount.toNat - 1)

/-- Places edges until `wanted` are kept, at most `attempts` of them. -/
def collect (g : Generator) (wanted : Nat) : (attempts : Nat) → Kept → σ → Kept × σ
  | 0, kept, s => (kept, s)
  | attempts + 1, kept, s =>
    if kept.count = wanted then (kept, s)
    else
      let placed := g.place s
      collect g wanted attempts (kept.offer placed.1) placed.2

/-- The edges of a simple graph, and the source after its attempts. More edges than there are pairs
are turned down without a draw. -/
def generateSimple (g : Generator) (s : σ) : Except Failure (List Edge) × σ :=
  let wanted := g.edgeCount.toNat
  if wanted > g.availablePairs then
    (.error (.rejected (.tooFewPairs wanted g.availablePairs)), s)
  else
    let budget := attemptBudget wanted
    let (kept, s) := g.collect wanted budget Kept.empty s
    if kept.count = wanted then (.ok kept.toList, s)
    else (.error (.exhausted kept.count wanted budget), s)

end Generator

end RecursiveMatrix
