import RecursiveMatrix.Command.Program
import RecursiveMatrix.Generator.Partitioned
import RecursiveMatrix.Generator.Simple
import RecursiveMatrix.Summary

/-!
# The command that generates graphs

The command generates a graph and saves it as an edge list. All its settings are checked before any
edge is placed (`GenerateSettings.check`), and edges that are drawn from one stream and needed only
once are placed while they are saved (`GenerateSettings.supply`).

Two things break a run off. Edges that are not placed while they are saved are held in a list, and
may be more than a list holds (`GenerateSettings.overfull`); that is before any file is touched. And
the graph that is built for a summary may have more edges than can be numbered; that is once they
are in the file. Apart from this there is memory for everything.
-/

namespace RecursiveMatrix

/-! ## Settings -/

def standardSeed : UInt64 := 10

def standardWorkers : UInt64 := 1

/-- What the command is asked to do. -/
structure GenerateSettings where
  /-- Where the edge list goes. -/
  output : OsText
  /-- The graph has `2 ^ scale` vertices. -/
  scale : UInt32
  /-- The number of edges per vertex before the cap. -/
  edgeFactor : UInt64
  /-- The probability of the top left quadrant. -/
  a : Float
  /-- The probability of the top right quadrant. -/
  b : Float
  /-- The probability of the bottom left quadrant. -/
  c : Float
  /-- The seed of the streams. -/
  seed : UInt64
  /-- The number of partitions. -/
  workers : UInt64
  /-- The edges have to be distinct and no loops. -/
  simple : Bool
  /-- The graph is summarised. -/
  summary : Bool
  deriving DecidableEq

def generateGrammar : Grammar GenerateSettings where
  program := "rmat"
  about := "Generate an R-MAT graph and write it as an edge list."
  options :=
    [{ name := .long "edgefactor"
       intake := .value "EDGEFACTOR" fun v s ↦ return { s with edgeFactor := ← wordValue v }
       about := "Edges per vertex before the cap of nnodes * (nnodes - 1) / 2"
       standard? := some s!"{standardEdgeFactor}" },
     { name := .short 'a'
       intake := .value "A" fun v s ↦ return { s with a := ← realValue v }
       about := "Probability of the top-left quadrant"
       standard? := some (Decimal.text Probabilities.standardA) },
     { name := .short 'b'
       intake := .value "B" fun v s ↦ return { s with b := ← realValue v }
       about := "Probability of the top-right quadrant"
       standard? := some (Decimal.text Probabilities.standardB) },
     { name := .short 'c'
       intake := .value "C" fun v s ↦ return { s with c := ← realValue v }
       about := "Probability of the bottom-left quadrant; the bottom-right one gets the rest"
       standard? := some (Decimal.text Probabilities.standardC) },
     { name := .long "seed"
       intake := .value "SEED" fun v s ↦ return { s with seed := ← wordValue v }
       about := "Seed of the ChaCha8 random stream"
       standard? := some s!"{standardSeed}" },
     { name := .long "workers"
       intake := .value "WORKERS" fun v s ↦ return { s with workers := ← wordValue v }
       about := "Partitions, each drawn from its own sub-stream of the seed (at most 1024)"
       standard? := some s!"{standardWorkers}" },
     { name := .long "simple"
       intake := .flag fun s ↦ { s with simple := true }
       about := "Reject self-loops and duplicate edges"
       standard? := none },
     { name := .long "summary"
       intake := .flag fun s ↦ { s with summary := true }
       about := "Log summary statistics of the generated graph"
       standard? := none }]
  places :=
    [{ name := .place 0
       intake := .value "OUTPUT" fun v s ↦ return { s with output := ← nameValue v }
       about := "File the edge list is written to"
       standard? := none },
     { name := .place 1
       intake := .value "SCALE" fun v s ↦ return { s with scale := ← halfWordValue v }
       about := "The graph has 2^SCALE vertices"
       standard? := none }]
  negativeNumbers := true
  initial :=
    { output := ""
      scale := 0
      edgeFactor := standardEdgeFactor
      a := Probabilities.standardA
      b := Probabilities.standardB
      c := Probabilities.standardC
      seed := standardSeed
      workers := standardWorkers
      simple := false
      summary := false }

/-! ## Reports -/

/-- What has been generated. -/
structure GenerateReport where
  /-- Where the edge list is. -/
  output : OsText
  /-- The number of vertices. -/
  nodes : Nat
  /-- The number of edges written. -/
  edges : Nat
  /-- The summary, if it was asked for. -/
  summary? : Option Summary
  deriving DecidableEq, Repr

def GenerateReport.text (r : GenerateReport) : String :=
  let lines := [s!"output: {r.output.legible}", s!"nodes: {r.nodes}", s!"edges written: {r.edges}"]
  String.join ((lines ++ (r.summary?.map Summary.text).toList).map (· ++ "\n"))

namespace GenerateSettings

/-! ## Checks -/

/-- Checks how the edges are to be generated: the number of workers, then that one worker has all
edges if they have to be distinct, and then that the graph can be summarised if it is to be. -/
def checkMode (s : GenerateSettings) (size : GraphSize) : Except Failure Unit := do
  checkWorkers s.workers
  if s.simple && 1 < s.workers then .error (.rejected .simpleInPartitions)
  else if s.summary && summaryLimit ≤ size.nodeCount.toNat then
    .error (.oversized size.nodeCount.toNat)
  else return

/-- Checks all settings, and gives the generator they describe. -/
def check (s : GenerateSettings) : Except Failure Generator := do
  let size ← GraphSize.ofScale s.scale s.edgeFactor
  let p ← Probabilities.ofThree s.a s.b s.c
  s.checkMode size
  return .ofSize size p

def emptyWarning : String := "graph has no edges; writing an empty edge list"

/-- What the command warns of once its settings are checked, whether the edges can be saved or
not. -/
def warnings (s : GenerateSettings) : List String :=
  match s.check with
  | .error _ => []
  | .ok g => if g.edgeCount = 0 then [emptyWarning] else []

/-! ## Generating -/

/-- The edges to be saved. -/
def supply (s : GenerateSettings) (g : Generator) : Except Failure EdgeSupply :=
  if s.simple then (g.generateSimple (Seeded.ofSeed s.seed)).1.map .ofList
  else if 1 < s.workers || s.summary then (g.generatePartitioned s.seed s.workers).map .ofList
  else .ok (.ofStream (g.edges (Seeded.ofSeed s.seed)))

/-- How many edges a list holds: it has fewer than `2 ^ 63` bytes, and an edge takes 16 of them. -/
def listLimit : Nat := (UInt64.size / 2 - 1) / 16

/-- How many distinct edges had been found when the search for them ended. -/
def foundEdges : Except Failure (List Edge) → Nat
  | .ok edges => edges.length
  | .error (.exhausted accepted ..) => accepted
  | .error _ => 0

/-- The edges have to be held in a list, and are more than a list holds. Distinct edges are held as
far as they are found, and the set that tells them apart holds as many as the list. -/
def overfull (s : GenerateSettings) (g : Generator) : Bool :=
  listLimit < g.edgeCount.toNat
    && if s.simple then listLimit < foundEdges (g.generateSimple (Seeded.ofSeed s.seed)).1
      else 1 < s.workers || s.summary

/-- The edges to be saved, unless the run is broken off for them. -/
def supply? (s : GenerateSettings) (g : Generator) : Option (Except Failure EdgeSupply) :=
  if s.overfull g then none else some (s.supply g)

/-- Reports on edges that have been saved, unless the run is broken off for the summary. -/
def report (s : GenerateSettings) (g : Generator) (supply : EdgeSupply) (written : Nat) :
    Option (Except Failure GenerateReport) :=
  let nodes := g.nodeCount.toNat
  if s.summary then
    (Summary.summarise? nodes (supply.edges ())).map (·.map fun summary ↦
      ⟨s.output, nodes, written, some summary⟩)
  else some (.ok ⟨s.output, nodes, written, none⟩)

/-- Checks the settings and generates the edges, as far as this comes before saving them. -/
def prepare (s : GenerateSettings) : Option (Except Failure (Generator × EdgeSupply)) :=
  match s.check with
  | .error failure => some (.error failure)
  | .ok g => (s.supply? g).map (·.map (g, ·))

def task (s : GenerateSettings) : FileTask (Option (Except Failure GenerateReport)) :=
  match s.prepare with
  | none => .done none
  | some (.error failure) => .done (some (.error failure))
  | some (.ok (g, supply)) =>
    .save s.output supply fun
      | .error failure => some (.error failure)
      | .ok written => s.report g supply written

end GenerateSettings

def generateProgram : Program GenerateSettings where
  grammar := generateGrammar
  warnings := GenerateSettings.warnings
  task s :=
    s.task.map (·.map fun result ↦ (result.map GenerateReport.text).mapError .generating)

end RecursiveMatrix
