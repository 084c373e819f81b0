import RecursiveMatrix.Decimal.Positional
import RecursiveMatrix.Edge
import RecursiveMatrix.Text.OsText

/-!
# What can go wrong

Every operation of the library that can fail does so with a `Failure`, which says why and carries
the values a reader needs. Words are put together in one place only, `Failure.message`.
-/

namespace RecursiveMatrix

/-! ## Parameters -/

/-- Why a parameter was turned down. -/
inductive ParameterFault where
  /-- A quadrant probability is negative, infinite or no number. -/
  | improperProbability (name : String) (value : Float)
  /-- The quadrant probabilities do not add up to one. -/
  | improperTotal (total : Float)
  /-- The scale is past the largest one supported. -/
  | scaleTooLarge (scale limit : Nat)
  /-- There are no edges per vertex. -/
  | zeroEdgeFactor
  /-- The number of edges does not fit a 64-bit word. -/
  | edgeFactorTooLarge (edgeFactor scale : Nat)
  /-- There is no value to replay. -/
  | emptySequence
  /-- A value to replay is not in `[0, 1)`. -/
  | outsideUnit (value : Float)
  /-- The number of vertices is no power of two. -/
  | notPowerOfTwo (nodes : Nat)
  /-- There are fewer distinct edges without loops than asked for. -/
  | tooFewPairs (requested available : Nat)
  /-- No worker is left to generate edges. -/
  | noWorker
  /-- There are more partitions than allowed. -/
  | tooManyWorkers (workers limit : Nat)
  /-- Edges that have to be distinct are generated in one partition. -/
  | simpleInPartitions
  /-- No loader shares the file. -/
  | noPeer
  /-- The loader is not one of those that share the file. -/
  | indexTooLarge (index peers : Nat)
  /-- An edge leaves the vertices it should stay among. -/
  | edgeOutside (edge : Edge) (nodes : Nat)
  deriving DecidableEq

namespace ParameterFault

/-- The parameter that was turned down. -/
def parameter : ParameterFault → String
  | improperProbability .. | improperTotal .. => "probabilities"
  | scaleTooLarge .. => "scale"
  | zeroEdgeFactor | edgeFactorTooLarge .. => "edgefactor"
  | emptySequence | outsideUnit .. => "sequence"
  | notPowerOfTwo .. => "nnodes"
  | tooFewPairs .. => "nedges"
  | noWorker | tooManyWorkers .. | simpleInPartitions => "workers"
  | noPeer => "peers"
  | indexTooLarge .. => "index"
  | edgeOutside .. => "edges"

/-- What the parameter should have been. -/
def reason : ParameterFault → String
  | improperProbability name value =>
    s!"{name} = {Decimal.text value} must be a finite non-negative number"
  | improperTotal total => s!"a + b + c + d = {Decimal.text total}, expected 1"
  | scaleTooLarge scale limit => s!"{scale} exceeds the maximum supported scale {limit}"
  | zeroEdgeFactor | noWorker | noPeer => "must be positive"
  | edgeFactorTooLarge edgeFactor scale =>
    s!"{edgeFactor} overflows the edge count at scale {scale}"
  | emptySequence => "must not be empty"
  | outsideUnit value => s!"{Decimal.text value} lies outside [0, 1)"
  | notPowerOfTwo nodes => s!"{nodes} is not a power of two"
  | tooFewPairs requested available =>
    s!"{requested} distinct edges requested but only {available} exist without self-loops"
  | tooManyWorkers workers limit => s!"{workers} exceeds the maximum of {limit} partitions"
  | simpleInPartitions => "simple graphs are generated by a single worker"
  | indexTooLarge index peers => s!"{index} must be below peers = {peers}"
  | edgeOutside e nodes => s!"edge ({e.src}, {e.dst}) lies outside [0, {nodes})"

end ParameterFault

/-! ## Files -/

/-- Why a file could not be read or written. -/
inductive FileFault where
  /-- There is no file of the name, or no folder on the way to it. -/
  | notFound
  /-- The name is that of a folder. -/
  | isFolder
  /-- A name on the way is that of a file. -/
  | notFolder
  /-- The device is full. -/
  | noSpace
  /-- A name is longer than names may be. -/
  | nameTooLong
  /-- The name holds the character that ends names. -/
  | nulInName
  /-- The file is not UTF-8. -/
  | notText
  /-- Something else is wrong. -/
  | other (text : String)
  deriving DecidableEq, Repr

/-- The fault in the words of the operating system. -/
def FileFault.message : FileFault → String
  | notFound => "No such file or directory (os error 2)"
  | isFolder => "Is a directory (os error 21)"
  | notFolder => "Not a directory (os error 20)"
  | noSpace => "No space left on device (os error 28)"
  | nameTooLong => "File name too long (os error 36)"
  | nulInName => "file name contained an unexpected NUL byte"
  | notText => "stream did not contain valid UTF-8"
  | other text => text

/-! ## Lines of an edge list -/

/-- The two ends of an edge. -/
inductive EdgeEnd where
  /-- Where the edge starts. -/
  | source
  /-- Where the edge ends. -/
  | target
  deriving DecidableEq, Repr

def EdgeEnd.name : EdgeEnd → String
  | source => "source"
  | target => "target"

/-- Why a line is no edge. -/
inductive LineFault where
  /-- A field is missing. -/
  | missing (place : EdgeEnd)
  /-- A field is no vertex. -/
  | unreadable (place : EdgeEnd) (field : String)
  /-- A field follows the two of an edge. -/
  | trailing (field : String)
  deriving DecidableEq, Repr

def LineFault.message : LineFault → String
  | missing place => s!"missing {place.name} node"
  | unreadable place field => s!"invalid {place.name} node `{field}`"
  | trailing field => s!"unexpected trailing field `{field}`"

/-! ## All failures -/

/-- Why an operation failed. -/
inductive Failure where
  /-- A parameter was turned down before any work was done. -/
  | rejected (fault : ParameterFault)
  /-- A file could not be read or written. -/
  | storage (path : OsText) (fault : FileFault)
  /-- A line of an edge list, counted from one, is no edge. -/
  | malformed (line : Nat) (fault : LineFault)
  /-- The attempts ran out before there were enough distinct edges. -/
  | exhausted (accepted requested attempts : Nat)
  /-- The graph has too many vertices to summarise. -/
  | oversized (nodes : Nat)
  deriving DecidableEq

namespace Failure

def message : Failure → String
  | rejected fault => s!"invalid parameter `{fault.parameter}`: {fault.reason}"
  | storage path fault => s!"I/O failure on `{path.legible}`: {fault.message}"
  | malformed line fault => s!"line {line}: {fault.message}"
  | exhausted accepted requested attempts =>
    s!"accepted {accepted} of {requested} distinct edges after {attempts} attempts"
  | oversized nodes => s!"graph with {nodes} nodes is too large to summarise"

/-- The failure with the chain of its causes: a failure on a file has the fault as its cause. -/
def chain (f : Failure) : String :=
  match f with
  | storage _ fault => s!"{f.message}: {fault.message}"
  | _ => f.message

end Failure

end RecursiveMatrix
