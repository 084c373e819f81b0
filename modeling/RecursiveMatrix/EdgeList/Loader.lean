import RecursiveMatrix.EdgeList.Format
import RecursiveMatrix.Text.Line

/-!
# Loading edge lists

Several loaders can share one file. With `peers` loaders, line `n`, counted from zero and including
the lines that are skipped, belongs to the loader whose index is `n % peers`. A loader looks at no
line but its own, so a fault in a line is found by the loader that owns it and by no other.
-/

namespace RecursiveMatrix

/-- One of the loaders that share a file. -/
structure Loader where
  /-- Which one it is, counted from zero. -/
  index : UInt64
  /-- How many there are. -/
  peers : UInt64
  /-- It is one of them. -/
  index_lt : index.toNat < peers.toNat
  deriving DecidableEq

namespace Loader

/-- The loader that has a file to itself. -/
def whole : Loader := ⟨0, 1, by decide⟩

/-- Loader `index` of `peers`. -/
def ofIndex (index peers : UInt64) : Except Failure Loader :=
  if peers = 0 then .error (.rejected .noPeer)
  else if h : index.toNat < peers.toNat then .ok ⟨index, peers, h⟩
  else .error (.rejected (.indexTooLarge index.toNat peers.toNat))

/-- The loader owns line `n`, counted from zero. -/
def owns (l : Loader) (n : Nat) : Bool := n % l.peers.toNat == l.index.toNat

/-- Reads line `n` of the file `path`. -/
def readNumbered (path : OsText) (line : List UInt8) (n : Nat) : Except Failure (Option Edge) :=
  match Text.decode? line with
  | none => .error (.storage path .notText)
  | some chars => (readLine chars).mapError (.malformed (n + 1))

/-- Reads the loader's share of the edges in a file. -/
def read (l : Loader) (path : OsText) (bytes : List UInt8) : Except Failure (List Edge) := do
  let owned := (Text.lines bytes).zipIdx.filter fun (_, n) ↦ l.owns n
  let found ← owned.mapM fun (line, n) ↦ readNumbered path line n
  return found.filterMap id

end Loader

end RecursiveMatrix
