import RecursiveMatrix.Directory
import RecursiveMatrix.EdgeList.Loader
import RecursiveMatrix.Generator

/-!
# Edge lists in files

Saving opens the file before it asks for the first edge. Edges that are still to be placed are
therefore placed only if there is a file to write them to.
-/

namespace RecursiveMatrix

/-- Edges to be saved: how many there are, and the edges once they are asked for. -/
structure EdgeSupply where
  /-- The number of edges. -/
  count : Nat
  /-- The edges. -/
  edges : Unit → List Edge
  /-- There are as many as announced. -/
  length_edges : (edges ()).length = count

namespace EdgeSupply

/-- Edges that are already there. -/
def ofList (edges : List Edge) : EdgeSupply := ⟨edges.length, fun _ ↦ edges, rfl⟩

universe u

/-- Edges still to be placed. -/
def ofStream {σ : Type u} [UniformSource σ] (stream : EdgeStream σ) : EdgeSupply :=
  ⟨stream.remaining.toNat, fun _ ↦ stream.toList.1, stream.length_toList⟩

end EdgeSupply

namespace Directory

/-- Writes an edge list to a file, and gives the number of edges written. The device without room
fails as soon as there is a byte to write. -/
def saveEdges (d : Directory) (path : OsText) (supply : EdgeSupply) :
    Except Failure (Nat × Directory) :=
  match d.locateOutput path with
  | .error fault => .error (.storage path fault)
  | .ok (.file name) =>
    let written := writeEdges (supply.edges ())
    .ok (written.1, d.put name written.2.toUTF8)
  | .ok .full =>
    if supply.count = 0 then .ok (0, d) else .error (.storage path .noSpace)
  | .ok _ => .ok (supply.count, d)

/-- Reads a loader's share of the edges in a file. -/
def loadEdges (d : Directory) (loader : Loader) (path : OsText) : Except Failure (List Edge) :=
  match d.read path with
  | .error fault => .error (.storage path fault)
  | .ok bytes => loader.read path bytes.data.toList

end Directory

end RecursiveMatrix
