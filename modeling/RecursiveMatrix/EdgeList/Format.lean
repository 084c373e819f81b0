import RecursiveMatrix.Decimal.Numeral
import RecursiveMatrix.Failure
import RecursiveMatrix.Text.Blank

/-!
# The format of edge lists

An edge list is a text with one edge per line: the two vertices in decimal, with blanks between
them. Lists are written with a single space and no header. Lists from elsewhere may hold empty lines
and comments, which start with a number sign, and these are skipped.
-/

namespace RecursiveMatrix

/-! ## Writing -/

def Edge.line (e : Edge) : String := s!"{e.src} {e.dst}\n"

/-- Writes edges one after another: how many they are, and the text. -/
def writeEdges (edges : List Edge) : Nat × String :=
  edges.foldl (fun written e ↦ (written.1 + 1, written.2 ++ e.line)) (0, "")

/-! ## Reading -/

def readVertex (place : EdgeEnd) (field : List Char) : Except LineFault Vertex :=
  (Decimal.readWord field).mapError fun _ ↦ .unreadable place (String.ofList field)

/-- Reads an edge from the fields of a line. The source is read before the target is missed, and the
target before another field is noticed. -/
def readFields : List (List Char) → Except LineFault Edge
  | [] => .error (.missing .source)
  | source :: rest => do
    let src ← readVertex .source source
    match rest with
    | [] => .error (.missing .target)
    | target :: rest =>
      let dst ← readVertex .target target
      match rest with
      | [] => return ⟨src, dst⟩
      | extra :: _ => .error (.trailing (String.ofList extra))

/-- Reads a line: an edge, or nothing if the line is to be skipped. -/
def readLine (line : List Char) : Except LineFault (Option Edge) :=
  match Text.trim line with
  | [] => .ok none
  | c :: rest => if c = '#' then .ok none else (readFields (Text.fields (c :: rest))).map some

end RecursiveMatrix
