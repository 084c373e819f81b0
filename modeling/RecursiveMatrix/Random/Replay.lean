import RecursiveMatrix.Failure
import RecursiveMatrix.Random.Source

/-!
# Replaying fixed values

A source that hands out the values of a list in order, and starts over at the end of the list. It
counts the values drawn, and the count has no end; kept in a word of 64 bits it would start over
with draw `2 ^ 64`.
-/

namespace RecursiveMatrix

/-- The value lies in `[0, 1)`. -/
def inUnit (x : Float) : Bool := 0 ≤ x && x < 1

/-- A list of values being replayed. -/
structure Replay where
  /-- The values. -/
  values : Array Float
  /-- How many values have been drawn so far. -/
  position : Nat
  /-- There is a value to start over with. -/
  size_pos : 0 < values.size

namespace Replay

/-- Replays `values`, of which there has to be one and all of which have to lie in `[0, 1)`. -/
def ofList (values : List Float) : Except Failure Replay :=
  if h : 0 < values.toArray.size then
    match values.find? fun x ↦ !inUnit x with
    | some bad => .error (.rejected (.outsideUnit bad))
    | none => .ok ⟨values.toArray, 0, h⟩
  else .error (.rejected .emptySequence)

def next (r : Replay) : Float × Replay :=
  have inside : r.position % r.values.size < r.values.size := Nat.mod_lt _ r.size_pos
  (r.values[r.position % r.values.size], { r with position := r.position + 1 })

instance : UniformSource Replay := ⟨next⟩

end Replay

end RecursiveMatrix
