import RecursiveMatrix.Failure

/-!
# Quadrant probabilities

An edge is placed by choosing one of the four quadrants of the adjacency matrix again and again:
the top left one with probability `a`, the top right one with `b`, the bottom left one with `c` and
the bottom right one with `d`. Rows are sources and columns are targets.

The four have to be finite, not negative, and add up to one; the sum is evaluated from left to right
in floating-point arithmetic and may miss one by `tolerance`.
-/

namespace RecursiveMatrix

/-- The probabilities of the four quadrants. -/
structure Probabilities where
  /-- The probability of the top left quadrant. -/
  a : Float
  /-- The probability of the top right quadrant. -/
  b : Float
  /-- The probability of the bottom left quadrant. -/
  c : Float
  /-- The probability of the bottom right quadrant. -/
  d : Float
  deriving DecidableEq

/-- Where the unit interval is cut into the parts of the quadrants. -/
structure Thresholds where
  /-- Values below it choose the top left quadrant. -/
  first : Float
  /-- Values from `first` up to it choose the top right quadrant. -/
  second : Float
  /-- Values from `second` up to it choose the bottom left quadrant, and those from it on the bottom
  right one. -/
  third : Float
  deriving DecidableEq

namespace Probabilities

/-- How far the probabilities may miss one in total. -/
def tolerance : Float := 1e-9

/-- The value can be a probability as far as sign and size go: it is finite and not negative. -/
def isProper (x : Float) : Bool := x.isFinite && !(x < 0)

/-- The four probabilities, if they are proper ones. The first improper one is reported, and then a
total that is not one. -/
def ofFour (a b c d : Float) : Except Failure Probabilities :=
  match [("a", a), ("b", b), ("c", c), ("d", d)].find? fun p ↦ !isProper p.2 with
  | some (name, value) => .error (.rejected (.improperProbability name value))
  | none =>
    let total := a + b + c + d
    if (total - 1).abs > tolerance then .error (.rejected (.improperTotal total))
    else .ok ⟨a, b, c, d⟩

/-- What three probabilities leave of one. A remainder below zero by less than `tolerance` comes
from rounding and counts as zero. -/
def remainder (a b c : Float) : Float :=
  let d := 1 - a - b - c
  if d < 0 && d > -tolerance then 0 else d

/-- Three probabilities and what they leave of one. -/
def ofThree (a b c : Float) : Except Failure Probabilities := ofFour a b c (remainder a b c)

/-- The probability of the top left quadrant where none is given. -/
def standardA : Float := 0.57

/-- The probability of the top right quadrant where none is given. -/
def standardB : Float := 0.19

/-- The probability of the bottom left quadrant where none is given. -/
def standardC : Float := 0.19

/-- The probabilities that graph benchmarks use. -/
def standard : Probabilities :=
  ⟨standardA, standardB, standardC, 1 - standardA - standardB - standardC⟩

instance : Inhabited Probabilities := ⟨standard⟩

/-- The running totals of the probabilities, from left to right. -/
def thresholds (p : Probabilities) : Thresholds := ⟨p.a, p.a + p.b, p.a + p.b + p.c⟩

end Probabilities

end RecursiveMatrix
