import RecursiveMatrix.Decimal.Shortest

/-!
# Floating-point numbers as text

A number is written with its shortest digits and never with an exponent: `0.0000001`,
`1000000000000000000000`. Whole numbers have no point, zero keeps its sign, and the values that are
no numbers have the names `NaN`, `inf` and `-inf`.
-/

namespace RecursiveMatrix.Decimal

/-- Writes `s` with a point where it is needed and zeros up to it. -/
def Shortest.positional (s : Shortest) : List Char :=
  let ds := Nat.toDigits 10 s.digits
  if 0 ≤ s.power then ds ++ List.replicate s.power.toNat '0'
  else
    let places := (-s.power).toNat
    let padded := List.replicate (places + 1 - ds.length) '0' ++ ds
    padded.take (padded.length - places) ++ '.' :: padded.drop (padded.length - places)

/-- The digits of a number without its sign. -/
def magnitudeText (x : Float) : List Char :=
  if fractionField x = 0 ∧ exponentField x = 0 then ['0'] else (Shortest.ofFloat x).positional

/-- A floating-point number as text. -/
def text (x : Float) : String :=
  if x.isNaN then "NaN"
  else
    let sign := if signBit x then "-" else ""
    if x.isFinite then sign ++ String.ofList (magnitudeText x) else sign ++ "inf"

end RecursiveMatrix.Decimal
