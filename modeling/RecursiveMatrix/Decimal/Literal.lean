import RecursiveMatrix.Decimal.Numeral

/-!
# Reading floating-point numbers

A literal is a sign if there is one, digits with at most one point before, among or after them, and
an exponent if there is one; or the name of an infinity or of the value that is no number, in any
case. The number read is the one nearest to the decimal written, half way going to the even
mantissa.

The decimal is `digits · 10^power`. Far outside the range of the numbers it is not computed: from
`10^310` on everything is infinite and below `10^-330` everything is zero (`nearest`).
-/

namespace RecursiveMatrix.Decimal

/-- What can be wrong with a literal. -/
inductive LiteralFault where
  /-- The text is empty. -/
  | empty
  /-- The text is no literal. -/
  | malformed
  deriving DecidableEq, Repr

def LiteralFault.message : LiteralFault → String
  | .empty => "cannot parse float from empty string"
  | .malformed => "invalid float literal"

/-- The number nearest to `digits · 10^power`. -/
def nearest (digits : Nat) (power : Int) : Float :=
  let top := (Nat.toDigits 10 digits).length + power
  if digits = 0 ∨ top < -330 then 0
  else if 310 < top then 1 / 0
  else Float.ofScientific digits (power < 0) power.natAbs

/-- The power of ten that follows a mantissa: nothing, or a mark, a sign if there is one, and
digits. -/
def readPower : List Char → Option Int
  | [] => some 0
  | mark :: rest =>
    if mark == 'e' || mark == 'E' then
      let (negative, ds) :=
        match rest with
        | '-' :: ds => (true, ds)
        | '+' :: ds => (false, ds)
        | ds => (false, ds)
      if ds.isEmpty || !ds.all Char.isDigit then none
      else
        let n := Int.ofNat (Nat.ofDigitChars 10 ds 0)
        some (if negative then -n else n)
    else none

/-- The mantissa and power of a decimal without a sign. -/
def readDecimal (s : List Char) : Option (Nat × Int) :=
  let whole := s.takeWhile Char.isDigit
  let rest := s.dropWhile Char.isDigit
  let (places, rest) :=
    match rest with
    | '.' :: rest => (rest.takeWhile Char.isDigit, rest.dropWhile Char.isDigit)
    | rest => ([], rest)
  if whole.isEmpty && places.isEmpty then none
  else (readPower rest).map fun p ↦ (Nat.ofDigitChars 10 (whole ++ places) 0, p - places.length)

/-- The value of a literal without its sign. -/
def readUnsignedLiteral (s : List Char) : Option Float :=
  match readDecimal s with
  | some (digits, power) => some (nearest digits power)
  | none =>
    let name := String.ofList (s.map Char.toLower)
    if name == "inf" || name == "infinity" then some (1 / 0)
    else if name == "nan" then some (0 / 0)
    else none

def readLiteral : List Char → Except LiteralFault Float
  | [] => .error .empty
  | '-' :: rest => ((readUnsignedLiteral rest).map Float.neg).elim (.error .malformed) .ok
  | '+' :: rest => (readUnsignedLiteral rest).elim (.error .malformed) .ok
  | s => (readUnsignedLiteral s).elim (.error .malformed) .ok

end RecursiveMatrix.Decimal
