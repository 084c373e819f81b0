/-!
# The shortest decimal of a floating-point number

A binary64 number `x` stands for every real that rounds to it. Among the decimals `c · 10^k` that
do so, the shortest one has the fewest digits in `c`, and of several with equally few digits the
one nearest to `x`; a decimal above `x` wins over one just as far below.

All comparisons are made between natural numbers. A decimal is measured in the unit
`2^(q - 2)`, where `2^q` is the weight of the last bit of `x`: then `x` and both ends of its
rounding interval are whole numbers of units (`Interval`).

The search looks at one grid after the other, `10^k` for falling `k`. If any point of a grid lies
in the interval, one of the two points around `x` does, so these two are all it has to look at
(`gridPoint?`).
-/

namespace RecursiveMatrix.Decimal

-- Powers are those of `Nat.pow`, whatever other instances are in scope.
attribute [local instance (high)] instPowNat

/-- The absolute value of a finite number, as `mantissa · 2^exponent`. -/
structure Dyadic where
  /-- The significand as a whole number. -/
  mantissa : Nat
  /-- The weight of its last bit, as a power of two. -/
  exponent : Int
  deriving DecidableEq, Repr

/-- The low 52 bits of a number. -/
def fractionField (x : Float) : Nat := (x.toBits &&& 0xFFFFFFFFFFFFF).toNat

/-- The 11 bits above them. -/
def exponentField (x : Float) : Nat := ((x.toBits >>> 52) &&& 0x7FF).toNat

/-- The highest bit of a number: set for negative numbers, the negative zero among them. -/
def signBit (x : Float) : Bool := x.toBits >>> 63 == 1

/-- The value of the bit that leads the mantissa of most numbers, above the fraction field. -/
def leadingBit : Nat := 0x10000000000000

/-- The value of a finite number without its sign. The numbers below `2^-1022` share one exponent
and have no leading bit of their own. -/
def Dyadic.ofFloat (x : Float) : Dyadic :=
  if exponentField x = 0 then ⟨fractionField x, -1074⟩
  else ⟨leadingBit + fractionField x, (exponentField x : Int) - 1075⟩

/-- The reals that round to one number, in units of a quarter of the weight of its last bit. -/
structure Interval where
  /-- The lower end. -/
  lower : Nat
  /-- The number itself. -/
  middle : Nat
  /-- The upper end. -/
  upper : Nat
  /-- Both ends belong to the interval. -/
  closed : Bool
  /-- The unit is `2^unit`. -/
  unit : Int
  deriving DecidableEq, Repr

/-- The rounding interval of a positive finite number. It reaches half way to either neighbour;
below a power of two the neighbour is only half as far away. Half way is rounded to the even
mantissa, so the ends belong to the numbers whose mantissa is even. -/
def Interval.ofFloat (x : Float) : Interval :=
  let v := Dyadic.ofFloat x
  let narrow := fractionField x = 0 ∧ 1 < exponentField x
  { lower := 4 * v.mantissa - (if narrow then 1 else 2)
    middle := 4 * v.mantissa
    upper := 4 * v.mantissa + 2
    closed := v.mantissa % 2 == 0
    unit := v.exponent - 2 }

def digitCount (n : Nat) : Nat := (Nat.toDigits 10 n).length

/-- The weight of the leading digit of `m · 2^q` for a positive `m`: the `e` with
`10^e ≤ m · 2^q < 10^(e + 1)`. Below one it is found from the reciprocal, rounded up. -/
def leadingPower (m : Nat) (q : Int) : Int :=
  if 0 ≤ q then digitCount (m * 2 ^ q.toNat) - 1
  else
    let d := 2 ^ (-q).toNat
    if d ≤ m then digitCount (m / d) - 1 else -digitCount ((d + m - 1) / m - 1)

/-- What the unit of an interval and the step of the grid `10^k` are in a common unit, in which both
are whole numbers. -/
def commonScale (i : Interval) (k : Int) : Nat × Nat :=
  (2 ^ i.unit.toNat * 10 ^ (-k).toNat, 10 ^ k.toNat * 2 ^ (-i.unit).toNat)

/-- The point of the grid `10^k` to write a number with, if one of the two points around it lies in
its interval: the nearer of the two, and the upper one of a tie. -/
def gridPoint? (i : Interval) (k : Int) : Option Nat :=
  let (unit, step) := commonScale i k
  let inside := fun c ↦
    if i.closed then i.lower * unit ≤ c * step ∧ c * step ≤ i.upper * unit
    else i.lower * unit < c * step ∧ c * step < i.upper * unit
  let target := i.middle * unit
  let below := target / step
  let above := below + 1
  if inside below then
    if inside above ∧ above * step - target ≤ target - below * step then some above
    else some below
  else if inside above then some above
  else none

/-- The point of the grid `10^k` nearest to a number, and the upper one of a tie. -/
def nearestPoint (i : Interval) (k : Int) : Nat :=
  let (unit, step) := commonScale i k
  (2 * (i.middle * unit) + step) / (2 * step)

/-- A decimal `digits · 10^power`. -/
structure Shortest where
  /-- The digits, as a whole number. -/
  digits : Nat
  /-- The weight of the last digit, as a power of ten. -/
  power : Int
  deriving DecidableEq, Repr

/-- Looks for a point on `n` grids, the coarsest first, and settles for the nearest point of the
grid after them. -/
def searchGrids (i : Interval) : (n : Nat) → (k : Int) → Shortest
  | 0, k => ⟨nearestPoint i k, k⟩
  | n + 1, k =>
    match gridPoint? i k with
    | some c => ⟨c, k⟩
    | none => searchGrids i n (k - 1)

/-- The shortest decimal of a positive finite number. With seventeen digits the nearest point always
lies in the interval, so no more than sixteen grids have to be looked at. A point that is ten times
a power of ten loses its zero. -/
def Shortest.ofFloat (x : Float) : Shortest :=
  let v := Dyadic.ofFloat x
  let s := searchGrids (Interval.ofFloat x) 16 (leadingPower v.mantissa v.exponent)
  if s.digits % 10 = 0 then ⟨s.digits / 10, s.power + 1⟩ else s

end RecursiveMatrix.Decimal
