import RecursiveMatrix.Random.Keystream
import RecursiveMatrix.Random.Source

/-!
# Uniform values from a keystream

A value is made from the highest 53 bits of two words of a keystream: the whole number `k` they
spell stands for `k / 2^53`. Every such fraction is a floating-point number, so nothing is rounded.

The streams of one seed are independent sources, and stream `0` is the one a bare seed starts.
-/

namespace RecursiveMatrix

/-- The number `k / 2^53`, for `k` below `2^53`. The leading bit of `k` becomes the exponent and the
bits after it the fraction field; that bit itself carries into the exponent field, which is
therefore set one lower. -/
def unitFraction (k : UInt64) : Float :=
  if k = 0 then 0
  else Float.ofBits (((k.log2 + 969) <<< 52) + (k <<< (52 - k.log2)))

/-- A keystream handing out values. -/
structure Seeded where
  /-- The keystream the values come from. -/
  keystream : Keystream

namespace Seeded

/-- The values of a seed. -/
def ofSeed (seed : UInt64) : Seeded := ⟨Keystream.start seed⟩

/-- The values of one stream of a seed. -/
def ofStream (seed stream : UInt64) : Seeded := ⟨(Keystream.start seed).switch stream⟩

theorem ofStream_zero (seed : UInt64) : ofStream seed 0 = ofSeed seed := rfl

def next (s : Seeded) : Float × Seeded :=
  let (word, keystream) := s.keystream.nextLong
  (unitFraction (word >>> 11), ⟨keystream⟩)

instance : UniformSource Seeded := ⟨next⟩

end Seeded

end RecursiveMatrix
