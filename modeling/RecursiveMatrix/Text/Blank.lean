/-!
# Blank characters

The Unicode property `White_Space`, and what texts are without it: a text trimmed at both ends, and
the fields of a text, which are its longest stretches without a blank.
-/

namespace RecursiveMatrix.Text

/-- The code points of the property `White_Space`, as ranges. -/
def blankRanges : List (Nat × Nat) :=
  [(0x09, 0x0D), (0x20, 0x20), (0x85, 0x85), (0xA0, 0xA0), (0x1680, 0x1680), (0x2000, 0x200A),
    (0x2028, 0x2029), (0x202F, 0x202F), (0x205F, 0x205F), (0x3000, 0x3000)]

def isBlank (c : Char) : Bool := blankRanges.any fun r ↦ r.1 ≤ c.toNat && c.toNat ≤ r.2

/-- The text without the blanks at its ends. -/
def trim (s : List Char) : List Char :=
  ((s.dropWhile isBlank).reverse.dropWhile isBlank).reverse

/-- The longest stretches of a text without a blank, from left to right. -/
def fields (s : List Char) : List (List Char) :=
  (s.splitOnP isBlank).filter fun field ↦ !field.isEmpty

end RecursiveMatrix.Text
