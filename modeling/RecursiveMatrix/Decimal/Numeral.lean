/-!
# Decimal numerals

Integers as text. Writing uses the digits of `Nat.toDigits`. Reading is exact about what can be
wrong with a numeral: nothing there, a character that is no digit, or a value past the limits of
the word that has to hold it. A numeral is read from the left and the first fault found decides,
so a value that has already grown too large is reported before a bad character that follows it.

The main fact is that reading undoes writing: `readUnsigned_toDigits`.
-/

namespace RecursiveMatrix.Decimal

/-- What can be wrong with a numeral. -/
inductive NumeralFault where
  /-- The text is empty. -/
  | empty
  /-- A character is no digit, or a sign has no digits after it. -/
  | badDigit
  /-- The value exceeds the largest one allowed. -/
  | tooLarge
  /-- The value lies below the smallest one allowed. -/
  | tooSmall
  deriving DecidableEq, Repr

def NumeralFault.message : NumeralFault → String
  | .empty => "cannot parse integer from empty string"
  | .badDigit => "invalid digit found in string"
  | .tooLarge => "number too large to fit in target type"
  | .tooSmall => "number too small to fit in target type"

def digitValue (c : Char) : Nat := c.toNat - '0'.toNat

/-- Reads digits onto the value `v` read so far; a value above `limit` is the fault `past`. At each
character the digit is looked at before the value. -/
def readDigits (limit : Nat) (past : NumeralFault) : Nat → List Char → Except NumeralFault Nat
  | v, [] => .ok v
  | v, c :: rest =>
    if c.isDigit then
      let v' := v * 10 + digitValue c
      if v' ≤ limit then readDigits limit past v' rest else .error past
    else .error .badDigit

/-- Reads digits, of which there has to be one. -/
def readMagnitude (limit : Nat) (past : NumeralFault) (s : List Char) : Except NumeralFault Nat :=
  if s.isEmpty then .error .badDigit else readDigits limit past 0 s

/-- Reads an unsigned numeral of value at most `limit`: digits, after a plus sign if there is
one. -/
def readUnsigned (limit : Nat) : List Char → Except NumeralFault Nat
  | [] => .error .empty
  | '+' :: rest => readMagnitude limit .tooLarge rest
  | s => readMagnitude limit .tooLarge s

/-- Reads a numeral of a value in `-limit - 1, …, limit`: digits, after a sign if there is one. -/
def readSigned (limit : Nat) : List Char → Except NumeralFault Int
  | [] => .error .empty
  | '+' :: rest => (readMagnitude limit .tooLarge rest).map Int.ofNat
  | '-' :: rest => (readMagnitude (limit + 1) .tooSmall rest).map fun n ↦ -Int.ofNat n
  | s => (readMagnitude limit .tooLarge s).map Int.ofNat

def maxWord : Nat := UInt64.size - 1

/-- The largest value of a 64-bit word with a sign. -/
def maxSignedWord : Nat := UInt64.size / 2 - 1

/-- Reads an unsigned numeral that a 64-bit word holds. -/
def readWord (s : List Char) : Except NumeralFault UInt64 :=
  (readUnsigned maxWord s).map UInt64.ofNat

/-! ## Reading undoes writing -/

theorem ofDigitChars_cons (c : Char) (s : List Char) (v : Nat) :
    Nat.ofDigitChars 10 (c :: s) v = Nat.ofDigitChars 10 s (v * 10 + digitValue c) := by
  simp [Nat.ofDigitChars, digitValue, Nat.mul_comm]

theorem le_ofDigitChars (s : List Char) (v : Nat) : v ≤ Nat.ofDigitChars 10 s v := by
  induction s generalizing v with
  | nil => exact Nat.le_refl v
  | cons c s ih =>
    rw [ofDigitChars_cons]
    exact Nat.le_trans (by omega) (ih _)

theorem readDigits_eq_ok {limit : Nat} {past : NumeralFault} {s : List Char} {v : Nat}
    (hs : ∀ c ∈ s, c.isDigit = true) (hv : Nat.ofDigitChars 10 s v ≤ limit) :
    readDigits limit past v s = .ok (Nat.ofDigitChars 10 s v) := by
  induction s generalizing v with
  | nil => rfl
  | cons c s ih =>
    rw [ofDigitChars_cons] at hv ⊢
    rw [readDigits, if_pos (hs c List.mem_cons_self)]
    simp only [if_pos (Nat.le_trans (le_ofDigitChars s _) hv)]
    exact ih (fun d hd ↦ hs d (List.mem_cons_of_mem c hd)) hv

theorem readUnsigned_toDigits {limit n : Nat} (h : n ≤ limit) :
    readUnsigned limit (Nat.toDigits 10 n) = .ok n := by
  have hdigit : ∀ c ∈ Nat.toDigits 10 n, c.isDigit = true := fun c hc ↦
    Nat.isDigit_of_mem_toDigits (by decide) (by decide) hc
  have hvalue : Nat.ofDigitChars 10 (Nat.toDigits 10 n) 0 = n :=
    Nat.ofDigitChars_toDigits (by decide) (by decide)
  have hread : readDigits limit .tooLarge 0 (Nat.toDigits 10 n) = .ok n := by
    rw [readDigits_eq_ok hdigit (by omega), hvalue]
  cases hs : Nat.toDigits 10 n with
  | nil => exact absurd hs Nat.toDigits_ne_nil
  | cons c s =>
    rw [hs] at hdigit hread
    have hplus : c ≠ '+' := by
      rintro rfl
      exact absurd (hdigit '+' List.mem_cons_self) (by decide)
    rw [readUnsigned]
    · simp [readMagnitude, hread]
    · simp
    · intro rest heq
      exact hplus (List.cons.inj heq).1

end RecursiveMatrix.Decimal
