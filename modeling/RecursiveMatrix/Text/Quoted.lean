import RecursiveMatrix.Text.Line
import RecursiveMatrix.Text.Unmarked

/-!
# Quoting bytes

Bytes that are meant as text but need not be UTF-8 are quoted so that nothing is lost: what can be
read as a character is written as that character, or by an escape if it is a double quote, a
backslash, or leaves no mark of its own, and every other byte is written by its value.
-/

namespace RecursiveMatrix.Text

/-- A character inside double quotes. -/
def quotedChar (c : Char) : List Char :=
  if c = '\x00' then ['\\', '0']
  else if c = '\t' then ['\\', 't']
  else if c = '\n' then ['\\', 'n']
  else if c = '\r' then ['\\', 'r']
  else if c = '"' ∨ c = '\\' then ['\\', c]
  else if isUnmarked c then ['\\', 'u', '\x7b'] ++ Nat.toDigits 16 c.toNat ++ ['\x7d']
  else [c]

/-- A byte inside double quotes that is not part of a character. -/
def quotedByte (b : UInt8) : List Char :=
  ['\\', 'x', Char.toUpper (Nat.digitChar (b.toNat / 16)),
    Char.toUpper (Nat.digitChar (b.toNat % 16))]

/-- The character that some bytes start with, and how many of them it takes. -/
def leadingChar? (bytes : List UInt8) : Option (Char × Nat) :=
  [1, 2, 3, 4].findSome? fun n ↦
    match decode? (bytes.take n) with
    | some [c] => some (c, n)
    | _ => none

section Leading

variable {c d : Char} {rest rest' : List UInt8} {n : Nat}

theorem eq_of_utf8EncodeChar_append_eq
    (h : String.utf8EncodeChar c ++ rest = String.utf8EncodeChar d ++ rest') : c = d := by
  have hbytes := congrArg List.toByteArray h
  rw [List.toByteArray_append, List.toByteArray_append] at hbytes
  have hdecode := congrArg (·.utf8DecodeChar? 0) hbytes
  simp only [ByteArray.utf8DecodeChar?_utf8EncodeChar_append] at hdecode
  exact Option.some.inj hdecode

theorem take_utf8EncodeChar_append :
    (String.utf8EncodeChar c ++ rest).take c.utf8Size = String.utf8EncodeChar c := by
  rw [← String.length_utf8EncodeChar]
  exact List.take_left

/-- No fewer bytes than those of a character are a character. -/
theorem utf8Size_le_of_decode?_take
    (h : decode? ((String.utf8EncodeChar c ++ rest).take n) = some [d]) : c.utf8Size ≤ n := by
  have hd : String.utf8EncodeChar d = (String.utf8EncodeChar c ++ rest).take n := by
    rw [← decode?_eq_some_iff.mp h, List.flatMap_singleton]
  obtain rfl : c = d := by
    apply eq_of_utf8EncodeChar_append_eq
    rw [hd, List.take_append_drop]
  have hlength := congrArg List.length hd
  rw [List.length_take, String.length_utf8EncodeChar] at hlength
  omega

theorem leadingChar?_append :
    leadingChar? (String.utf8EncodeChar c ++ rest) = some (c, c.utf8Size) := by
  have hsize := c.utf8Size_eq
  rw [leadingChar?, List.findSome?_eq_some_iff]
  refine ⟨List.range' 1 (c.utf8Size - 1), c.utf8Size,
    List.range' (c.utf8Size + 1) (4 - c.utf8Size), ?_, ?_, fun n hn ↦ ?_⟩
  · rcases hsize with h | h | h | h <;> rw [h] <;> rfl
  · have hdecode : decode? (String.utf8EncodeChar c) = some [c] :=
      decode?_eq_some_iff.mpr (List.flatMap_singleton ..)
    rw [take_utf8EncodeChar_append, hdecode]
  · rw [List.mem_range'_1] at hn
    split
    next d hd =>
      have hle := utf8Size_le_of_decode?_take hd
      omega
    next => rfl

theorem exists_utf8EncodeChar_eq_cons (c : Char) :
    ∃ b more, String.utf8EncodeChar c = b :: more ∧ more.length = c.utf8Size - 1 := by
  have hlength := String.length_utf8EncodeChar c
  obtain ⟨b, more, hc⟩ := List.exists_cons_of_length_pos (hlength ▸ c.utf8Size_pos)
  rw [hc, List.length_cons] at hlength
  exact ⟨b, more, hc, Nat.eq_sub_of_add_eq hlength⟩

end Leading

/-- Quotes bytes, of which the first `taken` belong to a character already quoted. -/
def quotedFrom : (taken : Nat) → List UInt8 → List Char
  | _, [] => []
  | taken + 1, _ :: rest => quotedFrom taken rest
  | 0, b :: rest =>
    match leadingChar? (b :: rest) with
    | some (c, n) => quotedChar c ++ quotedFrom (n - 1) rest
    | none => quotedByte b ++ quotedFrom 0 rest

def quoted (bytes : List UInt8) : String := String.ofList (['"'] ++ quotedFrom 0 bytes ++ ['"'])

end RecursiveMatrix.Text
