import RecursiveMatrix.Text.Quoted

/-!
# Text of the operating system

The words of a command line and the names of files are sequences of bytes. Hardly ever are they
anything but UTF-8, but nothing makes them so. A program that is given other bytes hands them on as
they are, and shows what is legible of them.

Bytes that are UTF-8 are kept as the text that they are, and only what does not fit
(`OsText.mangled`) has to be looked at byte by byte. Either way every sequence of bytes is kept
exactly once (`OsText.ofBytes_bytes`, `OsText.bytes_ofBytes`), and what is shown depends on the
bytes alone (`OsText.legible_eq`).
-/

namespace RecursiveMatrix

/-! ## Legible bytes -/

namespace Text

/-- The characters that some bytes start with, and what follows them, which starts with none. The
first `taken` bytes belong to a character already found. -/
def splitLegible : (taken : Nat) → List UInt8 → List Char × List UInt8
  | _, [] => ([], [])
  | taken + 1, _ :: rest => splitLegible taken rest
  | 0, b :: rest =>
    match leadingChar? (b :: rest) with
    | some (c, n) => ((c :: (splitLegible (n - 1) rest).1), (splitLegible (n - 1) rest).2)
    | none => ([], b :: rest)

/-- The bytes are the beginning of a character. If some bytes can complete them, these can. -/
def opensChar (bytes : List UInt8) : Bool :=
  [[0x80], [0x80, 0x80]].any fun more ↦
    match decode? (bytes ++ more) with
    | some [_] => true
    | _ => false

/-- How many bytes a single mark stands for where no character starts: as many as are the beginning
of one, and no fewer than one. -/
def strayLength (bytes : List UInt8) : Nat :=
  if 3 ≤ bytes.length && opensChar (bytes.take 3) then 3
  else if 2 ≤ bytes.length && opensChar (bytes.take 2) then 2
  else 1

/-- What is legible of some bytes, of which the first `taken` have been shown already. -/
def legibleFrom : (taken : Nat) → List UInt8 → List Char
  | _, [] => []
  | taken + 1, _ :: rest => legibleFrom taken rest
  | 0, b :: rest =>
    match leadingChar? (b :: rest) with
    | some (c, n) => c :: legibleFrom (n - 1) rest
    | none => '\uFFFD' :: legibleFrom (strayLength (b :: rest) - 1) rest

/-- What is legible of some bytes, with a mark for what is not. -/
def legible (bytes : List UInt8) : String := String.ofList (legibleFrom 0 bytes)

section Legible

variable {c : Char} {chars : List Char} {bytes rest taken : List UInt8}

theorem splitLegible_length_append :
    splitLegible taken.length (taken ++ rest) = splitLegible 0 rest := by
  induction taken with
  | nil => rfl
  | cons b taken ih =>
    rw [List.length_cons, List.cons_append, splitLegible]
    exact ih

theorem splitLegible_utf8EncodeChar_append :
    splitLegible 0 (String.utf8EncodeChar c ++ rest)
      = (c :: (splitLegible 0 rest).1, (splitLegible 0 rest).2) := by
  obtain ⟨b, more, hc, hlength⟩ := exists_utf8EncodeChar_eq_cons c
  rw [hc, List.cons_append, splitLegible, ← List.cons_append, ← hc, leadingChar?_append]
  simp only
  rw [← hlength, splitLegible_length_append]

/-- **Bytes are split behind the last character** of those that they start with. -/
theorem splitLegible_flatMap_append (h : leadingChar? rest = none) :
    splitLegible 0 (chars.flatMap String.utf8EncodeChar ++ rest) = (chars, rest) := by
  induction chars with
  | nil =>
    rw [List.flatMap_nil, List.nil_append]
    cases rest with
    | nil => rfl
    | cons b rest => rw [splitLegible, h]
  | cons c chars ih =>
    rw [List.flatMap_cons, List.append_assoc, splitLegible_utf8EncodeChar_append, ih]

theorem legibleFrom_length_append :
    legibleFrom taken.length (taken ++ rest) = legibleFrom 0 rest := by
  induction taken with
  | nil => rfl
  | cons b taken ih =>
    rw [List.length_cons, List.cons_append, legibleFrom]
    exact ih

theorem legibleFrom_utf8EncodeChar_append :
    legibleFrom 0 (String.utf8EncodeChar c ++ rest) = c :: legibleFrom 0 rest := by
  obtain ⟨b, more, hc, hlength⟩ := exists_utf8EncodeChar_eq_cons c
  rw [hc, List.cons_append, legibleFrom, ← List.cons_append, ← hc, leadingChar?_append]
  simp only
  rw [← hlength, legibleFrom_length_append]

theorem legibleFrom_flatMap : legibleFrom 0 (chars.flatMap String.utf8EncodeChar) = chars := by
  induction chars with
  | nil => rfl
  | cons c chars ih => rw [List.flatMap_cons, legibleFrom_utf8EncodeChar_append, ih]

theorem legible_of_encodes (h : Encodes bytes chars) : legible bytes = String.ofList chars := by
  rw [legible, ← h, legibleFrom_flatMap]

end Legible

end Text

/-! ## Text that may be mangled -/

/-- A sequence of bytes that is meant as text. -/
inductive OsText where
  /-- It is UTF-8. -/
  | text (s : String)
  /-- It is not. -/
  | mangled (bytes : List UInt8) (undecodable : Text.decode? bytes = none)
  deriving DecidableEq, Repr

namespace OsText

instance : Coe String OsText := ⟨text⟩

def ofBytes (bytes : List UInt8) : OsText :=
  match h : Text.decode? bytes with
  | some chars => text (String.ofList chars)
  | none => mangled bytes h

def bytes : OsText → List UInt8
  | text s => s.toUTF8.data.toList
  | mangled bytes _ => bytes

/-- What is shown of it. -/
def legible : OsText → String
  | text s => s
  | mangled bytes _ => Text.legible bytes

def isEmpty : OsText → Bool
  | text s => s.isEmpty
  | mangled .. => false

/-! ### Looking for a character of ASCII, which is a byte of its own -/

/-- The character occurs. -/
def has (c : Char) : OsText → Bool
  | text s => s.toList.contains c
  | mangled bytes _ => bytes.contains c.toUInt8

/-- The character comes first. -/
def startsWith (c : Char) : OsText → Bool
  | text s => s.toList.head? == some c
  | mangled bytes _ => bytes.head? == some c.toUInt8

/-- The character comes last. -/
def endsWith (c : Char) : OsText → Bool
  | text s => s.toList.getLast? == some c
  | mangled bytes _ => bytes.getLast? == some c.toUInt8

/-- What stands between the occurrences of the character, without what is empty. -/
def parts (c : Char) : OsText → List OsText
  | text s =>
    ((s.toList.splitOn c).filter fun part ↦ !part.isEmpty).map fun part ↦ text (String.ofList part)
  | mangled bytes _ => ((bytes.splitOn c.toUInt8).filter fun part ↦ !part.isEmpty).map ofBytes

/-! ### Putting text in front -/

/-- The text `front`, and then this one. -/
def after (front : String) : OsText → OsText
  | text s => text (front ++ s)
  | mangled bytes _ => ofBytes (front.toUTF8.data.toList ++ bytes)

def byteCount : OsText → Nat
  | text s => s.utf8ByteSize
  | mangled bytes _ => bytes.length

theorem bytes_ofBytes (bytes : List UInt8) : (ofBytes bytes).bytes = bytes := by
  rw [ofBytes]
  split
  next chars h =>
    refine (Text.encodes_toUTF8 _).symm.trans ?_
    rw [String.toList_ofList]
    exact Text.decode?_eq_some_iff.mp h
  next => rfl

theorem ofBytes_bytes (w : OsText) : ofBytes w.bytes = w := by
  cases w with
  | text s =>
    have hdecode : Text.decode? (bytes s) = some s.toList :=
      Text.decode?_eq_some_iff.mpr (Text.encodes_toUTF8 s)
    rw [ofBytes]
    split
    next chars h =>
      rw [← Option.some.inj (hdecode.symm.trans h), String.ofList_toList]
    next h => cases hdecode.symm.trans h
  | mangled bytes undecodable =>
    rw [ofBytes]
    split
    next chars h => cases undecodable.symm.trans h
    next => rfl

/-- **All that is legible is shown**, which is everything unless it is mangled. -/
theorem legible_eq (w : OsText) : w.legible = Text.legible w.bytes := by
  rcases w with s | _
  · rw [bytes, Text.legible_of_encodes (Text.encodes_toUTF8 s), String.ofList_toList, legible]
  · rfl

-- Two bytes that a third one would complete to a character share a mark.
example : Text.legible [0x61, 0xE2, 0x82, 0x62] = "a\uFFFDb" := by decide +kernel

end OsText

end RecursiveMatrix
