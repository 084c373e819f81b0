/-!
# Lines of a file

A file is a sequence of bytes. A line feed ends a line, and so does a carriage return together with
the line feed after it; what follows the last line feed is a line of its own unless it is empty.
Whether a line is text is decided for every line on its own.
-/

namespace RecursiveMatrix.Text

/-- The byte that ends a line. -/
def lineFeed : UInt8 := 0x0A

/-- The byte that may stand before a line feed. -/
def carriageReturn : UInt8 := 0x0D

/-- Drops a carriage return from the end of a line. -/
def dropReturn (line : List UInt8) : List UInt8 :=
  if line.getLast? = some carriageReturn then line.dropLast else line

def lines (bytes : List UInt8) : List (List UInt8) :=
  let segments := bytes.splitOn lineFeed
  let ended := segments.dropLast.map dropReturn
  match segments.getLast? with
  | none | some [] => ended
  | some rest => ended ++ [rest]

/-- The characters of a line, if its bytes are UTF-8. -/
def decode? (line : List UInt8) : Option (List Char) :=
  (String.fromUTF8? line.toByteArray).map String.toList

/-- The bytes are the characters in UTF-8. -/
def Encodes (bytes : List UInt8) (chars : List Char) : Prop :=
  chars.flatMap String.utf8EncodeChar = bytes

theorem encodes_iff {bytes : List UInt8} {chars : List Char} :
    Encodes bytes chars ↔ chars.utf8Encode = bytes.toByteArray :=
  List.toByteArray_inj.symm

theorem decode?_eq_some_iff {bytes : List UInt8} {chars : List Char} :
    decode? bytes = some chars ↔ Encodes bytes chars := by
  rw [encodes_iff, decode?, Option.map_eq_some_iff]
  constructor
  · rintro ⟨s, hs, rfl⟩
    rw [String.fromUTF8?] at hs
    split at hs
    next hvalid =>
      obtain rfl := Option.some.inj hs
      exact String.utf8Encode_toList
    next => cases hs
  · intro h
    have hvalid : bytes.toByteArray.IsValidUTF8 := .intro chars h.symm
    refine ⟨String.fromUTF8 bytes.toByteArray hvalid, dif_pos hvalid, ?_⟩
    have hs : String.fromUTF8 bytes.toByteArray hvalid = String.ofList chars :=
      String.toByteArray_inj.mp (h.symm.trans String.toByteArray_ofList.symm)
    rw [hs, String.toList_ofList]

theorem encodes_toUTF8 (s : String) : Encodes s.toUTF8.data.toList s.toList := by
  rw [Encodes, String.toUTF8_eq_toByteArray, ← String.utf8Encode_toList, List.utf8Encode,
    List.toList_data_toByteArray]

end RecursiveMatrix.Text
