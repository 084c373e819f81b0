import RecursiveMatrix.Decimal.Literal
import RecursiveMatrix.Text.OsText
import RecursiveMatrix.Text.Terminal

/-!
# Grammars of command lines

A command line is a list of words. Its grammar names the options a program knows and the places that
the words without an option fill, in order. What an option or a place does is to change the settings
of the program, so a grammar is made for one type of settings.

Some options are flags, and others take a value, which is the next word or is written right behind
them. A value is what the words have until the argument reads it; `ValueFault` is what can be wrong
with it. Names of files may be any bytes, and all other values have to be text.
-/

namespace RecursiveMatrix

/-! ## Values -/

/-- What can be wrong with a value. -/
inductive ValueFault where
  /-- There is nothing in it. -/
  | absent
  /-- It is no numeral. -/
  | numeral (fault : Decimal.NumeralFault)
  /-- The number is not among `0, …, limit`. -/
  | outOfRange (value : Int) (limit : Nat)
  /-- It is no floating-point literal. -/
  | literal (fault : Decimal.LiteralFault)
  /-- It is not UTF-8. -/
  | notText
  deriving DecidableEq, Repr

def ValueFault.message : ValueFault → String
  | absent => "a value is required"
  | numeral fault => fault.message
  | outOfRange value limit => s!"{value} is not in 0..={limit}"
  | literal fault => fault.message
  | notText => "invalid UTF-8 was detected in one or more arguments"

/-- Reads a name, which must not be empty. -/
def nameValue (w : OsText) : Except ValueFault OsText :=
  if w.isEmpty then .error .absent else .ok w

/-- Reads a value that has to be text. -/
def textValue : OsText → Except ValueFault (List Char)
  | .text s => .ok s.toList
  | .mangled .. => .error .notText

def wordValue (w : OsText) : Except ValueFault UInt64 := do
  (Decimal.readWord (← textValue w)).mapError .numeral

/-- Reads a 32-bit word. The numeral may be that of any signed 64-bit number, and its value is
looked at afterwards. -/
def halfWordValue (w : OsText) : Except ValueFault UInt32 := do
  let n ← (Decimal.readSigned Decimal.maxSignedWord (← textValue w)).mapError .numeral
  if 0 ≤ n ∧ n < UInt32.size then return UInt32.ofNat n.toNat
  else .error (.outOfRange n (UInt32.size - 1))

def realValue (w : OsText) : Except ValueFault Float := do
  (Decimal.readLiteral (← textValue w)).mapError .literal

/-! ## Arguments -/

universe u

/-- How an argument is given. -/
inductive ArgumentName where
  /-- By a word after two dashes. -/
  | long (word : String)
  /-- By a letter after one dash. -/
  | short (letter : Char)
  /-- By its place among the words without an option. -/
  | place (index : Nat)
  deriving DecidableEq, Repr

/-- What an argument does to the settings. -/
inductive Intake (σ : Type u) where
  /-- It needs no value. -/
  | flag (set : σ → σ)
  /-- It reads a value, which help texts call by a label. -/
  | value (label : String) (store : OsText → σ → Except ValueFault σ)

/-- An argument that a program knows. -/
structure Argument (σ : Type u) where
  /-- How it is given. -/
  name : ArgumentName
  /-- What it does. -/
  intake : Intake σ
  /-- What it is for. -/
  about : String
  /-- The value it has where none is given. -/
  standard? : Option String

/-- The argument as it is written on a command line. -/
def Argument.usage {σ : Type u} (a : Argument σ) : String :=
  let name :=
    match a.name with
    | .long word => ["--" ++ word]
    | .short letter => [String.ofList ['-', letter]]
    | .place _ => []
  let label :=
    match a.intake with
    | .flag _ => []
    | .value label _ => ["<" ++ label ++ ">"]
  String.intercalate " " (name ++ label)

/-- The command line of a program. -/
structure Grammar (σ : Type u) where
  /-- The name of the program. -/
  program : String
  /-- What the program does. -/
  about : String
  /-- The options. -/
  options : List (Argument σ)
  /-- The places, all of which have to be filled. -/
  places : List (Argument σ)
  /-- Negative numbers are values, although they start with a dash. -/
  negativeNumbers : Bool
  /-- The settings before the first word. -/
  initial : σ

/-- Every program knows this word and the letter it starts with: they ask for help. -/
def helpWord : String := "help"

/-! ## Errors -/

/-- Why a command line was not accepted. -/
inductive UsageError where
  /-- There is no such option, or no place for the word. -/
  | unknown (word : String)
  /-- An argument is without the value it needs. -/
  | valueMissing (argument : String)
  /-- A value could not be read. -/
  | valueRejected (argument value : String) (fault : ValueFault)
  /-- A value that has to be text is not UTF-8. -/
  | valueNotText
  /-- An argument is given twice. -/
  | repeated (argument : String)
  /-- A flag is given a value. -/
  | valueUnwanted (argument value : String)
  /-- Not all places are filled. -/
  | placesMissing
  /-- Help is asked for. -/
  | helpWanted
  deriving DecidableEq, Repr

namespace UsageError

open Text (emphasised)

/-- What is wrong, in words. What is quoted is emphasised. -/
def message : UsageError → String
  | unknown word => s!"unexpected argument '{emphasised word}' found"
  | valueMissing argument =>
    s!"a value is required for '{emphasised argument}' but none was supplied"
  | valueRejected argument value fault =>
    s!"invalid value '{emphasised value}' for '{emphasised argument}': {fault.message}"
  | valueNotText => ValueFault.notText.message
  | repeated argument => s!"the argument '{emphasised argument}' cannot be used multiple times"
  | valueUnwanted argument value =>
    s!"unexpected value '{emphasised value}' for '{emphasised argument}' found; "
      ++ "no more were expected"
  | placesMissing => "the following required arguments were not provided:"
  | helpWanted => "help requested"

/-- The first line of the complaint about a command line, without what a terminal does not show. -/
def headline (e : UsageError) (rule : Text.BlankRule) : String :=
  Text.firstLine (Text.shown rule ("error: " ++ e.message))

end UsageError

end RecursiveMatrix
