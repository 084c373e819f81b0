import RecursiveMatrix.Arguments.Grammar

/-!
# Reading command lines

The words are read from left to right. An argument is opened when it is named, gets its value from
its own word or the next one, and is settled when the next argument is opened or the words are at an
end: only then its value is read. So a word that no argument is known for is reported even if the
value before it is a bad one.

A word is a value if it does not start with a dash, if it is a dash alone, or if it is a negative
number where a value can stand and the grammar allows it. The word of two dashes is none: all words
after it fill places, whatever they start with. Words that are not UTF-8 are read in the same way,
as far as they are legible; the name of an option is, and so are the letters behind a dash.
-/

namespace RecursiveMatrix

universe u

variable {σ : Type u}

/-- An argument that has been opened and not settled yet. -/
structure Pending (σ : Type u) where
  /-- The argument. -/
  argument : Argument σ
  /-- The value it has got. -/
  value? : Option OsText

/-- How far the words have been read. -/
structure Progress (σ : Type u) where
  /-- The settings made by the settled arguments. -/
  settings : σ
  /-- The settled arguments. -/
  given : List ArgumentName
  /-- The argument that is open. -/
  pending? : Option (Pending σ)
  /-- The places still to be filled. -/
  places : List (Argument σ)
  /-- All further words fill places. -/
  escaped : Bool

namespace Progress

/-- Settles an argument. That it has its value is checked first, then that it is given for the first
time, and then the value is read. -/
def store (p : Progress σ) (a : Argument σ) (value? : Option OsText) :
    Except UsageError (Progress σ) := do
  let p' := { p with given := a.name :: p.given }
  match a.intake, value? with
  | .flag set, _ =>
    if a.name ∈ p.given then .error (.repeated a.usage)
    else return { p' with settings := set p.settings }
  | .value .., none => .error (.valueMissing a.usage)
  | .value _ store, some value =>
    if a.name ∈ p.given then .error (.repeated a.usage)
    else
      match store value p.settings with
      | .ok settings => return { p' with settings }
      | .error .absent => .error (.valueMissing a.usage)
      | .error .notText => .error .valueNotText
      | .error fault => .error (.valueRejected a.usage value.legible fault)

def settle (p : Progress σ) : Except UsageError (Progress σ) :=
  match p.pending? with
  | none => .ok p
  | some pending => { p with pending? := none }.store pending.argument pending.value?

def settleAnd (p : Progress σ) (a : Argument σ) (value? : Option OsText) :
    Except UsageError (Progress σ) := do
  (← p.settle).store a value?

def openArgument (p : Progress σ) (a : Argument σ) (value? : Option OsText) :
    Except UsageError (Progress σ) := do
  return { ← p.settle with pending? := some ⟨a, value?⟩ }

def help (p : Progress σ) : Except UsageError (Progress σ) := do
  let _ ← p.settle
  .error .helpWanted

def fillPlace (p : Progress σ) (word : OsText) : Except UsageError (Progress σ) :=
  match p.places with
  | [] => .error (.unknown word.legible)
  | a :: places => return { ← p.openArgument a (some word) with places }

/-- The open argument, if it is still without a value. -/
def waiting? (p : Progress σ) : Option (Argument σ) :=
  p.pending?.bind fun pending ↦ if pending.value?.isNone then some pending.argument else none

/-- Uses a word as a value: for the argument that waits for one, and otherwise for the next
place. -/
def takeValue (p : Progress σ) (word : OsText) : Except UsageError (Progress σ) :=
  match p.waiting? with
  | some a => .ok { p with pending? := some ⟨a, some word⟩ }
  | none => p.fillPlace word

end Progress

/-- The text is a number without a sign: digits, at most one point, which is not the first character
and stands before the exponent, and at most one mark of an exponent, which is neither the first
character nor the last. -/
def isPlainNumber (s : List Char) : Bool :=
  let mantissa := s.takeWhile fun c ↦ c != 'e' && c != 'E'
  let power := s.drop mantissa.length
  let whole := mantissa.takeWhile (· != '.')
  let places := mantissa.drop whole.length
  whole.all Char.isDigit && (places.drop 1).all Char.isDigit && (power.drop 1).all Char.isDigit
    && (places.isEmpty || !whole.isEmpty) && (power.isEmpty || !mantissa.isEmpty)
    && power.length != 1

namespace Grammar

variable (g : Grammar σ)

/-- A word of a dash and `rest` is a negative number, and there is an argument to take it. -/
def isNegativeValue (p : Progress σ) (rest : List Char) : Bool :=
  g.negativeNumbers && isPlainNumber rest && (p.waiting?.isSome || !p.places.isEmpty)

/-- Reads the name of an option behind two dashes, and the value that is attached to it. -/
def takeLong (p : Progress σ) (word : String) (attached? : Option OsText) :
    Except UsageError (Progress σ) :=
  if word = helpWord then
    match attached? with
    | some value => .error (.valueUnwanted ("--" ++ helpWord) value.legible)
    | none => p.help
  else
    match g.options.find? (·.name = .long word) with
    | none => .error (.unknown ("--" ++ word))
    | some a =>
      match a.intake, attached? with
      | .flag _, some value => .error (.valueUnwanted a.usage value.legible)
      | .value .., none => p.openArgument a none
      | _, _ => p.settleAnd a attached?

/-- What is left of a word: characters, and bytes that no character starts. -/
def remainder (chars : List Char) (stray : List UInt8) : OsText :=
  if stray.isEmpty then .text (String.ofList chars)
  else .ofBytes ((String.ofList chars).toUTF8.data.toList ++ stray)

/-- Reads the letters of a word after its dash, and the bytes after them that no letter starts. A
letter that needs a value takes what is left of the word, without an equals sign in front, or waits
for the next word. -/
def takeShorts (p : Progress σ) : List Char → List UInt8 → Except UsageError (Progress σ)
  | [], [] => .ok p
  | [], stray => .error (.unknown ("-" ++ Text.legible stray))
  | c :: rest, stray =>
    if helpWord.toList.head? = some c then p.help
    else
      match g.options.find? (·.name = .short c) with
      | none => .error (.unknown (String.ofList ['-', c]))
      | some a =>
        match a.intake with
        | .flag _ => do takeShorts (← p.settleAnd a none) rest stray
        | .value .. =>
          match rest, stray with
          | [], [] => p.openArgument a none
          | '=' :: value, _ => p.settleAnd a (some (remainder value stray))
          | value, _ => p.settleAnd a (some (remainder value stray))

/-- Reads a word that is text. The value of an option stands after an equals sign. -/
def takeText (p : Progress σ) (word : String) : Except UsageError (Progress σ) :=
  match word.toList with
  | ['-', '-'] => .ok { p with escaped := true }
  | '-' :: '-' :: rest =>
    let attached? :=
      match rest.dropWhile (· != '=') with
      | [] => none
      | _ :: value => some (.text (String.ofList value))
    g.takeLong p (String.ofList (rest.takeWhile (· != '='))) attached?
  | ['-'] => p.takeValue word
  | '-' :: rest => if g.isNegativeValue p rest then p.takeValue word else g.takeShorts p rest []
  | _ => p.takeValue word

/-- Reads a word that is not UTF-8. Either the name of an option is not, or the value attached to
it. -/
def takeMangled (p : Progress σ) (word : OsText) : Except UsageError (Progress σ) :=
  match word.bytes with
  | 0x2D :: 0x2D :: rest =>
    let name := rest.takeWhile (· != 0x3D)
    match Text.decode? name with
    | none => .error (.unknown ("--" ++ Text.legible name))
    | some chars =>
      g.takeLong p (String.ofList chars) (some (.ofBytes (rest.drop (name.length + 1))))
  | 0x2D :: rest => g.takeShorts p (Text.splitLegible 0 rest).1 (Text.splitLegible 0 rest).2
  | _ => p.takeValue word

def takeWord (p : Progress σ) (word : OsText) : Except UsageError (Progress σ) :=
  if p.escaped then p.fillPlace word
  else
    match word with
    | .text s => g.takeText p s
    | .mangled .. => g.takeMangled p word

/-- Reads the words of a command line. -/
def parse (words : List OsText) : Except UsageError σ := do
  let p ← words.foldlM g.takeWord ⟨g.initial, [], none, g.places, false⟩
  let p ← p.settle
  if p.places.isEmpty then return p.settings else .error .placesMissing

end Grammar

end RecursiveMatrix
