import RecursiveMatrix.Text.Blank
import RecursiveMatrix.Text.Quoted

/-!
# Setting up the log

A process has one log, and at most one party owns it. Setting the log up reads the wanted format
from an environment variable, becomes the owner unless there is one already, and is then done for
good: setting it up again does nothing, whatever the variable holds by then.

A variable that names no format fails the attempt and leaves everything as it was, so that a later
attempt may succeed. An owner from elsewhere is kept, and one line on standard error says so.
-/

namespace RecursiveMatrix

/-- The variable that names the format of the log. -/
def logFormatVariable : String := "RMAT_LOG_FORMAT"

/-- How the entries of the log are written. -/
inductive LogFormat where
  /-- For people. -/
  | human
  /-- For programs. -/
  | json
  deriving DecidableEq, Repr

/-- Why a format could not be read from the variable. -/
inductive LogFault where
  /-- The value is not UTF-8. -/
  | notText (value : List UInt8)
  /-- The value names no format. -/
  | unsupported (name : String)
  deriving DecidableEq, Repr

def LogFault.message : LogFault → String
  | notText value =>
    s!"environment variable `{logFormatVariable}` contained invalid UTF-8: "
      ++ s!"environment variable was not valid unicode: {Text.quoted value}"
  | unsupported name => s!"unsupported log format `{name}`; expected `human` or `json`"

/-- The format that the value of the variable names; without a value the log is written for people.
Blanks around a name do not matter, nor does the case of ASCII letters. -/
def LogFormat.ofVariable : Option (List UInt8) → Except LogFault LogFormat
  | none => .ok .human
  | some value =>
    match Text.decode? value with
    | none => .error (.notText value)
    | some chars =>
      match String.ofList ((Text.trim chars).map Char.toLower) with
      | "human" => .ok .human
      | "json" => .ok .json
      | name => .error (.unsupported name)

/-- Who the entries of the log go to. -/
inductive LogOwner where
  /-- This library, which writes them to standard error. -/
  | self (format : LogFormat)
  /-- Somebody else. -/
  | foreign
  deriving DecidableEq, Repr

/-- The log of a process. -/
structure LogState where
  /-- Setting up is done. -/
  ready : Bool
  /-- Who owns the log. -/
  owner? : Option LogOwner
  deriving DecidableEq, Repr

namespace LogState

/-- The log of a new process. -/
def initial : LogState := ⟨false, none⟩

/-- The line that reports an owner from elsewhere. -/
def foreignNotice : String :=
  "structured logging already configured elsewhere: "
    ++ "a global default trace dispatcher has already been set"

/-- Sets up the log, given the value of the variable. The last component holds the lines written to
standard error. -/
def setUp (s : LogState) (value : Option (List UInt8)) :
    Except LogFault Unit × LogState × List String :=
  if s.ready then (.ok (), s, [])
  else
    match LogFormat.ofVariable value with
    | .error fault => (.error fault, s, [])
    | .ok format =>
      match s.owner? with
      | none => (.ok (), ⟨true, some (.self format)⟩, [])
      | some owner => (.ok (), ⟨true, some owner⟩, [foreignNotice])

/-- Somebody else wants to own the log, which succeeds if nobody does. -/
def occupy (s : LogState) : Bool × LogState :=
  match s.owner? with
  | none => (true, { s with owner? := some .foreign })
  | some _ => (false, s)

end LogState

end RecursiveMatrix
