import RecursiveMatrix.Logging

/-!
# Entries of the log

An entry has a level and a message, and an entry about an error carries what is wrong as well. Each
entry is one line.
-/

namespace RecursiveMatrix

/-- How serious an entry is. -/
inductive LogLevel where
  /-- Something that the user may not expect. -/
  | warning
  /-- Something that ends the program. -/
  | error
  deriving DecidableEq, Repr

/-- The level as it is written in entries. -/
def LogLevel.name : LogLevel → String
  | warning => "WARN"
  | error => "ERROR"

/-- An entry. -/
structure LogEntry where
  /-- How serious it is. -/
  level : LogLevel
  /-- What happened. -/
  message : String
  /-- What is wrong. -/
  error? : Option String
  deriving DecidableEq, Repr

namespace LogEntry

/-- A character inside a JSON string. -/
def jsonChar (c : Char) : String :=
  if c = '"' then "\\\""
  else if c = '\\' then "\\\\"
  else if c.toNat < 32 then
    let ds := Nat.toDigits 16 c.toNat
    "\\u" ++ String.ofList (List.replicate (4 - ds.length) '0' ++ ds)
  else c.toString

def jsonString (s : String) : String := "\"" ++ String.join (s.toList.map jsonChar) ++ "\""

def jsonObject (fields : List (String × String)) : String :=
  "\x7b" ++ String.intercalate "," (fields.map fun f ↦ jsonString f.1 ++ ":" ++ f.2) ++ "\x7d"

def line (format : LogFormat) (e : LogEntry) : String :=
  match format with
  | .human =>
    String.intercalate " " ([e.level.name, e.message] ++ (e.error?.map ("error=" ++ ·)).toList)
  | .json =>
    let fields := [("message", e.message)] ++ (e.error?.map fun error ↦ ("error", error)).toList
    jsonObject
      [("level", jsonString e.level.name),
        ("fields", jsonObject (fields.map fun f ↦ (f.1, jsonString f.2)))]

end LogEntry

end RecursiveMatrix
