import RecursiveMatrix.Command.Generate
import RecursiveMatrix.Command.Inspect

/-!
# The command line

The first word names one of the two programs, and the other words are its command line. Tasks are
carried out on the files of the operating system, as far as their names are text.
-/

namespace RecursiveMatrix

/-- What is wrong with a file of the operating system. -/
def FileFault.ofError : IO.Error → FileFault
  | .noFileOrDirectory .. => .notFound
  | .inappropriateType _ 20 _ => .notFolder
  | .inappropriateType _ 21 _ => .isFolder
  | .resourceExhausted _ 28 _ => .noSpace
  | .invalidArgument _ 36 _ => .nameTooLong
  | error => .other s!"{error}"

/-- Does something with the file `path`, and reports its faults. -/
def withFile {α : Type} (path : OsText) (action : String → IO α) : IO (Except Failure α) := do
  match path with
  | .text name =>
    match ← (action name).toBaseIO with
    | .ok result => return .ok result
    | .error error => return .error (.storage path (.ofError error))
  | .mangled .. => return .error (.storage path (.other "file name was not valid UTF-8"))

/-- Carries out a task on the files of the operating system. -/
def FileTask.execute {α : Type} : FileTask α → IO α
  | .done result => return result
  | .save path supply next => do
    let written ← withFile path fun name ↦ do
      let handle ← IO.FS.Handle.mk name .write
      (supply.edges ()).forM fun e ↦ handle.putStr e.line
      handle.flush
    return next (written.map fun _ ↦ supply.count)
  | .load loader path next => do
    let bytes ← withFile path fun name ↦ do (← IO.FS.Handle.mk name .read).readBinToEnd
    return next (bytes.bind fun bytes ↦ loader.read path bytes.data.toList)

/-- Runs a program, and gives its exit code. -/
def Program.run {σ : Type} (p : Program σ) (words : List String) : IO UInt32 := do
  let logVariable ← IO.getEnv logFormatVariable
  let outcome ← (p.start (logVariable.map (·.toUTF8.data.toList)) (words.map .text)).execute
  if let some format := outcome.format? then
    outcome.entries.forM fun entry ↦ IO.eprintln (entry.line format)
  if let some complaint := outcome.ending.complaint? then
    IO.eprintln complaint
  IO.print outcome.ending.output
  return outcome.ending.exitCode.toUInt32

end RecursiveMatrix

open RecursiveMatrix in
/-- Runs the program that the first word names. -/
def main (words : List String) : IO UInt32 := do
  match words with
  | [] =>
    IO.eprintln s!"error: expected `{generateGrammar.program}` or `{inspectGrammar.program}`"
    return 2
  | name :: rest =>
    if name = generateGrammar.program then generateProgram.run rest
    else if name = inspectGrammar.program then inspectProgram.run rest
    else
      IO.eprintln s!"error: unknown program `{name}`"
      return 2
