import RecursiveMatrix.Arguments.Help
import RecursiveMatrix.Arguments.Parser
import RecursiveMatrix.Command.Task
import RecursiveMatrix.Logging.Entry

/-!
# Programs

A program sets up its log, reads its command line and carries out its command, in this order. The
first of them that fails ends it, and only the command touches files. How a program ended decides
its exit code and what it writes (`Ending`).

A command that is broken off, because something does not fit that nothing has looked for, has no
result at all. It takes its program with it, which then says nothing on its own account.
-/

namespace RecursiveMatrix

/-! ## Failures of commands -/

/-- Why a command did not get to its end. -/
inductive CommandFailure where
  /-- No graph was generated. -/
  | generating (cause : Failure)
  /-- A file was not loaded. -/
  | loading (path : OsText) (cause : Failure)
  /-- A graph was not summarised. -/
  | summarising (cause : Failure)
  deriving DecidableEq

/-- The failure in words, with the chain of its causes. -/
def CommandFailure.message : CommandFailure → String
  | generating cause => s!"failed to generate graph: {cause.chain}"
  | loading path cause => s!"failed to load `{path.legible}`: {cause.chain}"
  | summarising cause => s!"failed to summarise graph: {cause.chain}"

/-! ## How programs end -/

/-- How a program ended. -/
inductive Ending where
  /-- The log could not be set up. -/
  | unlogged (fault : LogFault)
  /-- The command line was not accepted. -/
  | misused (fault : UsageError)
  /-- Help was given. -/
  | helped (text : String)
  /-- The command failed. -/
  | failed (failure : CommandFailure)
  /-- The command succeeded and had something to say. -/
  | finished (text : String)
  /-- The command was broken off. -/
  | broken

namespace Ending

/-- How a program ends with the result of its command. -/
def ofResult : Option (Except CommandFailure String) → Ending
  | some (.error failure) => failed failure
  | some (.ok text) => finished text
  | none => broken

def exitCode : Ending → UInt8
  | unlogged _ => 1
  | misused _ => 2
  | helped _ => 0
  | failed _ => 1
  | finished _ => 0
  | broken => 101

def output : Ending → String
  | helped text | finished text => text
  | _ => ""

/-- The first line written to standard error, apart from the log. -/
def complaint? : Ending → Option String
  | unlogged fault => some (Text.firstLine ("failed to initialize logging: " ++ fault.message))
  | misused fault => some (fault.headline .suspends)
  | _ => none

/-- The failure that is entered in the log. -/
def failure? : Ending → Option CommandFailure
  | failed failure => some failure
  | _ => none

end Ending

/-- What a run of a program amounts to. -/
structure Outcome where
  /-- How it ended. -/
  ending : Ending
  /-- The format of the log, if there is one. -/
  format? : Option LogFormat
  /-- The warnings entered in the log. -/
  warnings : List String

def Outcome.entries (o : Outcome) : List LogEntry :=
  o.warnings.map (⟨.warning, ·, none⟩)
    ++ o.ending.failure?.toList.map (⟨.error, "command execution failed", some ·.message⟩)

/-! ## Running -/

universe u

/-- A program. -/
structure Program (σ : Type u) where
  /-- Its command line. -/
  grammar : Grammar σ
  /-- What it warns of. -/
  warnings : σ → List String
  /-- What it does, and what it then says on standard output unless it is broken off. -/
  task : σ → FileTask (Option (Except CommandFailure String))

/-- Starts a program, given the value of the variable that names the format of the log and the words
of the command line. -/
def Program.start {σ : Type u} (p : Program σ) (logVariable : Option (List UInt8))
    (words : List OsText) : FileTask Outcome :=
  match LogFormat.ofVariable logVariable with
  | .error fault => .done ⟨.unlogged fault, none, []⟩
  | .ok format =>
    match p.grammar.parse words with
    | .error .helpWanted => .done ⟨.helped p.grammar.help, some format, []⟩
    | .error fault => .done ⟨.misused fault, some format, []⟩
    | .ok settings =>
      (p.task settings).map fun result ↦
        ⟨.ofResult result, some format, p.warnings settings⟩

end RecursiveMatrix
