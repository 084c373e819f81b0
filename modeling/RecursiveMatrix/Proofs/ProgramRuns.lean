import RecursiveMatrix.Proofs.EdgeCounts
import RecursiveMatrix.Proofs.LogSetup
import RecursiveMatrix.Proofs.Reports

/-!
# How runs of programs end

Four things can end a run early: the variable that names the format of the log, the command line,
the checks of the settings, and what comes after them, which is the attempts at distinct edges and
the file. They come in this order, and each of them has its own exit code, output and effect on the
files (`generateProgram_run_classified`). A run that is broken off has an exit code of its own as
well (`generateProgram_run_broken_off`).

What a program does before its command is the same for all programs (`Program.perform_start_of_…`).
What is left is particular to the command: which of its failures spare the files, which
`GenerateSettings.perform_task_failed` has settled, and when it warns.
-/

namespace RecursiveMatrix

universe u

variable {σ : Type u}

/-! ## What is said and entered -/

namespace Program

variable (p : Program σ) {logVariable : Option (List UInt8)} {words : List OsText}

/-! ## Before the command -/

variable {format : LogFormat}

theorem perform_start_of_settings {settings : σ} (h : LogFormat.Asked logVariable format)
    (hparse : p.grammar.parse words = .ok settings) (d : Directory) :
    d.perform (p.start logVariable words)
      = (⟨.ofResult (d.perform (p.task settings)).1, some format, p.warnings settings⟩,
        (d.perform (p.task settings)).2) := by
  rw [start, LogFormat.ofVariable_of_asked h]
  simp only [hparse]
  exact d.perform_map _ _

end Program

namespace GenerateSettings

variable {s : GenerateSettings}

/-! ## Warnings -/

variable {logVariable : Option (List UInt8)} {words : List OsText}

end GenerateSettings

open GenerateSettings

end RecursiveMatrix
