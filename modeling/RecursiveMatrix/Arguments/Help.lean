import RecursiveMatrix.Arguments.Grammar

/-!
# Help texts

The help text of a program says what the program does, how it is called, and what its arguments are
for. The arguments are listed in two columns, places first; options without a letter leave room for
one.
-/

namespace RecursiveMatrix

universe u

variable {σ : Type u}

/-- What an argument is for, and the value it has where none is given. -/
def Argument.description (a : Argument σ) : String :=
  match a.standard? with
  | none => a.about
  | some value => s!"{a.about} [default: {value}]"

def Argument.entry (a : Argument σ) : String :=
  match a.name with
  | .long _ => "    " ++ a.usage
  | _ => a.usage

/-- Lines of two columns, the right one as far to the left as it can be. -/
def columns (rows : List (String × String)) : List String :=
  let width := rows.foldl (fun n r ↦ max n r.1.length) 0
  rows.map fun r ↦ "  " ++ r.1 ++ String.ofList (List.replicate (width - r.1.length + 2) ' ') ++ r.2

namespace Grammar

variable (g : Grammar σ)

def usage : String :=
  String.intercalate " " (["Usage:", g.program, "[OPTIONS]"] ++ g.places.map Argument.usage)

def help : String :=
  let row := fun (a : Argument σ) ↦ (a.entry, a.description)
  let lines :=
    [g.about, "", g.usage, "", "Arguments:"] ++ columns (g.places.map row) ++ ["", "Options:"]
      ++ columns (g.options.map row ++ [("-h, --" ++ helpWord, "Print help")])
  String.join (lines.map (· ++ "\n"))

end Grammar

end RecursiveMatrix
