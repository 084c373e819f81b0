import Mathlib.Tactic.Common
import RecursiveMatrix.Text.Line

/-!
# The lines of a file

What the lines of a sequence of bytes are, without saying how they are found (`Lines`). The function
`lines` decides it, so every sequence of bytes has exactly one list of lines, whether they are text
(`Encodes`) or not.

The function first cuts at the line feeds, then looks at the pieces. The statements here go through
the bytes line by line instead: a line feed ends the first line, and what follows it has the other
lines (`lines_append_cons`).
-/

namespace RecursiveMatrix.Text

/-! ## Lines -/

/-- The lines of some bytes, from the first to the last. Only the last one can do without a line
feed at its end, and then it is not empty. -/
inductive Lines : List UInt8 → List (List UInt8) → Prop
  | nil : Lines [] []
  | unended {line : List UInt8} (hne : line ≠ []) (hline : lineFeed ∉ line) : Lines line [line]
  | feed {line rest : List UInt8} {others : List (List UInt8)} (hline : lineFeed ∉ line)
    (hreturn : line.getLast? ≠ some carriageReturn) (hrest : Lines rest others) :
    Lines (line ++ lineFeed :: rest) (line :: others)
  | returnFeed {line rest : List UInt8} {others : List (List UInt8)} (hline : lineFeed ∉ line)
    (hrest : Lines rest others) :
    Lines (line ++ carriageReturn :: lineFeed :: rest) (line :: others)

theorem lines_nil : lines [] = [] := by decide

theorem lines_of_not_mem {line : List UInt8} (hne : line ≠ []) (h : lineFeed ∉ line) :
    lines line = [line] := by
  rw [lines, List.splitOn_eq_singleton h]
  cases line with
  | nil => exact absurd rfl hne
  | cons b line => rfl

/-- **A line feed ends a line**, and what follows it has lines of its own. -/
theorem lines_append_cons {line : List UInt8} (h : lineFeed ∉ line) (rest : List UInt8) :
    lines (line ++ lineFeed :: rest) = dropReturn line :: lines rest := by
  have hne : rest.splitOn lineFeed ≠ [] := List.splitOn_ne_nil lineFeed rest
  simp only [lines, List.splitOn_append_cons_self_of_not_mem h, List.getLast?_cons_of_ne_nil hne,
    List.dropLast_cons_of_ne_nil hne, List.map_cons]
  split <;> rfl

theorem dropReturn_of_getLast? {line : List UInt8} (h : line.getLast? ≠ some carriageReturn) :
    dropReturn line = line := if_neg h

theorem dropReturn_append (line : List UInt8) : dropReturn (line ++ [carriageReturn]) = line := by
  rw [dropReturn, if_pos List.getLast?_concat, List.dropLast_concat]

theorem Lines.lines_eq {bytes : List UInt8} {ls : List (List UInt8)} (h : Lines bytes ls) :
    lines bytes = ls := by
  induction h with
  | nil => exact lines_nil
  | unended hne hline => exact lines_of_not_mem hne hline
  | feed hline hreturn _ ih =>
    rw [lines_append_cons hline, dropReturn_of_getLast? hreturn, ih]
  | @returnFeed line rest others hline _ ih =>
    have hmem : lineFeed ∉ line ++ [carriageReturn] := by
      rw [List.mem_append, List.mem_singleton]
      exact not_or.mpr ⟨hline, by decide⟩
    have hcut : line ++ carriageReturn :: lineFeed :: rest
        = (line ++ [carriageReturn]) ++ lineFeed :: rest := by
      rw [List.append_assoc, List.singleton_append]
    rw [hcut, lines_append_cons hmem, dropReturn_append, ih]

/-- Every sequence of bytes has lines: up to the first line feed there is one, if there is a line
feed at all. -/
theorem exists_lines (bytes : List UInt8) : ∃ ls, Lines bytes ls := by
  induction hn : bytes.length using Nat.strongRecOn generalizing bytes with
  | _ n ih =>
    by_cases hfeed : lineFeed ∈ bytes
    · obtain ⟨line, rest, rfl, hline⟩ := List.eq_append_cons_of_mem hfeed
      have hlt : rest.length < n := by
        rw [← hn, List.length_append, List.length_cons]
        omega
      obtain ⟨others, hothers⟩ := ih rest.length hlt rest rfl
      by_cases hreturn : line.getLast? = some carriageReturn
      · obtain ⟨front, rfl⟩ := List.getLast?_eq_some_iff.mp hreturn
        rw [List.append_assoc, List.singleton_append]
        exact ⟨front :: others, .returnFeed (fun h ↦ hline (List.mem_append_left _ h)) hothers⟩
      · exact ⟨line :: others, .feed hline hreturn hothers⟩
    · by_cases hne : bytes = []
      · exact ⟨[], hne ▸ .nil⟩
      · exact ⟨[bytes], .unended hne hfeed⟩

theorem lines_iff {bytes : List UInt8} {ls : List (List UInt8)} :
    Lines bytes ls ↔ lines bytes = ls := by
  refine ⟨Lines.lines_eq, ?_⟩
  rintro rfl
  obtain ⟨ls, h⟩ := exists_lines bytes
  rwa [h.lines_eq]

/-! ## Text -/

theorem decode?_eq_none_iff {bytes : List UInt8} :
    decode? bytes = none ↔ ¬ ∃ chars, Encodes bytes chars := by
  rw [Option.eq_none_iff_forall_ne_some, not_exists]
  exact forall_congr' fun chars ↦ not_congr decode?_eq_some_iff

end RecursiveMatrix.Text
