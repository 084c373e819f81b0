import Mathlib.Data.List.Sort
import RecursiveMatrix.Proofs.EdgeListGrammar

/-!
# A loader knows its own lines only

What a loader returns is a matter of the lines that it owns. If somebody empties all other lines of
a file, a loader that reads every line returns the same, and so does the loader itself when other
lines are put in their place, even lines that cannot be read (`reads_own_lines_only`).

An emptied line still counts as a line, so the lines after it keep their numbers and their owners.
It is skipped when it is read, which is why it can stand for a line that nobody looks at
(`mapM_of_skipped`).
-/

namespace RecursiveMatrix

namespace Text

/-! ## Emptying lines -/

/-- Puts the pieces between line feeds together again, with nothing left of those that are not kept.
What follows the last line feed would be no line if it were empty, so it leaves a line feed. -/
def rejoin : (keep : ℕ → Bool) → List (List UInt8) → List UInt8
  | _, [] => []
  | keep, [rest] => if rest.isEmpty || keep 0 then rest else [lineFeed]
  | keep, line :: others =>
    (if keep 0 then line else []) ++ lineFeed :: rejoin (fun n ↦ keep (n + 1)) others

/-- The bytes with all lines emptied that are not kept. -/
def emptyLines (keep : ℕ → Bool) (bytes : List UInt8) : List UInt8 :=
  rejoin keep (bytes.splitOn lineFeed)

theorem emptyLines_append_cons (keep : ℕ → Bool) {line : List UInt8} (h : lineFeed ∉ line)
    (rest : List UInt8) :
    emptyLines keep (line ++ lineFeed :: rest)
      = (if keep 0 then line else []) ++ lineFeed :: emptyLines (fun n ↦ keep (n + 1)) rest := by
  obtain ⟨next, others, heq⟩ := List.exists_cons_of_ne_nil (List.splitOn_ne_nil lineFeed rest)
  rw [emptyLines, List.splitOn_append_cons_self_of_not_mem h, emptyLines, heq]
  rfl

theorem emptyLines_of_not_mem (keep : ℕ → Bool) {line : List UInt8} (h : lineFeed ∉ line) :
    emptyLines keep line = if line.isEmpty || keep 0 then line else [lineFeed] := by
  rw [emptyLines, List.splitOn_eq_singleton h]
  rfl

theorem lines_emptyLines (keep : ℕ → Bool) (bytes : List UInt8) :
    lines (emptyLines keep bytes)
      = (lines bytes).mapIdx fun n line ↦ if keep n then line else [] := by
  induction hn : bytes.length using Nat.strong_induction_on generalizing bytes keep with
  | _ n ih =>
    by_cases hfeed : lineFeed ∈ bytes
    · obtain ⟨line, rest, rfl, hline⟩ := List.eq_append_cons_of_mem hfeed
      have hlt : rest.length < n := by
        rw [← hn, List.length_append, List.length_cons]
        omega
      have hrest := ih rest.length hlt (fun n ↦ keep (n + 1)) rest rfl
      rw [emptyLines_append_cons keep hline, lines_append_cons hline, List.mapIdx_cons, ← hrest]
      by_cases hkeep : keep 0 = true
      · rw [if_pos hkeep, if_pos hkeep, lines_append_cons hline]
      · rw [if_neg hkeep, if_neg hkeep, lines_append_cons List.not_mem_nil]
        rfl
    · rw [emptyLines_of_not_mem keep hfeed]
      by_cases hne : bytes = []
      · subst hne
        rfl
      · have hempty : bytes.isEmpty = false := List.isEmpty_eq_false_iff.mpr hne
        rw [lines_of_not_mem hne hfeed, hempty, Bool.false_or]
        by_cases hkeep : keep 0 = true
        · rw [if_pos hkeep, lines_of_not_mem hne hfeed, List.mapIdx_cons, if_pos hkeep]
          rfl
        · rw [if_neg hkeep, List.mapIdx_cons, if_neg hkeep]
          rfl

-- The first line ends in two bytes, the last one does not end.
example : emptyLines (fun n ↦ n % 2 == 0) [0x31, 0x0D, 0x0A, 0xFF] = [0x31, 0x0D, 0x0A, 0x0A] := by
  decide

end Text

/-! ## Skipping -/

section Skipping

variable {α β ε : Type*}

theorem map_reduceOption_cons (item : Except ε (Option β)) (others : Except ε (List (Option β))) :
    (do return (← item) :: (← others)).map List.reduceOption
      = item.bind fun x ↦ (others.map List.reduceOption).map (x.toList ++ ·) := by
  rcases item with e | _ | y
  · rfl
  · cases others with
    | error e => rfl
    | ok ys => rfl
  · cases others with
    | error e => rfl
    | ok ys => rfl

theorem mapM_of_skipped {f f' : α → Except ε (Option β)} {keep : α → Bool} {xs : List α}
    (h : ∀ x ∈ xs, f x = if keep x then f' x else .ok none) :
    (xs.mapM f).map List.reduceOption = ((xs.filter keep).mapM f').map List.reduceOption := by
  induction xs with
  | nil => rfl
  | cons x xs ih =>
    have hrest := ih fun y hy ↦ h y (List.mem_cons_of_mem x hy)
    rw [List.mapM_cons, map_reduceOption_cons, hrest, h x List.mem_cons_self]
    by_cases hkeep : keep x = true
    · rw [if_pos hkeep, List.filter_cons_of_pos hkeep, List.mapM_cons, map_reduceOption_cons]
    · rw [if_neg hkeep, List.filter_cons_of_neg hkeep]
      cases (xs.filter keep).mapM f' with
      | error e => rfl
      | ok ys => rfl

end Skipping

namespace Loader

variable {l : Loader} {path : OsText} {bytes : List UInt8}

theorem read_eq_map (l : Loader) (path : OsText) (bytes : List UInt8) :
    l.read path bytes
      = ((l.ownedLines bytes).mapM fun x ↦ readNumbered path x.1 x.2).map List.reduceOption := by
  rw [read]
  rfl

/-- A loader that reads every line returns what the owner of the lines does, if the others are
empty. -/
theorem read_whole_of_masked {masked : List UInt8}
    (h : Text.lines masked = (Text.lines bytes).mapIdx fun n line ↦ if l.owns n then line else []) :
    whole.read path masked = l.read path bytes := by
  have hlines : (Text.lines masked).zipIdx
      = (Text.lines bytes).zipIdx.map fun x ↦ (if l.owns x.2 then x.1 else [], x.2) := by
    rw [h]
    refine List.ext_getElem? fun n ↦ ?_
    simp only [List.getElem?_zipIdx, List.getElem?_mapIdx, List.getElem?_map, Option.map_map,
      Nat.zero_add]
    rfl
  rw [read_eq_map, read_eq_map, ownedLines_whole, hlines, List.mapM_map]
  apply mapM_of_skipped
  intro x _
  simp only [Function.comp]
  by_cases howned : l.owns x.2 = true
  · simp only [if_pos howned]
  · simp only [if_neg howned]
    rfl

theorem ownedLines_congr {other : List UInt8}
    (h : ∀ n, l.owns n = true → (Text.lines other)[n]? = (Text.lines bytes)[n]?) :
    l.ownedLines other = l.ownedLines bytes := by
  have hirrefl : Std.Irrefl fun x y : List UInt8 × ℕ ↦ x.2 < y.2 := ⟨fun x ↦ lt_irrefl x.2⟩
  have hantisymm : Std.Antisymm fun x y : List UInt8 × ℕ ↦ x.2 < y.2 :=
    ⟨fun _ _ hlt hgt ↦ absurd hgt hlt.asymm⟩
  apply (pairwise_ownedLines l other).eq_of_mem_iff (pairwise_ownedLines l bytes)
  rintro ⟨line, n⟩
  rw [mem_ownedLines_iff, mem_ownedLines_iff]
  exact and_congr_left fun howned ↦ by rw [h n howned]

theorem read_congr {other : List UInt8}
    (h : ∀ n, l.owns n = true → (Text.lines other)[n]? = (Text.lines bytes)[n]?) :
    l.read path other = l.read path bytes := by
  rw [read_eq_map, read_eq_map, ownedLines_congr h]

theorem ofIndex_eq_ok_iff {index peers : UInt64} :
    ofIndex index peers = .ok l ↔ l.index = index ∧ l.peers = peers := by
  constructor
  · intro h
    rw [ofIndex] at h
    split_ifs at h
    obtain rfl := Except.ok.inj h
    exact ⟨rfl, rfl⟩
  · rintro ⟨rfl, rfl⟩
    exact ofIndex_eq_ok l.index_lt

theorem exists_ofIndex_eq_error_iff {index peers : UInt64} :
    (∃ failure, ofIndex index peers = .error failure) ↔ peers = 0 ∨ peers ≤ index := by
  have hle : peers ≤ index ↔ ¬ index.toNat < peers.toNat :=
    UInt64.le_iff_toNat_le.trans Nat.not_lt.symm
  rw [ofIndex, hle]
  split_ifs with hzero hlt
  · exact iff_of_true ⟨_, rfl⟩ (.inl hzero)
  · exact iff_of_false (by simp) (not_or.mpr ⟨hzero, not_not.mpr hlt⟩)
  · exact iff_of_true ⟨_, rfl⟩ (.inr hlt)

/-- **A loader reads its own lines only.** It returns what a loader of all lines does once the lines
of the other loaders are empty, edges and failures alike, and it does not notice when other lines
take their place, whatever is in them. Loaders are turned down exactly if there is no peer or the
index is too large, so there is always something to divide line numbers by. -/
theorem reads_own_lines_only (index peers : UInt64) (path : OsText) (bytes : List UInt8) :
    ((∃ failure, ofIndex index peers = .error failure) ↔ peers = 0 ∨ peers ≤ index)
      ∧ ∀ l, ofIndex index peers = .ok l →
        let owned := fun n ↦ n % peers.toNat == index.toNat
        let emptied := (Text.lines bytes).mapIdx fun n line ↦ if owned n then line else []
        0 < peers.toNat
          ∧ Text.lines (Text.emptyLines owned bytes) = emptied
          ∧ (∀ masked, Text.lines masked = emptied →
            l.read path bytes = whole.read path masked)
          ∧ ∀ other,
            (∀ n, owned n = true → (Text.lines other)[n]? = (Text.lines bytes)[n]?) →
              l.read path other = l.read path bytes := by
  refine ⟨exists_ofIndex_eq_error_iff, ?_⟩
  intro l hl owned emptied
  obtain ⟨rfl, rfl⟩ := ofIndex_eq_ok_iff.mp hl
  refine ⟨Nat.zero_lt_of_lt l.index_lt, Text.lines_emptyLines owned bytes, ?_, ?_⟩
  · exact fun masked hmasked ↦ (read_whole_of_masked hmasked).symm
  · exact fun other hother ↦ read_congr hother

/-- The first line cannot be decoded, or is no edge, and the second of two loaders does not mind. -/
theorem reads_own_lines_only_for_second_of_two :
    ∃ l, ofIndex 1 2 = .ok l
      ∧ l.read "edges.txt" [0xFF, 0x0A, 0x31, 0x20, 0x32]
        = whole.read "edges.txt" [0x0A, 0x31, 0x20, 0x32]
      ∧ l.read "edges.txt" [0x2D, 0x0A, 0x31, 0x20, 0x32]
        = l.read "edges.txt" [0xFF, 0x0A, 0x31, 0x20, 0x32] := by
  obtain ⟨-, hloaders⟩ :=
    reads_own_lines_only 1 2 "edges.txt" [0xFF, 0x0A, 0x31, 0x20, 0x32]
  obtain ⟨-, -, hmasked, hother⟩ := hloaders ⟨1, 2, by decide⟩ rfl
  refine ⟨⟨1, 2, by decide⟩, rfl, hmasked _ (by decide), hother _ ?_⟩
  rintro (_ | _ | n) hn
  · exact absurd hn (by decide)
  · decide
  · rfl

end Loader

end RecursiveMatrix
