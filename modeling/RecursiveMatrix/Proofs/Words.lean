import Mathlib.Data.List.DropRight
import Mathlib.Tactic.Common
import RecursiveMatrix.Text.Blank

/-!
# The words of a text

What it means to trim a text and to take it apart into words, without saying how it is done: a
trimmed text is what stands between the blanks at both ends (`Trimmed`), and words are stretches
without a blank that blanks keep apart (`Words`). Both are decided by the functions `trim` and
`fields`, so every text has exactly one trimmed form and one list of words.

Everything about fields follows from one equation: a blank cuts the fields of a text into those
before and those after it (`fields_append_cons`).
-/

namespace RecursiveMatrix.Text

/-- A text of blanks, if of anything. -/
def AllBlank (s : List Char) : Prop := ∀ c ∈ s, isBlank c = true

/-- A stretch of text without a blank. -/
structure IsWord (word : List Char) : Prop where
  ne_nil : word ≠ []
  not_blank : ∀ c ∈ word, isBlank c = false

/-! ## Trimming -/

/-- The text `t` stands between the blanks at the ends of `s`. -/
structure Trimmed (s t : List Char) : Prop where
  exists_blanks : ∃ before after, AllBlank before ∧ AllBlank after ∧ s = before ++ t ++ after
  head_not_blank : ∀ c ∈ t.head?, isBlank c = false
  last_not_blank : ∀ c ∈ t.getLast?, isBlank c = false

theorem head?_dropWhile_not_blank (s : List Char) :
    ∀ c ∈ (s.dropWhile isBlank).head?, isBlank c = false := by
  intro c hc
  have hnot := List.head?_dropWhile_not isBlank s
  rw [Option.mem_def.mp hc] at hnot
  exact hnot

theorem trim_eq (s : List Char) : trim s = (s.dropWhile isBlank).rdropWhile isBlank := rfl

theorem trimmed_trim (s : List Char) : Trimmed s (trim s) where
  exists_blanks := by
    refine ⟨s.takeWhile isBlank, (s.dropWhile isBlank).rtakeWhile isBlank,
      fun _ ↦ List.mem_takeWhile_imp, fun _ ↦ List.mem_rtakeWhile_imp, ?_⟩
    rw [trim_eq, List.append_assoc, List.rdropWhile_append_rtakeWhile,
      List.takeWhile_append_dropWhile]
  head_not_blank := by
    intro c hc
    -- Dropping blanks from the end leaves the first character in place, if it leaves any.
    obtain ⟨rest, hrest⟩ : trim s <+: s.dropWhile isBlank := List.rdropWhile_prefix _ _
    refine head?_dropWhile_not_blank s c ?_
    rw [← hrest, List.head?_append, Option.mem_def.mp hc]
    rfl
  last_not_blank := by
    intro c hc
    obtain ⟨hne, rfl⟩ := List.mem_getLast?_eq_getLast hc
    exact Bool.eq_false_iff.mpr (List.rdropWhile_last_not isBlank _ hne)

theorem Trimmed.trim_eq {s t : List Char} (h : Trimmed s t) : trim s = t := by
  obtain ⟨⟨before, after, hbefore, hafter, rfl⟩, hhead, hlast⟩ := h
  rw [Text.trim_eq, List.append_assoc, List.dropWhile_append_of_pos hbefore]
  cases t with
  | nil =>
    rw [List.nil_append, List.dropWhile_eq_nil_iff.mpr hafter, List.rdropWhile_nil]
  | cons c t =>
    have hfirst : ¬ isBlank c = true := Bool.eq_false_iff.mp (hhead c rfl)
    have hend : (c :: t).rdropWhile isBlank = c :: t := by
      refine List.rdropWhile_eq_self_iff.mpr fun hne ↦ Bool.eq_false_iff.mp ?_
      exact hlast _ (List.getLast?_eq_some_getLast hne)
    rw [List.cons_append, List.dropWhile_cons_of_neg hfirst, ← List.cons_append]
    rw [List.rdropWhile, List.reverse_append, List.dropWhile_append_of_pos]
    · exact hend
    · intro d hd
      exact hafter d (List.mem_reverse.mp hd)

theorem trimmed_iff {s t : List Char} : Trimmed s t ↔ trim s = t :=
  ⟨Trimmed.trim_eq, fun h ↦ h ▸ trimmed_trim s⟩

/-! ## Words -/

/-- The words of a text, from left to right. What follows a word is the end of the text or starts
with a blank, so a word is never cut in two. -/
inductive Words : List Char → List (List Char) → Prop
  | blank {s : List Char} (h : AllBlank s) : Words s []
  | word {before word rest : List Char} {words : List (List Char)} (hbefore : AllBlank before)
    (hword : IsWord word) (hrest : ∀ c ∈ rest.head?, isBlank c = true) (h : Words rest words) :
    Words (before ++ word ++ rest) (word :: words)

theorem fields_nil : fields [] = [] := by
  rw [fields, List.splitOnP_nil]
  rfl

/-- **A blank keeps fields apart.** -/
theorem fields_append_cons {c : Char} (hc : isBlank c = true) (s t : List Char) :
    fields (s ++ c :: t) = fields s ++ fields t := by
  rw [fields, List.splitOnP_append_cons s t hc, List.filter_append, fields, fields]

theorem fields_cons_of_blank {c : Char} (hc : isBlank c = true) (s : List Char) :
    fields (c :: s) = fields s := by
  rw [← List.nil_append (c :: s), fields_append_cons hc, fields_nil, List.nil_append]

theorem fields_append_of_allBlank {before : List Char} (h : AllBlank before) (s : List Char) :
    fields (before ++ s) = fields s := by
  induction before with
  | nil => rw [List.nil_append]
  | cons c before ih =>
    rw [List.cons_append, fields_cons_of_blank (h c List.mem_cons_self)]
    exact ih fun d hd ↦ h d (List.mem_cons_of_mem c hd)

theorem fields_of_allBlank {s : List Char} (h : AllBlank s) : fields s = [] := by
  have hnil := fields_append_of_allBlank h []
  rwa [List.append_nil, fields_nil] at hnil

theorem IsWord.fields_eq {word : List Char} (h : IsWord word) : fields word = [word] := by
  have hkept : (!word.isEmpty) = true := by
    rw [Bool.not_eq_true', List.isEmpty_eq_false_iff]
    exact h.ne_nil
  rw [fields, List.splitOnP_eq_singleton h.not_blank, List.filter_singleton, hkept]
  rfl

theorem IsWord.fields_append {word : List Char} (h : IsWord word) {rest : List Char}
    (hrest : ∀ c ∈ rest.head?, isBlank c = true) : fields (word ++ rest) = word :: fields rest := by
  cases rest with
  | nil => rw [List.append_nil, h.fields_eq, fields_nil]
  | cons c rest =>
    have hc : isBlank c = true := hrest c rfl
    rw [fields_append_cons hc, h.fields_eq, fields_cons_of_blank hc, List.singleton_append]

theorem Words.fields_eq {s : List Char} {words : List (List Char)} (h : Words s words) :
    fields s = words := by
  induction h with
  | blank h => exact fields_of_allBlank h
  | word hbefore hword hrest _ ih =>
    rw [List.append_assoc, fields_append_of_allBlank hbefore, hword.fields_append hrest, ih]

theorem exists_blanks_append (s : List Char) :
    ∃ before rest, s = before ++ rest ∧ AllBlank before ∧ ∀ c ∈ rest.head?, isBlank c = false :=
  ⟨s.takeWhile isBlank, s.dropWhile isBlank, List.takeWhile_append_dropWhile.symm,
    fun _ ↦ List.mem_takeWhile_imp, head?_dropWhile_not_blank s⟩

/-- A character that is no blank starts a word, which ends before the next blank. -/
theorem exists_word_append {c : Char} (hc : isBlank c = false) (s : List Char) :
    ∃ word rest, s = word ++ rest ∧ IsWord (c :: word) ∧ ∀ d ∈ rest.head?, isBlank d = true := by
  refine ⟨s.takeWhile fun d ↦ !isBlank d, s.dropWhile fun d ↦ !isBlank d,
    List.takeWhile_append_dropWhile.symm, ⟨List.cons_ne_nil c _, ?_⟩, ?_⟩
  · intro d hd
    rcases List.mem_cons.mp hd with rfl | hd
    · exact hc
    · simpa using List.mem_takeWhile_imp hd
  · intro d hd
    have hnot := List.head?_dropWhile_not (fun d ↦ !isBlank d) s
    rw [Option.mem_def.mp hd] at hnot
    simpa using hnot

/-- Every text has words: past the blanks at its beginning there is nothing, or a word. -/
theorem exists_words (s : List Char) : ∃ words, Words s words := by
  induction hn : s.length using Nat.strong_induction_on generalizing s with
  | _ n ih =>
    obtain ⟨before, main, rfl, hbefore, hmain⟩ := exists_blanks_append s
    cases main with
    | nil =>
      rw [List.append_nil]
      exact ⟨[], .blank hbefore⟩
    | cons c main =>
      obtain ⟨word, rest, rfl, hword, hrest⟩ := exists_word_append (hmain c rfl) main
      have hlt : rest.length < n := by
        rw [← hn, List.length_append, List.length_cons, List.length_append]
        omega
      obtain ⟨words, hwords⟩ := ih rest.length hlt rest rfl
      rw [← List.cons_append, ← List.append_assoc]
      exact ⟨(c :: word) :: words, .word hbefore hword hrest hwords⟩

theorem words_iff {s : List Char} {words : List (List Char)} :
    Words s words ↔ fields s = words := by
  refine ⟨Words.fields_eq, ?_⟩
  rintro rfl
  obtain ⟨words, h⟩ := exists_words s
  rwa [h.fields_eq]

theorem exists_fields_cons {c : Char} (hc : isBlank c = false) (s : List Char) :
    ∃ word words, fields (c :: s) = (c :: word) :: words := by
  obtain ⟨word, rest, rfl, hword, hrest⟩ := exists_word_append hc s
  exact ⟨word, fields rest, hword.fields_append hrest⟩

end RecursiveMatrix.Text
