import RecursiveMatrix.Proofs.FileLines
import RecursiveMatrix.Proofs.LineOwnership
import RecursiveMatrix.Proofs.Numerals
import RecursiveMatrix.Proofs.Words

/-!
# The grammar of edge lists

Which sequences of bytes are edge lists, and what is wrong with those that are not, without saying
how they are read. The grammar comes in three layers: the fields of a line with an edge
(`FieldsRead`), a line of characters, which may also be skipped (`LineReads`), and a line of bytes
(`Reads`). Beside each layer stands what breaks it (`FieldsBreak`, `LineBreaks`, `Breaks`), with
one rule for each reason; the premises of a rule exclude the reasons that come before it.

The main result is that a file is read if and only if it is an edge list, and that the failure is
that of the first line that breaks the grammar otherwise (`read_whole_iff_grammar`). A line whose
source is missing is an empty line, and those are skipped, so there is no rule for that reason.
-/

namespace RecursiveMatrix

open Text Decimal

/-! ## Fields -/

/-- The field is a numeral of a value that a vertex can have. -/
def IsVertex (field : List Char) : Prop := ∃ n < 2 ^ 64, Numeral field n

theorem isVertex_iff {field : List Char} :
    IsVertex field ↔ ∃ v : Vertex, Numeral field v.toNat := by
  constructor
  · rintro ⟨n, hlt, hn⟩
    exact ⟨UInt64.ofNat n, by rwa [UInt64.toNat_ofNat_of_lt' hlt]⟩
  · rintro ⟨v, hv⟩
    exact ⟨v.toNat, v.toNat_lt, hv⟩

theorem readVertex_eq_ok_iff {place : EdgeEnd} {field : List Char} {v : Vertex} :
    readVertex place field = .ok v ↔ Numeral field v.toNat := by
  rw [readVertex, Except.mapError_eq_ok_iff, readWord_eq_ok_iff]

theorem exists_readVertex_iff {place : EdgeEnd} {field : List Char} :
    (∃ v, readVertex place field = .ok v) ↔ IsVertex field := by
  rw [isVertex_iff]
  exact exists_congr fun v ↦ readVertex_eq_ok_iff

theorem readVertex_eq_error_iff {place : EdgeEnd} {field : List Char} {fault : LineFault} :
    readVertex place field = .error fault
      ↔ ¬ IsVertex field ∧ fault = .unreadable place (String.ofList field) := by
  rw [← @exists_readVertex_iff place]
  constructor
  · intro h
    refine ⟨?_, ?_⟩
    · rintro ⟨v, hv⟩
      rw [hv] at h
      cases h
    · obtain ⟨-, -, rfl⟩ := Except.mapError_eq_error_iff.mp h
      rfl
  · rintro ⟨hnone, rfl⟩
    cases h : readVertex place field with
    | ok v => exact absurd ⟨v, h⟩ hnone
    | error fault =>
      obtain ⟨-, -, rfl⟩ := Except.mapError_eq_error_iff.mp h
      rfl

/-- The fields are the two ends of the edge. -/
inductive FieldsRead : List (List Char) → Edge → Prop
  | edge {source target : List Char} {e : Edge} (hsource : Numeral source e.src.toNat)
    (htarget : Numeral target e.dst.toNat) : FieldsRead [source, target] e

/-- The fields are no edge, and this is the first reason. -/
inductive FieldsBreak : List (List Char) → LineFault → Prop
  | source {source : List Char} {others : List (List Char)} (hsource : ¬ IsVertex source) :
    FieldsBreak (source :: others) (.unreadable .source (String.ofList source))
  | noTarget {source : List Char} (hsource : IsVertex source) :
    FieldsBreak [source] (.missing .target)
  | target {source target : List Char} {others : List (List Char)} (hsource : IsVertex source)
    (htarget : ¬ IsVertex target) :
    FieldsBreak (source :: target :: others) (.unreadable .target (String.ofList target))
  | trailing {source target extra : List Char} {others : List (List Char)}
    (hsource : IsVertex source) (htarget : IsVertex target) :
    FieldsBreak (source :: target :: extra :: others) (.trailing (String.ofList extra))

theorem readFields_eq_ok_iff {fields : List (List Char)} {e : Edge} :
    readFields fields = .ok e ↔ FieldsRead fields e := by
  constructor
  · intro h
    rcases fields with _ | ⟨source, _ | ⟨target, _ | ⟨extra, others⟩⟩⟩
    · cases h
    · obtain ⟨v, -, h⟩ := Except.bind_eq_ok_iff.mp h
      cases h
    · obtain ⟨v, hv, h⟩ := Except.bind_eq_ok_iff.mp h
      obtain ⟨w, hw, h⟩ := Except.bind_eq_ok_iff.mp h
      obtain rfl := Except.ok.inj h
      exact .edge (readVertex_eq_ok_iff.mp hv) (readVertex_eq_ok_iff.mp hw)
    · obtain ⟨v, -, h⟩ := Except.bind_eq_ok_iff.mp h
      obtain ⟨w, -, h⟩ := Except.bind_eq_ok_iff.mp h
      cases h
  · rintro ⟨hsource, htarget⟩
    exact Except.bind_eq_ok_iff.mpr ⟨e.src, readVertex_eq_ok_iff.mpr hsource,
      Except.bind_eq_ok_iff.mpr ⟨e.dst, readVertex_eq_ok_iff.mpr htarget, rfl⟩⟩

theorem readFields_eq_error_iff {fields : List (List Char)} (hne : fields ≠ [])
    {fault : LineFault} : readFields fields = .error fault ↔ FieldsBreak fields fault := by
  constructor
  · intro h
    rcases fields with _ | ⟨source, rest⟩
    · exact absurd rfl hne
    rcases Except.bind_eq_error_iff.mp h with h | ⟨v, hv, h⟩
    · obtain ⟨hsource, rfl⟩ := readVertex_eq_error_iff.mp h
      exact .source hsource
    have hsource : IsVertex source := exists_readVertex_iff.mp ⟨v, hv⟩
    rcases rest with _ | ⟨target, rest⟩
    · obtain rfl := Except.error.inj h
      exact .noTarget hsource
    rcases Except.bind_eq_error_iff.mp h with h | ⟨w, hw, h⟩
    · obtain ⟨htarget, rfl⟩ := readVertex_eq_error_iff.mp h
      exact .target hsource htarget
    have htarget : IsVertex target := exists_readVertex_iff.mp ⟨w, hw⟩
    rcases rest with _ | ⟨extra, others⟩
    · cases h
    · obtain rfl := Except.error.inj h
      exact .trailing hsource htarget
  · intro h
    cases h with
    | source hsource =>
      exact Except.bind_eq_error_iff.mpr (.inl (readVertex_eq_error_iff.mpr ⟨hsource, rfl⟩))
    | noTarget hsource =>
      obtain ⟨v, hv⟩ := exists_readVertex_iff.mpr hsource
      exact Except.bind_eq_error_iff.mpr (.inr ⟨v, hv, rfl⟩)
    | target hsource htarget =>
      obtain ⟨v, hv⟩ := exists_readVertex_iff.mpr hsource
      refine Except.bind_eq_error_iff.mpr (.inr ⟨v, hv, ?_⟩)
      exact Except.bind_eq_error_iff.mpr (.inl (readVertex_eq_error_iff.mpr ⟨htarget, rfl⟩))
    | trailing hsource htarget =>
      obtain ⟨v, hv⟩ := exists_readVertex_iff.mpr hsource
      obtain ⟨w, hw⟩ := exists_readVertex_iff.mpr htarget
      refine Except.bind_eq_error_iff.mpr (.inr ⟨v, hv, ?_⟩)
      exact Except.bind_eq_error_iff.mpr (.inr ⟨w, hw, rfl⟩)

theorem LineFault.message_eq_iff {fault : LineFault} :
    fault.message = "missing source node" ↔ fault = .missing .source := by
  refine ⟨fun h ↦ ?_, fun h ↦ h ▸ rfl⟩
  -- The first letter tells faults of different kinds apart.
  have hfirst : fault.message.toList.head? = some 'm' := h ▸ rfl
  have hhead : ∀ {first : String} {c : Char}, first.toList.head? = some c →
      ∀ rest : String, (first ++ rest).toList.head? = some c := by
    intro first c hc rest
    rw [String.toList_append, List.head?_append, hc]
    rfl
  cases fault with
  | missing place =>
    cases place with
    | source => rfl
    | target => exact absurd h (by decide +kernel)
  | unreadable place field =>
    have hi : ("invalid " ++ place.name ++ " node `" ++ field ++ "`").toList.head? = some 'i' :=
      hhead (hhead (hhead (hhead rfl _) _) _) _
    exact absurd (hi.symm.trans hfirst) (by decide)
  | trailing field =>
    have hu : ("unexpected trailing field `" ++ field ++ "`").toList.head? = some 'u' :=
      hhead (hhead rfl _) _
    exact absurd (hu.symm.trans hfirst) (by decide)

theorem FieldsBreak.ne_nil {fields : List (List Char)} {fault : LineFault}
    (h : FieldsBreak fields fault) : fields ≠ [] := by
  cases h with
  | source | noTarget | target | trailing => exact List.cons_ne_nil _ _

theorem FieldsBreak.ne_missing_source {fields : List (List Char)} {fault : LineFault}
    (h : FieldsBreak fields fault) : fault ≠ .missing .source := by
  cases h with
  | noTarget => decide
  | source | target | trailing => exact LineFault.noConfusion

/-! ## Lines of characters -/

/-- The line holds an edge, or nothing and is skipped. -/
inductive LineReads : List Char → Option Edge → Prop
  | blank {s : List Char} (h : Trimmed s []) : LineReads s none
  | comment {s rest : List Char} (h : Trimmed s ('#' :: rest)) : LineReads s none
  | edge {s t : List Char} {fields : List (List Char)} {e : Edge} (h : Trimmed s t)
    (hwords : Words t fields) (hfields : FieldsRead fields e) : LineReads s (some e)

/-- The line is neither skipped nor an edge, and this is the first reason. -/
inductive LineBreaks : List Char → LineFault → Prop
  | fields {s t : List Char} {fields : List (List Char)} {fault : LineFault} (h : Trimmed s t)
    (hcomment : t.head? ≠ some '#') (hwords : Words t fields) (hfields : FieldsBreak fields fault) :
    LineBreaks s fault

theorem readLine_of_trimmed {s t : List Char} (h : Trimmed s t) (hne : t ≠ [])
    (hcomment : t.head? ≠ some '#') : readLine s = (readFields (fields t)).map some := by
  rw [readLine, h.trim_eq]
  cases t with
  | nil => exact absurd rfl hne
  | cons c rest => exact if_neg fun hc ↦ hcomment (congrArg some hc)

theorem exists_skipped_or_trimmed (s : List Char) :
    (readLine s = .ok none ∧ LineReads s none)
      ∨ ∃ t, Trimmed s t ∧ t ≠ [] ∧ t.head? ≠ some '#' := by
  cases ht : trim s with
  | nil => exact .inl ⟨by rw [readLine, ht], .blank (trimmed_iff.mpr ht)⟩
  | cons c rest =>
    by_cases hc : c = '#'
    · subst hc
      refine .inl ⟨?_, .comment (trimmed_iff.mpr ht)⟩
      rw [readLine, ht]
      exact if_pos rfl
    · refine .inr ⟨c :: rest, trimmed_iff.mpr ht, List.cons_ne_nil c rest, fun h ↦ ?_⟩
      exact hc (Option.some.inj h)

/-- A line with an edge is no comment: a comment would be a numeral that starts with a number
sign. -/
theorem FieldsRead.head?_ne {t : List Char} {e : Edge} (h : FieldsRead (fields t) e) :
    t ≠ [] ∧ t.head? ≠ some '#' := by
  constructor
  · rintro rfl
    cases h
  · intro hcomment
    obtain ⟨rest, rfl⟩ := List.head?_eq_some_iff.mp hcomment
    obtain ⟨word, words, heq⟩ := exists_fields_cons (c := '#') (by decide) rest
    rw [heq] at h
    cases h with
    | edge hsource =>
      rcases hsource.isDigit_or_eq '#' List.mem_cons_self with h | h
      · exact absurd h (by decide)
      · exact absurd h (by decide)

theorem readLine_eq_ok_iff {s : List Char} {item : Option Edge} :
    readLine s = .ok item ↔ LineReads s item := by
  constructor
  · intro h
    rcases exists_skipped_or_trimmed s with ⟨hread, hline⟩ | ⟨t, ht, hne, hcomment⟩
    · obtain rfl := Except.ok.inj (hread.symm.trans h)
      exact hline
    · rw [readLine_of_trimmed ht hne hcomment] at h
      obtain ⟨e, he, rfl⟩ := Except.map_eq_ok_iff.mp h
      exact .edge ht (words_iff.mpr rfl) (readFields_eq_ok_iff.mp he)
  · intro h
    cases h with
    | blank h => rw [readLine, h.trim_eq]
    | comment h =>
      rw [readLine, h.trim_eq]
      exact if_pos rfl
    | edge h hwords hfields =>
      obtain rfl := hwords.fields_eq
      obtain ⟨hne, hcomment⟩ := hfields.head?_ne
      rw [readLine_of_trimmed h hne hcomment, readFields_eq_ok_iff.mpr hfields]
      rfl

theorem readLine_eq_error_iff {s : List Char} {fault : LineFault} :
    readLine s = .error fault ↔ LineBreaks s fault := by
  have hfields : ∀ {t : List Char}, t ≠ [] → Trimmed s t → fields t ≠ [] := by
    intro t hne ht
    obtain ⟨c, rest, rfl⟩ := List.exists_cons_of_ne_nil hne
    obtain ⟨word, words, heq⟩ := exists_fields_cons (ht.head_not_blank c rfl) rest
    exact heq ▸ List.cons_ne_nil _ words
  constructor
  · intro h
    rcases exists_skipped_or_trimmed s with ⟨hread, -⟩ | ⟨t, ht, hne, hcomment⟩
    · cases hread.symm.trans h
    · rw [readLine_of_trimmed ht hne hcomment, Except.map_eq_error_iff,
        readFields_eq_error_iff (hfields hne ht)] at h
      exact .fields ht hcomment (words_iff.mpr rfl) h
  · rintro ⟨ht, hcomment, hwords, hbreak⟩
    obtain rfl := hwords.fields_eq
    have hne := hbreak.ne_nil
    rw [readLine_of_trimmed ht (fun h ↦ hne (h ▸ fields_nil)) hcomment, Except.map_eq_error_iff,
      readFields_eq_error_iff hne]
    exact hbreak

/-! ## Lines of bytes -/

/-- The bytes are the text of a line that can be read. -/
def Reads (line : List UInt8) (item : Option Edge) : Prop :=
  ∃ chars, Encodes line chars ∧ LineReads chars item

/-- The bytes cannot be read as line `n`, counted from zero. -/
inductive Breaks (path : OsText) (n : ℕ) : List UInt8 → Failure → Prop
  | notText {line : List UInt8} (h : ¬ ∃ chars, Encodes line chars) :
    Breaks path n line (.storage path .notText)
  | malformed {line : List UInt8} {chars : List Char} {fault : LineFault} (h : Encodes line chars)
    (hbreaks : LineBreaks chars fault) : Breaks path n line (.malformed (n + 1) fault)

namespace Loader

variable {path : OsText} {line : List UInt8} {n : ℕ}

theorem readNumbered_of_encodes {chars : List Char} (h : Encodes line chars) :
    readNumbered path line n = (readLine chars).mapError (.malformed (n + 1)) := by
  rw [readNumbered, decode?_eq_some_iff.mpr h]

theorem readNumbered_of_not_encodes (h : ¬ ∃ chars, Encodes line chars) :
    readNumbered path line n = .error (.storage path .notText) := by
  rw [readNumbered, decode?_eq_none_iff.mpr h]

theorem readNumbered_eq_ok_iff {item : Option Edge} :
    readNumbered path line n = .ok item ↔ Reads line item := by
  constructor
  · intro h
    by_cases htext : ∃ chars, Encodes line chars
    · obtain ⟨chars, hchars⟩ := htext
      rw [readNumbered_of_encodes hchars, Except.mapError_eq_ok_iff] at h
      exact ⟨chars, hchars, readLine_eq_ok_iff.mp h⟩
    · rw [readNumbered_of_not_encodes htext] at h
      cases h
  · rintro ⟨chars, hchars, h⟩
    rw [readNumbered_of_encodes hchars, Except.mapError_eq_ok_iff]
    exact readLine_eq_ok_iff.mpr h

theorem readNumbered_eq_error_iff {failure : Failure} :
    readNumbered path line n = .error failure ↔ Breaks path n line failure := by
  constructor
  · intro h
    by_cases htext : ∃ chars, Encodes line chars
    · obtain ⟨chars, hchars⟩ := htext
      rw [readNumbered_of_encodes hchars] at h
      obtain ⟨fault, hfault, rfl⟩ := Except.mapError_eq_error_iff.mp h
      exact .malformed hchars (readLine_eq_error_iff.mp hfault)
    · rw [readNumbered_of_not_encodes htext] at h
      obtain rfl := Except.error.inj h
      exact .notText htext
  · intro h
    cases h with
    | notText htext => exact readNumbered_of_not_encodes htext
    | malformed hchars hbreaks =>
      rw [readNumbered_of_encodes hchars, Except.mapError_eq_error_iff]
      exact ⟨_, readLine_eq_error_iff.mpr hbreaks, rfl⟩

/-! ## Files -/

theorem ownedLines_whole (bytes : List UInt8) :
    whole.ownedLines bytes = (Text.lines bytes).zipIdx :=
  List.filter_eq_self.mpr fun x _ ↦ owns_whole x.2

theorem forall₂_ownedLines_whole {bytes : List UInt8} {items : List (Option Edge)} :
    List.Forall₂ (fun x item ↦ readNumbered path x.1 x.2 = .ok item) (whole.ownedLines bytes) items
      ↔ List.Forall₂ Reads (Text.lines bytes) items := by
  have hlines : (whole.ownedLines bytes).map Prod.fst = Text.lines bytes := by
    rw [ownedLines_whole, List.zipIdx_map_fst]
  rw [← hlines, List.forall₂_map_left_iff]
  simp only [readNumbered_eq_ok_iff]

variable {bytes : List UInt8}

theorem read_whole_eq_ok_iff {edges : List Edge} :
    whole.read path bytes = .ok edges ↔ ∃ lines items, Lines bytes lines
      ∧ List.Forall₂ Reads lines items ∧ items.reduceOption = edges := by
  rw [read_eq_ok_iff_forall₂]
  constructor
  · rintro ⟨items, hitems, hedges⟩
    exact ⟨_, items, lines_iff.mpr rfl, forall₂_ownedLines_whole.mp hitems, hedges⟩
  · rintro ⟨lines, items, hlines, hitems, hedges⟩
    obtain rfl := hlines.lines_eq
    exact ⟨items, forall₂_ownedLines_whole.mpr hitems, hedges⟩

theorem breaksAt_iff {failure : Failure} : BreaksAt path bytes n failure
    ↔ ∃ line, (Text.lines bytes)[n]? = some line ∧ Breaks path n line failure :=
  exists_congr fun _ ↦ and_congr_right fun _ ↦ readNumbered_eq_error_iff

theorem read_whole_eq_error_iff {failure : Failure} :
    whole.read path bytes = .error failure ↔ ∃ lines n line, Lines bytes lines
      ∧ lines[n]? = some line ∧ Breaks path n line failure
      ∧ ∀ m < n, ∀ earlier, lines[m]? = some earlier → ∃ item, Reads earlier item := by
  rw [read_eq_error_iff]
  constructor
  · rintro ⟨n, -, hfails, hnone⟩
    obtain ⟨line, hline, hbreaks⟩ := breaksAt_iff.mp hfails
    refine ⟨_, n, line, lines_iff.mpr rfl, hline, hbreaks, ?_⟩
    intro m hlt earlier hearlier
    obtain ⟨item, hitem⟩ := (exists_readNumbered_iff hearlier).mpr (hnone m hlt (owns_whole m))
    exact ⟨item, readNumbered_eq_ok_iff.mp hitem⟩
  · rintro ⟨lines, n, line, hlines, hline, hbreaks, hread⟩
    obtain rfl := hlines.lines_eq
    refine ⟨n, owns_whole n, breaksAt_iff.mpr ⟨line, hline, hbreaks⟩, ?_⟩
    rintro m hlt - failure ⟨earlier, hearlier, hfails⟩
    obtain ⟨item, hitem⟩ := hread m hlt earlier hearlier
    rw [readNumbered_eq_ok_iff.mpr hitem] at hfails
    cases hfails

/-- **Exactly the edge lists are read.** What is returned is the edges of their lines; a file that
is no edge list fails as its first line does that breaks the grammar, and never for a missing
source. The path stands in the failure only, and it is empty for what does not come from a file. -/
theorem read_whole_iff_grammar (path : OsText) (bytes : List UInt8) :
    (∀ edges, whole.read path bytes = .ok edges ↔ ∃ lines items, Lines bytes lines
        ∧ List.Forall₂ Reads lines items ∧ items.reduceOption = edges)
      ∧ (∀ failure, whole.read path bytes = .error failure ↔ ∃ lines n line, Lines bytes lines
        ∧ lines[n]? = some line ∧ Breaks path n line failure
        ∧ ∀ m < n, ∀ earlier, lines[m]? = some earlier → ∃ item, Reads earlier item)
      ∧ ∀ n fault, whole.read path bytes = .error (.malformed n fault) →
        fault.message ≠ "missing source node" := by
  refine ⟨fun edges ↦ read_whole_eq_ok_iff, fun failure ↦ read_whole_eq_error_iff, ?_⟩
  intro n fault h hmessage
  obtain ⟨lines, m, line, -, -, hbreaks, -⟩ := read_whole_eq_error_iff.mp h
  cases hbreaks with
  | malformed _ hline =>
    obtain ⟨-, -, -, hfields⟩ := hline
    exact hfields.ne_missing_source (LineFault.message_eq_iff.mp hmessage)

example : whole.read "" "# two lines\n\n +1\t002 \r\n".toUTF8.data.toList = .ok [⟨1, 2⟩] := rfl

end Loader

end RecursiveMatrix
