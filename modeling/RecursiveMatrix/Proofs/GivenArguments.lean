import Mathlib.Data.List.Forall2
import Mathlib.Data.List.Nodup
import Mathlib.Data.List.TakeWhile
import RecursiveMatrix.Arguments.Parser

/-!
# Command lines that are read as they are meant

An argument is given as the word of its name, if it has one, and the word of its value, if it needs
one (`Given.words`). Words say nothing about where an argument starts, so a parser could take a
value for a place or a place for a value. It does not as long as values have no dash in front: then
the words of all arguments, one argument after the other, make the settings that the arguments
would make one by one (`Grammar.parse_flatMap_words`).

The parser settles an argument only when it meets the next one, and so between two arguments it is
not where the first of them has been settled. `Progress.Makes` says what the progress comes to.
-/

namespace RecursiveMatrix

universe u

variable {σ : Type u}

/-! ## Arguments that are given -/

/-- The word has no dash in front. -/
def IsPlain (word : OsText) : Prop := word.startsWith '-' = false

instance : DecidablePred IsPlain := fun word ↦
  inferInstanceAs (Decidable (word.startsWith '-' = false))

theorem isPlain_text_iff {s : String} : IsPlain s ↔ s.toList.head? ≠ some '-' := by
  simp [IsPlain, OsText.startsWith]

/-- The word by which an argument is named. -/
def ArgumentName.word? : ArgumentName → Option String
  | long word => some ("--" ++ word)
  | short letter => some (String.ofList ['-', letter])
  | place _ => none

/-- The name is that of an option, and its word is not one of those that mean something else: help,
a negative number, the end of the options, or a name with its value attached. -/
def ArgumentName.IsOption : ArgumentName → Prop
  | long word => word ≠ "" ∧ word ≠ helpWord ∧ '=' ∉ word.toList
  | short letter => letter ≠ '-' ∧ helpWord.toList.head? ≠ some letter ∧ letter.isDigit = false
  | place _ => False

theorem ArgumentName.IsOption.exists_word {name : ArgumentName} (h : name.IsOption) :
    ∃ word, name.word? = some word := by
  cases name with
  | long => exact ⟨_, rfl⟩
  | short => exact ⟨_, rfl⟩
  | place => exact absurd h id

/-- What is given for an argument does `set` to the settings, whatever they are. -/
inductive Intake.Takes : Intake σ → Option OsText → (σ → σ) → Prop
  | flag (set : σ → σ) : Takes (.flag set) none set
  | value {label : String} {store : OsText → σ → Except ValueFault σ} {word : OsText} {set : σ → σ}
    (hplain : IsPlain word) (hstore : ∀ s, store word s = .ok (set s)) :
    Takes (.value label store) (some word) set

theorem Intake.Takes.isPlain {intake : Intake σ} {word : OsText} {set : σ → σ}
    (h : intake.Takes (some word) set) : IsPlain word := by
  cases h with
  | value hplain => exact hplain

/-- An argument as it is given on a command line. -/
structure Given (σ : Type u) where
  /-- The argument. -/
  name : ArgumentName
  /-- The word of its value. -/
  value? : Option OsText
  /-- What it does to the settings. -/
  set : σ → σ

def Given.words (x : Given σ) : List OsText :=
  (x.name.word?.map .text).toList ++ x.value?.toList

/-! ## Between two arguments -/

namespace Progress

/-- The words read so far make the settings `s` out of the arguments `given`, and leave `places` to
be filled. An argument that is still open has got its value. -/
inductive Makes : Progress σ → σ → List ArgumentName → List (Argument σ) → Prop
  | settled (s : σ) (given : List ArgumentName) (places : List (Argument σ)) :
    Makes ⟨s, given, none, places, false⟩ s given places
  | opened {s : σ} {given : List ArgumentName} {places : List (Argument σ)} {a : Argument σ}
    {word : OsText} {set : σ → σ} (hnew : a.name ∉ given)
    (htakes : a.intake.Takes (some word) set) :
    Makes ⟨s, given, some ⟨a, some word⟩, places, false⟩ (set s) (a.name :: given) places

theorem store_of_takes {p : Progress σ} {a : Argument σ} {value? : Option OsText} {set : σ → σ}
    (htakes : a.intake.Takes value? set) (hnew : a.name ∉ p.given) :
    p.store a value?
      = .ok { p with settings := set p.settings, given := a.name :: p.given } := by
  obtain ⟨name, intake, about, standard?⟩ := a
  cases htakes with
  | flag =>
    simp only [store, if_neg hnew]
    rfl
  | value _ hstore =>
    simp only [store, if_neg hnew, hstore]
    rfl

variable {p : Progress σ} {s : σ} {given : List ArgumentName} {places : List (Argument σ)}

theorem Makes.settle_eq (h : p.Makes s given places) :
    p.settle = .ok ⟨s, given, none, places, false⟩ := by
  cases h with
  | settled => rfl
  | opened hnew htakes => exact store_of_takes htakes hnew

theorem Makes.waiting?_eq (h : p.Makes s given places) : p.waiting? = none := by
  cases h <;> rfl

theorem Makes.places_eq (h : p.Makes s given places) : p.places = places := by
  cases h <;> rfl

theorem Makes.escaped_eq (h : p.Makes s given places) : p.escaped = false := by
  cases h <;> rfl

theorem Makes.settleAnd_eq (h : p.Makes s given places) {a : Argument σ} {value? : Option OsText}
    {set : σ → σ} (htakes : a.intake.Takes value? set) (hnew : a.name ∉ given) :
    p.settleAnd a value? = .ok ⟨set s, a.name :: given, none, places, false⟩ := by
  rw [settleAnd, h.settle_eq]
  exact store_of_takes htakes hnew

theorem Makes.openArgument_eq (h : p.Makes s given places) (a : Argument σ)
    (value? : Option OsText) :
    p.openArgument a value? = .ok ⟨s, given, some ⟨a, value?⟩, places, false⟩ := by
  rw [openArgument, h.settle_eq]
  rfl

/-- What is done on an argument's name: a flag is settled, and what needs a value is opened. -/
def call (p : Progress σ) (a : Argument σ) : Except UsageError (Progress σ) :=
  match a.intake with
  | .flag _ => p.settleAnd a none
  | .value .. => p.openArgument a none

end Progress

/-! ## Words -/

theorem isPlainNumber_singleton (c : Char) : isPlainNumber [c] = c.isDigit := by
  by_cases hmark : c = 'e' ∨ c = 'E'
  · rcases hmark with rfl | rfl <;> decide
  · by_cases hpoint : c = '.'
    · subst hpoint
      decide
    · obtain ⟨hlower, hupper⟩ := not_or.mp hmark
      simp [isPlainNumber, hlower, hupper, hpoint]

namespace Grammar

variable (g : Grammar σ) {p : Progress σ}

theorem takeText_of_isPlain {word : String} (hplain : IsPlain word) :
    g.takeText p word = p.takeValue word := by
  have hdash : ∀ rest, word.toList ≠ '-' :: rest := by
    intro rest hchars
    exact isPlain_text_iff.mp hplain (by rw [hchars]; rfl)
  rw [takeText]
  split
  · next hchars => exact absurd hchars (hdash _)
  · next hchars => exact absurd hchars (hdash _)
  · rfl
  · next hchars => exact absurd hchars (hdash _)
  · rfl

theorem takeMangled_of_isPlain {bytes : List UInt8} {h : Text.decode? bytes = none}
    (hplain : IsPlain (.mangled bytes h)) :
    g.takeMangled p (.mangled bytes h) = p.takeValue (.mangled bytes h) := by
  have hdash : ∀ rest, bytes ≠ 0x2D :: rest := by
    rintro rest rfl
    exact Bool.false_ne_true (hplain.symm.trans rfl)
  rw [takeMangled, OsText.bytes]
  split
  · exact absurd rfl (hdash _)
  · exact absurd rfl (hdash _)
  · rfl

theorem takeWord_of_isPlain {word : OsText} (hplain : IsPlain word) (hescaped : p.escaped = false) :
    g.takeWord p word = p.takeValue word := by
  cases word with
  | text s =>
    rw [takeWord, if_neg (by simp [hescaped])]
    exact g.takeText_of_isPlain hplain
  | mangled bytes h =>
    rw [takeWord, if_neg (by simp [hescaped])]
    exact g.takeMangled_of_isPlain hplain

theorem takeLong_eq_call {word : String} {a : Argument σ} (hhelp : word ≠ helpWord)
    (hfind : g.options.find? (·.name = .long word) = some a) :
    g.takeLong p word none = p.call a := by
  simp only [takeLong, if_neg hhelp, hfind, Progress.call]
  cases a.intake <;> rfl

/-- A name without an equals sign is all of the word behind the dashes. -/
theorem takeText_long {word : String} (hne : word ≠ "") (hequals : '=' ∉ word.toList) :
    g.takeText p ("--" ++ word) = g.takeLong p word none := by
  have hkept : ∀ c ∈ word.toList, (c != '=') = true := by
    intro c hc
    exact bne_iff_ne.mpr (ne_of_mem_of_not_mem hc hequals)
  have hname : word.toList.takeWhile (· != '=') = word.toList :=
    List.takeWhile_eq_self_iff.mpr hkept
  have hrest : word.toList.dropWhile (· != '=') = [] := List.dropWhile_eq_nil_iff.mpr hkept
  have hlist : ("--" ++ word).toList = '-' :: '-' :: word.toList := by simp
  rw [takeText, hlist]
  cases hchars : word.toList with
  | nil => exact absurd (String.toList_eq_nil_iff.mp hchars) hne
  | cons c rest =>
    have hword : String.ofList (c :: rest) = word := by rw [← hchars, String.ofList_toList]
    rw [hchars] at hname hrest
    simp only [hname, hrest, hword]

theorem takeShorts_singleton_eq_call {letter : Char} {a : Argument σ}
    (hhelp : helpWord.toList.head? ≠ some letter)
    (hfind : g.options.find? (·.name = .short letter) = some a) :
    g.takeShorts p [letter] [] = p.call a := by
  simp only [takeShorts, if_neg hhelp, hfind, Progress.call]
  cases a.intake with
  | flag => cases p.settleAnd a none <;> rfl
  | value => rfl

theorem takeWord_of_isOption {name : ArgumentName} {word : String} {a : Argument σ}
    (hname : name.IsOption) (hword : name.word? = some word)
    (hfind : g.options.find? (·.name = name) = some a) (hescaped : p.escaped = false) :
    g.takeWord p word = p.call a := by
  rw [takeWord, if_neg (by simp [hescaped])]
  cases name with
  | long w =>
    obtain ⟨hne, hhelp, hequals⟩ := hname
    obtain rfl := Option.some.inj hword
    exact (g.takeText_long hne hequals).trans (g.takeLong_eq_call hhelp hfind)
  | short c =>
    obtain ⟨hdash, hhelp, hdigit⟩ := hname
    obtain rfl := Option.some.inj hword
    -- Behind a dash, a digit would be a negative number.
    have hnumber : g.isNegativeValue p [c] = false := by
      rw [isNegativeValue, isPlainNumber_singleton, hdigit, Bool.and_false, Bool.false_and]
    rw [← g.takeShorts_singleton_eq_call hhelp hfind]
    simp [takeText, hdash, hnumber]
  | place => exact absurd hname id

/-! ## Arguments one after the other -/

/-- The grammar has an option that the argument can be given for. -/
def HasOption (x : Given σ) : Prop :=
  x.name.IsOption ∧ ∃ a, g.options.find? (·.name = x.name) = some a ∧ a.intake.Takes x.value? x.set

/-- What is given has no name on the command line and fills the place. -/
def FillsPlace (a : Argument σ) (x : Given σ) : Prop :=
  x.name.word? = none ∧ a.name = x.name
    ∧ ∃ word, x.value? = some word ∧ a.intake.Takes (some word) x.set

variable {s : σ} {given : List ArgumentName} {places : List (Argument σ)} {x : Given σ}

/-- Past the name of an argument there is the value it needs, if it needs one. -/
theorem exists_foldlM_of_call {a : Argument σ} {value? : Option OsText} {set : σ → σ}
    (h : p.Makes s given places) (htakes : a.intake.Takes value? set) (hnew : a.name ∉ given) :
    ∃ p', (p.call a >>= value?.toList.foldlM g.takeWord) = .ok p'
      ∧ p'.Makes (set s) (a.name :: given) places := by
  obtain ⟨name, intake, about, standard?⟩ := a
  cases htakes with
  | flag =>
    refine ⟨_, ?_, .settled _ _ _⟩
    rw [Progress.call, h.settleAnd_eq (.flag set) hnew]
    rfl
  | value hplain hstore =>
    refine ⟨_, ?_, .opened hnew (.value hplain hstore)⟩
    rw [Progress.call, h.openArgument_eq]
    change [_].foldlM g.takeWord _ = _
    rw [List.foldlM_cons, g.takeWord_of_isPlain hplain rfl]
    rfl

/-- **An option leaves the places as they are.** -/
theorem exists_foldlM_of_hasOption (h : p.Makes s given places) (hx : g.HasOption x)
    (hnew : x.name ∉ given) :
    ∃ p', x.words.foldlM g.takeWord p = .ok p' ∧ p'.Makes (x.set s) (x.name :: given) places := by
  obtain ⟨hname, a, hfind, htakes⟩ := hx
  have hsame : a.name = x.name := by simpa using List.find?_some hfind
  obtain ⟨word, hword⟩ := hname.exists_word
  have hcall : g.takeWord p word = p.call a :=
    g.takeWord_of_isOption hname hword hfind h.escaped_eq
  rw [Given.words, hword, ← hsame]
  rw [← hsame] at hnew
  change ∃ p', (.text word :: x.value?.toList).foldlM g.takeWord p = .ok p' ∧ _
  rw [List.foldlM_cons, hcall]
  exact g.exists_foldlM_of_call h htakes hnew

/-- **A value without a name fills the next place.** -/
theorem exists_foldlM_of_fillsPlace {a : Argument σ} (h : p.Makes s given (a :: places))
    (hx : FillsPlace a x) (hnew : x.name ∉ given) :
    ∃ p', x.words.foldlM g.takeWord p = .ok p' ∧ p'.Makes (x.set s) (x.name :: given) places := by
  obtain ⟨hword, hname, word, hvalue, htakes⟩ := hx
  rw [← hname] at hnew ⊢
  refine ⟨_, ?_, .opened hnew htakes⟩
  rw [Given.words, hword, hvalue]
  change [word].foldlM g.takeWord p = _
  rw [List.foldlM_cons, g.takeWord_of_isPlain htakes.isPlain h.escaped_eq, Progress.takeValue,
    h.waiting?_eq]
  simp only [Progress.fillPlace, h.places_eq, h.openArgument_eq]
  rfl

/-- The arguments are options of the grammar and, in their order, what fills the places. -/
inductive Reads : List (Argument σ) → List (Given σ) → Prop
  | nil : Reads [] []
  | option {places : List (Argument σ)} {x : Given σ} {xs : List (Given σ)}
    (hx : g.HasOption x) (h : Reads places xs) : Reads places (x :: xs)
  | place {a : Argument σ} {places : List (Argument σ)} {x : Given σ} {xs : List (Given σ)}
    (hx : FillsPlace a x) (h : Reads places xs) : Reads (a :: places) (x :: xs)

variable {g}

theorem Reads.exists_foldlM_words {xs : List (Given σ)} (hreads : g.Reads places (x :: xs))
    (h : p.Makes s given places) (hnew : x.name ∉ given) :
    ∃ p' places', x.words.foldlM g.takeWord p = .ok p'
      ∧ p'.Makes (x.set s) (x.name :: given) places' ∧ g.Reads places' xs := by
  cases hreads with
  | option hx hrest =>
    obtain ⟨p', hp, hmakes⟩ := g.exists_foldlM_of_hasOption h hx hnew
    exact ⟨p', places, hp, hmakes, hrest⟩
  | place hx hrest =>
    obtain ⟨p', hp, hmakes⟩ := g.exists_foldlM_of_fillsPlace h hx hnew
    exact ⟨p', _, hp, hmakes, hrest⟩

theorem Reads.exists_foldlM_flatMap {xs : List (Given σ)} (hreads : g.Reads places xs)
    (h : p.Makes s given places) (hnodup : (xs.map Given.name ++ given).Nodup) :
    ∃ p' given', (xs.flatMap Given.words).foldlM g.takeWord p = .ok p'
      ∧ p'.Makes (xs.foldl (fun s x ↦ x.set s) s) given' [] := by
  induction xs generalizing p s given places with
  | nil =>
    cases hreads
    exact ⟨p, given, rfl, h⟩
  | cons x xs ih =>
    rw [List.map_cons, List.cons_append] at hnodup
    have hnew : x.name ∉ given := fun hmem ↦
      (List.nodup_cons.mp hnodup).1 (List.mem_append_right _ hmem)
    obtain ⟨q, places', hq, hmakes, hrest⟩ := hreads.exists_foldlM_words h hnew
    obtain ⟨p', given', hp, hlast⟩ := ih hrest hmakes (List.nodup_middle.mpr hnodup)
    refine ⟨p', given', ?_, hlast⟩
    rw [List.flatMap_cons, List.foldlM_append, hq]
    exact hp

/-- Options may stand before, between and after what fills the places. -/
theorem reads_of_filter {xs : List (Given σ)}
    (hoptions : ∀ x ∈ xs, x.name.word?.isSome = true → g.HasOption x)
    (hplaces : List.Forall₂ FillsPlace places (xs.filter (·.name.word?.isNone))) :
    g.Reads places xs := by
  induction xs generalizing places with
  | nil =>
    cases hplaces
    exact .nil
  | cons x xs ih =>
    have hrest : ∀ y ∈ xs, y.name.word?.isSome = true → g.HasOption y := fun y hy ↦
      hoptions y (List.mem_cons_of_mem x hy)
    cases hword : x.name.word? with
    | none =>
      rw [List.filter_cons_of_pos (by rw [hword]; rfl)] at hplaces
      cases hplaces with
      | cons hx hplaces => exact .place hx (ih hrest hplaces)
    | some word =>
      rw [List.filter_cons_of_neg (by simp [hword])] at hplaces
      have hx : g.HasOption x := hoptions x List.mem_cons_self (by rw [hword]; rfl)
      exact .option hx (ih hrest hplaces)

/-- **The words of all arguments make the settings that the arguments make one by one.** -/
theorem parse_flatMap_words {xs : List (Given σ)} (h : g.Reads g.places xs)
    (hnodup : (xs.map Given.name).Nodup) :
    g.parse (xs.flatMap Given.words) = .ok (xs.foldl (fun s x ↦ x.set s) g.initial) := by
  rw [← List.append_nil (xs.map Given.name)] at hnodup
  obtain ⟨p, given, hp, hmakes⟩ :=
    h.exists_foldlM_flatMap (.settled g.initial [] g.places) hnodup
  rw [parse, hp]
  change (p.settle >>= _) = _
  rw [hmakes.settle_eq]
  rfl

end Grammar

end RecursiveMatrix
