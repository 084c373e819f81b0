import RecursiveMatrix.Command.Generate
import RecursiveMatrix.Proofs.GivenArguments
import RecursiveMatrix.Proofs.Numerals

/-!
# The order of arguments

The command that generates graphs takes its options before, between and after the output and the
scale, in any order. What is asked for (`GenerateRequest`) decides the settings, whatever the order
is, and what is not asked for keeps its standard value.

That the words are taken as they are meant follows from `Grammar.parse_flatMap_words`, which holds
for every grammar. What is left is particular to the command: each of its arguments has an option or
a place there, and different arguments change different settings, so that they may change them in
any order (`GenerateArgument.set_comm`).
-/

namespace RecursiveMatrix

/-! ## Words and their values -/

/-- A value and a text that spells it. -/
structure Spelled {α : Type} (Spells : String → α → Prop) where
  /-- The text. -/
  text : String
  /-- The value. -/
  value : α
  spells : Spells text value

/-- A 64-bit word in decimal. -/
abbrev WordNumeral : Type := Spelled fun text (n : UInt64) ↦ Decimal.Numeral text.toList n.toNat

/-- A 32-bit word in decimal. -/
abbrev HalfWordNumeral : Type := Spelled fun text (n : UInt32) ↦ Decimal.Numeral text.toList n.toNat

/-- A floating-point number, without a sign unless it is a plus sign. -/
abbrev RealLiteral : Type :=
  Spelled fun text (x : Float) ↦ IsPlain text ∧ Decimal.readLiteral text.toList = .ok x

/-- A name that is no option. It may be any bytes. -/
structure PlainName where
  /-- The name. -/
  text : OsText
  isEmpty_eq : text.isEmpty = false
  isPlain : IsPlain text

theorem PlainName.nameValue_eq (name : PlainName) : nameValue name.text = .ok name.text := by
  rw [nameValue, name.isEmpty_eq]
  rfl

theorem Decimal.Numeral.isPlain {text : String} {n : ℕ} (h : Numeral text.toList n) :
    IsPlain text := isPlain_text_iff.mpr h.head?_ne

theorem WordNumeral.wordValue_eq (n : WordNumeral) : wordValue n.text = .ok n.value :=
  Except.mapError_eq_ok_iff.mpr (Decimal.readWord_eq_ok_iff.mpr n.spells)

theorem HalfWordNumeral.halfWordValue_eq (n : HalfWordNumeral) :
    halfWordValue n.text = .ok n.value := by
  have hlt : n.value.toNat < UInt32.size := n.value.toNat_lt
  have hle : n.value.toNat ≤ Decimal.maxSignedWord := hlt.le.trans (by decide)
  have hrange : 0 ≤ Int.ofNat n.value.toNat ∧ Int.ofNat n.value.toNat < UInt32.size :=
    ⟨Int.natCast_nonneg _, Int.ofNat_lt.mpr hlt⟩
  refine Except.bind_eq_ok_iff.mpr ⟨_, rfl, Except.bind_eq_ok_iff.mpr
    ⟨Int.ofNat n.value.toNat, ?_, ?_⟩⟩
  · exact Except.mapError_eq_ok_iff.mpr (n.spells.readSigned_eq_ok hle)
  · rw [if_pos hrange]
    exact congrArg Except.ok UInt32.ofNat_toNat

theorem RealLiteral.realValue_eq (x : RealLiteral) : realValue x.text = .ok x.value :=
  Except.mapError_eq_ok_iff.mpr x.spells.2

/-! ## Options and the settings they change -/

/-- A setting that is looked up and changed on its own. -/
structure Setting (α : Type) where
  get : GenerateSettings → α
  put : α → GenerateSettings → GenerateSettings
  put_get : ∀ s, put (get s) s = s

/-- The options that need a 64-bit word. -/
inductive NumberOption where
  | edgeFactor
  | seed
  | workers

namespace NumberOption

def all : List NumberOption := [edgeFactor, seed, workers]

def word : NumberOption → String
  | edgeFactor => "edgefactor"
  | seed => "seed"
  | workers => "workers"

def setting : NumberOption → Setting UInt64
  | edgeFactor => ⟨(·.edgeFactor), fun n s ↦ { s with edgeFactor := n }, fun _ ↦ rfl⟩
  | seed => ⟨(·.seed), fun n s ↦ { s with seed := n }, fun _ ↦ rfl⟩
  | workers => ⟨(·.workers), fun n s ↦ { s with workers := n }, fun _ ↦ rfl⟩

theorem isOption (o : NumberOption) : (ArgumentName.long o.word).IsOption := by
  cases o <;> simp [ArgumentName.IsOption, word, helpWord]

end NumberOption

/-- The options that need the probability of a quadrant. -/
inductive QuadrantOption where
  | a
  | b
  | c

namespace QuadrantOption

def all : List QuadrantOption := [a, b, c]

def letter : QuadrantOption → Char
  | a => 'a'
  | b => 'b'
  | c => 'c'

def setting : QuadrantOption → Setting Float
  | a => ⟨(·.a), fun x s ↦ { s with a := x }, fun _ ↦ rfl⟩
  | b => ⟨(·.b), fun x s ↦ { s with b := x }, fun _ ↦ rfl⟩
  | c => ⟨(·.c), fun x s ↦ { s with c := x }, fun _ ↦ rfl⟩

theorem isOption (o : QuadrantOption) : (ArgumentName.short o.letter).IsOption := by
  cases o <;> simp [ArgumentName.IsOption, letter, helpWord]

end QuadrantOption

/-- The options that need no value. -/
inductive ModeOption where
  | simple
  | summary
  deriving DecidableEq

namespace ModeOption

def all : List ModeOption := [simple, summary]

def word : ModeOption → String
  | simple => "simple"
  | summary => "summary"

def set : ModeOption → GenerateSettings → GenerateSettings
  | simple => fun s ↦ { s with simple := true }
  | summary => fun s ↦ { s with summary := true }

theorem isOption (o : ModeOption) : (ArgumentName.long o.word).IsOption := by
  cases o <;> simp [ArgumentName.IsOption, word, helpWord]

end ModeOption

/-! ## Arguments of the command -/

/-- An argument of the command, with the text of its value. -/
inductive GenerateArgument where
  | output (name : PlainName)
  | scale (n : HalfWordNumeral)
  | number (o : NumberOption) (n : WordNumeral)
  | probability (o : QuadrantOption) (x : RealLiteral)
  | mode (o : ModeOption)

namespace GenerateArgument

/-- The words of the argument on a command line. -/
def words : GenerateArgument → List OsText
  | output name => [name.text]
  | scale n => [n.text]
  | number o n => ["--" ++ o.word, n.text]
  | probability o x => [String.ofList ['-', o.letter], x.text]
  | mode o => ["--" ++ o.word]

def name : GenerateArgument → ArgumentName
  | output _ => .place 0
  | scale _ => .place 1
  | number o _ => .long o.word
  | probability o _ => .short o.letter
  | mode o => .long o.word

/-- The names of all arguments. -/
def names : List ArgumentName :=
  .place 0 :: .place 1
    :: (NumberOption.all.map (fun o ↦ .long o.word)
      ++ QuadrantOption.all.map (fun o ↦ .short o.letter)
      ++ ModeOption.all.map fun o ↦ .long o.word)

theorem nodup_names : names.Nodup := by decide +kernel

def value? : GenerateArgument → Option OsText
  | output name => some name.text
  | scale n => some n.text
  | number _ n => some n.text
  | probability _ x => some x.text
  | mode _ => none

def set : GenerateArgument → GenerateSettings → GenerateSettings
  | output name => fun s ↦ { s with output := name.text }
  | scale n => fun s ↦ { s with scale := n.value }
  | number o n => o.setting.put n.value
  | probability o x => o.setting.put x.value
  | mode o => o.set

def given (x : GenerateArgument) : Given GenerateSettings := ⟨x.name, x.value?, x.set⟩

theorem words_given (x : GenerateArgument) : x.given.words = x.words := by
  cases x <;> rfl

/-- **Different arguments change different settings**, so it does not matter which comes first. -/
theorem set_comm {x y : GenerateArgument} (h : x.name ≠ y.name) (s : GenerateSettings) :
    y.set (x.set s) = x.set (y.set s) := by
  rcases x with _ | _ | ⟨⟨⟩, _⟩ | ⟨⟨⟩, _⟩ | ⟨⟨⟩⟩
  all_goals rcases y with _ | _ | ⟨⟨⟩, _⟩ | ⟨⟨⟩, _⟩ | ⟨⟨⟩⟩
  -- The settings are different ones, or the names are the same.
  all_goals first | rfl | exact absurd rfl h

theorem hasOption {x : GenerateArgument} (h : x.name.word?.isSome = true) :
    generateGrammar.HasOption x.given := by
  cases x with
  | output => exact absurd h Bool.false_ne_true
  | scale => exact absurd h Bool.false_ne_true
  | number o n =>
    have hread : wordValue n.text = .ok n.value := WordNumeral.wordValue_eq n
    refine ⟨o.isOption, ?_⟩
    cases o
    all_goals
      refine ⟨_, rfl, .value n.spells.isPlain fun s ↦ ?_⟩
      simp only [hread]
      rfl
  | probability o x =>
    have hread : realValue x.text = .ok x.value := RealLiteral.realValue_eq x
    refine ⟨o.isOption, ?_⟩
    cases o
    all_goals
      refine ⟨_, rfl, .value x.spells.1 fun s ↦ ?_⟩
      simp only [hread]
      rfl
  | mode o =>
    refine ⟨o.isOption, ?_⟩
    cases o
    all_goals exact ⟨_, rfl, .flag _⟩

theorem fillPlaces (path : PlainName) (n : HalfWordNumeral) :
    List.Forall₂ Grammar.FillsPlace generateGrammar.places
      ([output path, scale n].map given) := by
  refine .cons ⟨rfl, rfl, _, rfl, .value path.isPlain fun s ↦ ?_⟩
    (.cons ⟨rfl, rfl, _, rfl, .value n.spells.isPlain fun s ↦ ?_⟩ .nil)
  · simp only [path.nameValue_eq]
    rfl
  · have hread : halfWordValue n.text = .ok n.value := HalfWordNumeral.halfWordValue_eq n
    simp only [hread]
    rfl

/-- The argument has no name on the command line. -/
def isPlace (x : GenerateArgument) : Bool := x.name.word?.isNone

theorem parse_flatMap_words {xs : List GenerateArgument} {path : PlainName} {n : HalfWordNumeral}
    (hnodup : (xs.map name).Nodup) (hplaces : xs.filter isPlace = [output path, scale n]) :
    generateGrammar.parse (xs.flatMap words)
      = .ok (xs.foldl (fun s x ↦ x.set s) generateGrammar.initial) := by
  have hreads : generateGrammar.Reads generateGrammar.places (xs.map given) := by
    apply Grammar.reads_of_filter
    · intro y hy hword
      obtain ⟨x, -, rfl⟩ := List.mem_map.mp hy
      exact hasOption hword
    · rw [List.filter_map]
      change List.Forall₂ _ _ ((xs.filter isPlace).map given)
      rw [hplaces]
      exact fillPlaces path n
  have hnames : ((xs.map given).map Given.name).Nodup := by
    rw [List.map_map]
    exact hnodup
  have hparse := Grammar.parse_flatMap_words hreads hnames
  rw [List.foldl_map, List.flatMap_map] at hparse
  simp only [words_given] at hparse
  exact hparse

/-! ### Arguments for those options that are given -/

section Families

variable {ι α β : Type} {value? : ι → Option β} {argument : ι → β → GenerateArgument}

theorem foldl_filterMap_set (setting : ι → Setting α) (read : β → α)
    (hset : ∀ o v, (argument o v).set = (setting o).put (read v)) (os : List ι)
    (s : GenerateSettings) :
    (os.filterMap fun o ↦ (value? o).map (argument o)).foldl (fun s x ↦ x.set s) s
      = os.foldl (fun s o ↦ (setting o).put ((value? o).elim ((setting o).get s) read) s) s := by
  rw [List.foldl_filterMap]
  congr 1
  funext s o
  cases value? o with
  | none => exact ((setting o).put_get s).symm
  | some v => exact congrFun (hset o v) s

theorem map_name_filterMap_sublist {label : ι → ArgumentName}
    (hname : ∀ o v, (argument o v).name = label o) (os : List ι) :
    ((os.filterMap fun o ↦ (value? o).map (argument o)).map name).Sublist (os.map label) := by
  induction os with
  | nil => exact List.Sublist.slnil
  | cons o os ih =>
    rw [List.filterMap_cons]
    cases value? o with
    | none => exact ih.cons _
    | some v =>
      rw [List.map_cons, ← hname o v]
      exact ih.cons_cons _

end Families

end GenerateArgument

/-! ## Requests -/

/-- What the command is asked for: which arguments are given, and with which values. -/
structure GenerateRequest where
  /-- The output, which has to be given. -/
  output : PlainName
  /-- The scale, which has to be given. -/
  scale : HalfWordNumeral
  /-- The words that are given. -/
  number? : NumberOption → Option WordNumeral
  /-- The probabilities that are given. -/
  probability? : QuadrantOption → Option RealLiteral
  /-- The modes that are asked for. -/
  mode : ModeOption → Bool

namespace GenerateRequest

variable (r : GenerateRequest)

/-- The options that are given, each of them once. -/
def options : List GenerateArgument :=
  NumberOption.all.filterMap (fun o ↦ (r.number? o).map (.number o))
    ++ QuadrantOption.all.filterMap (fun o ↦ (r.probability? o).map (.probability o))
    ++ (ModeOption.all.filter r.mode).map .mode

def arguments : List GenerateArgument := .output r.output :: .scale r.scale :: r.options

/-- The settings that are asked for. What is not given has its standard value. -/
def settings : GenerateSettings where
  output := r.output.text
  scale := r.scale.value
  edgeFactor := (r.number? .edgeFactor).elim 16 (·.value)
  a := (r.probability? .a).elim 0.57 (·.value)
  b := (r.probability? .b).elim 0.19 (·.value)
  c := (r.probability? .c).elim 0.19 (·.value)
  seed := (r.number? .seed).elim 10 (·.value)
  workers := (r.number? .workers).elim 1 (·.value)
  simple := r.mode .simple
  summary := r.mode .summary

/-! ## The settings of a request -/

theorem foldl_arguments :
    r.arguments.foldl (fun s x ↦ x.set s) generateGrammar.initial = r.settings := by
  rw [arguments, options, List.foldl_cons, List.foldl_cons, List.foldl_append, List.foldl_append,
    GenerateArgument.foldl_filterMap_set NumberOption.setting (·.value) (fun _ _ ↦ rfl),
    GenerateArgument.foldl_filterMap_set QuadrantOption.setting (·.value) (fun _ _ ↦ rfl),
    List.foldl_map, List.foldl_filter, ModeOption.all, List.foldl_cons, List.foldl_cons,
    List.foldl_nil, settings]
  cases r.mode .simple <;> cases r.mode .summary <;> rfl

theorem map_name_arguments_sublist :
    (r.arguments.map GenerateArgument.name).Sublist GenerateArgument.names := by
  rw [arguments, options, List.map_cons, List.map_cons, List.map_append, List.map_append]
  refine .cons_cons _ (.cons_cons _ (.append (.append ?_ ?_) ?_))
  · apply GenerateArgument.map_name_filterMap_sublist
    exact fun _ _ ↦ rfl
  · apply GenerateArgument.map_name_filterMap_sublist
    exact fun _ _ ↦ rfl
  · rw [List.map_map]
    exact List.filter_sublist.map _

variable {r}

theorem word?_of_mem_options {x : GenerateArgument} (hx : x ∈ r.options) :
    ∃ word, x.name.word? = some word := by
  rw [options, List.mem_append, List.mem_append] at hx
  rcases hx with (hx | hx) | hx
  · obtain ⟨o, -, hx⟩ := List.mem_filterMap.mp hx
    obtain ⟨n, -, rfl⟩ := Option.map_eq_some_iff.mp hx
    exact ⟨_, rfl⟩
  · obtain ⟨o, -, hx⟩ := List.mem_filterMap.mp hx
    obtain ⟨x, -, rfl⟩ := Option.map_eq_some_iff.mp hx
    exact ⟨_, rfl⟩
  · obtain ⟨o, -, rfl⟩ := List.mem_map.mp hx
    exact ⟨_, rfl⟩

/-- Options in between do not touch the order in which the places are filled. -/
theorem filter_isPlace {xs : List GenerateArgument} (hperm : xs.Perm r.arguments)
    (horder : [.output r.output, .scale r.scale].Sublist xs) :
    xs.filter GenerateArgument.isPlace = [.output r.output, .scale r.scale] := by
  have hoptions : r.options.filter GenerateArgument.isPlace = [] := by
    refine List.filter_eq_nil_iff.mpr fun x hx ↦ ?_
    obtain ⟨word, hword⟩ := word?_of_mem_options hx
    simp [GenerateArgument.isPlace, hword]
  have hlength : (xs.filter GenerateArgument.isPlace).length = 2 := by
    rw [(hperm.filter _).length_eq, arguments]
    change (_ :: _ :: r.options.filter GenerateArgument.isPlace).length = 2
    rw [hoptions]
    rfl
  exact ((horder.filter GenerateArgument.isPlace).eq_of_length hlength.symm).symm

/-- **The order of the arguments does not matter**, as long as the output comes before the scale.
The words of a request are read as the settings it asks for, wherever its options stand. -/
theorem settings_of_any_order (r : GenerateRequest) (xs : List GenerateArgument)
    (hperm : xs.Perm r.arguments) (horder : [.output r.output, .scale r.scale].Sublist xs) :
    generateGrammar.parse (xs.flatMap GenerateArgument.words) = .ok r.settings := by
  have hnodup : (xs.map GenerateArgument.name).Nodup :=
    (hperm.map _).nodup_iff.mpr (r.map_name_arguments_sublist.nodup GenerateArgument.nodup_names)
  have hcomm : ∀ x ∈ xs, ∀ y ∈ xs, ∀ s, y.set (x.set s) = x.set (y.set s) := by
    intro x hx y hy s
    by_cases hname : x.name = y.name
    · rw [List.inj_on_of_nodup_map hnodup hx hy hname]
    · exact GenerateArgument.set_comm hname s
  rw [GenerateArgument.parse_flatMap_words hnodup (filter_isPlace hperm horder),
    hperm.foldl_eq' hcomm, r.foldl_arguments]

def sampleSeed : WordNumeral := ⟨"3", 3, .plain (by simp) (by simp)⟩

def sampleA : RealLiteral := ⟨"0.45", 0.45, by decide +kernel, rfl⟩

/-- A seed, a probability and a summary are asked for. -/
def sample : GenerateRequest where
  output := ⟨"out.txt", by decide +kernel, by decide +kernel⟩
  scale := ⟨"5", 5, .plain (by simp) (by simp)⟩
  number?
    | .seed => some sampleSeed
    | _ => none
  probability?
    | .a => some sampleA
    | _ => none
  mode o := o == .summary

/-- The arguments of the request, with options before the output and before the scale. -/
def sampleOrder : List GenerateArgument :=
  [.number .seed sampleSeed, .output sample.output, .probability .a sampleA, .mode .summary,
    .scale sample.scale]

theorem settings_of_any_order_for_sample :
    sampleOrder.Perm sample.arguments
      ∧ [.output sample.output, .scale sample.scale].Sublist sampleOrder
      ∧ generateGrammar.parse ["--seed", "3", "out.txt", "-a", "0.45", "--summary", "5"]
        = .ok ⟨"out.txt", 5, 16, 0.45, 0.19, 0.19, 3, 1, false, true⟩ := by
  have hscale : (sample.options ++ [GenerateArgument.scale sample.scale]).Perm
      ([GenerateArgument.scale sample.scale] ++ sample.options) := List.perm_append_comm
  have hperm : sampleOrder.Perm sample.arguments :=
    (List.Perm.swap _ _ _).trans (hscale.cons _)
  have horder : [.output sample.output, .scale sample.scale].Sublist sampleOrder :=
    .cons _ (.cons_cons _ (.cons _ (.cons _ (.cons_cons _ .slnil))))
  have hwords : sampleOrder.flatMap GenerateArgument.words
      = (["--seed", "3", "out.txt", "-a", "0.45", "--summary", "5"] : List OsText) := rfl
  refine ⟨hperm, horder, ?_⟩
  rw [← hwords, settings_of_any_order sample sampleOrder hperm horder]
  rfl

end GenerateRequest

end RecursiveMatrix
