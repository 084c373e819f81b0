import RecursiveMatrix.Logging
import RecursiveMatrix.Proofs.FileLines
import RecursiveMatrix.Proofs.Words

/-!
# A log is set up once

What becomes of the log of a process over any sequence of steps, each of which is an attempt to set
it up or an attempt of somebody else to own it (`LogState.set_up_once`). What an attempt makes of
the variable is stated without saying how it is read: the value asks for a format
(`LogFormat.Asked`), or it is refused for a reason (`LogFormat.Refused`).

## The invariant

The state of the log is a summary of the steps so far (`LogState.Tells`): it is ready exactly if one
of the attempts at setting it up asked for a format, and its owner is the first that claimed it. So
whoever owns the log owns it for good. The line about an owner from elsewhere is only written by a
step that makes the log ready, and there is at most one of these.
-/

namespace RecursiveMatrix

/-! ## What the variable asks for -/

namespace LogFormat

def name : LogFormat → String
  | human => "human"
  | json => "json"

/-- The value is text that spells `name`: between blanks, and in letters of either case. -/
def Spells (value : List UInt8) (name : String) : Prop :=
  ∃ chars trimmed, Text.Encodes value chars ∧ Text.Trimmed chars trimmed
    ∧ String.ofList (trimmed.map Char.toLower) = name

/-- The variable asks for a format. Without a value it asks for the one for people. -/
inductive Asked : Option (List UInt8) → LogFormat → Prop
  | unset : Asked none human
  | named {value : List UInt8} {format : LogFormat} (h : Spells value format.name) :
    Asked (some value) format

/-- The value of the variable is no text, or it spells something that is no format. -/
inductive Refused : Option (List UInt8) → LogFault → Prop
  | notText {value : List UInt8} (h : ¬ ∃ chars, Text.Encodes value chars) :
    Refused (some value) (.notText value)
  | unsupported {value : List UInt8} {name : String} (h : Spells value name)
    (hne : ∀ format : LogFormat, name ≠ format.name) : Refused (some value) (.unsupported name)

theorem ofVariable_of_spells {value : List UInt8} {name : String} (h : Spells value name) :
    ofVariable (some value)
      = if name = "human" then .ok human else if name = "json" then .ok json
        else .error (.unsupported name) := by
  obtain ⟨chars, trimmed, hchars, htrim, rfl⟩ := h
  rw [ofVariable, Text.decode?_eq_some_iff.mpr hchars]
  simp only [Text.trimmed_iff.mp htrim]
  split
  · rename_i hname
    rw [if_pos hname]
  · rename_i hname
    rw [hname]
    rfl
  · rename_i hhuman hjson
    rw [if_neg hhuman, if_neg hjson]

theorem ofVariable_of_asked {value : Option (List UInt8)} {format : LogFormat}
    (h : Asked value format) : ofVariable value = .ok format := by
  cases h with
  | unset => rfl
  | named h =>
    rw [ofVariable_of_spells h]
    cases format <;> rfl

theorem ofVariable_of_refused {value : Option (List UInt8)} {fault : LogFault}
    (h : Refused value fault) : ofVariable value = .error fault := by
  cases h with
  | notText h => rw [ofVariable, Text.decode?_eq_none_iff.mpr h]
  | @unsupported value name h hne =>
    have hhuman : name ≠ "human" := hne human
    have hjson : name ≠ "json" := hne json
    rw [ofVariable_of_spells h, if_neg hhuman, if_neg hjson]

theorem exists_asked_or_refused (value : Option (List UInt8)) :
    (∃ format, Asked value format) ∨ ∃ fault, Refused value fault := by
  cases value with
  | none => exact .inl ⟨human, .unset⟩
  | some value =>
    by_cases htext : ∃ chars, Text.Encodes value chars
    · obtain ⟨chars, hchars⟩ := htext
      have hspells : Spells value (String.ofList ((Text.trim chars).map Char.toLower)) :=
        ⟨chars, Text.trim chars, hchars, Text.trimmed_trim chars, rfl⟩
      by_cases hformat : ∃ format : LogFormat,
          String.ofList ((Text.trim chars).map Char.toLower) = format.name
      · obtain ⟨format, hname⟩ := hformat
        exact .inl ⟨format, .named (hname ▸ hspells)⟩
      · exact .inr ⟨_, .unsupported hspells (not_exists.mp hformat)⟩
    · exact .inr ⟨_, .notText htext⟩

theorem not_asked_of_refused {value : Option (List UInt8)} {fault : LogFault}
    (h : Refused value fault) (format : LogFormat) : ¬ Asked value format := by
  intro hasked
  have heq := (ofVariable_of_asked hasked).symm.trans (ofVariable_of_refused h)
  cases heq

theorem ofVariable_eq_ok_iff {value : Option (List UInt8)} {format : LogFormat} :
    ofVariable value = .ok format ↔ Asked value format := by
  refine ⟨fun h ↦ ?_, ofVariable_of_asked⟩
  rcases exists_asked_or_refused value with ⟨format', hasked⟩ | ⟨fault, hrefused⟩
  · rw [ofVariable_of_asked hasked] at h
    exact Except.ok.inj h ▸ hasked
  · rw [ofVariable_of_refused hrefused] at h
    cases h

theorem ofVariable_eq_error_iff {value : Option (List UInt8)} {fault : LogFault} :
    ofVariable value = .error fault ↔ Refused value fault := by
  refine ⟨fun h ↦ ?_, ofVariable_of_refused⟩
  rcases exists_asked_or_refused value with ⟨format, hasked⟩ | ⟨fault', hrefused⟩
  · rw [ofVariable_of_asked hasked] at h
    cases h
  · rw [ofVariable_of_refused hrefused] at h
    exact Except.error.inj h ▸ hrefused

end LogFormat

/-! ## Steps -/

/-- Something that happens to the log of a process. -/
inductive LogStep where
  /-- The log is set up, given the value of the variable. -/
  | setUp (value : Option (List UInt8))
  /-- Somebody else wants to own the log. -/
  | occupy

namespace LogStep

/-- Whom the step wants to own the log. -/
inductive Claims : LogStep → LogOwner → Prop
  | setUp {value : Option (List UInt8)} {format : LogFormat} (h : LogFormat.Asked value format) :
    Claims (.setUp value) (.self format)
  | occupy : Claims .occupy .foreign

/-- Whom the step wants to own the log, if anybody. -/
def claim? : LogStep → Option LogOwner
  | setUp value =>
    match LogFormat.ofVariable value with
    | .ok format => some (.self format)
    | .error _ => none
  | occupy => some .foreign

theorem claim?_of_asked {value : Option (List UInt8)} {format : LogFormat}
    (h : LogFormat.Asked value format) : (setUp value).claim? = some (.self format) := by
  rw [claim?, LogFormat.ofVariable_of_asked h]

theorem claim?_of_refused {value : Option (List UInt8)} {fault : LogFault}
    (h : LogFormat.Refused value fault) : (setUp value).claim? = none := by
  rw [claim?, LogFormat.ofVariable_of_refused h]

theorem claim?_eq_some_iff {step : LogStep} {owner : LogOwner} :
    step.claim? = some owner ↔ step.Claims owner := by
  constructor
  · intro h
    cases step with
    | setUp value =>
      rcases LogFormat.exists_asked_or_refused value with ⟨format, hasked⟩ | ⟨fault, hrefused⟩
      · rw [claim?_of_asked hasked] at h
        exact Option.some.inj h ▸ .setUp hasked
      · rw [claim?_of_refused hrefused] at h
        cases h
    | occupy => exact Option.some.inj h ▸ .occupy
  · rintro (h | _)
    · exact claim?_of_asked h
    · rfl

theorem claim?_eq_none_iff {step : LogStep} :
    step.claim? = none ↔ ∀ owner, ¬ step.Claims owner := by
  rw [Option.eq_none_iff_forall_ne_some]
  exact forall_congr' fun owner ↦ not_congr claim?_eq_some_iff

end LogStep

namespace LogState

/-! ### One step -/

def after (s : LogState) : LogStep → LogState
  | .setUp value => (s.setUp value).2.1
  | .occupy => s.occupy.2

/-- The lines that a step writes. -/
def lines (s : LogState) : LogStep → List String
  | .setUp value => (s.setUp value).2.2
  | .occupy => []

variable {s : LogState} {value : Option (List UInt8)}

theorem setUp_of_ready (h : s.ready = true) (value : Option (List UInt8)) :
    s.setUp value = (.ok (), s, []) := by
  rw [setUp, if_pos h]

theorem setUp_of_refused {fault : LogFault} (hready : s.ready = false)
    (h : LogFormat.Refused value fault) : s.setUp value = (.error fault, s, []) := by
  rw [setUp, if_neg (Bool.eq_false_iff.mp hready), LogFormat.ofVariable_of_refused h]

theorem setUp_of_asked {format : LogFormat} (hready : s.ready = false)
    (h : LogFormat.Asked value format) :
    s.setUp value = (.ok (), ⟨true, s.owner?.or (some (.self format))⟩,
      if s.owner?.isSome then [foreignNotice] else []) := by
  rw [setUp, if_neg (Bool.eq_false_iff.mp hready), LogFormat.ofVariable_of_asked h]
  cases s.owner? <;> rfl

theorem setUp_eq_error_iff {fault : LogFault} :
    (s.setUp value).1 = .error fault ↔ s.ready = false ∧ LogFormat.Refused value fault := by
  constructor
  · intro h
    cases hready : s.ready with
    | true =>
      rw [setUp_of_ready hready] at h
      cases h
    | false =>
      rcases LogFormat.exists_asked_or_refused value with ⟨format, hasked⟩ | ⟨fault', hrefused⟩
      · rw [setUp_of_asked hready hasked] at h
        cases h
      · rw [setUp_of_refused hready hrefused] at h
        exact ⟨rfl, Except.error.inj h ▸ hrefused⟩
  · rintro ⟨hready, hrefused⟩
    rw [setUp_of_refused hready hrefused]

theorem setUp_of_error {fault : LogFault} (h : (s.setUp value).1 = .error fault) :
    s.setUp value = (.error fault, s, []) := by
  obtain ⟨hready, hrefused⟩ := setUp_eq_error_iff.mp h
  exact setUp_of_refused hready hrefused

theorem setUp_eq_ok_iff :
    (s.setUp value).1 = .ok () ↔ s.ready = true ∨ ∃ format, LogFormat.Asked value format := by
  cases hready : s.ready with
  | true => simp [setUp_of_ready hready]
  | false =>
    rcases LogFormat.exists_asked_or_refused value with ⟨format, hasked⟩ | ⟨fault, hrefused⟩
    · simpa [setUp_of_asked hready hasked] using ⟨format, hasked⟩
    · have hnone := not_exists.mpr (LogFormat.not_asked_of_refused hrefused)
      simp [setUp_of_refused hready hrefused, hnone]

theorem ready_after_iff {step : LogStep} :
    (s.after step).ready = true ↔ s.ready = true ∨ ∃ format, step.Claims (.self format) := by
  cases step with
  | setUp value =>
    have hclaims (format : LogFormat) :
        LogStep.Claims (.setUp value) (.self format) ↔ LogFormat.Asked value format :=
      ⟨fun | .setUp h => h, .setUp⟩
    simp only [hclaims]
    rw [after, ← setUp_eq_ok_iff]
    cases hready : s.ready with
    | true => simp [setUp_of_ready hready, hready]
    | false =>
      rcases LogFormat.exists_asked_or_refused value with ⟨format, hasked⟩ | ⟨fault, hrefused⟩
      · simp [setUp_of_asked hready hasked]
      · simp [setUp_of_refused hready hrefused, hready]
  | occupy =>
    have hnone : ¬ ∃ format, LogStep.Claims .occupy (.self format) := by
      rintro ⟨format, h⟩
      cases h
    rw [after, or_iff_left hnone, occupy]
    cases s.owner? <;> rfl

/-- The owner stays, and where there is none the claim of the step decides. -/
theorem owner?_after {step : LogStep} (h : s.ready = true → s.owner?.isSome = true) :
    (s.after step).owner? = s.owner?.or step.claim? := by
  cases step with
  | setUp value =>
    rw [after]
    cases hready : s.ready with
    | true =>
      rw [setUp_of_ready hready, Option.or_of_isSome (h hready)]
    | false =>
      rcases LogFormat.exists_asked_or_refused value with ⟨format, hasked⟩ | ⟨fault, hrefused⟩
      · rw [setUp_of_asked hready hasked, LogStep.claim?_of_asked hasked]
      · rw [setUp_of_refused hready hrefused, LogStep.claim?_of_refused hrefused, Option.or_none]
  | occupy =>
    rw [after, occupy]
    cases howner : s.owner? with
    | none => rfl
    | some owner => exact howner

theorem ready_after_setUp_iff :
    (s.after (.setUp value)).ready = true ↔ (s.setUp value).1 = .ok () := by
  rw [ready_after_iff, setUp_eq_ok_iff]
  refine or_congr_right ⟨?_, ?_⟩
  · rintro ⟨format, hclaim⟩
    cases hclaim with
    | setUp hasked => exact ⟨format, hasked⟩
  · rintro ⟨format, hasked⟩
    exact ⟨format, .setUp hasked⟩

/-! ### What is known of the owner -/

/-- What the owner has to do with setting up: a log that is ready is owned, and one that is not can
only be owned by somebody else. -/
structure IsOwned (s : LogState) : Prop where
  isSome_of_ready : s.ready = true → s.owner?.isSome = true
  foreign_of_not_ready : s.ready = false → ∀ owner, s.owner? = some owner → owner = .foreign

theorem isOwned_initial : IsOwned initial where
  isSome_of_ready h := by cases h
  foreign_of_not_ready _ _ h := by cases h

theorem IsOwned.after (h : s.IsOwned) (step : LogStep) : (s.after step).IsOwned where
  isSome_of_ready hready := by
    rw [owner?_after h.isSome_of_ready, Option.isSome_or]
    rcases ready_after_iff.mp hready with hbefore | ⟨format, hclaim⟩
    · rw [h.isSome_of_ready hbefore, Bool.true_or]
    · rw [LogStep.claim?_eq_some_iff.mpr hclaim, Option.isSome_some, Bool.or_true]
  foreign_of_not_ready hready owner howner := by
    have hnot := mt ready_after_iff.mpr (Bool.eq_false_iff.mp hready)
    obtain ⟨hbefore, hclaims⟩ := not_or.mp hnot
    rw [owner?_after h.isSome_of_ready, Option.or_eq_some_iff] at howner
    rcases howner with howner | ⟨-, hclaim⟩
    · exact h.foreign_of_not_ready (Bool.eq_false_iff.mpr hbefore) owner howner
    · cases LogStep.claim?_eq_some_iff.mp hclaim with
      | @setUp _ format hasked => exact absurd ⟨format, .setUp hasked⟩ hclaims
      | occupy => rfl

/-- A step writes a line only if it makes the log ready while somebody else owns it. -/
theorem lines_eq (h : s.IsOwned) (step : LogStep) :
    s.lines step
      = if s.ready = false ∧ (s.after step).ready = true ∧ s.owner? = some .foreign
        then [foreignNotice] else [] := by
  cases step with
  | setUp value =>
    simp only [lines, ready_after_setUp_iff]
    cases hready : s.ready with
    | true => simp [setUp_of_ready hready]
    | false =>
      rcases LogFormat.exists_asked_or_refused value with ⟨format, hasked⟩ | ⟨fault, hrefused⟩
      · cases howner : s.owner? with
        | none => simp [setUp_of_asked hready hasked, howner]
        | some owner =>
          obtain rfl := h.foreign_of_not_ready hready owner howner
          simp [setUp_of_asked hready hasked, howner]
      · simp [setUp_of_refused hready hrefused]
  | occupy =>
    have hsame : (s.after .occupy).ready = s.ready := by
      rw [after, occupy]
      cases s.owner? <;> rfl
    rw [lines, hsame, if_neg]
    rintro ⟨hready, hready', -⟩
    exact Bool.false_ne_true (hready.symm.trans hready')

/-! ### All steps -/

def afterAll (s : LogState) (steps : List LogStep) : LogState := steps.foldl after s

/-- The lines that the steps write, one after another. -/
def linesOfAll (s : LogState) : List LogStep → List String
  | [] => []
  | step :: rest => s.lines step ++ linesOfAll (s.after step) rest

theorem afterAll_append (s : LogState) (xs ys : List LogStep) :
    s.afterAll (xs ++ ys) = (s.afterAll xs).afterAll ys := List.foldl_append

theorem afterAll_concat (s : LogState) (steps : List LogStep) (step : LogStep) :
    s.afterAll (steps ++ [step]) = (s.afterAll steps).after step := s.afterAll_append steps [step]

theorem linesOfAll_concat (s : LogState) (steps : List LogStep) (step : LogStep) :
    s.linesOfAll (steps ++ [step]) = s.linesOfAll steps ++ (s.afterAll steps).lines step := by
  induction steps generalizing s with
  | nil => simp [linesOfAll, afterAll]
  | cons first steps ih =>
    rw [List.cons_append, linesOfAll, ih, linesOfAll, List.append_assoc, afterAll, afterAll,
      List.foldl_cons]

theorem IsOwned.afterAll (h : s.IsOwned) (steps : List LogStep) : (s.afterAll steps).IsOwned := by
  induction steps generalizing s with
  | nil => exact h
  | cons step steps ih => exact ih (h.after step)

theorem owner?_afterAll (h : s.IsOwned) (steps : List LogStep) :
    (s.afterAll steps).owner? = s.owner?.or (steps.findSome? LogStep.claim?) := by
  induction steps generalizing s with
  | nil => rw [List.findSome?_nil, Option.or_none, LogState.afterAll, List.foldl_nil]
  | cons step steps ih =>
    have hrest := ih (h.after step)
    rw [LogState.afterAll, List.foldl_cons, ← LogState.afterAll, hrest,
      owner?_after h.isSome_of_ready, Option.or_assoc, List.findSome?_cons]
    cases step.claim? <;> rfl

theorem ready_afterAll (h : s.ready = true) (steps : List LogStep) :
    (s.afterAll steps).ready = true := by
  induction steps generalizing s with
  | nil => exact h
  | cons step steps ih => exact ih (ready_after_iff.mpr (.inl h))

/-- All lines of a run, told from the log at its end: whoever owns it then owned it all the time. -/
theorem linesOfAll_initial (steps : List LogStep) :
    initial.linesOfAll steps
      = if (initial.afterAll steps).ready = true ∧ (initial.afterAll steps).owner? = some .foreign
        then [foreignNotice] else [] := by
  induction steps using List.reverseRecOn with
  | nil => rfl
  | append_singleton steps step ih =>
    have howned := isOwned_initial.afterAll steps
    rw [linesOfAll_concat, ih, lines_eq howned, afterAll_concat,
      owner?_after howned.isSome_of_ready]
    cases hready : (initial.afterAll steps).ready with
    | true =>
      have hstill : ((initial.afterAll steps).after step).ready = true :=
        ready_after_iff.mpr (.inl hready)
      obtain ⟨owner, howner⟩ := Option.isSome_iff_exists.mp (howned.isSome_of_ready hready)
      simp [hstill, howner]
    | false =>
      cases howner : (initial.afterAll steps).owner? with
      | none =>
        have hother : ¬ (((initial.afterAll steps).after step).ready = true
            ∧ step.claim? = some .foreign) := by
          rintro ⟨hlater, hclaim⟩
          cases LogStep.claim?_eq_some_iff.mp hclaim with
          | occupy =>
            rcases ready_after_iff.mp hlater with hbefore | ⟨format, hself⟩
            · exact Bool.false_ne_true (hready.symm.trans hbefore)
            · cases hself
        simp [hother]
      | some owner => simp

/-! ## Attempts and claims -/

/-- One of the steps is a successful attempt at setting up the log. -/
def SetUpBy (steps : List LogStep) : Prop :=
  ∃ before value later, steps = before ++ .setUp value :: later
    ∧ ((initial.afterAll before).setUp value).1 = .ok ()

/-- The step with which the owner comes in is the first that claims the log for anybody. -/
def OwnedBy (steps : List LogStep) (owner : LogOwner) : Prop :=
  ∃ before step later, steps = before ++ step :: later ∧ step.Claims owner
    ∧ ∀ earlier ∈ before, ∀ other, ¬ earlier.Claims other

variable {steps : List LogStep}

theorem setUpBy_iff : SetUpBy steps ↔ (initial.afterAll steps).ready = true := by
  constructor
  · rintro ⟨before, value, later, rfl, hok⟩
    rw [afterAll_append]
    exact ready_afterAll (ready_after_setUp_iff.mpr hok) later
  · intro hready
    induction steps using List.reverseRecOn with
    | nil => cases hready
    | append_singleton steps step ih =>
      rw [afterAll_concat] at hready
      rcases ready_after_iff.mp hready with hbefore | ⟨format, hclaim⟩
      · obtain ⟨before, value, later, rfl, hok⟩ := ih hbefore
        refine ⟨before, value, later ++ [step], ?_, hok⟩
        rw [List.append_assoc, List.cons_append]
      · cases hclaim with
        | @setUp value _ hasked =>
          exact ⟨steps, value, [], rfl, setUp_eq_ok_iff.mpr (.inr ⟨format, hasked⟩)⟩

theorem not_setUpBy_iff : ¬ SetUpBy steps ↔ (initial.afterAll steps).ready = false := by
  rw [setUpBy_iff, Bool.not_eq_true]

theorem ownedBy_iff {owner : LogOwner} :
    OwnedBy steps owner ↔ (initial.afterAll steps).owner? = some owner := by
  have hnone : initial.owner? = none := rfl
  rw [owner?_afterAll isOwned_initial, hnone, Option.none_or, List.findSome?_eq_some_iff]
  simp only [LogStep.claim?_eq_some_iff, LogStep.claim?_eq_none_iff]
  rfl

theorem occupy_eq_true_iff : s.occupy.1 = true ↔ s.owner? = none := by
  rw [occupy]
  cases s.owner? <;> simp

/-- **A log is set up once, and owned by whoever comes first.** Whatever has happened to the log,
setting it up fails exactly if it has not been set up yet and the value of the variable is refused;
then nothing changes, and the next attempt finds the log as this one did. Once it is set up, every
attempt succeeds without a word. The owner is the first that claimed the log, be it somebody else or
an attempt that asked for a format; somebody else gets the log exactly if nobody owns it, and the
owner stays. The line about an owner from elsewhere is written by the attempt that sets up the log,
if somebody else owns it by then, and by no other step, so there is at most one. -/
theorem set_up_once (before : List LogStep) (value : Option (List UInt8)) (later : List LogStep) :
    let s := initial.afterAll before
    (∀ fault, (s.setUp value).1 = .error fault ↔ ¬ SetUpBy before ∧ LogFormat.Refused value fault)
      ∧ (∀ fault, (s.setUp value).1 = .error fault → (s.setUp value).2 = (s, []))
      ∧ (SetUpBy before → s.setUp value = (.ok (), s, []))
      ∧ (∀ owner, s.owner? = some owner ↔ OwnedBy before owner)
      ∧ (s.occupy.1 = true ↔ ∀ owner, ¬ OwnedBy before owner)
      ∧ (∀ owner, s.owner? = some owner → (s.afterAll later).owner? = some owner)
      ∧ (s.lines (.setUp value) = [foreignNotice]
        ↔ ¬ SetUpBy before ∧ (s.setUp value).1 = .ok () ∧ OwnedBy before .foreign)
      ∧ (initial.linesOfAll before).length ≤ 1 := by
  intro s
  have howned : s.IsOwned := isOwned_initial.afterAll before
  refine ⟨fun fault ↦ ?_, fun fault h ↦ congrArg Prod.snd (setUp_of_error h), fun h ↦ ?_,
    fun owner ↦ ownedBy_iff.symm, ?_, fun owner h ↦ ?_, ?_, ?_⟩
  · rw [not_setUpBy_iff]
    exact setUp_eq_error_iff
  · exact setUp_of_ready (setUpBy_iff.mp h) value
  · rw [occupy_eq_true_iff, Option.eq_none_iff_forall_ne_some]
    exact forall_congr' fun owner ↦ not_congr ownedBy_iff.symm
  · rw [owner?_afterAll howned, h, Option.some_or]
  · rw [lines_eq howned, not_setUpBy_iff, ownedBy_iff, ← ready_after_setUp_iff]
    simp only [ite_eq_left_iff, reduceCtorEq, imp_false, not_not]
    exact Iff.rfl
  · rw [linesOfAll_initial]
    split_ifs <;> simp

/-- A name that is no format, somebody else, and then a name in capitals between blanks: the first
attempt fails, and the second one keeps the owner and says so. -/
theorem set_up_once_when_occupied :
    let xml := some "xml".toUTF8.data.toList
    let json := some " JSON ".toUTF8.data.toList
    (initial.setUp xml).1 = .error (.unsupported "xml")
      ∧ (initial.afterAll [.setUp xml, .occupy]).lines (.setUp json) = [foreignNotice]
      ∧ (initial.afterAll [.setUp xml, .occupy, .setUp json, .setUp xml]).owner?
        = some .foreign := by
  intro xml json
  have hrefused : LogFormat.Refused xml (.unsupported "xml") :=
    LogFormat.ofVariable_eq_error_iff.mp (by decide +kernel)
  have hasked : LogFormat.Asked json .json := LogFormat.ofVariable_eq_ok_iff.mp (by decide +kernel)
  have hnot : ¬ SetUpBy [.setUp xml, .occupy] := not_setUpBy_iff.mpr (by decide +kernel)
  have howned : OwnedBy [.setUp xml, .occupy] .foreign := ownedBy_iff.mpr (by decide +kernel)
  obtain ⟨hfails, -⟩ := set_up_once [] xml []
  obtain ⟨-, -, -, howner, -, hstays, hline, -⟩ :=
    set_up_once [.setUp xml, .occupy] json [.setUp json, .setUp xml]
  refine ⟨(hfails _).mpr ⟨not_setUpBy_iff.mpr rfl, hrefused⟩, hline.mpr ⟨hnot, ?_, howned⟩,
    hstays _ ((howner _).mpr howned)⟩
  exact setUp_eq_ok_iff.mpr (.inr ⟨.json, hasked⟩)

end LogState

end RecursiveMatrix
