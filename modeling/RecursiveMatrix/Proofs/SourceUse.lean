import Mathlib.Data.Nat.Find
import RecursiveMatrix.Proofs.SimpleGraphs

/-!
# One source for many operations

A source can be lent to one operation after another: values are drawn from it, edges placed, graphs
generated, and edges taken from those still to come. An operation takes what it needs from the front
of the values and leaves the rest to the next one, so a run over any operations cuts the values into
consecutive stretches (`performAll_takes_consecutive_values`).

An operation is described by the number of values it takes (`Operation.draws`), which can depend on
those values: a simple graph takes attempts until it has enough distinct edges. It takes no more
than that (`Operation.perform_snd`), and it does not look at anything beyond
(`Operation.perform_congr`), so that what it returns can be told from its own stretch.
-/

namespace RecursiveMatrix

open UniformSource

universe u v

/-! ## Sequences of values -/

/-- A sequence of values is a source that hands them out. -/
instance : UniformSource (Stream' Float) := ⟨fun values ↦ (values.head, values.tail)⟩

namespace UniformSource

variable {σ : Type u} [UniformSource σ]

/-- All the values that a source hands out. -/
def values (s : σ) : Stream' Float := value s

theorem skip_stream (n : ℕ) (values : Stream' Float) : skip n values = values.drop n := by
  induction n generalizing values with
  | zero => rfl
  | succ n ih =>
    rw [skip_succ, ih]
    rfl

theorem value_stream (values : Stream' Float) (n : ℕ) : value values n = values.get n := by
  rw [value, skip_stream, ← Stream'.head_drop]
  rfl

theorem values_skip (n : ℕ) (s : σ) : values (skip n s) = (values s).drop n := by
  funext i
  exact (value_skip n i s).trans (congrArg (value s) (Nat.add_comm n i))

theorem value_values (s : σ) (n : ℕ) : value (values s) n = value s n := value_stream (values s) n

theorem value_eq_of_take_eq {n : ℕ} {xs ys : Stream' Float} (h : xs.take n = ys.take n) :
    ∀ i < n, value xs i = value ys i := by
  intro i hi
  have hget := congrArg (·[i]?) h
  simp only [Stream'.getElem?_take hi, Option.some.injEq] at hget
  rw [value_stream, value_stream, hget]

end UniformSource

theorem Replay.skip_eq (n : ℕ) (r : Replay) : skip n r = { r with position := r.position + n } := by
  induction n generalizing r with
  | zero => rfl
  | succ n ih =>
    rw [skip_succ, ih]
    simp only [UniformSource.next, Replay.next, Nat.add_assoc, Nat.add_comm 1 n]

/-! ## Generators on sources that begin alike -/

namespace Generator

variable {σ : Type u} [UniformSource σ] {τ : Type v} [UniformSource τ] (g : Generator)
  {r : τ} {s : σ}

theorem place_congr (h : ∀ i < g.levels, value r i = value s i) :
    (g.place r).1 = (g.place s).1 := by
  rw [place_eq, place_eq, stateAfter, stateAfter, draw_congr h]

theorem take_stream_congr {n : ℕ} (h : ∀ i < n * g.levels, value r i = value s i) :
    (g.stream r).take n = (g.stream s).take n := by
  induction n with
  | zero => rfl
  | succ n ih =>
    have hle : n * g.levels ≤ (n + 1) * g.levels := Nat.mul_le_mul_right _ (Nat.le_succ n)
    have hfirst := ih fun i hi ↦ h i (hi.trans_le hle)
    -- The last edge is placed where the earlier ones have left the sources.
    have hlast : (g.place (skip (n * g.levels) r)).1 = (g.place (skip (n * g.levels) s)).1 := by
      apply g.place_congr
      intro i hi
      rw [value_skip, value_skip]
      apply h
      rw [Nat.succ_mul]
      exact Nat.add_lt_add_left hi _
    rw [Stream'.take_succ', Stream'.take_succ', hfirst, get_stream, get_stream, hlast]

/-! ### Attempts at a simple graph -/

/-- The attempts that generating a simple graph makes: none if there are too few pairs, and
otherwise until there are enough distinct edges or the budget is spent. -/
def attempts (g : Generator) (s : σ) : ℕ :=
  if g.availablePairs < g.edgeCount.toNat then 0
  else Nat.find (p := fun n ↦ distinctAfter (g.stream s) n = g.edgeCount.toNat
    ∨ n = attemptBudget g.edgeCount.toNat) ⟨_, .inr rfl⟩

theorem attempts_of_lt (s : σ) (h : g.availablePairs < g.edgeCount.toNat) : g.attempts s = 0 := by
  rw [attempts, if_pos h]

theorem attempts_eq_iff {n : ℕ} (h : g.edgeCount.toNat ≤ g.availablePairs) :
    g.attempts s = n
      ↔ (distinctAfter (g.stream s) n = g.edgeCount.toNat ∨ n = attemptBudget g.edgeCount.toNat)
        ∧ ∀ m < n, distinctAfter (g.stream s) m ≠ g.edgeCount.toNat
          ∧ m ≠ attemptBudget g.edgeCount.toNat := by
  rw [attempts, if_neg (Nat.not_lt.mpr h), Nat.find_eq_iff]
  simp only [not_or]

theorem generateSimple_eq (s : σ) :
    g.generateSimple s
      = (if g.availablePairs < g.edgeCount.toNat then
          .error (.rejected (.tooFewPairs g.edgeCount.toNat g.availablePairs))
        else if distinctAfter (g.stream s) (g.attempts s) = g.edgeCount.toNat then
          .ok (simpleEdges ((g.stream s).take (g.attempts s)))
        else .error (.exhausted (distinctAfter (g.stream s) (g.attempts s)) g.edgeCount.toNat
          (g.attempts s)),
        skip (g.attempts s * g.levels) s) := by
  have houtcome := g.simpleOutcome s
  generalize g.generateSimple s = result at houtcome
  cases houtcome with
  | infeasible h => rw [if_pos h, g.attempts_of_lt s h, Nat.zero_mul, skip_zero]
  | @complete n h le_budget reached short =>
    have hn : g.attempts s = n := (g.attempts_eq_iff h).mpr
      ⟨.inl reached, fun m hm ↦ ⟨(short m hm).ne, (hm.trans_le le_budget).ne⟩⟩
    rw [if_neg (Nat.not_lt.mpr h), hn, if_pos reached]
  | exhausted h short =>
    have hn : g.attempts s = attemptBudget g.edgeCount.toNat := (g.attempts_eq_iff h).mpr
      ⟨.inr rfl, fun m hm ↦ ⟨((distinctAfter_mono _ hm.le).trans_lt short).ne, hm.ne⟩⟩
    rw [if_neg (Nat.not_lt.mpr h), hn, if_neg short.ne]

theorem distinctAfter_congr {m n : ℕ} (h : ∀ i < n * g.levels, value r i = value s i) (hm : m ≤ n) :
    distinctAfter (g.stream r) m = distinctAfter (g.stream s) m := by
  have hle : m * g.levels ≤ n * g.levels := Nat.mul_le_mul_right _ hm
  rw [distinctAfter, g.take_stream_congr fun i hi ↦ h i (hi.trans_le hle), distinctAfter]

theorem attempts_congr (h : ∀ i < g.attempts s * g.levels, value r i = value s i) :
    g.attempts r = g.attempts s := by
  rcases Nat.lt_or_ge g.availablePairs g.edgeCount.toNat with hpairs | hpairs
  · rw [g.attempts_of_lt r hpairs, g.attempts_of_lt s hpairs]
  · obtain ⟨hended, hshort⟩ := (g.attempts_eq_iff hpairs).mp (rfl : g.attempts s = _)
    refine (g.attempts_eq_iff hpairs).mpr ⟨?_, fun m hm ↦ ?_⟩
    · rwa [g.distinctAfter_congr h le_rfl]
    · rw [g.distinctAfter_congr h hm.le]
      exact hshort m hm

end Generator

/-! ## Operations -/

/-- What a source can be lent to. -/
inductive Operation where
  /-- A single value is drawn. -/
  | draw
  /-- An edge is placed. -/
  | place (g : Generator)
  /-- A graph is generated. -/
  | generate (g : Generator)
  /-- A simple graph is generated, which can fail. -/
  | generateSimple (g : Generator)
  /-- Up to `k` edges of a graph are taken, and those still to come are given up. -/
  | takeEdges (g : Generator) (k : ℕ)

/-- What an operation returns. -/
inductive Answer where
  /-- The value drawn. -/
  | value (x : Float)
  /-- The edge placed. -/
  | edge (e : Edge)
  /-- The edges generated or taken. -/
  | edges (edges : List Edge)
  /-- The edges of a simple graph, or why there are none. -/
  | simple (result : Except Failure (List Edge))

namespace Operation

variable {σ : Type u} [UniformSource σ]

/-- Performs an operation, and gives the source back. -/
def perform (s : σ) : Operation → Answer × σ
  | draw => (.value (next s).1, (next s).2)
  | place g => (.edge (g.place s).1, (g.place s).2)
  | generate g => (.edges (g.generate s).1, (g.generate s).2)
  | generateSimple g => (.simple (g.generateSimple s).1, (g.generateSimple s).2)
  | takeEdges g k => (.edges ((g.edges s).take k).1, ((g.edges s).take k).2.source)

/-- The number of values that an operation takes. -/
def draws (s : σ) : Operation → ℕ
  | draw => 1
  | place g => g.levels
  | generate g => g.edgeCount.toNat * g.levels
  | generateSimple g => g.attempts s * g.levels
  | takeEdges g k => min k g.edgeCount.toNat * g.levels

/-- **The step.** An operation leaves the values that it does not take. -/
theorem perform_snd (op : Operation) (s : σ) : (op.perform s).2 = skip (op.draws s) s := by
  cases op with
  | draw => rfl
  | place g => exact g.place_snd s
  | generate g => rw [perform, g.generate_eq, draws]
  | generateSimple g => rw [perform, g.generateSimple_eq, draws]
  | takeEdges g k =>
    rw [perform, EdgeStream.take_eq]
    rfl

/-- An operation does not look beyond the values that it takes. -/
theorem perform_congr {τ : Type v} [UniformSource τ] {r : τ} {s : σ} (op : Operation)
    (h : ∀ i < op.draws s, value r i = value s i) :
    (op.perform r).1 = (op.perform s).1 ∧ op.draws r = op.draws s := by
  cases op with
  | draw => exact ⟨congrArg Answer.value (h 0 Nat.one_pos), rfl⟩
  | place g => exact ⟨congrArg Answer.edge (g.place_congr h), rfl⟩
  | generate g =>
    refine ⟨?_, rfl⟩
    simp only [perform, g.generate_eq]
    rw [g.take_stream_congr h]
  | generateSimple g =>
    have hattempts := g.attempts_congr h
    refine ⟨?_, by rw [draws, hattempts, draws]⟩
    simp only [perform, g.generateSimple_eq]
    rw [hattempts, g.distinctAfter_congr h le_rfl, g.take_stream_congr h]
  | takeEdges g k =>
    refine ⟨?_, rfl⟩
    simp only [perform, EdgeStream.take_eq]
    exact congrArg Answer.edges (g.take_stream_congr h)

end Operation

/-! ## Runs -/

section Runs

variable {σ : Type u} [UniformSource σ]

/-- Performs operations one after another. -/
def performAll : List Operation → σ → List Answer × σ
  | [], s => ([], s)
  | op :: ops, s =>
    let performed := op.perform s
    let rest := performAll ops performed.2
    (performed.1 :: rest.1, rest.2)

/-- The number of values that operations take in total. -/
def drawsOf : List Operation → σ → ℕ
  | [], _ => 0
  | op :: ops, s => op.draws s + drawsOf ops (skip (op.draws s) s)

theorem performAll_cons (op : Operation) (ops : List Operation) (s : σ) :
    performAll (op :: ops) s
      = ((op.perform s).1 :: (performAll ops (skip (op.draws s) s)).1,
        (performAll ops (skip (op.draws s) s)).2) := by
  simp only [performAll, op.perform_snd]

/-- **The run.** Operations leave the values that none of them takes. -/
theorem performAll_snd (ops : List Operation) (s : σ) :
    (performAll ops s).2 = skip (drawsOf ops s) s := by
  induction ops generalizing s with
  | nil => rfl
  | cons op ops ih => rw [performAll_cons, ih, drawsOf, skip_add]

theorem length_performAll (ops : List Operation) (s : σ) :
    (performAll ops s).1.length = ops.length := by
  induction ops generalizing s with
  | nil => rfl
  | cons op ops ih => rw [performAll_cons, List.length_cons, ih, List.length_cons]

theorem performAll_append (before after : List Operation) (s : σ) :
    performAll (before ++ after) s
      = ((performAll before s).1 ++ (performAll after (skip (drawsOf before s) s)).1,
        (performAll after (skip (drawsOf before s) s)).2) := by
  induction before generalizing s with
  | nil => rfl
  | cons op before ih =>
    rw [List.cons_append, performAll_cons, ih, performAll_cons, drawsOf, skip_add, List.cons_append]

theorem drawsOf_append (before after : List Operation) (s : σ) :
    drawsOf (before ++ after) s
      = drawsOf before s + drawsOf after (skip (drawsOf before s) s) := by
  induction before generalizing s with
  | nil => rw [drawsOf, List.nil_append, Nat.zero_add, skip_zero]
  | cons op before ih => rw [List.cons_append, drawsOf, ih, drawsOf, skip_add, Nat.add_assoc]

theorem getElem?_performAll (before after : List Operation) (op : Operation) (s : σ) :
    (performAll (before ++ op :: after) s).1[before.length]?
      = some (op.perform (skip (drawsOf before s) s)).1 := by
  rw [performAll_append, performAll_cons, List.getElem?_append_right (length_performAll _ _).le,
    length_performAll, Nat.sub_self, List.getElem?_cons_zero]

/-- **Operations take consecutive values.** A run leaves the source behind all values that its
operations take, one stretch after another: the stretch of an operation begins where that of the
operation before it ends. An operation answers as it does on a fresh source with the rest of the
values, it takes one value, or one for each level of every edge that it places, and it does not
depend on values beyond. A replay has counted all of these values at the end and goes on with the
next one. -/
theorem performAll_takes_consecutive_values (ops : List Operation) (s : σ) :
    (performAll ops s).2 = skip (drawsOf ops s) s
      ∧ (performAll ops s).1.length = ops.length
      ∧ (∀ before op after, ops = before ++ op :: after →
        let rest := (values s).drop (drawsOf before s)
        (performAll ops s).1[before.length]? = some (op.perform rest).1
          ∧ (op.perform rest).2 = rest.drop (op.draws rest)
          ∧ drawsOf (before ++ [op]) s = drawsOf before s + op.draws rest
          ∧ ∀ other : Stream' Float, other.take (op.draws rest) = rest.take (op.draws rest) →
            (op.perform other).1 = (op.perform rest).1 ∧ op.draws other = op.draws rest)
      ∧ ∀ r : Replay, (performAll ops r).2.position = r.position + drawsOf ops r
        ∧ r.values[(performAll ops r).2.position % r.values.size]?
          = some (next (performAll ops r).2).1 := by
  refine ⟨performAll_snd ops s, length_performAll ops s, ?_, fun r ↦ ?_⟩
  · rintro before op after rfl rest
    have hrest : rest = values (skip (drawsOf before s) s) := (values_skip _ s).symm
    obtain ⟨hanswer, hdraws⟩ := op.perform_congr (r := rest) (s := skip (drawsOf before s) s)
      fun i _ ↦ hrest ▸ value_values _ i
    refine ⟨?_, ?_, ?_, fun other hother ↦ op.perform_congr (value_eq_of_take_eq hother)⟩
    · rw [getElem?_performAll, hanswer]
    · rw [op.perform_snd, skip_stream]
    · rw [drawsOf_append, drawsOf, drawsOf, Nat.add_zero, hdraws]
  · rw [performAll_snd, Replay.skip_eq]
    exact ⟨rfl, Array.getElem?_eq_getElem (Nat.mod_lt _ r.size_pos)⟩

end Runs

end RecursiveMatrix
