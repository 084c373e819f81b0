import Mathlib.Data.Finset.Card
import Mathlib.Order.Bounds.Defs
import RecursiveMatrix.Generator.Simple
import RecursiveMatrix.Proofs.EdgeSequence
import RecursiveMatrix.Random.Replay

/-!
# Simple graphs are the distinct edges of a sequence

A simple graph is generated by trying one edge after another, and a look-up table decides which of
them are kept. This file says what is kept without a table: the edges of a sequence that are neither
loops nor repetitions of an earlier one, in the order in which they come (`simpleEdges`).

## The invariant

After `n` attempts the edges kept are `simpleEdges` of the first `n` edges of the sequence, the
table holds the same edges, and its size is their number (`Kept.Represents`). Attempts therefore end
at the first `n` with enough distinct edges, or at the limit if there is no such `n` below it
(`StopsAt`). An attempt adds one edge at most, so the number of edges never jumps over the one that
is wanted.

What can come out of it has three forms, and `SimpleOutcome` says when each of them occurs, with
the draws it takes.
-/

namespace RecursiveMatrix

open UniformSource

/-! ## Distinct edges of a list -/

/-- The edges that are neither loops nor repetitions of an earlier edge. -/
def simpleEdges (edges : List Edge) : List Edge := (edges.filter fun e ↦ !e.isLoop).eraseDups

/-- The number of distinct edges that are no loops. -/
def distinctCount (edges : List Edge) : ℕ := (edges.toFinset.filter fun e ↦ e.isLoop = false).card

theorem mem_simpleEdges {e : Edge} {edges : List Edge} :
    e ∈ simpleEdges edges ↔ e ∈ edges ∧ e.isLoop = false := by
  rw [simpleEdges, List.mem_eraseDups, List.mem_filter, Bool.not_eq_true']

theorem simpleEdges_append (xs ys : List Edge) :
    simpleEdges (xs ++ ys) = simpleEdges xs
      ++ ((ys.filter fun e ↦ !e.isLoop).removeAll (xs.filter fun e ↦ !e.isLoop)).eraseDups := by
  rw [simpleEdges, List.filter_append, List.eraseDups_append, simpleEdges]

theorem simpleEdges_concat_of_mem {edges : List Edge} {e : Edge}
    (h : e.isLoop = true ∨ e ∈ simpleEdges edges) :
    simpleEdges (edges ++ [e]) = simpleEdges edges := by
  rw [simpleEdges_append]
  rcases h with hloop | hmem
  · simp [hloop, List.removeAll]
  · obtain ⟨hmem, hloop⟩ := mem_simpleEdges.mp hmem
    simp [hloop, hmem, List.removeAll]

theorem simpleEdges_concat_of_notMem {edges : List Edge} {e : Edge} (hloop : e.isLoop = false)
    (hmem : e ∉ simpleEdges edges) : simpleEdges (edges ++ [e]) = simpleEdges edges ++ [e] := by
  have hnew : e ∉ edges := fun h ↦ hmem (mem_simpleEdges.mpr ⟨h, hloop⟩)
  rw [simpleEdges_append]
  simp [hloop, hnew, List.removeAll, List.eraseDups_cons]

theorem nodup_simpleEdges (edges : List Edge) : (simpleEdges edges).Nodup := by
  induction edges using List.reverseRecOn with
  | nil => exact List.nodup_nil
  | append_singleton edges e ih =>
    -- The last edge is left out, or it is not among the earlier ones.
    by_cases h : e.isLoop = true ∨ e ∈ simpleEdges edges
    · rwa [simpleEdges_concat_of_mem h]
    · obtain ⟨hloop, hmem⟩ := not_or.mp h
      rw [simpleEdges_concat_of_notMem (Bool.not_eq_true _ ▸ hloop) hmem]
      exact List.nodup_append.mpr ⟨ih, List.nodup_singleton e, fun a ha b hb ↦ by
        rw [List.mem_singleton.mp hb]
        exact fun hab ↦ hmem (hab ▸ ha)⟩

theorem toFinset_simpleEdges (edges : List Edge) :
    (simpleEdges edges).toFinset = edges.toFinset.filter fun e ↦ e.isLoop = false := by
  ext e
  rw [List.mem_toFinset, Finset.mem_filter, List.mem_toFinset, mem_simpleEdges]

theorem length_simpleEdges (edges : List Edge) :
    (simpleEdges edges).length = distinctCount edges := by
  rw [distinctCount, ← toFinset_simpleEdges,
    List.toFinset_card_of_nodup (nodup_simpleEdges edges)]

theorem simpleEdges_eq_self {edges : List Edge} (hloop : ∀ e ∈ edges, e.isLoop = false)
    (hnodup : edges.Nodup) : simpleEdges edges = edges := by
  induction edges using List.reverseRecOn with
  | nil => rfl
  | append_singleton edges e ih =>
    have hlast : e ∉ edges := fun h ↦ (List.nodup_append.mp hnodup).2.2 e h e (by simp) rfl
    have hrest : simpleEdges edges = edges :=
      ih (fun a ha ↦ hloop a (List.mem_append_left _ ha)) (List.nodup_append.mp hnodup).1
    rw [simpleEdges_concat_of_notMem (hloop e (by simp)) (hrest.symm ▸ hlast), hrest]

/-! ## Distinct edges of a sequence -/

/-- The number of distinct edges that are no loops, among the first `n` edges of a sequence. -/
def distinctAfter (edges : Stream' Edge) (n : ℕ) : ℕ := distinctCount (edges.take n)

theorem length_simpleEdges_take (edges : Stream' Edge) (n : ℕ) :
    (simpleEdges (edges.take n)).length = distinctAfter edges n := length_simpleEdges _

theorem simpleEdges_take_isPrefix (edges : Stream' Edge) {m n : ℕ} (h : m ≤ n) :
    simpleEdges (edges.take m) <+: simpleEdges (edges.take n) := by
  obtain ⟨k, rfl⟩ := Nat.exists_eq_add_of_le h
  rw [Stream'.take_add, simpleEdges_append]
  exact List.prefix_append _ _

theorem distinctAfter_mono (edges : Stream' Edge) : Monotone (distinctAfter edges) := by
  intro m n h
  rw [← length_simpleEdges_take, ← length_simpleEdges_take]
  exact (simpleEdges_take_isPrefix edges h).length_le

theorem distinctAfter_succ_le (edges : Stream' Edge) (n : ℕ) :
    distinctAfter edges (n + 1) ≤ distinctAfter edges n + 1 := by
  rw [← length_simpleEdges_take, ← length_simpleEdges_take, Stream'.take_succ']
  by_cases h : (edges.get n).isLoop = true ∨ edges.get n ∈ simpleEdges (edges.take n)
  · rw [simpleEdges_concat_of_mem h]
    exact Nat.le_succ _
  · obtain ⟨hloop, hmem⟩ := not_or.mp h
    rw [simpleEdges_concat_of_notMem (Bool.not_eq_true _ ▸ hloop) hmem, List.length_append,
      List.length_singleton]

/-- Attempts at `wanted` distinct edges that start at position `first` end at position `n`: there
are enough edges, or the limit is reached. -/
structure StopsAt (edges : Stream' Edge) (wanted first limit n : ℕ) : Prop where
  /-- The attempts go forward. -/
  first_le : first ≤ n
  /-- They stay within the limit. -/
  le_limit : n ≤ limit
  /-- There are too few edges before they end. -/
  short : ∀ m, first ≤ m → m < n → distinctAfter edges m < wanted
  /-- They end for one of two reasons. -/
  ended : distinctAfter edges n = wanted ∨ distinctAfter edges n < wanted ∧ n = limit

/-! ## The edges kept -/

namespace Kept

/-- What is kept are the distinct edges of `tried`, both in the list and in the table. -/
structure Represents (kept : Kept) (tried : List Edge) : Prop where
  /-- The list holds them in their order. -/
  toList_eq : kept.toList = simpleEdges tried
  /-- The table holds the same ones. -/
  mem_seen : ∀ e, e ∈ kept.seen ↔ e ∈ simpleEdges tried
  /-- The table is as large as they are many. -/
  count_eq : kept.count = distinctCount tried

theorem represents_empty : empty.Represents [] where
  toList_eq := rfl
  mem_seen e := by simp [empty, simpleEdges]
  count_eq := rfl

/-- **The step.** An attempt keeps an edge exactly if it is a distinct one. -/
theorem Represents.offer {kept : Kept} {tried : List Edge} (h : kept.Represents tried) (e : Edge) :
    (kept.offer e).Represents (tried ++ [e]) := by
  have hseen : kept.seen.contains e = true ↔ e ∈ simpleEdges tried := h.mem_seen e
  by_cases hold : e.isLoop = true ∨ e ∈ simpleEdges tried
  · have hoffer : kept.offer e = kept := by
      rw [Kept.offer, if_pos]
      rwa [Bool.or_eq_true, hseen]
    have hcount : distinctCount (tried ++ [e]) = distinctCount tried := by
      rw [← length_simpleEdges, simpleEdges_concat_of_mem hold, length_simpleEdges]
    rw [hoffer]
    refine ⟨?_, ?_, hcount ▸ h.count_eq⟩
    · rw [simpleEdges_concat_of_mem hold]
      exact h.toList_eq
    · rw [simpleEdges_concat_of_mem hold]
      exact h.mem_seen
  · obtain ⟨hloop, hmem⟩ := not_or.mp hold
    have hconcat := simpleEdges_concat_of_notMem (Bool.not_eq_true _ ▸ hloop) hmem
    have hoffer : kept.offer e = ⟨e :: kept.latest, kept.seen.insert e⟩ := by
      rw [Kept.offer, if_neg]
      rwa [Bool.or_eq_true, hseen]
    have hcount : distinctCount (tried ++ [e]) = distinctCount tried + 1 := by
      rw [← length_simpleEdges, hconcat, List.length_append, List.length_singleton,
        length_simpleEdges]
    rw [hoffer]
    refine ⟨?_, fun a ↦ ?_, ?_⟩
    · rw [hconcat, ← h.toList_eq, toList, toList, List.reverse_cons]
    · rw [Std.HashSet.mem_insert, h.mem_seen, hconcat, List.mem_append, List.mem_singleton,
        beq_iff_eq, eq_comm, or_comm]
    · have hnot : e ∉ kept.seen := fun hin ↦ hmem ((h.mem_seen e).mp hin)
      rw [hcount, count, Std.HashSet.size_insert, if_neg hnot, ← h.count_eq, count]

end Kept

/-! ## The attempts -/

universe u

variable {σ : Type u} [UniformSource σ]

namespace Generator

variable (g : Generator)

/-- **The run.** Attempts that start with the distinct edges of the first `t` edges of a sequence
stop with those of the first `n`, and the source is left there. -/
theorem collect_eq (wanted attempts : ℕ) {kept : Kept} {t : ℕ} (s : σ)
    (hkept : kept.Represents ((g.stream s).take t))
    (hle : distinctAfter (g.stream s) t ≤ wanted) :
    ∃ n, StopsAt (g.stream s) wanted t (t + attempts) n
      ∧ (g.collect wanted attempts kept (skip (t * g.levels) s)).1.Represents ((g.stream s).take n)
      ∧ (g.collect wanted attempts kept (skip (t * g.levels) s)).2 = skip (n * g.levels) s := by
  induction attempts generalizing kept t with
  | zero =>
    -- No attempt is left.
    have hended := hle.eq_or_lt.imp_right fun hlt ↦ And.intro hlt (Nat.add_zero t).symm
    exact ⟨t, ⟨Nat.le_refl t, Nat.le_refl t, fun m hm hmt ↦ absurd hmt (Nat.not_lt.mpr hm), hended⟩,
      hkept, rfl⟩
  | succ attempts ih =>
    by_cases hcount : kept.count = wanted
    -- There are enough edges already.
    · have hended : distinctAfter (g.stream s) t = wanted :=
        hkept.count_eq.symm.trans hcount
      rw [collect, if_pos hcount]
      exact ⟨t, ⟨Nat.le_refl t, Nat.le_add_right t _, fun m hm hmt ↦ absurd hmt (Nat.not_lt.mpr hm),
        .inl hended⟩, hkept, rfl⟩
    -- One more attempt, which cannot go beyond `wanted` as it adds one edge at most.
    · have hlt : distinctAfter (g.stream s) t < wanted :=
        lt_of_le_of_ne hle fun h ↦ hcount (hkept.count_eq.trans h)
      have hplaced := hkept.offer (g.place (skip (t * g.levels) s)).1
      rw [← get_stream, ← Stream'.take_succ'] at hplaced
      have hsource : (g.place (skip (t * g.levels) s)).2 = skip ((t + 1) * g.levels) s := by
        rw [place_snd, ← skip_add, Nat.succ_mul]
      obtain ⟨n, hstops, hrepresents, hrest⟩ :=
        ih hplaced ((distinctAfter_succ_le _ _).trans hlt)
      rw [collect, if_neg hcount]
      simp only
      rw [← get_stream, hsource]
      refine ⟨n, ⟨(Nat.le_succ t).trans hstops.first_le, ?_, ?_, ?_⟩, hrepresents, hrest⟩
      · exact hstops.le_limit.trans_eq (Nat.succ_add_eq_add_succ t attempts)
      · intro m hm hmn
        rcases hm.eq_or_lt with rfl | hm
        · exact hlt
        · exact hstops.short m hm hmn
      · rw [← Nat.succ_add_eq_add_succ]
        exact hstops.ended

/-- What comes out of generating a simple graph, and when. -/
inductive SimpleOutcome (s : σ) : Except Failure (List Edge) × σ → Prop
  /-- More edges are wanted than there are pairs. -/
  | infeasible (h : g.availablePairs < g.edgeCount.toNat) :
    SimpleOutcome s
      (.error (.rejected (.tooFewPairs g.edgeCount.toNat g.availablePairs)), s)
  /-- The attempts come to an end with enough edges. -/
  | complete {n : ℕ} (h : g.edgeCount.toNat ≤ g.availablePairs)
    (le_budget : n ≤ attemptBudget g.edgeCount.toNat)
    (reached : distinctAfter (g.stream s) n = g.edgeCount.toNat)
    (short : ∀ m < n, distinctAfter (g.stream s) m < g.edgeCount.toNat) :
    SimpleOutcome s (.ok (simpleEdges ((g.stream s).take n)), skip (n * g.levels) s)
  /-- The attempts run out. -/
  | exhausted (h : g.edgeCount.toNat ≤ g.availablePairs)
    (short : distinctAfter (g.stream s) (attemptBudget g.edgeCount.toNat) < g.edgeCount.toNat) :
    SimpleOutcome s
      (.error (.exhausted (distinctAfter (g.stream s) (attemptBudget g.edgeCount.toNat))
        g.edgeCount.toNat (attemptBudget g.edgeCount.toNat)),
        skip (attemptBudget g.edgeCount.toNat * g.levels) s)

theorem simpleOutcome (s : σ) : g.SimpleOutcome s (g.generateSimple s) := by
  rw [generateSimple]
  by_cases hpairs : g.edgeCount.toNat > g.availablePairs
  · rw [if_pos hpairs]
    exact .infeasible hpairs
  · obtain ⟨n, hstops, hkept, hrest⟩ :=
      g.collect_eq g.edgeCount.toNat (attemptBudget g.edgeCount.toNat) s
        (t := 0) Kept.represents_empty (Nat.zero_le _)
    rw [Nat.zero_mul, skip_zero] at hkept hrest
    rw [Nat.zero_add] at hstops
    rw [if_neg hpairs]
    simp only
    rw [hrest, hkept.count_eq, hkept.toList_eq, ← distinctAfter]
    rcases hstops.ended with hreached | ⟨hshort, rfl⟩
    · rw [if_pos hreached]
      exact .complete (Nat.not_lt.mp hpairs) hstops.le_limit hreached
        fun m hm ↦ hstops.short m (Nat.zero_le m) hm
    · rw [if_neg hshort.ne]
      exact .exhausted (Nat.not_lt.mp hpairs) hshort

variable {g}

theorem exists_of_generateSimple_ok {s : σ} {edges : List Edge}
    (h : (g.generateSimple s).1 = .ok edges) :
    ∃ n, edges = simpleEdges ((g.stream s).take n)
      ∧ distinctAfter (g.stream s) n = g.edgeCount.toNat
      ∧ ∀ m < n, distinctAfter (g.stream s) m < g.edgeCount.toNat := by
  have houtcome := g.simpleOutcome s
  generalize g.generateSimple s = r at h houtcome
  cases houtcome with
  | infeasible _ => exact absurd h (by simp)
  | complete _ _ hreached hshort => exact ⟨_, (Except.ok.inj h).symm, hreached, hshort⟩
  | exhausted _ _ => exact absurd h (by simp)

theorem generateSimple_of_reached {s : σ} {n : ℕ} (hpairs : g.edgeCount.toNat ≤ g.availablePairs)
    (hbudget : n ≤ attemptBudget g.edgeCount.toNat)
    (hreached : distinctAfter (g.stream s) n = g.edgeCount.toNat)
    (hshort : ∀ m < n, distinctAfter (g.stream s) m < g.edgeCount.toNat) :
    g.generateSimple s = (.ok (simpleEdges ((g.stream s).take n)), skip (n * g.levels) s) := by
  have houtcome := g.simpleOutcome s
  generalize g.generateSimple s = r at houtcome
  cases houtcome with
  | infeasible h => exact absurd hpairs (Nat.not_le.mpr h)
  | @complete m _ _ hreached' hshort' =>
    -- There is only one first position with enough edges.
    have hmn : m = n := le_antisymm
      (Nat.not_lt.mp fun h ↦ (hshort' n h).ne hreached)
      (Nat.not_lt.mp fun h ↦ (hshort m h).ne hreached')
    rw [hmn]
  | exhausted _ h =>
    -- The number of distinct edges never goes down, so there are enough at the end of the budget.
    exact absurd (hreached.symm.le.trans (distinctAfter_mono _ hbudget)) (Nat.not_le.mpr h)

theorem simpleEdges_take_of_ok {s : σ} {edges : List Edge} (h : (g.generateSimple s).1 = .ok edges)
    {n : ℕ} (hn : g.edgeCount.toNat ≤ (simpleEdges ((g.stream s).take n)).length) :
    edges = (simpleEdges ((g.stream s).take n)).take g.edgeCount.toNat := by
  obtain ⟨m, rfl, hreached, hshort⟩ := exists_of_generateSimple_ok h
  rw [length_simpleEdges_take] at hn
  have hmn : m ≤ n := Nat.not_lt.mp fun hlt ↦ Nat.not_le.mpr (hshort n hlt) hn
  have hlength := length_simpleEdges_take (g.stream s) m
  rw [hreached] at hlength
  rw [← hlength]
  exact List.prefix_iff_eq_take.mp (simpleEdges_take_isPrefix _ hmn)

theorem eq_generate_iff_of_ok {s : σ} {edges : List Edge}
    (h : (g.generateSimple s).1 = .ok edges) :
    edges = (g.generate s).1
      ↔ (∀ e ∈ (g.stream s).take g.edgeCount.toNat, e.isLoop = false)
        ∧ ((g.stream s).take g.edgeCount.toNat).Nodup := by
  simp only [generate_eq]
  constructor
  · intro heq
    obtain ⟨m, hm, -, -⟩ := exists_of_generateSimple_ok h
    rw [← heq, hm]
    exact ⟨fun e he ↦ (mem_simpleEdges.mp he).2, nodup_simpleEdges _⟩
  · rintro ⟨hloop, hnodup⟩
    -- The first edges are distinct, so they are themselves a part that has enough of them.
    have hself := simpleEdges_eq_self hloop hnodup
    have hlength : (simpleEdges ((g.stream s).take g.edgeCount.toNat)).length
        = g.edgeCount.toNat := by
      rw [hself, Stream'.length_take]
    rw [simpleEdges_take_of_ok h hlength.ge, hself, List.take_of_length_le]
    rw [Stream'.length_take]

/-- **A simple graph is the beginning of its sequence without loops and repetitions.** Its edges are
all distinct edges of some first part of the sequence, and the first ones of every part that has
enough of them. They are the edges that would be generated anyway exactly if those have no loops and
repetitions to start with. -/
theorem generateSimple_eq_first_distinct (g : Generator) (s : σ) {edges : List Edge}
    (h : (g.generateSimple s).1 = .ok edges) :
    (∃ n, edges = simpleEdges ((g.stream s).take n))
      ∧ (∀ n, g.edgeCount.toNat ≤ (simpleEdges ((g.stream s).take n)).length →
        edges = (simpleEdges ((g.stream s).take n)).take g.edgeCount.toNat)
      ∧ edges.length = g.edgeCount.toNat
      ∧ (∀ e ∈ edges, e.isLoop = false)
      ∧ edges.Nodup
      ∧ (∀ e ∈ edges, e.src < g.nodeCount ∧ e.dst < g.nodeCount)
      ∧ (edges = (g.generate s).1
        ↔ (∀ e ∈ (g.stream s).take g.edgeCount.toNat, e.isLoop = false)
          ∧ ((g.stream s).take g.edgeCount.toNat).Nodup) := by
  obtain ⟨n, hn, hreached, -⟩ := exists_of_generateSimple_ok h
  refine ⟨⟨n, hn⟩, fun _ ↦ simpleEdges_take_of_ok h, ?_, ?_, ?_, ?_, eq_generate_iff_of_ok h⟩
  · rw [hn, length_simpleEdges_take, hreached]
  · exact fun e he ↦ (mem_simpleEdges.mp (hn ▸ he)).2
  · exact hn ▸ nodup_simpleEdges _
  · exact fun e he ↦ g.lt_nodeCount_of_mem_take (mem_simpleEdges.mp (hn ▸ he)).1

/-- The probabilities that choose all quadrants alike. -/
def evenly : Probabilities := ⟨0.25, 0.25, 0.25, 0.25⟩

/-- A generator of two edges between two vertices. -/
def twoEdges : Generator := ⟨⟨2, 2, 1, evenly, evenly.thresholds⟩, rfl, rfl⟩

/-- The values of a loop, an edge, the same edge again, and the edge back. -/
def loopAndRepetition : Replay := ⟨#[0.1, 0.3, 0.3, 0.6], 0, Nat.zero_lt_succ 3⟩

/-- Four attempts give two edges, which are not the first two. -/
theorem generateSimple_twoEdges :
    (twoEdges.generateSimple loopAndRepetition).1 = .ok [⟨0, 1⟩, ⟨1, 0⟩]
      ∧ ([⟨0, 1⟩, ⟨1, 0⟩] : List Edge).length = twoEdges.edgeCount.toNat
      ∧ [⟨0, 1⟩, ⟨1, 0⟩] ≠ (twoEdges.generate loopAndRepetition).1 := by
  have hok : (twoEdges.generateSimple loopAndRepetition).1 = .ok [⟨0, 1⟩, ⟨1, 0⟩] := by
    rw [generateSimple_of_reached (n := 4) (by decide) (by decide) (by decide) (by decide)]
    decide
  obtain ⟨-, -, hlength, -, -, -, hiff⟩ := generateSimple_eq_first_distinct _ _ hok
  exact ⟨hok, hlength, fun heq ↦ absurd (hiff.mp heq) (by decide)⟩

/-! ## Which outcome, after how many draws -/

theorem le_attemptBudget {edges : ℕ} (h : edges < UInt64.size) : edges ≤ attemptBudget edges := by
  rw [attemptBudget, attemptsPerEdge]
  omega

/-- **The outcome of generating a simple graph**, in terms of the distinct edges of the sequence.
More edges than pairs are turned down without a draw. Otherwise there are enough distinct edges
within the budget or not; if there are, the attempts end with the last one that is needed, even if
it is the last one allowed, and if not, the whole budget is spent. -/
theorem generateSimple_outcome (g : Generator) (s : σ) :
    let wanted := g.edgeCount.toNat
    let pairs := g.nodeCount.toNat * (g.nodeCount.toNat - 1)
    let budget := max (min (32 * wanted) (UInt64.size - 1)) 1024
    let distinct := distinctAfter (g.stream s)
    ((∃ fault, (g.generateSimple s).1 = .error (.rejected fault) ∧ fault.parameter = "nedges")
        ↔ pairs < wanted)
      ∧ (pairs < wanted → (g.generateSimple s).2 = s)
      ∧ (wanted ≤ pairs →
        ((∃ edges, (g.generateSimple s).1 = .ok edges) ↔ wanted ≤ distinct budget))
      ∧ (wanted ≤ pairs → wanted ≤ distinct budget →
        ∃ last ≤ budget, IsLeast {n | distinct n = wanted} last
          ∧ (g.generateSimple s).2 = skip (last * g.levels) s)
      ∧ (wanted ≤ pairs → distinct budget < wanted →
        g.generateSimple s
          = (.error (.exhausted (distinct budget) wanted budget), skip (budget * g.levels) s))
      ∧ wanted ≤ budget := by
  intro wanted pairs budget distinct
  have hbudget : wanted ≤ budget := le_attemptBudget g.edgeCount.toNat_lt
  have houtcome := g.simpleOutcome s
  generalize g.generateSimple s = r at houtcome ⊢
  cases houtcome with
  | infeasible h =>
    have hnot : ¬ wanted ≤ pairs := Nat.not_le.mpr h
    exact ⟨iff_of_true ⟨_, rfl, rfl⟩ h, fun _ ↦ rfl, fun h ↦ absurd h hnot,
      fun h ↦ absurd h hnot, fun h ↦ absurd h hnot, hbudget⟩
  | @complete n h hle hreached hshort =>
    have hnot : ¬ pairs < wanted := Nat.not_lt.mpr h
    have henough : wanted ≤ distinct budget := hreached.symm.le.trans (distinctAfter_mono _ hle)
    refine ⟨iff_of_false (fun ⟨_, hfault, _⟩ ↦ by cases hfault) hnot, fun h ↦ absurd h hnot,
      fun _ ↦ iff_of_true ⟨_, rfl⟩ henough, fun _ _ ↦ ⟨n, hle, ⟨hreached, fun m hm ↦ ?_⟩, rfl⟩,
      fun _ h ↦ absurd henough (Nat.not_le.mpr h), hbudget⟩
    exact Nat.not_lt.mp fun hlt ↦ (hshort m hlt).ne hm
  | exhausted h hshort =>
    have hnot : ¬ pairs < wanted := Nat.not_lt.mpr h
    have hfew : ¬ wanted ≤ distinct budget := Nat.not_le.mpr hshort
    exact ⟨iff_of_false (fun ⟨_, hfault, _⟩ ↦ by cases hfault) hnot, fun h ↦ absurd h hnot,
      fun _ ↦ iff_of_false (fun ⟨_, hok⟩ ↦ by cases hok) hfew, fun _ h ↦ absurd h hfew,
      fun _ _ ↦ rfl, hbudget⟩

end Generator

end RecursiveMatrix
