import Mathlib.Data.List.ReduceOption
import RecursiveMatrix.Proofs.EdgeSequence

/-!
# Interrupted graphs

The edges of a graph can be asked for one by one (`EdgeStream.ask`), and whoever asks can stop at
any time. What was given until then is the beginning of the graph, and the source is left where the
rest of the graph begins, so another generator can go on from there
(`Generator.edges_asked_one_by_one`).

Three things move in step with the calls: the edges given, the number of edges to come, and the
place of the source. One equation holds them together (`EdgeStream.askAll_eq`): as long as edges are
left each call takes one of them, and from then on calls change nothing.
-/

namespace RecursiveMatrix

-- Powers are those of `Nat.pow`, whatever other instances are in scope.
attribute [local instance (high)] instPowNat

open UniformSource

universe u

variable {σ : Type u} [UniformSource σ]

namespace EdgeStream

/-! ## Calls -/

/-- A call for an edge: what it gives, and the edges that are left. -/
def ask (edges : EdgeStream σ) : Option Edge × EdgeStream σ :=
  match edges.next? with
  | none => (none, edges)
  | some (e, rest) => (some e, rest)

/-- What `k` calls give, one after another, and the edges that are left. -/
def askAll : (k : ℕ) → EdgeStream σ → List (Option Edge) × EdgeStream σ
  | 0, edges => ([], edges)
  | k + 1, edges =>
    let asked := edges.ask
    let others := askAll k asked.2
    (asked.1 :: others.1, others.2)

variable {edges : EdgeStream σ}

theorem ask_of_none_left (h : edges.remaining = 0) : edges.ask = (none, edges) := by
  rw [ask, next?_eq_none h]

theorem ask_of_some_left (h : edges.remaining ≠ 0) :
    edges.ask = (some (edges.generator.place edges.source).1, edges.after 1) := by
  rw [ask, next?_eq_some h]

theorem askAll_of_none_left (k : ℕ) (h : edges.remaining = 0) :
    edges.askAll k = (List.replicate k none, edges) := by
  induction k with
  | zero => rfl
  | succ k ih => rw [askAll, ask_of_none_left h, ih, List.replicate_succ]

/-- **Calls give the edges that are left, and then nothing.** -/
theorem askAll_eq (k : ℕ) (edges : EdgeStream σ) :
    edges.askAll k
      = (((edges.generator.stream edges.source).take (min k edges.remaining.toNat)).map some
          ++ List.replicate (k - edges.remaining.toNat) none,
        edges.after (min k edges.remaining.toNat)) := by
  induction k generalizing edges with
  | zero =>
    rw [askAll, Nat.zero_min, Nat.zero_sub, after_zero, Stream'.take_zero]
    rfl
  | succ k ih =>
    by_cases h : edges.remaining = 0
    · rw [askAll_of_none_left (k + 1) h, h, UInt64.toNat_zero, Nat.min_zero, Nat.sub_zero,
        after_zero, Stream'.take_zero, List.map_nil, List.nil_append]
    · -- The first call takes an edge, and `k` calls are left for the edges after it.
      have hleft := toNat_remaining_after_one h
      have hmin : min (k + 1) edges.remaining.toNat
          = min k (edges.after 1).remaining.toNat + 1 := by omega
      have hsub : k + 1 - edges.remaining.toNat = k - (edges.after 1).remaining.toNat := by omega
      rw [askAll, ask_of_some_left h]
      simp only
      rw [ih, hmin, hsub, Generator.take_succ_stream, source_after_one, List.map_cons,
        List.cons_append, Nat.add_comm, after_add]
      rfl

theorem reduceOption_askAll (k : ℕ) (edges : EdgeStream σ) :
    (edges.askAll k).1.reduceOption
      = (edges.generator.stream edges.source).take (min k edges.remaining.toNat) := by
  rw [askAll_eq, List.reduceOption_append, List.reduceOption_replicate_none, List.append_nil]
  rw [List.reduceOption, List.filterMap_map]
  exact List.filterMap_some

end EdgeStream

namespace Generator

/-! ## Generators of the same edges -/

/-- The generator that places the same edges for a graph with another number of them. -/
def withEdgeCount (g : Generator) (edgeCount : UInt64) : Generator :=
  ⟨{ g.record with edgeCount }, g.coherent.nodeCount_eq, g.coherent.thresholds_eq⟩

variable {g : Generator}

theorem ofCounts_eq_ok (g : Generator) (edgeCount : UInt64) :
    ofCounts g.nodeCount edgeCount g.probabilities = .ok (g.withEdgeCount edgeCount) :=
  (g.withEdgeCount edgeCount).ofCounts_self

theorem stream_withEdgeCount (edgeCount : UInt64) (s : σ) :
    (g.withEdgeCount edgeCount).stream s = g.stream s := rfl

/-- A generator of the edges that are missing goes on where the first ones have left the source. -/
theorem take_append_generate_withEdgeCount {k : ℕ} {missing : UInt64} (s : σ)
    (h : k + missing.toNat = g.edgeCount.toNat) :
    (g.stream s).take k ++ ((g.withEdgeCount missing).generate (skip (k * g.levels) s)).1
        = (g.generate s).1
      ∧ ((g.withEdgeCount missing).generate (skip (k * g.levels) s)).2 = (g.generate s).2 := by
  rw [generate_eq, generate_eq, stream_withEdgeCount, ← h]
  constructor
  · rw [Stream'.take_add, drop_stream]
    rfl
  · rw [Nat.add_mul, skip_add]
    rfl

/-- **Edges asked for one by one are the edges of the graph.** After `k` calls the first `k` edges
have been given, or all of them if they are fewer, in the order in which they are generated at once;
calls beyond that give nothing and leave the source alone. Both bounds on the number of edges to
come are that number at any time. A generator of the missing edges, with the same vertices and
probabilities, takes the source that is left and completes the graph. -/
theorem edges_asked_one_by_one (g : Generator) (s : σ) (k : ℕ) :
    let total := g.edgeCount.toNat
    let given := min k total
    let asked := (g.edges s).askAll k
    asked.1 = ((g.generate s).1.take given).map some ++ List.replicate (k - total) none
      ∧ asked.1.reduceOption = (g.generate s).1.take given
      ∧ asked.1.reduceOption.length = given
      ∧ asked.2.source = skip (given * g.levels) s
      ∧ asked.2.sizeHint.1.toNat = total - given
      ∧ asked.2.sizeHint.2 = some asked.2.sizeHint.1
      ∧ asked.2.toList.1.length = total - given
      ∧ (asked.2.sizeHint.1 = 0 →
        ∀ more, asked.2.askAll more = (List.replicate more none, asked.2))
      ∧ ∀ missing : UInt64, k + missing.toNat = total →
        ∃ rest, ofCounts g.nodeCount missing g.probabilities = .ok rest
          ∧ asked.1.reduceOption ++ (rest.generate asked.2.source).1 = (g.generate s).1
          ∧ (rest.generate asked.2.source).2 = (g.generate s).2 := by
  intro total given asked
  have hgiven : given ≤ total := Nat.min_le_right k total
  have hasked : asked = (((g.stream s).take given).map some ++ List.replicate (k - total) none,
      (g.edges s).after given) := (g.edges s).askAll_eq k
  have hfirst : (g.generate s).1.take given = (g.stream s).take given := by
    rw [generate_eq, Stream'.take_take, Nat.min_eq_right hgiven]
  have hedges : asked.1.reduceOption = (g.stream s).take given :=
    (g.edges s).reduceOption_askAll k
  have hleft : ((g.edges s).after given).remaining.toNat = total - given :=
    EdgeStream.toNat_remaining_after hgiven
  rw [hedges, hfirst, hasked]
  refine ⟨rfl, rfl, Stream'.length_take _ _, rfl, hleft, rfl, ?_, ?_, ?_⟩
  · rw [EdgeStream.length_toList, hleft]
  · exact fun h more ↦ EdgeStream.askAll_of_none_left more h
  · intro missing hmissing
    have hall : given = k := Nat.min_eq_left ((Nat.le_add_right k _).trans_eq hmissing)
    rw [hall]
    exact ⟨_, g.ofCounts_eq_ok missing, take_append_generate_withEdgeCount s hmissing⟩

end Generator

end RecursiveMatrix
