import Mathlib.Data.Nat.Periodic
import RecursiveMatrix.Proofs.SourceUse

/-!
# Edges of repeating values

A list of values that is replayed starts over at its end, so its values repeat after as many draws
as there are values. Edges take their draws in blocks, one block for each edge, and so they repeat
as soon as some number of blocks is a multiple of the list (`Generator.periodic_stream`). With `m`
values and `levels` draws for an edge this is the case after `m / gcd m levels` edges.

Nothing new comes after the first period. That bounds what can be collected for a simple graph,
however many attempts there are (`distinctAfter_le_of_periodic`): if more distinct edges are asked
for than the first period holds, the attempts run out (`Generator.replayed_edges_repeat`).
-/

namespace RecursiveMatrix

open UniformSource

universe u

/-! ## Sequences that repeat -/

theorem mem_take_iff {α : Type u} {xs : Stream' α} {n : ℕ} {x : α} :
    x ∈ xs.take n ↔ ∃ i < n, xs.get i = x := by
  rw [List.mem_iff_getElem?]
  constructor
  · rintro ⟨i, hi⟩
    have hlt : i < n := by
      obtain ⟨hlt, -⟩ := List.getElem?_eq_some_iff.mp hi
      rwa [Stream'.length_take] at hlt
    rw [Stream'.getElem?_take hlt] at hi
    exact ⟨i, hlt, Option.some.inj hi⟩
  · rintro ⟨i, hlt, rfl⟩
    exact ⟨i, Stream'.getElem?_take hlt⟩

/-- All distinct edges of a sequence that repeats are in its first period. -/
theorem distinctAfter_le_of_periodic {edges : Stream' Edge} {period : ℕ} (hpos : 0 < period)
    (h : Function.Periodic edges.get period) (n : ℕ) :
    distinctAfter edges n ≤ distinctAfter edges period := by
  rw [distinctAfter, distinctCount, distinctAfter, distinctCount]
  apply Finset.card_le_card
  apply Finset.filter_subset_filter
  intro e he
  obtain ⟨i, -, rfl⟩ := mem_take_iff.mp (List.mem_toFinset.mp he)
  rw [List.mem_toFinset, mem_take_iff]
  exact ⟨i % period, Nat.mod_lt i hpos, h.map_mod_nat i⟩

/-! ## Sources that repeat -/

namespace Replay

variable {values : List Float} {r : Replay}

theorem eq_of_ofList_eq_ok (h : ofList values = .ok r) :
    r.values = values.toArray ∧ r.position = 0 := by
  rw [ofList] at h
  split_ifs at h
  split at h
  · cases h
  · obtain rfl := Except.ok.inj h
    exact ⟨rfl, rfl⟩

/-- A replay never looks outside of its values. -/
theorem getElem?_values (r : Replay) (n : ℕ) :
    r.values[(r.position + n) % r.values.size]? = some (value r n) := by
  rw [value, skip_eq]
  exact Array.getElem?_eq_getElem (Nat.mod_lt _ r.size_pos)

theorem periodic_value (r : Replay) : Function.Periodic (value r) r.values.size := by
  intro n
  apply Option.some.inj
  rw [← getElem?_values, ← getElem?_values, ← Nat.add_assoc, Nat.add_mod_right]

theorem getElem?_of_ofList_eq_ok (h : ofList values = .ok r) (n : ℕ) :
    values[n % values.length]? = some (value r n) := by
  obtain ⟨hvalues, hposition⟩ := eq_of_ofList_eq_ok h
  have hvalue := getElem?_values r n
  rwa [hposition, Nat.zero_add, hvalues, List.size_toArray, List.getElem?_toArray] at hvalue

end Replay

namespace Generator

section Periodic

variable {σ : Type u} [UniformSource σ] {g : Generator} {s : σ} {m : ℕ}

/-- **Edges repeat when a number of them has used up the values a number of times.** -/
theorem periodic_stream (h : Function.Periodic (value s) m) :
    Function.Periodic (g.stream s).get (m / m.gcd g.levels) := by
  have hdraws : m / m.gcd g.levels * g.levels = g.levels / m.gcd g.levels * m := by
    rw [Nat.div_mul_right_comm (Nat.gcd_dvd_left m g.levels), Nat.mul_comm m,
      Nat.div_mul_right_comm (Nat.gcd_dvd_right m g.levels)]
  intro k
  rw [get_stream, get_stream]
  apply g.place_congr
  intro i _
  rw [value_skip, value_skip, Nat.add_mul, hdraws, Nat.add_right_comm]
  exact h.nat_mul _ _

theorem exists_exhausted_of_distinctAfter_le {n : ℕ}
    (hpairs : g.edgeCount.toNat ≤ g.availablePairs)
    (hdistinct : ∀ t, distinctAfter (g.stream s) t ≤ n) (hn : n < g.edgeCount.toNat) :
    ∃ accepted ≤ n, (g.generateSimple s).1
      = .error (.exhausted accepted g.edgeCount.toNat (attemptBudget g.edgeCount.toNat)) := by
  have houtcome := g.simpleOutcome s
  generalize g.generateSimple s = result at houtcome ⊢
  cases houtcome with
  | infeasible h => exact absurd hpairs (Nat.not_le.mpr h)
  | complete _ _ hreached => exact absurd (hreached.symm.trans_le (hdistinct _)) (Nat.not_le.mpr hn)
  | exhausted _ _ => exact ⟨_, hdistinct _, rfl⟩

end Periodic

/-- **Edges from replayed values repeat.** Draw `n` gives the value at position `n` modulo the
number of values, which is always one of them, and an edge is placed from the values that its draws
give. After `m / gcd m levels` edges the same ones come again. So more distinct edges than this
period has are never collected: the attempts run out with no more than that. -/
theorem replayed_edges_repeat (g : Generator) {values : List Float} {r : Replay}
    (h : Replay.ofList values = .ok r) :
    let m := values.length
    let period := m / m.gcd g.levels
    let edges := (g.generate r).1
    let distinct := distinctCount ((g.stream r).take period)
    0 < period
      ∧ (∀ n, values[n % m]? = some (value r n))
      ∧ (∀ k < g.edgeCount.toNat, ∀ draws : Stream' Float,
        (∀ i < g.levels, values[(k * g.levels + i) % m]? = some (draws.get i)) →
          edges[k]? = some (g.place draws).1)
      ∧ (∀ k, k + period < g.edgeCount.toNat → edges[k + period]? = edges[k]?)
      ∧ (g.edgeCount.toNat ≤ g.availablePairs → distinct < g.edgeCount.toNat →
        ∃ accepted ≤ distinct, (g.generateSimple r).1
          = .error (.exhausted accepted g.edgeCount.toNat (attemptBudget g.edgeCount.toNat))) := by
  intro m period edges distinct
  have hm : r.values.size = m := by rw [(Replay.eq_of_ofList_eq_ok h).1, List.size_toArray]
  have hmpos : 0 < m := hm ▸ r.size_pos
  have hpos : 0 < period :=
    Nat.div_pos (Nat.gcd_le_left g.levels hmpos) (Nat.gcd_pos_of_pos_left g.levels hmpos)
  have hperiod : Function.Periodic (g.stream r).get period :=
    periodic_stream (hm ▸ r.periodic_value)
  have hget {k : ℕ} (hk : k < g.edgeCount.toNat) : edges[k]? = some ((g.stream r).get k) := by
    simp only [edges, generate_eq]
    exact Stream'.getElem?_take hk
  have hvalues := Replay.getElem?_of_ofList_eq_ok h
  refine ⟨hpos, hvalues, ?_, ?_, ?_⟩
  · intro k hk draws hdraws
    rw [hget hk, get_stream]
    congr 1
    apply g.place_congr
    intro i hi
    rw [value_skip, value_stream]
    exact Option.some.inj ((hvalues _).symm.trans (hdraws i hi))
  · intro k hk
    rw [hget hk, hget (Nat.lt_of_le_of_lt (Nat.le_add_right k period) hk), hperiod]
  · intro hpairs hdistinct
    have hbound := distinctAfter_le_of_periodic hpos hperiod
    exact exists_exhausted_of_distinctAfter_le hpairs hbound hdistinct

/-- A generator of five edges between four vertices. -/
def fiveEdges : Generator := ⟨⟨4, 5, 2, evenly, evenly.thresholds⟩, rfl, rfl⟩

/-- Three values make three edges of two draws each, one of them a loop. -/
theorem replayed_edges_repeat_for_threeValues :
    ∃ r, Replay.ofList [0.1, 0.3, 0.8] = .ok r
      ∧ (fiveEdges.generate r).1[1 + 3]? = (fiveEdges.generate r).1[1]?
      ∧ ∃ accepted ≤ 2, (fiveEdges.generateSimple r).1 = .error (.exhausted accepted 5 1024) := by
  have hr : Replay.ofList [0.1, 0.3, 0.8] = .ok ⟨#[0.1, 0.3, 0.8], 0, Nat.zero_lt_succ 2⟩ := rfl
  obtain ⟨-, -, -, hrepeat, hexhausted⟩ := replayed_edges_repeat fiveEdges hr
  exact ⟨_, hr, hrepeat 1 (by decide), hexhausted (by decide) (by decide)⟩

end Generator

end RecursiveMatrix
