import Mathlib.Data.Stream.Init
import RecursiveMatrix.Proofs.Descent

/-!
# The unending sequence of edges

A source gives a generator one edge after another without end (`Generator.stream`). Everything that
is generated from one source is cut from the front of this sequence, and the source that is left
says how much was cut: every edge takes as many draws as the adjacency matrix has levels, so the
sequence from position `n` on is that of the source after `n * levels` draws (`drop_stream`).

The edges of a graph are the shortest cut (`generate_eq`). Taking them one by one makes no
difference, since the edges taken and the edges still to come are the same cut at every moment
(`EdgeStream.take_eq`).
-/

namespace RecursiveMatrix

open UniformSource

theorem toNat_sub_one_add_one {n : UInt64} (h : n ≠ 0) : (n - 1).toNat + 1 = n.toNat := by
  have hpos : 0 < n.toNat := Nat.pos_of_ne_zero fun h0 ↦ h (UInt64.toNat_inj.mp h0)
  have hle : (1 : UInt64) ≤ n := UInt64.le_iff_toNat_le.mpr hpos
  rw [UInt64.toNat_sub_of_le _ _ hle]
  exact Nat.sub_add_cancel hpos

universe u

variable {σ : Type u} [UniformSource σ]

namespace Generator

variable (g : Generator)

/-- The edges that a source gives, one after another without end. -/
def stream (s : σ) : Stream' Edge := Stream'.corec' g.place s

theorem place_snd (s : σ) : (g.place s).2 = skip g.levels s := by
  rw [place_eq]

theorem stream_eq_cons (s : σ) :
    g.stream s = Stream'.cons (g.place s).1 (g.stream (skip g.levels s)) := by
  rw [stream, Stream'.corec'_eq, place_snd, stream]

theorem head_stream (s : σ) : (g.stream s).head = (g.place s).1 := rfl

theorem tail_stream (s : σ) : (g.stream s).tail = g.stream (skip g.levels s) := by
  rw [stream_eq_cons, Stream'.tail_cons]

theorem drop_stream (n : ℕ) (s : σ) :
    (g.stream s).drop n = g.stream (skip (n * g.levels) s) := by
  induction n generalizing s with
  | zero => rw [Nat.zero_mul, skip_zero, Stream'.drop_zero]
  | succ n ih =>
    rw [Stream'.drop_succ, tail_stream, ih, ← skip_add, Nat.succ_mul, Nat.add_comm]

theorem get_stream (n : ℕ) (s : σ) :
    (g.stream s).get n = (g.place (skip (n * g.levels) s)).1 := by
  rw [← head_stream, ← drop_stream, Stream'.head_drop]

theorem take_succ_stream (n : ℕ) (s : σ) :
    (g.stream s).take (n + 1) = (g.place s).1 :: (g.stream (skip g.levels s)).take n := by
  rw [Stream'.take_succ, head_stream, tail_stream]

theorem lt_nodeCount_of_mem_take {e : Edge} {n : ℕ} {s : σ} (h : e ∈ (g.stream s).take n) :
    e.src < g.nodeCount ∧ e.dst < g.nodeCount := by
  induction n generalizing s with
  | zero => exact absurd h List.not_mem_nil
  | succ n ih =>
    rw [take_succ_stream, List.mem_cons] at h
    rcases h with rfl | h
    · exact place_lt_nodeCount
    · exact ih h

end Generator

/-! ## Taking edges one by one -/

namespace EdgeStream

/-- The source and the count that are left when `n` more edges have been taken. -/
def after (n : ℕ) (edges : EdgeStream σ) : EdgeStream σ :=
  { edges with
    source := skip (n * edges.generator.levels) edges.source
    remaining := edges.remaining - UInt64.ofNat n }

theorem after_zero (edges : EdgeStream σ) : edges.after 0 = edges := by
  simp [after]

theorem after_add (m n : ℕ) (edges : EdgeStream σ) :
    edges.after (m + n) = (edges.after m).after n := by
  have hsource : skip ((m + n) * edges.generator.levels) edges.source
      = skip (n * edges.generator.levels) (skip (m * edges.generator.levels) edges.source) := by
    rw [← skip_add, Nat.add_mul]
  have hremaining : edges.remaining - UInt64.ofNat (m + n)
      = edges.remaining - UInt64.ofNat m - UInt64.ofNat n := by
    rw [UInt64.ofNat_add]
    grind
  simp only [after, hsource, hremaining]

theorem toNat_remaining_after {n : ℕ} {edges : EdgeStream σ} (h : n ≤ edges.remaining.toNat) :
    (edges.after n).remaining.toNat = edges.remaining.toNat - n := by
  have hn : (UInt64.ofNat n).toNat = n :=
    UInt64.toNat_ofNat_of_lt' (Nat.lt_of_le_of_lt h edges.remaining.toNat_lt)
  rw [after, UInt64.toNat_sub_of_le _ _ (UInt64.le_iff_toNat_le.mpr (hn.symm ▸ h)), hn]

theorem source_after_one (edges : EdgeStream σ) :
    (edges.after 1).source = skip edges.generator.levels edges.source := by
  rw [after, Nat.one_mul]

theorem toNat_remaining_after_one {edges : EdgeStream σ} (h : edges.remaining ≠ 0) :
    (edges.after 1).remaining.toNat + 1 = edges.remaining.toNat := toNat_sub_one_add_one h

theorem next?_eq_none {edges : EdgeStream σ} (h : edges.remaining = 0) : edges.next? = none := by
  rw [next?, if_pos h]

theorem next?_eq_some {edges : EdgeStream σ} (h : edges.remaining ≠ 0) :
    edges.next? = some ((edges.generator.place edges.source).1, edges.after 1) := by
  simp only [next?, if_neg h, Generator.place_snd, after, Nat.one_mul]
  rfl

theorem takeOnto_eq (earlier : List Edge) (k : ℕ) (edges : EdgeStream σ) :
    takeOnto earlier k edges
      = (earlier.reverse
          ++ (edges.generator.stream edges.source).take (min k edges.remaining.toNat),
        edges.after (min k edges.remaining.toNat)) := by
  induction k generalizing earlier edges with
  | zero => rw [takeOnto, Nat.zero_min, after_zero, Stream'.take_zero, List.append_nil]
  | succ k ih =>
    by_cases h : edges.remaining = 0
    -- Nothing is left to take.
    · rw [takeOnto, next?_eq_none h, h, UInt64.toNat_zero, Nat.min_zero, after_zero,
        Stream'.take_zero, List.append_nil]
    -- An edge is taken, and `k` more of what remains after it.
    · have hmin : min (k + 1) edges.remaining.toNat
          = min k (edges.after 1).remaining.toNat + 1 := by
        rw [← toNat_remaining_after_one h]
        omega
      rw [takeOnto, next?_eq_some h]
      simp only
      rw [ih, hmin, Generator.take_succ_stream, source_after_one, Nat.add_comm, after_add,
        List.reverse_cons, List.append_assoc, List.singleton_append]
      rfl

/-- Taking edges one by one cuts the sequence of their source. -/
theorem take_eq (k : ℕ) (edges : EdgeStream σ) :
    edges.take k
      = ((edges.generator.stream edges.source).take (min k edges.remaining.toNat),
        edges.after (min k edges.remaining.toNat)) := by
  rw [take, takeOnto_eq, List.reverse_nil, List.nil_append]

theorem toList_eq (edges : EdgeStream σ) :
    edges.toList
      = ((edges.generator.stream edges.source).take edges.remaining.toNat,
        skip (edges.remaining.toNat * edges.generator.levels) edges.source) := by
  simp only [toList, take_eq, Nat.min_self, after]

end EdgeStream

/-- The edges of a graph are the first ones of their source. -/
theorem Generator.generate_eq (g : Generator) (s : σ) :
    g.generate s
      = ((g.stream s).take g.edgeCount.toNat, skip (g.edgeCount.toNat * g.levels) s) := by
  rw [generate, edges, firstEdges, EdgeStream.toList_eq]

end RecursiveMatrix
