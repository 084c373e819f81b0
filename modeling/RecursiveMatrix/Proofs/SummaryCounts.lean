import Mathlib.Data.Fintype.Fin
import Mathlib.Order.Lattice.Nat
import RecursiveMatrix.Proofs.Components
import RecursiveMatrix.Proofs.SummaryLimits

/-!
# What a summary counts

The numbers of a summary are counts of positions in the list of edges (`positions`): how many hold a
loop, and how many leave or enter a vertex. Repeated edges stand at several positions, and a loop
both leaves and enters its vertex.

## Two ways to a degree

The largest degree is found in one pass over the edges, which keeps a tally of every vertex met so
far and the largest of them. That pass has a bound for a result exactly if the bound holds for every
vertex (`maxMultiplicity_le_iff`), and this equivalence is kept by every step.

A built graph has its degrees as well. All that is asked of its builder is that an edge counts once
at either end (`GraphBuilder.ListsEdges`); by induction over the edges the degrees are the same
counts, and so are their maxima (`Summary.counts_exactly`).
-/

namespace RecursiveMatrix

-- Powers are those of `Nat.pow`, whatever other instances are in scope.
attribute [local instance (high)] instPowNat

universe u

/-! ## Positions -/

/-- The positions of a list at which the edges have a property. -/
def positions (edges : List Edge) (p : Edge → Prop) [DecidablePred p] : Finset (Fin edges.length) :=
  Finset.univ.filter fun i ↦ p edges[i]

theorem card_positions (edges : List Edge) (p : Edge → Prop) [DecidablePred p] :
    (positions edges p).card = edges.countP fun e ↦ p e := by
  induction edges with
  | nil => rfl
  | cons e edges ih =>
    have hfirst : (positions (e :: edges) p).card
        = if p e then (positions edges p).card + 1 else (positions edges p).card :=
      Fin.card_filter_univ_succ _
    rw [hfirst, List.countP_cons, ih]
    simp only [decide_eq_true_eq]
    split_ifs <;> rfl

/-! ## Distinct edges -/

theorem size_ofList_eq_card (edges : List Edge) :
    (Std.HashSet.ofList edges).size = edges.toFinset.card := by
  have hnodup : (Std.HashSet.ofList edges).toList.Nodup := by
    simpa [List.Nodup] using (Std.HashSet.ofList edges).distinct_toList
  rw [← Std.HashSet.length_toList, ← List.toFinset_card_of_nodup hnodup]
  congr 1
  ext e
  simp

theorem card_toFinset_eq_length_iff {edges : List Edge} :
    edges.toFinset.card = edges.length ↔ edges.Nodup := by
  rw [List.card_toFinset, ← List.dedup_eq_self]
  exact ⟨(List.dedup_sublist edges).eq_of_length, congrArg List.length⟩

/-! ## The largest tally -/

/-- Counts one more occurrence of a vertex, and keeps the largest count. -/
def tally (acc : Std.HashMap Vertex ℕ × ℕ) (v : Vertex) : Std.HashMap Vertex ℕ × ℕ :=
  (acc.1.insert v (acc.1.getD v 0 + 1), max acc.2 (acc.1.getD v 0 + 1))

/-- The tallies are those of the vertices met so far. -/
structure Tallies (acc : Std.HashMap Vertex ℕ × ℕ) (vertices : List Vertex) : Prop where
  /-- Every vertex is counted. -/
  count_eq : ∀ v, acc.1.getD v 0 = vertices.count v
  /-- The largest count is the least bound of them all. -/
  le_iff : ∀ n, acc.2 ≤ n ↔ ∀ v, vertices.count v ≤ n

namespace Tallies

variable {acc : Std.HashMap Vertex ℕ × ℕ} {vertices : List Vertex}

theorem empty : Tallies (∅, 0) [] := ⟨fun v ↦ by simp, fun n ↦ by simp⟩

/-- **The step.** Only the count of the vertex that is met changes. -/
theorem step (h : Tallies acc vertices) (v : Vertex) :
    Tallies (tally acc v) (vertices ++ [v]) where
  count_eq w := by
    rw [tally, Std.HashMap.getD_insert, h.count_eq, h.count_eq, List.count_append,
      List.count_singleton]
    by_cases hw : v = w
    · simp [hw]
    · simp [hw]
  le_iff n := by
    rw [tally, h.count_eq, max_le_iff, h.le_iff]
    simp only [List.count_append, List.count_singleton]
    constructor
    · rintro ⟨hbefore, hmet⟩ w
      by_cases hw : v = w
      · simpa [hw] using hw ▸ hmet
      · simpa [hw] using hbefore w
    · intro hafter
      have hmet := hafter v
      rw [beq_self_eq_true, if_pos rfl] at hmet
      exact ⟨fun w ↦ (Nat.le_add_right _ _).trans (hafter w), hmet⟩

end Tallies

/-- **The run.** The pass over the vertices leaves their tallies. -/
theorem tallies_foldl (vertices : List Vertex) :
    Tallies (vertices.foldl tally (∅, 0)) vertices := by
  induction vertices using List.reverseRecOn with
  | nil => exact .empty
  | append_singleton vertices v ih =>
    rw [List.foldl_append]
    exact ih.step v

theorem maxMultiplicity_le_iff {vertices : List Vertex} {n : ℕ} :
    maxMultiplicity vertices ≤ n ↔ ∀ v, vertices.count v ≤ n := (tallies_foldl vertices).le_iff n

/-! ## Degrees -/

/-- The vertex at an end of an edge. -/
def Edge.endpoint : EdgeEnd → Edge → Vertex
  | .source, e => e.src
  | .target, e => e.dst

/-- How many edges have a vertex at the given end. -/
def degreeAt (place : EdgeEnd) (edges : List Edge) (v : ℕ) : ℕ :=
  (positions edges fun e ↦ (e.endpoint place).toNat = v).card

theorem count_map_endpoint (place : EdgeEnd) (edges : List Edge) (v : Vertex) :
    (edges.map (Edge.endpoint place)).count v = degreeAt place edges v.toNat := by
  rw [degreeAt, card_positions, List.count_eq_countP, List.countP_map]
  refine List.countP_congr fun e _ ↦ ?_
  simp [UInt64.toNat_inj]

/-- Vertices past the last one have no edges, so that it does not matter whether they are looked
at. -/
theorem maxMultiplicity_eq_sup {nodes : ℕ} {edges : List Edge} (place : EdgeEnd)
    (hnodes : nodes ≤ UInt64.size) (hedges : ∀ e ∈ edges, (e.endpoint place).toNat < nodes) :
    maxMultiplicity (edges.map (Edge.endpoint place))
      = (Finset.range nodes).sup (degreeAt place edges) := by
  refine eq_of_forall_ge_iff fun n ↦ ?_
  rw [maxMultiplicity_le_iff, Finset.sup_le_iff]
  simp only [count_map_endpoint, Finset.mem_range]
  constructor
  · intro hall v hv
    rw [← UInt64.toNat_ofNat_of_lt' (hv.trans_le hnodes)]
    exact hall _
  · intro hinside v
    rcases Nat.lt_or_ge v.toNat nodes with hv | hv
    · exact hinside _ hv
    · have hnone : degreeAt place edges v.toNat = 0 := by
        rw [degreeAt, card_positions, List.countP_eq_zero]
        intro e he
        have hlt := hedges e he
        simp only [decide_eq_true_eq]
        omega
      exact hnone ▸ Nat.zero_le n

/-! ## Degrees of a built graph -/

namespace GraphBuilder

variable {γ : Type u}

/-- The builder lists the edges at both ends of each: an edge counts once at its source and once at
its target, and a vertex comes without edges. -/
structure ListsEdges (b : GraphBuilder γ) (degree : EdgeEnd → γ → ℕ → ℕ) : Prop where
  degree_empty : ∀ place v, degree place b.empty v = 0
  degree_of_addVertex? : ∀ g g', b.addVertex? g = some g' → ∀ place v,
    degree place g' v = degree place g v
  degree_of_addEdge? : ∀ g e g', b.addEdge? g e = some g' → ∀ place v,
    degree place g' v = degree place g v + if (e.endpoint place).toNat = v then 1 else 0

variable {b : GraphBuilder γ} {degree : EdgeEnd → γ → ℕ → ℕ}

theorem degree_of_addVertices? (hd : b.ListsEdges degree) {n : ℕ} {g g' : γ}
    (h : b.addVertices? n g = some g') (place : EdgeEnd) (v : ℕ) :
    degree place g' v = degree place g v := by
  induction n generalizing g with
  | zero => exact Option.some.inj h ▸ rfl
  | succ n ih =>
    obtain ⟨g₁, hfirst, hrest⟩ := Option.bind_eq_some_iff.mp h
    rw [ih hrest, hd.degree_of_addVertex? g g₁ hfirst]

theorem vertices_of_addEdges? (hb : b.IsIndexed) {edges : List Edge} {g g' : γ}
    (h : b.addEdges? g edges = some g') : b.vertices g' = b.vertices g := by
  induction edges generalizing g with
  | nil => exact Option.some.inj h ▸ rfl
  | cons e edges ih =>
    obtain ⟨g₁, hfirst, hrest⟩ := Option.bind_eq_some_iff.mp h
    obtain ⟨hsame, -⟩ := hb.counts_of_addEdge? g e g₁ hfirst
    rw [ih hrest, hsame]

/-- What every edge with a property adds one to is, after all edges, larger by their number. -/
theorem eq_add_countP_of_addEdges? {f : γ → ℕ} {p : Edge → Bool}
    (hstep : ∀ g e g', b.addEdge? g e = some g' → f g' = f g + if p e then 1 else 0)
    {edges : List Edge} {g g' : γ} (h : b.addEdges? g edges = some g') :
    f g' = f g + edges.countP p := by
  induction edges generalizing g with
  | nil => exact Option.some.inj h ▸ rfl
  | cons e edges ih =>
    obtain ⟨g₁, hfirst, hrest⟩ := Option.bind_eq_some_iff.mp h
    rw [ih hrest, hstep g e g₁ hfirst, List.countP_cons]
    omega

/-- **A built graph has the degrees of its edges.** -/
theorem exists_build? (hb : b.IsIndexed) (hd : b.ListsEdges degree) {nodes : ℕ} {edges : List Edge}
    (hnodes : nodes ≤ indexLimit) (hwithin : ∀ e ∈ edges, e.within nodes = true)
    (hedges : edges.length ≤ indexLimit) :
    ∃ g, b.build? nodes edges = some g ∧ b.vertices g = nodes
      ∧ ∀ place v, degree place g v = degreeAt place edges v := by
  obtain ⟨g, hg⟩ := Option.ne_none_iff_exists'.mp
    (mt (build?_eq_none_iff hb hnodes hwithin).mp (Nat.not_lt.mpr hedges))
  obtain ⟨g₀, hvertices, hrest⟩ := Option.bind_eq_some_iff.mp hg
  refine ⟨g, hg, ?_, fun place v ↦ ?_⟩
  · have hroom : b.vertices b.empty + nodes ≤ indexLimit := by
      rwa [hb.vertices_empty, Nat.zero_add]
    obtain ⟨g₁, hg₁, hcount, -⟩ := exists_addVertices? hb hroom
    obtain rfl : g₁ = g₀ := Option.some.inj (hg₁.symm.trans hvertices)
    rw [vertices_of_addEdges? hb hrest, hcount, hb.vertices_empty, Nat.zero_add]
  · have hstep (h : γ) (e : Edge) (h' : γ) (hadd : b.addEdge? h e = some h') :
        degree place h' v
          = degree place h v + if decide ((e.endpoint place).toNat = v) then 1 else 0 := by
      simpa using hd.degree_of_addEdge? h e h' hadd place v
    rw [eq_add_countP_of_addEdges? hstep hrest, degree_of_addVertices? hd hvertices,
      hd.degree_empty, Nat.zero_add, degreeAt, card_positions]

/-- The degrees in a list of edges that is kept as it is. -/
def listingDegree (place : EdgeEnd) (g : ℕ × List Edge) (v : ℕ) : ℕ :=
  g.2.countP fun e ↦ (e.endpoint place).toNat = v

theorem listing_listsEdges : listing.ListsEdges listingDegree where
  degree_empty place v := rfl
  degree_of_addVertex? g g' h place v := by
    obtain ⟨-, rfl⟩ : _ ∧ (g.1 + 1, g.2) = g' := by simpa [listing] using h
    rfl
  degree_of_addEdge? g e g' h place v := by
    obtain ⟨-, rfl⟩ : _ ∧ (g.1, e :: g.2) = g' := by simpa [listing] using h
    simp [listingDegree, List.countP_cons]

end GraphBuilder

/-! ## The summary -/

namespace Summary

/-- **A summary counts exactly.** There are as many edges as positions, as many loops as positions
of a loop, and as many distinct edges as elements of the set of edges, which is all of them exactly
if none is repeated. The largest degrees are the largest numbers of positions at which one vertex is
the source or the target, and zero where there is no vertex or no edge. They are also the largest
degrees of the graph that is built, by any builder that lists an edge at both of its ends; as long
as the edges can be numbered there is such a graph. -/
theorem counts_exactly {nodes : ℕ} {edges : List Edge} (hnodes : nodes < 2 ^ 32 - 1)
    (hedges : ∀ e ∈ edges, e.src.toNat < nodes ∧ e.dst.toNat < nodes) :
    ∃ summary, ofEdges nodes edges = .ok summary
      ∧ summary.edges = edges.length
      ∧ summary.selfLoops = (positions edges fun e ↦ e.src = e.dst).card
      ∧ summary.distinctEdges = edges.toFinset.card
      ∧ (summary.distinctEdges = summary.edges ↔ edges.Nodup)
      ∧ summary.maxOutDegree
        = (Finset.range nodes).sup (fun v ↦ (positions edges fun e ↦ e.src.toNat = v).card)
      ∧ summary.maxInDegree
        = (Finset.range nodes).sup (fun v ↦ (positions edges fun e ↦ e.dst.toNat = v).card)
      ∧ (nodes = 0 ∨ edges = [] → summary.maxOutDegree = 0 ∧ summary.maxInDegree = 0)
      ∧ (edges.length ≤ 2 ^ 32 - 1 → ∀ {γ : Type u} (b : GraphBuilder γ)
        (degree : EdgeEnd → γ → ℕ → ℕ), b.IsIndexed → b.ListsEdges degree →
          ∃ g, b.build? nodes edges = some g
            ∧ summary.maxOutDegree = (Finset.range (b.vertices g)).sup (degree .source g)
            ∧ summary.maxInDegree = (Finset.range (b.vertices g)).sup (degree .target g)) := by
  have hwithin : ∀ e ∈ edges, e.within nodes = true := fun e he ↦ Edge.within_iff.mpr (hedges e he)
  have hsize : nodes ≤ UInt64.size := hnodes.le.trans (by decide)
  have hout := maxMultiplicity_eq_sup .source hsize fun e he ↦ (hedges e he).1
  have hin := maxMultiplicity_eq_sup .target hsize fun e he ↦ (hedges e he).2
  have hnone : nodes = 0 ∨ edges = [] → ∀ place,
      (Finset.range nodes).sup (degreeAt place edges) = 0 := by
    rintro (rfl | rfl) place
    · rfl
    · exact Finset.sup_eq_zero.mpr fun v _ ↦ rfl
  refine ⟨_, ofEdges_eq_ok_iff.mpr ⟨hnodes, hwithin, rfl⟩, rfl, ?_, size_ofList_eq_card edges, ?_,
    hout, hin, fun h ↦ ⟨hout.trans (hnone h _), hin.trans (hnone h _)⟩, ?_⟩
  · rw [card_positions]
    exact List.countP_congr fun e _ ↦ by simp [Edge.isLoop]
  · simp only [size_ofList_eq_card, card_toFinset_eq_length_iff]
  · intro hlength γ b degree hb hd
    obtain ⟨g, hg, hvertices, hdegree⟩ :=
      GraphBuilder.exists_build? hb hd hnodes.le hwithin hlength
    have hsame (place : EdgeEnd) : degree place g = degreeAt place edges := funext (hdegree place)
    refine ⟨g, hg, ?_, ?_⟩
    · rw [hvertices, hsame]
      exact hout
    · rw [hvertices, hsame]
      exact hin

/-- The first of five vertices sends three edges, two of which are alike; the second receives three,
one of which is a loop. -/
theorem counts_exactly_for_loopAndIslands :
    (∀ e ∈ loopAndIslands, e.src.toNat < 5 ∧ e.dst.toNat < 5)
      ∧ ∃ summary g, ofEdges 5 loopAndIslands = .ok summary
        ∧ GraphBuilder.listing.build? 5 loopAndIslands = some g
        ∧ summary.edges = 5 ∧ summary.selfLoops = 1 ∧ summary.distinctEdges = 4
        ∧ summary.maxOutDegree = 3 ∧ summary.maxInDegree = 3
        ∧ (Finset.range (GraphBuilder.listing.vertices g)).sup
          (GraphBuilder.listingDegree .source g) = 3 := by
  have hedges : ∀ e ∈ loopAndIslands, e.src.toNat < 5 ∧ e.dst.toNat < 5 := by decide
  obtain ⟨summary, hok, hlength, hloops, hdistinct, -, hout, hin, -, hbuilt⟩ :=
    counts_exactly (by decide) hedges
  obtain ⟨g, hg, houtBuilt, -⟩ := hbuilt (by decide) _ _ GraphBuilder.listing_isIndexed
    GraphBuilder.listing_listsEdges
  have hthree : summary.maxOutDegree = 3 := hout.trans (by decide)
  exact ⟨hedges, summary, g, hok, hg, hlength, hloops.trans (by decide),
    hdistinct.trans (by decide), hthree, hin.trans (by decide), houtBuilt.symm.trans hthree⟩

/-- The first of three vertices sends two edges. -/
def fork : List Edge := [⟨0, 1⟩, ⟨0, 2⟩]

theorem ofEdges_fork : ofEdges 3 fork = .ok ⟨3, 2, 2, 0, 2, 1, 1⟩ := by
  have hdistinct : (Std.HashSet.ofList fork).size = 2 :=
    (size_ofList_eq_card fork).trans (by decide)
  have hout : maxMultiplicity (fork.map Edge.src) = 2 :=
    (maxMultiplicity_eq_sup .source (by decide : 3 ≤ UInt64.size) (by decide)).trans (by decide)
  have hin : maxMultiplicity (fork.map Edge.dst) = 1 :=
    (maxMultiplicity_eq_sup .target (by decide : 3 ≤ UInt64.size) (by decide)).trans (by decide)
  have hcomponents : RecursiveMatrix.weakComponents 3 fork = 1 := by cbv
  refine ofEdges_eq_ok_iff.mpr ⟨by decide, by decide, ?_⟩
  rw [hdistinct, hout, hin, hcomponents]
  rfl

end Summary

end RecursiveMatrix
