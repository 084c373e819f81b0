import Mathlib.Data.Finset.Dedup
import Mathlib.Data.List.Count
import RecursiveMatrix.Proofs.LineOwnership
import RecursiveMatrix.Proofs.Schedules
import RecursiveMatrix.Proofs.SummaryCounts

/-!
# Isomorphic graphs

Two lists of edges make isomorphic graphs if the edges of one are those of the other with their
vertices renamed, in some order (`Isomorphic`). A summary does not tell isomorphic graphs apart
(`Summary.isomorphic_graphs_have_one_summary`). Neither does it tell a graph from its reverse, but
for its largest degrees, which are exchanged.

## What carries over

Counts of edges do not depend on the order, and they survive every map of edges that is injective
and keeps loops. The components are the exception: they are counted by merging classes edge by edge,
and both the labels and the merges are different ones for another order or other names. So nothing
is said of the merges here. The components are the classes of the equivalence that the edges
generate, and this is the least equivalence that connects the ends of every edge (`connection_le`):
it is enough to know where each edge goes.
-/

namespace RecursiveMatrix

universe u

variable {nodes : ℕ} {edges others : List Edge}

/-! ## Renaming vertices -/

/-- The vertex that a permutation of the vertices `0, …, nodes - 1` puts in the place of another
one. Past the last vertex nothing is renamed. -/
def renameVertex (π : Equiv.Perm (Fin nodes)) (v : Vertex) : Vertex :=
  if h : v.toNat < nodes then .ofNat (π ⟨v.toNat, h⟩) else v

section Rename

variable (π ρ : Equiv.Perm (Fin nodes)) {v : Vertex}

theorem renameVertex_of_le (h : nodes ≤ v.toNat) : renameVertex π v = v :=
  dif_neg (Nat.not_lt.mpr h)

theorem toNat_renameVertex (hnodes : nodes ≤ UInt64.size) (h : v.toNat < nodes) :
    (renameVertex π v).toNat = π ⟨v.toNat, h⟩ := by
  rw [renameVertex, dif_pos h, UInt64.toNat_ofNat_of_lt' ((π _).isLt.trans_le hnodes)]

theorem renameVertex_refl (v : Vertex) : renameVertex (Equiv.refl (Fin nodes)) v = v := by
  rw [renameVertex]
  split_ifs
  · exact UInt64.ofNat_toNat
  · rfl

theorem renameVertex_lt_iff (hnodes : nodes ≤ UInt64.size) :
    (renameVertex π v).toNat < nodes ↔ v.toNat < nodes := by
  by_cases h : v.toNat < nodes
  · rw [toNat_renameVertex π hnodes h]
    exact iff_of_true (π _).isLt h
  · rw [renameVertex_of_le π (Nat.not_lt.mp h)]

theorem renameVertex_trans (hnodes : nodes ≤ UInt64.size) (v : Vertex) :
    renameVertex (π.trans ρ) v = renameVertex ρ (renameVertex π v) := by
  by_cases h : v.toNat < nodes
  · have hfirst := (renameVertex_lt_iff π hnodes).mpr h
    apply UInt64.toNat_inj.mp
    rw [toNat_renameVertex _ hnodes h, toNat_renameVertex ρ hnodes hfirst, Equiv.trans_apply]
    congr 2
    exact Fin.ext (toNat_renameVertex π hnodes h).symm
  · have hle := Nat.not_lt.mp h
    rw [renameVertex_of_le _ hle, renameVertex_of_le π hle, renameVertex_of_le ρ hle]

theorem renameVertex_symm (hnodes : nodes ≤ UInt64.size) (v : Vertex) :
    renameVertex π.symm (renameVertex π v) = v := by
  rw [← renameVertex_trans π π.symm hnodes, Equiv.self_trans_symm, renameVertex_refl]

theorem renameVertex_injective (hnodes : nodes ≤ UInt64.size) :
    Function.Injective (renameVertex π) :=
  Function.LeftInverse.injective (renameVertex_symm π hnodes)

namespace Edge

/-- The edge with both ends renamed. -/
def rename (π : Equiv.Perm (Fin nodes)) (e : Edge) : Edge :=
  ⟨renameVertex π e.src, renameVertex π e.dst⟩

theorem rename_refl (e : Edge) : e.rename (Equiv.refl (Fin nodes)) = e := by
  rw [rename, renameVertex_refl, renameVertex_refl]

theorem rename_trans (hnodes : nodes ≤ UInt64.size) (e : Edge) :
    e.rename (π.trans ρ) = (e.rename π).rename ρ := by
  rw [rename, renameVertex_trans π ρ hnodes, renameVertex_trans π ρ hnodes]
  rfl

theorem rename_symm (hnodes : nodes ≤ UInt64.size) (e : Edge) :
    (e.rename π).rename π.symm = e := by
  rw [← rename_trans π π.symm hnodes, Equiv.self_trans_symm, rename_refl]

theorem rename_injective (hnodes : nodes ≤ UInt64.size) : Function.Injective (rename π) :=
  Function.LeftInverse.injective (rename_symm π hnodes)

theorem within_rename (hnodes : nodes ≤ UInt64.size) (e : Edge) :
    (e.rename π).within nodes = e.within nodes := by
  simp only [within, rename, renameVertex_lt_iff π hnodes]

theorem isLoop_rename (hnodes : nodes ≤ UInt64.size) (e : Edge) :
    (e.rename π).isLoop = e.isLoop := by
  rw [Bool.eq_iff_iff, isLoop_iff, isLoop_iff]
  exact (renameVertex_injective π hnodes).eq_iff

theorem reverse_reverse (e : Edge) : e.reverse.reverse = e := rfl

theorem reverse_injective : Function.Injective reverse :=
  Function.LeftInverse.injective reverse_reverse

theorem within_reverse (e : Edge) : e.reverse.within nodes = e.within nodes :=
  Bool.and_comm _ _

theorem isLoop_reverse (e : Edge) : e.reverse.isLoop = e.isLoop := by
  rw [Bool.eq_iff_iff, isLoop_iff, isLoop_iff]
  exact eq_comm

end Edge

end Rename

/-! ## Isomorphism -/

/-- The edges of one graph are those of the other with the vertices renamed, in some order. -/
def Isomorphic (nodes : ℕ) (edges others : List Edge) : Prop :=
  ∃ π : Equiv.Perm (Fin nodes), others.Perm (edges.map (Edge.rename π))

theorem isomorphic_of_perm (nodes : ℕ) (h : edges.Perm others) : Isomorphic nodes edges others := by
  refine ⟨Equiv.refl _, ?_⟩
  rw [funext Edge.rename_refl, List.map_id']
  exact h.symm

theorem isomorphic_rename (π : Equiv.Perm (Fin nodes)) (edges : List Edge) :
    Isomorphic nodes edges (edges.map (Edge.rename π)) := ⟨π, .refl _⟩

theorem isomorphic_equivalence (hnodes : nodes ≤ UInt64.size) : Equivalence (Isomorphic nodes) where
  refl edges := isomorphic_of_perm nodes (.refl edges)
  symm := by
    rintro edges others ⟨π, h⟩
    have hback := h.map (Edge.rename π.symm)
    rw [List.map_map, Function.comp_def, funext (Edge.rename_symm π hnodes), List.map_id'] at hback
    exact ⟨π.symm, hback.symm⟩
  trans := by
    rintro edges others more ⟨π, h⟩ ⟨ρ, h'⟩
    refine ⟨π.trans ρ, h'.trans ?_⟩
    have hnext := h.map (Edge.rename ρ)
    rw [List.map_map] at hnext
    rwa [funext (Edge.rename_trans π ρ hnodes)]

/-! ## Counts -/

theorem size_ofList_perm (h : edges.Perm others) :
    (Std.HashSet.ofList others).size = (Std.HashSet.ofList edges).size := by
  rw [size_ofList_eq_card, size_ofList_eq_card, List.toFinset_eq_of_perm _ _ h]

theorem size_ofList_map {f : Edge → Edge} (hf : Function.Injective f) (edges : List Edge) :
    (Std.HashSet.ofList (edges.map f)).size = (Std.HashSet.ofList edges).size := by
  have himage : (edges.map f).toFinset = edges.toFinset.image f := by
    ext e
    simp
  rw [size_ofList_eq_card, size_ofList_eq_card, himage, Finset.card_image_of_injective _ hf]

theorem maxMultiplicity_perm {vs ws : List Vertex} (h : vs.Perm ws) :
    maxMultiplicity ws = maxMultiplicity vs := by
  refine eq_of_forall_ge_iff fun n ↦ ?_
  rw [maxMultiplicity_le_iff, maxMultiplicity_le_iff]
  simp only [h.count_eq]

theorem maxMultiplicity_map {f : Vertex → Vertex} (hf : Function.Injective f) (vs : List Vertex) :
    maxMultiplicity (vs.map f) = maxMultiplicity vs := by
  refine eq_of_forall_ge_iff fun n ↦ ?_
  rw [maxMultiplicity_le_iff, maxMultiplicity_le_iff]
  constructor
  · intro h v
    rw [← List.count_map_of_injective vs f hf v]
    exact h (f v)
  · intro h w
    by_cases hw : w ∈ vs.map f
    · obtain ⟨v, -, rfl⟩ := List.mem_map.mp hw
      rw [List.count_map_of_injective vs f hf v]
      exact h v
    · rw [List.count_eq_zero.mpr hw]
      exact Nat.zero_le n

/-! ## Components -/

theorem connection_mono (h : edges ⊆ others) : connection nodes edges ≤ connection nodes others :=
  connection_le fun _ he _ _ hi hj ↦ connection_of_mem (h he) hi hj

theorem connection_reverse_le (nodes : ℕ) (edges : List Edge) :
    connection nodes (edges.map Edge.reverse) ≤ connection nodes edges := by
  apply connection_le
  intro a ha i j hi hj
  obtain ⟨e, he, rfl⟩ := List.mem_map.mp ha
  exact (connection nodes edges).symm' (connection_of_mem he hj hi)

theorem connection_reverse (nodes : ℕ) (edges : List Edge) :
    connection nodes (edges.map Edge.reverse) = connection nodes edges := by
  refine le_antisymm (connection_reverse_le nodes edges) ?_
  have hback := connection_reverse_le nodes (edges.map Edge.reverse)
  rwa [List.map_map, Function.comp_def, funext Edge.reverse_reverse, List.map_id'] at hback

theorem connection_rename (hnodes : nodes ≤ UInt64.size) (π : Equiv.Perm (Fin nodes))
    {i j : Fin nodes} (h : connection nodes edges i j) :
    connection nodes (edges.map (Edge.rename π)) (π i) (π j) := by
  have hle : connection nodes edges
      ≤ (connection nodes (edges.map (Edge.rename π))).comap π := by
    apply connection_le
    rintro e he i j hi hj
    have hsrc : e.src.toNat < nodes := hi ▸ i.isLt
    have hdst : e.dst.toNat < nodes := hj ▸ j.isLt
    refine connection_of_mem (List.mem_map_of_mem he) ?_ ?_
    · rw [Edge.rename, toNat_renameVertex π hnodes hsrc, Fin.ext hi (a := ⟨_, hsrc⟩)]
    · rw [Edge.rename, toNat_renameVertex π hnodes hdst, Fin.ext hj (a := ⟨_, hdst⟩)]
  exact hle h

theorem connection_rename_iff (hnodes : nodes ≤ UInt64.size) (π : Equiv.Perm (Fin nodes))
    {i j : Fin nodes} :
    connection nodes edges i j ↔ connection nodes (edges.map (Edge.rename π)) (π i) (π j) := by
  refine ⟨connection_rename hnodes π, fun h ↦ ?_⟩
  have hback := connection_rename hnodes π.symm h
  rwa [List.map_map, Function.comp_def, funext (Edge.rename_symm π hnodes), List.map_id',
    Equiv.symm_apply_apply, Equiv.symm_apply_apply] at hback

theorem weakComponents_eq_of_connection (hnodes : nodes ≤ UInt64.size)
    (hedges : ∀ e ∈ edges, e.within nodes = true) (hothers : ∀ e ∈ others, e.within nodes = true)
    (π : Equiv.Perm (Fin nodes))
    (h : ∀ i j, connection nodes edges i j ↔ connection nodes others (π i) (π j)) :
    weakComponents nodes others = weakComponents nodes edges := by
  rw [weakComponents_eq_card hnodes fun e he ↦ Edge.within_iff.mp (hedges e he),
    weakComponents_eq_card hnodes fun e he ↦ Edge.within_iff.mp (hothers e he)]
  exact (Nat.card_congr (Quotient.congr π h)).symm

/-! ## Summaries -/

namespace Summary

variable {s : Summary}

theorem ofEdges_perm (h : ofEdges nodes edges = .ok s) (hperm : edges.Perm others) :
    ofEdges nodes others = .ok s := by
  obtain ⟨hnodes, hedges, rfl⟩ := ofEdges_eq_ok_iff.mp h
  have hothers : ∀ e ∈ others, e.within nodes = true := fun e he ↦ hedges e (hperm.mem_iff.mpr he)
  have hconnection : connection nodes edges = connection nodes others :=
    le_antisymm (connection_mono hperm.subset) (connection_mono hperm.symm.subset)
  have hcomponents := weakComponents_eq_of_connection (hnodes.le.trans (by decide)) hedges hothers
    (Equiv.refl _) fun i j ↦ by rw [hconnection]; rfl
  refine ofEdges_eq_ok_iff.mpr ⟨hnodes, hothers, ?_⟩
  rw [hperm.length_eq, size_ofList_perm hperm, hperm.countP_eq,
    maxMultiplicity_perm (hperm.map Edge.src), maxMultiplicity_perm (hperm.map Edge.dst),
    hcomponents]

/-- A map of edges that is injective and keeps loops and components keeps all numbers of a summary
but for the degrees. -/
theorem ofEdges_map {f : Edge → Edge} (h : ofEdges nodes edges = .ok s)
    (hf : Function.Injective f) (hwithin : ∀ e, (f e).within nodes = e.within nodes)
    (hloop : ∀ e, (f e).isLoop = e.isLoop) (π : Equiv.Perm (Fin nodes))
    (hconnection : ∀ i j, connection nodes edges i j
      ↔ connection nodes (edges.map f) (π i) (π j)) :
    ofEdges nodes (edges.map f) = .ok { s with
      maxOutDegree := maxMultiplicity ((edges.map f).map Edge.src)
      maxInDegree := maxMultiplicity ((edges.map f).map Edge.dst) } := by
  obtain ⟨hnodes, hedges, rfl⟩ := ofEdges_eq_ok_iff.mp h
  have hmapped : ∀ e ∈ edges.map f, e.within nodes = true := by
    intro a ha
    obtain ⟨e, he, rfl⟩ := List.mem_map.mp ha
    exact (hwithin e).trans (hedges e he)
  have hloops : (edges.map f).countP Edge.isLoop = edges.countP Edge.isLoop := by
    rw [List.countP_map]
    exact List.countP_congr fun e _ ↦ by rw [Function.comp_apply, hloop]
  have hcomponents := weakComponents_eq_of_connection (hnodes.le.trans (by decide)) hedges hmapped
    π hconnection
  refine ofEdges_eq_ok_iff.mpr ⟨hnodes, hmapped, ?_⟩
  rw [List.length_map, size_ofList_map hf, hloops, hcomponents]

theorem ofEdges_rename (h : ofEdges nodes edges = .ok s) (π : Equiv.Perm (Fin nodes)) :
    ofEdges nodes (edges.map (Edge.rename π)) = .ok s := by
  obtain ⟨hnodes, -, hs⟩ := ofEdges_eq_ok_iff.mp h
  have hsize : nodes ≤ UInt64.size := hnodes.le.trans (by decide)
  have hinjective := renameVertex_injective π hsize
  have hout : (edges.map (Edge.rename π)).map Edge.src
      = (edges.map Edge.src).map (renameVertex π) := by
    rw [List.map_map, List.map_map]
    rfl
  have hin : (edges.map (Edge.rename π)).map Edge.dst
      = (edges.map Edge.dst).map (renameVertex π) := by
    rw [List.map_map, List.map_map]
    rfl
  rw [ofEdges_map h (Edge.rename_injective π hsize) (Edge.within_rename π hsize)
    (Edge.isLoop_rename π hsize) π fun i j ↦ connection_rename_iff hsize π, hout, hin,
    maxMultiplicity_map hinjective, maxMultiplicity_map hinjective, hs]

theorem ofEdges_isomorphic (h : ofEdges nodes edges = .ok s)
    (hiso : Isomorphic nodes edges others) : ofEdges nodes others = .ok s := by
  obtain ⟨π, hperm⟩ := hiso
  exact ofEdges_perm (ofEdges_rename h π) hperm.symm

/-- The summary of the graph with all edges reversed. -/
def transposed (s : Summary) : Summary :=
  { s with maxOutDegree := s.maxInDegree, maxInDegree := s.maxOutDegree }

/-- **Reversing all edges exchanges the degrees.** -/
theorem ofEdges_reverse (h : ofEdges nodes edges = .ok s) :
    ofEdges nodes (edges.map Edge.reverse) = .ok s.transposed := by
  have hs := (ofEdges_eq_ok_iff.mp h).2.2
  rw [ofEdges_map h Edge.reverse_injective Edge.within_reverse Edge.isLoop_reverse (Equiv.refl _)
    fun i j ↦ by rw [connection_reverse]; rfl, List.map_map, List.map_map, hs]
  rfl

/-- **Isomorphic graphs have one summary.** Being isomorphic is an equivalence, and it covers a
different order of the edges as well as different names for the vertices. Nothing of a summary
depends on either of them, and the graph can be built for both or for neither. So it does not matter
in which order partitions are put together, or the shares of the loaders of a file. Reversing all
edges exchanges the largest degrees, and changes nothing else. -/
theorem isomorphic_graphs_have_one_summary {nodes : ℕ} {edges : List Edge} {s : Summary}
    (h : ofEdges nodes edges = .ok s) :
    Equivalence (Isomorphic nodes)
      ∧ (∀ others, Isomorphic nodes edges others → ofEdges nodes others = .ok s
        ∧ ∀ {γ : Type u} (b : GraphBuilder γ), b.IsIndexed →
          b.summarise? nodes others = b.summarise? nodes edges)
      ∧ (∀ others, edges.Perm others → Isomorphic nodes edges others)
      ∧ (∀ π : Equiv.Perm (Fin nodes), Isomorphic nodes edges (edges.map (Edge.rename π)))
      ∧ (∀ (g : Generator) (seed workers : UInt64) (order : List ℕ),
        g.generatePartitioned seed workers = .ok edges → order.Perm (List.range workers.toNat) →
          ofEdges nodes (order.flatMap fun i ↦ g.partition seed workers (.ofNat i)) = .ok s)
      ∧ (∀ (path : OsText) (bytes : List UInt8) (peers : UInt64) (order : List ℕ), 1 ≤ peers →
        Loader.whole.read path bytes = .ok edges → order.Perm (List.range peers.toNat) →
          ∃ shares, order.mapM (Loader.readShare peers path bytes) = .ok shares
            ∧ ofEdges nodes shares.flatten = .ok s)
      ∧ ofEdges nodes (edges.map Edge.reverse)
        = .ok { s with maxOutDegree := s.maxInDegree, maxInDegree := s.maxOutDegree }
      ∧ ∀ {γ : Type u} (b : GraphBuilder γ), b.IsIndexed →
        b.summarise? nodes (edges.map Edge.reverse)
          = (b.summarise? nodes edges).map (·.map transposed) := by
  have hsize : nodes ≤ UInt64.size := (ofEdges_eq_ok_iff.mp h).1.le.trans (by decide)
  refine ⟨isomorphic_equivalence hsize, fun others hiso ↦ ⟨ofEdges_isomorphic h hiso, ?_⟩,
    fun others ↦ isomorphic_of_perm nodes, fun π ↦ isomorphic_rename π edges, ?_, ?_,
    ofEdges_reverse h, fun b hb ↦ GraphBuilder.summarise?_eq_map hb h (ofEdges_reverse h) ?_⟩
  · intro γ b hb
    have hlength : others.length = edges.length := by
      obtain ⟨π, hperm⟩ := hiso
      rw [hperm.length_eq, List.length_map]
    rw [GraphBuilder.summarise?_eq_summarise? hb, GraphBuilder.summarise?_eq_summarise? hb,
      summarise?_of_ok h, summarise?_of_ok (ofEdges_isomorphic h hiso), hlength]
  · intro g seed workers order hok horder
    have hworkers : checkWorkers workers = .ok () := by
      obtain ⟨_, hchecked, -⟩ := Except.bind_eq_ok_iff.mp hok
      exact hchecked
    rw [g.generatePartitioned_eq_ok seed hworkers] at hok
    refine ofEdges_perm h ?_
    rw [← Except.ok.inj hok]
    exact horder.symm.flatMap_right _
  · intro path bytes peers order hpeers hread horder
    obtain ⟨shares, hshares, hperm⟩ :=
      Loader.exists_mapM_readShare hread (UInt64.le_iff_toNat_le.mp hpeers) horder
    exact ⟨shares, hshares, ofEdges_perm h hperm.symm⟩
  · exact List.length_map _

/-- The first two vertices can exchange their names, and the edges their places. With the edges
reversed the degrees are exchanged. -/
theorem isomorphic_graphs_have_one_summary_for_fork :
    ofEdges 3 fork = .ok ⟨3, 2, 2, 0, 2, 1, 1⟩
      ∧ ofEdges 3 [⟨1, 2⟩, ⟨1, 0⟩] = .ok ⟨3, 2, 2, 0, 2, 1, 1⟩
      ∧ ofEdges 3 [⟨1, 0⟩, ⟨2, 0⟩] = .ok ⟨3, 2, 2, 0, 1, 2, 1⟩
      ∧ GraphBuilder.listing.summarise? 3 [⟨1, 0⟩, ⟨2, 0⟩]
        = (GraphBuilder.listing.summarise? 3 fork).map (·.map transposed) := by
  obtain ⟨-, hsame, -, -, -, -, hreverse, hbuilt⟩ :=
    isomorphic_graphs_have_one_summary.{0} ofEdges_fork
  have hswap : Isomorphic 3 fork [⟨1, 2⟩, ⟨1, 0⟩] := ⟨Equiv.swap 0 1, by decide⟩
  exact ⟨ofEdges_fork, (hsame _ hswap).1, hreverse,
    hbuilt _ GraphBuilder.listing_isIndexed⟩

end Summary

end RecursiveMatrix
