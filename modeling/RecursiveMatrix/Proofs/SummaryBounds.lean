import Mathlib.Algebra.Order.BigOperators.Group.Finset
import RecursiveMatrix.Proofs.IsolatedVertices
import RecursiveMatrix.Proofs.SimpleGraphs
import RecursiveMatrix.Proofs.SummaryCounts

/-!
# How the numbers of a summary bound each other

The numbers of a summary are found in unrelated passes over the edges, and yet not every seven
numbers are those of a graph (`Summary.numbers_bound_each_other`). Three facts lie behind this.

An edge merges two classes at most, and it merges none if it is a loop or has been met before. So
there are at most as many merges as distinct edges that are no loops, and there is none exactly if
all edges are loops (`Classes.merges_le_distinctCount`, `Classes.merges_eq_zero_iff`).

Every edge has one source and one target among the vertices, so the degrees at either end sum up to
the number of edges (`sum_degreeAt`), and the largest of them is no less than the average.

The edges at one vertex of a simple graph have different other ends, and none of these is the vertex
itself (`degreeAt_lt`).
-/

namespace RecursiveMatrix

-- Powers are those of `Nat.pow`, whatever other instances are in scope.
attribute [local instance (high)] instPowNat

variable {nodes : ℕ} {edges : List Edge}

/-! ## Merges -/

namespace Classes

theorem connect_of_label_eq {p : Classes} {v w : Vertex} (h : p.label v = p.label w) :
    p.connect v w = p := if_pos h

theorem merges_connect_le (p : Classes) (v w : Vertex) :
    (p.connect v w).merges ≤ p.merges + 1 := by
  rcases p.connect_cases v w with ⟨-, heq⟩ | ⟨-, heq | heq⟩
  · rw [heq]
    exact Nat.le_succ _
  · rw [heq]
    exact Nat.le_refl _
  · rw [heq]
    exact Nat.le_refl _

/-- Only an edge between two vertices that is met for the first time can merge classes. -/
theorem merges_le_distinctCount (hnodes : nodes ≤ UInt64.size)
    (hedges : ∀ e ∈ edges, e.src.toNat < nodes ∧ e.dst.toNat < nodes) :
    (ofEdges edges).merges ≤ distinctCount edges := by
  rw [← length_simpleEdges]
  induction edges using List.reverseRecOn with
  | nil => exact Nat.le_refl _
  | append_singleton edges e ih =>
    have hrest : ∀ a ∈ edges, a.src.toNat < nodes ∧ a.dst.toNat < nodes :=
      fun a ha ↦ hedges a (List.mem_append_left _ ha)
    have hlast : ofEdges (edges ++ [e]) = (ofEdges edges).connect e.src e.dst := by
      rw [ofEdges, List.foldl_append]
      rfl
    rw [hlast]
    by_cases hold : e.isLoop = true ∨ e ∈ simpleEdges edges
    · have hlabel : (ofEdges edges).label e.src = (ofEdges edges).label e.dst := by
        rcases hold with hloop | hmem
        · rw [Edge.isLoop_iff.mp hloop]
        · exact (represents_ofEdges hnodes hrest).label_eq e (mem_simpleEdges.mp hmem).1
      rw [connect_of_label_eq hlabel, simpleEdges_concat_of_mem hold]
      exact ih hrest
    · obtain ⟨hloop, hmem⟩ := not_or.mp hold
      rw [simpleEdges_concat_of_notMem (Bool.not_eq_true _ ▸ hloop) hmem, List.length_append,
        List.length_singleton]
      exact (merges_connect_le _ _ _).trans (Nat.succ_le_succ (ih hrest))

/-- Without a merge all vertices have labels of their own, so that no edge leads from one to
another. -/
theorem merges_eq_zero_iff (hnodes : nodes ≤ UInt64.size)
    (hedges : ∀ e ∈ edges, e.src.toNat < nodes ∧ e.dst.toNat < nodes) :
    (ofEdges edges).merges = 0 ↔ ∀ e ∈ edges, e.isLoop = true := by
  constructor
  · intro hmerges e he
    have hrepresents := represents_ofEdges hnodes hedges
    have hcard : ((ofEdges edges).labelSet nodes).card
        = (Finset.univ : Finset (Fin nodes)).card := by
      rw [Finset.card_fin, ← Nat.add_zero (Finset.card _), ← hmerges]
      exact hrepresents.card_labelSet
    have hinjective := Finset.injOn_of_card_image_eq hcard
    obtain ⟨hsrc, hdst⟩ := hedges e he
    have hsame : (⟨e.src.toNat, hsrc⟩ : Fin nodes) = ⟨e.dst.toNat, hdst⟩ := by
      apply hinjective (Finset.mem_coe.mpr (Finset.mem_univ _))
        (Finset.mem_coe.mpr (Finset.mem_univ _))
      simp only [UInt64.ofNat_toNat]
      exact hrepresents.label_eq e he
    exact Edge.isLoop_iff.mpr (UInt64.toNat_inj.mp (Fin.mk.inj hsame))
  · intro hloops
    have hnone : distinctCount edges = 0 := by
      refine Finset.card_eq_zero.mpr (Finset.filter_eq_empty_iff.mpr fun e he ↦ ?_)
      rw [hloops e (List.mem_toFinset.mp he)]
      exact Bool.true_eq_false_eq_False
    exact Nat.le_zero.mp ((merges_le_distinctCount hnodes hedges).trans hnone.le)

end Classes

theorem weakComponents_pos_iff (hnodes : nodes ≤ UInt64.size)
    (hedges : ∀ e ∈ edges, e.src.toNat < nodes ∧ e.dst.toNat < nodes) :
    0 < weakComponents nodes edges ↔ 0 < nodes := by
  refine ⟨fun h ↦ h.trans_le (Nat.sub_le _ _), fun h ↦ ?_⟩
  have hclass : Nonempty (Quotient (connection nodes edges)) := ⟨Quotient.mk _ ⟨0, h⟩⟩
  rw [weakComponents_eq_card hnodes hedges]
  exact Nat.card_pos

/-! ## Distinct edges -/

theorem distinctCount_le_card (edges : List Edge) : distinctCount edges ≤ edges.toFinset.card :=
  Finset.card_filter_le _ _

theorem distinctCount_add_countP_le (edges : List Edge) :
    distinctCount edges + edges.countP Edge.isLoop ≤ edges.length := by
  have hkept : distinctCount edges ≤ edges.countP fun e ↦ !e.isLoop := by
    rw [← length_simpleEdges, List.countP_eq_length_filter, ← List.toFinset_card_of_nodup
      (nodup_simpleEdges edges), toFinset_simpleEdges]
    refine le_trans (le_of_eq ?_) (List.toFinset_card_le _)
    congr 1
    ext e
    simp
  have hall := edges.length_eq_countP_add_countP Edge.isLoop
  simp only [Bool.not_eq_true, Bool.decide_eq_false] at hall
  omega

theorem card_toFinset_le_sq (hedges : ∀ e ∈ edges, e.src.toNat < nodes ∧ e.dst.toNat < nodes) :
    edges.toFinset.card ≤ nodes ^ 2 := by
  have hpairs := Finset.card_le_card_of_injOn (s := edges.toFinset)
    (t := Finset.range nodes ×ˢ Finset.range nodes) (fun e ↦ (e.src.toNat, e.dst.toNat))
    (fun e he ↦ ?_) (fun e _ a _ hea ↦ ?_)
  · rwa [Finset.card_product, Finset.card_range, ← Nat.pow_two] at hpairs
  · obtain ⟨hsrc, hdst⟩ := hedges e (List.mem_toFinset.mp he)
    exact Finset.mem_product.mpr ⟨Finset.mem_range.mpr hsrc, Finset.mem_range.mpr hdst⟩
  · obtain ⟨hsrc, hdst⟩ := Prod.mk.inj hea
    obtain ⟨hsrc, hdst⟩ := And.intro (UInt64.toNat_inj.mp hsrc) (UInt64.toNat_inj.mp hdst)
    cases e
    cases a
    exact congrArg₂ Edge.mk hsrc hdst

/-! ## Degrees -/

/-- The other one of the two ends. -/
def EdgeEnd.other : EdgeEnd → EdgeEnd
  | source => target
  | target => source

theorem Edge.eq_of_endpoints {e a : Edge} (place : EdgeEnd)
    (h : e.endpoint place = a.endpoint place)
    (hother : e.endpoint place.other = a.endpoint place.other) : e = a := by
  cases e
  cases a
  cases place with
  | source => exact congrArg₂ Edge.mk h hother
  | target => exact congrArg₂ Edge.mk hother h

theorem Edge.isLoop_iff_endpoint {e : Edge} (place : EdgeEnd) :
    e.isLoop = true ↔ e.endpoint place.other = e.endpoint place := by
  cases place with
  | source => exact isLoop_iff.trans eq_comm
  | target => exact isLoop_iff

theorem sum_degreeAt (place : EdgeEnd) (hedges : ∀ e ∈ edges, (e.endpoint place).toNat < nodes) :
    ∑ v ∈ Finset.range nodes, degreeAt place edges v = edges.length := by
  have hmaps : ((Finset.univ : Finset (Fin edges.length)) : Set (Fin edges.length)).MapsTo
      (fun i ↦ (edges[i].endpoint place).toNat) (Finset.range nodes) :=
    fun i _ ↦ Finset.mem_coe.mpr (Finset.mem_range.mpr (hedges _ (List.getElem_mem _)))
  have hcard := Finset.card_eq_sum_card_fiberwise hmaps
  rw [Finset.card_fin] at hcard
  exact hcard.symm

/-- The largest degree is no less than the average. -/
theorem length_le_mul_maxMultiplicity (place : EdgeEnd) (hnodes : nodes ≤ UInt64.size)
    (hedges : ∀ e ∈ edges, (e.endpoint place).toNat < nodes) :
    edges.length ≤ nodes * maxMultiplicity (edges.map (Edge.endpoint place)) := by
  rw [← sum_degreeAt place hedges, maxMultiplicity_eq_sup place hnodes hedges]
  have hsum := Finset.sum_le_card_nsmul (Finset.range nodes) (degreeAt place edges)
    ((Finset.range nodes).sup (degreeAt place edges)) fun v hv ↦ Finset.le_sup hv
  rwa [Finset.card_range, nsmul_eq_mul, Nat.cast_id] at hsum

/-- In a simple graph a vertex has an edge to each of the others at most. -/
theorem degreeAt_lt (place : EdgeEnd) (hnodup : edges.Nodup)
    (hloops : ∀ e ∈ edges, e.isLoop = false)
    (hedges : ∀ e ∈ edges, (e.endpoint place.other).toNat < nodes) {v : ℕ} (hv : v < nodes) :
    degreeAt place edges v < nodes := by
  have hothers := Finset.card_le_card_of_injOn
    (s := positions edges fun e ↦ (e.endpoint place).toNat = v) (t := (Finset.range nodes).erase v)
    (fun i ↦ (edges[i].endpoint place.other).toNat) (fun i hi ↦ ?_) (fun i hi j hj hij ↦ ?_)
  · rw [Finset.card_erase_of_mem (Finset.mem_range.mpr hv), Finset.card_range] at hothers
    exact hothers.trans_lt (Nat.sub_one_lt_of_lt hv)
  · have hmem : edges[i] ∈ edges := List.getElem_mem _
    obtain rfl := (Finset.mem_filter.mp hi).2
    refine Finset.mem_erase.mpr ⟨fun h ↦ ?_, Finset.mem_range.mpr (hedges _ hmem)⟩
    have hloop := (Edge.isLoop_iff_endpoint place).mpr (UInt64.toNat_inj.mp h)
    exact Bool.false_ne_true ((hloops _ hmem).symm.trans hloop)
  · have hplace := (Finset.mem_filter.mp hi).2.trans (Finset.mem_filter.mp hj).2.symm
    have hsame := Edge.eq_of_endpoints place (UInt64.toNat_inj.mp hplace) (UInt64.toNat_inj.mp hij)
    exact Fin.ext ((List.Nodup.getElem_inj_iff hnodup).mp hsame)

theorem maxMultiplicity_lt (place : EdgeEnd) (hnodes : nodes ≤ UInt64.size) (hpos : 0 < nodes)
    (hnodup : edges.Nodup) (hloops : ∀ e ∈ edges, e.isLoop = false)
    (hedges : ∀ e ∈ edges, ∀ place, (e.endpoint place).toNat < nodes) :
    maxMultiplicity (edges.map (Edge.endpoint place)) < nodes := by
  rw [maxMultiplicity_eq_sup place hnodes fun e he ↦ hedges e he place]
  refine (Finset.sup_lt_iff hpos).mpr fun v hv ↦ ?_
  exact degreeAt_lt place hnodup hloops (fun e he ↦ hedges e he place.other)
    (Finset.mem_range.mp hv)

/-! ## The summary -/

namespace Summary

/-- **The numbers of a summary bound each other.** An edge lowers the number of components by one at
most, and by none if it is a loop or a repetition; so there are as many components as vertices
exactly if all edges are loops. There is a component as soon as there is a vertex. The largest
degrees are no less than the average ones. There are no more distinct edges than edges, nor than
pairs of vertices. In a graph without loops and repetitions the edges of a vertex lead to different
others, which bounds the degrees and the number of edges. -/
theorem numbers_bound_each_other {nodes : ℕ} {edges : List Edge} {s : Summary}
    (h : ofEdges nodes edges = .ok s) :
    s.selfLoops ≤ s.edges
      ∧ s.nodes ≤ s.weakComponents + min s.distinctEdges (s.edges - s.selfLoops)
      ∧ s.weakComponents ≤ s.nodes
      ∧ (s.weakComponents = s.nodes ↔ s.selfLoops = s.edges)
      ∧ (1 ≤ s.weakComponents ↔ 1 ≤ s.nodes)
      ∧ s.edges ≤ s.nodes * s.maxOutDegree
      ∧ s.edges ≤ s.nodes * s.maxInDegree
      ∧ s.distinctEdges ≤ min s.edges (s.nodes ^ 2)
      ∧ (s.distinctEdges = s.edges → s.selfLoops = 0 → 0 < s.nodes →
        s.maxOutDegree < s.nodes ∧ s.maxInDegree < s.nodes
          ∧ s.edges ≤ s.nodes * (s.nodes - 1)) := by
  obtain ⟨hlimit, hwithin, rfl⟩ := ofEdges_eq_ok_iff.mp h
  have hsize : nodes ≤ UInt64.size := hlimit.le.trans (by decide)
  have hedges : ∀ e ∈ edges, e.src.toNat < nodes ∧ e.dst.toNat < nodes :=
    fun e he ↦ Edge.within_iff.mp (hwithin e he)
  have hends : ∀ e ∈ edges, ∀ place, (e.endpoint place).toNat < nodes := by
    intro e he place
    cases place with
    | source => exact (hedges e he).1
    | target => exact (hedges e he).2
  have hcomponents := weakComponents_add_merges hsize hedges
  have hmerges := Classes.merges_le_distinctCount hsize hedges
  have hloops := distinctCount_add_countP_le edges
  have hdistinct := distinctCount_le_card edges
  have hout := length_le_mul_maxMultiplicity .source hsize fun e he ↦ hends e he .source
  have hin := length_le_mul_maxMultiplicity .target hsize fun e he ↦ hends e he .target
  simp only [size_ofList_eq_card]
  refine ⟨List.countP_le_length, ?_, Nat.sub_le _ _, ?_, ?_, hout, hin,
    le_min (List.toFinset_card_le edges) (card_toFinset_le_sq hedges), ?_⟩
  · have hbound := le_min (hmerges.trans hdistinct) (hmerges.trans (Nat.le_sub_of_add_le hloops))
    exact hcomponents.ge.trans (Nat.add_le_add_left hbound _)
  · rw [List.countP_eq_length, ← Classes.merges_eq_zero_iff hsize hedges]
    omega
  · exact weakComponents_pos_iff hsize hedges
  · intro hall hnone hpos
    have hnodup := card_toFinset_eq_length_iff.mp hall
    have hsimple : ∀ e ∈ edges, e.isLoop = false := by
      simpa using List.countP_eq_zero.mp hnone
    have hless := maxMultiplicity_lt .source hsize hpos hnodup hsimple hends
    exact ⟨hless, maxMultiplicity_lt .target hsize hpos hnodup hsimple hends,
      hout.trans (Nat.mul_le_mul_left _ (Nat.le_sub_one_of_lt hless))⟩

/-- A simple graph whose two edges join all its three vertices. -/
theorem numbers_bound_each_other_for_fork :
    ofEdges 3 fork = .ok ⟨3, 2, 2, 0, 2, 1, 1⟩ ∧ 3 ≤ 1 + min 2 (2 - 0) ∧ 2 ≤ 3 * (3 - 1) := by
  obtain ⟨-, hmerged, -, -, -, -, -, -, hsimple⟩ := numbers_bound_each_other ofEdges_fork
  exact ⟨ofEdges_fork, hmerged, (hsimple rfl rfl (by decide)).2.2⟩

end Summary

end RecursiveMatrix
