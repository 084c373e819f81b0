import Mathlib.Data.Fintype.Card
import Mathlib.Data.Set.Finite.Range
import Mathlib.SetTheory.Cardinal.Finite
import RecursiveMatrix.Proofs.Connection
import RecursiveMatrix.Summary

/-!
# Components are the classes of connected vertices

The components of a graph are counted by merging classes of vertices, edge by edge. This file says
what is counted: the classes of the equivalence that the edges generate (`weakComponents_eq_card`).

## The invariant

Two vertices have the same label exactly if a path of the edges seen so far joins them. This comes
from two facts, of which each is kept by every merge: a vertex is joined to its label, and both ends
of an edge have the same one (`Classes.Represents`). The vertices stored for a label have to be all
those that carry it, since a merge relabels no others.

A merge takes one label away and no other, so labels and merges together are always as many as there
are vertices.
-/

namespace RecursiveMatrix

namespace Classes

variable {p : Classes}

/-! ## Merging two classes -/

theorem getD_foldl_insert (labels : Std.HashMap Vertex Vertex) (vertices : List Vertex)
    (new v fallback : Vertex) :
    (vertices.foldl (fun labels v ↦ labels.insert v new) labels).getD v fallback
      = if v ∈ vertices then new else labels.getD v fallback := by
  induction vertices generalizing labels with
  | nil => simp
  | cons w vertices ih =>
    rw [List.foldl_cons, ih, Std.HashMap.getD_insert]
    by_cases hmem : v ∈ vertices
    · simp [hmem]
    · by_cases hw : w = v
      · simp [hw]
      · simp [hmem, hw, Ne.symm hw]

theorem label_relabel_eq (p : Classes) (old new v : Vertex) :
    (p.relabel old new).label v
      = if v ∈ (p.classOf old).vertices then new else p.label v := getD_foldl_insert _ _ _ _ _

theorem classOf_relabel (p : Classes) (old new c : Vertex) :
    (p.relabel old new).classOf c
      = if c = new then (p.classOf old).union (p.classOf new) else p.classOf c := by
  rw [classOf, relabel, Std.HashMap.getD_insert]
  by_cases h : new = c
  · simp [h]
  · simp [h, Ne.symm h, classOf]

/-- An edge merges the classes of its ends in one direction or the other, unless they are the
same. -/
theorem connect_cases (p : Classes) (v w : Vertex) :
    (p.label v = p.label w ∧ p.connect v w = p)
      ∨ (p.label v ≠ p.label w
        ∧ (p.connect v w = p.relabel (p.label v) (p.label w)
          ∨ p.connect v w = p.relabel (p.label w) (p.label v))) := by
  rw [connect]
  by_cases hlabel : p.label v = p.label w
  · exact .inl ⟨hlabel, if_pos hlabel⟩
  · simp only [if_neg hlabel]
    refine .inr ⟨hlabel, ?_⟩
    split_ifs
    · exact .inl rfl
    · exact .inr rfl

/-! ## The invariant -/

/-- The labels of the vertices `0, …, nodes - 1`. -/
def labelSet (p : Classes) (nodes : ℕ) : Finset Vertex :=
  Finset.univ.image fun i : Fin nodes ↦ p.label (.ofNat i)

theorem mem_labelSet_iff {nodes : ℕ} {c : Vertex} :
    c ∈ p.labelSet nodes ↔ ∃ i : Fin nodes, p.label (.ofNat i) = c := by simp [labelSet]

theorem label_mem_labelSet {nodes : ℕ} {v : Vertex} (h : v.toNat < nodes) :
    p.label v ∈ p.labelSet nodes :=
  mem_labelSet_iff.mpr ⟨⟨v.toNat, h⟩, by rw [UInt64.ofNat_toNat]⟩

/-- The classes are those of the vertices that the edges join. -/
structure Represents (p : Classes) (nodes : ℕ) (edges : List Edge) : Prop where
  /-- Every vertex is in the class of its label. -/
  joined_label : ∀ v, Joined edges v (p.label v)
  /-- Every edge stays in a class. -/
  label_eq : ∀ e ∈ edges, p.label e.src = p.label e.dst
  /-- The vertices of a class are those with its label. -/
  mem_classOf : ∀ v w, w ∈ (p.classOf (p.label v)).vertices ↔ p.label w = p.label v
  /-- There is one label for each vertex, less one for each merge. -/
  card_labelSet : (p.labelSet nodes).card + p.merges = nodes

namespace Represents

variable {nodes : ℕ} {edges more : List Edge} {v w : Vertex}

theorem label_eq_iff (h : p.Represents nodes edges) : p.label v = p.label w ↔ Joined edges v w := by
  refine ⟨fun hlabel ↦ ?_, Joined.eq_of_forall h.label_eq⟩
  exact (h.joined_label v).trans (hlabel ▸ (h.joined_label w).symm)

theorem label_relabel (h : p.Represents nodes edges) (v new u : Vertex) :
    (p.relabel (p.label v) new).label u = if p.label u = p.label v then new else p.label u := by
  simp only [label_relabel_eq, h.mem_classOf]

theorem labelSet_relabel (h : p.Represents nodes edges) (hw : w.toNat < nodes)
    (hne : p.label v ≠ p.label w) :
    (p.relabel (p.label v) (p.label w)).labelSet nodes
      = (p.labelSet nodes).erase (p.label v) := by
  ext c
  simp only [Finset.mem_erase, mem_labelSet_iff, h.label_relabel]
  constructor
  · rintro ⟨i, rfl⟩
    split_ifs with hi
    · exact ⟨hne.symm, mem_labelSet_iff.mp (label_mem_labelSet hw)⟩
    · exact ⟨hi, i, rfl⟩
  · rintro ⟨hc, i, rfl⟩
    exact ⟨i, if_neg hc⟩

/-- **The merge.** Two classes become one, and one label is lost. -/
theorem relabel (h : p.Represents nodes edges) (hsub : edges ⊆ more) (hjoined : Joined more v w)
    (hmore : ∀ e ∈ more, e ∈ edges ∨ e = ⟨v, w⟩ ∨ e = ⟨w, v⟩) (hv : v.toNat < nodes)
    (hw : w.toNat < nodes) (hne : p.label v ≠ p.label w) :
    (p.relabel (p.label v) (p.label w)).Represents nodes more where
  joined_label u := by
    have hu : Joined more u (p.label u) := (h.joined_label u).mono hsub
    rw [h.label_relabel]
    split_ifs with hlabel
    · have huv : Joined more u v := (h.label_eq_iff.mp hlabel).mono hsub
      exact (huv.trans hjoined).trans ((h.joined_label w).mono hsub)
    · exact hu
  label_eq e he := by
    simp only [h.label_relabel]
    rcases hmore e he with he | rfl | rfl
    · rw [h.label_eq e he]
    · simp [hne.symm]
    · simp [hne.symm]
  mem_classOf u x := by
    simp only [h.label_relabel, classOf_relabel]
    by_cases hu : p.label u = p.label v
    · simp only [hu, if_true, VertexClass.union, List.mem_append, h.mem_classOf]
      split_ifs with hx <;> simp [hx, hne]
    · by_cases huw : p.label u = p.label w
      · simp only [huw, hne.symm, if_false, if_true, VertexClass.union, List.mem_append,
          h.mem_classOf]
        split_ifs with hx <;> simp [hx, hne]
      · simp only [hu, huw, if_false, h.mem_classOf]
        split_ifs with hx
        · simp [hx, Ne.symm hu, Ne.symm huw]
        · rfl
  card_labelSet := by
    have hcard := Finset.card_erase_add_one (label_mem_labelSet (p := p) hv)
    have hmerges : (p.relabel (p.label v) (p.label w)).merges = p.merges + 1 := rfl
    have hbefore := h.card_labelSet
    rw [h.labelSet_relabel hw hne, hmerges]
    omega

/-- **The step.** An edge joins the classes of its ends. -/
theorem connect (h : p.Represents nodes edges) {e : Edge} (hsrc : e.src.toNat < nodes)
    (hdst : e.dst.toNat < nodes) : (p.connect e.src e.dst).Represents nodes (edges ++ [e]) := by
  have hsub : edges ⊆ edges ++ [e] := List.subset_append_left _ _
  have hjoined : Joined (edges ++ [e]) e.src e.dst := .of_mem (by simp)
  have hmem : ∀ a ∈ edges ++ [e], a ∈ edges ∨ a = e := by simp
  rcases p.connect_cases e.src e.dst with ⟨hlabel, heq⟩ | ⟨hne, heq | heq⟩
  · rw [heq]
    refine ⟨fun u ↦ (h.joined_label u).mono hsub, fun a ha ↦ ?_, h.mem_classOf, h.card_labelSet⟩
    rcases hmem a ha with ha | rfl
    · exact h.label_eq a ha
    · exact hlabel
  · rw [heq]
    exact h.relabel hsub hjoined (fun a ha ↦ (hmem a ha).imp_right .inl) hsrc hdst hne
  · rw [heq]
    exact h.relabel hsub hjoined.symm (fun a ha ↦ (hmem a ha).imp_right .inr) hdst hsrc hne.symm

end Represents

theorem represents_discrete {nodes : ℕ} (hnodes : nodes ≤ UInt64.size) :
    discrete.Represents nodes [] := by
  have hlabel (v : Vertex) : discrete.label v = v := by simp [label, discrete]
  refine ⟨fun v ↦ ?_, fun e he ↦ absurd he List.not_mem_nil, fun v w ↦ ?_, ?_⟩
  · rw [hlabel]
    exact .refl [] v
  · have hclass : discrete.classOf v = .singleton v := by simp [classOf, discrete]
    simp [hlabel, hclass, VertexClass.singleton]
  · have hinjective : Function.Injective fun i : Fin nodes ↦ UInt64.ofNat i := by
      intro i j hij
      have hij := congrArg UInt64.toNat hij
      simp only [UInt64.toNat_ofNat_of_lt' (Fin.isLt _ |>.trans_le hnodes)] at hij
      exact Fin.ext hij
    simp only [labelSet, hlabel, Finset.card_image_of_injective _ hinjective, Finset.card_univ,
      Fintype.card_fin]
    rfl

/-- **The run.** The edges of a graph leave the classes of the vertices that they join. -/
theorem represents_ofEdges {nodes : ℕ} (hnodes : nodes ≤ UInt64.size) {edges : List Edge}
    (hedges : ∀ e ∈ edges, e.src.toNat < nodes ∧ e.dst.toNat < nodes) :
    (ofEdges edges).Represents nodes edges := by
  induction edges using List.reverseRecOn with
  | nil => exact represents_discrete hnodes
  | append_singleton edges e ih =>
    have hlast := hedges e (by simp)
    have hrest : ∀ a ∈ edges, a.src.toNat < nodes ∧ a.dst.toNat < nodes :=
      fun a ha ↦ hedges a (List.mem_append_left _ ha)
    rw [ofEdges, List.foldl_append]
    exact (ih hrest).connect hlast.1 hlast.2

end Classes

/-! ## Counting the classes -/

variable {nodes : ℕ} {edges : List Edge}

/-- **There are as many components as classes** of the equivalence that the edges generate. -/
theorem weakComponents_eq_card (hnodes : nodes ≤ UInt64.size)
    (hedges : ∀ e ∈ edges, e.src.toNat < nodes ∧ e.dst.toNat < nodes) :
    weakComponents nodes edges = Nat.card (Quotient (connection nodes edges)) := by
  have h := Classes.represents_ofEdges hnodes hedges
  set p := Classes.ofEdges edges
  have hker : connection nodes edges = Setoid.ker fun i : Fin nodes ↦ p.label (.ofNat i) := by
    ext i j
    rw [connection_iff hnodes hedges, Setoid.ker_def, h.label_eq_iff]
  calc weakComponents nodes edges
      = (p.labelSet nodes).card := Nat.sub_eq_of_eq_add h.card_labelSet.symm
    _ = Nat.card (Set.range fun i : Fin nodes ↦ p.label (.ofNat i)) := by
      rw [Nat.card_eq_card_toFinset, Set.toFinset_range, Classes.labelSet]
    _ = Nat.card (Quotient (connection nodes edges)) := by
      rw [hker]
      exact Nat.card_congr (Setoid.quotientKerEquivRange _).symm

/-- **The summary counts the components.** It gives the number of classes of the equivalence that
the edges generate. Two vertices are in one class exactly if a path joins them whose edges are run
in either direction, and a vertex without edges is in a class of its own. -/
theorem Summary.weakComponents_eq_card_classes (hnodes : nodes < 2 ^ 32 - 1)
    (hedges : ∀ e ∈ edges, e.src.toNat < nodes ∧ e.dst.toNat < nodes) :
    (∃ summary, ofEdges nodes edges = .ok summary
        ∧ summary.weakComponents = Nat.card (Quotient (connection nodes edges)))
      ∧ (∀ v w : Fin nodes, connection nodes edges v w
        ↔ ∃ steps, Path edges (.ofNat v) steps (.ofNat w))
      ∧ ∀ v : Fin nodes, (∀ e ∈ edges, e.src.toNat ≠ v ∧ e.dst.toNat ≠ v) →
        ∀ w, connection nodes edges v w → w = v := by
  have hsize : nodes ≤ UInt64.size := hnodes.le.trans (by decide)
  have hwithin : ∀ e ∈ edges, e.within nodes = true := fun e he ↦ Edge.within_iff.mpr (hedges e he)
  have htoNat (v : Fin nodes) : (UInt64.ofNat v).toNat = v :=
    UInt64.toNat_ofNat_of_lt' (v.isLt.trans_le hsize)
  refine ⟨⟨_, ofEdges_eq_ok_iff.mpr ⟨hnodes, hwithin, rfl⟩, weakComponents_eq_card hsize hedges⟩,
    fun v w ↦ connection_iff hsize hedges, fun v hv w hw ↦ ?_⟩
  obtain ⟨steps, hpath⟩ := (connection_iff hsize hedges).mp hw
  have hapart : ∀ e ∈ edges, e.src ≠ .ofNat v ∧ e.dst ≠ .ofNat v := by
    intro e he
    exact ⟨fun h ↦ (hv e he).1 (h ▸ htoNat v), fun h ↦ (hv e he).2 (h ▸ htoNat v)⟩
  exact Fin.ext (by rw [← htoNat w, hpath.eq_of_isolated hapart, htoNat v])

/-- Five vertices with a repeated edge, a loop, two edges back and forth, and two vertices apart. -/
def loopAndIslands : List Edge := [⟨0, 1⟩, ⟨0, 1⟩, ⟨1, 1⟩, ⟨2, 0⟩, ⟨0, 2⟩]

/-- The two vertices apart make two more classes. -/
theorem Summary.card_classes_loopAndIslands :
    (∀ e ∈ loopAndIslands, e.src.toNat < 5 ∧ e.dst.toNat < 5)
      ∧ Nat.card (Quotient (connection 5 loopAndIslands)) = 3
      ∧ ¬ connection 5 loopAndIslands 3 4 := by
  have hedges : ∀ e ∈ loopAndIslands, e.src.toNat < 5 ∧ e.dst.toNat < 5 := by decide
  obtain ⟨⟨summary, hsummary, hcard⟩, -, hisolated⟩ :=
    weakComponents_eq_card_classes (by decide) hedges
  have hthree : RecursiveMatrix.weakComponents 5 loopAndIslands = 3 := by cbv
  rw [(ofEdges_eq_ok_iff.mp hsummary).2.2] at hcard
  exact ⟨hedges, hcard.symm.trans hthree, fun h ↦ absurd (hisolated 3 (by decide) 4 h) (by decide)⟩

end RecursiveMatrix
