import Mathlib.Data.Setoid.Basic
import RecursiveMatrix.Edge

/-!
# Connected vertices

Two vertices are connected if a path leads from one to the other. A path is a list of edges, each of
which starts where the one before it ends, and every one of them may be run against its direction
(`Path`). Connection is therefore an equivalence, and it is the one that the edges generate
(`connection_iff`); its classes are the components of a graph.

Paths are made of machine words, while the vertices of a graph are the numbers below a bound. A path
that starts at such a number never leaves them, provided that the edges stay among them.
-/

namespace RecursiveMatrix

variable {edges : List Edge} {u v w : Vertex}

/-! ## Paths -/

/-- The steps lead from one vertex to another along edges, each run in either direction. -/
inductive Path (edges : List Edge) : Vertex → List Edge → Vertex → Prop
  | nil (v : Vertex) : Path edges v [] v
  | cons {e : Edge} {steps : List Edge} {w : Vertex} (h : e ∈ edges ∨ e.reverse ∈ edges)
    (rest : Path edges e.dst steps w) : Path edges e.src (e :: steps) w

namespace Path

variable {steps others : List Edge}

theorem single {e : Edge} (h : e ∈ edges ∨ e.reverse ∈ edges) : Path edges e.src [e] e.dst :=
  .cons h (.nil e.dst)

theorem append (h : Path edges u steps v) (h' : Path edges v others w) :
    Path edges u (steps ++ others) w := by
  induction h with
  | nil => exact h'
  | cons he _ ih => exact .cons he (ih h')

theorem reverse (h : Path edges v steps w) :
    Path edges w (steps.map Edge.reverse).reverse v := by
  induction h with
  | nil => exact .nil _
  | @cons e steps w he _ ih =>
    have hback : Path edges e.dst [e.reverse] e.src := single (e := e.reverse) he.symm
    rw [List.map_cons, List.reverse_cons]
    exact ih.append hback

theorem mono {more : List Edge} (hsub : edges ⊆ more) (h : Path edges v steps w) :
    Path more v steps w := by
  induction h with
  | nil => exact .nil _
  | cons he _ ih => exact .cons (he.imp (@hsub _) (@hsub _)) ih

theorem eq_of_isolated (h : Path edges v steps w) (hv : ∀ e ∈ edges, e.src ≠ v ∧ e.dst ≠ v) :
    w = v := by
  cases h with
  | nil => rfl
  | cons he _ =>
    rcases he with he | he
    · exact absurd rfl (hv _ he).1
    · exact absurd rfl (hv _ he).2

end Path

/-! ## Joined vertices -/

/-- A path leads from one vertex to the other. -/
def Joined (edges : List Edge) (v w : Vertex) : Prop := ∃ steps, Path edges v steps w

namespace Joined

theorem refl (edges : List Edge) (v : Vertex) : Joined edges v v := ⟨[], .nil v⟩

theorem symm (h : Joined edges v w) : Joined edges w v := by
  obtain ⟨steps, h⟩ := h
  exact ⟨_, h.reverse⟩

theorem trans (h : Joined edges u v) (h' : Joined edges v w) : Joined edges u w := by
  obtain ⟨steps, h⟩ := h
  obtain ⟨others, h'⟩ := h'
  exact ⟨steps ++ others, h.append h'⟩

theorem of_mem {e : Edge} (h : e ∈ edges) : Joined edges e.src e.dst := ⟨[e], .single (.inl h)⟩

theorem mono {more : List Edge} (hsub : edges ⊆ more) (h : Joined edges v w) : Joined more v w := by
  obtain ⟨steps, h⟩ := h
  exact ⟨steps, h.mono hsub⟩

/-- Whatever every edge keeps is the same at both ends of a path. -/
theorem eq_of_forall {α : Type*} {f : Vertex → α} (hf : ∀ e ∈ edges, f e.src = f e.dst)
    (h : Joined edges v w) : f v = f w := by
  obtain ⟨steps, h⟩ := h
  induction h with
  | nil => rfl
  | cons he _ ih =>
    rcases he with he | he
    · exact (hf _ he).trans ih
    · exact (hf _ he).symm.trans ih

end Joined

/-! ## The equivalence of a graph -/

/-- The equivalence on the vertices `0, …, nodes - 1` that makes both ends of every edge
equivalent. -/
def connection (nodes : ℕ) (edges : List Edge) : Setoid (Fin nodes) :=
  Relation.EqvGen.setoid fun i j ↦ ∃ e ∈ edges, e.src.toNat = i ∧ e.dst.toNat = j

variable {nodes : ℕ}

theorem connection_of_mem {e : Edge} (h : e ∈ edges) {i j : Fin nodes} (hi : e.src.toNat = i)
    (hj : e.dst.toNat = j) : connection nodes edges i j :=
  Relation.EqvGen.rel i j ⟨e, h, hi, hj⟩

theorem connection_le {s : Setoid (Fin nodes)}
    (h : ∀ e ∈ edges, ∀ i j : Fin nodes, e.src.toNat = i → e.dst.toNat = j → s i j) :
    connection nodes edges ≤ s := by
  apply Setoid.eqvGen_le
  rintro i j ⟨e, he, hi, hj⟩
  exact h e he i j hi hj

theorem Path.exists_connection {steps : List Edge} (h : Path edges v steps w)
    (hedges : ∀ e ∈ edges, e.src.toNat < nodes ∧ e.dst.toNat < nodes) {i : Fin nodes}
    (hi : v.toNat = i) : ∃ j : Fin nodes, w.toNat = j ∧ connection nodes edges i j := by
  induction h generalizing i with
  | nil => exact ⟨i, hi, (connection nodes edges).refl' i⟩
  | @cons e steps w he _ ih =>
    have hlt : e.dst.toNat < nodes := by
      rcases he with he | he
      · exact (hedges _ he).2
      · exact (hedges _ he).1
    obtain ⟨k, hk, hconnection⟩ := ih (i := ⟨e.dst.toNat, hlt⟩) rfl
    refine ⟨k, hk, (connection nodes edges).trans' ?_ hconnection⟩
    rcases he with he | he
    · exact connection_of_mem he hi rfl
    · exact (connection nodes edges).symm' (connection_of_mem he rfl hi)

/-- The edges generate the equivalence of being joined by a path. -/
theorem connection_iff (hnodes : nodes ≤ UInt64.size)
    (hedges : ∀ e ∈ edges, e.src.toNat < nodes ∧ e.dst.toNat < nodes) {i j : Fin nodes} :
    connection nodes edges i j ↔ Joined edges (.ofNat i) (.ofNat j) := by
  have htoNat (k : Fin nodes) : (UInt64.ofNat k).toNat = k :=
    UInt64.toNat_ofNat_of_lt' (k.isLt.trans_le hnodes)
  constructor
  · intro h
    induction h with
    | rel i j h =>
      obtain ⟨e, he, hi, hj⟩ := h
      rw [← hi, ← hj, UInt64.ofNat_toNat, UInt64.ofNat_toNat]
      exact .of_mem he
    | refl i => exact .refl edges _
    | symm i j _ ih => exact ih.symm
    | trans i j k _ _ ih ih' => exact ih.trans ih'
  · rintro ⟨steps, h⟩
    obtain ⟨k, hk, hconnection⟩ := h.exists_connection hedges (htoNat i)
    rwa [Fin.ext ((htoNat j).symm.trans hk)]

end RecursiveMatrix
