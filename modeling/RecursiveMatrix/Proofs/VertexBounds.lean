import Mathlib.Order.Bounds.Basic
import RecursiveMatrix.Command.Inspect
import RecursiveMatrix.Proofs.SummaryLimits

/-!
# How many vertices the edges need

Two scans go through a list of edges. One looks for the largest end, and says how many vertices
the edges need (`neededVertices`). The other looks for the first edge with an end outside of given
vertices, and a summary is refused if there is one. They are written independently of each other,
and meet at the same number: the first is at most `n` exactly if the second finds nothing outside of
`n` vertices (`neededVertices_le_iff`).

The first scan is carried out in words (`vertexBound`), and is right about every list but those that
need more vertices than a word can count (`toNat_vertexBound`). So a graph is summarised exactly if
it has the vertices that its edges need and fewer than can be numbered, and whoever asks for just
those vertices is never told of an edge outside (`Summary.ofEdges_decided_by_vertexBound`).
-/

namespace RecursiveMatrix

-- Powers are those of `Nat.pow`, whatever other instances are in scope.
attribute [local instance (high)] instPowNat

universe u

/-! ## The largest end -/

section Bound

variable {edges : List Edge} {n : ℕ}

/-- How many vertices `0, …, n - 1` it takes to hold both ends of every edge. -/
def neededVertices (edges : List Edge) : ℕ :=
  edges.foldl (fun n e ↦ max n (max e.src.toNat e.dst.toNat + 1)) 0

theorem foldl_needed_le_iff {start : ℕ} :
    edges.foldl (fun n e ↦ max n (max e.src.toNat e.dst.toNat + 1)) start ≤ n
      ↔ start ≤ n ∧ ∀ e ∈ edges, e.src.toNat < n ∧ e.dst.toNat < n := by
  induction edges generalizing start with
  | nil => simp
  | cons e edges ih =>
    have hends : max e.src.toNat e.dst.toNat + 1 ≤ n ↔ e.src.toNat < n ∧ e.dst.toNat < n :=
      Nat.succ_le_iff.trans max_lt_iff
    rw [List.foldl_cons, ih, max_le_iff, hends, List.forall_mem_cons, and_assoc]

/-- **The two scans meet.** The vertices needed are at most so many exactly if all edges stay among
them. -/
theorem neededVertices_le_iff :
    neededVertices edges ≤ n ↔ ∀ e ∈ edges, e.src.toNat < n ∧ e.dst.toNat < n :=
  foldl_needed_le_iff.trans (and_iff_right (Nat.zero_le n))

theorem isLeast_neededVertices (edges : List Edge) :
    IsLeast {n | ∀ e ∈ edges, e.src.toNat < n ∧ e.dst.toNat < n} (neededVertices edges) :=
  ⟨neededVertices_le_iff.mp (Nat.le_refl _), fun _ h ↦ neededVertices_le_iff.mpr h⟩

/-- No sum wraps around as long as no end is the last word. -/
theorem toNat_vertexBound
    (h : ∀ e ∈ edges, e.src.toNat < 2 ^ 64 - 1 ∧ e.dst.toNat < 2 ^ 64 - 1) :
    (vertexBound edges).toNat = neededVertices edges := by
  have hfold (start : UInt64) :
      (edges.foldl (fun n e ↦ max n (max e.src e.dst + 1)) start).toNat
        = edges.foldl (fun n e ↦ max n (max e.src.toNat e.dst.toNat + 1)) start.toNat := by
    induction edges generalizing start with
    | nil => rfl
    | cons e edges ih =>
      obtain ⟨hends, hrest⟩ := List.forall_mem_cons.mp h
      have hfits : max e.src.toNat e.dst.toNat + 1 < 2 ^ 64 := by omega
      rw [List.foldl_cons, List.foldl_cons, ih hrest, UInt64.toNat_max, UInt64.toNat_add,
        UInt64.toNat_max, UInt64.toNat_one, Nat.mod_eq_of_lt hfits]
  exact hfold 0

end Bound

/-! ## Refused summaries -/

namespace Summary

variable {nodes : ℕ} {edges : List Edge}

/-- Why a graph is not summarised. The number of its vertices is looked at first, and then the edges
in their order. -/
inductive Refusal (nodes : ℕ) (edges : List Edge) : Failure → Prop
  | oversized (h : 2 ^ 32 - 1 ≤ nodes) : Refusal nodes edges (.oversized nodes)
  | outside {before after : List Edge} {e : Edge} (hnodes : nodes < 2 ^ 32 - 1)
    (hedges : edges = before ++ e :: after)
    (hbefore : ∀ a ∈ before, a.src.toNat < nodes ∧ a.dst.toNat < nodes)
    (he : nodes ≤ e.src.toNat ∨ nodes ≤ e.dst.toNat) :
    Refusal nodes edges (.rejected (.edgeOutside e nodes))

theorem within_eq_false_iff {e : Edge} :
    e.within nodes = false ↔ nodes ≤ e.src.toNat ∨ nodes ≤ e.dst.toNat := by
  rw [← Bool.not_eq_true, Edge.within_iff, not_and_or, Nat.not_lt, Nat.not_lt]

theorem find?_outside_eq_some_iff {e : Edge} :
    (edges.find? fun e ↦ !e.within nodes) = some e
      ↔ (nodes ≤ e.src.toNat ∨ nodes ≤ e.dst.toNat) ∧ ∃ before after, edges = before ++ e :: after
        ∧ ∀ a ∈ before, a.src.toNat < nodes ∧ a.dst.toNat < nodes := by
  rw [List.find?_eq_some_iff_append]
  simp only [Bool.not_eq_true', within_eq_false_iff, Edge.within_iff, Bool.not_not]

theorem ofEdges_of_refusal {failure : Failure} (h : Refusal nodes edges failure) :
    ofEdges nodes edges = .error failure := by
  cases h with
  | oversized hlarge => exact if_pos hlarge
  | outside hnodes hedges hbefore he =>
    have hsmall : ¬ summaryLimit ≤ nodes := Nat.not_le.mpr hnodes
    have hfirst := find?_outside_eq_some_iff.mpr ⟨he, _, _, hedges, hbefore⟩
    rw [ofEdges, if_neg hsmall, hfirst]

theorem exists_refusal_or_ok (nodes : ℕ) (edges : List Edge) :
    (∃ failure, Refusal nodes edges failure) ∨ ∃ summary, ofEdges nodes edges = .ok summary := by
  rcases Nat.lt_or_ge nodes (2 ^ 32 - 1) with hnodes | hlarge
  · cases hfind : edges.find? fun e ↦ !e.within nodes with
    | some e =>
      obtain ⟨he, before, after, hedges, hbefore⟩ := find?_outside_eq_some_iff.mp hfind
      exact .inl ⟨_, .outside hnodes hedges hbefore he⟩
    | none =>
      have hwithin : ∀ e ∈ edges, e.within nodes = true := by simpa using hfind
      exact .inr ⟨_, ofEdges_eq_ok_iff.mpr ⟨hnodes, hwithin, rfl⟩⟩
  · exact .inl ⟨_, .oversized hlarge⟩

theorem ofEdges_eq_error_iff {failure : Failure} :
    ofEdges nodes edges = .error failure ↔ Refusal nodes edges failure := by
  refine ⟨fun hfailed ↦ ?_, ofEdges_of_refusal⟩
  rcases exists_refusal_or_ok nodes edges with ⟨failure', hrefusal⟩ | ⟨summary, hok⟩
  · rw [ofEdges_of_refusal hrefusal] at hfailed
    exact Except.error.inj hfailed ▸ hrefusal
  · rw [hok] at hfailed
    cases hfailed

theorem exists_ofEdges_eq_ok_iff :
    (∃ summary, ofEdges nodes edges = .ok summary)
      ↔ neededVertices edges ≤ nodes ∧ nodes < 2 ^ 32 - 1 := by
  simp only [neededVertices_le_iff, ← Edge.within_iff]
  constructor
  · rintro ⟨summary, h⟩
    obtain ⟨hnodes, hwithin, -⟩ := ofEdges_eq_ok_iff.mp h
    exact ⟨hwithin, hnodes⟩
  · rintro ⟨hwithin, hnodes⟩
    exact ⟨_, ofEdges_eq_ok_iff.mpr ⟨hnodes, hwithin, rfl⟩⟩

theorem Refusal.parameter_eq {fault : ParameterFault} (h : Refusal nodes edges (.rejected fault)) :
    fault.parameter = "edges" := by
  cases h
  rfl

theorem not_refusal_neededVertices (edges : List Edge) (fault : ParameterFault) :
    ¬ Refusal (neededVertices edges) edges (.rejected fault) := by
  intro h
  cases h with
  | @outside before after e _ hedges _ he =>
    have hmem : e ∈ edges := by simp [hedges]
    obtain ⟨hsrc, hdst⟩ := (isLeast_neededVertices edges).1 e hmem
    omega

end Summary

/-! ## Inspected files -/

namespace Summary

variable {edges : List Edge}

/-- **The bound decides what is summarised.** It is the least number of vertices that hold both
ends of every edge, as long as none of them is the last word. A graph is summarised exactly if it
has at least so many vertices and fewer than `2 ^ 32 - 1`. Otherwise it is too large, which is
looked at first, or the first edge outside is named. An inspected file without a number of vertices
gets its bound, and is never refused for its edges. Building the graph changes nothing about all
this, as long as the edges can be numbered. -/
theorem ofEdges_decided_by_vertexBound
    (hedges : ∀ e ∈ edges, e.src.toNat < 2 ^ 64 - 1 ∧ e.dst.toNat < 2 ^ 64 - 1) (nodes : ℕ) :
    IsLeast {n | ∀ e ∈ edges, e.src.toNat < n ∧ e.dst.toNat < n} (vertexBound edges).toNat
      ∧ (vertexBound edges).toNat = neededVertices edges
      ∧ ((∃ summary, ofEdges nodes edges = .ok summary)
        ↔ (vertexBound edges).toNat ≤ nodes ∧ nodes < 2 ^ 32 - 1)
      ∧ ((∃ n, ofEdges nodes edges = .error (.oversized n)) ↔ 2 ^ 32 - 1 ≤ nodes)
      ∧ (∀ failure, ofEdges nodes edges = .error failure ↔ Refusal nodes edges failure)
      ∧ (∀ fault, Refusal nodes edges (.rejected fault) → fault.parameter = "edges")
      ∧ (∀ fault, ofEdges (vertexBound edges).toNat edges ≠ .error (.rejected fault))
      ∧ (∀ (d : Directory) (path : OsText) (fault : ParameterFault),
        d.loadEdges .whole path = .ok edges →
          (d.perform (InspectSettings.task ⟨path, none⟩)).1
            ≠ some (.error (.summarising (.rejected fault))))
      ∧ (edges.length ≤ 2 ^ 32 - 1 → summarise? nodes edges = some (ofEdges nodes edges)
        ∧ ∀ {γ : Type u} (b : GraphBuilder γ), b.IsIndexed →
          b.summarise? nodes edges = some (ofEdges nodes edges)) := by
  have hbound := toNat_vertexBound hedges
  have hnever (fault : ParameterFault) :
      ofEdges (vertexBound edges).toNat edges ≠ .error (.rejected fault) := by
    rw [hbound]
    exact mt ofEdges_eq_error_iff.mp (not_refusal_neededVertices edges fault)
  refine ⟨hbound ▸ isLeast_neededVertices edges, hbound, hbound ▸ exists_ofEdges_eq_ok_iff, ?_,
    fun failure ↦ ofEdges_eq_error_iff, fun fault ↦ Refusal.parameter_eq, hnever, ?_, ?_⟩
  · constructor
    · rintro ⟨n, h⟩
      rcases ofEdges_eq_error_iff.mp h with hlarge | _
      exact hlarge
    · exact fun hlarge ↦ ⟨nodes, ofEdges_eq_error_iff.mpr (.oversized hlarge)⟩
  · intro d path fault hload hfailed
    rw [InspectSettings.perform_task_of_none hload] at hfailed
    obtain ⟨result, hresult, hfailed⟩ := Option.map_eq_some_iff.mp hfailed
    obtain ⟨failure, rfl, hsame⟩ := Except.mapError_eq_error_iff.mp hfailed
    obtain rfl := CommandFailure.summarising.inj hsame
    exact hnever fault (ofEdges_of_summarise? hresult)
  · intro hlength
    have hsummarise : summarise? nodes edges = some (ofEdges nodes edges) :=
      summarise?_of_length_le hlength
    refine ⟨hsummarise, fun b hb ↦ ?_⟩
    rw [GraphBuilder.summarise?_eq_summarise? hb, hsummarise]

/-- Two edges need 13 vertices. With 12 of them the second edge is outside. -/
theorem ofEdges_decided_by_vertexBound_for_13 :
    (∀ e ∈ [⟨3, 9⟩, (⟨12, 1⟩ : Edge)], e.src.toNat < 2 ^ 64 - 1 ∧ e.dst.toNat < 2 ^ 64 - 1)
      ∧ vertexBound [⟨3, 9⟩, ⟨12, 1⟩] = 13
      ∧ (∃ summary, ofEdges 13 [⟨3, 9⟩, ⟨12, 1⟩] = .ok summary)
      ∧ ofEdges 12 [⟨3, 9⟩, ⟨12, 1⟩] = .error (.rejected (.edgeOutside ⟨12, 1⟩ 12)) := by
  have hedges : ∀ e ∈ [⟨3, 9⟩, (⟨12, 1⟩ : Edge)],
      e.src.toNat < 2 ^ 64 - 1 ∧ e.dst.toNat < 2 ^ 64 - 1 := by decide
  obtain ⟨-, -, haccepted, -⟩ := ofEdges_decided_by_vertexBound.{0} hedges 13
  obtain ⟨-, -, -, -, hrefused, -⟩ := ofEdges_decided_by_vertexBound.{0} hedges 12
  refine ⟨hedges, by decide, haccepted.mpr (by decide), (hrefused _).mpr ?_⟩
  exact @Refusal.outside 12 _ [⟨3, 9⟩] [] ⟨12, 1⟩ (by decide) rfl (by decide) (by decide)

end Summary

end RecursiveMatrix
