import RecursiveMatrix.Proofs.Components
import RecursiveMatrix.Proofs.ProgramRuns
import RecursiveMatrix.Proofs.VertexBounds

/-!
# Vertices that no edge needs

A graph may be given more vertices than its edges need. The edges are the same ones then, and so are
their counts; what is added are vertices without an edge, each of which is a component of its own.
A summary of the larger graph is therefore that of the smaller one with as many isolated vertices as
were added (`Summary.withIsolated`).

The one fact behind this is that edges merge as many classes in one graph as in the other: what is
left of the vertices after the merges are the components, so every vertex that is added is one more
of them (`weakComponents_add_merges`).

How many vertices the edges need is worked out in words. It comes out too small only if an edge ends
at the last word, and such an edge is outside of every graph that is summarised
(`Summary.exists_rejected_of_last`).
-/

namespace RecursiveMatrix

-- Powers are those of `Nat.pow`, whatever other instances are in scope.
attribute [local instance (high)] instPowNat

universe u

variable {n m : ℕ} {edges : List Edge}

/-! ## Components -/

theorem forall_ends_lt_of_le (hnm : n ≤ m)
    (hedges : ∀ e ∈ edges, e.src.toNat < n ∧ e.dst.toNat < n) :
    ∀ e ∈ edges, e.src.toNat < m ∧ e.dst.toNat < m :=
  fun e he ↦ (hedges e he).imp hnm.trans_lt' hnm.trans_lt'

theorem weakComponents_add_merges (hn : n ≤ UInt64.size)
    (hedges : ∀ e ∈ edges, e.src.toNat < n ∧ e.dst.toNat < n) :
    weakComponents n edges + (Classes.ofEdges edges).merges = n := by
  have hcard := (Classes.represents_ofEdges hn hedges).card_labelSet
  have hmerges : (Classes.ofEdges edges).merges ≤ n := by omega
  exact Nat.sub_add_cancel hmerges

theorem weakComponents_of_le (hnm : n ≤ m) (hm : m ≤ UInt64.size)
    (hedges : ∀ e ∈ edges, e.src.toNat < n ∧ e.dst.toNat < n) :
    weakComponents m edges = weakComponents n edges + (m - n) := by
  have hsmall := weakComponents_add_merges (hnm.trans hm) hedges
  have hlarge := weakComponents_add_merges hm (forall_ends_lt_of_le hnm hedges)
  omega

theorem connection_castLE_iff (hnm : n ≤ m) (hm : m ≤ UInt64.size)
    (hedges : ∀ e ∈ edges, e.src.toNat < n ∧ e.dst.toNat < n) {v w : Fin n} :
    connection m edges (v.castLE hnm) (w.castLE hnm) ↔ connection n edges v w := by
  rw [connection_iff hm (forall_ends_lt_of_le hnm hedges), connection_iff (hnm.trans hm) hedges,
    Fin.val_castLE, Fin.val_castLE]

/-- A vertex that is added is connected to no other: the edges keep the vertices apart that were not
there before, and throw no two of them together. -/
theorem eq_of_connection_of_le (hedges : ∀ e ∈ edges, e.src.toNat < n ∧ e.dst.toNat < n)
    {v w : Fin m} (hv : n ≤ v) (h : connection m edges v w) : w = v := by
  have hle : connection m edges
      ≤ Setoid.ker fun i : Fin m ↦ if n ≤ i.val then some i else none := by
    apply connection_le
    intro e he i j hi hj
    have hsrc : ¬ n ≤ i.val := Nat.not_le.mpr (hi ▸ (hedges e he).1)
    have hdst : ¬ n ≤ j.val := Nat.not_le.mpr (hj ▸ (hedges e he).2)
    rw [Setoid.ker_def, if_neg hsrc, if_neg hdst]
  have hsame := hle h
  rw [Setoid.ker_def, if_pos hv] at hsame
  split_ifs at hsame with hw
  exact (Option.some.inj hsame).symm

/-! ## Summaries -/

namespace Summary

/-- The summary of a graph to which `k` vertices without edges are added. -/
def withIsolated (s : Summary) (k : ℕ) : Summary :=
  { s with nodes := s.nodes + k, weakComponents := s.weakComponents + k }

/-- **Vertices that are added are isolated.** -/
theorem ofEdges_withIsolated {s : Summary} (h : ofEdges n edges = .ok s) (hnm : n ≤ m)
    (hm : m < 2 ^ 32 - 1) : ofEdges m edges = .ok (s.withIsolated (m - n)) := by
  obtain ⟨-, hwithin, rfl⟩ := ofEdges_eq_ok_iff.mp h
  have hedges : ∀ e ∈ edges, e.src.toNat < n ∧ e.dst.toNat < n :=
    fun e he ↦ Edge.within_iff.mp (hwithin e he)
  have hmore : ∀ e ∈ edges, e.within m = true :=
    fun e he ↦ Edge.within_iff.mpr (forall_ends_lt_of_le hnm hedges e he)
  have hcomponents := weakComponents_of_le hnm (hm.le.trans (by decide)) hedges
  refine ofEdges_eq_ok_iff.mpr ⟨hm, hmore, ?_⟩
  rw [hcomponents, withIsolated, Nat.add_sub_cancel' hnm]

end Summary

/-! ## Inspected files -/

section Inspect

variable {d : Directory} {s : InspectSettings}

theorem perform_inspectProgram_start {logVariable : Option (List UInt8)} {format : LogFormat}
    {words : List OsText} {result : Option (Except CommandFailure Summary)}
    (hformat : LogFormat.Asked logVariable format) (hparse : inspectGrammar.parse words = .ok s)
    (htask : d.perform s.task = (result, d)) :
    d.perform (inspectProgram.start logVariable words)
      = (⟨.ofResult (result.map (·.map fun summary ↦ summary.text ++ "\n")), some format, []⟩,
        d) := by
  have hprogram : d.perform (inspectProgram.task s)
      = (result.map (·.map fun summary ↦ summary.text ++ "\n"), d) := by
    rw [inspectProgram, d.perform_map, htask]
  rw [inspectProgram.perform_start_of_settings hformat hparse, hprogram]
  rfl

end Inspect

namespace Summary

theorem exists_ofEdges_eq_ok_iff_ends (hn : (vertexBound edges).toNat ≤ n) (hm : n < 2 ^ 32 - 1) :
    (∃ s, ofEdges n edges = .ok s)
      ↔ ∀ e ∈ edges, e.src.toNat < 2 ^ 64 - 1 ∧ e.dst.toNat < 2 ^ 64 - 1 := by
  constructor
  · rintro ⟨s, hs⟩
    obtain ⟨hnodes, hwithin, -⟩ := ofEdges_eq_ok_iff.mp hs
    have hedges : ∀ e ∈ edges, e.src.toNat < n ∧ e.dst.toNat < n :=
      fun e he ↦ Edge.within_iff.mp (hwithin e he)
    exact forall_ends_lt_of_le (by omega) hedges
  · intro hbelow
    rw [toNat_vertexBound hbelow] at hn
    exact exists_ofEdges_eq_ok_iff.mpr ⟨hn, hm⟩

theorem exists_rejected_of_last (hn : (vertexBound edges).toNat ≤ n) (hm : n < 2 ^ 32 - 1)
    (hlast : ∃ e ∈ edges, e.src.toNat = 2 ^ 64 - 1 ∨ e.dst.toNat = 2 ^ 64 - 1) :
    ∃ fault, ofEdges n edges = .error (.rejected fault) ∧ fault.parameter = "edges" := by
  rcases exists_refusal_or_ok n edges with ⟨failure, hrefusal⟩ | hok
  · rcases hrefusal with hlarge | ⟨-, hsplit, hbefore, he⟩
    · omega
    · have houtside := Refusal.outside hm hsplit hbefore he
      exact ⟨_, ofEdges_of_refusal houtside, houtside.parameter_eq⟩
  · obtain ⟨e, he, hend⟩ := hlast
    have hbelow := (exists_ofEdges_eq_ok_iff_ends hn hm).mp hok e he
    omega

/-- **More vertices are isolated ones**, from the bound of the edges on, as words work it out, and
if it is not an edge that ends at the last word which keeps it that small. If there is such an edge,
then it is outside of all these graphs, and there is no summary. Otherwise a graph of more vertices
has the same counts of edges and the same largest degrees, and it has as many vertices and as many
components more as were added. The vertices that were there before are connected as they were, and
each of the others is connected to itself alone. Whether the graph can be built for its summary does
not depend on the vertices either. So the program that inspects a file ends with the same summary
when it is given a number of vertices as when it is not, but for the isolated vertices that were
added; with too many edges it is broken off both times. -/
theorem more_vertices_are_isolated {n m : ℕ} {edges : List Edge}
    (hn : (vertexBound edges).toNat ≤ n) (hnm : n ≤ m) (hm : m < 2 ^ 32 - 1) :
    ((∃ e ∈ edges, e.src.toNat = 2 ^ 64 - 1 ∨ e.dst.toNat = 2 ^ 64 - 1) →
        ∃ fault fault', ofEdges n edges = .error (.rejected fault)
          ∧ ofEdges m edges = .error (.rejected fault')
          ∧ fault.parameter = "edges" ∧ fault'.parameter = "edges")
      ∧ ((∀ e ∈ edges, e.src.toNat < 2 ^ 64 - 1 ∧ e.dst.toNat < 2 ^ 64 - 1) →
        (vertexBound edges).toNat = neededVertices edges
        ∧ (∃ s t, ofEdges n edges = .ok s ∧ ofEdges m edges = .ok t
          ∧ t.edges = s.edges ∧ t.selfLoops = s.selfLoops ∧ t.distinctEdges = s.distinctEdges
          ∧ t.maxOutDegree = s.maxOutDegree ∧ t.maxInDegree = s.maxInDegree
          ∧ t.nodes = s.nodes + (m - n) ∧ t.weakComponents = s.weakComponents + (m - n))
        ∧ (∀ v w : Fin n, connection m edges (v.castLE hnm) (w.castLE hnm)
          ↔ connection n edges v w)
        ∧ (∀ v w : Fin m, n ≤ v → connection m edges v w → w = v)
        ∧ summarise? m edges
          = (summarise? n edges).map (·.map fun s ↦ s.withIsolated (m - n))
        ∧ (∀ {γ : Type u} (b : GraphBuilder γ), b.IsIndexed → b.summarise? m edges
          = (b.summarise? n edges).map (·.map fun s ↦ s.withIsolated (m - n)))
        ∧ ∀ (d : Directory) (path : OsText) (nodes : UInt64), nodes.toNat = m →
          d.loadEdges .whole path = .ok edges →
          ∃ s, ofEdges (vertexBound edges).toNat edges = .ok s
            ∧ (edges.length ≤ 2 ^ 32 - 1 →
              d.perform (InspectSettings.task ⟨path, none⟩) = (some (.ok s), d)
              ∧ d.perform (InspectSettings.task ⟨path, some nodes⟩)
                = (some (.ok (s.withIsolated (m - (vertexBound edges).toNat))), d)
              ∧ ∀ logVariable format words words', LogFormat.Asked logVariable format →
                inspectGrammar.parse words = .ok ⟨path, none⟩ →
                inspectGrammar.parse words' = .ok ⟨path, some nodes⟩ →
                  d.perform (inspectProgram.start logVariable words)
                    = (⟨.finished (s.text ++ "\n"), some format, []⟩, d)
                  ∧ d.perform (inspectProgram.start logVariable words')
                    = (⟨.finished
                        ((s.withIsolated (m - (vertexBound edges).toNat)).text ++ "\n"),
                      some format, []⟩, d))
            ∧ (2 ^ 32 - 1 < edges.length →
              d.perform (InspectSettings.task ⟨path, none⟩) = (none, d)
              ∧ d.perform (InspectSettings.task ⟨path, some nodes⟩) = (none, d))) := by
  refine ⟨fun hlast ↦ ?_, fun hbelow ↦ ?_⟩
  · obtain ⟨fault, hfault, hname⟩ := exists_rejected_of_last hn (hnm.trans_lt hm) hlast
    obtain ⟨fault', hfault', hname'⟩ := exists_rejected_of_last (hn.trans hnm) hm hlast
    exact ⟨fault, fault', hfault, hfault', hname, hname'⟩
  have hbound : (vertexBound edges).toNat = neededVertices edges := toNat_vertexBound hbelow
  have hsize : m ≤ UInt64.size := hm.le.trans (by decide)
  obtain ⟨s, hs⟩ := (exists_ofEdges_eq_ok_iff_ends hn (hnm.trans_lt hm)).mpr hbelow
  have ht := ofEdges_withIsolated hs hnm hm
  have hedges : ∀ e ∈ edges, e.src.toNat < n ∧ e.dst.toNat < n :=
    neededVertices_le_iff.mp (hbound ▸ hn)
  have hbuilt {γ : Type u} (b : GraphBuilder γ) (hb : b.IsIndexed) :
      b.summarise? m edges = (b.summarise? n edges).map (·.map fun s ↦ s.withIsolated (m - n)) :=
    GraphBuilder.summarise?_eq_map hb hs ht rfl
  refine ⟨hbound, ⟨s, _, hs, ht, rfl, rfl, rfl, rfl, rfl, rfl, rfl⟩,
    fun v w ↦ connection_castLE_iff hnm hsize hedges,
    fun v w hv ↦ eq_of_connection_of_le hedges hv, ?_, hbuilt, ?_⟩
  · rw [summarise?_of_ok hs, summarise?_of_ok ht]
    split_ifs
    · rfl
    · rfl
  rintro d path nodes rfl hload
  have hle : (vertexBound edges).toNat ≤ nodes.toNat := hn.trans hnm
  obtain ⟨least, hleast⟩ :=
    (exists_ofEdges_eq_ok_iff_ends (Nat.le_refl _) (hle.trans_lt hm)).mpr hbelow
  have hmore := ofEdges_withIsolated hleast hle hm
  have hrun := InspectSettings.perform_task_of_ofEdges (s := ⟨path, none⟩) hload hleast
  have hrun' := InspectSettings.perform_task_of_ofEdges (s := ⟨path, some nodes⟩) hload hmore
  refine ⟨least, hleast, fun hfit ↦ ?_, fun hmany ↦ ?_⟩
  · have hroom : edges.length ≤ indexLimit := hfit
    rw [if_pos hroom] at hrun hrun'
    refine ⟨hrun, hrun', ?_⟩
    intro logVariable format words words' hformat hparse hparse'
    exact ⟨perform_inspectProgram_start hformat hparse hrun,
      perform_inspectProgram_start hformat hparse' hrun'⟩
  · have hfull : ¬ edges.length ≤ indexLimit := Nat.not_le.mpr hmany
    rw [if_neg hfull] at hrun hrun'
    exact ⟨hrun, hrun'⟩

/-- An edge and a loop need four vertices. With seven there are three components more. -/
theorem more_vertices_are_isolated_for_seven :
    (vertexBound [⟨0, 1⟩, ⟨3, 3⟩]).toNat ≤ 4 ∧ 4 ≤ 7 ∧ 7 < 2 ^ 32 - 1
      ∧ (∃ s t, ofEdges 4 [⟨0, 1⟩, ⟨3, 3⟩] = .ok s ∧ ofEdges 7 [⟨0, 1⟩, ⟨3, 3⟩] = .ok t
        ∧ t.maxOutDegree = s.maxOutDegree ∧ t.weakComponents = s.weakComponents + 3)
      ∧ ∃ (d : Directory) (s : Summary),
        d.loadEdges .whole "graph.txt" = .ok [⟨0, 1⟩, ⟨3, 3⟩]
        ∧ d.perform (inspectProgram.start none ["graph.txt"])
          = (⟨.finished (s.text ++ "\n"), some .human, []⟩, d)
        ∧ d.perform (inspectProgram.start none ["graph.txt", "--nodes", "7"])
          = (⟨.finished ((s.withIsolated 3).text ++ "\n"), some .human, []⟩, d) := by
  have hbound : vertexBound [⟨0, 1⟩, ⟨3, 3⟩] = 4 := by decide
  have hle : (vertexBound [⟨0, 1⟩, ⟨3, 3⟩]).toNat ≤ 4 := by decide
  have hlimit : 7 < 2 ^ 32 - 1 := by decide
  have hbelow : ∀ e ∈ [⟨0, 1⟩, (⟨3, 3⟩ : Edge)],
      e.src.toNat < 2 ^ 64 - 1 ∧ e.dst.toNat < 2 ^ 64 - 1 := by decide
  have hload := Directory.loadEdges_put GenerateSettings.onePair_locateOutput [⟨0, 1⟩, ⟨3, 3⟩]
  obtain ⟨-, hisolated⟩ := more_vertices_are_isolated.{0} hle (by decide : 4 ≤ 7) hlimit
  obtain ⟨-, ⟨s, t, hs, ht, -, -, -, hout, -, -, hcomponents⟩, -, -, -, -, hinspect⟩ :=
    hisolated hbelow
  obtain ⟨least, -, hfits, -⟩ := hinspect _ "graph.txt" 7 rfl hload
  obtain ⟨-, -, hruns⟩ := hfits (by decide)
  obtain ⟨hrun, hrun'⟩ := hruns none .human ["graph.txt"] ["graph.txt", "--nodes", "7"] .unset
    (by decide +kernel) (by decide +kernel)
  rw [hbound] at hrun'
  exact ⟨hle, by decide, hlimit, ⟨s, t, hs, ht, hout, hcomponents⟩, _, least, hload, hrun, hrun'⟩

/-- An edge that ends at the last word needs no vertex if words are to say so, and is outside of
every graph. -/
theorem more_vertices_are_isolated_fails_at_last_word :
    (vertexBound [⟨18446744073709551615, 0⟩]).toNat ≤ 5 ∧ 5 < 2 ^ 32 - 1
      ∧ ofEdges 5 [⟨18446744073709551615, 0⟩]
        = .error (.rejected (.edgeOutside ⟨18446744073709551615, 0⟩ 5))
      ∧ ¬ ∃ s, ofEdges 5 [⟨18446744073709551615, 0⟩] = .ok s := by
  have hfailed : ofEdges 5 [⟨18446744073709551615, 0⟩]
      = .error (.rejected (.edgeOutside ⟨18446744073709551615, 0⟩ 5)) := by decide
  refine ⟨by decide, by decide, hfailed, ?_⟩
  rintro ⟨s, hok⟩
  rw [hfailed] at hok
  cases hok

end Summary

end RecursiveMatrix
