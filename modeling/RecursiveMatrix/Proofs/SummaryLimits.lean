import RecursiveMatrix.Proofs.EdgeCounts
import RecursiveMatrix.Proofs.Reports

/-!
# Graphs that are too large to be built

A summary is read off a graph that is built for it, vertex by vertex and edge by edge, by a builder
that numbers both with 32 bits (`GraphBuilder.IsIndexed`). A step that is out of numbers has no
result and takes the whole program with it. Whatever the builder, that happens exactly when
`Summary.summarise?` says so (`GraphBuilder.summarise?_eq_summarise?`).

The checks of the command see to the vertices, and to nothing else. So a run with a summary is
broken off after its file has been written exactly if the graph has `2 ^ 32` edges or more
(`GenerateSettings.perform_task_unbroken_iff`), which the edge factor allows from scale 17 on. The
standard edge factor does so at scale 28 (`GenerateSettings.perform_task_broken_at_28`).

The number of edges of the builder is one more with every step, so a builder that starts without
edges runs out of numbers exactly if the list of edges is longer than there are numbers. That is the
induction here (`GraphBuilder.addEdges?_eq_none_iff`); everything after it is arithmetic.
-/

namespace RecursiveMatrix

-- Powers are those of `Nat.pow`, whatever other instances are in scope.
attribute [local instance (high)] instPowNat

universe u

/-! ## Builders of graphs -/

/-- Something that builds graphs. A step without a result ends the program. -/
structure GraphBuilder (γ : Type u) where
  /-- The graph without vertices. -/
  empty : γ
  /-- The number of vertices. -/
  vertices : γ → ℕ
  /-- The number of edges. -/
  edges : γ → ℕ
  /-- Adds a vertex. -/
  addVertex? : γ → Option γ
  /-- Adds an edge. -/
  addEdge? : γ → Edge → Option γ

namespace GraphBuilder

variable {γ : Type u}

/-- The builder numbers vertices and edges with 32 bits. It refuses a vertex or an edge if there is
no number for it, and an edge as well if it has an end that is no vertex. -/
structure IsIndexed (b : GraphBuilder γ) : Prop where
  vertices_empty : b.vertices b.empty = 0
  edges_empty : b.edges b.empty = 0
  addVertex?_eq_none_iff : ∀ g, b.addVertex? g = none ↔ indexLimit ≤ b.vertices g
  counts_of_addVertex? : ∀ g g', b.addVertex? g = some g' →
    b.vertices g' = b.vertices g + 1 ∧ b.edges g' = b.edges g
  addEdge?_eq_none_iff : ∀ g e,
    b.addEdge? g e = none ↔ indexLimit ≤ b.edges g ∨ e.within (b.vertices g) = false
  counts_of_addEdge? : ∀ g e g', b.addEdge? g e = some g' →
    b.vertices g' = b.vertices g ∧ b.edges g' = b.edges g + 1

variable (b : GraphBuilder γ)

def addVertices? : ℕ → γ → Option γ
  | 0, g => some g
  | n + 1, g => do addVertices? n (← b.addVertex? g)

def addEdges? (g : γ) (edges : List Edge) : Option γ := edges.foldlM b.addEdge? g

/-- Builds the graph with vertices `0, …, nodes - 1`: all vertices first, then the edges in their
order. -/
def build? (nodes : ℕ) (edges : List Edge) : Option γ := do
  b.addEdges? (← b.addVertices? nodes b.empty) edges

/-- Summarises a graph, which is built once it has been checked. What is then read off it are the
numbers of the summary. -/
def summarise? (nodes : ℕ) (edges : List Edge) : Option (Except Failure Summary) :=
  match Summary.ofEdges nodes edges with
  | .error failure => some (.error failure)
  | .ok summary => (b.build? nodes edges).map fun _ ↦ .ok summary

variable {b}

theorem exists_addVertices? (hb : b.IsIndexed) {n : ℕ} {g : γ} (h : b.vertices g + n ≤ indexLimit) :
    ∃ g', b.addVertices? n g = some g' ∧ b.vertices g' = b.vertices g + n
      ∧ b.edges g' = b.edges g := by
  induction n generalizing g with
  | zero => exact ⟨g, rfl, rfl, rfl⟩
  | succ n ih =>
    have hroom : ¬ b.addVertex? g = none := fun hnone ↦ by
      have hfull := (hb.addVertex?_eq_none_iff g).mp hnone
      omega
    obtain ⟨g₁, hfirst⟩ := Option.ne_none_iff_exists'.mp hroom
    obtain ⟨hvertices₁, hedges₁⟩ := hb.counts_of_addVertex? g g₁ hfirst
    have hrest : b.vertices g₁ + n ≤ indexLimit := by omega
    obtain ⟨g', hg', hvertices, hedges⟩ := ih hrest
    refine ⟨g', ?_, by omega, hedges.trans hedges₁⟩
    rw [addVertices?, hfirst]
    exact hg'

/-- The edges that are already there count as well. -/
theorem addEdges?_eq_none_iff (hb : b.IsIndexed) {edges : List Edge} {g : γ}
    (hlimit : b.edges g ≤ indexLimit) (hwithin : ∀ e ∈ edges, e.within (b.vertices g) = true) :
    b.addEdges? g edges = none ↔ indexLimit < b.edges g + edges.length := by
  induction edges generalizing g with
  | nil => simpa [addEdges?] using hlimit
  | cons e edges ih =>
    have hinside : ¬ e.within (b.vertices g) = false := by simp [hwithin e List.mem_cons_self]
    have hstep := (hb.addEdge?_eq_none_iff g e).trans (or_iff_left hinside)
    rw [addEdges?, List.foldlM_cons, List.length_cons]
    -- The sum on the right is the same after the step: one edge more there, one fewer to come.
    rcases hfirst : b.addEdge? g e with _ | g₁
    · have hfull := hstep.mp hfirst
      exact iff_of_true rfl (by omega)
    · obtain ⟨hvertices, hedges⟩ := hb.counts_of_addEdge? g e g₁ hfirst
      have hroom : ¬ indexLimit ≤ b.edges g := fun hfull ↦ by
        rw [hstep.mpr hfull] at hfirst
        cases hfirst
      have hrest : ∀ e ∈ edges, e.within (b.vertices g₁) = true := by
        rw [hvertices]
        exact fun e he ↦ hwithin e (List.mem_cons_of_mem _ he)
      have hlater := ih (by omega) hrest
      rw [hedges, Nat.add_right_comm, Nat.add_assoc] at hlater
      exact hlater

/-- **A graph can be built exactly if there is a number for every edge**, as long as there is one
for every vertex. -/
theorem build?_eq_none_iff (hb : b.IsIndexed) {nodes : ℕ} {edges : List Edge}
    (hnodes : nodes ≤ indexLimit) (hwithin : ∀ e ∈ edges, e.within nodes = true) :
    b.build? nodes edges = none ↔ indexLimit < edges.length := by
  have hroom : b.vertices b.empty + nodes ≤ indexLimit := by rwa [hb.vertices_empty, Nat.zero_add]
  obtain ⟨g, hg, hvertices, hedges⟩ := exists_addVertices? hb hroom
  rw [hb.vertices_empty, Nat.zero_add] at hvertices
  rw [hb.edges_empty] at hedges
  have hiff : b.addEdges? g edges = none ↔ indexLimit < b.edges g + edges.length :=
    addEdges?_eq_none_iff hb (by omega) (hvertices.symm ▸ hwithin)
  rw [hedges, Nat.zero_add] at hiff
  rw [build?, hg]
  exact hiff

/-- **Every builder makes the same summaries**, and is out of numbers for the same graphs. -/
theorem summarise?_eq_summarise? (hb : b.IsIndexed) (nodes : ℕ) (edges : List Edge) :
    b.summarise? nodes edges = Summary.summarise? nodes edges := by
  rcases hresult : Summary.ofEdges nodes edges with failure | summary
  · rw [summarise?, Summary.summarise?, hresult]
  · obtain ⟨hnodes, hwithin, -⟩ := Summary.ofEdges_eq_ok_iff.mp hresult
    have hiff := build?_eq_none_iff hb (Nat.le_of_lt hnodes) hwithin
    rw [summarise?, Summary.summarise?_of_ok hresult, hresult]
    split_ifs with hfit
    · obtain ⟨g, hg⟩ := Option.ne_none_iff_exists'.mp (mt hiff.mp (Nat.not_lt.mpr hfit))
      simp only [hg, Option.map_some]
    · simp only [hiff.mpr (Nat.not_le.mp hfit), Option.map_none]

/-- Graphs with equally many edges are built alike, so what one summary says of another one is said
of the built graphs as well. -/
theorem summarise?_eq_map (hb : b.IsIndexed) {n m : ℕ} {edges others : List Edge} {s : Summary}
    {f : Summary → Summary} (h : Summary.ofEdges n edges = .ok s)
    (h' : Summary.ofEdges m others = .ok (f s)) (hlength : others.length = edges.length) :
    b.summarise? m others = (b.summarise? n edges).map (·.map f) := by
  rw [summarise?_eq_summarise? hb, summarise?_eq_summarise? hb, Summary.summarise?_of_ok h,
    Summary.summarise?_of_ok h', hlength]
  split_ifs
  · rfl
  · rfl

/-! ### A builder -/

/-- Keeps the number of vertices and the edges, the last one first. -/
def listing : GraphBuilder (ℕ × List Edge) where
  empty := (0, [])
  vertices g := g.1
  edges g := g.2.length
  addVertex? g := if g.1 < indexLimit then some (g.1 + 1, g.2) else none
  addEdge? g e :=
    if g.2.length < indexLimit ∧ e.within g.1 = true then some (g.1, e :: g.2) else none

theorem listing_isIndexed : listing.IsIndexed where
  vertices_empty := rfl
  edges_empty := rfl
  addVertex?_eq_none_iff g := by simp [listing]
  counts_of_addVertex? g g' h := by
    obtain ⟨-, rfl⟩ : _ ∧ (g.1 + 1, g.2) = g' := by simpa [listing] using h
    exact ⟨rfl, rfl⟩
  addEdge?_eq_none_iff g e := by
    simp only [listing, ite_eq_right_iff, reduceCtorEq, imp_false, not_and_or, Nat.not_lt,
      Bool.not_eq_true]
  counts_of_addEdge? g e g' h := by
    obtain ⟨-, rfl⟩ : _ ∧ (g.1, e :: g.2) = g' := by simpa [listing] using h
    exact ⟨rfl, rfl⟩

end GraphBuilder

namespace GenerateSettings

variable {s : GenerateSettings} {size : GraphSize} {p : Probabilities}

/-! ## Runs with a summary -/

theorem Accepted.edgeCount_le_indexLimit_iff (h : s.Accepted size p) (hsummary : s.summary = true) :
    size.edgeCount.toNat ≤ indexLimit
      ↔ s.scale.toNat ≤ 16 ∨ s.edgeFactor.toNat < 2 ^ (32 - s.scale.toNat) := by
  have hscale : s.scale.toNat ≤ 32 := by
    have hnodes : 2 ^ s.scale.toNat < 2 ^ 32 :=
      (h.nodes_lt hsummary).trans_le (Nat.sub_le _ _)
    exact Nat.le_of_lt ((Nat.pow_lt_pow_iff_right Nat.one_lt_two).mp hnodes)
  have hiff : size.edgeCount.toNat < 2 ^ 32
      ↔ 2 * s.scale.toNat ≤ 32 + 1 ∨ s.edgeFactor.toNat < 2 ^ (32 - s.scale.toNat) := by
    rw [GraphSize.edgeCount_of_ofScale h.size_eq]
    exact cappedEdgeCount_lt_two_pow_iff hscale
  have hlimit : size.edgeCount.toNat ≤ indexLimit ↔ size.edgeCount.toNat < 2 ^ 32 :=
    Nat.le_sub_one_iff_lt (by decide)
  have hpairs : 2 * s.scale.toNat ≤ 32 + 1 ↔ s.scale.toNat ≤ 16 := by omega
  rw [hlimit, hiff, hpairs]

theorem Accepted.perform_task_eq_none (h : s.Accepted size p) (hsummary : s.summary = true)
    {d d' : Directory} {supply : EdgeSupply} {written : ℕ}
    (hsupply : s.supply? (.ofSize size p) = some (.ok supply))
    (hsave : d.saveEdges s.output supply = .ok (written, d'))
    (hmany : indexLimit < size.edgeCount.toNat) : (d.perform s.task).1 = none := by
  rw [h.perform_task_of_saved hsupply hsave]
  exact (h.report_eq_none_iff (supply?_eq_some_iff.mp hsupply).2 written).mpr ⟨hsummary, hmany⟩

/-- **A run with a summary comes to its end exactly if the edges can be numbered**, which the checks
do not see to. All vertices can be numbered once the checks have passed. All edges can if the scale
is at most 16 or the edge factor is small enough, and then no run is broken off. Otherwise every run
is that does not fail, and the edges are in the file if they could be saved. That is what any
builder of the graph comes to. -/
theorem perform_task_unbroken_iff (h : s.Accepted size p) (hsummary : s.summary = true) :
    size.nodeCount.toNat ≤ 2 ^ 32 - 1
      ∧ (size.edgeCount.toNat ≤ 2 ^ 32 - 1
        ↔ s.scale.toNat ≤ 16 ∨ s.edgeFactor.toNat < 2 ^ (32 - s.scale.toNat))
      ∧ (size.edgeCount.toNat ≤ 2 ^ 32 - 1 → ∀ d : Directory, (d.perform s.task).1 ≠ none)
      ∧ (2 ^ 32 - 1 < size.edgeCount.toNat → ∀ d : Directory,
        (d.perform s.task).1 = none ∨ ∃ failure, d.perform s.task = (some (.error failure), d))
      ∧ (∀ (d d' : Directory) (supply : EdgeSupply) (written : ℕ),
        s.supply? (.ofSize size p) = some (.ok supply) →
        d.saveEdges s.output supply = .ok (written, d') →
          ((d.perform s.task).1 = none ↔ 2 ^ 32 - 1 < size.edgeCount.toNat)
            ∧ (d.perform s.task).2 = d')
      ∧ ∀ {γ : Type u} (b : GraphBuilder γ), b.IsIndexed → ∀ edges : List Edge,
        b.summarise? size.nodeCount.toNat edges
          = Summary.summarise? size.nodeCount.toNat edges := by
  have hnodes : size.nodeCount.toNat = 2 ^ s.scale.toNat := h.nodeCount_eq
  refine ⟨?_, h.edgeCount_le_indexLimit_iff hsummary, ?_, ?_, ?_,
    fun b hb edges ↦ GraphBuilder.summarise?_eq_summarise? hb _ edges⟩
  · rw [hnodes]
    exact Nat.le_of_lt (h.nodes_lt hsummary)
  · intro hfit d
    have hlist : (Generator.ofSize size p).edgeCount.toNat ≤ listLimit :=
      Nat.le_trans hfit (by decide)
    rw [ne_eq, h.perform_task_eq_none_iff (fun _ ↦ hfit), overfull_eq_false hlist]
    exact Bool.false_ne_true
  · intro hmany d
    rcases hsupply : s.supply? (.ofSize size p) with _ | failure | supply
    · exact .inl (congrArg Prod.fst (h.perform_task_of_overfull (supply?_eq_none_iff.mp hsupply) d))
    · exact .inr ⟨failure, h.perform_task_of_supply_error hsupply d⟩
    · rcases hsave : d.saveEdges s.output supply with failure | ⟨written, d'⟩
      · exact .inr ⟨failure, h.perform_task_of_unsaved hsupply hsave⟩
      · exact .inl (h.perform_task_eq_none hsummary hsupply hsave hmany)
  · intro d d' supply written hsupply hsave
    rw [h.perform_task_of_saved hsupply hsave]
    have hiff := h.report_eq_none_iff (supply?_eq_some_iff.mp hsupply).2 written
    exact ⟨hiff.trans (and_iff_right hsummary), rfl⟩

/-- One edge can be numbered. -/
theorem perform_task_unbroken_iff_for_onePair :
    onePair.Accepted ⟨1, 1, by decide, by decide⟩ ⟨0.25, 0.25, 0.25, 0.25⟩
      ∧ onePair.summary = true ∧ ((Directory.empty 1).perform onePair.task).1 ≠ none := by
  obtain ⟨-, -, hunbroken, -⟩ := perform_task_unbroken_iff.{0} onePair_accepted rfl
  exact ⟨onePair_accepted, rfl, hunbroken (by decide) (Directory.empty 1)⟩

/-- The first scale at which the standard edge factor asks for more edges than can be numbered. -/
def scale28 : GenerateSettings :=
  { generateGrammar.initial with output := "graph.txt", scale := 28, summary := true }

theorem scale28_accepted :
    scale28.Accepted ⟨28, 16, by decide, by decide⟩
      ⟨scale28.a, scale28.b, scale28.c,
        Probabilities.remainder scale28.a scale28.b scale28.c⟩ where
  size_eq := by decide
  probabilities_eq := by decide +kernel
  workers_pos := by decide
  workers_le := by decide
  workers_eq_one _ := by decide
  nodes_lt _ := by decide

/-- All checks pass, the vertices can be numbered, and the run is broken off once the edges are in
the file. -/
theorem perform_task_broken_at_28 :
    generateGrammar.parse ["graph.txt", "28", "--summary"] = .ok scale28
      ∧ (∃ size p, scale28.Accepted size p ∧ size.nodeCount.toNat = 2 ^ 28
        ∧ size.edgeCount.toNat = 2 ^ 32)
      ∧ ((Directory.empty 1).perform scale28.task).1 = none
      ∧ ∃ edges, ((Directory.empty 1).perform scale28.task).2.loadEdges .whole scale28.output
          = .ok edges
        ∧ edges.length = 2 ^ 32 := by
  have hfile : (Directory.empty 1).locateOutput scale28.output = .ok (.file "graph.txt") :=
    onePair_locateOutput
  have hedges := scale28_accepted.supply_eq_partitions rfl
  have hsupply := supply?_eq_some_iff.mpr ⟨overfull_eq_false (by decide), hedges⟩
  have hsave := Directory.saveEdges_file (d := .empty 1) hfile
  have hbroken := scale28_accepted.perform_task_eq_none rfl hsupply (hsave _) (by decide)
  refine ⟨by decide +kernel, ⟨_, _, scale28_accepted, by decide, by decide⟩, hbroken, ?_⟩
  · rw [scale28_accepted.perform_task_of_saved hsupply (hsave _)]
    refine ⟨_, Directory.loadEdges_put hfile _, ?_⟩
    rw [scale28_accepted.length_supply hedges]
    decide

end GenerateSettings

end RecursiveMatrix
