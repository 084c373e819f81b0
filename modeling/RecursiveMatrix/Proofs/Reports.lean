import RecursiveMatrix.Command.Inspect
import RecursiveMatrix.Proofs.Refusals
import RecursiveMatrix.Proofs.SavedFiles

/-!
# What the command leaves behind

A run that succeeds leaves an edge list in a file and a report. This file says that the two agree
(`GenerateSettings.report_agrees_with_file`): the edges in the file are as many as reported and as
the size of the graph asks for, and the summary in the report is the one that inspecting the file
gives. Whether a summary is asked for changes nothing else
(`GenerateSettings.summary_changes_only_report`).

There are three ways to supply edges, and two of them are one: edges that are placed while they are
saved are those of a single partition, so a graph that need not be simple is always the partitions
put together (`GenerateSettings.Accepted.supply_eq_partitions`).
-/

namespace RecursiveMatrix

-- Powers are those of `Nat.pow`, whatever other instances are in scope.
attribute [local instance (high)] instPowNat

theorem EdgeSupply.ext_edges {a b : EdgeSupply} (h : a.edges () = b.edges ()) : a = b := by
  obtain ⟨m, xs, rfl⟩ := a
  obtain ⟨n, ys, rfl⟩ := b
  obtain rfl : xs = ys := funext fun _ ↦ h
  rfl

namespace Generator

variable (g : Generator) (seed : UInt64)

theorem flatMap_partition_one :
    (List.range (1 : UInt64).toNat).flatMap (fun i ↦ g.partition seed 1 (.ofNat i))
      = (g.generate (Seeded.ofSeed seed)).1 := by
  rw [← partition_of_one_worker]
  exact List.append_nil _

/-- Edges placed while they are saved are those of a single partition. -/
theorem ofStream_edges_eq :
    EdgeSupply.ofStream (g.edges (Seeded.ofSeed seed))
      = .ofList ((List.range (1 : UInt64).toNat).flatMap
        fun i ↦ g.partition seed 1 (.ofNat i)) :=
  EdgeSupply.ext_edges (g.flatMap_partition_one seed).symm

end Generator

/-! ## Summaries of what was saved -/

theorem Summary.simple_of_ofEdges {nodes : ℕ} {edges : List Edge} {summary : Summary}
    (hloops : ∀ e ∈ edges, e.isLoop = false) (hnodup : edges.Nodup)
    (h : ofEdges nodes edges = .ok summary) :
    summary.selfLoops = 0 ∧ summary.distinctEdges = summary.edges := by
  obtain ⟨-, -, rfl⟩ := ofEdges_eq_ok_iff.mp h
  refine ⟨List.countP_eq_zero.mpr fun e he ↦ by simp [hloops e he], ?_⟩
  exact Std.HashSet.size_ofList (by simpa [List.Nodup] using hnodup)

theorem InspectSettings.perform_task_eq {d : Directory} {s : InspectSettings} {edges : List Edge}
    (hload : d.loadEdges .whole s.path = .ok edges) :
    d.perform s.task
      = ((Summary.summarise? (s.nodeCount edges).toNat edges).map (·.mapError .summarising),
        d) := by
  rw [task, Directory.perform, hload]

theorem InspectSettings.perform_task_of_some {d : Directory} {path : OsText} {nodes : UInt64}
    {edges : List Edge} (hload : d.loadEdges .whole path = .ok edges) :
    d.perform (InspectSettings.task ⟨path, some nodes⟩)
      = ((Summary.summarise? nodes.toNat edges).map (·.mapError .summarising), d) :=
  perform_task_eq hload

theorem InspectSettings.perform_task_of_none {d : Directory} {path : OsText}
    {edges : List Edge} (hload : d.loadEdges .whole path = .ok edges) :
    d.perform (InspectSettings.task ⟨path, none⟩)
      = ((Summary.summarise? (vertexBound edges).toNat edges).map (·.mapError .summarising), d) :=
  perform_task_eq hload

theorem InspectSettings.perform_task_of_ofEdges {d : Directory} {s : InspectSettings}
    {edges : List Edge} {summary : Summary} (hload : d.loadEdges .whole s.path = .ok edges)
    (h : Summary.ofEdges (s.nodeCount edges).toNat edges = .ok summary) :
    d.perform s.task
      = (if edges.length ≤ indexLimit then some (.ok summary) else none, d) := by
  rw [perform_task_eq hload, Summary.summarise?_of_ok h]
  split_ifs
  · rfl
  · rfl

namespace GenerateSettings

variable {s : GenerateSettings} {size : GraphSize} {p : Probabilities} {supply : EdgeSupply}

/-! ## The edges supplied -/

theorem overfull_eq_false {g : Generator} (h : g.edgeCount.toNat ≤ listLimit) :
    s.overfull g = false := by
  rw [overfull, decide_eq_false (Nat.not_lt.mpr h), Bool.false_and]

namespace Accepted

/-- Edges that need not be distinct are those of all partitions. -/
theorem supply_eq_partitions (h : s.Accepted size p) (hsimple : s.simple = false) :
    s.supply (.ofSize size p)
      = .ok (.ofList ((List.range s.workers.toNat).flatMap fun i ↦
        (Generator.ofSize size p).partition s.seed s.workers (.ofNat i))) := by
  rw [GenerateSettings.supply, if_neg (by simp [hsimple])]
  split_ifs with hmode
  · rw [Generator.generatePartitioned_eq_ok _ _ h.checkWorkers_eq]
    rfl
  · have hone : s.workers = 1 := by
      obtain ⟨hworkers, -⟩ : ¬ 1 < s.workers ∧ ¬ s.summary = true := by simpa using hmode
      have hle : s.workers.toNat ≤ 1 := Nat.not_lt.mp fun h ↦
        hworkers (UInt64.lt_iff_toNat_lt.mpr h)
      exact UInt64.toNat_inj.mp (Nat.le_antisymm hle h.workers_pos)
    rw [hone, Generator.ofStream_edges_eq]

theorem exists_of_supply_simple (hsimple : s.simple = true) {g : Generator}
    (hsupply : s.supply g = .ok supply) :
    ∃ n, supply.edges () = simpleEdges ((g.stream (Seeded.ofSeed s.seed)).take n)
      ∧ distinctAfter (g.stream (Seeded.ofSeed s.seed)) n = g.edgeCount.toNat := by
  rw [GenerateSettings.supply, if_pos hsimple] at hsupply
  obtain ⟨edges, hedges, rfl⟩ := Except.map_eq_ok_iff.mp hsupply
  obtain ⟨n, hn, hreached, -⟩ := Generator.exists_of_generateSimple_ok hedges
  exact ⟨n, hn, hreached⟩

theorem length_supply (h : s.Accepted size p)
    (hsupply : s.supply (.ofSize size p) = .ok supply) :
    (supply.edges ()).length = (Generator.ofSize size p).edgeCount.toNat := by
  rcases Bool.eq_false_or_eq_true s.simple with hsimple | hsimple
  · obtain ⟨n, hn, hreached⟩ := exists_of_supply_simple hsimple hsupply
    rw [hn, length_simpleEdges_take, hreached]
  · rw [h.supply_eq_partitions hsimple] at hsupply
    rw [← Except.ok.inj hsupply]
    exact Generator.length_flatMap_partition _ _ _ h.workers_pos

theorem edgeCount_eq (h : s.Accepted size p) :
    (Generator.ofSize size p).edgeCount.toNat
      = min (2 ^ s.scale.toNat * s.edgeFactor.toNat)
        (2 ^ s.scale.toNat * (2 ^ s.scale.toNat - 1) / 2) := by
  have hcount : (Generator.ofSize size p).edgeCount.toNat
      = cappedEdgeCount size.scale.toNat size.edgeFactor.toNat := size.edgeCount_toNat
  rw [hcount, GraphSize.scale_of_ofScale h.size_eq, GraphSize.edgeFactor_of_ofScale h.size_eq,
    cappedEdgeCount]

end Accepted

/-! ## Runs that are broken off -/

namespace Accepted

variable {d : Directory}

theorem perform_task_of_unsaved (h : s.Accepted size p) {failure : Failure}
    (hsupply : s.supply? (.ofSize size p) = some (.ok supply))
    (hsave : d.saveEdges s.output supply = .error failure) :
    d.perform s.task = (some (.error failure), d) := by
  rw [h.perform_task_of_supply_ok hsupply, hsave]

theorem perform_task_of_saved (h : s.Accepted size p) {written : ℕ} {d' : Directory}
    (hsupply : s.supply? (.ofSize size p) = some (.ok supply))
    (hsave : d.saveEdges s.output supply = .ok (written, d')) :
    d.perform s.task = (s.report (.ofSize size p) supply written, d') := by
  rw [h.perform_task_of_supply_ok hsupply, hsave]

/-- Once the edges have been saved, their number decides. -/
theorem report_eq_none_iff (h : s.Accepted size p)
    (hsupply : s.supply (.ofSize size p) = .ok supply) (written : ℕ) :
    s.report (.ofSize size p) supply written = none
      ↔ s.summary = true ∧ indexLimit < size.edgeCount.toNat := by
  have hcount : supply.count = size.edgeCount.toNat :=
    supply.length_edges.symm.trans (h.length_supply hsupply)
  rcases Bool.eq_false_or_eq_true s.summary with hsummary | hsummary
  · obtain ⟨summary, hok⟩ := h.exists_summary hsupply hsummary
    rw [report_summarised hsummary hok, hcount, hsummary]
    simp
  · rw [report_plain hsummary, hsummary]
    simp

/-- Unless there are too many edges for a summary, only a list that does not hold the edges breaks a
run off. -/
theorem perform_task_eq_none_iff (h : s.Accepted size p)
    (hfit : s.summary = true → size.edgeCount.toNat ≤ indexLimit) (d : Directory) :
    (d.perform s.task).1 = none ↔ s.overfull (.ofSize size p) = true := by
  rw [← supply?_eq_none_iff]
  rcases hsupply : s.supply? (.ofSize size p) with _ | failure | supply
  · rw [h.perform_task_of_overfull (supply?_eq_none_iff.mp hsupply)]
    exact iff_of_true rfl rfl
  · rw [h.perform_task_of_supply_error hsupply]
    simp
  · refine iff_of_false (fun hnone ↦ ?_) (Option.some_ne_none _)
    rcases hsave : d.saveEdges s.output supply with failure | ⟨written, d'⟩
    · rw [h.perform_task_of_unsaved hsupply hsave] at hnone
      cases hnone
    · rw [h.perform_task_of_saved hsupply hsave] at hnone
      obtain ⟨hsummary, hmany⟩ :=
        (h.report_eq_none_iff (supply?_eq_some_iff.mp hsupply).2 written).mp hnone
      exact absurd (hfit hsummary) (Nat.not_le.mpr hmany)

end Accepted

/-! ## Runs that succeed -/

theorem exists_of_report_ok {g : Generator} {written : ℕ} {report : GenerateReport}
    (h : s.report g supply written = some (.ok report)) :
    ∃ summary?, report = ⟨s.output, g.nodeCount.toNat, written, summary?⟩
      ∧ summary?.isSome = s.summary
      ∧ ∀ summary, summary? = some summary →
        Summary.summarise? g.nodeCount.toNat (supply.edges ()) = some (.ok summary) := by
  rcases Bool.eq_false_or_eq_true s.summary with hasked | hasked
  · rw [GenerateSettings.report, if_pos hasked] at h
    obtain ⟨result, hsummary, hreport⟩ := Option.map_eq_some_iff.mp h
    obtain ⟨summary, rfl, rfl⟩ := Except.map_eq_ok_iff.mp hreport
    refine ⟨some summary, rfl, hasked.symm, fun other hother ↦ ?_⟩
    exact Option.some.inj hother ▸ hsummary
  · rw [report_plain hasked] at h
    refine ⟨none, (Except.ok.inj (Option.some.inj h)).symm, hasked.symm, fun _ hnone ↦ ?_⟩
    cases hnone

theorem exists_of_perform_task_ok {d d' : Directory} {report : GenerateReport}
    (h : d.perform s.task = (some (.ok report), d')) :
    ∃ size p supply written, s.Accepted size p ∧ s.supply (.ofSize size p) = .ok supply
      ∧ d.saveEdges s.output supply = .ok (written, d')
      ∧ s.report (.ofSize size p) supply written = some (.ok report) := by
  rcases s.exists_fault_or_accepted with ⟨failure, hfault⟩ | ⟨size, p, haccepted⟩
  · rw [perform_task_of_fault hfault] at h
    cases h
  rcases hsupply : s.supply? (.ofSize size p) with _ | failure | supply
  · rw [haccepted.perform_task_of_overfull (supply?_eq_none_iff.mp hsupply)] at h
    cases h
  · rw [haccepted.perform_task_of_supply_error hsupply] at h
    cases h
  · rcases hsave : d.saveEdges s.output supply with failure | ⟨written, saved⟩
    · rw [haccepted.perform_task_of_unsaved hsupply hsave] at h
      cases h
    · rw [haccepted.perform_task_of_saved hsupply hsave] at h
      obtain ⟨hreport, rfl⟩ := Prod.mk.inj h
      exact ⟨size, p, supply, written, haccepted, (supply?_eq_some_iff.mp hsupply).2, hsave,
        hreport⟩

/-- Settings that are accepted and edges that can be supplied are all that a file asks for, unless
there are too many edges for a summary. -/
theorem Accepted.exists_report_of_file (h : s.Accepted size p)
    (hsupply : s.supply? (.ofSize size p) = some (.ok supply))
    (hfit : s.summary = true → supply.count ≤ indexLimit) {d : Directory} {name : OsText}
    (hfile : d.locateOutput s.output = .ok (.file name)) :
    ∃ report d', d.perform s.task = (some (.ok report), d') := by
  rw [h.perform_task_of_saved hsupply (Directory.saveEdges_file hfile supply)]
  obtain ⟨report, hreport⟩ | ⟨-, hsummary, hmany⟩ :=
    h.report_cases (supply?_eq_some_iff.mp hsupply).2 (supply.edges ()).length
  · exact ⟨report, _, congrArg (·, _) hreport⟩
  · exact absurd (hfit hsummary) (Nat.not_le.mpr hmany)

/-- **The report agrees with the file.** After a run that succeeds with a file as its output, the
file is read as edges that are as many as reported, and as many as the scale and the edge factor
come to. They stay among the reported vertices. There is a summary exactly if one was asked for, and
it is that of the edges in the file, which is what inspecting the file gives. A simple graph has no
loops and no repetitions, and its summary says so. -/
theorem report_agrees_with_file {d d' : Directory} {report : GenerateReport} {name : OsText}
    (hfile : d.locateOutput s.output = .ok (.file name))
    (hrun : d.perform s.task = (some (.ok report), d')) :
    ∃ edges, d'.loadEdges .whole s.output = .ok edges
      ∧ report.output = s.output
      ∧ report.edges = edges.length
      ∧ report.edges = min (2 ^ s.scale.toNat * s.edgeFactor.toNat)
        (2 ^ s.scale.toNat * (2 ^ s.scale.toNat - 1) / 2)
      ∧ report.nodes = 2 ^ s.scale.toNat
      ∧ (∀ e ∈ edges, e.src.toNat < report.nodes ∧ e.dst.toNat < report.nodes)
      ∧ report.summary?.isSome = s.summary
      ∧ (∀ summary, report.summary? = some summary →
        Summary.ofEdges report.nodes edges = .ok summary
          ∧ (d'.perform (InspectSettings.task ⟨s.output, some (.ofNat report.nodes)⟩)).1
            = some (.ok summary))
      ∧ (s.simple = true → (∀ e ∈ edges, e.isLoop = false) ∧ edges.Nodup
        ∧ ∀ summary, report.summary? = some summary →
          summary.selfLoops = 0 ∧ summary.distinctEdges = summary.edges) := by
  obtain ⟨size, p, supply, written, haccepted, hsupply, hsave, hreport⟩ :=
    exists_of_perform_task_ok hrun
  obtain ⟨summary?, rfl, hsome, hsummary⟩ := exists_of_report_ok hreport
  rw [Directory.saveEdges_file hfile] at hsave
  obtain ⟨rfl, rfl⟩ := Prod.mk.inj (Except.ok.inj hsave)
  have hnodes := haccepted.nodeCount_ofSize
  have hload := Directory.loadEdges_put hfile (supply.edges ())
  have hofEdges (summary : Summary) (h : summary? = some summary) :=
    Summary.ofEdges_of_summarise? (hsummary summary h)
  refine ⟨supply.edges (), hload, rfl, rfl, (haccepted.length_supply hsupply).trans
    haccepted.edgeCount_eq, hnodes, fun e he ↦ Edge.within_iff.mp (within_of_supply hsupply e he),
    hsome, fun summary h ↦ ⟨hofEdges summary h, ?_⟩, fun hsimple ↦ ?_⟩
  · rw [UInt64.ofNat_toNat, InspectSettings.perform_task_of_some hload, hsummary summary h]
    rfl
  · obtain ⟨n, hn, -⟩ := Accepted.exists_of_supply_simple hsimple hsupply
    have hloops : ∀ e ∈ supply.edges (), e.isLoop = false :=
      fun e he ↦ (mem_simpleEdges.mp (hn ▸ he)).2
    have hnodup : (supply.edges ()).Nodup := hn ▸ nodup_simpleEdges _
    refine ⟨hloops, hnodup, fun summary h ↦ ?_⟩
    exact Summary.simple_of_ofEdges hloops hnodup (hofEdges summary h)

/-- A graph of two vertices and one edge, with all quadrants alike. -/
def onePair : GenerateSettings where
  output := "graph.txt"
  scale := 1
  edgeFactor := 1
  a := 0.25
  b := 0.25
  c := 0.25
  seed := 10
  workers := 1
  simple := true
  summary := true

theorem onePair_accepted :
    onePair.Accepted ⟨1, 1, by decide, by decide⟩ ⟨0.25, 0.25, 0.25, 0.25⟩ where
  size_eq := by decide
  probabilities_eq := by decide +kernel
  workers_pos := by decide
  workers_le := by decide
  workers_eq_one _ := by decide
  nodes_lt _ := by decide

theorem onePair_locateOutput :
    (Directory.empty 1).locateOutput onePair.output = .ok (.file "graph.txt") :=
  Directory.locateOutput_of_walk (by decide +kernel) (by decide +kernel) (by decide +kernel)

/-- The first edge of the seed is no loop, so it is all that the graph needs. -/
theorem exists_onePair_supply :
    ∃ supply, onePair.supply? (.ofSize ⟨1, 1, by decide, by decide⟩ ⟨0.25, 0.25, 0.25, 0.25⟩)
      = some (.ok supply) := by
  have hsimple : onePair.simple = true := rfl
  have hfew : onePair.overfull (.ofSize ⟨1, 1, by decide, by decide⟩ ⟨0.25, 0.25, 0.25, 0.25⟩)
      = false := overfull_eq_false (by decide)
  rw [supply?, hfew, GenerateSettings.supply, if_pos hsimple,
    Generator.generateSimple_of_reached (n := 1)
    (by decide) (by decide) (by decide +kernel) (by decide +kernel)]
  exact ⟨_, rfl⟩

theorem exists_onePair_report :
    ∃ report d', (Directory.empty 1).perform onePair.task = (some (.ok report), d') := by
  obtain ⟨supply, hsupply⟩ := exists_onePair_supply
  refine onePair_accepted.exists_report_of_file hsupply (fun _ ↦ ?_) onePair_locateOutput
  rw [← supply.length_edges, onePair_accepted.length_supply (supply?_eq_some_iff.mp hsupply).2]
  decide

theorem report_agrees_with_file_for_onePair :
    ∃ report d', (Directory.empty 1).locateOutput onePair.output = .ok (.file "graph.txt")
      ∧ (Directory.empty 1).perform onePair.task = (some (.ok report), d')
      ∧ report.edges = 1
      ∧ ∃ summary, report.summary? = some summary ∧ summary.selfLoops = 0 := by
  have hfile := onePair_locateOutput
  obtain ⟨report, d', hrun⟩ := exists_onePair_report
  obtain ⟨edges, -, -, -, hcount, -, -, hsome, -, hsimple⟩ := report_agrees_with_file hfile hrun
  obtain ⟨summary, hsummary⟩ := Option.isSome_iff_exists.mp hsome
  exact ⟨report, d', hfile, hrun, hcount, summary, hsummary,
    ((hsimple rfl).2.2 summary hsummary).1⟩

/-! ## Asking for a summary -/

theorem two_pow_scale_lt (hscale : s.scale.toNat ≤ 31) : 2 ^ s.scale.toNat < UInt32.size - 1 :=
  calc 2 ^ s.scale.toNat ≤ 2 ^ 31 := Nat.pow_le_pow_right Nat.two_pos hscale
    _ < UInt32.size - 1 := by decide

theorem Sized.withSummary (h : s.Sized size p) (asked : Bool) :
    Sized { s with summary := asked } size p := ⟨h.size_eq, h.probabilities_eq⟩

/-- The checks of a graph that is not too large to be summarised do not depend on whether it has to
be. -/
theorem Fault.withSummary {failure : Failure} (h : s.Fault failure) (hscale : s.scale.toNat ≤ 31)
    (asked : Bool) : Fault { s with summary := asked } failure := by
  cases h with
  | size h => exact .size h
  | probabilities hsize h => exact .probabilities hsize h
  | noWorker hsized h => exact .noWorker (hsized.withSummary asked) h
  | tooManyWorkers hsized h => exact .tooManyWorkers (hsized.withSummary asked) h
  | simpleInPartitions hsized hle hsimple h =>
    exact .simpleInPartitions (hsized.withSummary asked) hle hsimple h
  | oversized _ _ _ _ _ h => exact absurd (two_pow_scale_lt hscale) (Nat.not_lt.mpr h)

theorem Accepted.withSummary (h : s.Accepted size p) (hscale : s.scale.toNat ≤ 31)
    (asked : Bool) : Accepted { s with summary := asked } size p where
  toSized := h.toSized.withSummary asked
  workers_pos := h.workers_pos
  workers_le := h.workers_le
  workers_eq_one := h.workers_eq_one
  nodes_lt _ := two_pow_scale_lt hscale

/-- Asking for a summary changes the way in which edges are supplied, but not the edges. -/
theorem Accepted.supply_withSummary (h : s.Accepted size p) (hscale : s.scale.toNat ≤ 31)
    (asked : Bool) :
    GenerateSettings.supply { s with summary := asked } (.ofSize size p)
      = s.supply (.ofSize size p) := by
  rcases Bool.eq_false_or_eq_true s.simple with hsimple | hsimple
  · rw [GenerateSettings.supply, if_pos hsimple, GenerateSettings.supply, if_pos hsimple]
  · rw [(h.withSummary hscale asked).supply_eq_partitions hsimple, h.supply_eq_partitions hsimple]

/-- With or without a summary, the command fails in the same way, or it leaves the same files and a
report that lacks the summary or has it. Too many edges for a summary break it off with the files
in place. -/
theorem perform_task_withSummary (s : GenerateSettings) (d : Directory)
    (hscale : s.scale.toNat ≤ 31)
    (hlist : cappedEdgeCount s.scale.toNat s.edgeFactor.toNat ≤ listLimit) :
    (∃ failure d', d.perform { s with summary := true }.task = (some (.error failure), d')
        ∧ d.perform { s with summary := false }.task = (some (.error failure), d'))
      ∨ ∃ report summary d', report.summary? = none
        ∧ d.perform { s with summary := true }.task
          = (if cappedEdgeCount s.scale.toNat s.edgeFactor.toNat ≤ indexLimit
            then some (.ok { report with summary? := some summary }) else none, d')
        ∧ d.perform { s with summary := false }.task = (some (.ok report), d') := by
  rcases s.exists_fault_or_accepted with ⟨failure, hfault⟩ | ⟨size, p, haccepted⟩
  · exact .inl ⟨failure, d, perform_task_of_fault (hfault.withSummary hscale true) d,
      perform_task_of_fault (hfault.withSummary hscale false) d⟩
  have htrue := haccepted.withSummary hscale true
  have hfalse := haccepted.withSummary hscale false
  have hcount : (Generator.ofSize size p).edgeCount.toNat
      = cappedEdgeCount s.scale.toNat s.edgeFactor.toNat := haccepted.edgeCount_eq
  have hsupply? (asked : Bool) : supply? { s with summary := asked } (.ofSize size p)
      = some (s.supply (.ofSize size p)) :=
    supply?_eq_some_iff.mpr ⟨overfull_eq_false (hcount ▸ hlist),
      haccepted.supply_withSummary hscale asked⟩
  rcases hsupply : s.supply (.ofSize size p) with failure | supply
  · rw [hsupply] at hsupply?
    exact .inl ⟨failure, d, htrue.perform_task_of_supply_error (hsupply? true) d,
      hfalse.perform_task_of_supply_error (hsupply? false) d⟩
  · rw [hsupply] at hsupply?
    obtain ⟨summary, hsummary⟩ :=
      htrue.exists_summary (supply?_eq_some_iff.mp (hsupply? true)).2 rfl
    rw [htrue.perform_task_of_supply_ok (hsupply? true),
      hfalse.perform_task_of_supply_ok (hsupply? false)]
    -- The edges are saved under the same path, so saving has one result.
    rcases hsave : d.saveEdges s.output supply with failure | ⟨written, d'⟩
    · exact .inl ⟨failure, d, rfl, rfl⟩
    · refine .inr ⟨⟨s.output, (Generator.ofSize size p).nodeCount.toNat, written, none⟩, summary,
        d', rfl, ?_, ?_⟩
      · rw [← hcount, ← haccepted.length_supply hsupply, supply.length_edges]
        exact congrArg (·, d') (report_summarised rfl hsummary written)
      · exact congrArg (·, d') (report_plain rfl _ supply written)

/-- **A summary is an addition to the report.** A graph of scale 31 or less is generated in the same
way whether it is summarised or not, if a list holds its edges: the same failure with the same
files, or the same files and reports that differ in the summary alone, as long as the edges can be
numbered for it. Edges that are placed while they are saved and edges of a single partition are
saved alike, however many there are. -/
theorem summary_changes_only_report (s : GenerateSettings) (d : Directory)
    (hscale : s.scale.toNat ≤ 31) :
    let summarised := d.perform { s with summary := true }.task
    let plain := d.perform { s with summary := false }.task
    (cappedEdgeCount s.scale.toNat s.edgeFactor.toNat ≤ 2 ^ 59 - 1 →
        summarised.2 = plain.2
        ∧ plain.1 ≠ none
        ∧ (∀ failure, summarised.1 = some (.error failure) ↔ plain.1 = some (.error failure))
        ∧ (∀ report, plain.1 = some (.ok report) → report.summary? = none
          ∧ ∃ summary, summarised.1
            = if cappedEdgeCount s.scale.toNat s.edgeFactor.toNat ≤ 2 ^ 32 - 1
              then some (.ok { report with summary? := some summary }) else none))
      ∧ ∀ (g : Generator) (seed : UInt64), ∃ edges, g.generatePartitioned seed 1 = .ok edges
        ∧ writeEdges (g.edges (Seeded.ofSeed seed)).toList.1 = writeEdges edges
        ∧ ∀ path, d.saveEdges path (.ofStream (g.edges (Seeded.ofSeed seed)))
          = d.saveEdges path (.ofList edges) := by
  intro summarised plain
  refine ⟨fun hlist ↦ ?_, fun g seed ↦ ?_⟩
  · obtain ⟨failure, d', htrue, hfalse⟩ | ⟨report, summary, d', hnone, htrue, hfalse⟩ :=
      s.perform_task_withSummary d hscale hlist
    · have hsummarised : summarised = (some (.error failure), d') := htrue
      have hplain : plain = (some (.error failure), d') := hfalse
      rw [hsummarised, hplain]
      exact ⟨rfl, Option.some_ne_none _, fun _ ↦ Iff.rfl, fun _ hok ↦ nomatch hok⟩
    · have hplain : plain = (some (.ok report), d') := hfalse
      have hsummarised : summarised = _ := htrue
      rw [hsummarised, hplain]
      refine ⟨rfl, Option.some_ne_none _,
        fun _ ↦ iff_of_false (by split_ifs <;> simp) (by simp), fun other hok ↦ ?_⟩
      obtain rfl := Except.ok.inj (Option.some.inj hok)
      exact ⟨hnone, summary, rfl⟩
  · refine ⟨_, g.generatePartitioned_eq_ok seed rfl, ?_, fun path ↦ ?_⟩
    · rw [g.flatMap_partition_one seed, Generator.generate]
    · rw [g.ofStream_edges_eq seed]

/-- With and without a summary, one edge is saved. -/
theorem summary_changes_only_report_for_onePair :
    onePair.scale.toNat ≤ 31
      ∧ cappedEdgeCount onePair.scale.toNat onePair.edgeFactor.toNat ≤ 2 ^ 59 - 1
      ∧ ((Directory.empty 1).perform { onePair with summary := true }.task).2
        = ((Directory.empty 1).perform { onePair with summary := false }.task).2
      ∧ ∃ report summary, report.summary? = none
        ∧ ((Directory.empty 1).perform { onePair with summary := false }.task).1
          = some (.ok report)
        ∧ ((Directory.empty 1).perform { onePair with summary := true }.task).1
          = some (.ok { report with summary? := some summary }) := by
  have hscale : onePair.scale.toNat ≤ 31 := by decide
  have hlist : cappedEdgeCount onePair.scale.toNat onePair.edgeFactor.toNat ≤ 2 ^ 59 - 1 := by
    decide
  have hfit : cappedEdgeCount onePair.scale.toNat onePair.edgeFactor.toNat ≤ 2 ^ 32 - 1 := by
    decide
  obtain ⟨hfiles, hunbroken, hfailures, hreports⟩ :=
    (summary_changes_only_report onePair (Directory.empty 1) hscale).1 hlist
  obtain ⟨report', d', hrun⟩ := exists_onePair_report
  have hasked : { onePair with summary := true } = onePair := rfl
  rcases hplain : ((Directory.empty 1).perform { onePair with summary := false }.task).1
    with _ | failure | report
  · exact absurd hplain hunbroken
  · have hfailed := (hfailures failure).mpr hplain
    rw [hasked, hrun] at hfailed
    cases hfailed
  · obtain ⟨hnone, summary, hsame⟩ := hreports report hplain
    rw [if_pos hfit] at hsame
    exact ⟨hscale, hlist, hfiles, report, summary, hnone, hplain, hsame⟩

end GenerateSettings

end RecursiveMatrix
