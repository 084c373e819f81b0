import Mathlib.Data.List.Basic
import Mathlib.Logic.Function.Iterate
import RecursiveMatrix.Proofs.EdgeSequence
import RecursiveMatrix.Proofs.Shares

/-!
# Partitions do not depend on the schedule

The partitions of a graph can be generated side by side: whoever is given a turn places the next
edge of its share (`PartitionRun.step`), and a schedule is any list of turns (`Pool.run`). Turns of
different partitions touch nothing in common, so all that a schedule can tell a partition is how
many turns it has had (`Pool.getElem?_runs_run`).

A partition that has had as many turns as its share is finished, and further turns leave it as it
is. When all of them are finished, the edges in the order of the workers are the first edges of
every worker's sequence, whatever the schedule was.
-/

namespace RecursiveMatrix

open UniformSource

/-! ## One partition -/

/-- A partition while it is being generated. -/
structure PartitionRun where
  /-- The edges placed so far. -/
  placed : List Edge
  /-- The edges still to come. -/
  rest : EdgeStream Seeded

namespace PartitionRun

/-- Places the next edge, if one is still to come. -/
def step (run : PartitionRun) : PartitionRun :=
  match run.rest.next? with
  | none => run
  | some (e, rest) => ⟨run.placed ++ [e], rest⟩

theorem step_of_none {run : PartitionRun} (h : run.rest.next? = none) : run.step = run := by
  rw [step, h]

theorem step_of_some {run : PartitionRun} {e : Edge} {rest : EdgeStream Seeded}
    (h : run.rest.next? = some (e, rest)) : run.step = ⟨run.placed ++ [e], rest⟩ := by
  rw [step, h]

/-- Turns take edges one by one, just as taking them all at once does. -/
theorem iterate_step_eq_takeOnto (n : ℕ) (earlier : List Edge) (edges : EdgeStream Seeded) :
    step^[n] ⟨earlier.reverse, edges⟩
      = ⟨(EdgeStream.takeOnto earlier n edges).1, (EdgeStream.takeOnto earlier n edges).2⟩ := by
  induction n generalizing earlier edges with
  | zero => rfl
  | succ n ih =>
    rw [EdgeStream.takeOnto]
    cases hnext : edges.next? with
    | none => exact Function.iterate_fixed (step_of_none hnext) (n + 1)
    | some taken =>
      obtain ⟨e, rest⟩ := taken
      rw [Function.iterate_succ_apply, step_of_some hnext, ← List.reverse_cons, ih]

theorem iterate_step (n : ℕ) (edges : EdgeStream Seeded) :
    step^[n] ⟨[], edges⟩
      = ⟨(edges.generator.stream edges.source).take (min n edges.remaining.toNat),
        edges.after (min n edges.remaining.toNat)⟩ := by
  have h := iterate_step_eq_takeOnto n [] edges
  rwa [EdgeStream.takeOnto_eq, List.reverse_nil, List.nil_append] at h

theorem remaining_iterate_step_eq_zero_iff (n : ℕ) (edges : EdgeStream Seeded) :
    (step^[n] ⟨[], edges⟩).rest.remaining = 0 ↔ edges.remaining.toNat ≤ n := by
  rw [iterate_step, ← UInt64.toNat_inj,
    EdgeStream.toNat_remaining_after (Nat.min_le_right n edges.remaining.toNat), UInt64.toNat_zero]
  omega

theorem placed_iterate_step {n : ℕ} {edges : EdgeStream Seeded}
    (h : edges.remaining.toNat ≤ n) :
    (step^[n] ⟨[], edges⟩).placed
      = (edges.generator.stream edges.source).take edges.remaining.toNat := by
  rw [iterate_step, Nat.min_eq_right h]

end PartitionRun

/-! ## All partitions -/

/-- The partitions of a graph while they are being generated, in the order of the workers. -/
structure Pool where
  /-- The partitions. -/
  runs : List PartitionRun

namespace Pool

/-- Gives partition `index` a turn. -/
def step (pool : Pool) (index : ℕ) : Pool := ⟨pool.runs.modify index PartitionRun.step⟩

def run (pool : Pool) (schedule : List ℕ) : Pool := schedule.foldl step pool

/-- No edge is still to come. -/
def Finished (pool : Pool) : Prop := ∀ run ∈ pool.runs, run.rest.remaining = 0

/-- The edges placed so far, in the order of the workers. -/
def edges (pool : Pool) : List Edge := pool.runs.flatMap PartitionRun.placed

/-- **Turns of other partitions do not matter.** -/
theorem getElem?_runs_run (pool : Pool) (schedule : List ℕ) (index : ℕ) :
    (pool.run schedule).runs[index]?
      = pool.runs[index]?.map PartitionRun.step^[schedule.count index] := by
  induction schedule generalizing pool with
  | nil => simp [run]
  | cons turn schedule ih =>
    have hrun : pool.run (turn :: schedule) = (pool.step turn).run schedule := rfl
    rw [hrun, ih, step]
    -- The turn is counted for its own partition, and does not reach the others.
    by_cases h : turn = index
    · rw [h, List.getElem?_modify_eq, List.count_cons_self, Function.iterate_succ]
      simp
    · rw [List.getElem?_modify_ne _ _ h, List.count_cons_of_ne h]

end Pool

namespace Generator

variable (g : Generator) (seed workers : UInt64)

/-- The share of a worker, still to be placed. -/
def partitionEdges (index : UInt64) : EdgeStream Seeded :=
  g.firstEdges (partitionShare g.edgeCount index workers) (Seeded.ofStream seed index)

theorem partition_eq (index : UInt64) :
    g.partition seed workers index
      = (g.stream (Seeded.ofStream seed index)).take
        (partitionShare g.edgeCount index workers).toNat := by
  rw [partition, EdgeStream.toList_eq, firstEdges]

def startPool : Pool where
  runs := (List.range workers.toNat).map fun i ↦ ⟨[], g.partitionEdges seed workers (.ofNat i)⟩

theorem runs_run_startPool (schedule : List ℕ) :
    ((g.startPool seed workers).run schedule).runs
      = (List.range workers.toNat).map fun i ↦
        PartitionRun.step^[schedule.count i] ⟨[], g.partitionEdges seed workers (.ofNat i)⟩ := by
  refine List.ext_getElem? fun i ↦ ?_
  rw [Pool.getElem?_runs_run, startPool, List.getElem?_map, List.getElem?_map]
  rcases Nat.lt_or_ge i workers.toNat with hlt | hge
  · rw [List.getElem?_range hlt]
    rfl
  · rw [List.getElem?_eq_none (by rwa [List.length_range])]
    rfl

theorem finished_run_startPool_iff (schedule : List ℕ) :
    ((g.startPool seed workers).run schedule).Finished
      ↔ ∀ i < workers.toNat,
        (partitionShare g.edgeCount (.ofNat i) workers).toNat ≤ schedule.count i := by
  rw [Pool.Finished, runs_run_startPool, List.forall_mem_map]
  simp only [List.mem_range, PartitionRun.remaining_iterate_step_eq_zero_iff]
  rfl

theorem edges_run_startPool {schedule : List ℕ}
    (h : ((g.startPool seed workers).run schedule).Finished) :
    ((g.startPool seed workers).run schedule).edges
      = (List.range workers.toNat).flatMap fun i ↦ g.partition seed workers (.ofNat i) := by
  rw [finished_run_startPool_iff] at h
  rw [Pool.edges, runs_run_startPool, List.flatMap_map]
  refine List.flatMap_congr fun i hi ↦ ?_
  rw [PartitionRun.placed_iterate_step (h i (List.mem_range.mp hi)), partition_eq]
  rfl

theorem length_partition {i : ℕ} (h : i < workers.toNat) :
    (g.partition seed workers (.ofNat i)).length
      = fairShare g.edgeCount.toNat workers.toNat i := by
  rw [partition_eq, Stream'.length_take, partitionShare_toNat,
    UInt64.toNat_ofNat_of_lt' (Nat.lt_trans h workers.toNat_lt)]

theorem length_flatMap_partition (h : 0 < workers.toNat) :
    ((List.range workers.toNat).flatMap fun i ↦ g.partition seed workers (.ofNat i)).length
      = g.edgeCount.toNat := by
  have hshares : ((List.range workers.toNat).map fun i ↦
      (g.partition seed workers (.ofNat i)).length)
      = (List.range workers.toNat).map (fairShare g.edgeCount.toNat workers.toNat) :=
    List.map_congr_left fun i hi ↦ g.length_partition seed workers (List.mem_range.mp hi)
  rw [List.length_flatMap, hshares, sum_fairShare_all _ h]

theorem partition_of_one_worker : g.partition seed 1 0 = (g.generate (Seeded.ofSeed seed)).1 := by
  have hshare : (partitionShare g.edgeCount 0 1).toNat = g.edgeCount.toNat := by
    rw [partitionShare_toNat, fairShare]
    simp [Nat.mod_one]
  rw [partition_eq, hshare, generate_eq, ← Seeded.ofStream_zero]

/-- Two shares of one stream begin alike, whatever the numbers of workers. -/
theorem partition_isPrefix_or_isPrefix (p q index : UInt64) :
    g.partition seed p index <+: g.partition seed q index
      ∨ g.partition seed q index <+: g.partition seed p index := by
  rw [partition_eq, partition_eq]
  rcases Nat.le_total (partitionShare g.edgeCount index p).toNat
    (partitionShare g.edgeCount index q).toNat with h | h
  · exact .inl (Stream'.take_prefix_take_left _ _ _ h)
  · exact .inr (Stream'.take_prefix_take_left _ _ _ h)

end Generator

/-! ## The number of workers -/

theorem checkWorkers_eq_ok {workers : UInt64} (h : ¬ (workers = 0 ∨ 1024 < workers.toNat)) :
    checkWorkers workers = .ok () := by
  obtain ⟨hzero, hmany⟩ := not_or.mp h
  rw [checkWorkers, maxWorkers, if_neg hzero, if_neg hmany]

theorem checkWorkers_eq_error {workers : UInt64} (h : workers = 0 ∨ 1024 < workers.toNat) :
    ∃ fault, checkWorkers workers = .error (.rejected fault) ∧ fault.parameter = "workers" := by
  rw [checkWorkers, maxWorkers]
  by_cases hzero : workers = 0
  · rw [if_pos hzero]
    exact ⟨.noWorker, rfl, rfl⟩
  · rw [if_neg hzero, if_pos (h.resolve_left hzero)]
    exact ⟨.tooManyWorkers workers.toNat 1024, rfl, rfl⟩

namespace Generator

variable (g : Generator) (seed : UInt64)

theorem generatePartitioned_eq_error {workers : UInt64} {failure : Failure}
    (h : checkWorkers workers = .error failure) :
    g.generatePartitioned seed workers = .error failure := by
  rw [generatePartitioned, h]
  rfl

theorem generatePartitioned_eq_ok {workers : UInt64} (h : checkWorkers workers = .ok ()) :
    g.generatePartitioned seed workers
      = .ok ((List.range workers.toNat).flatMap fun i ↦ g.partition seed workers (.ofNat i)) := by
  rw [generatePartitioned, h]
  rfl

/-- **Generating in partitions gives one result for every schedule.** It fails exactly for no
workers and for more than 1024. Otherwise the result has all edges of the graph: the first ones of
the stream of every worker, as many as its share, in the order of the workers. Every schedule that
gives each worker its turns ends with this result. A single worker generates what the bare seed
gives, and with two numbers of workers one of two shares of the same stream begins with the
other. -/
theorem generatePartitioned_every_schedule (workers : UInt64) :
    ((∃ fault, g.generatePartitioned seed workers = .error (.rejected fault)
        ∧ fault.parameter = "workers") ↔ workers = 0 ∨ 1024 < workers.toNat)
      ∧ (¬ (workers = 0 ∨ 1024 < workers.toNat) → ∃ edges,
        g.generatePartitioned seed workers = .ok edges
          ∧ edges.length = g.edgeCount.toNat
          ∧ (edges = (List.range workers.toNat).flatMap fun i ↦
            (g.stream (Seeded.ofStream seed (.ofNat i))).take
              (partitionShare g.edgeCount (.ofNat i) workers).toNat)
          ∧ ∀ schedule,
            (((g.startPool seed workers).run schedule).Finished
              ↔ ∀ i < workers.toNat,
                (partitionShare g.edgeCount (.ofNat i) workers).toNat ≤ schedule.count i)
            ∧ (((g.startPool seed workers).run schedule).Finished →
              ((g.startPool seed workers).run schedule).edges = edges))
      ∧ g.generatePartitioned seed 1 = .ok (g.generate (Seeded.ofSeed seed)).1
      ∧ ∀ p q index,
        (g.partition seed p index
            = (g.stream (Seeded.ofStream seed index)).take
              (partitionShare g.edgeCount index p).toNat)
          ∧ (g.partition seed p index <+: g.partition seed q index
            ∨ g.partition seed q index <+: g.partition seed p index) := by
  refine ⟨⟨fun ⟨fault, hfault, _⟩ ↦ ?_, fun h ↦ ?_⟩, fun h ↦ ?_, ?_,
    fun p q index ↦ ⟨g.partition_eq seed p index, g.partition_isPrefix_or_isPrefix seed p q index⟩⟩
  · refine Classical.byContradiction fun hvalid ↦ ?_
    rw [g.generatePartitioned_eq_ok seed (checkWorkers_eq_ok hvalid)] at hfault
    cases hfault
  · obtain ⟨fault, hfault, hparameter⟩ := checkWorkers_eq_error h
    exact ⟨fault, g.generatePartitioned_eq_error seed hfault, hparameter⟩
  · have hpos : 0 < workers.toNat :=
      Nat.pos_of_ne_zero fun h0 ↦ h (.inl (UInt64.toNat_inj.mp h0))
    refine ⟨_, g.generatePartitioned_eq_ok seed (checkWorkers_eq_ok h),
      g.length_flatMap_partition seed workers hpos, ?_, fun schedule ↦
      ⟨g.finished_run_startPool_iff seed workers schedule, g.edges_run_startPool seed workers⟩⟩
    exact List.flatMap_congr fun i _ ↦ g.partition_eq seed workers (.ofNat i)
  · rw [g.generatePartitioned_eq_ok seed (checkWorkers_eq_ok (by decide)),
      ← partition_of_one_worker]
    exact congrArg Except.ok (List.append_nil _)

end Generator

end RecursiveMatrix
