import RecursiveMatrix.Command.Generate
import RecursiveMatrix.Proofs.Results
import RecursiveMatrix.Proofs.Schedules
import RecursiveMatrix.Proofs.SimpleGraphs

/-!
# Settings are refused before a file is touched

The command that generates graphs checks its settings in a fixed order, and the first check that
fails decides its failure (`GenerateSettings.Fault`). A refusal comes before the file is opened, and
so does the failure to find enough distinct edges; once the file has been written, nothing is left
that could fail. A run can still be broken off for the summary then, which is no failure
(`GenerateSettings.Ends`).

The last point takes facts from three places, since the graph is summarised only after its edges
have been saved. The checks bound the number of vertices, every way of generating edges stays among
the vertices (`GenerateSettings.within_of_supply`), and the size of a graph never asks for more
edges than there are pairs (`Generator.edgeCount_ofSize_le`).
-/

namespace RecursiveMatrix

-- Powers are those of `Nat.pow`, whatever other instances are in scope.
attribute [local instance (high)] instPowNat

/-! ## Kinds of failures -/

namespace Failure

/-- The failure says that a parameter or the size of a graph was turned down. -/
def isRefusal : Failure → Bool
  | rejected _ | oversized _ => true
  | storage .. | malformed .. | exhausted .. => false

/-- The failure is that of a file. -/
def isStorage : Failure → Bool
  | storage .. => true
  | rejected _ | malformed .. | exhausted .. | oversized _ => false

end Failure

theorem GraphSize.exists_rejected_of_ofScale {scale : UInt32} {edgeFactor : UInt64}
    {failure : Failure} (h : ofScale scale edgeFactor = .error failure) :
    ∃ fault, failure = .rejected fault := by
  rw [ofScale] at h
  split_ifs at h
  all_goals exact ⟨_, (Except.error.inj h).symm⟩

theorem GraphSize.scale_of_ofScale {scale : UInt32} {edgeFactor : UInt64} {size : GraphSize}
    (h : ofScale scale edgeFactor = .ok size) : size.scale = scale := by
  rw [ofScale] at h
  split_ifs at h
  rw [← Except.ok.inj h]

theorem GraphSize.edgeFactor_of_ofScale {scale : UInt32} {edgeFactor : UInt64} {size : GraphSize}
    (h : ofScale scale edgeFactor = .ok size) : size.edgeFactor = edgeFactor := by
  rw [ofScale] at h
  split_ifs at h
  rw [← Except.ok.inj h]

theorem Probabilities.exists_rejected_of_ofThree {a b c : Float} {failure : Failure}
    (h : ofThree a b c = .error failure) : ∃ fault, failure = .rejected fault := by
  rw [ofThree, ofFour] at h
  split at h
  · exact ⟨_, (Except.error.inj h).symm⟩
  · simp only at h
    split_ifs at h
    exact ⟨_, (Except.error.inj h).symm⟩

namespace GenerateSettings

variable {s : GenerateSettings}

/-! ## The first check that fails -/

/-- The size and the probabilities are accepted. -/
structure Sized (s : GenerateSettings) (size : GraphSize) (p : Probabilities) : Prop where
  /-- The scale and the edge factor give a size. -/
  size_eq : GraphSize.ofScale s.scale s.edgeFactor = .ok size
  /-- The probabilities are those of four quadrants. -/
  probabilities_eq : Probabilities.ofThree s.a s.b s.c = .ok p

/-- The failure of the first check that fails. A constructor stands for a check, and what the checks
before it have found is among its hypotheses. -/
inductive Fault (s : GenerateSettings) : Failure → Prop
  | size {failure : Failure} (h : GraphSize.ofScale s.scale s.edgeFactor = .error failure) :
    Fault s failure
  | probabilities {size : GraphSize} {failure : Failure}
    (hsize : GraphSize.ofScale s.scale s.edgeFactor = .ok size)
    (h : Probabilities.ofThree s.a s.b s.c = .error failure) : Fault s failure
  | noWorker {size : GraphSize} {p : Probabilities} (hsized : s.Sized size p)
    (h : s.workers.toNat < 1) : Fault s (.rejected .noWorker)
  | tooManyWorkers {size : GraphSize} {p : Probabilities} (hsized : s.Sized size p)
    (h : 1024 < s.workers.toNat) : Fault s (.rejected (.tooManyWorkers s.workers.toNat 1024))
  | simpleInPartitions {size : GraphSize} {p : Probabilities} (hsized : s.Sized size p)
    (hworkers : s.workers.toNat ≤ 1024) (hsimple : s.simple = true) (h : 1 < s.workers.toNat) :
    Fault s (.rejected .simpleInPartitions)
  | oversized {size : GraphSize} {p : Probabilities} (hsized : s.Sized size p)
    (hpos : 1 ≤ s.workers.toNat) (hworkers : s.workers.toNat ≤ 1024)
    (hsimple : s.simple = true → s.workers.toNat = 1) (hsummary : s.summary = true)
    (h : UInt32.size - 1 ≤ 2 ^ s.scale.toNat) : Fault s (.oversized (2 ^ s.scale.toNat))

/-- All checks pass. -/
structure Accepted (s : GenerateSettings) (size : GraphSize) (p : Probabilities) : Prop
    extends s.Sized size p where
  /-- There is a worker. -/
  workers_pos : 1 ≤ s.workers.toNat
  /-- There are not too many of them. -/
  workers_le : s.workers.toNat ≤ 1024
  /-- There is only one if the edges have to be distinct. -/
  workers_eq_one : s.simple = true → s.workers.toNat = 1
  /-- The graph can be summarised if it has to be. -/
  nodes_lt : s.summary = true → 2 ^ s.scale.toNat < UInt32.size - 1

theorem exists_fault_or_accepted (s : GenerateSettings) :
    (∃ failure, s.Fault failure) ∨ ∃ size p, s.Accepted size p := by
  cases hsize : GraphSize.ofScale s.scale s.edgeFactor with
  | error failure => exact .inl ⟨failure, .size hsize⟩
  | ok size =>
    cases hp : Probabilities.ofThree s.a s.b s.c with
    | error failure => exact .inl ⟨failure, .probabilities hsize hp⟩
    | ok p =>
      have hsized : s.Sized size p := ⟨hsize, hp⟩
      rcases Nat.lt_or_ge s.workers.toNat 1 with hzero | hpos
      · exact .inl ⟨_, .noWorker hsized hzero⟩
      rcases Nat.lt_or_ge 1024 s.workers.toNat with hmany | hle
      · exact .inl ⟨_, .tooManyWorkers hsized hmany⟩
      by_cases hsimple : s.simple = true ∧ 1 < s.workers.toNat
      · exact .inl ⟨_, .simpleInPartitions hsized hle hsimple.1 hsimple.2⟩
      have hone : s.simple = true → s.workers.toNat = 1 := by
        intro h
        have hle := Nat.not_lt.mp fun hlt ↦ hsimple ⟨h, hlt⟩
        exact Nat.le_antisymm hle hpos
      by_cases hsummary : s.summary = true ∧ UInt32.size - 1 ≤ 2 ^ s.scale.toNat
      · exact .inl ⟨_, .oversized hsized hpos hle hone hsummary.1 hsummary.2⟩
      have hnodes : s.summary = true → 2 ^ s.scale.toNat < UInt32.size - 1 := by
        intro h
        exact Nat.not_le.mp fun hle ↦ hsummary ⟨h, hle⟩
      exact .inr ⟨size, p, hsized, hpos, hle, hone, hnodes⟩

theorem isRefusal_of_fault {failure : Failure} (h : s.Fault failure) :
    failure.isRefusal = true := by
  cases h with
  | size h =>
    obtain ⟨fault, rfl⟩ := GraphSize.exists_rejected_of_ofScale h
    rfl
  | probabilities _ h =>
    obtain ⟨fault, rfl⟩ := Probabilities.exists_rejected_of_ofThree h
    rfl
  | noWorker | tooManyWorkers | simpleInPartitions | oversized => rfl

/-! ### What the checks come to -/

theorem Sized.check_eq {size : GraphSize} {p : Probabilities} (h : s.Sized size p) :
    s.check = (s.checkMode size).map fun _ ↦ .ofSize size p := by
  rw [check, h.size_eq, h.probabilities_eq]
  rfl

theorem Sized.nodeCount_eq {size : GraphSize} {p : Probabilities} (h : s.Sized size p) :
    size.nodeCount.toNat = 2 ^ s.scale.toNat := by
  rw [size.nodeCount_toNat, GraphSize.scale_of_ofScale h.size_eq]

theorem checkMode_of_workers {size : GraphSize}
    (h : 1 ≤ s.workers.toNat ∧ s.workers.toNat ≤ 1024) :
    s.checkMode size
      = if s.simple && 1 < s.workers then .error (.rejected .simpleInPartitions)
        else if s.summary && summaryLimit ≤ size.nodeCount.toNat then
          .error (.oversized size.nodeCount.toNat)
        else .ok () := by
  have hworkers : ¬ (s.workers = 0 ∨ 1024 < s.workers.toNat) := by
    rintro (hzero | hmany)
    · rw [hzero] at h
      exact absurd h.1 (by decide)
    · exact absurd h.2 (Nat.not_le.mpr hmany)
  rw [checkMode, checkWorkers_eq_ok hworkers]
  rfl

theorem check_of_fault {failure : Failure} (h : s.Fault failure) : s.check = .error failure := by
  cases h with
  | size h =>
    rw [check, h]
    rfl
  | probabilities hsize h =>
    rw [check, hsize, h]
    rfl
  | noWorker hsized h =>
    have hzero : s.workers = 0 := UInt64.toNat_inj.mp (Nat.lt_one_iff.mp h)
    rw [hsized.check_eq, checkMode, checkWorkers, if_pos hzero]
    rfl
  | tooManyWorkers hsized h =>
    have hpos : s.workers ≠ 0 := by
      intro hzero
      rw [hzero] at h
      exact absurd h (by decide)
    rw [hsized.check_eq, checkMode, checkWorkers, if_neg hpos, maxWorkers, if_pos h]
    rfl
  | simpleInPartitions hsized hle hsimple h =>
    rw [hsized.check_eq, checkMode_of_workers ⟨h.le, hle⟩, if_pos]
    · rfl
    · simpa [hsimple, UInt64.lt_iff_toNat_lt] using h
  | oversized hsized hpos hle hone hsummary h =>
    rw [hsized.check_eq, checkMode_of_workers ⟨hpos, hle⟩, if_neg, if_pos, hsized.nodeCount_eq]
    · rfl
    · rw [hsummary, hsized.nodeCount_eq, summaryLimit]
      simpa using h
    · intro hsimple
      rw [Bool.and_eq_true, decide_eq_true_iff, UInt64.lt_iff_toNat_lt] at hsimple
      exact absurd (hone hsimple.1) hsimple.2.ne'

theorem Accepted.check_eq_ok {size : GraphSize} {p : Probabilities} (h : s.Accepted size p) :
    s.check = .ok (.ofSize size p) := by
  rw [h.check_eq, checkMode_of_workers ⟨h.workers_pos, h.workers_le⟩, if_neg, if_neg]
  · rfl
  · intro hsummary
    rw [Bool.and_eq_true, decide_eq_true_iff, h.nodeCount_eq, summaryLimit] at hsummary
    exact absurd (h.nodes_lt hsummary.1) (Nat.not_lt.mpr hsummary.2)
  · intro hsimple
    rw [Bool.and_eq_true, decide_eq_true_iff, UInt64.lt_iff_toNat_lt] at hsimple
    exact absurd (h.workers_eq_one hsimple.1) hsimple.2.ne'

theorem check_eq_error_iff {failure : Failure} : s.check = .error failure ↔ s.Fault failure := by
  refine ⟨fun h ↦ ?_, check_of_fault⟩
  rcases s.exists_fault_or_accepted with ⟨failure', hfault⟩ | ⟨size, p, haccepted⟩
  · rw [check_of_fault hfault] at h
    exact Except.error.inj h ▸ hfault
  · rw [haccepted.check_eq_ok] at h
    cases h

theorem exists_accepted_of_check {g : Generator} (h : s.check = .ok g) :
    ∃ size p, s.Accepted size p ∧ g = .ofSize size p := by
  rcases s.exists_fault_or_accepted with ⟨failure, hfault⟩ | ⟨size, p, haccepted⟩
  · rw [check_of_fault hfault] at h
    cases h
  · rw [haccepted.check_eq_ok] at h
    exact ⟨size, p, haccepted, (Except.ok.inj h).symm⟩

theorem exists_fault_iff (s : GenerateSettings) :
    (∃ failure, s.Fault failure)
      ↔ (∃ failure, GraphSize.ofScale s.scale s.edgeFactor = .error failure)
        ∨ (∃ failure, Probabilities.ofThree s.a s.b s.c = .error failure)
        ∨ ¬ (1 ≤ s.workers.toNat ∧ s.workers.toNat ≤ 1024)
        ∨ (s.simple = true ∧ 1 < s.workers.toNat)
        ∨ (s.summary = true ∧ 2 ^ 32 - 1 ≤ 2 ^ s.scale.toNat) := by
  constructor
  · rintro ⟨failure, hfault⟩
    cases hfault with
    | size h => exact .inl ⟨failure, h⟩
    | probabilities _ h => exact .inr (.inl ⟨failure, h⟩)
    | noWorker _ h => exact .inr (.inr (.inl fun hvalid ↦ absurd hvalid.1 (Nat.not_le.mpr h)))
    | tooManyWorkers _ h =>
      exact .inr (.inr (.inl fun hvalid ↦ absurd hvalid.2 (Nat.not_le.mpr h)))
    | simpleInPartitions _ _ hsimple h => exact .inr (.inr (.inr (.inl ⟨hsimple, h⟩)))
    | oversized _ _ _ _ hsummary h => exact .inr (.inr (.inr (.inr ⟨hsummary, h⟩)))
  · intro h
    refine s.exists_fault_or_accepted.resolve_right ?_
    rintro ⟨size, p, haccepted⟩
    rcases h with ⟨failure, h⟩ | ⟨failure, h⟩ | h | ⟨hsimple, h⟩ | ⟨hsummary, h⟩
    · rw [haccepted.size_eq] at h
      cases h
    · rw [haccepted.probabilities_eq] at h
      cases h
    · exact h ⟨haccepted.workers_pos, haccepted.workers_le⟩
    · exact absurd (haccepted.workers_eq_one hsimple) h.ne'
    · exact absurd (haccepted.nodes_lt hsummary) (Nat.not_lt.mpr h)

end GenerateSettings

/-! ## Edges after the checks -/

theorem Generator.edgeCount_ofSize_le (size : GraphSize) (p : Probabilities) :
    (ofSize size p).edgeCount.toNat ≤ (ofSize size p).availablePairs := by
  have hnodes : (ofSize size p).nodeCount.toNat = 2 ^ size.scale.toNat := size.nodeCount_toNat
  have hedges : (ofSize size p).edgeCount.toNat
      = cappedEdgeCount size.scale.toNat size.edgeFactor.toNat := size.edgeCount_toNat
  rw [availablePairs, hnodes, hedges, cappedEdgeCount]
  exact (Nat.min_le_right _ _).trans (Nat.div_le_self _ _)

theorem Generator.within_of_mem_take {g : Generator} {σ : Type*} [UniformSource σ] {source : σ}
    {n : ℕ} {e : Edge} (h : e ∈ (g.stream source).take n) : e.within g.nodeCount.toNat = true := by
  obtain ⟨hsrc, hdst⟩ := g.lt_nodeCount_of_mem_take h
  exact Edge.within_iff.mpr ⟨UInt64.lt_iff_toNat_lt.mp hsrc, UInt64.lt_iff_toNat_lt.mp hdst⟩

theorem Summary.exists_ofEdges_eq_ok {nodes : ℕ} {edges : List Edge}
    (hnodes : nodes < UInt32.size - 1) (hedges : ∀ e ∈ edges, e.within nodes = true) :
    ∃ summary, ofEdges nodes edges = .ok summary :=
  ⟨_, ofEdges_eq_ok_iff.mpr ⟨hnodes, hedges, rfl⟩⟩

theorem Directory.exists_storage_of_saveEdges {d : Directory} {path : OsText} {supply : EdgeSupply}
    {failure : Failure} (h : d.saveEdges path supply = .error failure) :
    ∃ fault, failure = .storage path fault := by
  rw [saveEdges] at h
  split at h
  · exact ⟨_, (Except.error.inj h).symm⟩
  · cases h
  · split_ifs at h
    exact ⟨_, (Except.error.inj h).symm⟩
  · cases h

namespace GenerateSettings

variable {s : GenerateSettings}

theorem within_of_supply {g : Generator} {supply : EdgeSupply} (h : s.supply g = .ok supply) :
    ∀ e ∈ supply.edges (), e.within g.nodeCount.toNat = true := by
  intro e he
  rw [GenerateSettings.supply] at h
  split_ifs at h
  -- Distinct edges are some of those of the sequence.
  · obtain ⟨edges, hedges, rfl⟩ := Except.map_eq_ok_iff.mp h
    obtain ⟨n, rfl, -, -⟩ := Generator.exists_of_generateSimple_ok hedges
    exact Generator.within_of_mem_take (mem_simpleEdges.mp he).1
  -- Every partition is a part of the sequence of its worker.
  · obtain ⟨edges, hedges, rfl⟩ := Except.map_eq_ok_iff.mp h
    obtain ⟨-, -, hpure⟩ := Except.bind_eq_ok_iff.mp hedges
    have hmem : e ∈ (List.range s.workers.toNat).flatMap
        fun i ↦ g.partition s.seed s.workers (.ofNat i) := (Except.ok.inj hpure) ▸ he
    obtain ⟨i, -, hi⟩ := List.mem_flatMap.mp hmem
    rw [Generator.partition_eq] at hi
    exact Generator.within_of_mem_take hi
  -- The edges to come are the beginning of the sequence.
  · rw [← Except.ok.inj h] at he
    have hmem : e ∈ (g.edges (Seeded.ofSeed s.seed)).toList.1 := he
    rw [EdgeStream.toList_eq] at hmem
    exact Generator.within_of_mem_take hmem

namespace Accepted

variable {size : GraphSize} {p : Probabilities}

theorem checkWorkers_eq (h : s.Accepted size p) : checkWorkers s.workers = .ok () := by
  refine checkWorkers_eq_ok ?_
  rintro (hzero | hmany)
  · exact absurd (hzero ▸ h.workers_pos) (by decide)
  · exact absurd h.workers_le (Nat.not_le.mpr hmany)

theorem nodeCount_ofSize (h : s.Accepted size p) :
    (Generator.ofSize size p).nodeCount.toNat = 2 ^ s.scale.toNat := h.nodeCount_eq

/-- Only the attempts at distinct edges can come to nothing. -/
theorem exhausted_of_supply (h : s.Accepted size p) {failure : Failure}
    (hsupply : s.supply (.ofSize size p) = .error failure) :
    s.simple = true ∧ ∃ accepted requested attempts,
      failure = .exhausted accepted requested attempts := by
  rw [GenerateSettings.supply] at hsupply
  split_ifs at hsupply with hsimple hmode
  · have hfailed := Except.map_eq_error_iff.mp hsupply
    have houtcome := (Generator.ofSize size p).simpleOutcome (Seeded.ofSeed s.seed)
    generalize (Generator.ofSize size p).generateSimple (Seeded.ofSeed s.seed) = r
      at hfailed houtcome
    cases houtcome with
    | infeasible hpairs =>
      exact absurd (Generator.edgeCount_ofSize_le size p) (Nat.not_le.mpr hpairs)
    | complete => cases hfailed
    | exhausted => exact ⟨hsimple, _, _, _, (Except.error.inj hfailed).symm⟩
  · rw [Generator.generatePartitioned_eq_ok _ _ h.checkWorkers_eq] at hsupply
    cases hsupply

theorem exists_summary (h : s.Accepted size p) {supply : EdgeSupply}
    (hsupply : s.supply (.ofSize size p) = .ok supply) (hsummary : s.summary = true) :
    ∃ summary, Summary.ofEdges (Generator.ofSize size p).nodeCount.toNat (supply.edges ())
      = .ok summary := by
  refine Summary.exists_ofEdges_eq_ok ?_ (within_of_supply hsupply)
  rw [h.nodeCount_ofSize]
  exact h.nodes_lt hsummary

theorem prepare_eq (h : s.Accepted size p) :
    s.prepare = (s.supply? (.ofSize size p)).map (·.map (.ofSize size p, ·)) := by
  rw [prepare, h.check_eq_ok]

end Accepted

/-! ## Reports -/

theorem report_plain (hsummary : s.summary = false) (g : Generator) (supply : EdgeSupply)
    (written : ℕ) :
    s.report g supply written = some (.ok ⟨s.output, g.nodeCount.toNat, written, none⟩) := by
  rw [report, hsummary]
  rfl

theorem report_summarised {g : Generator} {supply : EdgeSupply} {summary : Summary}
    (hsummary : s.summary = true)
    (h : Summary.ofEdges g.nodeCount.toNat (supply.edges ()) = .ok summary) (written : ℕ) :
    s.report g supply written
      = if supply.count ≤ indexLimit
        then some (.ok ⟨s.output, g.nodeCount.toNat, written, some summary⟩) else none := by
  rw [report, if_pos hsummary, Summary.summarise?_of_ok h, supply.length_edges]
  split_ifs
  · rfl
  · rfl

/-- Edges that have been saved are reported, unless there are too many of them for the summary. -/
theorem Accepted.report_cases {size : GraphSize} {p : Probabilities} (h : s.Accepted size p)
    {supply : EdgeSupply} (hsupply : s.supply (.ofSize size p) = .ok supply) (written : ℕ) :
    (∃ report, s.report (.ofSize size p) supply written = some (.ok report))
      ∨ s.report (.ofSize size p) supply written = none ∧ s.summary = true
        ∧ indexLimit < supply.count := by
  rcases Bool.eq_false_or_eq_true s.summary with hsummary | hsummary
  · obtain ⟨summary, hok⟩ := h.exists_summary hsupply hsummary
    rw [report_summarised hsummary hok]
    split_ifs with hfit
    · exact .inl ⟨_, rfl⟩
    · exact .inr ⟨rfl, hsummary, Nat.not_le.mp hfit⟩
  · exact .inl ⟨_, report_plain hsummary _ supply written⟩

/-! ## What becomes of the files -/

theorem supply?_eq_some_iff {g : Generator} {result : Except Failure EdgeSupply} :
    s.supply? g = some result ↔ s.overfull g = false ∧ s.supply g = result := by
  rw [supply?]
  split_ifs with h
  · simp [h]
  · simp [h]

theorem supply?_eq_none_iff {g : Generator} : s.supply? g = none ↔ s.overfull g = true := by
  rw [supply?, ite_eq_left_iff]
  simp

/-- How the command ends, with the files that it leaves. Nothing is said of the files once saving
has begun. -/
inductive Ends (s : GenerateSettings) (d : Directory) :
    Option (Except Failure GenerateReport) × Directory → Prop
  | refused {failure : Failure} (h : s.Fault failure) : Ends s d (some (.error failure), d)
  | overfull {size : GraphSize} {p : Probabilities} (h : s.Accepted size p)
    (hover : s.overfull (.ofSize size p) = true) : Ends s d (none, d)
  | exhausted {size : GraphSize} {p : Probabilities} (h : s.Accepted size p)
    (hsimple : s.simple = true) (accepted requested attempts : ℕ) :
    Ends s d (some (.error (.exhausted accepted requested attempts)), d)
  | unsaved {size : GraphSize} {p : Probabilities} (h : s.Accepted size p) (fault : FileFault)
    (d' : Directory) : Ends s d (some (.error (.storage s.output fault)), d')
  | broken {size : GraphSize} {p : Probabilities} (h : s.Accepted size p) {supply : EdgeSupply}
    (hsupply : s.supply? (.ofSize size p) = some (.ok supply)) (hsummary : s.summary = true)
    (hmany : indexLimit < supply.count) (d' : Directory) : Ends s d (none, d')
  | finished {size : GraphSize} {p : Probabilities} (h : s.Accepted size p)
    (report : GenerateReport) (d' : Directory) : Ends s d (some (.ok report), d')

theorem perform_task_of_fault {failure : Failure} (h : s.Fault failure) (d : Directory) :
    d.perform s.task = (some (.error failure), d) := by
  rw [task, prepare, check_eq_error_iff.mpr h]
  rfl

namespace Accepted

variable {size : GraphSize} {p : Probabilities}

theorem perform_task_of_overfull (h : s.Accepted size p)
    (hover : s.overfull (.ofSize size p) = true) (d : Directory) :
    d.perform s.task = (none, d) := by
  rw [task, h.prepare_eq, supply?_eq_none_iff.mpr hover]
  rfl

theorem perform_task_of_supply_error (h : s.Accepted size p) {failure : Failure}
    (hsupply : s.supply? (.ofSize size p) = some (.error failure)) (d : Directory) :
    d.perform s.task = (some (.error failure), d) := by
  rw [task, h.prepare_eq, hsupply]
  rfl

theorem perform_task_of_supply_ok (h : s.Accepted size p) {supply : EdgeSupply}
    (hsupply : s.supply? (.ofSize size p) = some (.ok supply)) (d : Directory) :
    d.perform s.task = match d.saveEdges s.output supply with
      | .error failure => (some (.error failure), d)
      | .ok (written, d') => (s.report (.ofSize size p) supply written, d') := by
  rw [task, h.prepare_eq, hsupply]
  rfl

end Accepted

theorem ends (s : GenerateSettings) (d : Directory) : s.Ends d (d.perform s.task) := by
  rcases s.exists_fault_or_accepted with ⟨failure, hfault⟩ | ⟨size, p, haccepted⟩
  · rw [perform_task_of_fault hfault]
    exact .refused hfault
  rcases hsupply : s.supply? (.ofSize size p) with _ | failure | supply
  · have hover := supply?_eq_none_iff.mp hsupply
    rw [haccepted.perform_task_of_overfull hover]
    exact .overfull haccepted hover
  · obtain ⟨hsimple, accepted, requested, attempts, rfl⟩ :=
      haccepted.exhausted_of_supply (supply?_eq_some_iff.mp hsupply).2
    rw [haccepted.perform_task_of_supply_error hsupply]
    exact .exhausted haccepted hsimple accepted requested attempts
  · rw [haccepted.perform_task_of_supply_ok hsupply]
    rcases hsave : d.saveEdges s.output supply with failure | ⟨written, d'⟩
    · obtain ⟨fault, rfl⟩ := Directory.exists_storage_of_saveEdges hsave
      exact .unsaved haccepted fault d
    · obtain ⟨report, hreport⟩ | ⟨hbroken, hsummary, hmany⟩ :=
        haccepted.report_cases (supply?_eq_some_iff.mp hsupply).2 written
      · simp only [hreport]
        exact .finished haccepted report d'
      · simp only [hbroken]
        exact .broken haccepted hsupply hsummary hmany d'

/-- A failure is that of a check, of the attempts at distinct edges, or of the file. Only the last
one may have touched a file. -/
theorem perform_task_failed {d : Directory} {failure : Failure}
    (h : (d.perform s.task).1 = some (.error failure)) :
    (s.Fault failure ∧ (d.perform s.task).2 = d)
      ∨ (s.simple = true ∧ (∃ accepted requested attempts,
        failure = .exhausted accepted requested attempts) ∧ (d.perform s.task).2 = d)
      ∨ ∃ fault, failure = .storage s.output fault := by
  have hends := s.ends d
  generalize d.perform s.task = r at hends h ⊢
  rcases hends with hfault | _ | ⟨_, hsimple, accepted, requested, attempts⟩ | ⟨_, fault⟩ | _ | _
  · obtain rfl := Except.error.inj (Option.some.inj h)
    exact .inl ⟨hfault, rfl⟩
  · cases h
  · obtain rfl := Except.error.inj (Option.some.inj h)
    exact .inr (.inl ⟨hsimple, ⟨accepted, requested, attempts, rfl⟩, rfl⟩)
  · obtain rfl := Except.error.inj (Option.some.inj h)
    exact .inr (.inr ⟨fault, rfl⟩)
  · cases h
  · cases h

theorem perform_task_of_not_isStorage {d : Directory} {failure : Failure}
    (h : (d.perform s.task).1 = some (.error failure)) (hstorage : failure.isStorage = false) :
    (d.perform s.task).2 = d := by
  rcases perform_task_failed h with ⟨-, hfiles⟩ | ⟨-, -, hfiles⟩ | ⟨fault, rfl⟩
  · exact hfiles
  · exact hfiles
  · cases hstorage

theorem perform_task_refused_iff {d : Directory} {failure : Failure} :
    (d.perform s.task).1 = some (.error failure) ∧ failure.isRefusal = true ↔ s.Fault failure := by
  constructor
  · rintro ⟨hfailed, hrefusal⟩
    rcases perform_task_failed hfailed with ⟨hfault, -⟩ | ⟨-, ⟨_, _, _, rfl⟩, -⟩ | ⟨fault, rfl⟩
    · exact hfault
    · cases hrefusal
    · cases hrefusal
  · intro hfault
    exact ⟨congrArg Prod.fst (perform_task_of_fault hfault d), isRefusal_of_fault hfault⟩

/-- **A refusal leaves all files as they are, and nothing is refused late.** A failure that is not
that of a file changes no file. Parameters and sizes are turned down exactly by the first check that
fails, and there are five ways to fail one. Once all checks pass, only the file can fail, or the
attempts at distinct edges if these are asked for: there are never more edges than pairs, and the
checks of the summary never fail on the edges that have been saved. -/
theorem perform_task_refuses_before_saving (s : GenerateSettings) (d : Directory) :
    (∀ failure, (d.perform s.task).1 = some (.error failure) → failure.isStorage = false →
        (d.perform s.task).2 = d)
      ∧ (∀ failure, (d.perform s.task).1 = some (.error failure) ∧ failure.isRefusal = true
        ↔ s.Fault failure)
      ∧ ((∃ failure, s.Fault failure)
        ↔ (∃ failure, GraphSize.ofScale s.scale s.edgeFactor = .error failure)
          ∨ (∃ failure, Probabilities.ofThree s.a s.b s.c = .error failure)
          ∨ ¬ (1 ≤ s.workers.toNat ∧ s.workers.toNat ≤ 1024)
          ∨ (s.simple = true ∧ 1 < s.workers.toNat)
          ∨ (s.summary = true ∧ 2 ^ 32 - 1 ≤ 2 ^ s.scale.toNat))
      ∧ (∀ failure, (d.perform s.task).1 = some (.error failure) → ¬ s.Fault failure →
        (∃ fault, failure = .storage s.output fault)
          ∨ (s.simple = true ∧ ∃ accepted requested attempts,
            failure = .exhausted accepted requested attempts))
      ∧ (∀ g, s.check = .ok g → g.edgeCount.toNat ≤ g.availablePairs)
      ∧ ∀ g supply, s.check = .ok g → s.supply g = .ok supply → s.summary = true →
        ∃ summary, Summary.ofEdges g.nodeCount.toNat (supply.edges ()) = .ok summary := by
  refine ⟨fun failure ↦ perform_task_of_not_isStorage, fun failure ↦ perform_task_refused_iff,
    s.exists_fault_iff, ?_, ?_, ?_⟩
  · intro failure hfailed hfault
    rcases perform_task_failed hfailed with ⟨h, -⟩ | ⟨hsimple, hexhausted, -⟩ | hstorage
    · exact absurd h hfault
    · exact .inr ⟨hsimple, hexhausted⟩
    · exact .inl hstorage
  · intro g hcheck
    obtain ⟨size, p, -, rfl⟩ := exists_accepted_of_check hcheck
    exact Generator.edgeCount_ofSize_le size p
  · intro g supply hcheck hsupply hsummary
    obtain ⟨size, p, haccepted, rfl⟩ := exists_accepted_of_check hcheck
    exact haccepted.exists_summary hsupply hsummary

end GenerateSettings

end RecursiveMatrix
