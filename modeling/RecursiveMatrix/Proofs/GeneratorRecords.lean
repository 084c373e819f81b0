import RecursiveMatrix.Proofs.Interruptions
import RecursiveMatrix.Proofs.Results

/-!
# Two ways to build a generator

A generator can be built from the numbers of vertices and edges, or from the size of a graph. Either
way leaves a record that is worked out once, and nothing in the record itself says that its fields
belong together. The first way finds the levels in the bits of the number of vertices, and refuses
every number that has not exactly one bit set. The second takes the scale for the levels, shifts a
bit to its place, and checks nothing.

Both leave records whose fields belong together, which is what a `Generator` asks of its record. The
other way round every such record is the one of its own counts, so no generator is out of reach
(`GeneratorRecord.built_iff`). What is proved of every generator is therefore proved of every record
that can be built, and of nothing else.
-/

namespace RecursiveMatrix

-- Powers are those of `Nat.pow`, whatever other instances are in scope.
attribute [local instance (high)] instPowNat

open UniformSource

variable {nodes edges : UInt64} {p : Probabilities}

/-! ## Powers of two -/

theorem onesCount_ne_one_iff :
    onesCount nodes ≠ 1 ↔ ∀ levels : ℕ, nodes.toNat ≠ 2 ^ levels := by
  rw [ne_eq, onesCount_eq_one_iff, not_exists]
  exact ⟨fun h levels hpow ↦ h levels ⟨le_of_toNat_eq_two_pow hpow, hpow⟩,
    fun h levels hlevels ↦ h levels hlevels.2⟩

namespace Generator

theorem exists_ofCounts_eq_ok_iff :
    (∃ g, ofCounts nodes edges p = .ok g)
      ↔ ∃ levels : ℕ, levels ≤ 63 ∧ nodes.toNat = 2 ^ levels := by
  have hmap := map_record_ofCounts nodes edges p
  rw [← onesCount_eq_one_iff]
  constructor
  · rintro ⟨g, hg⟩
    by_contra hne
    rw [hg, GeneratorRecord.ofCounts, if_neg hne] at hmap
    cases hmap
  · intro hone
    obtain ⟨g, hg, -⟩ := Except.map_eq_ok_iff.mp (hmap.trans (if_pos hone))
    exact ⟨g, hg⟩

theorem ofCounts_eq_error_iff {failure : Failure} :
    ofCounts nodes edges p = .error failure
      ↔ (∀ levels : ℕ, nodes.toNat ≠ 2 ^ levels)
        ∧ failure = .rejected (.notPowerOfTwo nodes.toNat) := by
  rw [← Except.map_eq_error_iff, map_record_ofCounts, GeneratorRecord.ofCounts,
    ← onesCount_ne_one_iff]
  split_ifs with hone
  · exact iff_of_false (by simp) fun h ↦ h.1 hone
  · simp [hone, eq_comm]

end Generator

/-! ## Records that can be built -/

namespace GeneratorRecord

/-- The records that can be built. -/
inductive Built : GeneratorRecord → Prop
  | ofCounts {nodes edges : UInt64} {p : Probabilities} {r : GeneratorRecord}
    (h : ofCounts nodes edges p = .ok r) : Built r
  | ofSize {scale : UInt32} {edgeFactor : UInt64} {size : GraphSize}
    (h : GraphSize.ofScale scale edgeFactor = .ok size) (p : Probabilities) :
    Built (ofSize size p)

variable {r : GeneratorRecord}

/-- **What can be built is what belongs together.** -/
theorem built_iff_isCoherent : Built r ↔ r.IsCoherent := by
  constructor
  · rintro (h | ⟨-, p⟩)
    · exact isCoherent_of_ofCounts h
    · exact isCoherent_ofSize _ p
  · exact fun h ↦ .ofCounts h.ofCounts_eq_ok

theorem built_iff :
    Built r ↔ r.nodeCount.toNat = 2 ^ r.levels.toNat
      ∧ r.thresholds = r.probabilities.thresholds :=
  built_iff_isCoherent.trans ⟨fun h ↦ ⟨h.nodeCount_eq, h.thresholds_eq⟩, fun h ↦ ⟨h.1, h.2⟩⟩

/-! ## Their edges -/

universe u

variable {σ : Type u} [UniformSource σ]

/-- The first `count` edges that a source gives, and the source that is left. -/
def placeMany (r : GeneratorRecord) : (count : ℕ) → σ → List Edge × σ
  | 0, s => ([], s)
  | count + 1, s =>
    let placed := r.place s
    let others := r.placeMany count placed.2
    (placed.1 :: others.1, others.2)

def generate (r : GeneratorRecord) (s : σ) : List Edge × σ := r.placeMany r.edgeCount.toNat s

theorem place_record (g : Generator) (s : σ) : g.record.place s = g.place s := rfl

theorem placeMany_record (g : Generator) (count : ℕ) (s : σ) :
    g.record.placeMany count s = ((g.stream s).take count, skip (count * g.levels) s) := by
  induction count generalizing s with
  | zero =>
    rw [placeMany, Nat.zero_mul, Stream'.take_zero]
    rfl
  | succ count ih =>
    simp only [placeMany, place_record, g.place_snd, ih, g.take_succ_stream]
    rw [← skip_add, Nat.succ_mul, Nat.add_comm]

theorem generate_record (g : Generator) (s : σ) : g.record.generate s = g.generate s := by
  rw [g.generate_eq, ← placeMany_record]
  rfl

/-- **Counts and sizes build the same generators.** From counts a generator is built exactly if the
number of vertices is a power of two, which is the same in its bits, and every other number is
reported. A record can be built exactly if it has two to the number of its levels as vertices and
the thresholds of its probabilities. The counts of a size build what the size builds, field by
field, and the edges it gives are those of the generator of that size, whatever the source. -/
theorem counts_and_size_build_alike (nodes edges : UInt64) (size : GraphSize) (p : Probabilities) :
    ((∃ g, Generator.ofCounts nodes edges p = .ok g)
        ↔ ∃ levels : ℕ, levels ≤ 63 ∧ nodes.toNat = 2 ^ levels)
      ∧ (∀ failure, Generator.ofCounts nodes edges p = .error failure
        ↔ (∀ levels : ℕ, nodes.toNat ≠ 2 ^ levels)
          ∧ failure = .rejected (.notPowerOfTwo nodes.toNat))
      ∧ ofCounts nodes edges p = (Generator.ofCounts nodes edges p).map Generator.record
      ∧ ofSize size p = (Generator.ofSize size p).record
      ∧ (∀ r, Built r ↔ r.nodeCount.toNat = 2 ^ r.levels.toNat
        ∧ r.thresholds = r.probabilities.thresholds)
      ∧ Generator.ofCounts size.nodeCount size.edgeCount p = .ok (Generator.ofSize size p)
      ∧ ∃ r, ofCounts size.nodeCount size.edgeCount p = .ok r ∧ r = ofSize size p
        ∧ ∀ s : σ, r.generate s = (Generator.ofSize size p).generate s := by
  let g := Generator.ofSize size p
  exact ⟨Generator.exists_ofCounts_eq_ok_iff, fun _ ↦ Generator.ofCounts_eq_error_iff,
    (Generator.map_record_ofCounts nodes edges p).symm, rfl, fun _ ↦ built_iff,
    g.ofCounts_self, ofSize size p, g.coherent.ofCounts_eq_ok, rfl, fun s ↦ generate_record g s⟩

end GeneratorRecord

end RecursiveMatrix
