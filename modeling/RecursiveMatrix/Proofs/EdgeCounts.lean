import RecursiveMatrix.Proofs.Refusals

/-!
# The number of edges of a graph

Which scales and edge factors are those of a graph, and how many edges it has
(`GraphSize.ofScale_decides_exactly`). There are two terms, of which the smaller one counts: the
edges per vertex put together, and the pairs of vertices.

What fits a word is decided by both terms at once. The pairs fit a word of `width` bits exactly if
two vertices do, give or take a bit, and otherwise the edge factor has to be small enough
(`cappedEdgeCount_lt_two_pow_iff`). The same equivalence serves words of 64 bits here and of 32 bits
wherever edges are indexed by them.

The terms themselves are worked out in words of 128 bits, of which the last 64 bits are kept.
`wideEdgeCount?` does so with operations that give up when a result does not fit, and they never
have to.
-/

namespace RecursiveMatrix

-- Powers are those of `Nat.pow`, whatever other instances are in scope.
attribute [local instance (high)] instPowNat

/-! ## Two terms -/

theorem pairs_succ (scale : ℕ) :
    2 ^ (scale + 1) * (2 ^ (scale + 1) - 1) / 2 = 2 ^ scale * (2 ^ (scale + 1) - 1) := by
  have hdouble (n : ℕ) : 2 ^ (scale + 1) * n = 2 * (2 ^ scale * n) := by
    rw [Nat.pow_succ', Nat.mul_assoc]
  rw [hdouble, Nat.mul_div_cancel_left _ Nat.two_pos]

/-- There are about `2 ^ (2 * scale - 1)` pairs, and never more. -/
theorem pairs_lt_two_pow_iff {scale width : ℕ} :
    2 ^ scale * (2 ^ scale - 1) / 2 < 2 ^ width ↔ 2 * scale ≤ width + 1 := by
  cases scale with
  | zero => exact iff_of_true (Nat.two_pow_pos width) (Nat.zero_le _)
  | succ k =>
    have hhalf : 2 ^ (k + 1) = 2 * 2 ^ k := Nat.pow_succ'
    have hpos : 0 < 2 ^ k := Nat.two_pow_pos k
    rw [pairs_succ]
    constructor
    · intro hlt
      by_contra hwide
      have hle : 2 ^ width ≤ 2 ^ k * (2 ^ (k + 1) - 1) := calc
        2 ^ width ≤ 2 ^ (k + k) := Nat.pow_le_pow_right Nat.two_pos (by omega)
        _ = 2 ^ k * 2 ^ k := Nat.pow_add 2 k k
        _ ≤ 2 ^ k * (2 ^ (k + 1) - 1) := Nat.mul_le_mul_left _ (by omega)
      exact absurd hlt (Nat.not_lt.mpr hle)
    · intro hwide
      calc 2 ^ k * (2 ^ (k + 1) - 1) < 2 ^ k * 2 ^ (k + 1) :=
            Nat.mul_lt_mul_of_pos_left (by omega) hpos
        _ = 2 ^ (k + (k + 1)) := (Nat.pow_add 2 k (k + 1)).symm
        _ ≤ 2 ^ width := Nat.pow_le_pow_right Nat.two_pos (by omega)

theorem mul_lt_two_pow_iff {scale width edgeFactor : ℕ} (h : scale ≤ width) :
    2 ^ scale * edgeFactor < 2 ^ width ↔ edgeFactor < 2 ^ (width - scale) := by
  have hsplit : 2 ^ width = 2 ^ scale * 2 ^ (width - scale) := by
    rw [← Nat.pow_add, Nat.add_sub_cancel' h]
  rw [hsplit, Nat.mul_lt_mul_left (Nat.two_pow_pos scale)]

/-- **The number of edges fits a word** exactly if there are few pairs or few edges per vertex. -/
theorem cappedEdgeCount_lt_two_pow_iff {scale edgeFactor width : ℕ} (h : scale ≤ width) :
    cappedEdgeCount scale edgeFactor < 2 ^ width
      ↔ 2 * scale ≤ width + 1 ∨ edgeFactor < 2 ^ (width - scale) := by
  rw [cappedEdgeCount, min_lt_iff, pairs_lt_two_pow_iff, mul_lt_two_pow_iff h, or_comm]

theorem cappedEdgeCount_mono {scale scale' edgeFactor edgeFactor' : ℕ} (hscale : scale ≤ scale')
    (hfactor : edgeFactor ≤ edgeFactor') :
    cappedEdgeCount scale edgeFactor ≤ cappedEdgeCount scale' edgeFactor' := by
  have hpow : 2 ^ scale ≤ 2 ^ scale' := Nat.pow_le_pow_right Nat.two_pos hscale
  have hpairs := Nat.mul_le_mul hpow (Nat.sub_le_sub_right hpow 1)
  exact min_le_min (Nat.mul_le_mul hpow hfactor) (Nat.div_le_div_right hpairs)

theorem cappedEdgeCount_eq_zero_iff {scale edgeFactor : ℕ} (h : 0 < edgeFactor) :
    cappedEdgeCount scale edgeFactor = 0 ↔ scale = 0 := by
  cases scale with
  | zero => simp [cappedEdgeCount]
  | succ k =>
    have hpairs : 0 < 2 ^ k * (2 ^ (k + 1) - 1) :=
      Nat.mul_pos (Nat.two_pow_pos k) (Nat.sub_pos_of_lt (Nat.one_lt_two_pow k.succ_ne_zero))
    have hfactor : 0 < 2 ^ (k + 1) * edgeFactor := Nat.mul_pos (Nat.two_pow_pos _) h
    rw [cappedEdgeCount, pairs_succ]
    exact iff_of_false (lt_min hfactor hpairs).ne' k.succ_ne_zero

/-! ## Wide words -/

section Checked

variable {w : ℕ} {x y : BitVec w}

/-- The product of two words, if it is one. -/
def checkedMul (x y : BitVec w) : Option (BitVec w) :=
  if x.umulOverflow y then none else some (x * y)

/-- The difference of two words, if it is one. -/
def checkedSub (x y : BitVec w) : Option (BitVec w) :=
  if x.usubOverflow y then none else some (x - y)

theorem checkedMul_eq_some (h : x.toNat * y.toNat < 2 ^ w) : checkedMul x y = some (x * y) := by
  have hfits : ¬ x.umulOverflow y = true := by
    simpa [BitVec.umulOverflow] using h
  exact if_neg hfits

theorem checkedSub_eq_some (h : y.toNat ≤ x.toNat) : checkedSub x y = some (x - y) := by
  have hfits : ¬ x.usubOverflow y = true := by
    simpa [BitVec.usubOverflow] using h
  exact if_neg hfits

end Checked

/-- The number of edges in words of 128 bits, as long as no operation goes past them. -/
def wideEdgeCount? (nodes edgeFactor : UInt64) : Option (BitVec 128) := do
  let byFactor ← checkedMul (widen nodes) (widen edgeFactor)
  let ordered ← checkedMul (widen nodes) (← checkedSub (widen nodes) 1)
  let pairs := ordered / 2
  return if byFactor ≤ pairs then byFactor else pairs

/-- **Words of 128 bits are wide enough**, whatever the edge factor. -/
theorem wideEdgeCount?_eq_some {nodes : UInt64} (h : 1 ≤ nodes.toNat) (edgeFactor : UInt64) :
    wideEdgeCount? nodes edgeFactor = some (wideEdgeCount nodes edgeFactor) := by
  have hword (m n : ℕ) (hm : m < 2 ^ 64) (hn : n < 2 ^ 64) : m * n < 2 ^ 128 := calc
    m * n < 2 ^ 64 * 2 ^ 64 := Nat.mul_lt_mul'' hm hn
    _ = 2 ^ 128 := by decide
  have hnodes : (widen nodes).toNat < 2 ^ 64 := toNat_widen nodes ▸ nodes.toNat_lt
  have hfactor : (widen edgeFactor).toNat < 2 ^ 64 := toNat_widen edgeFactor ▸ edgeFactor.toNat_lt
  have hone : (1 : BitVec 128).toNat ≤ (widen nodes).toNat := by rwa [toNat_widen]
  have hothers : (widen nodes - 1).toNat < 2 ^ 64 := by
    rw [BitVec.toNat_sub_of_le hone]
    exact (Nat.sub_le _ _).trans_lt hnodes
  rw [wideEdgeCount?, checkedMul_eq_some (hword _ _ hnodes hfactor), checkedSub_eq_some hone]
  simp only [Option.bind_eq_bind, Option.bind_some, Option.pure_def,
    checkedMul_eq_some (hword _ _ hnodes hothers)]
  rfl

/-! ## Accepted sizes -/

namespace GraphSize

variable {scale : UInt32} {edgeFactor : UInt64}

/-- What is wrong with a scale and an edge factor. The scale is looked at first. -/
inductive SizeFault (scale : UInt32) (edgeFactor : UInt64) : ParameterFault → Prop
  | scale (h : 48 < scale.toNat) : SizeFault scale edgeFactor (.scaleTooLarge scale.toNat 48)
  | noEdges (hscale : scale.toNat ≤ 48) (h : edgeFactor.toNat = 0) :
    SizeFault scale edgeFactor .zeroEdgeFactor
  | manyEdges (hscale : scale.toNat ≤ 48) (hpairs : 32 < scale.toNat)
    (h : 2 ^ (64 - scale.toNat) ≤ edgeFactor.toNat) :
    SizeFault scale edgeFactor (.edgeFactorTooLarge edgeFactor.toNat scale.toNat)

/-- A scale and an edge factor with which nothing is wrong. -/
structure IsSize (scale : UInt32) (edgeFactor : UInt64) : Prop where
  /-- The scale is supported. -/
  scale_le : scale.toNat ≤ 48
  /-- There are edges. -/
  edgeFactor_pos : 1 ≤ edgeFactor.toNat
  /-- The edges fit a word. -/
  edges_fit : scale.toNat ≤ 32 ∨ edgeFactor.toNat < 2 ^ (64 - scale.toNat)

theorem SizeFault.parameter_eq {fault : ParameterFault} (h : SizeFault scale edgeFactor fault) :
    fault.parameter = if scale.toNat ≤ 48 then "edgefactor" else "scale" := by
  cases h with
  | scale h => rw [if_neg (Nat.not_le.mpr h), ParameterFault.parameter]
  | noEdges hscale | manyEdges hscale => rw [if_pos hscale, ParameterFault.parameter]

theorem exists_sizeFault_or_isSize (scale : UInt32) (edgeFactor : UInt64) :
    (∃ fault, SizeFault scale edgeFactor fault) ∨ IsSize scale edgeFactor := by
  rcases Nat.lt_or_ge 48 scale.toNat with hlarge | hscale
  · exact .inl ⟨_, .scale hlarge⟩
  rcases Nat.eq_zero_or_pos edgeFactor.toNat with hzero | hpos
  · exact .inl ⟨_, .noEdges hscale hzero⟩
  by_cases hfit : scale.toNat ≤ 32 ∨ edgeFactor.toNat < 2 ^ (64 - scale.toNat)
  · exact .inr ⟨hscale, hpos, hfit⟩
  · obtain ⟨hpairs, hmany⟩ := not_or.mp hfit
    exact .inl ⟨_, .manyEdges hscale (Nat.not_le.mp hpairs) (Nat.not_lt.mp hmany)⟩

theorem edges_fit_iff (h : scale.toNat ≤ 48) :
    (wideEdgeCount (nodesOf scale) edgeFactor).toNat < UInt64.size
      ↔ scale.toNat ≤ 32 ∨ edgeFactor.toNat < 2 ^ (64 - scale.toNat) := by
  have hiff : cappedEdgeCount scale.toNat edgeFactor.toNat < 2 ^ 64
      ↔ 2 * scale.toNat ≤ 64 + 1 ∨ edgeFactor.toNat < 2 ^ (64 - scale.toNat) :=
    cappedEdgeCount_lt_two_pow_iff (h.trans (by decide))
  have hpairs : 2 * scale.toNat ≤ 64 + 1 ↔ scale.toNat ≤ 32 := by omega
  rw [hpairs] at hiff
  rwa [toNat_wideEdgeCount h]

theorem ofScale_of_sizeFault {fault : ParameterFault} (h : SizeFault scale edgeFactor fault) :
    ofScale scale edgeFactor = .error (.rejected fault) := by
  cases h with
  | scale h =>
    have hlarge : ¬ scale.toNat ≤ maxScale := Nat.not_le.mpr h
    rw [ofScale, dif_neg hlarge, maxScale]
  | noEdges hscale h =>
    have hscale : scale.toNat ≤ maxScale := hscale
    have hzero : edgeFactor = 0 := UInt64.toNat_inj.mp h
    rw [ofScale, dif_pos hscale, if_pos hzero]
  | manyEdges hscale hpairs h =>
    have hpos : edgeFactor ≠ 0 := by
      rintro rfl
      exact absurd h (Nat.not_le.mpr (Nat.two_pow_pos _))
    have hmany : ¬ (wideEdgeCount (nodesOf scale) edgeFactor).toNat < UInt64.size := by
      rw [edges_fit_iff hscale]
      exact not_or.mpr ⟨Nat.not_le.mpr hpairs, Nat.not_lt.mpr h⟩
    have hscale : scale.toNat ≤ maxScale := hscale
    rw [ofScale, dif_pos hscale, if_neg hpos, dif_neg hmany]

theorem IsSize.exists_eq_ok (h : IsSize scale edgeFactor) :
    ∃ size, ofScale scale edgeFactor = .ok size := by
  have hpos : edgeFactor ≠ 0 := by
    rintro rfl
    exact absurd h.edgeFactor_pos (by decide)
  have hscale : scale.toNat ≤ maxScale := h.scale_le
  have hfit := (edges_fit_iff h.scale_le).mpr h.edges_fit
  rw [ofScale, dif_pos hscale, if_neg hpos, dif_pos hfit]
  exact ⟨_, rfl⟩

theorem exists_eq_ok_iff :
    (∃ size, ofScale scale edgeFactor = .ok size) ↔ IsSize scale edgeFactor := by
  refine ⟨?_, IsSize.exists_eq_ok⟩
  rintro ⟨size, hsize⟩
  refine (exists_sizeFault_or_isSize scale edgeFactor).resolve_left ?_
  rintro ⟨fault, hfault⟩
  rw [ofScale_of_sizeFault hfault] at hsize
  cases hsize

theorem ofScale_eq_error_iff {failure : Failure} :
    ofScale scale edgeFactor = .error failure
      ↔ ∃ fault, SizeFault scale edgeFactor fault ∧ failure = .rejected fault := by
  constructor
  · intro hfailed
    rcases exists_sizeFault_or_isSize scale edgeFactor with ⟨fault, hfault⟩ | hsize
    · rw [ofScale_of_sizeFault hfault] at hfailed
      exact ⟨fault, hfault, (Except.error.inj hfailed).symm⟩
    · obtain ⟨size, hok⟩ := hsize.exists_eq_ok
      rw [hok] at hfailed
      cases hfailed
  · rintro ⟨fault, hfault, rfl⟩
    exact ofScale_of_sizeFault hfault

/-! ### Their counts -/

variable {size : GraphSize}

theorem nodeCount_of_ofScale (h : ofScale scale edgeFactor = .ok size) :
    size.nodeCount.toNat = 2 ^ scale.toNat := by
  rw [nodeCount_toNat, scale_of_ofScale h]

theorem edgeCount_of_ofScale (h : ofScale scale edgeFactor = .ok size) :
    size.edgeCount.toNat = cappedEdgeCount scale.toNat edgeFactor.toNat := by
  rw [edgeCount_toNat, scale_of_ofScale h, edgeFactor_of_ofScale h]

/-- Keeping the last 64 bits of the wide number of edges loses nothing. -/
theorem exists_wide_of_ofScale (h : ofScale scale edgeFactor = .ok size) :
    ∃ count, wideEdgeCount? size.nodeCount edgeFactor = some count
      ∧ count.toNat = size.edgeCount.toNat ∧ count.setWidth 64 = size.edgeCount.toBitVec := by
  have hsome : 1 ≤ size.nodeCount.toNat := nodeCount_of_ofScale h ▸ Nat.two_pow_pos scale.toNat
  obtain rfl := edgeFactor_of_ofScale h
  refine ⟨wideEdgeCount size.nodeCount size.edgeFactor, wideEdgeCount?_eq_some hsome _, ?_, rfl⟩
  rw [nodeCount, toNat_wideEdgeCount size.scale_le, edgeCount_toNat]

theorem edgeCount_eq_zero_iff (h : ofScale scale edgeFactor = .ok size) :
    size.edgeCount.toNat = 0 ↔ scale.toNat = 0 := by
  rw [edgeCount_of_ofScale h]
  exact cappedEdgeCount_eq_zero_iff (exists_eq_ok_iff.mp ⟨size, h⟩).edgeFactor_pos

universe u

theorem generateSimple_ne_rejected {σ : Type u} [UniformSource σ] (size : GraphSize)
    (p : Probabilities) (source : σ) (fault : ParameterFault) :
    ((Generator.ofSize size p).generateSimple source).1 ≠ .error (.rejected fault) := by
  intro hfailed
  have houtcome := (Generator.ofSize size p).simpleOutcome source
  generalize (Generator.ofSize size p).generateSimple source = r at hfailed houtcome
  cases houtcome with
  | infeasible hpairs =>
    exact absurd (Generator.edgeCount_ofSize_le size p) (Nat.not_le.mpr hpairs)
  | complete | exhausted => cases hfailed

/-- **Sizes are accepted and counted exactly.** A scale and an edge factor are those of a graph
exactly if the scale is at most 48, there are edges, and from scale 33 on the edge factor is small
enough; the scale is the first to be refused. An accepted size has `2 ^ scale` vertices and exactly
the smaller of both terms as edges: words of 128 bits hold all that is computed on the way, and the
last 64 bits of the result are all of it. Only scale 0 is without edges, there are never more of
them than ordered pairs, so that they can be distinct, and a larger scale or edge factor never means
fewer. -/
theorem ofScale_decides_exactly {σ : Type u} [UniformSource σ] (scale : UInt32)
    (edgeFactor : UInt64) :
    ((∃ size, ofScale scale edgeFactor = .ok size)
        ↔ scale.toNat ≤ 48 ∧ 1 ≤ edgeFactor.toNat
          ∧ (scale.toNat ≤ 32 ∨ edgeFactor.toNat < 2 ^ (64 - scale.toNat)))
      ∧ (∀ failure, ofScale scale edgeFactor = .error failure
        ↔ ∃ fault, SizeFault scale edgeFactor fault ∧ failure = .rejected fault)
      ∧ (∀ fault, SizeFault scale edgeFactor fault →
        fault.parameter = if scale.toNat ≤ 48 then "edgefactor" else "scale")
      ∧ ∀ size, ofScale scale edgeFactor = .ok size →
        size.nodeCount.toNat = 2 ^ scale.toNat
          ∧ size.edgeCount.toNat = min (2 ^ scale.toNat * edgeFactor.toNat)
            (2 ^ scale.toNat * (2 ^ scale.toNat - 1) / 2)
          ∧ (∃ count, wideEdgeCount? size.nodeCount edgeFactor = some count
            ∧ count.toNat = size.edgeCount.toNat
            ∧ count.setWidth 64 = size.edgeCount.toBitVec)
          ∧ (size.edgeCount.toNat = 0 ↔ scale.toNat = 0)
          ∧ size.edgeCount.toNat ≤ size.nodeCount.toNat * (size.nodeCount.toNat - 1)
          ∧ (∀ (p : Probabilities) (source : σ) (fault : ParameterFault),
            ((Generator.ofSize size p).generateSimple source).1 ≠ .error (.rejected fault))
          ∧ ∀ (scale' : UInt32) (edgeFactor' : UInt64) (size' : GraphSize),
            ofScale scale' edgeFactor' = .ok size' → scale.toNat ≤ scale'.toNat →
              edgeFactor.toNat ≤ edgeFactor'.toNat →
                size.edgeCount.toNat ≤ size'.edgeCount.toNat := by
  refine ⟨exists_eq_ok_iff.trans ?_, fun _ ↦ ofScale_eq_error_iff, fun _ h ↦ h.parameter_eq, ?_⟩
  · exact ⟨fun h ↦ ⟨h.scale_le, h.edgeFactor_pos, h.edges_fit⟩, fun h ↦ ⟨h.1, h.2.1, h.2.2⟩⟩
  · intro size h
    refine ⟨nodeCount_of_ofScale h, edgeCount_of_ofScale h, exists_wide_of_ofScale h,
      edgeCount_eq_zero_iff h, ?_, generateSimple_ne_rejected size, ?_⟩
    · exact Generator.edgeCount_ofSize_le size default
    · intro scale' edgeFactor' size' h' hscale hfactor
      rw [edgeCount_of_ofScale h, edgeCount_of_ofScale h']
      exact cappedEdgeCount_mono hscale hfactor

/-- Scale 33 is the first at which the edge factor matters: one edge more per vertex and their
number would be `2 ^ 64`. -/
theorem ofScale_decides_exactly_at_33 :
    (∃ size, ofScale 33 2147483647 = .ok size ∧ size.edgeCount.toNat = 2 ^ 64 - 2 ^ 33)
      ∧ ofScale 33 2147483648
        = .error (.rejected (.edgeFactorTooLarge 2147483648 33)) := by
  obtain ⟨haccepted, -, -, hcounted⟩ := @ofScale_decides_exactly Replay _ 33 2147483647
  obtain ⟨size, hsize⟩ := haccepted.mpr (by decide)
  obtain ⟨-, hfailed, -⟩ := @ofScale_decides_exactly Replay _ 33 2147483648
  refine ⟨⟨size, hsize, ?_⟩, (hfailed _).mpr ⟨_, .manyEdges ?_ ?_ ?_, rfl⟩⟩
  · rw [(hcounted size hsize).2.1]
    decide
  all_goals decide

end GraphSize

end RecursiveMatrix
