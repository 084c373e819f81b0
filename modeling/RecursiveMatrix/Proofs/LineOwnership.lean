import Mathlib.Algebra.BigOperators.Group.Finset.Piecewise
import Mathlib.Data.List.ReduceOption
import RecursiveMatrix.EdgeList.Loader
import RecursiveMatrix.Proofs.Results

/-!
# Loaders that share a file

A loader counts lines, while it returns edges, and lines without an edge make the two counts drift
apart. To say how the edges of several loaders fit together, edges are therefore taken with the
numbers of their lines (`numberedEdges`), whether or not the whole file can be read. What a loader
returns is then a filter of that one list (`read_eq_ok_iff`), and how it fails is decided by the
first of its lines that cannot be read (`read_eq_error_iff`).

Every line has exactly one owner, so the loaders together find every edge and every fault of a file
once (`shares_make_whole`).
-/

namespace RecursiveMatrix.Loader

variable {l : Loader} {path : OsText} {bytes : List UInt8} {n : ℕ} {failure : Failure}

/-! ## The lines of a loader -/

/-- The lines that the loader looks at, with their numbers. -/
def ownedLines (l : Loader) (bytes : List UInt8) : List (List UInt8 × ℕ) :=
  (Text.lines bytes).zipIdx.filter fun x ↦ l.owns x.2

theorem mem_ownedLines_iff {line : List UInt8} :
    (line, n) ∈ l.ownedLines bytes ↔ (Text.lines bytes)[n]? = some line ∧ l.owns n = true := by
  rw [ownedLines, List.mem_filter, List.mk_mem_zipIdx_iff_getElem?]

theorem pairwise_zipIdx {α : Type*} (xs : List α) : xs.zipIdx.Pairwise fun x y ↦ x.2 < y.2 := by
  rw [← List.pairwise_map, List.zipIdx_map_snd]
  exact List.pairwise_lt_range' 1

theorem pairwise_ownedLines (l : Loader) (bytes : List UInt8) :
    (l.ownedLines bytes).Pairwise fun x y ↦ x.2 < y.2 :=
  (pairwise_zipIdx _).filter _

theorem read_eq_ok_iff_forall₂ {edges : List Edge} :
    l.read path bytes = .ok edges ↔ ∃ items : List (Option Edge),
      List.Forall₂ (fun x item ↦ readNumbered path x.1 x.2 = .ok item) (l.ownedLines bytes) items
        ∧ items.reduceOption = edges := by
  rw [read, Except.bind_eq_ok_iff]
  exact exists_congr fun items ↦
    and_congr mapM_eq_ok_iff ⟨Except.ok.inj, congrArg Except.ok⟩

/-! ## Faults -/

/-- Line `n` cannot be read. -/
def BreaksAt (path : OsText) (bytes : List UInt8) (n : ℕ) (failure : Failure) : Prop :=
  ∃ line, (Text.lines bytes)[n]? = some line ∧ readNumbered path line n = .error failure

/-- Line `n` is the first of the loader's lines that cannot be read. -/
structure FailsAt (l : Loader) (path : OsText) (bytes : List UInt8) (n : ℕ) (failure : Failure) :
    Prop where
  owned : l.owns n = true
  breaks : BreaksAt path bytes n failure
  none_before : ∀ m < n, l.owns m = true → ∀ earlier, ¬ BreaksAt path bytes m earlier

theorem exists_readNumbered_iff {line : List UInt8} (h : (Text.lines bytes)[n]? = some line) :
    (∃ item, readNumbered path line n = .ok item) ↔ ∀ failure, ¬ BreaksAt path bytes n failure := by
  constructor
  · rintro ⟨item, hitem⟩ failure ⟨other, hother, hbreaks⟩
    obtain rfl : line = other := Option.some.inj (h.symm.trans hother)
    rw [hitem] at hbreaks
    cases hbreaks
  · intro hnone
    cases hread : readNumbered path line n with
    | ok item => exact ⟨item, rfl⟩
    | error failure => exact absurd ⟨line, h, hread⟩ (hnone failure)

/-- **A loader fails at the first of its lines that cannot be read**, and for what is wrong
there. -/
theorem read_eq_error_iff :
    l.read path bytes = .error failure ↔ ∃ n, l.FailsAt path bytes n failure := by
  have hrun : l.read path bytes = .error failure
      ↔ (l.ownedLines bytes).mapM (fun x ↦ readNumbered path x.1 x.2) = .error failure := by
    rw [read, Except.bind_eq_error_iff]
    refine or_iff_left ?_
    rintro ⟨found, -, h⟩
    cases h
  rw [hrun, mapM_eq_error_iff]
  have hsorted := pairwise_ownedLines l bytes
  constructor
  · rintro ⟨before, ⟨line, n⟩, after, heq, hbefore, hbreaks⟩
    have hmem : (line, n) ∈ l.ownedLines bytes := heq ▸ List.mem_append_right _ List.mem_cons_self
    obtain ⟨hline, howned⟩ := mem_ownedLines_iff.mp hmem
    refine ⟨n, howned, ⟨line, hline, hbreaks⟩, ?_⟩
    rintro m hlt hm earlier ⟨other, hother, hfails⟩
    -- A line with a smaller number can only stand before the one that failed.
    have hin : (other, m) ∈ before ++ (line, n) :: after :=
      heq ▸ mem_ownedLines_iff.mpr ⟨hother, hm⟩
    rw [heq] at hsorted
    rcases List.mem_append.mp hin with hin | hin
    · obtain ⟨item, hitem⟩ := hbefore _ hin
      exact (exists_readNumbered_iff hother).mp ⟨item, hitem⟩ earlier ⟨other, hother, hfails⟩
    · rcases List.mem_cons.mp hin with hin | hin
      · exact absurd (congrArg Prod.snd hin) hlt.ne
      · have hafter := (List.pairwise_cons.mp (List.pairwise_append.mp hsorted).2.1).1 _ hin
        exact absurd hlt hafter.asymm
  · rintro ⟨n, howned, ⟨line, hline, hbreaks⟩, hnone⟩
    obtain ⟨before, after, heq⟩ := List.append_of_mem (mem_ownedLines_iff.mpr ⟨hline, howned⟩)
    refine ⟨before, (line, n), after, heq, ?_, hbreaks⟩
    rintro ⟨other, m⟩ hin
    obtain ⟨hother, hm⟩ := mem_ownedLines_iff.mp (heq ▸ List.mem_append_left _ hin)
    rw [heq] at hsorted
    have hlt : m < n := (List.pairwise_append.mp hsorted).2.2 _ hin _ List.mem_cons_self
    exact (exists_readNumbered_iff hother).mpr (hnone m hlt hm)

/-! ## Edges -/

/-- The edge in line `n`, if there is one and the line can be read. -/
def edgeAt (path : OsText) (x : List UInt8 × ℕ) : Option Edge :=
  match readNumbered path x.1 x.2 with
  | .ok item => item
  | .error _ => none

theorem edgeAt_eq_some_iff {x : List UInt8 × ℕ} {e : Edge} :
    edgeAt path x = some e ↔ readNumbered path x.1 x.2 = .ok (some e) := by
  rw [edgeAt]
  cases readNumbered path x.1 x.2 with
  | ok item => simp
  | error failure => simp

/-- The edges of a file with the numbers of their lines. -/
def numberedEdges (path : OsText) (bytes : List UInt8) : List (Edge × ℕ) :=
  (Text.lines bytes).zipIdx.filterMap fun x ↦ (edgeAt path x).map fun e ↦ (e, x.2)

theorem mem_numberedEdges_iff {e : Edge} :
    (e, n) ∈ numberedEdges path bytes
      ↔ ∃ line, (Text.lines bytes)[n]? = some line ∧ readNumbered path line n = .ok (some e) := by
  rw [numberedEdges, List.mem_filterMap]
  constructor
  · rintro ⟨⟨line, m⟩, hmem, h⟩
    obtain ⟨e', he', heq⟩ := Option.map_eq_some_iff.mp h
    obtain ⟨rfl, rfl⟩ := Prod.mk.inj heq
    exact ⟨line, List.mk_mem_zipIdx_iff_getElem?.mp hmem, edgeAt_eq_some_iff.mp he'⟩
  · rintro ⟨line, hline, hread⟩
    refine ⟨(line, n), List.mk_mem_zipIdx_iff_getElem?.mpr hline, ?_⟩
    rw [edgeAt_eq_some_iff.mpr hread, Option.map_some]

theorem pairwise_numberedEdges (path : OsText) (bytes : List UInt8) :
    (numberedEdges path bytes).Pairwise fun x y ↦ x.2 < y.2 := by
  refine (pairwise_zipIdx _).filterMap _ fun x y hlt a ha b hb ↦ ?_
  obtain ⟨e, -, rfl⟩ := Option.map_eq_some_iff.mp ha
  obtain ⟨e', -, rfl⟩ := Option.map_eq_some_iff.mp hb
  exact hlt

/-- The edges in the lines of the loader. -/
def share (l : Loader) (path : OsText) (bytes : List UInt8) : List Edge :=
  ((numberedEdges path bytes).filter fun p ↦ l.owns p.2).map Prod.fst

theorem share_eq (l : Loader) (path : OsText) (bytes : List UInt8) :
    l.share path bytes = (l.ownedLines bytes).filterMap (edgeAt path) := by
  rw [share, numberedEdges, ownedLines, List.filter_filterMap, List.map_filterMap,
    List.filterMap_filter]
  refine List.filterMap_congr fun x _ ↦ ?_
  cases edgeAt path x with
  | none => simp
  | some e => cases howned : l.owns x.2 <;> simp [howned]

theorem reduceOption_eq_filterMap {xs : List (List UInt8 × ℕ)} {items : List (Option Edge)}
    (h : List.Forall₂ (fun x item ↦ readNumbered path x.1 x.2 = .ok item) xs items) :
    items.reduceOption = xs.filterMap (edgeAt path) := by
  induction h with
  | nil => rfl
  | @cons x item xs items hx _ ih =>
    have hedge : edgeAt path x = item := by rw [edgeAt, hx]
    rw [List.filterMap_cons, hedge]
    cases item with
    | none => rw [List.reduceOption_cons_of_none, ih]
    | some e => rw [List.reduceOption_cons_of_some, ih]

/-- **A loader that can read its lines returns the edges in them.** -/
theorem read_eq_ok_iff {edges : List Edge} :
    l.read path bytes = .ok edges
      ↔ (∀ n, l.owns n = true → ∀ failure, ¬ BreaksAt path bytes n failure)
        ∧ l.share path bytes = edges := by
  constructor
  · intro h
    obtain ⟨items, hitems, rfl⟩ := read_eq_ok_iff_forall₂.mp h
    refine ⟨?_, by rw [share_eq, reduceOption_eq_filterMap hitems]⟩
    rintro n howned failure ⟨line, hline, hbreaks⟩
    have hread := exists_of_forall₂ hitems (mem_ownedLines_iff.mpr ⟨hline, howned⟩)
    exact (exists_readNumbered_iff hline).mp hread failure ⟨line, hline, hbreaks⟩
  · rintro ⟨hnone, rfl⟩
    cases hread : l.read path bytes with
    | error failure =>
      obtain ⟨n, hfails⟩ := read_eq_error_iff.mp hread
      exact absurd hfails.breaks (hnone n hfails.owned failure)
    | ok edges =>
      obtain ⟨items, hitems, rfl⟩ := read_eq_ok_iff_forall₂.mp hread
      rw [share_eq, reduceOption_eq_filterMap hitems]

/-! ## All loaders of a file -/

theorem owns_whole (n : ℕ) : whole.owns n = true := by
  rw [owns, beq_iff_eq]
  exact Nat.mod_one n

theorem share_of_owns {p i : ℕ} (h : ∀ n, l.owns n = true ↔ n % p = i) (path : OsText)
    (bytes : List UInt8) :
    l.share path bytes = ((numberedEdges path bytes).filter fun x ↦ x.2 % p = i).map Prod.fst := by
  have howns : ∀ n, l.owns n = decide (n % p = i) := fun n ↦
    Bool.eq_iff_iff.mpr ((h n).trans (decide_eq_true_iff).symm)
  simp only [share, howns]

theorem share_whole (path : OsText) (bytes : List UInt8) :
    whole.share path bytes = (numberedEdges path bytes).map Prod.fst := by
  rw [share, List.filter_eq_self.mpr fun p _ ↦ owns_whole p.2]

theorem ofIndex_eq_ok {index peers : UInt64} (h : index.toNat < peers.toNat) :
    ofIndex index peers = .ok ⟨index, peers, h⟩ := by
  have hpeers : peers ≠ 0 := by
    rintro rfl
    exact absurd h (Nat.not_lt_zero _)
  rw [ofIndex, if_neg hpeers, dif_pos h]

/-- What loader `i` of `peers` reads. -/
def readShare (peers : UInt64) (path : OsText) (bytes : List UInt8) (i : ℕ) :
    Except Failure (List Edge) := do
  (← ofIndex (UInt64.ofNat i) peers).read path bytes

theorem exists_loader {peers : UInt64} {i : ℕ} (h : i < peers.toNat) :
    ∃ l : Loader, (∀ n, l.owns n = true ↔ n % peers.toNat = i)
      ∧ ∀ path bytes, readShare peers path bytes i = l.read path bytes := by
  have hi : (UInt64.ofNat i).toNat = i := UInt64.toNat_ofNat_of_lt' (h.trans peers.toNat_lt)
  have hlt : (UInt64.ofNat i).toNat < peers.toNat := hi.symm ▸ h
  refine ⟨⟨UInt64.ofNat i, peers, hlt⟩, fun n ↦ ?_, fun path bytes ↦ ?_⟩
  · rw [owns, beq_iff_eq, hi]
  · rw [readShare, ofIndex_eq_ok hlt]
    rfl

theorem BreaksAt.eq_of_malformed {m : ℕ} {fault : LineFault}
    (h : BreaksAt path bytes n (.malformed m fault)) : m = n + 1 := by
  obtain ⟨line, -, h⟩ := h
  rw [readNumbered] at h
  split at h
  · cases h
  · obtain ⟨fault', -, heq⟩ := Except.mapError_eq_error_iff.mp h
    exact (Failure.malformed.inj heq).1.symm

/-- Lists that are kept apart by a remainder have as many elements as the list they come from. -/
theorem sum_length_filter {α : Type*} {p : ℕ} (hp : 0 < p) (xs : List (α × ℕ)) :
    ∑ i ∈ Finset.range p, (xs.filter fun x ↦ x.2 % p = i).length = xs.length := by
  induction xs with
  | nil => simp
  | cons x xs ih =>
    have hcons : ∀ i, ((x :: xs).filter fun x ↦ x.2 % p = i).length
        = (xs.filter fun x ↦ x.2 % p = i).length + if x.2 % p = i then 1 else 0 := by
      intro i
      by_cases h : x.2 % p = i
      · simp [h]
      · simp [h]
    have hmem : x.2 % p ∈ Finset.range p := Finset.mem_range.mpr (Nat.mod_lt _ hp)
    rw [Finset.sum_congr rfl fun i _ ↦ hcons i, Finset.sum_add_distrib, ih, Finset.sum_ite_eq,
      if_pos hmem, List.length_cons]

theorem perm_flatMap_filter {α : Type*} [DecidableEq α] {p : ℕ} (hp : 0 < p) {order : List ℕ}
    (horder : order.Perm (List.range p)) (xs : List (α × ℕ)) :
    (order.flatMap fun i ↦ xs.filter fun x ↦ x.2 % p = i).Perm xs := by
  refine (horder.flatMap_right _).trans (List.perm_iff_count.mpr fun x ↦ ?_)
  -- An element is counted in the list of its remainder, and in no other.
  have hcount (i : ℕ) : (xs.filter fun x ↦ x.2 % p = i).count x
      = if x.2 % p = i then xs.count x else 0 := by
    split_ifs with h
    · exact List.count_filter (decide_eq_true h)
    · exact List.count_eq_zero.mpr fun hmem ↦ h (of_decide_eq_true (List.mem_filter.mp hmem).2)
  have hsum : ((List.range p).map fun i ↦ if x.2 % p = i then xs.count x else 0).sum
      = ∑ i ∈ Finset.range p, if x.2 % p = i then xs.count x else 0 := rfl
  have hmem : x.2 % p ∈ Finset.range p := Finset.mem_range.mpr (Nat.mod_lt _ hp)
  rw [List.count_flatMap]
  simp only [Function.comp_def, hcount]
  rw [hsum, Finset.sum_ite_eq, if_pos hmem]

section Shares

variable {peers : UInt64} {i : ℕ}

theorem exists_read_whole_iff (hpos : 0 < peers.toNat) :
    (∃ edges, whole.read path bytes = .ok edges)
      ↔ ∀ i < peers.toNat, ∃ edges, readShare peers path bytes i = .ok edges := by
  constructor
  · rintro ⟨edges, h⟩ i hi
    obtain ⟨l, -, hread⟩ := exists_loader hi
    have hnone := (read_eq_ok_iff.mp h).1
    refine ⟨l.share path bytes, ?_⟩
    rw [hread]
    exact read_eq_ok_iff.mpr ⟨fun n _ ↦ hnone n (owns_whole n), rfl⟩
  · intro h
    refine ⟨whole.share path bytes, read_eq_ok_iff.mpr ⟨fun n _ ↦ ?_, rfl⟩⟩
    have howner : n % peers.toNat < peers.toNat := Nat.mod_lt n hpos
    obtain ⟨l, howns, hread⟩ := exists_loader howner
    obtain ⟨edges, hedges⟩ := h _ howner
    rw [hread] at hedges
    exact (read_eq_ok_iff.mp hedges).1 n ((howns n).mpr rfl)

theorem readShare_of_read_whole {edges : List Edge} (h : whole.read path bytes = .ok edges)
    (hi : i < peers.toNat) : readShare peers path bytes i
      = .ok (((numberedEdges path bytes).filter fun x ↦ x.2 % peers.toNat = i).map Prod.fst) := by
  have hnone := (read_eq_ok_iff.mp h).1
  obtain ⟨l, howns, hread⟩ := exists_loader hi
  rw [hread]
  exact read_eq_ok_iff.mpr ⟨fun n _ ↦ hnone n (owns_whole n), share_of_owns howns path bytes⟩

/-- The loaders of a file can be asked in any order: they read the edges of the file in some
order. -/
theorem exists_mapM_readShare {edges : List Edge} (h : whole.read path bytes = .ok edges)
    (hpos : 0 < peers.toNat) {order : List ℕ} (horder : order.Perm (List.range peers.toNat)) :
    ∃ shares, order.mapM (readShare peers path bytes) = .ok shares
      ∧ shares.flatten.Perm edges := by
  have hedges := (read_eq_ok_iff.mp h).2
  rw [share_whole] at hedges
  refine ⟨_, mapM_eq_ok_iff.mpr (List.forall₂_map_right_iff.mpr (List.forall₂_same.mpr fun i hi ↦
    readShare_of_read_whole h (List.mem_range.mp (horder.mem_iff.mp hi)))), ?_⟩
  have hperm := (perm_flatMap_filter hpos horder (numberedEdges path bytes)).map Prod.fst
  rwa [hedges, List.map_flatMap, List.flatMap] at hperm

theorem readShare_of_failsAt_whole (hpos : 0 < peers.toNat)
    (h : whole.FailsAt path bytes n failure) :
    readShare peers path bytes (n % peers.toNat) = .error failure := by
  obtain ⟨l, howns, hread⟩ := exists_loader (Nat.mod_lt n hpos)
  rw [hread]
  refine read_eq_error_iff.mpr ⟨n, (howns n).mpr rfl, h.breaks, ?_⟩
  intro m hlt _
  exact h.none_before m hlt (owns_whole m)

theorem lt_of_readShare_malformed (h : whole.FailsAt path bytes n failure) (hi : i < peers.toNat)
    {m : ℕ} {fault : LineFault}
    (hshare : readShare peers path bytes i = .error (.malformed m fault)) : n < m := by
  obtain ⟨l, -, hread⟩ := exists_loader hi
  rw [hread] at hshare
  obtain ⟨k, hk⟩ := read_eq_error_iff.mp hshare
  obtain rfl := hk.breaks.eq_of_malformed
  refine Nat.lt_succ_of_le (Nat.not_lt.mp fun hlt ↦ ?_)
  exact h.none_before k hlt (owns_whole k) _ hk.breaks

end Shares

/-- **The loaders of a file share it without loss.** They succeed together, and then the edges of
the file are those of the loaders, merged by the numbers of their lines; a fault that the whole
file has first is found by the owner of its line, and no loader finds a malformed line before. -/
theorem shares_make_whole {peers : UInt64} (hpeers : 1 ≤ peers) (path : OsText)
    (bytes : List UInt8) :
    ((∃ edges, whole.read path bytes = .ok edges)
        ↔ ∀ i < peers.toNat, ∃ edges, readShare peers path bytes i = .ok edges)
      ∧ (∀ edges, whole.read path bytes = .ok edges → ∃ numbered : List (Edge × ℕ),
        numbered.Pairwise (fun x y ↦ x.2 < y.2)
          ∧ (∀ e n, (e, n) ∈ numbered ↔ ∃ line,
            (Text.lines bytes)[n]? = some line ∧ readNumbered path line n = .ok (some e))
          ∧ numbered.map Prod.fst = edges
          ∧ ∃ shares : ℕ → List Edge,
            (∀ i < peers.toNat, readShare peers path bytes i = .ok (shares i)
              ∧ shares i = (numbered.filter fun p ↦ p.2 % peers.toNat = i).map Prod.fst)
            ∧ ∑ i ∈ Finset.range peers.toNat, (shares i).length = edges.length)
      ∧ (∀ failure, whole.read path bytes = .error failure
        ↔ ∃ n, whole.FailsAt path bytes n failure)
      ∧ ∀ n failure, whole.FailsAt path bytes n failure →
        readShare peers path bytes (n % peers.toNat) = .error failure
          ∧ ∀ i < peers.toNat, ∀ m fault,
            readShare peers path bytes i = .error (.malformed m fault) → n + 1 ≤ m := by
  have hpos : 0 < peers.toNat := UInt64.le_iff_toNat_le.mp hpeers
  refine ⟨exists_read_whole_iff hpos, ?_, fun failure ↦ read_eq_error_iff, ?_⟩
  · intro edges h
    have hedges := (read_eq_ok_iff.mp h).2
    rw [share_whole] at hedges
    refine ⟨numberedEdges path bytes, pairwise_numberedEdges path bytes,
      fun e n ↦ mem_numberedEdges_iff, hedges,
      fun i ↦ ((numberedEdges path bytes).filter fun p ↦ p.2 % peers.toNat = i).map Prod.fst,
      fun i hi ↦ ⟨readShare_of_read_whole h hi, rfl⟩, ?_⟩
    rw [← hedges]
    simp only [List.length_map]
    exact sum_length_filter hpos _
  · intro n failure hfails
    refine ⟨readShare_of_failsAt_whole hpos hfails, ?_⟩
    intro i hi m fault hshare
    exact lt_of_readShare_malformed hfails hi hshare

/-- Two loaders, a file they can read and one they cannot. -/
theorem shares_make_whole_for_two_peers :
    (1 : UInt64) ≤ 2
      ∧ (∀ i < 2, ∃ edges, readShare 2 "" "1 2\n\n3 4\n".toUTF8.data.toList i = .ok edges)
      ∧ ∃ n, whole.FailsAt "" "1 2\n# 3\n4 x\n".toUTF8.data.toList n
          (.malformed 3 (.unreadable .target "x"))
        ∧ readShare 2 "" "1 2\n# 3\n4 x\n".toUTF8.data.toList (n % 2)
          = .error (.malformed 3 (.unreadable .target "x")) := by
  have hpeers : (1 : UInt64) ≤ 2 := by decide
  refine ⟨hpeers, (shares_make_whole hpeers "" _).1.mp ⟨[⟨1, 2⟩, ⟨3, 4⟩], rfl⟩, ?_⟩
  obtain ⟨-, -, hfails, hshare⟩ :=
    shares_make_whole hpeers "" "1 2\n# 3\n4 x\n".toUTF8.data.toList
  obtain ⟨n, hn⟩ := (hfails (.malformed 3 (.unreadable .target "x"))).mp rfl
  exact ⟨n, hn, (hshare n _ hn).1⟩

end RecursiveMatrix.Loader
