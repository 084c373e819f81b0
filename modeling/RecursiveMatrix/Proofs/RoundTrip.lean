import RecursiveMatrix.Proofs.EdgeListGrammar

/-!
# Reading what was written

An edge list that was written is read back as it was, and loaders that share it get the edges at
their positions: written lists have an edge in every line, so here the numbers of lines and the
positions of edges are the same.

Written lines are shown to follow the grammar, and nothing is said about how they are read.
-/

namespace RecursiveMatrix

open Text Decimal

/-! ## Digits -/

theorem isDigit_iff {c : Char} : c.isDigit = true ↔ 48 ≤ c.toNat ∧ c.toNat ≤ 57 := by
  rw [Char.isDigit, Bool.and_eq_true, decide_eq_true_iff, decide_eq_true_iff]
  rfl

theorem isBlank_of_isDigit {c : Char} (h : c.isDigit = true) : isBlank c = false := by
  obtain ⟨hle, hge⟩ := isDigit_iff.mp h
  have hapart : ∀ r ∈ blankRanges, r.2 < 48 ∨ 57 < r.1 := by decide
  rw [isBlank, List.any_eq_false]
  intro r hr
  have hr := hapart r hr
  rw [Bool.and_eq_true, decide_eq_true_iff, decide_eq_true_iff]
  omega

theorem isDigit_of_mem_toDigits {n : ℕ} {c : Char} (h : c ∈ Nat.toDigits 10 n) :
    c.isDigit = true := Nat.isDigit_of_mem_toDigits (by decide) (by decide) h

theorem isWord_toDigits (n : ℕ) : IsWord (Nat.toDigits 10 n) where
  ne_nil := Nat.toDigits_ne_nil
  not_blank _ hc := isBlank_of_isDigit (isDigit_of_mem_toDigits hc)

/-! ## Written lines -/

namespace Edge

variable (e : Edge)

/-- The line of an edge without its end. -/
def body : List Char := Nat.toDigits 10 e.src.toNat ++ ' ' :: Nat.toDigits 10 e.dst.toNat

theorem toList_line : e.line.toList = e.body ++ ['\n'] := by
  have htext : e.line = e.src.toNat.repr ++ " " ++ e.dst.toNat.repr ++ "\n" := rfl
  rw [htext]
  simp only [String.toList_append, Nat.toList_repr, body, List.append_assoc, List.cons_append]
  rfl

theorem words_body : Words e.body [Nat.toDigits 10 e.src.toNat, Nat.toDigits 10 e.dst.toNat] := by
  rw [words_iff, body, fields_append_cons (by decide), (isWord_toDigits _).fields_eq,
    (isWord_toDigits _).fields_eq]
  rfl

theorem trimmed_body : Trimmed e.body e.body where
  exists_blanks := by
    have hnil : AllBlank [] := fun _ h ↦ absurd h List.not_mem_nil
    exact ⟨[], [], hnil, hnil, (List.append_nil _).symm⟩
  head_not_blank := by
    intro c hc
    rw [body, List.head?_append_of_ne_nil _ Nat.toDigits_ne_nil] at hc
    exact (isWord_toDigits _).not_blank c (List.mem_of_head? hc)
  last_not_blank := by
    intro c hc
    rw [body, List.getLast?_append_of_ne_nil _ (List.cons_ne_nil _ _),
      List.getLast?_cons_of_ne_nil Nat.toDigits_ne_nil] at hc
    exact (isWord_toDigits _).not_blank c (List.mem_of_getLast? hc)

theorem lineReads_body : LineReads e.body (some e) :=
  .edge e.trimmed_body e.words_body (.edge (numeral_toDigits _) (numeral_toDigits _))

/-! ## Their bytes -/

/-- The bytes of the line of an edge without its end. -/
def bytes : List UInt8 := e.body.flatMap String.utf8EncodeChar

theorem reads_bytes : Reads e.bytes (some e) := ⟨e.body, rfl, e.lineReads_body⟩

theorem le_toNat_of_mem_body {c : Char} (h : c ∈ e.body) : 32 ≤ c.toNat ∧ c.toNat ≤ 57 := by
  rw [body, List.mem_append, List.mem_cons] at h
  rcases h with h | rfl | h
  · have hdigit := isDigit_iff.mp (isDigit_of_mem_toDigits h)
    omega
  · decide
  · have hdigit := isDigit_iff.mp (isDigit_of_mem_toDigits h)
    omega

/-- No byte of a line is a control character, so neither byte that ends a line is among them. -/
theorem le_toNat_of_mem_bytes {b : UInt8} (h : b ∈ e.bytes) : 32 ≤ b.toNat := by
  obtain ⟨c, hc, hb⟩ := List.mem_flatMap.mp h
  obtain ⟨hle, hge⟩ := e.le_toNat_of_mem_body hc
  have hsize : c.utf8Size = 1 := Char.utf8Size_eq_one_iff.mpr (by
    rw [UInt32.le_iff_toNat_le]
    exact hge.trans (by decide))
  rw [String.utf8EncodeChar_eq_singleton hsize, List.mem_singleton] at hb
  have hnat : b.toNat = c.toNat := by
    rw [hb, UInt32.toNat_toUInt8]
    exact Nat.mod_eq_of_lt (hge.trans_lt (by decide))
  omega

theorem lineFeed_notMem_bytes : lineFeed ∉ e.bytes := fun h ↦
  absurd (e.le_toNat_of_mem_bytes h) (by decide)

theorem getLast?_bytes_ne : e.bytes.getLast? ≠ some carriageReturn := fun h ↦
  absurd (e.le_toNat_of_mem_bytes (List.mem_of_getLast? h)) (by decide)

end Edge

/-! ## Written files -/

theorem foldl_writeEdges (edges : List Edge) (n : ℕ) (text : String) :
    let written := edges.foldl (fun written e ↦ (written.1 + 1, written.2 ++ e.line)) (n, text)
    written.1 = n + edges.length
      ∧ written.2.toList = text.toList ++ edges.flatMap fun e ↦ e.line.toList := by
  induction edges generalizing n text with
  | nil => exact ⟨rfl, (List.append_nil _).symm⟩
  | cons e edges ih =>
    obtain ⟨hcount, htext⟩ := ih (n + 1) (text ++ e.line)
    refine ⟨?_, ?_⟩
    · rw [List.foldl_cons, hcount, List.length_cons]
      omega
    · rw [List.foldl_cons, htext, String.toList_append, List.flatMap_cons, List.append_assoc]

theorem writeEdges_fst (edges : List Edge) : (writeEdges edges).1 = edges.length :=
  (foldl_writeEdges edges 0 "").1.trans (Nat.zero_add _)

theorem toList_writeEdges (edges : List Edge) :
    (writeEdges edges).2.toList = edges.flatMap fun e ↦ e.line.toList :=
  (foldl_writeEdges edges 0 "").2

/-- The bytes of a written list. -/
def writtenBytes (edges : List Edge) : List UInt8 := (writeEdges edges).2.toUTF8.data.toList

theorem writtenBytes_eq (edges : List Edge) :
    writtenBytes edges = edges.flatMap fun e ↦ e.bytes ++ [lineFeed] := by
  rw [writtenBytes, ← encodes_toUTF8, toList_writeEdges, List.flatMap_assoc]
  refine List.flatMap_congr fun e _ ↦ ?_
  rw [e.toList_line, List.flatMap_append]
  rfl

theorem lines_writtenBytes (edges : List Edge) :
    Lines (writtenBytes edges) (edges.map Edge.bytes) := by
  rw [writtenBytes_eq]
  induction edges with
  | nil => exact .nil
  | cons e edges ih =>
    rw [List.flatMap_cons, List.append_assoc, List.singleton_append]
    exact .feed e.lineFeed_notMem_bytes e.getLast?_bytes_ne ih

namespace Loader

variable (path : OsText) (edges : List Edge)

theorem readNumbered_bytes (e : Edge) (n : ℕ) : readNumbered path e.bytes n = .ok (some e) :=
  readNumbered_eq_ok_iff.mpr e.reads_bytes

theorem not_breaksAt_writtenBytes (n : ℕ) (failure : Failure) :
    ¬ BreaksAt path (writtenBytes edges) n failure := by
  rintro ⟨line, hline, hbreaks⟩
  rw [(lines_writtenBytes edges).lines_eq] at hline
  obtain ⟨e, -, rfl⟩ := List.mem_map.mp (List.mem_of_getElem? hline)
  rw [readNumbered_bytes] at hbreaks
  cases hbreaks

/-- In a written list the number of a line is the position of its edge. -/
theorem numberedEdges_writtenBytes : numberedEdges path (writtenBytes edges) = edges.zipIdx := by
  rw [numberedEdges, (lines_writtenBytes edges).lines_eq, List.zipIdx_map, List.filterMap_map]
  have hsome : ∀ x ∈ edges.zipIdx, ((fun x : List UInt8 × ℕ ↦
      (edgeAt path x).map fun e ↦ (e, x.2)) ∘ Prod.map Edge.bytes id) x = some x := by
    intro x _
    have hedge : edgeAt path (x.1.bytes, x.2) = some x.1 :=
      edgeAt_eq_some_iff.mpr (readNumbered_bytes path x.1 x.2)
    exact congrArg (Option.map fun e ↦ (e, x.2)) hedge
  rw [List.filterMap_congr hsome, List.filterMap_some]

theorem read_whole_writtenBytes : whole.read path (writtenBytes edges) = .ok edges := by
  refine read_eq_ok_iff.mpr ⟨fun n _ ↦ not_breaksAt_writtenBytes path edges n, ?_⟩
  rw [share_whole, numberedEdges_writtenBytes, List.zipIdx_map_fst]

/-- **Written edges are read back**, all of them by the loader that has the file to itself, and
those at its positions by each of the loaders that share it. -/
theorem read_writeEdges :
    (writeEdges edges).1 = edges.length
      ∧ whole.read path (writeEdges edges).2.toUTF8.data.toList = .ok edges
      ∧ ∀ (peers : UInt64) (i : ℕ), i < peers.toNat →
        readShare peers path (writeEdges edges).2.toUTF8.data.toList i
          = .ok ((edges.zipIdx.filter fun p ↦ p.2 % peers.toNat = i).map Prod.fst) := by
  have hnone := not_breaksAt_writtenBytes path edges
  refine ⟨writeEdges_fst edges, ?_, fun peers i hi ↦ ?_⟩
  · refine read_eq_ok_iff.mpr ⟨fun n _ ↦ hnone n, ?_⟩
    exact (share_whole _ _).trans
      ((numberedEdges_writtenBytes path edges).symm ▸ List.zipIdx_map_fst 0 edges)
  · obtain ⟨l, howns, hread⟩ := exists_loader hi
    rw [hread]
    refine read_eq_ok_iff.mpr ⟨fun n _ ↦ hnone n, ?_⟩
    exact (share_of_owns howns _ _).trans (numberedEdges_writtenBytes path edges ▸ rfl)

end Loader

end RecursiveMatrix
