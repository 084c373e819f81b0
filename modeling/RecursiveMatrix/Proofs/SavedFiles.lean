import RecursiveMatrix.Proofs.Results
import RecursiveMatrix.Proofs.RoundTrip
import RecursiveMatrix.EdgeList.Storage

/-!
# Saved edge lists are found again

An edge list that was saved in a file is what the path of that file leads to afterwards. Where paths
lead depends on the folders, and saving changes no folder (`Directory.follow_of_depth_eq`); the file
at the end holds the bytes that were written (`Directory.get?_put_self`), and these are read back as
the edges.
-/

namespace RecursiveMatrix

namespace Directory

variable {d d' : Directory} {path name : OsText} {place : Place}

/-! ## Files -/

theorem lookup_map_replace {files : List (OsText × ByteArray)} {bytes : ByteArray}
    (h : (files.lookup name).isSome = true) :
    (files.map fun f ↦ if f.1 = name then (name, bytes) else f).lookup name = some bytes := by
  induction files with
  | nil => simp at h
  | cons f files ih =>
    by_cases hf : f.1 = name
    · simp [hf]
    · have hne : (name == f.1) = false := by simpa using Ne.symm hf
      have hrest (fs : List (OsText × ByteArray)) : (f :: fs).lookup name = fs.lookup name := by
        rw [List.lookup_cons, hne]
      rw [List.map_cons, if_neg hf, hrest]
      exact ih (hrest files ▸ h)

theorem get?_put_self (d : Directory) (name : OsText) (bytes : ByteArray) :
    (d.put name bytes).get? name = some bytes := by
  rw [put]
  split_ifs with h
  · exact lookup_map_replace h
  · have hnone : d.files.lookup name = none := Option.not_isSome_iff_eq_none.mp h
    simp [get?, List.lookup_append, hnone]

theorem depth_put (d : Directory) (name : OsText) (bytes : ByteArray) :
    (d.put name bytes).depth = d.depth := by
  rw [put]
  split_ifs <;> rfl

/-! ## Paths -/

/-- Where a path leads is decided by the folders alone. -/
theorem follow_of_depth_eq (hdepth : d'.depth = d.depth) {here : Folder} {steps : List OsText}
    (h : d.follow here steps = .ok place) : d'.follow here steps = .ok place := by
  have hroot : d'.root = d.root := by rw [root, hdepth, root]
  have hparent (folder : Folder) : d'.parent folder = d.parent folder := by
    cases folder with
    | above levels => simp [parent, hdepth]
    | devices => exact hroot
  have hinside (folder : Folder) (step : OsText) :
      d'.inside folder step = d.inside folder step := by
    simp only [inside, hroot]
  induction steps generalizing here with
  | nil => exact h
  | cons step rest ih =>
    rw [follow] at h ⊢
    by_cases hdot : step = .text "."
    · rw [if_pos hdot] at h ⊢
      exact ih h
    by_cases hup : step = .text ".."
    · rw [if_neg hdot, if_pos hup] at h ⊢
      rw [hparent]
      exact ih h
    by_cases hlong : maxNameBytes < step.byteCount
    · simp [hdot, hup, hlong] at h
    rw [if_neg hdot, if_neg hup, if_neg hlong] at h ⊢
    rw [hinside]
    cases hplace : d.inside here step with
    | folder next =>
      rw [hplace] at h
      exact ih h
    | file name | sink | full =>
      by_cases hlast : rest.isEmpty = true
      · simpa [hplace, hlast] using h
      · simp [hplace, hlast] at h

theorem locate_of_depth_eq (hdepth : d'.depth = d.depth) (h : d.locate path = .ok place) :
    d'.locate path = .ok place := by
  obtain ⟨_, hcheck, hwalk⟩ := Except.bind_eq_ok_iff.mp h
  refine Except.bind_eq_ok_iff.mpr ⟨_, hcheck, ?_⟩
  rw [walk] at hwalk ⊢
  rw [root, hdepth, ← root]
  exact follow_of_depth_eq hdepth hwalk

theorem locate_of_locateOutput (h : d.locateOutput path = .ok place) :
    d.locate path = .ok place ∧ path.endsWith '/' = false := by
  obtain ⟨_, hcheck, hwalk⟩ := Except.bind_eq_ok_iff.mp h
  split_ifs at hwalk with hslash
  · obtain ⟨reached, -, hfailed⟩ := Except.bind_eq_ok_iff.mp hwalk
    cases reached <;> cases hfailed
  · obtain ⟨reached, hreached, hplace⟩ := Except.bind_eq_ok_iff.mp hwalk
    refine ⟨Except.bind_eq_ok_iff.mpr ⟨_, hcheck, ?_⟩, by simpa using hslash⟩
    cases reached with
    | folder => cases hplace
    | file name | sink | full => rw [hreached, ← Except.ok.inj hplace]

theorem locateOutput_of_walk (hcheck : checkPath path = .ok ()) (hslash : path.endsWith '/' = false)
    (hwalk : d.walk path (path.parts '/') = .ok (.file name)) :
    d.locateOutput path = .ok (.file name) := by
  rw [locateOutput, hcheck]
  simp only [hslash, hwalk]
  rfl

theorem read_put (h : d.locateOutput path = .ok (.file name)) (bytes : ByteArray) :
    (d.put name bytes).read path = .ok bytes := by
  obtain ⟨hlocate, hslash⟩ := locate_of_locateOutput h
  have hlocate := locate_of_depth_eq (d.depth_put name bytes) hlocate
  refine Except.bind_eq_ok_iff.mpr ⟨_, hlocate, ?_⟩
  simp only [get?_put_self, hslash]
  rfl

/-! ## Edge lists -/

theorem saveEdges_file (h : d.locateOutput path = .ok (.file name)) (supply : EdgeSupply) :
    d.saveEdges path supply
      = .ok ((supply.edges ()).length,
        d.put name (writeEdges (supply.edges ())).2.toUTF8) := by
  rw [saveEdges, h]
  simp only [writeEdges_fst]

/-- **A saved edge list is loaded as it was.** -/
theorem loadEdges_put (h : d.locateOutput path = .ok (.file name)) (edges : List Edge) :
    (d.put name (writeEdges edges).2.toUTF8).loadEdges .whole path = .ok edges := by
  rw [loadEdges, read_put h]
  exact Loader.read_whole_writtenBytes path edges

end Directory

end RecursiveMatrix
