/-
The path of the file that is written first.  It has the names of the path of the file itself, the
last one with an ending.  So a file can have the one if and only if it can have the other, and where
the one leads the other leads too, to another place.
-/
import LiveFeed.Proofs.FileTree
import LiveFeed.Proofs.Path
import LiveFeed.StateFile

namespace LiveFeed.Path

theorem points_text_temporary {path : Path} (hname : path.name.isEmpty = false) :
    (StateFile.temporary path).text.points =
      (path.root ++ Text.join "/" path.names).points ++ (Text.ofString ".tmp").points := by
  have hnames : Text.join "/" (StateFile.temporary path).names =
      Text.join "/" path.names ++ ".tmp" := by
    rw [StateFile.temporary, withName, Text.join_append_last, ← exists_names_eq hname]
  have hpoints : (path.root ++ Text.join "/" (StateFile.temporary path).names).points =
      (path.root ++ Text.join "/" path.names).points ++ (Text.ofString ".tmp").points := by
    simp only [hnames, Text.points_append, List.append_assoc]
  have hlong : (path.root ++ Text.join "/" (StateFile.temporary path).names).isEmpty = false := by
    rw [Text.isEmpty, hpoints]
    simp [Text.ofString]
  have htext : (StateFile.temporary path).text =
      path.root ++ Text.join "/" (StateFile.temporary path).names := by
    rw [text]
    exact if_neg (ne_true_of_eq_false hlong)
  rw [htext, hpoints]

/-- The text of a path with a name and the ending make up that of its temporary file. -/
theorem mem_text_temporary_iff {path : Path} (hname : path.name.isEmpty = false)
    {p : CodePoint} : p ∈ (StateFile.temporary path).text.points ↔
      p ∈ path.text.points ∨ p ∈ (Text.ofString ".tmp").points := by
  rw [points_text_temporary hname, List.mem_append, text]
  by_cases hempty : (path.root ++ Text.join "/" path.names).isEmpty = true
  · rw [if_pos hempty, List.isEmpty_iff.mp hempty]
    simp [Text.ofString]
  · rw [if_neg hempty]

/-- A path with a name is as good as that of its temporary file. -/
theorem fault?_temporary_eq_none_iff {path : Path} (hname : path.name.isEmpty = false) :
    (StateFile.temporary path).fault? = none ↔ path.fault? = none := by
  have hending : ∀ p ∈ (Text.ofString ".tmp").points,
      (p.isHalf && !isOctet p) = false ∧ p ≠ .char '\x00' := by decide
  rw [fault?_eq_none_iff, fault?_eq_none_iff]
  constructor
  · intro h p hp
    exact h p ((mem_text_temporary_iff hname).mpr (.inl hp))
  · intro h p hp
    rcases (mem_text_temporary_iff hname).mp hp with htext | hlast
    · exact h p htext
    · exact hending p hlast

/-- The path of the temporary file is no shorter. -/
theorem size_text_le {path : Path} (hname : path.name.isEmpty = false) :
    size path.text ≤ size (StateFile.temporary path).text := by
  have hlong : size (StateFile.temporary path).text =
      size (path.root ++ Text.join "/" path.names) + size (Text.ofString ".tmp") := by
    simp [size, points_text_temporary hname]
  rw [hlong, text]
  split
  · exact Nat.le_add_left 1 _
  · exact Nat.le_add_right _ _

theorem length_points_append_ending (name : Text) :
    (name ++ Text.ofString ".tmp").points.length = name.points.length + 4 := by
  simp [Text.points_append, Text.ofString]

/-- From a directory, a name and the same name with the ending lead to two places. -/
theorem next_ending_ne (above : List Text) (name : Text) :
    FileTree.next above (name ++ Text.ofString ".tmp") ≠ FileTree.next above name := by
  have hlength := length_points_append_ending name
  have hparent : name ++ Text.ofString ".tmp" ≠ parent := by
    intro h
    rw [h] at hlength
    have htwo : parent.points.length = 2 := rfl
    omega
  have hname : name ++ Text.ofString ".tmp" ≠ name := by
    intro h
    rw [h] at hlength
    omega
  have hnew : FileTree.next above (name ++ Text.ofString ".tmp") =
      above ++ [name ++ Text.ofString ".tmp"] := by
    rw [FileTree.next, if_pos (bne_iff_ne.mpr hparent)]
  intro h
  rw [hnew, FileTree.next] at h
  split at h
  · exact hname (List.singleton_inj.mp (List.append_cancel_left h))
  · split at h
    · rename_i hroot
      rw [eq_of_beq hroot] at h
      exact List.cons_ne_nil _ _ (List.append_right_eq_self.mp h)
    · split at h
      · exact hparent (List.singleton_inj.mp (List.append_cancel_left h))
      · have hshort := congrArg List.length h
        rw [List.length_append, List.length_dropLast, List.length_singleton] at hshort
        omega

/-- Where the path of the temporary file leads, that of the file leads too, to another place. -/
theorem exists_place_of_temporary {path : Path} (hname : path.name.isEmpty = false)
    {tree : FileTree} {spare : List Text}
    (h : tree.place (StateFile.temporary path) = .ok spare) :
    ∃ place, tree.place path = .ok place ∧ spare ≠ place := by
  rw [FileTree.place] at h
  split at h
  · cases h
  · rename_i hlimit
    have hnames : (StateFile.temporary path).names =
        path.names.dropLast ++ [path.name ++ Text.ofString ".tmp"] := rfl
    rw [hnames] at h
    obtain ⟨above, rfl, hending, hwalk⟩ := FileTree.exists_above_of_walk h
    rw [size_append] at hending
    have hlast := hwalk path.text path.name (Nat.le_trans (Nat.le_add_right _ _) hending)
    rw [← exists_names_eq hname] at hlast
    refine ⟨FileTree.next above path.name, ?_, next_ending_ne above path.name⟩
    rw [FileTree.place, if_neg (Nat.not_lt.mpr
      (Nat.le_trans (size_text_le hname) (Nat.not_lt.mp hlimit)))]
    exact hlast

end LiveFeed.Path
