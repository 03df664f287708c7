/-
What stands where after files have been put, removed and moved.  Only the place of a file changes,
and a path that could be walked leads to the same place afterwards, because no directory goes away.
-/
import LiveFeed.FileTree

namespace LiveFeed.FileTree

variable {tree later : FileTree} {place other : List Text} {node : Node} {content : Bytes}

theorem isStanding_of_ne (h : tree.nodeAt? place ≠ some .directory) : isStanding place = false := by
  cases hstanding : isStanding place with
  | false => rfl
  | true => exact absurd (by rw [nodeAt?, if_pos hstanding]) h

theorem nodeAt?_of_not_standing (h : isStanding place = false) (tree : FileTree) :
    tree.nodeAt? place = (tree.nodes.find? (·.1 = place)).map (·.2) := by
  rw [nodeAt?, h]
  rfl

/-- A file that has been put stands in its place. -/
theorem nodeAt?_put_self (h : isStanding place = false) :
    (tree.put place node).nodeAt? place = some node := by
  rw [nodeAt?_of_not_standing h]
  by_cases hany : tree.nodes.any (·.1 = place) = true
  · rw [put, if_pos hany, List.find?_map]
    cases hfind : tree.nodes.find? (·.1 = place) with
    | none =>
        rw [List.find?_eq_none] at hfind
        obtain ⟨entry, hentry, hplace⟩ := List.any_eq_true.mp hany
        exact absurd hplace (hfind entry hentry)
    | some entry =>
        have hsame : ((fun entry : List Text × Node => decide (entry.1 = place)) ∘
            fun entry => if entry.1 = place then (place, node) else entry) =
              fun entry => decide (entry.1 = place) := by
          funext entry
          by_cases hentry : entry.1 = place <;> simp [hentry]
        have hplace : entry.1 = place := by simpa using List.find?_some hfind
        rw [hsame, hfind, Option.map_some, Option.map_some, if_pos hplace]
  · have hnone : tree.nodes.find? (·.1 = place) = none := by
      rw [List.find?_eq_none]
      intro entry hentry hplace
      exact hany (List.any_eq_true.mpr ⟨entry, hentry, hplace⟩)
    rw [put, if_neg hany, List.find?_append, hnone]
    simp

/-- Every other place stays as it is. -/
theorem nodeAt?_put_of_ne (h : other ≠ place) :
    (tree.put place node).nodeAt? other = tree.nodeAt? other := by
  have hfind : ((tree.put place node).nodes.find? (·.1 = other)).map (·.2) =
      (tree.nodes.find? (·.1 = other)).map (·.2) := by
    by_cases hany : tree.nodes.any (·.1 = place) = true
    · have hsame : ((fun entry : List Text × Node => decide (entry.1 = other)) ∘
          fun entry => if entry.1 = place then (place, node) else entry) =
            fun entry => decide (entry.1 = other) := by
        funext entry
        by_cases hentry : entry.1 = place
        · simp [hentry]
        · simp [hentry]
      rw [put, if_pos hany, List.find?_map, hsame]
      cases hfind : tree.nodes.find? (·.1 = other) with
      | none => rfl
      | some entry =>
          have hother : entry.1 = other := by simpa using List.find?_some hfind
          rw [Option.map_some, if_neg (hother ▸ h)]
    · rw [put, if_neg hany, List.find?_append]
      simp [h.symm]
  rw [nodeAt?, nodeAt?, hfind]

theorem nodeAt?_remove_of_ne (h : other ≠ place) :
    (tree.remove place).nodeAt? other = tree.nodeAt? other := by
  have hfind : (tree.remove place).nodes.find? (·.1 = other) =
      tree.nodes.find? (·.1 = other) := by
    rw [remove, List.find?_filter]
    congr 1
    funext entry
    by_cases hentry : entry.1 = other
    · simp [hentry, h]
    · simp [hentry]
  rw [nodeAt?, nodeAt?, hfind]

/-- Where something has been taken away, nothing stands. -/
theorem nodeAt?_remove_self (h : isStanding place = false) :
    (tree.remove place).nodeAt? place = none := by
  have hnone : (tree.remove place).nodes.find? (·.1 = place) = none := by
    rw [List.find?_eq_none]
    intro entry hentry hplace
    exact of_decide_eq_true (List.mem_filter.mp hentry).2 (of_decide_eq_true hplace)
  rw [nodeAt?_of_not_standing h, hnone]
  rfl

/-- Every directory of one tree is one of the other. -/
def KeepsDirectories (tree later : FileTree) : Prop :=
  ∀ place, tree.nodeAt? place = some .directory → later.nodeAt? place = some .directory

theorem keepsDirectories_put (h : tree.nodeAt? place ≠ some .directory) (node : Node) :
    tree.KeepsDirectories (tree.put place node) := by
  intro other hother
  rw [nodeAt?_put_of_ne, hother]
  rintro rfl
  exact h hother

theorem KeepsDirectories.walk (h : tree.KeepsDirectories later) {path : Text} {names : List Text}
    {target : List Text} (hwalk : tree.walk path place names = .ok target) :
    later.walk path place names = .ok target := by
  induction names generalizing place with
  | nil => exact hwalk
  | cons name rest ih =>
      rw [FileTree.walk] at hwalk ⊢
      split at hwalk
      · cases hwalk
      · rename_i hsize
        rw [if_neg hsize]
        split at hwalk
        · rename_i hlast
          rw [if_pos hlast]
          exact hwalk
        · rename_i hlast
          rw [if_neg hlast]
          split at hwalk
          · rename_i hnode
            rw [h _ hnode]
            exact ih hwalk
          · cases hwalk
          · cases hwalk

theorem KeepsDirectories.place_eq (h : tree.KeepsDirectories later) {path : Path}
    {target : List Text} (hplace : tree.place path = .ok target) :
    later.place path = .ok target := by
  rw [FileTree.place] at hplace ⊢
  split at hplace
  · cases hplace
  · rename_i hsize
    rw [if_neg hsize]
    exact h.walk hplace

/-- Where a walk leads depends on the last name only in the last step. -/
theorem exists_above_of_walk {path last : Text} {front target : List Text}
    (h : tree.walk path place (front ++ [last]) = .ok target) :
    ∃ above, target = next above last ∧ Path.size last ≤ nameLimit ∧
      ∀ path other, Path.size other ≤ nameLimit →
        tree.walk path place (front ++ [other]) = .ok (next above other) := by
  induction front generalizing place with
  | nil =>
      rw [List.nil_append, walk] at h
      split at h
      · cases h
      · rename_i hsize
        cases h
        refine ⟨place, rfl, Nat.not_lt.mp hsize, ?_⟩
        intro path other hother
        rw [List.nil_append, walk, if_neg (Nat.not_lt.mpr hother)]
        rfl
  | cons name rest ih =>
      have hmore (other : Text) : (rest ++ [other]).isEmpty = false := by simp
      rw [List.cons_append, walk] at h
      split at h
      · cases h
      · rename_i hsize
        rw [hmore last, if_neg Bool.false_ne_true] at h
        split at h
        · rename_i hnode
          obtain ⟨above, htarget, hlast, hwalk⟩ := ih h
          refine ⟨above, htarget, hlast, ?_⟩
          intro path other hother
          rw [List.cons_append, walk, if_neg hsize, hmore other, if_neg Bool.false_ne_true, hnode]
          exact hwalk path other hother
        · cases h
        · cases h

/-- A path that leads to the same place, where the same stands, is read alike. -/
theorem readFile_congr {path : Path} (hplace : tree.place path = .ok place)
    (hlater : later.place path = .ok place) (hnode : later.nodeAt? place = tree.nodeAt? place) :
    later.readFile path = tree.readFile path := by
  simp only [readFile, hplace, hlater, hnode, bind, Except.bind]

theorem writable_eq_ok {path : Path} (h : tree.writable path = .ok place) :
    tree.place path = .ok place ∧ tree.nodeAt? place ≠ some .directory := by
  rw [writable] at h
  cases hplace : tree.place path with
  | error fault =>
      rw [hplace] at h
      cases h
  | ok found =>
      simp only [hplace, bind, Except.bind] at h
      split at h
      · cases h
      · rename_i hnode
        cases h
        exact ⟨rfl, hnode⟩

/-- A path without names leads to a directory that stands in every tree, if it leads anywhere. -/
theorem place_of_names_eq_nil (tree : FileTree) {path : Path} (h : path.names = []) :
    tree.place path = .error (.nameTooLong path.text) ∨
      ∃ place, tree.place path = .ok place ∧ isStanding place = true := by
  rw [FileTree.place, h]
  split
  · exact .inl rfl
  · refine .inr ⟨_, rfl, ?_⟩
    split
    · rfl
    · decide

/-- A file that is moved is taken away from where it stood and put where the target leads. -/
theorem rename_eq_ok {source target : Path} (hsource : tree.place source = .ok place)
    (hcontent : tree.nodeAt? place = some (.file content))
    (h : tree.rename source target = .ok later) :
    ∃ found, tree.place target = .ok found ∧ tree.nodeAt? found ≠ some .directory ∧
      later = (tree.remove place).put found (.file content) := by
  rw [rename] at h
  cases hfound : tree.place target with
  | error fault =>
      simp only [hsource, hfound, bind, Except.bind] at h
      cases h
  | ok found =>
      simp only [hsource, hfound, hcontent, bind, Except.bind] at h
      split at h
      · cases h
      · split at h
        · cases h
        · rename_i hfile hnode
          cases hfile
          cases h
          exact ⟨found, rfl, hnode, rfl⟩
        · cases h

end LiveFeed.FileTree
