/-
What saving does to the files.  A value is written to a temporary file, which is then moved over the
file of the path.  So the path holds what it held before, or the whole text of the value; and only
the temporary file can be left behind, when saving fails.
-/
import LiveFeed.Proofs.Json.Stop
import LiveFeed.Proofs.StateFile.Temporary
import LiveFeed.Proofs.Steps

namespace LiveFeed.StateFile

variable {tree later : FileTree} {path : Text} {v : Value} {place spare : List Text}

/-- A file has been written to a spare place and moved from there to its own. -/
structure Replaces (tree : FileTree) (content : Bytes) (spare place : List Text)
    (later : FileTree) : Prop where
  spare_ne : spare ≠ place
  spare_free : tree.nodeAt? spare ≠ some .directory
  place_free : tree.nodeAt? place ≠ some .directory
  later_eq : later = ((tree.put spare (.file content)).remove spare).put place (.file content)

namespace Replaces

variable {content : Bytes}

theorem nodeAt?_place (h : Replaces tree content spare place later) :
    later.nodeAt? place = some (.file content) := by
  rw [h.later_eq]
  exact FileTree.nodeAt?_put_self (FileTree.isStanding_of_ne h.place_free)

theorem nodeAt?_spare (h : Replaces tree content spare place later) :
    later.nodeAt? spare = none := by
  rw [h.later_eq, FileTree.nodeAt?_put_of_ne h.spare_ne]
  exact FileTree.nodeAt?_remove_self (FileTree.isStanding_of_ne h.spare_free)

theorem nodeAt?_other (h : Replaces tree content spare place later) {other : List Text}
    (hspare : other ≠ spare) (hplace : other ≠ place) :
    later.nodeAt? other = tree.nodeAt? other := by
  rw [h.later_eq, FileTree.nodeAt?_put_of_ne hplace, FileTree.nodeAt?_remove_of_ne hspare,
    FileTree.nodeAt?_put_of_ne hspare]

theorem keepsDirectories (h : Replaces tree content spare place later) :
    tree.KeepsDirectories later := by
  intro other hother
  rw [h.nodeAt?_other, hother]
  · rintro rfl
    exact h.spare_free hother
  · rintro rfl
    exact h.place_free hother

/-- The path of the file is read as what was written. -/
theorem readFile_eq (h : Replaces tree content spare place later) {path : Path}
    (hplace : tree.place path = .ok place) : later.readFile path = .ok content := by
  simp only [FileTree.readFile, h.keepsDirectories.place_eq hplace, h.nodeAt?_place, bind,
    Except.bind]
  rfl

end Replaces

section

variable [Limits]

/-- What a successful save has done. -/
theorem write_eq_ok (h : write path v tree = .ok () later) :
    (Path.ofText path).name.isEmpty = false ∧ (temporary (Path.ofText path)).fault? = none ∧
      ∃ spare place cs, tree.place (temporary (Path.ofText path)) = .ok spare ∧
        tree.place (Path.ofText path) = .ok place ∧ Json.write v = .ofList cs ∧
        Replaces tree (Utf8.encode (String.ofList cs)) spare place later := by
  simp only [write] at h
  split at h
  · cases h
  · rename_i hnamed
    have hname : (Path.ofText path).name.isEmpty = false := by simpa using hnamed
    split at h
    · cases h
    · rename_i htemporary
      split at h
      · cases h
      · rename_i spare hwritable
        obtain ⟨hspare, hfree⟩ := FileTree.writable_eq_ok hwritable
        obtain ⟨place, hplace, hne⟩ := Path.exists_place_of_temporary hname hspare
        split at h
        · cases h
        · rename_i hstopped
          split at h
          · cases h
          · rename_i renamed hrename
            cases h
            have hput := FileTree.keepsDirectories_put hfree
              (.file (Utf8.encode (String.ofList (Json.write v).chars)))
            obtain ⟨found, hfound, hover, rfl⟩ := FileTree.rename_eq_ok (hput.place_eq hspare)
              (FileTree.nodeAt?_put_self (FileTree.isStanding_of_ne hfree)) hrename
            rw [hput.place_eq hplace] at hfound
            cases hfound
            rw [FileTree.nodeAt?_put_of_ne hne.symm] at hover
            exact ⟨hname, htemporary, spare, place, (Json.write v).chars, hspare, hplace,
              congrArg (Json.Written.mk _) hstopped, hne, hfree, hover, rfl⟩

/-- A save that fails has done nothing, or has written a part of the text to the temporary file. -/
theorem write_eq_error {fault : WriteFault} (h : write path v tree = .error fault later) :
    later = tree ∨ ∃ spare place, tree.place (temporary (Path.ofText path)) = .ok spare ∧
      tree.place (Path.ofText path) = .ok place ∧ spare ≠ place ∧
      tree.nodeAt? spare ≠ some .directory ∧
      later = tree.put spare (.file (Utf8.encode (String.ofList (Json.write v).chars))) := by
  simp only [write] at h
  split at h
  · cases h
    exact .inl rfl
  · rename_i hname
    split at h
    · cases h
      exact .inl rfl
    · split at h
      · cases h
        exact .inl rfl
      · rename_i spare hwritable
        obtain ⟨hspare, hfree⟩ := FileTree.writable_eq_ok hwritable
        obtain ⟨place, hplace, hne⟩ :=
          Path.exists_place_of_temporary (by simpa using hname) hspare
        refine .inr ⟨spare, place, hspare, hplace, hne, hfree, ?_⟩
        split at h
        · cases h
          rfl
        · split at h
          · cases h
            rfl
          · cases h

/-- A save that fails leaves all but the temporary file as it was. -/
theorem unchanged_of_write_error {fault : WriteFault} (h : write path v tree = .error fault later) :
    later.readFile (Path.ofText path) = tree.readFile (Path.ofText path) ∧
      ∀ other, tree.place (temporary (Path.ofText path)) ≠ .ok other →
        later.nodeAt? other = tree.nodeAt? other := by
  rcases write_eq_error h with rfl | ⟨spare, place, hspare, hplace, hne, hfree, rfl⟩
  · exact ⟨rfl, fun _ _ => rfl⟩
  · have hput := FileTree.keepsDirectories_put hfree
      (.file (Utf8.encode (String.ofList (Json.write v).chars)))
    refine ⟨FileTree.readFile_congr hplace (hput.place_eq hplace)
      (FileTree.nodeAt?_put_of_ne hne.symm), ?_⟩
    intro other hother
    apply FileTree.nodeAt?_put_of_ne
    rintro rfl
    exact hother hspare

/-- A save that succeeds leaves the whole text in the file and no temporary file. -/
theorem replaced_of_write_ok (h : write path v tree = .ok () later) :
    ∃ text, Json.text? v = .ok text ∧
      later.readFile (Path.ofText path) = .ok (Utf8.encode text) ∧
      later.node? (temporary (Path.ofText path)) = .ok none ∧
      ∀ other, tree.place (temporary (Path.ofText path)) ≠ .ok other →
        tree.place (Path.ofText path) ≠ .ok other → later.nodeAt? other = tree.nodeAt? other := by
  obtain ⟨-, htemporary, spare, place, cs, hspare, hplace, hwritten, hreplaces⟩ := write_eq_ok h
  have hlater := hreplaces.keepsDirectories
  have htext := Json.text?_of_stopped (v := v) (by rw [hwritten]; rfl)
  rw [hwritten] at htext
  refine ⟨_, htext, ?_, ?_, ?_⟩
  · exact hreplaces.readFile_eq hplace
  · simp only [FileTree.node?, htemporary, hlater.place_eq hspare, hreplaces.nodeAt?_spare,
      Option.isSome_none, Bool.false_eq_true, ↓reduceIte]
  · intro other hother hother'
    apply hreplaces.nodeAt?_other
    · rintro rfl
      exact hother hspare
    · rintro rfl
      exact hother' hplace

/-! Saving the snapshot of a feed -/

theorem write_of_persist {path : Text} {feed : Feed} {m metrics : Metrics}
    {tree later : FileTree} (h : persist path feed (m, tree) = .ok none (metrics, later)) :
    write path feed.snapshot tree = .ok () later := by
  simp only [persist] at h
  split at h
  · rename_i hwrite
    cases h
    exact hwrite
  · cases h
  · cases h

/-- Saving counts an error only if the file system refuses. -/
theorem metrics_persist (path : Text) (feed : Feed) (m : Metrics) (tree : FileTree) :
    (ending (persist path feed (m, tree))).1 = m ∨
      (ending (persist path feed (m, tree))).1 = m.countError := by
  unfold persist
  dsimp only
  cases write path feed.snapshot tree with
  | ok _ later => exact .inl rfl
  | error fault later =>
      cases fault with
      | file => exact .inr rfl
      | noName | invalidPath | unwritable => exact .inl rfl

/-- A snapshot with a text is saved, or the file system refuses, and then one error is counted and
reported. -/
theorem persist_cases {feed : Feed} (hname : (Path.ofText path).name.isEmpty = false)
    (hfault : (Path.ofText path).fault? = none)
    (hwritten : (Json.write feed.snapshot).stopped = none) (m : Metrics) (tree : FileTree) :
    (∃ later, write path feed.snapshot tree = .ok () later ∧
      persist path feed (m, tree) = .ok none (m, later)) ∨
    ∃ fault later, write path feed.snapshot tree = .error (.file fault) later ∧
      persist path feed (m, tree) = .ok (some (failureLine path fault)) (m.countError, later) := by
  have htemporary := (Path.fault?_temporary_eq_none_iff hname).mpr hfault
  have hwrite : (∃ later, write path feed.snapshot tree = .ok () later) ∨
      ∃ fault later, write path feed.snapshot tree = .error (.file fault) later := by
    simp only [write, hname, htemporary, hwritten, Bool.false_eq_true, ↓reduceIte]
    cases tree.writable (temporary (Path.ofText path)) with
    | error fault => exact .inr ⟨fault, tree, rfl⟩
    | ok place =>
        simp only []
        split
        · exact .inr ⟨_, _, rfl⟩
        · exact .inl ⟨_, rfl⟩
  rcases hwrite with ⟨later, hwrite⟩ | ⟨fault, later, hwrite⟩
  · exact .inl ⟨later, hwrite, by rw [persist, hwrite]⟩
  · exact .inr ⟨fault, later, hwrite, by rw [persist, hwrite]⟩

theorem persist_eq_ok {feed : Feed} (hname : (Path.ofText path).name.isEmpty = false)
    (hfault : (Path.ofText path).fault? = none)
    (hwritten : (Json.write feed.snapshot).stopped = none) (m : Metrics) (tree : FileTree) :
    ∃ failure metrics later, persist path feed (m, tree) = .ok failure (metrics, later) := by
  rcases persist_cases hname hfault hwritten m tree with ⟨later, -, h⟩ | ⟨fault, later, -, h⟩
  · exact ⟨none, m, later, h⟩
  · exact ⟨_, _, later, h⟩

/-- A save is all or nothing.  If it fails, the path is read as before, and whatever stands in any
place but that of the temporary file is the same as before; if it succeeds, the file holds the whole
text of the value, there is no temporary file, and all else is as before.  So a snapshot with a text
is saved under every path that the file system can be given: one with a name, without the character
that ends names, and without halves of surrogate pairs but those that stand for octets.  Or the
refusal of the file system is counted once and reported, and the file is as it was; the feed is only
read. -/
theorem write_replaces_or_keeps (tree : FileTree) :
    (∀ path v fault later, write path v tree = .error fault later →
      later.readFile (Path.ofText path) = tree.readFile (Path.ofText path) ∧
      ∀ other, tree.place (temporary (Path.ofText path)) ≠ .ok other →
        later.nodeAt? other = tree.nodeAt? other) ∧
    (∀ path v later, write path v tree = .ok () later →
      ∃ text, Json.text? v = .ok text ∧
        later.readFile (Path.ofText path) = .ok (Utf8.encode text) ∧
        later.node? (temporary (Path.ofText path)) = .ok none ∧
        ∀ other, tree.place (temporary (Path.ofText path)) ≠ .ok other →
          tree.place (Path.ofText path) ≠ .ok other →
            later.nodeAt? other = tree.nodeAt? other) ∧
    ∀ (path : Text) (feed : Feed) (m : Metrics), (Path.ofText path).name.isEmpty = false →
      (∀ p ∈ path.points, p.isHalf = true → Path.isOctet p = true) →
      .char '\x00' ∉ path.points → (∃ text, Json.text? feed.snapshot = .ok text) →
      (∃ later, write path feed.snapshot tree = .ok () later ∧
        persist path feed (m, tree) = .ok none (m, later)) ∨
      ∃ fault later, write path feed.snapshot tree = .error (.file fault) later ∧
        persist path feed (m, tree) =
          .ok (some (failureLine path fault)) ({ m with errors := m.errors + 1 }, later) ∧
        later.readFile (Path.ofText path) = tree.readFile (Path.ofText path) := by
  refine ⟨fun _ _ _ _ => unchanged_of_write_error, fun _ _ _ => replaced_of_write_ok, ?_⟩
  rintro path feed m hname hhalves hnull ⟨text, htext⟩
  obtain ⟨cs, hwritten, -⟩ := Json.write_of_text? htext
  rcases persist_cases hname (Path.fault?_ofText hhalves hnull) (by rw [hwritten]; rfl) m tree with
    hsaved | ⟨fault, later, hwrite, hpersist⟩
  · exact .inl hsaved
  · exact .inr ⟨fault, later, hwrite, hpersist, (unchanged_of_write_error hwrite).1⟩

end

open scoped Limits

/-- A span deep in a value stops it half-way, and a directory is missing: the old file stays. -/
theorem write_replaces_or_keeps_halfway :
    let tree : FileTree := ⟨[(["s.json"], .file [0x31])]⟩
    let broken : Value := .list [.null, .list [.span ⟨0⟩]]
    let feed : Feed := Feed.new (.ofString "ann") (.int 10)
    (∃ later, write "s.json" broken tree = .error (.unwritable (.notJson .span)) later ∧
      later.readFile (Path.ofText "s.json") = .ok [0x31] ∧
      later.readFile (Path.ofText "s.json.tmp") = .ok (Utf8.encode "[null, [")) ∧
    ∃ fault later, persist "lost/s.json" feed (Metrics.zero, tree) =
      .ok (some (failureLine "lost/s.json" fault)) ({ Metrics.zero with errors := 1 }, later) := by
  intro tree broken feed
  obtain ⟨hkeeps, -, hpersist⟩ := write_replaces_or_keeps tree
  constructor
  · have hstopped : ∃ later,
        write "s.json" broken tree = .error (.unwritable (.notJson .span)) later ∧
          later.readFile (Path.ofText "s.json.tmp") = .ok (Utf8.encode "[null, [") :=
      ⟨_, rfl, by decide +kernel⟩
    obtain ⟨later, hwrite, hpart⟩ := hstopped
    exact ⟨later, hwrite, (hkeeps _ _ _ _ hwrite).1, hpart⟩
  · have hhalves : ∀ p ∈ (Text.ofString "lost/s.json").points, p.isHalf = true →
        Path.isOctet p = true := by decide
    rcases hpersist "lost/s.json" feed Metrics.zero (by decide) hhalves (by decide) ⟨_, rfl⟩ with
      ⟨later, hwrite, -⟩ | ⟨fault, later, -, hfailed, -⟩
    · cases hwrite
    · exact ⟨fault, later, hfailed⟩

/-- Saving to half of a surrogate pair is broken off, although the path has a name and the snapshot
a text. -/
theorem saving_fails_at_half :
    let path : Text := ⟨[.half 0xd800]⟩
    let feed : Feed := Feed.new (.ofString "ann") (.int 10)
    (Path.ofText path).name.isEmpty = false ∧ .char '\x00' ∉ path.points ∧
      (∃ text, Json.text? feed.snapshot = .ok text) ∧
      ∃ fault, persist path feed (Metrics.zero, FileTree.empty) =
        .error (.invalidPath (.encoding fault)) (Metrics.zero, FileTree.empty) :=
  ⟨by decide, by decide, ⟨_, rfl⟩, _, rfl⟩

end LiveFeed.StateFile
