/-
A value that has been saved is what is read afterwards.  The file holds the text of the value, and
this text is read again as the value.
-/
import LiveFeed.Proofs.Json.Depth
import LiveFeed.Proofs.Json.RoundTrip
import LiveFeed.Proofs.Log.Snapshot
import LiveFeed.Proofs.StateFile.Replacement

namespace LiveFeed

namespace StateFile

section

variable [Limits]

/-- A plain value that has been saved is what is read afterwards, if there is room to read it. -/
theorem read_of_write {path : Text} {v : Value} (hplain : v.isPlain = true)
    (hroom : v.depth ≤ Limits.readDepth) {tree later : FileTree}
    (h : write path v tree = .ok () later) : read later path = .ok v := by
  obtain ⟨hname, htemporary, spare, place, cs, -, hplace, hwritten, hreplaces⟩ := write_eq_ok h
  have hlater := hreplaces.keepsDirectories.place_eq hplace
  have hcontent := hreplaces.nodeAt?_place
  have hfault := (Path.fault?_temporary_eq_none_iff hname).mp htemporary
  have hfile : later.node? (Path.ofText path) =
      .ok (some (.file (Utf8.encode (String.ofList cs)))) := by
    simp only [FileTree.node?, hfault, Option.isSome_none, Bool.false_eq_true, ↓reduceIte, hlater,
      hcontent]
  have hread := hreplaces.readFile_eq hplace
  have htext : FileTree.textOf (Utf8.encode (String.ofList cs)) = .ok (String.ofList cs) := by
    apply FileTree.textOf_encode
    rw [String.toList_ofList]
    exact Json.isPrintableAscii_of_writeWithin v _ cs hplain hwritten
  simp only [read, hfile, hread, htext, Json.read_of_write hplain hwritten hroom, mapError_ok,
    bind, Except.bind]

/-- A plain value that has been saved is not nested more deeply than there is room to write it. -/
theorem depth_le_of_write {path : Text} {v : Value} (hplain : v.isPlain = true)
    {tree later : FileTree} (h : write path v tree = .ok () later) :
    v.depth ≤ Limits.writeDepth := by
  obtain ⟨-, -, -, -, cs, -, -, hwritten, -⟩ := write_eq_ok h
  have hstopped := congrArg Json.Written.stopped hwritten
  exact ((Json.stopped_writeWithin_iff v Limits.writeDepth hplain).mp hstopped).2

/-- A path that something can be read from ends in a name. -/
theorem name_of_read {path : Text} {v : Value} {tree : FileTree}
    (hfault : (Path.ofText path).fault? = none) (h : read tree path = .ok v) :
    (Path.ofText path).name.isEmpty = false := by
  by_contra hname
  rw [Bool.not_eq_false] at hname
  have hnames := Path.names_eq_nil_of_name hname
  rcases FileTree.place_of_names_eq_nil tree hnames with hplace | ⟨place, hplace, hstanding⟩
  · simp only [read, FileTree.node?, hfault, hplace, Option.isSome_none, Bool.false_eq_true,
      ↓reduceIte, mapError_error, bind, Except.bind] at h
    cases h
  · have hnode : tree.nodeAt? place = some .directory := by
      rw [FileTree.nodeAt?, if_pos hstanding]
    simp only [read, FileTree.node?, FileTree.readFile, hfault, hplace, hnode, Option.isSome_none,
      Bool.false_eq_true, ↓reduceIte, mapError_ok, bind, Except.bind] at h
    cases h

/-- Every plain value that has been saved is what is read afterwards, if there is room to read it or
as much room to read as to write, and so is the snapshot of every feed whose lifetime and times are
whole, for which there always is.  Plain values are written and read at any depth: with room for a value, the text of it is read again
as the value, with nothing left. -/
theorem read_of_write_any (path : Text) (tree later : FileTree) :
    (∀ v : Value, v.isPlain = true →
      v.depth ≤ Limits.readDepth ∨ Limits.writeDepth ≤ Limits.readDepth →
        write path v tree = .ok () later → read later path = .ok v) ∧
    (∀ v : Value, v.isPlain = true → v.hasText = true → ∀ room, v.depth ≤ room →
      ∃ cs, Json.writeWithin room v = .ofList cs ∧
        ∀ fuel, cs.length ≤ fuel → Json.value fuel room cs = .ok (v, [])) ∧
    ∀ (feed : Feed) (lifetime : Int) (held : Option (List Stamp)),
      feed.log = held.map (Log.stamped lifetime) →
      write path feed.snapshot tree = .ok () later → read later path = .ok feed.snapshot := by
  refine ⟨?_, ?_, ?_⟩
  · intro v hplain hroom h
    rcases hroom with hroom | hless
    · exact read_of_write hplain hroom h
    · exact read_of_write hplain (Nat.le_trans (depth_le_of_write hplain h) hless) h
  · intro v hplain htext room hroom
    exact Json.reads_of_depth_le hplain htext hroom
  · intro feed lifetime held hlog h
    have hsnapshot : feed.snapshot = Snapshot.ofHeld lifetime held := by
      rw [Feed.snapshot, hlog]
      cases held <;> rfl
    rw [hsnapshot] at h ⊢
    exact read_of_write (Snapshot.isPlain_ofHeld lifetime held)
      (Snapshot.depth_ofHeld_le lifetime held) h

end

open scoped Limits

/-- Quotes, escapes, control characters and characters beyond sixteen bits come back, and so do
large numbers and empty lists, each in its place. -/
theorem read_of_write_awkward :
    let awkward : Value := .object [
      ("", .list [.null, .bool true, .list [], .object []]),
      ("\"\\/\x00\n\x1f\x7f", .int (-123456789012345678901234567890)),
      ("\uFFFF😀é", .str "a\u2028b\t")]
    ∃ later, write "state.json" awkward FileTree.empty = .ok () later ∧
      read later "state.json" = .ok awkward := by
  intro awkward
  have hplain : awkward.isPlain = true := by decide +kernel
  have hsaved : (match write "state.json" awkward FileTree.empty with
      | .ok _ _ => true
      | .error _ _ => false) = true := by decide +kernel
  cases hwrite : write "state.json" awkward FileTree.empty with
  | ok _ later =>
      have hroom : awkward.depth ≤ Limits.readDepth := by decide
      have hread :=
        (read_of_write_any "state.json" FileTree.empty later).1 awkward hplain (.inl hroom) hwrite
      exact ⟨later, rfl, hread⟩
  | error fault later =>
      rw [hwrite] at hsaved
      cases hsaved

end StateFile
end LiveFeed
