/-
When writing does not stop.  A list or an object is written to its end if all that is in it is, so
that messages and snapshots only stop at whole numbers with too many digits.
-/
import LiveFeed.Json.Writer

namespace LiveFeed.Json

namespace Written

@[simp] theorem stopped_ofList (chars : List Char) : (ofList chars).stopped = none := rfl

@[simp] theorem stopped_followedBy (a b : Written) :
    (a.followedBy b).stopped = a.stopped.or b.stopped := by
  obtain ⟨chars, stopped⟩ := a
  cases stopped <;> rfl

end Written

variable (room : Nat)

@[simp] theorem stopped_str (t : Text) : (writeWithin room (.str t)).stopped = none := by
  rw [writeWithin]
  rfl

@[simp] theorem stopped_int (n : Int) :
    (writeWithin room (.int n)).stopped = if Digits.fit n then none else some .tooLong := by
  rw [writeWithin]
  cases Digits.fit n <;> rfl

theorem stopped_list (items : List Value) :
    (writeWithin (room + 1) (.list items)).stopped = (writeItems room items).stopped := by
  rw [writeWithin, if_neg (Nat.succ_ne_zero room), Nat.add_sub_cancel]
  simp

theorem stopped_object (fields : List (Text × Value)) :
    (writeWithin (room + 1) (.object fields)).stopped = (writeFields room fields).stopped := by
  rw [writeWithin, if_neg (Nat.succ_ne_zero room), Nat.add_sub_cancel]
  simp

@[simp] theorem stopped_items_nil : (writeItems room []).stopped = none := by
  rw [writeItems]
  rfl

/-- The items of a list are written in their order, until one of them stops. -/
@[simp] theorem stopped_items_cons (v : Value) (rest : List Value) :
    (writeItems room (v :: rest)).stopped =
      (writeWithin room v).stopped.or (writeItems room rest).stopped := by
  cases rest with
  | nil => simp [writeItems]
  | cons w rest =>
      rw [writeItems]
      · simp
      · nofun

@[simp] theorem stopped_fields_nil : (writeFields room []).stopped = none := by
  rw [writeFields]
  rfl

/-- The fields of an object are written in their order, until one of them stops. -/
@[simp] theorem stopped_fields_cons (key : Text) (v : Value) (rest : List (Text × Value)) :
    (writeFields room ((key, v) :: rest)).stopped =
      (writeWithin room v).stopped.or (writeFields room rest).stopped := by
  cases rest with
  | nil => simp [writeFields]
  | cons field rest =>
      rw [writeFields]
      · simp
      · nofun

theorem stopped_items {items : List Value}
    (h : ∀ v ∈ items, (writeWithin room v).stopped = none) :
    (writeItems room items).stopped = none := by
  induction items with
  | nil => exact stopped_items_nil room
  | cons v rest ih =>
      rw [stopped_items_cons, h v List.mem_cons_self, Option.none_or]
      exact ih fun w hw => h w (List.mem_cons_of_mem v hw)

variable [Limits]

/-- There is always room for an object. -/
theorem stopped_write_object (fields : List (Text × Value)) :
    (write (.object fields)).stopped = (writeFields (Limits.writeDepth - 1) fields).stopped := by
  obtain ⟨room, hroom⟩ := Nat.exists_eq_add_of_le Limits.three_le_writeDepth
  have hsucc : Limits.writeDepth = room + 2 + 1 := by omega
  rw [write, hsucc, stopped_object, Nat.add_sub_cancel]

theorem text?_of_stopped {v : Value} (h : (write v).stopped = none) :
    text? v = .ok (String.ofList (write v).chars) := by
  simp only [text?, h]

theorem write_of_text? {v : Value} {text : String} (h : text? v = .ok text) :
    ∃ cs, write v = .ofList cs ∧ text = String.ofList cs := by
  cases hstopped : (write v).stopped with
  | none =>
      rw [text?_of_stopped hstopped] at h
      exact ⟨_, congrArg (Written.mk _) hstopped, (Except.ok.inj h).symm⟩
  | some problem =>
      simp only [text?, hstopped] at h
      contradiction

theorem text?_of_stopped_at {v : Value} {problem : Unwritable}
    (h : (write v).stopped = some problem) : text? v = .error problem := by
  simp only [text?, h]

end LiveFeed.Json
