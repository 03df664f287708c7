/-
How deeply values may be nested.  Writing a plain value stops exactly where it is nested more deeply
than there is room, or at a number that is too long; otherwise it is written to its end and read
again, however deep it is.  Texts that begin with more opening brackets than values may be nested
deep are refused as too deep, whatever follows.
-/
import LiveFeed.Proofs.Json.RoundTrip
import LiveFeed.Proofs.Json.Stop
import LiveFeed.Proofs.Steps
import LiveFeed.Proofs.Text.Ascii
import LiveFeed.Request.Message

namespace LiveFeed

namespace Value

mutual

/-- Whether all whole numbers of a value can be written. -/
def hasText : Value → Bool
  | .int n => Digits.fit n
  | .list items => haveText items
  | .object fields => fieldsHaveText fields
  | _ => true

/-- Whether all whole numbers in a list can be written. -/
def haveText : List Value → Bool
  | [] => true
  | v :: rest => hasText v && haveText rest

/-- Whether all whole numbers in an object can be written. -/
def fieldsHaveText : List (Text × Value) → Bool
  | [] => true
  | (_, v) :: rest => hasText v && fieldsHaveText rest

end

end Value

namespace Json

/-- A plain value is written to its end exactly if its numbers fit and there is room for it. -/
theorem stopped_writeWithin_iff (v : Value) : ∀ room : Nat, v.isPlain = true →
    ((writeWithin room v).stopped = none ↔ v.hasText = true ∧ v.depth ≤ room) := by
  refine Value.isPlain.induct
    (fun v => ∀ room : Nat, v.isPlain = true →
      ((writeWithin room v).stopped = none ↔ v.hasText = true ∧ v.depth ≤ room))
    (fun fields => ∀ room : Nat, Value.fieldsArePlain fields = true →
      ((writeFields room fields).stopped = none ↔
        Value.fieldsHaveText fields = true ∧ Value.depthOfFields fields ≤ room))
    (fun items => ∀ room : Nat, Value.arePlain items = true →
      ((writeItems room items).stopped = none ↔
        Value.haveText items = true ∧ Value.depthOfItems items ≤ room))
    ?null ?bool ?int ?str ?list ?object ?other ?noItems ?items ?noFields ?fields v
  case null =>
      intro room _
      simp [writeWithin, Value.hasText, Value.depth]
  case bool =>
      intro b room _
      cases b <;> simp [writeWithin, Value.hasText, Value.depth]
  case int =>
      intro n room _
      simp [Value.hasText, Value.depth]
  case str =>
      intro t room _
      simp [Value.hasText, Value.depth]
  case list =>
      intro items ih room hplain
      cases room with
      | zero => simp [writeWithin, Value.depth]
      | succ inner =>
          rw [stopped_list, ih inner hplain, Value.hasText, Value.depth, Nat.add_le_add_iff_right]
  case object =>
      intro fields ih room hplain
      rw [Value.isPlain, Bool.and_eq_true] at hplain
      cases room with
      | zero => simp [writeWithin, Value.depth]
      | succ inner =>
          rw [stopped_object, ih inner hplain.2, Value.hasText, Value.depth,
            Nat.add_le_add_iff_right]
  case other =>
      intro v _ _ _ _ _ _ room hplain
      cases v <;> simp_all [Value.isPlain]
  case noItems =>
      intro room _
      simp [Value.haveText, Value.depthOfItems]
  case items =>
      intro v rest ihv ihrest room hplain
      rw [Value.arePlain, Bool.and_eq_true] at hplain
      rw [stopped_items_cons, Option.or_eq_none_iff, ihv room hplain.1, ihrest room hplain.2,
        Value.haveText, Bool.and_eq_true, Value.depthOfItems, Nat.max_le]
      exact and_and_and_comm
  case noFields =>
      intro room _
      simp [Value.fieldsHaveText, Value.depthOfFields]
  case fields =>
      intro key v rest ihv ihrest room hplain
      simp only [Value.fieldsArePlain, Bool.and_eq_true] at hplain
      rw [stopped_fields_cons, Option.or_eq_none_iff, ihv room hplain.1.2, ihrest room hplain.2,
        Value.fieldsHaveText, Bool.and_eq_true, Value.depthOfFields, Nat.max_le]
      exact and_and_and_comm

/-- With room enough, a plain value whose numbers fit is written to its end and read again. -/
theorem reads_of_depth_le {v : Value} (hplain : v.isPlain = true) (htext : v.hasText = true)
    {room : Nat} (hroom : v.depth ≤ room) :
    ∃ cs, writeWithin room v = .ofList cs ∧
      ∀ fuel, cs.length ≤ fuel → value fuel room cs = .ok (v, []) := by
  have hstopped := (stopped_writeWithin_iff v room hplain).mpr ⟨htext, hroom⟩
  have hwritten : writeWithin room v = .ofList (writeWithin room v).chars :=
    congrArg (Written.mk _) hstopped
  refine ⟨_, hwritten, ?_⟩
  intro fuel hfuel
  have hread := (reads fuel).1 v room room _ [] hplain hwritten hroom nofun hfuel
  rwa [List.append_nil] at hread

theorem value_of_brackets (room : Nat) {fuel : Nat} (hfuel : 2 * room < fuel) (left : List Char) :
    value fuel room (List.replicate (room + 1) '[' ++ left) = .error (.tooDeep .array) := by
  induction room generalizing fuel with
  | zero =>
      obtain ⟨fuel, rfl⟩ : ∃ n, fuel = n + 1 := ⟨fuel - 1, by omega⟩
      change value (fuel + 1) 0 ('[' :: left) = _
      rw [value]
  | succ room ih =>
      obtain ⟨fuel, rfl⟩ : ∃ n, fuel = n + 2 := ⟨fuel - 2, by omega⟩
      have hless : 2 * room < fuel := by omega
      have hinner := ih hless
      rw [List.replicate_succ, List.cons_append] at hinner ⊢
      rw [List.replicate_succ, List.cons_append, value_list_cons _ _ (by decide) (by decide), items,
        hinner]
      rfl

theorem read_of_brackets [Limits] (left : List Char) :
    read (String.ofList (List.replicate (Limits.readDepth + 1) '[' ++ left)) =
      .error (.tooDeep .array) := by
  have hcons : List.replicate (Limits.readDepth + 1) '[' ++ left =
      '[' :: (List.replicate Limits.readDepth '[' ++ left) := by
    rw [List.replicate_succ, List.cons_append]
  have hmark : ∀ rest,
      List.replicate (Limits.readDepth + 1) '[' ++ left = '\uFEFF' :: rest → False := by
    intro rest heq
    rw [hcons] at heq
    exact absurd (List.cons.inj heq).1 (by decide)
  have hskip : skip (List.replicate (Limits.readDepth + 1) '[' ++ left) =
      List.replicate (Limits.readDepth + 1) '[' ++ left := by
    rw [hcons]
    exact skip_of_not_blank (by decide) _
  have hfuel : 2 * Limits.readDepth <
      2 * (List.replicate (Limits.readDepth + 1) '[' ++ left).length + 1 := by
    rw [List.length_append, List.length_replicate]
    omega
  have hvalue := value_of_brackets Limits.readDepth hfuel left
  rw [read, String.toList_ofList, readChars.eq_2 _ _ hmark, hskip, hvalue]
  rfl

end Json

/-- A message in ASCII that begins with too many brackets is too deep. -/
theorem Wire.decode_of_brackets [Limits] {left : List Char}
    (hleft : ∀ c ∈ left, IsPrintableAscii c) :
    Wire.decode (Utf8.encode (String.ofList
      (List.replicate (Limits.readDepth + 1) '[' ++ left))) =
        .error (.json (.tooDeep .array)) := by
  have hascii : ∀ c ∈ (String.ofList (List.replicate (Limits.readDepth + 1) '[' ++ left)).toList,
      IsPrintableAscii c := by
    rw [String.toList_ofList, List.forall_mem_append]
    refine ⟨?_, hleft⟩
    intro c hc
    rw [List.eq_of_mem_replicate hc]
    decide
  rw [Wire.decode, Utf8.decode_encode_of_ascii hascii]
  simp only [mapError_ok, mapError_error, bind, Except.bind, Json.read_of_brackets]

end LiveFeed
