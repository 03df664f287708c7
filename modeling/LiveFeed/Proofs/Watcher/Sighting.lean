/-
What a watcher makes of the messages of a feed.  Every message that has a text is seen as the event
that it tells of, whose line is printable ASCII; the line of an accepted push tells the time and the
payload.
-/
import LiveFeed.Proofs.Json.Scalar
import LiveFeed.Proofs.Request.Message
import LiveFeed.Proofs.Text.Quoted
import LiveFeed.Watcher.Run
import Mathlib.Data.List.Basic
import Mathlib.Data.List.TakeWhile

namespace LiveFeed

/-- Texts of printable ASCII; no character of such a text ends a line. -/
def Text.IsPrintableAscii (t : Text) : Prop :=
  ∃ cs : List Char, t = .ofChars cs ∧ ∀ c ∈ cs, LiveFeed.IsPrintableAscii c

theorem Text.ofChars_injective : Function.Injective Text.ofChars := by
  intro as bs h
  have hchar : Function.Injective CodePoint.char := fun _ _ => CodePoint.char.inj
  exact List.map_injective_iff.mpr hchar (congrArg Text.points h)

namespace Sighting

theorem line_emitted (time : Int) (data : Bytes) :
    (emitted (.int time) data).line =
      .ofChars ("EMITTED   at=".toList ++
        (Json.intChars time ++ ' ' :: (" data=".toList ++ (Quoted.bytes data).toList))) := by
  have hpoints : (emitted (.int time) data).line.points =
      (("EMITTED   at=".toList.map CodePoint.char ++ (toString time).toList.map .char) ++
        "  data=".toList.map .char) ++ (Quoted.bytes data).toList.map .char := rfl
  rw [Json.toList_toString, ← List.map_append, ← List.map_append, ← List.map_append,
    List.append_assoc, List.append_assoc] at hpoints
  exact congrArg Text.mk hpoints

/-- The digits of a number end at the first space. -/
theorem takeWhile_intChars (n : Int) (rest : List Char) :
    (Json.intChars n ++ ' ' :: rest).takeWhile (· ≠ ' ') = Json.intChars n := by
  have hspace : ∀ c ∈ Json.intChars n, decide (c ≠ ' ') = true := by
    intro c hc
    rw [decide_eq_true_eq]
    rintro rfl
    exact absurd (Json.eq_or_isDigit_of_mem_intChars hc) (by decide)
  rw [List.takeWhile_append_of_pos hspace, List.takeWhile_cons_of_neg (by decide),
    List.append_nil]

/-- Lines of accepted pushes are alike only if the times and the payloads are the same. -/
theorem line_emitted_inj {time time' : Int} {data data' : Bytes}
    (h : (emitted (.int time) data).line = (emitted (.int time') data').line) :
    time = time' ∧ data = data' := by
  rw [line_emitted, line_emitted] at h
  have hrest := List.append_cancel_left (Text.ofChars_injective h)
  have htime := congrArg (List.takeWhile (· ≠ ' ')) hrest
  rw [takeWhile_intChars, takeWhile_intChars] at htime
  obtain rfl := Json.intChars_injective htime
  have hshown := (List.cons.inj (List.append_cancel_left hrest)).2
  exact ⟨rfl, Quoted.bytes_injective (String.toList_inj.mp (List.append_cancel_left hshown))⟩

theorem isPrintableAscii_line_emitted (time : Int) (data : Bytes) :
    (emitted (.int time) data).line.IsPrintableAscii := by
  refine ⟨_, line_emitted time data, ?_⟩
  rw [List.forall_mem_append, List.forall_mem_append, List.forall_mem_cons,
    List.forall_mem_append]
  exact ⟨.of_all rfl, fun _ => Json.isPrintableAscii_of_mem_intChars, by decide, .of_all rfl,
    fun _ => Quoted.isPrintableAscii_of_mem_bytes⟩

theorem line_rejected (call error : String) :
    (rejected (.str call) (.str error)).line =
      .ofChars ("REJECTED  call=".toList ++
        (call.toList ++ ("  error=".toList ++ error.toList))) := by
  have hpoints : (rejected (.str call) (.str error)).line.points =
      (("REJECTED  call=".toList.map CodePoint.char ++ call.toList.map .char) ++
        "  error=".toList.map .char) ++ error.toList.map .char := rfl
  rw [← List.map_append, ← List.map_append, ← List.map_append, List.append_assoc,
    List.append_assoc] at hpoints
  exact congrArg Text.mk hpoints

theorem isPrintableAscii_line_rejected (call : Call) {reason : Reason}
    (hreason : ∀ c ∈ reason.name.toList, LiveFeed.IsPrintableAscii c) :
    (rejected (.str call.name) (.str reason.name)).line.IsPrintableAscii := by
  have hcall : ∀ c ∈ call.name.toList, LiveFeed.IsPrintableAscii c := by
    cases call <;> exact .of_all rfl
  refine ⟨_, line_rejected call.name reason.name, ?_⟩
  rw [List.forall_mem_append, List.forall_mem_append, List.forall_mem_append]
  exact ⟨.of_all rfl, hcall, .of_all rfl, hreason⟩

end Sighting

namespace Message

variable [Limits]

/-- A message has a text from which a watcher makes out an event. -/
def IsSeenAs (message : Value) (sighting : Sighting) : Prop :=
  ∃ text, Json.text? message = .ok text ∧ Watcher.sight (Utf8.encode text) = .ok sighting

theorem IsSeenAs.eq {message : Value} {first second : Sighting} (hfirst : IsSeenAs message first)
    (hsecond : IsSeenAs message second) : first = second := by
  obtain ⟨text, htext, hsight⟩ := hfirst
  obtain ⟨text', htext', hsight'⟩ := hsecond
  obtain rfl := Except.ok.inj (htext.symm.trans htext')
  exact Except.ok.inj (hsight.symm.trans hsight')

theorem isSeenAs_of_ofFields {fields : List (Text × Value)}
    (hplain : (Value.object fields).isPlain = true) (hflat : (Value.object fields).depth = 1)
    (htext : ∃ text, Json.text? (.object fields) = .ok text) {sighting : Sighting}
    (hfields : Sighting.ofFields fields = .ok sighting) : IsSeenAs (.object fields) sighting := by
  obtain ⟨text, htext⟩ := htext
  refine ⟨text, htext, ?_⟩
  rw [Watcher.sight, Wire.decode_of_text? hplain hflat htext]
  simp only [mapError_ok, bind, Except.bind, hfields]

/-- An accepted push is seen with its time and its payload. -/
theorem isSeenAs_emitted (payload : Bytes) {time : Int} (hfit : Digits.fit time = true) :
    IsSeenAs (emitted ⟨payload, .int time⟩) (.emitted (.int time) payload) := by
  apply isSeenAs_of_ofFields (isPlain_emitted payload time) (depth_emitted payload time)
    (exists_text?_emitted payload hfit)
  change ((Hex.decode (Hex.encode payload)).mapError _ >>= fun data => .ok _) = .ok _
  rw [Hex.decode_encode]
  rfl

theorem IsSeenAs.eq_emitted {payload : Bytes} {time : Int} {sighting : Sighting}
    (h : IsSeenAs (emitted ⟨payload, .int time⟩) sighting) :
    sighting = .emitted (.int time) payload := by
  by_cases hfit : Digits.fit time = true
  · exact h.eq (isSeenAs_emitted payload hfit)
  · obtain ⟨text, htext, -⟩ := h
    rw [text?_emitted_of_not_fit payload hfit] at htext
    cases htext

/-- A refusal is seen with its call and its reason. -/
theorem isSeenAs_rejected (call : Call) (reason : Reason) (detail : String) :
    IsSeenAs (rejected call reason detail) (.rejected (.str call.name) (.str reason.name)) := by
  apply isSeenAs_of_ofFields (isPlain_rejected call reason detail)
    (depth_rejected call reason detail) (exists_text?_rejected call reason detail)
  rfl

end Message
end LiveFeed
