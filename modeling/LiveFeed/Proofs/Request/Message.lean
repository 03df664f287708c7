/-
The messages that travel.  Requests and refusals can always be written, and an accepted push unless
its time has too many digits; what has been written arrives with the same fields.
-/
import LiveFeed.Proofs.Json.RoundTrip
import LiveFeed.Proofs.Json.Stop
import LiveFeed.Proofs.Steps
import LiveFeed.Request.Message

namespace LiveFeed

/-- The text of a plain object without inner ones arrives with its fields. -/
theorem Wire.decode_of_text? [Limits] {fields : List (Text × Value)}
    (hplain : (Value.object fields).isPlain = true) (hflat : (Value.object fields).depth = 1)
    {text : String}
    (htext : Json.text? (.object fields) = .ok text) :
    Wire.decode (Utf8.encode text) = .ok fields := by
  obtain ⟨cs, hwritten, rfl⟩ := Json.write_of_text? htext
  have hascii : ∀ c ∈ (String.ofList cs).toList, IsPrintableAscii c := by
    rw [String.toList_ofList]
    exact Json.isPrintableAscii_of_writeWithin _ _ cs hplain hwritten
  rw [Wire.decode, Utf8.decode_encode_of_ascii hascii]
  have hroom : (Value.object fields).depth ≤ Limits.readDepth := by
    have hthree := Limits.three_le_readDepth
    omega
  simp only [mapError_ok, bind, Except.bind, Json.read_of_write hplain hwritten hroom]
  rfl

namespace Message

/-- The signer of a request, if there is one. -/
def signer : Option String → Value
  | none => .null
  | some name => .str name

theorem isPlain_signer (origin : Option String) : (signer origin).isPlain = true := by
  cases origin with
  | none => rfl
  | some name => simp [signer, Value.isPlain]

theorem isPlain_pushRequest (origin : Option String) (payload : Bytes) :
    (pushRequest (signer origin) payload).isPlain = true := by
  have hkeys : [Text.ofString "call", Text.ofString "origin", Text.ofString "data"].Nodup := by
    decide
  simp [pushRequest, Value.isPlain, Value.fieldsArePlain, isPlain_signer, hkeys]

theorem isPlain_cleanRequest : cleanRequest.isPlain = true := by decide

theorem isPlain_emitted (payload : Bytes) (time : Int) :
    (emitted ⟨payload, .int time⟩).isPlain = true := by
  have hkeys : [Text.ofString "event", Text.ofString "data",
      Text.ofString "recorded_at"].Nodup := by decide
  simp [emitted, Value.isPlain, Value.fieldsArePlain, hkeys]

theorem isPlain_rejected (call : Call) (reason : Reason) (detail : String) :
    (rejected call reason detail).isPlain = true := by
  have hkeys : [Text.ofString "event", Text.ofString "call", Text.ofString "error",
      Text.ofString "detail"].Nodup := by decide
  simp [rejected, Value.isPlain, Value.fieldsArePlain, hkeys]

theorem depth_signer (origin : Option String) : (signer origin).depth = 0 := by
  cases origin <;> rfl

theorem depth_pushRequest (origin : Option String) (payload : Bytes) :
    (pushRequest (signer origin) payload).depth = 1 := by
  simp [pushRequest, Value.depth, Value.depthOfFields, depth_signer]

theorem depth_cleanRequest : cleanRequest.depth = 1 := rfl

theorem depth_emitted (payload : Bytes) (time : Int) :
    (emitted ⟨payload, .int time⟩).depth = 1 := rfl

theorem depth_rejected (call : Call) (reason : Reason) (detail : String) :
    (rejected call reason detail).depth = 1 := rfl

/-- An origin that a request can carry: none, or a name. -/
def IsTold (origin : Value) : Prop := origin = .null ∨ ∃ name, origin = .str name

theorem isTold_signer (origin : Option String) : IsTold (signer origin) := by
  cases origin with
  | none => exact .inl rfl
  | some name => exact .inr ⟨_, rfl⟩

variable [Limits]

theorem wordless?_signer (origin : Option String) : (signer origin).wordless? = none := by
  cases origin with
  | none => exact Value.wordless?_null
  | some name => exact Value.wordless?_str name

/-- A push can be written as far as its origin can. -/
theorem stopped_pushRequest (origin : Value) (payload : Bytes) :
    (Json.write (pushRequest origin payload)).stopped =
      (Json.writeWithin (Limits.writeDepth - 1) origin).stopped := by
  rw [pushRequest, Json.stopped_write_object]
  simp

theorem IsTold.exists_text?_pushRequest {origin : Value} (h : IsTold origin) (payload : Bytes) :
    ∃ text, Json.text? (pushRequest origin payload) = .ok text := by
  refine ⟨_, Json.text?_of_stopped ?_⟩
  rw [stopped_pushRequest]
  rcases h with rfl | ⟨name, rfl⟩
  · simp [Json.writeWithin]
  · simp

theorem exists_text?_pushRequest (origin : Option String) (payload : Bytes) :
    ∃ text, Json.text? (pushRequest (signer origin) payload) = .ok text :=
  (isTold_signer origin).exists_text?_pushRequest payload

theorem exists_text?_cleanRequest : ∃ text, Json.text? cleanRequest = .ok text := by
  refine ⟨_, Json.text?_of_stopped ?_⟩
  rw [cleanRequest, Json.stopped_write_object]
  simp

theorem stopped_rejected (call : Call) (reason : Reason) (detail : String) :
    (Json.write (rejected call reason detail)).stopped = none := by
  rw [rejected, Json.stopped_write_object]
  simp [Json.writeFields]

theorem stopped_emitted (payload : Bytes) (time : Int) :
    (Json.write (emitted ⟨payload, .int time⟩)).stopped =
      if Digits.fit time then none else some .tooLong := by
  rw [emitted, Json.stopped_write_object]
  simp [Json.writeFields]

/-- A refusal has a text. -/
theorem exists_text?_rejected (call : Call) (reason : Reason) (detail : String) :
    ∃ text, Json.text? (rejected call reason detail) = .ok text :=
  ⟨_, Json.text?_of_stopped (stopped_rejected call reason detail)⟩

/-- An accepted push has a text if its time fits. -/
theorem exists_text?_emitted (payload : Bytes) {time : Int} (hfit : Digits.fit time = true) :
    ∃ text, Json.text? (emitted ⟨payload, .int time⟩) = .ok text := by
  have hstopped := stopped_emitted payload time
  rw [if_pos hfit] at hstopped
  exact ⟨_, Json.text?_of_stopped hstopped⟩

theorem text?_emitted_of_not_fit (payload : Bytes) {time : Int} (hfit : ¬Digits.fit time = true) :
    Json.text? (emitted ⟨payload, .int time⟩) = .error .tooLong := by
  have hstopped := stopped_emitted payload time
  rw [if_neg hfit] at hstopped
  exact Json.text?_of_stopped_at hstopped

end Message
end LiveFeed
