/-
What a service has sent: the messages about outcomes, in their order.
-/
import LiveFeed.Proofs.Outside
import LiveFeed.Proofs.Service.Ledger

namespace LiveFeed.Service

variable [Limits]

/-- A message about an outcome as it is sent. -/
def letter (config : Config) (message : Value) : Except Json.Unwritable Action := do
  return .produce config.eventsTopic config.authority (← Json.text? message)

/-- Messages have been sent in their order, and the broker has refused none of them. -/
structure Publishes (config : Config) (refusals : List Nat) (messages : List Value)
    (world : Outside) : Prop where
  refusals_eq : world.refusals = refusals
  attempts_eq : world.attempts = messages.length
  accepted : ∀ attempt < messages.length, attempt ∉ refusals
  sent_eq : messages.mapM (letter config) = .ok world.sent

variable {config : Config} {refusals : List Nat} {messages : List Value} {world later : Outside}
  {message : Value}

/-- What a service publishes is what it sends to the topic of events. -/
theorem publishes_iff : Publishes config refusals messages world ↔
    Outside.HasSent config.eventsTopic config.authority refusals messages world :=
  ⟨fun h => ⟨h.refusals_eq, h.attempts_eq, h.accepted, h.sent_eq⟩,
    fun h => ⟨h.refusals_eq, h.attempts_eq, h.accepted, h.sent_eq⟩⟩

theorem Publishes.record (h : Publishes config refusals messages world) {action : Action}
    (haction : ∀ topic key text, action ≠ .produce topic key text) :
    Publishes config refusals messages (world.record action) :=
  publishes_iff.mpr ((publishes_iff.mp h).record haction)

theorem publishTo_of_text {text : String} (htext : Json.text? message = .ok text)
    (world : Outside) :
    publishTo config message world =
      match world.send? config.eventsTopic config.authority text with
      | some outside => .ok outside
      | none => .error .queueFull := by
  simp only [publishTo, htext, mapError_ok, bind, Except.bind]
  rfl

theorem publishTo_of_unwritable {problem : Json.Unwritable}
    (htext : Json.text? message = .error problem) (world : Outside) :
    publishTo config message world = .error (.unwritable problem) := by
  simp only [publishTo, htext, mapError_error, bind, Except.bind]

/-- A message with a text is sent, or the broker refuses it. -/
theorem publishTo_cases {text : String} (htext : Json.text? message = .ok text)
    (config : Config) (world : Outside) :
    (∃ later, publishTo config message world = .ok later) ∨
      publishTo config message world = .error .queueFull := by
  rw [publishTo_of_text htext]
  cases world.send? config.eventsTopic config.authority text with
  | none => exact .inr rfl
  | some later => exact .inl ⟨later, rfl⟩

/-- A message that has been sent comes after the others. -/
theorem Publishes.sent (h : Publishes config refusals messages world)
    (hsent : publishTo config message world = .ok later) :
    Publishes config refusals (messages ++ [message]) later := by
  cases htext : Json.text? message with
  | error problem =>
      rw [publishTo_of_unwritable htext] at hsent
      cases hsent
  | ok text =>
      rw [publishTo_of_text htext] at hsent
      cases hsend : world.send? config.eventsTopic config.authority text with
      | none =>
          rw [hsend] at hsent
          cases hsent
      | some outside =>
          rw [hsend] at hsent
          cases hsent
          exact publishes_iff.mpr ((publishes_iff.mp h).send htext hsend)

/-- Only an attempt that the broker refuses meets a full queue. -/
theorem Publishes.refused (h : Publishes config refusals messages world)
    (hrefused : publishTo config message world = .error .queueFull) :
    messages.length ∈ refusals := by
  cases htext : Json.text? message with
  | error problem =>
      rw [publishTo_of_unwritable htext] at hrefused
      cases hrefused
  | ok text =>
      rw [publishTo_of_text htext] at hrefused
      cases hsend : world.send? config.eventsTopic config.authority text with
      | none => exact (publishes_iff.mp h).refused hsend
      | some outside =>
          rw [hsend] at hrefused
          cases hrefused

end LiveFeed.Service
