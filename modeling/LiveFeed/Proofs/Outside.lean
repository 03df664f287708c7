/-
What a program has sent.  Its messages go to one topic in their order, and only the broker can keep
one of them from being sent, by refusing the attempt.
-/
import LiveFeed.Json.Writer
import LiveFeed.Outside
import LiveFeed.Proofs.Steps

namespace LiveFeed.Outside

/-- What has been sent, in the order in which it was. -/
def sent (o : Outside) : List Action :=
  o.actions.reverse.filter fun
    | .produce .. => true
    | _ => false

theorem sent_record (o : Outside) {action : Action}
    (h : ∀ topic key text, action ≠ .produce topic key text) : (o.record action).sent = o.sent := by
  simp only [sent, record, List.reverse_cons, List.filter_append]
  cases action with
  | produce topic key text => exact absurd rfl (h topic key text)
  | _ => exact List.append_nil _

variable [Limits]

/-- A message as it is sent. -/
def letter (topic key : Text) (message : Value) : Except Json.Unwritable Action := do
  return .produce topic key (← Json.text? message)

/-- Messages have been sent in their order, and the broker has refused none of them. -/
structure HasSent (topic key : Text) (refusals : List Nat) (messages : List Value)
    (world : Outside) : Prop where
  refusals_eq : world.refusals = refusals
  attempts_eq : world.attempts = messages.length
  accepted : ∀ attempt < messages.length, attempt ∉ refusals
  sent_eq : messages.mapM (letter topic key) = .ok world.sent

namespace HasSent

variable {topic key : Text} {refusals : List Nat} {messages : List Value} {world later : Outside}
  {message : Value} {text : String}

theorem start (topic key : Text) (refusals : List Nat) :
    HasSent topic key refusals [] (Outside.start refusals) :=
  ⟨rfl, rfl, nofun, rfl⟩

theorem record (h : HasSent topic key refusals messages world) {action : Action}
    (haction : ∀ topic key text, action ≠ .produce topic key text) :
    HasSent topic key refusals messages (world.record action) := by
  refine ⟨h.refusals_eq, h.attempts_eq, h.accepted, ?_⟩
  rw [sent_record world haction]
  exact h.sent_eq

/-- A message that has been sent comes after the others. -/
theorem send (h : HasSent topic key refusals messages world) (htext : Json.text? message = .ok text)
    (hsend : world.send? topic key text = some later) :
    HasSent topic key refusals (messages ++ [message]) later := by
  rw [send?, h.refusals_eq, h.attempts_eq] at hsend
  by_cases hrefused : refusals.contains messages.length = true
  · rw [if_pos hrefused] at hsend
    cases hsend
  · rw [if_neg hrefused] at hsend
    cases hsend
    have hletter : letter topic key message = .ok (.produce topic key text) := by
      simp only [letter, htext]
      rfl
    constructor
    · rfl
    · simp
    · intro attempt hlt
      rw [List.length_append, List.length_singleton, Nat.lt_succ_iff_lt_or_eq] at hlt
      rcases hlt with hlt | rfl
      · exact h.accepted attempt hlt
      · intro hmem
        exact hrefused (List.contains_iff_mem.mpr hmem)
    · rw [List.mapM_append, h.sent_eq, List.mapM_cons, hletter]
      simp [Outside.sent, bind, Except.bind, pure, Except.pure]

/-- Only an attempt that the broker refuses meets a full queue. -/
theorem refused (h : HasSent topic key refusals messages world)
    (hsend : world.send? topic key text = none) : messages.length ∈ refusals := by
  rw [send?, h.refusals_eq, h.attempts_eq] at hsend
  by_cases hmem : refusals.contains messages.length = true
  · exact List.contains_iff_mem.mp hmem
  · rw [if_neg hmem] at hsend
    cases hsend

theorem length_sent (h : HasSent topic key refusals messages world) :
    world.sent.length = messages.length :=
  (forall₂_of_mapM h.sent_eq).length_eq.symm

/-- Everything that has been sent has gone to the topic. -/
theorem exists_text_of_mem (h : HasSent topic key refusals messages world) {action : Action}
    (hsent : action ∈ world.sent) : ∃ text, action = .produce topic key text := by
  have hletters := forall₂_of_mapM h.sent_eq
  generalize world.sent = actions at hletters hsent
  clear h
  induction hletters with
  | nil => cases hsent
  | cons hletter _ ih =>
      rcases List.mem_cons.mp hsent with rfl | hrest
      · obtain ⟨text, -, hsame⟩ := bind_eq_ok_iff.mp hletter
        cases hsame
        exact ⟨text, rfl⟩
      · exact ih hrest

end HasSent
end LiveFeed.Outside
