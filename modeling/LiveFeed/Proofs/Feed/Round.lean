/-
The round of calls that tells subscribers of an event.  It goes along a list that the subscribers
themselves make longer: each one is called in its turn, the late ones too, until the end of the list
is reached or a call fails.  As those who are registered late only take note, the end is reached.
-/
import LiveFeed.Proofs.Feed.Advance
import Mathlib.Data.List.Basic

namespace LiveFeed

/-- Whether a subscriber takes note, fails, reads the feed or registers another one, and does
nothing else. -/
def Reaction.isMild : Reaction → Bool
  | .record | .fail .. | .read | .enrol => true
  | .clean | .reset | .push _ => false

theorem Reaction.isMild_of_mem_replicate {count : Nat} {r : Reaction}
    (h : r ∈ List.replicate count .record) : r.isMild = true := by
  rw [List.eq_of_mem_replicate h]
  rfl

namespace Delivery

variable {ω : Type} {listener : Listener ω} {event : Event} {number : Nat} {reaction : Reaction}
  {d e f : Delivery ω}

/-! What calls leave behind -/

/-- The second state is the first one but for the readings of the clock, the surroundings and some
more subscribers that only take note. -/
def Grown (count : Nat) (d e : Delivery ω) : Prop :=
  ∃ reads world, e =
    { d with
      clock := { d.clock with reads }
      subscribers := d.subscribers ++ List.replicate count .record
      world }

theorem Grown.of_undisturbed (h : Undisturbed d e) : Grown 0 d e := by
  obtain ⟨reads, world, rfl⟩ := h
  exact ⟨reads, world, by rw [List.replicate_zero, List.append_nil]⟩

theorem Grown.refl (d : Delivery ω) : Grown 0 d d := .of_undisturbed (Std.Refl.refl d)

theorem Grown.trans {m n : Nat} (h : Grown m d e) (h' : Grown n e f) : Grown (m + n) d f := by
  obtain ⟨_, _, rfl⟩ := h
  obtain ⟨reads, world, rfl⟩ := h'
  exact ⟨reads, world, by rw [List.append_assoc, List.replicate_append_replicate]⟩

theorem Grown.subscribers_eq {count : Nat} (h : Grown count d e) :
    e.subscribers = d.subscribers ++ List.replicate count .record := by
  obtain ⟨_, _, rfl⟩ := h
  rfl

theorem Grown.isMild {count : Nat} (h : Grown count d e)
    (hmild : ∀ r ∈ d.subscribers, r.isMild = true) : ∀ r ∈ e.subscribers, r.isMild = true := by
  intro r hr
  rw [h.subscribers_eq] at hr
  rcases List.mem_append.mp hr with hold | hnew
  · exact hmild r hold
  · exact Reaction.isMild_of_mem_replicate hnew

/-- Calls leave the logs alone, and what the clock shows. -/
theorem Grown.kept {count : Nat} (h : Grown count d e) :
    e.logs = d.logs ∧ e.log? = d.log? ∧ e.clock.face = d.clock.face := by
  obtain ⟨_, _, rfl⟩ := h
  exact ⟨rfl, rfl, rfl⟩

/-- Those who are registered late stand after all others that have still to be called. -/
theorem Grown.drop_eq {count : Nat} (h : Grown count d e) (hle : number ≤ d.subscribers.length) :
    e.subscribers.drop number =
      d.subscribers.drop number ++ List.replicate count .record := by
  rw [h.subscribers_eq, List.drop_append_of_le_length hle]

theorem drop_of_next (hnext : d.subscribers[number]? = some reaction) :
    d.subscribers.drop number = reaction :: d.subscribers.drop (number + 1) := by
  obtain ⟨hlt, rfl⟩ := List.getElem?_eq_some_iff.mp hnext
  exact List.drop_eq_getElem_cons hlt

theorem count_take_replicate (length count : Nat) :
    ((List.replicate count Reaction.record).take length).count .enrol = 0 := by
  rw [List.take_replicate, List.count_replicate]
  rfl

variable [Limits]

/-- A call of a subscriber that makes no push of its own. -/
def call (listener : Listener ω) (event : Event) (number : Nat) (reaction : Reaction) :
    Act ω Unit :=
  react listener (fun _ => return) event number reaction

/-- Mild subscribers make no pushes. -/
theorem react_eq_call (hmild : reaction.isMild = true) (nested : Bytes → Act ω Unit) :
    react listener nested event number reaction = call listener event number reaction := by
  cases reaction with
  | push data => contradiction
  | fail only => cases only <;> rfl
  | _ => rfl

/-- A call that returns leaves one more subscriber if it was to register one; a call that fails
leaves none. -/
theorem call_grown (listener : Listener ω) (event : Event) (number : Nat)
    (hmild : reaction.isMild = true) (d : Delivery ω) :
    match call listener event number reaction d with
    | .ok _ e => Grown ([reaction].count .enrol) d e
    | .error _ e => Grown 0 d e := by
  by_cases henrol : reaction = .enrol
  · subst henrol
    have hleave := undisturbed_leave listener (.told number event) d
    unfold call react
    cases htold : leave listener (.told number event) d with
    | error fault e =>
        rw [htold] at hleave
        rw [bind_of_error htold]
        exact .of_undisturbed hleave
    | ok _ e =>
        rw [htold] at hleave
        rw [bind_of_ok htold]
        exact (Grown.of_undisturbed hleave).trans ⟨_, _, rfl⟩
  · have hpassive : reaction.isPassive = true := by
      cases reaction with
      | enrol => contradiction
      | _ => exact hmild
    have hcall := undisturbed_react listener (fun _ => return) event number hpassive d
    rw [List.count_singleton, if_neg (by simpa using henrol)]
    unfold call
    cases hreact : react listener (fun _ => return) event number reaction d with
    | error fault e =>
        rw [hreact] at hcall
        exact .of_undisturbed hcall
    | ok _ e =>
        rw [hreact] at hcall
        exact .of_undisturbed hcall

theorem grown_of_call (hmild : reaction.isMild = true)
    (hcall : call listener event number reaction d = .ok () e) :
    Grown ([reaction].count .enrol) d e := by
  have h := call_grown listener event number hmild d
  rwa [hcall] at h

theorem grown_of_failure {fault : Feed.Fault} (hmild : reaction.isMild = true)
    (hcall : call listener event number reaction d = .error fault e) : Grown 0 d e := by
  have h := call_grown listener event number hmild d
  rwa [hcall] at h

/-! The round -/

/-- A round of calls along the list of subscribers as it is at each moment, from a number on:
`returned` of them return, and then the list is at its end or the next one fails. -/
inductive Round (listener : Listener ω) (event : Event) :
    Nat → Delivery ω → Nat → Option Feed.Fault → Delivery ω → Prop where
  | finished {number : Nat} {d : Delivery ω} (hend : d.subscribers[number]? = none) :
      Round listener event number d 0 none d
  | failed {number : Nat} {reaction : Reaction} {fault : Feed.Fault} {d e : Delivery ω}
      (hnext : d.subscribers[number]? = some reaction)
      (hcall : call listener event number reaction d = .error fault e) :
      Round listener event number d 0 (some fault) e
  | called {number returned : Nat} {reaction : Reaction} {failure : Option Feed.Fault}
      {d e f : Delivery ω} (hnext : d.subscribers[number]? = some reaction)
      (hcall : call listener event number reaction d = .ok () e)
      (hrest : Round listener event (number + 1) e returned failure f) :
      Round listener event number d (returned + 1) failure f

variable {returned : Nat} {failure : Option Feed.Fault}

/-- Telling subscribers that stand in the list from a number on is the first part of a round. -/
theorem round_of_tell (listener : Listener ω) (event : Event) (number : Nat)
    {reactions late : List Reaction} (hmild : ∀ r ∈ reactions, r.isMild = true)
    (hdrop : d.subscribers.drop number = reactions ++ late) (nested : Bytes → Act ω Unit) :
    match tell listener nested event number reactions d with
    | .error fault e => ∃ returned, Round listener event number d returned (some fault) e
    | .ok _ e => Grown (reactions.count .enrol) d e ∧
        ∀ returned failure f,
          Round listener event (number + reactions.length) e returned failure f →
          Round listener event number d (returned + reactions.length) failure f := by
  induction reactions generalizing number d late with
  | nil => exact ⟨.refl d, fun _ _ _ hround => hround⟩
  | cons first rest ih =>
      obtain ⟨hfirst, hrest⟩ := List.forall_mem_cons.mp hmild
      have hnext : d.subscribers[number]? = some first := by
        rw [← Nat.add_zero number, ← List.getElem?_drop, hdrop]
        rfl
      have hlt : number < d.subscribers.length := (List.getElem?_eq_some_iff.mp hnext).1
      unfold tell
      rw [react_eq_call hfirst]
      cases hcall : call listener event number first d with
      | error fault e =>
          rw [bind_of_error hcall]
          exact ⟨0, .failed hnext hcall⟩
      | ok _ e =>
          have hgrown := grown_of_call hfirst hcall
          rw [bind_of_ok hcall]
          -- The first call may have made the list longer, but only behind those who are still told.
          have hlater : e.subscribers.drop (number + 1) =
              rest ++ (late ++ List.replicate ([first].count .enrol) .record) := by
            rw [hgrown.drop_eq hlt, ← List.tail_drop, hdrop, List.cons_append, List.tail_cons,
              List.append_assoc]
          have htold := ih (number + 1) hrest hlater
          cases htell : tell listener nested event (number + 1) rest e with
          | error fault f =>
              rw [htell] at htold
              obtain ⟨returned, hround⟩ := htold
              exact ⟨returned + 1, .called hnext hcall hround⟩
          | ok _ f =>
              rw [htell] at htold
              obtain ⟨hmore, hjoin⟩ := htold
              rw [← List.singleton_append, List.count_append]
              refine ⟨hgrown.trans hmore, fun returned failure g hround => ?_⟩
              rw [List.length_append, List.length_singleton, ← Nat.add_assoc] at hround
              exact .called hnext hcall (hjoin returned failure g hround)

/-- What comes of a step that may have failed. -/
def conclude {σ α : Type} (failure : Option Feed.Fault) (a : α) (s : σ) :
    EStateM.Result Feed.Fault σ α :=
  match failure with
  | none => .ok a s
  | some fault => .error fault s

/-- A delivery to mild subscribers is one round: it ends, and as the round ends. -/
theorem deliver_round (hmild : ∀ r ∈ d.subscribers, r.isMild = true) (listener : Listener ω)
    (nested : Bytes → Act ω Unit) (event : Event) :
    ∃ returned failure e, Round listener event 0 d returned failure e ∧
      deliver listener nested event d = conclude failure () e := by
  have hsplit : deliver listener nested event d =
      (tell listener nested event 0 d.subscribers >>= fun _ => do
        let late := (← get).subscribers.drop d.subscribers.length
        tell listener (fun _ => return) event d.subscribers.length
          (late.map fun _ => .record)) d := rfl
  have hpresent := round_of_tell listener event 0 hmild
    (List.append_nil d.subscribers).symm nested
  rw [hsplit]
  cases htold : tell listener nested event 0 d.subscribers d with
  | error fault e =>
      rw [htold] at hpresent
      obtain ⟨returned, hround⟩ := hpresent
      exact ⟨returned, some fault, e, hround, bind_of_error htold⟩
  | ok _ e =>
      rw [htold] at hpresent
      obtain ⟨hgrown, hjoin⟩ := hpresent
      rw [Nat.zero_add] at hjoin
      -- The late ones register nobody, so a second telling comes to the end of the list.
      have hlate : e.subscribers.drop d.subscribers.length =
          List.replicate (d.subscribers.count .enrol) .record := by
        rw [hgrown.drop_eq (le_refl _), List.drop_length, List.nil_append]
      generalize d.subscribers.count .enrol = count at hgrown hlate
      have hrest := round_of_tell listener event _ (fun r => Reaction.isMild_of_mem_replicate)
        (hlate.trans (List.append_nil _).symm) (fun _ => return)
      rw [bind_of_ok htold, bind_get]
      simp only [hlate, List.map_replicate]
      cases hcalled : tell listener (fun _ => return) event d.subscribers.length
          (List.replicate count .record) e with
      | error fault f =>
          rw [hcalled] at hrest
          obtain ⟨returned, hround⟩ := hrest
          exact ⟨_, some fault, f, hjoin _ _ _ hround, rfl⟩
      | ok _ f =>
          rw [hcalled] at hrest
          obtain ⟨hlast, hjoin'⟩ := hrest
          have hend : f.subscribers[d.subscribers.length + count]? = none := by
            rw [hlast.subscribers_eq, hgrown.subscribers_eq]
            simp
          rw [List.length_replicate] at hjoin'
          exact ⟨_, none, f, hjoin _ _ _ (hjoin' _ _ _ (.finished hend)), rfl⟩

/-! What a round leaves behind -/

/-- A round leaves as many more subscribers as were to register one and returned. -/
theorem Round.grown (h : Round listener event number d returned failure e)
    (hmild : ∀ r ∈ d.subscribers, r.isMild = true) :
    Grown (((d.subscribers.drop number).take returned).count .enrol) d e := by
  induction h with
  | finished _ => exact .refl _
  | failed hnext hcall =>
      exact grown_of_failure (hmild _ (List.mem_of_getElem? hnext)) hcall
  | @called number returned reaction failure d e f hnext hcall _ ih =>
      have hgrown := grown_of_call (hmild _ (List.mem_of_getElem? hnext)) hcall
      have hlt : number < d.subscribers.length := (List.getElem?_eq_some_iff.mp hnext).1
      -- The rest is counted in the longer list; what has come to it only takes note.
      have hrest := ih (hgrown.isMild hmild)
      rw [hgrown.drop_eq hlt, List.take_append, List.count_append, count_take_replicate,
        Nat.add_zero] at hrest
      rw [drop_of_next hnext, List.take_succ_cons, ← List.singleton_append, List.count_append]
      exact hgrown.trans hrest

/-- A round in which no call fails has gone to the end of the list. -/
theorem Round.length_eq (h : Round listener event number d returned none e)
    (hmild : ∀ r ∈ d.subscribers, r.isMild = true) (hle : number ≤ d.subscribers.length) :
    e.subscribers.length = number + returned := by
  generalize hnone : (none : Option Feed.Fault) = failure at h
  induction h with
  | finished hend => exact le_antisymm (List.getElem?_eq_none_iff.mp hend) hle
  | failed _ _ => cases hnone
  | @called number returned reaction failure d e f hnext hcall _ ih =>
      have hgrown := grown_of_call (hmild _ (List.mem_of_getElem? hnext)) hcall
      have hlt : number < d.subscribers.length := (List.getElem?_eq_some_iff.mp hnext).1
      have hlength : number + 1 ≤ e.subscribers.length := by
        rw [hgrown.subscribers_eq, List.length_append]
        omega
      rw [ih (hgrown.isMild hmild) hlength hnone]
      omega

end Delivery
end LiveFeed
