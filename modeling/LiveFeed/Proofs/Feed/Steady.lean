/-
One feed in different surroundings.  If these have no say in which notes are taken, they have none
in what becomes of an operation either.
-/
import LiveFeed.Proofs.Feed.Operation

namespace LiveFeed

/-- Subscribers who take a note or refuse it whatever their surroundings are. -/
def Listener.Steady {ω : Type} (listener : Listener ω) : Prop :=
  ∀ note a b, (listener note a).map (fun _ => ()) = (listener note b).map fun _ => ()

namespace Delivery

variable {ω : Type} {listener : Listener ω}

/-- Two runs that give the same, in surroundings of any kind. -/
abbrev Alike {α : Type} (r r' : EStateM.Result Feed.Fault ω α) : Prop :=
  Abreast (fun _ _ => True) r r'

theorem hand_steady (hsteady : listener.Steady) (note : Note) (a b : ω) :
    Alike (hand listener note a) (hand listener note b) := by
  have hmap := hsteady note a b
  unfold hand
  cases ha : listener note a with
  | ok _ =>
      cases hb : listener note b with
      | ok _ => exact .ok trivial
      | error fault =>
          rw [ha, hb] at hmap
          contradiction
  | error fault =>
      cases hb : listener note b with
      | ok _ =>
          rw [ha, hb] at hmap
          contradiction
      | error refusal =>
          rw [ha, hb] at hmap
          cases hmap
          exact .error trivial

theorem respond_steady (hsteady : listener.Steady) (shown : Option (List Bytes)) (event : Event)
    (number : Nat) (reaction : Reaction) (a b : ω) :
    Alike (respond listener shown event number reaction a)
      (respond listener shown event number reaction b) := by
  apply Abreast.bind (hand_steady hsteady _ a b)
  intro _ a b _
  cases reaction with
  | fail only =>
      cases only with
      | none => exact .error trivial
      | some payload =>
          by_cases hsame : event.data = payload
          · simp only [hsame, ↓reduceIte]
            exact .error trivial
          · simp only [hsame, ↓reduceIte]
            exact .ok trivial
  | read => exact hand_steady hsteady _ a b
  | record | clean | reset | push _ | enrol => exact .ok trivial

theorem relay_steady (hsteady : listener.Steady) (shown : Option (List Bytes)) (event : Event)
    (reactions : List Reaction) (number : Nat) (a b : ω) :
    Alike (relay listener shown event number reactions a)
      (relay listener shown event number reactions b) := by
  induction reactions generalizing number a b with
  | nil => exact .ok trivial
  | cons first rest ih =>
      apply Abreast.bind (respond_steady hsteady shown event number first a b)
      intro _ a b _
      exact ih (number + 1) a b

end Delivery

namespace Session

variable {ω : Type} {lifetime now : Int} {held : Option (List Stamp)} {s : Session ω}

/-- Two runs of an operation that give the same and leave the same feed. -/
abbrev Alike {α : Type} (r r' : EStateM.Result Feed.Fault (Session ω) α) : Prop :=
  Abreast (fun s t => s.feed = t.feed) r r'

theorem read_alike (hfeed : s.feed.Carries lifetime held) (hclock : s.clock.Shows now)
    (world : ω) : Alike (read s) (read { s with world }) := by
  rw [read_eq hfeed hclock, read_eq (s := { s with world }) hfeed hclock]
  cases held with
  | none => exact .ok rfl
  | some ss => exact .ok rfl

variable [Limits]

theorem push_alike (hfeed : s.feed.Carries lifetime held)
    (hpassive : ∀ r ∈ s.feed.subscribers, r.isPassive = true)
    (hstill : ∀ n, s.clock.face n = .ok (.int now)) {listener : Listener ω}
    (hsteady : listener.Steady) (origin data : Value) (world : ω) :
    Alike (push listener origin data s) (push listener origin data { s with world }) := by
  have hclock : s.clock.Shows now := hstill s.clock.reads
  cases hvet : Feed.vet s.feed.authority now (held.getD []) origin data with
  | error fault =>
      rw [push_refused hfeed hclock listener origin data hvet,
        push_refused (s := { s with world }) hfeed hclock listener origin data hvet]
      refine .error ?_
      rw [apply_ite feed, apply_ite feed]
      rfl
  | ok payload =>
      obtain ⟨_, -, hpush⟩ :=
        push_relayed hfeed hclock listener origin data hvet hpassive fun _ => hstill
      obtain ⟨_, -, hpush'⟩ :=
        push_relayed (s := { s with world }) hfeed hclock listener origin data hvet hpassive
          fun _ => hstill
      have hrelay := Delivery.relay_steady hsteady (shownAt lifetime now held)
        ⟨payload, .int now⟩ s.feed.subscribers 0 s.world world
      rw [hpush, hpush']
      generalize Delivery.relay listener (shownAt lifetime now held) ⟨payload, .int now⟩ 0
        s.feed.subscribers s.world = told at hrelay ⊢
      generalize Delivery.relay listener (shownAt lifetime now held) ⟨payload, .int now⟩ 0
        s.feed.subscribers world = told' at hrelay ⊢
      cases hrelay with
      | ok _ => exact .ok rfl
      | error _ => exact .error rfl

theorem clean_alike (hfeed : s.feed.Carries lifetime held) (hclock : s.clock.Shows now)
    (world : ω) : Alike (clean s) (clean { s with world }) := by
  rw [clean_eq hfeed hclock, clean_eq (s := { s with world }) hfeed hclock]
  cases Stamp.ahead? now (held.getD []) with
  | some latest => exact .error rfl
  | none => exact .ok rfl

end Session
end LiveFeed
