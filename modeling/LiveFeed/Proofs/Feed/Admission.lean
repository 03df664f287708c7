/-
The stages of a push.  It is admitted if it passes three checks, it is told to the subscribers, and
it is settled in the log that it has held since it was admitted.
-/
import LiveFeed.Proofs.Feed.Delivery

namespace LiveFeed

/-- The next reading of a clock gives a whole number. -/
def Clock.Shows (clock : Clock) (now : Int) : Prop := clock.face clock.reads = .ok (.int now)

/-- Every reading of a clock gives a whole number. -/
def Clock.IsWhole (clock : Clock) : Prop := ∀ n, ∃ now, clock.face n = .ok (.int now)

namespace Delivery

variable {ω : Type} {now : Int} {d : Delivery ω}

theorem lift_ok {ε α : Type} (wrap : ε → Feed.Fault) (a : α) (d : Delivery ω) :
    lift wrap (.ok a) d = .ok a d := rfl

theorem lift_error {ε α : Type} (wrap : ε → Feed.Fault) (fault : ε) (d : Delivery ω) :
    (lift wrap (.error fault) : Act ω α) d = .error (wrap fault) d := rfl

/-- The state after one more reading of the clock. -/
def ticked (d : Delivery ω) : Delivery ω := { d with clock := d.clock.read.2 }

theorem consult_of_shows (h : d.clock.Shows now) : consult d = .ok (.int now) d.ticked := by
  change lift .clock d.clock.read.1 d.ticked = _
  rw [Clock.Shows] at h
  rw [Clock.read, h]
  rfl

/-- The position of the log that a change is made to, and the state in which it is there. -/
def holding (d : Delivery ω) : Nat × Delivery ω :=
  match d.shown with
  | some position => (position, d)
  | none => (d.logs.length, { d with logs := d.logs ++ [Log.empty d.lifetime] })

/-- With a log in place, a push holds that one. -/
theorem holding_of_shown {position : Nat} (hshown : d.shown = some position) :
    d.holding = (position, d) := by
  rw [holding, hshown]

theorem holding_shown (d : Delivery ω) : d.holding.2.shown = d.shown := by
  unfold holding
  split <;> rfl

theorem holding_subscribers (d : Delivery ω) : d.holding.2.subscribers = d.subscribers := by
  unfold holding
  split <;> rfl

theorem holding_world (d : Delivery ω) : d.holding.2.world = d.world := by
  unfold holding
  split <;> rfl

theorem hold_eq (d : Delivery ω) : hold d = .ok d.holding.1 d.holding.2 := by
  unfold hold holding
  rw [bind_get]
  cases d.shown <;> rfl

/-- The feed with a log put in a position and shown. -/
def showing (d : Delivery ω) (position : Nat) (log : Log) : Delivery ω :=
  { d with logs := d.logs.set position log, shown := some position }

theorem log?_showing {position : Nat} (hposition : position < d.logs.length) (log : Log) :
    (d.showing position log).log? = some log := by
  simp [log?, showing, List.getElem?_set_self hposition]

variable [Limits]

/-- The last stage of a push: the payload goes into the log at the position, which is then shown. -/
def settle (position : Nat) (event : Event) : Act ω Event := do
  let log ← lift .log
    (((← get).logAt position).push event.recordedAt (.bytes .fixed event.data))
  store position log
  return event

/-- A push is refused by the first check that it does not pass, and else told and settled. -/
theorem pushWith_eq (hclock : d.clock.Shows now) (listener : Listener ω)
    (nested : Bytes → Act ω Unit) (origin data : Value) :
    pushWith listener nested origin data d =
      match Feed.authorise d.authority origin with
      | .error fault => .error fault d
      | .ok _ =>
          match Log.octets data with
          | .error fault => .error (.log fault) d.ticked
          | .ok payload =>
              let held := d.ticked.holding
              match (held.2.logAt held.1).checkTime (.int now) with
              | .error fault => .error (.log fault) held.2
              | .ok _ =>
                  (deliver listener nested ⟨payload, .int now⟩ >>= fun _ =>
                    settle held.1 ⟨payload, .int now⟩) held.2 := by
  unfold pushWith
  rw [bind_get]
  cases Feed.authorise d.authority origin with
  | error fault => exact bind_of_error (lift_error id fault d)
  | ok _ =>
      rw [bind_of_ok (lift_ok id _ d), bind_of_ok (consult_of_shows hclock)]
      cases Log.octets data with
      | error fault => exact bind_of_error (lift_error .log fault _)
      | ok payload =>
          rw [bind_of_ok (lift_ok .log _ _), bind_of_ok (hold_eq _), bind_get]
          simp only []
          cases (d.ticked.holding.2.logAt d.ticked.holding.1).checkTime (.int now) with
          | error fault => exact bind_of_error (lift_error .log fault _)
          | ok _ =>
              rw [bind_of_ok (lift_ok .log _ _)]
              rfl

end Delivery
end LiveFeed
