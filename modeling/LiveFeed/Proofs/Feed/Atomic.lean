/-
A push is stored, or it leaves the feed as it was.  Its checks decide whether anybody is told; then
the subscribers decide, and as long as they are told the feed shows what it showed before.
-/
import LiveFeed.Proofs.Feed.Operation

namespace LiveFeed.Session

variable {ω : Type} {lifetime now : Int} {held : Option (List Stamp)} {s : Session ω}

section

variable [Limits]

/-- A push that fails leaves the feed as it was, whichever check or subscriber has stopped it. -/
theorem feed_of_push_error (hfeed : s.feed.Carries lifetime held) (hclock : s.clock.Shows now)
    (hpassive : ∀ r ∈ s.feed.subscribers, r.isPassive = true) (listener : Listener ω)
    (origin data : Value) {fault : Feed.Fault} {t : Session ω}
    (hpush : push listener origin data s = .error fault t) : t.feed = s.feed := by
  cases hvet : Feed.vet s.feed.authority now (held.getD []) origin data with
  | error refusal =>
      rw [push_refused hfeed hclock listener origin data hvet] at hpush
      cases hpush
      split <;> rfl
  | ok payload =>
      rcases push_admitted hfeed hclock listener origin data hvet hpassive with
        ⟨failure, u, hfailed, hkept, -⟩ | ⟨u, hstored, -⟩
      · rw [hfailed] at hpush
        cases hpush
        exact hkept
      · rw [hstored] at hpush
        contradiction

/-- A push fails at a check, and then nobody is told; or at a subscriber; or it is stored.  However
it fails, the feed is as it was before, and whoever reads the feed while the push is told is shown
what it showed just before the push. -/
theorem push_atomic (s : Session ω) (lifetime : Int) (held : Option (List Stamp))
    (hfeed : s.feed.Carries lifetime held)
    (hpassive : ∀ r ∈ s.feed.subscribers, r.isPassive = true) (listener : Listener ω)
    (origin data : Value) (now : Int) :
    ∃ shown,
      (∃ t, read (s.atTime now) = .ok shown t ∧ t.feed = s.feed ∧ t.world = s.world) ∧
      (∀ fault t, push listener origin data (s.atTime now) = .error fault t →
        t.feed = s.feed) ∧
      match Feed.vet s.feed.authority now (held.getD []) origin data with
      | .error fault =>
          ∃ t, push listener origin data (s.atTime now) = .error fault t ∧ t.world = s.world
      | .ok payload =>
          match Delivery.relay listener shown ⟨payload, .int now⟩ 0 s.feed.subscribers s.world with
          | .error fault world =>
              ∃ t, push listener origin data (s.atTime now) = .error fault t ∧ t.world = world
          | .ok _ world =>
              ∃ t, push listener origin data (s.atTime now) = .ok ⟨payload, .int now⟩ t ∧
                t.world = world ∧
                t.feed = s.feed.holding lifetime
                  (Stamp.liveAt lifetime now (held.getD []) ++ [⟨payload, now⟩]) := by
  have hset : (s.atTime now).feed.Carries lifetime held := hfeed
  have hclock := shows_atTime s now
  refine ⟨shownAt lifetime now held, ?_, ?_, ?_⟩
  · have hread := read_eq hset hclock
    cases held with
    | none => exact ⟨_, hread, rfl, rfl⟩
    | some ss => exact ⟨_, hread, rfl, rfl⟩
  · intro fault t hpush
    exact feed_of_push_error hset hclock hpassive listener origin data hpush
  · cases hvet : Feed.vet s.feed.authority now (held.getD []) origin data with
    | error fault =>
        refine ⟨_, push_refused hset hclock listener origin data hvet, ?_⟩
        split <;> rfl
    | ok payload =>
        obtain ⟨reads, -, hpush⟩ := push_relayed hset hclock listener origin data hvet hpassive
          fun _ _ => rfl
        change _ = (match Delivery.relay listener (shownAt lifetime now held) ⟨payload, .int now⟩ 0
          s.feed.subscribers s.world with
          | .error fault world => _
          | .ok _ world => _) at hpush
        dsimp only
        cases hrelay : Delivery.relay listener (shownAt lifetime now held) ⟨payload, .int now⟩ 0
            s.feed.subscribers s.world with
        | error fault world =>
            rw [hrelay] at hpush
            exact ⟨_, hpush, rfl⟩
        | ok _ world =>
            rw [hrelay] at hpush
            exact ⟨_, hpush, rfl, rfl⟩

end

open scoped Limits

/-- A log of a shorter lifetime than its feed has expired; a reader and a subscriber that fails at
one payload are told of two pushes. -/
theorem push_atomic_of_expired :
    let listener : Listener (List Note) := fun note notes => .ok (note :: notes)
    let feed : Feed := ⟨.ofString "ann", .int 100, some (Log.stamped 5 [⟨[1], 1⟩]),
      [.record, .read, .fail (some [9]) .error], 0⟩
    let s : Session (List Note) := ⟨feed, Clock.showing (.int 0), []⟩
    let ann : Value := .str (.ofString "ann")
    (∃ t, push listener ann (.bytes .fixed [9]) (s.atTime 20) = .error (.subscriber 2 .error) t ∧
      t.world.length = 4 ∧ t.feed = s.feed) ∧
    ∃ t, push listener ann (.bytes .fixed [7]) (s.atTime 20) = .ok ⟨[7], .int 20⟩ t ∧
      t.feed.log = some (Log.stamped 5 [⟨[7], 20⟩]) := by
  intro listener feed s ann
  have hfeed : s.feed.Carries 5 (some [⟨[1], 1⟩]) := ⟨nofun, rfl, List.pairwise_singleton _ _⟩
  have hpassive : ∀ r ∈ s.feed.subscribers, r.isPassive = true := by decide
  have hatomic := push_atomic s 5 _ hfeed hpassive listener ann
  have hvet (payload : Bytes) :
      Feed.vet s.feed.authority 20 [⟨[1], 1⟩] ann (.bytes .fixed payload) = .ok payload := rfl
  constructor
  · obtain ⟨shown, -, hkept, hfailed⟩ := hatomic (.bytes .fixed [9]) 20
    rw [Option.getD_some, hvet] at hfailed
    obtain ⟨t, hpush, hworld⟩ := hfailed
    exact ⟨t, hpush, congrArg List.length hworld, hkept _ t hpush⟩
  · obtain ⟨shown, -, -, hstored⟩ := hatomic (.bytes .fixed [7]) 20
    rw [Option.getD_some, hvet] at hstored
    obtain ⟨t, hpush, -, hfeed⟩ := hstored
    exact ⟨t, hpush, congrArg Feed.log hfeed⟩

end LiveFeed.Session
