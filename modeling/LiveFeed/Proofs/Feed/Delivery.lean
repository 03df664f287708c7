/-
What delivery does to a feed.  Subscribers that only take note, fail or read leave it alone,
whatever becomes of their notes, and those that only take note leave nothing behind but the notes.
-/
import LiveFeed.Feed.Delivery
import LiveFeed.Proofs.Steps

namespace LiveFeed

/-- Whether a subscriber leaves the log and the list of subscribers alone. -/
def Reaction.isPassive : Reaction → Bool
  | .record | .fail .. | .read => true
  | .clean | .reset | .push _ | .enrol => false

/-- Who may refuse a push for a reason while it is told: a subscriber, or who takes the notes. -/
inductive Raises {ω : Type} (listener : Listener ω) (subscribers : List Reaction)
    (reason : Reason) : Prop where
  | subscriber {only : Option Bytes} {detail : String}
      (hmem : .fail only (.refusal reason detail) ∈ subscribers)
  | listener {note : Note} {world : ω} {fault : Feed.Fault}
      (hnote : listener note world = .error fault) (hreason : fault.reason? = some reason)

/-- If a fault is a refusal, somebody has refused who was told. -/
def Objects {ω : Type} (listener : Listener ω) (subscribers : List Reaction)
    (fault : Feed.Fault) : Prop :=
  ∀ reason, fault.reason? = some reason → Raises listener subscribers reason

namespace Delivery

variable {ω α β : Type}

/-- The second state is the first one but for the readings of the clock and the surroundings. -/
def Undisturbed (d e : Delivery ω) : Prop :=
  ∃ reads world, e = { d with clock := { d.clock with reads }, world }

instance : IsPreorder (Delivery ω) Undisturbed where
  refl d := ⟨d.clock.reads, d.world, rfl⟩
  trans := by
    rintro d _ _ ⟨_, _, rfl⟩ ⟨reads, world, rfl⟩
    exact ⟨reads, world, rfl⟩

/-! Relations that the parts of a delivery lead along, whatever they are -/

section Leads

variable {Related : Delivery ω → Delivery ω → Prop}

theorem leads_lift [Std.Refl Related] {ε : Type} (wrap : ε → Feed.Fault) (result : Except ε α) :
    Leads Related (lift wrap result : Act ω α) := by
  cases result with
  | ok a => exact Leads.pure a
  | error fault => exact Leads.throw (wrap fault)

theorem leads_read [IsPreorder (Delivery ω) Related]
    (hconsult : Leads Related (consult : Act ω Value)) :
    Leads Related (read : Act ω (Option (List Bytes))) := by
  refine Leads.bind Leads.get ?_
  intro d
  cases d.log? with
  | none => exact Leads.pure none
  | some log =>
      refine Leads.bind hconsult ?_
      intro now
      refine Leads.bind (leads_lift .log (log.live now)) ?_
      intro payloads
      exact Leads.pure (some payloads)

variable [Limits]

theorem leads_tell [IsPreorder (Delivery ω) Related] {listener : Listener ω}
    {nested : Bytes → Act ω Unit} {event : Event} {reactions : List Reaction}
    (hreact : ∀ r ∈ reactions, ∀ number, Leads Related (react listener nested event number r))
    (number : Nat) : Leads Related (tell listener nested event number reactions) := by
  induction reactions generalizing number with
  | nil => exact Leads.pure ()
  | cons first rest ih =>
      refine Leads.bind (hreact first List.mem_cons_self number) ?_
      intro _
      exact ih (fun r hr => hreact r (List.mem_cons_of_mem first hr)) (number + 1)

end Leads

theorem leave_eq (listener : Listener ω) (note : Note) (d : Delivery ω) :
    leave listener note d =
      match listener note d.world with
      | .ok world => .ok () { d with world }
      | .error fault => .error fault d := by
  change EStateM.bind (lift id (listener note d.world)) (fun world => set { d with world }) d = _
  cases listener note d.world <;> rfl

theorem undisturbed_leave (listener : Listener ω) (note : Note) :
    Leads Undisturbed (leave listener note) := by
  intro d
  rw [leave_eq]
  cases listener note d.world with
  | ok world => exact ⟨d.clock.reads, world, rfl⟩
  | error fault => exact Std.Refl.refl d

theorem undisturbed_consult : Leads Undisturbed (consult : Act ω Value) := by
  intro d
  have hset : Undisturbed d { d with clock := d.clock.read.2 } :=
    ⟨d.clock.reads + 1, d.world, rfl⟩
  exact IsTrans.trans _ _ _ hset (leads_lift .clock d.clock.read.1 _)

section

variable {listener : Listener ω} {subscribers : List Reaction}

theorem failsOnly_lift {Allowed : Feed.Fault → Prop} {ε : Type} {wrap : ε → Feed.Fault}
    {result : Except ε α} (h : ∀ fault, result = .error fault → Allowed (wrap fault)) :
    FailsOnly Allowed (lift wrap result : Act ω α) := by
  cases result with
  | ok a => exact FailsOnly.pure a
  | error fault => exact FailsOnly.throw (h fault rfl)

theorem failsOnly_leave (note : Note) :
    FailsOnly (Objects listener subscribers) (leave listener note) := by
  intro d fault e h
  rw [leave_eq] at h
  cases hnote : listener note d.world with
  | ok world =>
      rw [hnote] at h
      cases h
  | error cause =>
      rw [hnote] at h
      cases h
      exact fun reason hreason => .listener hnote hreason

/-- A read is not refused. -/
theorem failsOnly_read : FailsOnly (Objects listener subscribers) (read : Act ω _) := by
  have hconsult : FailsOnly (Objects listener subscribers) (consult : Act ω Value) :=
    FailsOnly.get.bind fun _ => (FailsOnly.set _).bind fun _ => failsOnly_lift fun _ _ => nofun
  have hlive (log : Log) (now : Value) : FailsOnly (Objects listener subscribers)
      (lift .log (log.live now) : Act ω _) := by
    refine failsOnly_lift fun fault hfault => ?_
    rcases bind_eq_error_iff.mp hfault with hboundary | ⟨_, -, hrest⟩
    · obtain ⟨cause, -, rfl⟩ := mapError_eq_error_iff.mp hboundary
      exact nofun
    · cases hrest
  refine FailsOnly.get.bind fun d => ?_
  cases d.log? with
  | none => exact FailsOnly.pure none
  | some log =>
      exact hconsult.bind fun now => (hlive log now).bind fun payloads => FailsOnly.pure _

end

/-- The same feed after other readings of the clock and in other surroundings. -/
def moved (d : Delivery ω) (reads : Nat) (world : ω) : Delivery ω :=
  { d with clock := { d.clock with reads }, world }

/-- What comes of a feed when something comes of its surroundings and its clock is read. -/
def outcome (d : Delivery ω) (reads : Nat) :
    EStateM.Result Feed.Fault ω α → EStateM.Result Feed.Fault (Delivery ω) α
  | .ok a world => .ok a (d.moved reads world)
  | .error fault world => .error fault (d.moved reads world)

/-- Hands a note to the surroundings. -/
def hand (listener : Listener ω) (note : Note) : EStateM Feed.Fault ω Unit := fun world =>
  match listener note world with
  | .ok world => .ok () world
  | .error fault => .error fault world

theorem leave_eq_outcome (listener : Listener ω) (note : Note) (d : Delivery ω) :
    leave listener note d = d.outcome d.clock.reads (hand listener note d.world) := by
  rw [leave_eq, hand]
  cases listener note d.world <;> rfl

/-- What a passive subscriber does in its surroundings when it is told of an event, if readers are
shown the given payloads. -/
def respond (listener : Listener ω) (shown : Option (List Bytes)) (event : Event) (number : Nat)
    (reaction : Reaction) : EStateM Feed.Fault ω Unit := do
  hand listener (.told number event)
  match reaction with
  | .fail none raised => throw (.subscriber number raised)
  | .fail (some payload) raised =>
      if event.data = payload then throw (.subscriber number raised)
  | .read => hand listener (.read number shown)
  | _ => return

/-- What passive subscribers do in their surroundings when they are told of an event one after the
other; the first of them has the given number. -/
def relay (listener : Listener ω) (shown : Option (List Bytes)) (event : Event) :
    Nat → List Reaction → EStateM Feed.Fault ω Unit
  | _, [] => return
  | number, reaction :: rest => do
      respond listener shown event number reaction
      relay listener shown event (number + 1) rest

/-- A run in which subscribers only take note of an event: `count` of them, of which the first has
the given number. -/
def chorus (listener : Listener ω) (event : Event) : Nat → Nat → EStateM Feed.Fault ω Unit
  | _, 0 => return
  | number, count + 1 => fun world =>
      match listener (.told number event) world with
      | .ok world => chorus listener event (number + 1) count world
      | .error fault => .error fault world

/-- To subscribers that only take note a chorus is relayed. -/
theorem relay_replicate (listener : Listener ω) (shown : Option (List Bytes)) (event : Event)
    (number count : Nat) (world : ω) :
    relay listener shown event number (List.replicate count .record) world =
      chorus listener event number count world := by
  induction count generalizing number world with
  | zero => rfl
  | succ count ih =>
      rw [List.replicate_succ]
      simp only [relay, chorus]
      cases hnote : listener (.told number event) world with
      | error fault =>
          have hhand : hand listener (.told number event) world = .error fault world := by
            rw [hand, hnote]
          exact bind_of_error (bind_of_error hhand)
      | ok later =>
          have hhand : hand listener (.told number event) world = .ok () later := by
            rw [hand, hnote]
          have hrespond : respond listener shown event number .record world = .ok () later :=
            bind_of_ok hhand
          rw [bind_of_ok hrespond]
          exact ih (number + 1) later

variable [Limits]

theorem undisturbed_react (listener : Listener ω) (nested : Bytes → Act ω Unit) (event : Event)
    (number : Nat) {reaction : Reaction} (hpassive : reaction.isPassive = true) :
    Leads Undisturbed (react listener nested event number reaction) := by
  refine Leads.bind (undisturbed_leave listener _) ?_
  intro _
  cases reaction with
  | record => exact Leads.pure ()
  | fail only raised =>
      cases only with
      | none => exact Leads.throw _
      | some payload =>
          by_cases hsame : event.data = payload
          · simp only [hsame, ↓reduceIte]
            exact Leads.throw _
          · simp only [hsame, ↓reduceIte]
            exact Leads.pure ()
  | read =>
      refine Leads.bind (leads_read undisturbed_consult) ?_
      intro payloads
      exact undisturbed_leave listener _
  | clean => contradiction
  | reset => contradiction
  | push data => contradiction
  | enrol => contradiction

theorem undisturbed_tell (listener : Listener ω) (nested : Bytes → Act ω Unit) (event : Event)
    {reactions : List Reaction} (hpassive : ∀ r ∈ reactions, r.isPassive = true) (number : Nat) :
    Leads Undisturbed (tell listener nested event number reactions) :=
  leads_tell (fun r hr number => undisturbed_react listener nested event number (hpassive r hr))
    number

/-- If those who are told leave the list of subscribers alone, there are no late ones to be told. -/
theorem deliver_eq_tell (listener : Listener ω) (nested : Bytes → Act ω Unit) (event : Event)
    (d : Delivery ω)
    (hsame : (ending (tell listener nested event 0 d.subscribers d)).subscribers =
      d.subscribers) :
    deliver listener nested event d = tell listener nested event 0 d.subscribers d := by
  have hsplit : deliver listener nested event d =
      (tell listener nested event 0 d.subscribers >>= fun _ => do
        let late := (← get).subscribers.drop d.subscribers.length
        tell listener (fun _ => return) event d.subscribers.length
          (late.map fun _ => .record)) d := rfl
  rw [hsplit]
  cases htold : tell listener nested event 0 d.subscribers d with
  | error fault e => exact bind_of_error htold
  | ok _ e =>
      rw [htold] at hsame
      rw [bind_of_ok htold, bind_get]
      change tell listener (fun _ => return) event d.subscribers.length
        ((e.subscribers.drop d.subscribers.length).map fun _ => .record) e = _
      have hsubscribers : e.subscribers = d.subscribers := hsame
      rw [hsubscribers, List.drop_length]
      rfl

theorem deliver_eq_tell_of_passive (listener : Listener ω) (nested : Bytes → Act ω Unit)
    (event : Event) (d : Delivery ω) (hpassive : ∀ r ∈ d.subscribers, r.isPassive = true) :
    deliver listener nested event d = tell listener nested event 0 d.subscribers d := by
  apply deliver_eq_tell
  obtain ⟨reads, world, hend⟩ := undisturbed_tell listener nested event hpassive 0 d
  rw [hend]

/-- A delivery to passive subscribers leaves the feed alone. -/
theorem deliver_undisturbed (listener : Listener ω) (nested : Bytes → Act ω Unit) (event : Event)
    (d : Delivery ω) (hpassive : ∀ r ∈ d.subscribers, r.isPassive = true) :
    Undisturbed d (ending (deliver listener nested event d)) := by
  rw [deliver_eq_tell_of_passive listener nested event d hpassive]
  exact undisturbed_tell listener nested event hpassive 0 d

section

variable {listener : Listener ω} {subscribers : List Reaction}

theorem failsOnly_react (nested : Bytes → Act ω Unit) (event : Event) (number : Nat)
    {reaction : Reaction} (hpassive : reaction.isPassive = true) (hmem : reaction ∈ subscribers) :
    FailsOnly (Objects listener subscribers) (react listener nested event number reaction) := by
  have hraised {only : Option Bytes} {raised : Raised} (hmem : .fail only raised ∈ subscribers) :
      FailsOnly (Objects listener subscribers)
        (throw (.subscriber number raised) : Act ω Unit) := by
    refine FailsOnly.throw fun reason hreason => ?_
    cases raised with
    | error => cases hreason
    | refusal other detail =>
        cases hreason
        exact .subscriber hmem
  refine (failsOnly_leave _).bind fun _ => ?_
  cases reaction with
  | record => exact FailsOnly.pure ()
  | fail only raised =>
      cases only with
      | none => exact hraised hmem
      | some payload =>
          by_cases hsame : event.data = payload <;> simp only [hsame, ↓reduceIte]
          · exact hraised hmem
          · exact FailsOnly.pure ()
  | read => exact failsOnly_read.bind fun _ => failsOnly_leave _
  | clean => contradiction
  | reset => contradiction
  | push data => contradiction
  | enrol => contradiction

theorem failsOnly_tell (nested : Bytes → Act ω Unit) (event : Event) {reactions : List Reaction}
    (hpassive : ∀ r ∈ reactions, r.isPassive = true) (hmem : ∀ r ∈ reactions, r ∈ subscribers)
    (number : Nat) :
    FailsOnly (Objects listener subscribers) (tell listener nested event number reactions) := by
  induction reactions generalizing number with
  | nil => exact FailsOnly.pure ()
  | cons first rest ih =>
      obtain ⟨hfirst, hrest⟩ := List.forall_mem_cons.mp hpassive
      obtain ⟨hfirst', hrest'⟩ := List.forall_mem_cons.mp hmem
      exact (failsOnly_react nested event number hfirst hfirst').bind
        fun _ => ih hrest hrest' (number + 1)

/-- Where passive subscribers are told of a push, only they and who takes the notes may refuse it. -/
theorem objects_of_deliver (nested : Bytes → Act ω Unit) (event : Event) {d e : Delivery ω}
    (hpassive : ∀ r ∈ d.subscribers, r.isPassive = true) {fault : Feed.Fault}
    (h : deliver listener nested event d = .error fault e) :
    Objects listener d.subscribers fault := by
  rw [deliver_eq_tell_of_passive listener nested event d hpassive] at h
  exact failsOnly_tell nested event hpassive (fun _ hr => hr) 0 d fault e h

end

/-- However often the clock has been read and whatever the surroundings are, a read shows the given
payloads. -/
def Shows (d : Delivery ω) (shown : Option (List Bytes)) : Prop :=
  ∀ reads world, ∃ later, read (d.moved reads world) = .ok shown (d.moved later world)

/-- A passive subscriber acts in its surroundings only; if it is a reader, it also reads the
clock. -/
theorem react_passive (listener : Listener ω) (nested : Bytes → Act ω Unit) (event : Event)
    (number : Nat) {reaction : Reaction} (hpassive : reaction.isPassive = true)
    {shown : Option (List Bytes)} {d : Delivery ω} (hread : reaction = .read → d.Shows shown) :
    ∃ reads, (reaction ≠ .read → reads = d.clock.reads) ∧
      react listener nested event number reaction d =
        d.outcome reads (respond listener shown event number reaction d.world) := by
  have hleave := leave_eq_outcome listener (.told number event) d
  unfold react respond
  cases hhand : hand listener (.told number event) d.world with
  | error fault world =>
      rw [hhand] at hleave
      refine ⟨d.clock.reads, fun _ => rfl, ?_⟩
      rw [bind_of_error hleave, bind_of_error hhand]
      rfl
  | ok _ world =>
      rw [hhand] at hleave
      rw [bind_of_ok hleave, bind_of_ok hhand]
      cases reaction with
      | record => exact ⟨d.clock.reads, fun _ => rfl, rfl⟩
      | fail only raised =>
          refine ⟨d.clock.reads, fun _ => rfl, ?_⟩
          cases only with
          | none => rfl
          | some payload => by_cases hsame : event.data = payload <;> simp only [hsame] <;> rfl
      | read =>
          obtain ⟨later, hshown⟩ := hread rfl d.clock.reads world
          exact ⟨later, nofun, (bind_of_ok hshown).trans (leave_eq_outcome listener _ _)⟩
      | clean => contradiction
      | reset => contradiction
      | push data => contradiction
      | enrol => contradiction

/-- Passive subscribers act in their surroundings only; if there are readers among them, these also
read the clock. -/
theorem tell_passive (listener : Listener ω) (nested : Bytes → Act ω Unit) (event : Event)
    {reactions : List Reaction} (hpassive : ∀ r ∈ reactions, r.isPassive = true)
    {shown : Option (List Bytes)} {d : Delivery ω} (hread : .read ∈ reactions → d.Shows shown)
    (number : Nat) :
    ∃ reads, (.read ∉ reactions → reads = d.clock.reads) ∧
      tell listener nested event number reactions d =
        d.outcome reads (relay listener shown event number reactions d.world) := by
  induction reactions generalizing number d with
  | nil => exact ⟨d.clock.reads, fun _ => rfl, rfl⟩
  | cons first rest ih =>
      obtain ⟨reads, hreads, hreact⟩ := react_passive listener nested event number
        (hpassive first List.mem_cons_self)
        fun hfirst => hread (by rw [hfirst]; exact List.mem_cons_self)
      have hunread (hnone : .read ∉ first :: rest) : reads = d.clock.reads :=
        hreads fun hfirst => hnone (by rw [hfirst]; exact List.mem_cons_self)
      unfold tell relay
      cases hrespond : respond listener shown event number first d.world with
      | error fault world =>
          rw [hrespond] at hreact
          refine ⟨reads, hunread, ?_⟩
          rw [bind_of_error hreact, bind_of_error hrespond]
          rfl
      | ok _ world =>
          rw [hrespond] at hreact
          rw [bind_of_ok hreact, bind_of_ok hrespond]
          obtain ⟨later, hlater, htold⟩ :=
            ih (fun r hr => hpassive r (List.mem_cons_of_mem first hr)) (d := d.moved reads world)
              (fun hr => hread (List.mem_cons_of_mem first hr)) (number + 1)
          refine ⟨later, fun hnone => ?_, htold⟩
          rw [hlater fun hr => hnone (List.mem_cons_of_mem first hr)]
          exact hunread hnone

/-- A delivery to passive subscribers is relayed to their surroundings. -/
theorem deliver_passive (listener : Listener ω) (nested : Bytes → Act ω Unit) (event : Event)
    {d : Delivery ω} (hpassive : ∀ r ∈ d.subscribers, r.isPassive = true)
    {shown : Option (List Bytes)} (hread : .read ∈ d.subscribers → d.Shows shown) :
    ∃ reads, (.read ∉ d.subscribers → reads = d.clock.reads) ∧
      deliver listener nested event d =
        d.outcome reads (relay listener shown event 0 d.subscribers d.world) := by
  obtain ⟨reads, hreads, htold⟩ := tell_passive listener nested event hpassive hread 0
  refine ⟨reads, hreads, ?_⟩
  rw [deliver_eq_tell_of_passive listener nested event d hpassive, htold]

end Delivery
end LiveFeed
