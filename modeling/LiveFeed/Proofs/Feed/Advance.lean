/-
How a feed moves on while its subscribers push.  The log that is shown takes up the news, every
other log stays as it is, and each subscriber is told of all of them.
-/
import LiveFeed.Proofs.Feed.Admission
import LiveFeed.Proofs.Log.Stamp

namespace LiveFeed

/-- Whether a subscriber only takes note or pushes. -/
def Reaction.pushesOnly : Reaction → Bool
  | .record | .push _ => true
  | .fail .. | .read | .clean | .reset | .enrol => false

/-- The event that a note tells a subscriber of. -/
def Note.toldTo (number : Nat) : Note → Option Event
  | .told n event => if n = number then some event else none
  | .read .. | .cleaned .. => none

/-- The events that a subscriber was told of. -/
def Note.heardBy (number : Nat) (notes : List Note) : List Event :=
  notes.filterMap (Note.toldTo number)

/-- Subscribers whose notes are always taken and written down. -/
def Listener.WritesDown {ω : Type} (listener : Listener ω) (notes : ω → List Note) : Prop :=
  ∀ note world, ∃ later, listener note world = .ok later ∧ notes later = notes world ++ [note]

namespace Stamp

variable {lifetime now : Int} {ss first second : List Stamp}

/-- The event that subscribers are told of when a stamp is pushed. -/
def event (s : Stamp) : Event := ⟨s.payload, .int s.time⟩

/-- The stamps of a log that has taken up news at a time: with the first of them the expired stamps
go. -/
def absorb (lifetime now : Int) (ss news : List Stamp) : List Stamp :=
  if news = [] then ss else liveAt lifetime now ss ++ news

theorem absorb_nil (lifetime now : Int) (ss : List Stamp) : absorb lifetime now ss [] = ss :=
  if_pos rfl

theorem absorb_of_ne_nil (hnews : second ≠ []) :
    absorb lifetime now ss second = liveAt lifetime now ss ++ second := if_neg hnews

/-- News that come later are taken up after those that came before. -/
theorem absorb_append (hlifetime : 0 < lifetime) (hnew : ∀ s ∈ first, s.time = now) :
    absorb lifetime now (absorb lifetime now ss first) second =
      absorb lifetime now ss (first ++ second) := by
  by_cases hfirst : first = []
  · rw [hfirst, absorb_nil, List.nil_append]
  · by_cases hsecond : second = []
    · rw [hsecond, absorb_nil, List.append_nil]
    · have hboth : first ++ second ≠ [] := by simp [hfirst]
      rw [absorb_of_ne_nil hfirst, absorb_of_ne_nil hsecond, absorb_of_ne_nil hboth, liveAt,
        List.filter_append, List.append_assoc]
      have hkept := liveAt_of_new hlifetime hnew
      rw [liveAt] at hkept
      rw [hkept, liveAt, List.filter_filter]
      simp only [Bool.and_self]

end Stamp

namespace Delivery

variable {ω : Type} {lifetime now : Int} {notes : ω → List Note}

/-- A feed among whose subscribers there are only such as take note or push, at a time that no log
in use is ahead of. -/
structure Timely (lifetime now : Int) (d : Delivery ω) : Prop where
  lifetime_eq : d.lifetime = .int lifetime
  still : ∀ n, d.clock.face n = .ok (.int now)
  logs : ∀ log ∈ d.logs, ∃ ss, log = Log.stamped lifetime ss ∧ Stamp.Ordered ss ∧
    Stamp.ahead? now ss = none
  shown : ∀ position, d.shown = some position → position < d.logs.length
  pushesOnly : ∀ r ∈ d.subscribers, r.pushesOnly = true

/-- How a feed moves on when it takes up news: they go into the log that is shown, if there is one,
and every other log stays as it is and is not shown.  Each subscriber is told of the news, and of
the `extra` events. -/
structure Advances (lifetime now : Int) (notes : ω → List Note) (extra : Nat → List Event)
    (news : List Stamp) (d e : Delivery ω) : Prop where
  timely : e.Timely lifetime now
  subscribers_eq : e.subscribers = d.subscribers
  log_eq : ∀ position ss, d.logs[position]? = some (Log.stamped lifetime ss) →
    e.logs[position]? = some (Log.stamped lifetime
      (if d.shown = some position then Stamp.absorb lifetime now ss news else ss))
  shown_iff : ∀ position < d.logs.length, e.shown = some position ↔ d.shown = some position
  new : ∀ stamp ∈ news, stamp.time = now
  heard : ∀ number < d.subscribers.length,
    (Note.heardBy number (notes e.world)).Perm
      (Note.heardBy number (notes d.world) ++ (extra number ++ news.map Stamp.event))

variable {extra extra' : Nat → List Event} {news news' : List Stamp} {d e f : Delivery ω}

theorem Timely.ticked (h : d.Timely lifetime now) : d.ticked.Timely lifetime now :=
  ⟨h.lifetime_eq, h.still, h.logs, h.shown, h.pushesOnly⟩

theorem Timely.logs_get (h : d.Timely lifetime now) {position : Nat}
    (hposition : position < d.logs.length) :
    ∃ ss, d.logs[position]? = some (Log.stamped lifetime ss) ∧ Stamp.Ordered ss ∧
      Stamp.ahead? now ss = none := by
  obtain ⟨ss, hlog, hordered, hahead⟩ := h.logs _ (List.getElem_mem hposition)
  refine ⟨ss, ?_, hordered, hahead⟩
  rw [List.getElem?_eq_getElem hposition, hlog]

/-- A feed in other surroundings. -/
theorem Advances.inward (h : d.Timely lifetime now) {world : ω} (pushesLeft : Nat)
    (hheard : ∀ number, Note.heardBy number (notes world) =
      Note.heardBy number (notes d.world) ++ extra number) :
    Advances lifetime now notes extra [] d { d with world, pushesLeft } where
  timely := ⟨h.lifetime_eq, h.still, h.logs, h.shown, h.pushesOnly⟩
  subscribers_eq := rfl
  log_eq := by
    intro position ss hlog
    rw [Stamp.absorb_nil, ite_self]
    exact hlog
  shown_iff := fun _ _ => Iff.rfl
  new := nofun
  heard := by
    intro number _
    rw [hheard, List.map_nil, List.append_nil]

theorem Advances.trans (hlifetime : 0 < lifetime) (hde : Advances lifetime now notes extra news d e)
    (hef : Advances lifetime now notes extra' news' e f) (htimely : d.Timely lifetime now) :
    Advances lifetime now notes (fun number => extra number ++ extra' number) (news ++ news') d f
    where
  timely := hef.timely
  subscribers_eq := hef.subscribers_eq.trans hde.subscribers_eq
  log_eq := by
    intro position ss hlog
    have hposition : position < d.logs.length := (List.getElem?_eq_some_iff.mp hlog).1
    have hlater := hef.log_eq position _ (hde.log_eq position ss hlog)
    by_cases hshown : d.shown = some position
    · rw [if_pos hshown, if_pos ((hde.shown_iff position hposition).mpr hshown),
        Stamp.absorb_append hlifetime hde.new] at hlater
      rw [if_pos hshown]
      exact hlater
    · have hhidden : ¬ e.shown = some position :=
        fun he => hshown ((hde.shown_iff position hposition).mp he)
      rw [if_neg hshown, if_neg hhidden] at hlater
      rw [if_neg hshown]
      exact hlater
  shown_iff := by
    intro position hposition
    obtain ⟨ss, hstamped, -, -⟩ := htimely.logs _ (List.getElem_mem hposition)
    have hlog : d.logs[position]? = some (Log.stamped lifetime ss) := by
      rw [List.getElem?_eq_getElem hposition, hstamped]
    have hlater := (List.getElem?_eq_some_iff.mp (hde.log_eq position ss hlog)).1
    exact (hef.shown_iff position hlater).trans (hde.shown_iff position hposition)
  new := by
    intro stamp hstamp
    rcases List.mem_append.mp hstamp with hfirst | hsecond
    · exact hde.new stamp hfirst
    · exact hef.new stamp hsecond
  heard := by
    intro number hnumber
    have hearlier := hde.heard number hnumber
    have hlater := hef.heard number (hde.subscribers_eq ▸ hnumber)
    generalize Note.heardBy number (notes d.world) = before at hearlier ⊢
    have hswap : (news.map Stamp.event ++ extra' number).Perm
        (extra' number ++ news.map Stamp.event) := List.perm_append_comm
    calc
      List.Perm (Note.heardBy number (notes f.world))
          (Note.heardBy number (notes e.world) ++ (extra' number ++ news'.map Stamp.event)) :=
        hlater
      List.Perm _ ((before ++ (extra number ++ news.map Stamp.event)) ++
          (extra' number ++ news'.map Stamp.event)) := hearlier.append_right _
      _ = before ++ (extra number ++ (news.map Stamp.event ++ extra' number) ++
          news'.map Stamp.event) := by simp only [List.append_assoc]
      List.Perm _ (before ++ (extra number ++ (extra' number ++ news.map Stamp.event) ++
          news'.map Stamp.event)) := ((hswap.append_left _).append_right _).append_left before
      _ = before ++ ((extra number ++ extra' number) ++ (news ++ news').map Stamp.event) := by
        simp only [List.append_assoc, List.map_append]

theorem Advances.of_ticked (h : Advances lifetime now notes extra news d.ticked e) :
    Advances lifetime now notes extra news d e :=
  ⟨h.timely, h.subscribers_eq, h.log_eq, h.shown_iff, h.new, h.heard⟩

/-- A step that always succeeds, and after which the news have been taken up. -/
def Takes {α : Type} (lifetime now : Int) (notes : ω → List Note) (act : Act ω α) : Prop :=
  ∀ d : Delivery ω, d.Timely lifetime now →
    ∃ a e news, act d = .ok a e ∧ Advances lifetime now notes (fun _ => []) news d e

/-- The events that subscriber `number` is told of when `count` subscribers, of which the first has
the number `first`, are told of an event. -/
def share (event : Event) (first count number : Nat) : List Event :=
  if first ≤ number ∧ number < first + count then [event] else []

theorem share_zero (event : Event) (first number : Nat) : share event first 0 number = [] := by
  apply if_neg
  omega

theorem share_succ (event : Event) (first count number : Nat) :
    share event first (count + 1) number =
      share event first 1 number ++ share event (first + 1) count number := by
  unfold share
  by_cases hfirst : number = first
  · rw [if_pos (by omega), if_pos (by omega), if_neg (by omega)]
    rfl
  · by_cases hrest : first + 1 ≤ number ∧ number < first + 1 + count
    · rw [if_pos (by omega), if_neg (by omega), if_pos hrest]
      rfl
    · rw [if_neg (by omega), if_neg (by omega), if_neg hrest]
      rfl

variable {listener : Listener ω}

theorem leave_advances (hlistener : listener.WritesDown notes) (h : d.Timely lifetime now)
    (number : Nat) (event : Event) :
    ∃ e, leave listener (.told number event) d = .ok () e ∧
      Advances lifetime now notes (share event number 1) [] d e := by
  obtain ⟨world, htaken, hwritten⟩ := hlistener (.told number event) d.world
  refine ⟨{ d with world }, ?_, ?_⟩
  · rw [leave_eq, htaken]
  · apply Advances.inward h d.pushesLeft
    intro other
    rw [hwritten, Note.heardBy, List.filterMap_append]
    unfold share Note.heardBy
    by_cases hsame : number = other
    · rw [if_pos (by omega)]
      simp [Note.toldTo, hsame]
    · rw [if_neg (by omega)]
      simp [Note.toldTo, hsame]

variable [Limits]

theorem react_advances (hlifetime : 0 < lifetime) (hlistener : listener.WritesDown notes)
    {nested : Bytes → Act ω Unit} (hnested : ∀ data, Takes lifetime now notes (nested data))
    (h : d.Timely lifetime now) (event : Event) (number : Nat) {reaction : Reaction}
    (hreaction : reaction.pushesOnly = true) :
    ∃ e news, react listener nested event number reaction d = .ok () e ∧
      Advances lifetime now notes (share event number 1) news d e := by
  obtain ⟨e, hleave, htold⟩ := leave_advances hlistener h number event
  unfold react
  rw [bind_of_ok hleave]
  cases reaction with
  | record => exact ⟨e, [], rfl, htold⟩
  | push data =>
      obtain ⟨_, f, news, hpush, htaken⟩ := hnested data e htold.timely
      refine ⟨f, news, hpush, ?_⟩
      simpa using htold.trans hlifetime htaken h
  | fail _ | read | clean | reset | enrol => contradiction

/-- Subscribers are told of an event one after the other, and take up the news of the pushes that
they make. -/
theorem tell_advances (hlifetime : 0 < lifetime) (hlistener : listener.WritesDown notes)
    {nested : Bytes → Act ω Unit} (hnested : ∀ data, Takes lifetime now notes (nested data))
    (event : Event) {reactions : List Reaction}
    (hreactions : ∀ r ∈ reactions, r.pushesOnly = true) (h : d.Timely lifetime now)
    (number : Nat) :
    ∃ e news, tell listener nested event number reactions d = .ok () e ∧
      Advances lifetime now notes (share event number reactions.length) news d e ∧
      (reactions = [] → news = []) := by
  induction reactions generalizing d number with
  | nil =>
      refine ⟨d, [], rfl, ?_, fun _ => rfl⟩
      apply Advances.inward h d.pushesLeft
      intro other
      rw [List.length_nil, share_zero, List.append_nil]
  | cons first rest ih =>
      obtain ⟨e, news, hreact, hfirst⟩ := react_advances hlifetime hlistener hnested h event number
        (hreactions first List.mem_cons_self)
      obtain ⟨f, news', htell, hrest, -⟩ := ih
        (fun r hr => hreactions r (List.mem_cons_of_mem first hr)) hfirst.timely (number + 1)
      refine ⟨f, news ++ news', ?_, ?_, nofun⟩
      · unfold tell
        rw [bind_of_ok hreact]
        exact htell
      · have hboth := hfirst.trans hlifetime hrest h
        simp only [← share_succ] at hboth
        exact hboth

theorem deliver_advances (hlifetime : 0 < lifetime) (hlistener : listener.WritesDown notes)
    {nested : Bytes → Act ω Unit} (hnested : ∀ data, Takes lifetime now notes (nested data))
    (event : Event) (h : d.Timely lifetime now) :
    ∃ e news, deliver listener nested event d = .ok () e ∧
      Advances lifetime now notes (share event 0 d.subscribers.length) news d e ∧
      (d.subscribers = [] → news = []) := by
  obtain ⟨e, news, htell, hadvances, hnone⟩ :=
    tell_advances hlifetime hlistener hnested event h.pushesOnly h 0
  have hsame : (ending (tell listener nested event 0 d.subscribers d)).subscribers =
      d.subscribers := by
    rw [htell]
    exact hadvances.subscribers_eq
  exact ⟨e, news, (deliver_eq_tell listener nested event d hsame).trans htell, hadvances, hnone⟩

end Delivery
end LiveFeed
