/-
Pushes by subscribers.  While a push is told, subscribers may push in turn, and so may those who are
told of these pushes.  A push stores into the log that it has found, so that with a log in place all
of them are kept; but a push that has found none replaces whatever has been stored meanwhile.
-/
import LiveFeed.Proofs.Feed.Advance
import LiveFeed.Proofs.Feed.Operation

namespace LiveFeed

namespace Delivery

variable {ω : Type} {lifetime now : Int} {notes : ω → List Note}

/-- A step that concerns the surroundings of a subscriber only. -/
def Inward {α : Type} (notes : ω → List Note) (act : Act ω α) : Prop :=
  ∀ d, ∃ a world pushesLeft, act d = .ok a { d with world, pushesLeft } ∧
    notes world = notes d.world

variable {news : List Stamp} {d e : Delivery ω} {listener : Listener ω}

/-- Without a log, a push holds a new one. -/
theorem holding_of_hidden (hshown : d.shown = none) (hlifetime : d.lifetime = .int lifetime) :
    d.holding = (d.logs.length, { d with logs := d.logs ++ [Log.stamped lifetime []] }) := by
  rw [holding, hshown, hlifetime]
  rfl

theorem Timely.held (h : d.Timely lifetime now) : d.holding.2.Timely lifetime now := by
  cases hshown : d.shown with
  | some position =>
      rw [holding_of_shown hshown]
      exact h
  | none =>
      rw [holding_of_hidden hshown h.lifetime_eq]
      refine ⟨h.lifetime_eq, h.still, ?_, ?_, h.pushesOnly⟩
      · intro log hlog
        rcases List.mem_append.mp hlog with hold | hnew
        · exact h.logs log hold
        · exact ⟨[], List.mem_singleton.mp hnew, List.Pairwise.nil, rfl⟩
      · intro position hposition
        rw [hshown] at hposition
        contradiction

/-- The log that a push holds: the one that is shown, or else an empty one. -/
theorem Timely.held_get (h : d.Timely lifetime now) :
    ∃ ss, d.holding.2.logs[d.holding.1]? = some (Log.stamped lifetime ss) ∧ Stamp.Ordered ss ∧
      Stamp.ahead? now ss = none ∧ (d.shown = none → ss = []) := by
  cases hshown : d.shown with
  | some position =>
      rw [holding_of_shown hshown]
      obtain ⟨ss, hlog, hordered, hahead⟩ := h.logs_get (h.shown position hshown)
      exact ⟨ss, hlog, hordered, hahead, nofun⟩
  | none =>
      rw [holding_of_hidden hshown h.lifetime_eq]
      refine ⟨[], ?_, List.Pairwise.nil, rfl, fun _ => rfl⟩
      exact List.getElem?_concat_length ..

/-- What a push holds has no effect on the logs that were there, and is one of these only if it was
shown. -/
theorem Timely.holding_get (h : d.Timely lifetime now) {position : Nat}
    (hposition : position < d.logs.length) :
    d.holding.2.logs[position]? = d.logs[position]? ∧
      (d.holding.1 = position ↔ d.shown = some position) := by
  cases hshown : d.shown with
  | some shown =>
      rw [holding_of_shown hshown]
      exact ⟨rfl, Option.some_inj.symm⟩
  | none =>
      rw [holding_of_hidden hshown h.lifetime_eq]
      refine ⟨List.getElem?_append_left hposition, ?_⟩
      constructor
      · intro hlast
        omega
      · nofun

/-- After a push has been settled, its log is timely again. -/
theorem Timely.settled (h : d.Timely lifetime now) {position : Nat} {ss : List Stamp}
    (hlog : d.logs[position]? = some (Log.stamped lifetime ss)) (payload : Bytes) :
    (d.showing position (Log.stamped lifetime
      (Stamp.absorb lifetime now ss [⟨payload, now⟩]))).Timely lifetime now := by
  have hposition : position < d.logs.length := (List.getElem?_eq_some_iff.mp hlog).1
  obtain ⟨kept, hkept, hordered, hahead⟩ := h.logs_get hposition
  have hsame := Option.some_inj.mp (hlog.symm.trans hkept)
  obtain rfl := Log.stamped_injective lifetime hsame
  refine ⟨h.lifetime_eq, h.still, ?_, ?_, h.pushesOnly⟩
  · intro log hmem
    rcases List.mem_or_eq_of_mem_set hmem with hold | hnew
    · exact h.logs log hold
    · refine ⟨_, hnew, ?_, ?_⟩
      · rw [Stamp.absorb_of_ne_nil (List.cons_ne_nil _ _)]
        exact hordered.record hahead lifetime payload
      · rw [Stamp.absorb_of_ne_nil (List.cons_ne_nil _ _)]
        exact Stamp.ahead?_concat_now ..
  · intro other hother
    obtain rfl : position = other := Option.some_inj.mp hother
    rw [showing, List.length_set]
    exact hposition

/-- What has become of a feed, and of the log that a push holds, when the push is settled. -/
theorem Advances.settled (hlifetime : 0 < lifetime) (h : d.Timely lifetime now) {payload : Bytes}
    (htold : Advances lifetime now notes (share ⟨payload, .int now⟩ 0 d.subscribers.length) news
      d.holding.2 e)
    {ss : List Stamp} (hlog : d.holding.2.logs[d.holding.1]? = some (Log.stamped lifetime ss)) :
    ∃ kept, e.logs[d.holding.1]? = some (Log.stamped lifetime kept) ∧
      (d.shown = none → kept = ss) ∧
      Advances lifetime now notes (fun _ => []) (news ++ [⟨payload, now⟩]) d
        (e.showing d.holding.1
          (Log.stamped lifetime (Stamp.absorb lifetime now kept [⟨payload, now⟩]))) := by
  have hheld := htold.log_eq _ ss hlog
  rw [holding_shown] at hheld
  refine ⟨_, hheld, ?_, ?_⟩
  · intro hnone
    rw [hnone, if_neg nofun]
  refine ⟨htold.timely.settled hheld payload, ?_, ?_, ?_, ?_, ?_⟩
  · exact htold.subscribers_eq.trans (holding_subscribers d)
  · intro position earlier hearlier
    obtain ⟨hsame, hiff⟩ := h.holding_get (List.getElem?_eq_some_iff.mp hearlier).1
    by_cases hshown : d.shown = some position
    · -- The push holds the log at this position, which has taken up the news.
      obtain rfl := hiff.mpr hshown
      rw [hlog, hearlier] at hsame
      obtain rfl := Log.stamped_injective lifetime (Option.some_inj.mp hsame)
      rw [if_pos hshown, if_pos hshown, Stamp.absorb_append hlifetime htold.new]
      exact List.getElem?_set_self (List.getElem?_eq_some_iff.mp hheld).1
    · -- The push holds another log.
      have hother : d.holding.1 ≠ position := fun hsame => hshown (hiff.mp hsame)
      have hkept := htold.log_eq position earlier (hsame.trans hearlier)
      rw [holding_shown, if_neg hshown] at hkept
      rw [if_neg hshown]
      exact (List.getElem?_set_ne hother).trans hkept
  · intro position hposition
    exact Option.some_inj.trans (h.holding_get hposition).2
  · intro stamp hstamp
    rcases List.mem_append.mp hstamp with hnew | hlast
    · exact htold.new stamp hnew
    · rw [List.mem_singleton.mp hlast]
  · intro number hnumber
    have hheard := htold.heard number (by rwa [holding_subscribers])
    rw [holding_world, share, if_pos (by omega)] at hheard
    refine hheard.trans (List.Perm.append_left _ ?_)
    rw [List.map_append]
    exact List.perm_append_comm

/-- Takes one of the pushes that are left, if there are any. -/
def spend : Act ω Bool := fun d =>
  if 0 < d.pushesLeft then .ok true { d with pushesLeft := d.pushesLeft - 1 } else .ok false d

theorem inward_spend (notes : ω → List Note) : Inward notes (spend : Act ω Bool) := by
  intro d
  by_cases hleft : 0 < d.pushesLeft
  · exact ⟨true, d.world, d.pushesLeft - 1, if_pos hleft, rfl⟩
  · exact ⟨false, d.world, d.pushesLeft, if_neg hleft, rfl⟩

theorem inward_pure (notes : ω → List Note) : Inward notes (pure () : Act ω Unit) :=
  fun d => ⟨(), d.world, d.pushesLeft, rfl, rfl⟩

variable [Limits]

/-- A push of octets in the name of the authority. -/
def pushSigned (listener : Listener ω) (nested : Bytes → Act ω Unit) (container : Container)
    (payload : Bytes) : Act ω Event := do
  pushWith listener nested (.str (← get).authority) (.bytes container payload)

/-- What a subscriber may do when all that it does to a feed is to push in the name of the
authority: any number of pushes, each of which it may choose in view of its surroundings and of the
pushes before.  Whoever is told of these pushes may do no more. -/
inductive Repushes (listener : Listener ω) (notes : ω → List Note) :
    {α : Type} → Act ω α → Prop where
  | inward {α : Type} {act : Act ω α} (h : Inward notes act) : Repushes listener notes act
  | bind {α β : Type} {act : Act ω α} {next : α → Act ω β} (hact : Repushes listener notes act)
      (hnext : ∀ a, Repushes listener notes (next a)) : Repushes listener notes (act >>= next)
  | push {nested : Bytes → Act ω Unit} (hnested : ∀ data, Repushes listener notes (nested data))
      (container : Container) (payload : Bytes) :
      Repushes listener notes (pushSigned listener nested container payload)

theorem settle_eq {position : Nat} {ss : List Stamp}
    (hlog : d.logs[position]? = some (Log.stamped lifetime ss)) (hordered : Stamp.Ordered ss)
    (hahead : Stamp.ahead? now ss = none) (payload : Bytes) :
    settle position ⟨payload, .int now⟩ d = .ok ⟨payload, .int now⟩
      (d.showing position
        (Log.stamped lifetime (Stamp.absorb lifetime now ss [⟨payload, now⟩]))) := by
  have hpush : (Log.stamped lifetime ss).push (.int now) (.bytes .fixed payload) =
      .ok (Log.stamped lifetime (Stamp.absorb lifetime now ss [⟨payload, now⟩])) := by
    rw [Log.push_stamped hordered, hahead, Stamp.absorb_of_ne_nil (List.cons_ne_nil _ _)]
  have hheld : d.logAt position = Log.stamped lifetime ss := by
    rw [logAt, hlog, Option.getD_some]
  unfold settle
  rw [bind_get, hheld, hpush, bind_of_ok (lift_ok .log _ d)]
  rfl

/-- A push that passes the checks is settled after the news of the pushes that it has brought about.
If there was no log, only the push itself is left in the end. -/
theorem pushWith_advances (hlifetime : 0 < lifetime) (hlistener : listener.WritesDown notes)
    {nested : Bytes → Act ω Unit} (hnested : ∀ data, Takes lifetime now notes (nested data))
    (h : d.Timely lifetime now) {origin data : Value} {payload : Bytes}
    (hauthorise : Feed.authorise d.authority origin = .ok ())
    (hoctets : Log.octets data = .ok payload) :
    ∃ e news, pushWith listener nested origin data d = .ok ⟨payload, .int now⟩ e ∧
      Advances lifetime now notes (fun _ => []) (news ++ [⟨payload, now⟩]) d e ∧
      (d.shown = none → e.log? = some (Log.stamped lifetime [⟨payload, now⟩])) ∧
      (d.subscribers = [] → news = []) := by
  have hclock : d.clock.Shows now := h.still d.clock.reads
  obtain ⟨ss, hlog, hordered, hahead, hempty⟩ := h.ticked.held_get
  obtain ⟨e, news, hdeliver, htold, hnone⟩ :=
    deliver_advances hlifetime hlistener hnested ⟨payload, .int now⟩ h.ticked.held
  rw [holding_subscribers] at htold hnone
  obtain ⟨kept, hheld, hfresh, hadvances⟩ := htold.settled hlifetime h.ticked hlog
  obtain ⟨kept', hkept, hkeptOrdered, hkeptAhead⟩ :=
    htold.timely.logs_get (List.getElem?_eq_some_iff.mp hheld).1
  obtain rfl := Log.stamped_injective lifetime (Option.some_inj.mp (hheld.symm.trans hkept))
  have hcheck : (d.ticked.holding.2.logAt d.ticked.holding.1).checkTime (.int now) = .ok () := by
    rw [logAt, hlog, Option.getD_some, Log.checkTime_stamped, hahead]
  have hrun : pushWith listener nested origin data d = .ok ⟨payload, .int now⟩
      (e.showing d.ticked.holding.1
        (Log.stamped lifetime (Stamp.absorb lifetime now kept [⟨payload, now⟩]))) := by
    rw [pushWith_eq hclock, hauthorise, hoctets]
    simp only [hcheck]
    rw [bind_of_ok hdeliver, settle_eq hkept hkeptOrdered hkeptAhead]
  refine ⟨_, news, hrun, hadvances.of_ticked, ?_, hnone⟩
  intro hshown
  rw [hfresh hshown, hempty hshown] at hkept ⊢
  exact List.getElem?_set_self (List.getElem?_eq_some_iff.mp hkept).1

/-- Whatever the subscribers make of it, a step in which they only push takes up the news. -/
theorem Repushes.takes (hlifetime : 0 < lifetime) (hlistener : listener.WritesDown notes)
    {α : Type} {act : Act ω α} (hact : Repushes listener notes act) :
    Takes lifetime now notes act := by
  induction hact with
  | inward hinward =>
      intro d h
      obtain ⟨a, world, pushesLeft, hrun, hsame⟩ := hinward d
      refine ⟨a, _, [], hrun, Advances.inward h pushesLeft ?_⟩
      intro number
      rw [hsame, List.append_nil]
  | bind _ _ ihfirst ihnext =>
      intro d h
      obtain ⟨a, e, news, hfirst, hde⟩ := ihfirst d h
      obtain ⟨b, f, news', hnext, hef⟩ := ihnext a e hde.timely
      refine ⟨b, f, news ++ news', ?_, hde.trans hlifetime hef h⟩
      rw [bind_of_ok hfirst]
      exact hnext
  | push _ container payload ih =>
      intro d h
      have hauthorise : Feed.authorise d.authority (.str d.authority) = .ok () := by
        simp [Feed.authorise_eq_ok_iff, Value.same, Value.sameScalar]
      obtain ⟨e, news, hpush, hadvances, -⟩ :=
        pushWith_advances hlifetime hlistener ih h hauthorise
          (Log.octets_eq_ok_iff.mpr ⟨container, rfl⟩)
      exact ⟨_, e, _, bind_get.trans hpush, hadvances⟩

/-- What a subscriber that pushes does if it was left a push, and if it was not. -/
def repush (listener : Listener ω) (nested : Bytes → Act ω Unit) (payload : Bytes) :
    Bool → Act ω Unit
  | true => do let _ ← pushSigned listener nested .fixed payload
  | false => return

theorem repushes_repush {nested : Bytes → Act ω Unit}
    (hnested : ∀ data, Repushes listener notes (nested data)) (payload : Bytes) (left : Bool) :
    Repushes listener notes (repush listener nested payload left) := by
  cases left with
  | true => exact (Repushes.push hnested .fixed payload).bind fun _ => .inward (inward_pure notes)
  | false => exact .inward (inward_pure notes)

/-- A push at which subscribers may push in turn, in the name of the authority. -/
theorem push_succ_eq {depth : Nat} {nested : Bytes → Act ω Unit}
    (hpush : ∀ origin data, push listener depth origin data = pushWith listener nested origin data)
    (origin data : Value) :
    push listener (depth + 1) origin data =
      pushWith listener (fun payload => spend >>= repush listener nested payload) origin data := by
  unfold push
  congr 1
  funext payload d
  by_cases hleft : 0 < d.pushesLeft
  · have hspend : spend d = .ok true { d with pushesLeft := d.pushesLeft - 1 } := if_pos hleft
    rw [bind_of_ok hspend, bind_get, if_pos hleft, hpush]
    rfl
  · have hspend : spend d = .ok false d := if_neg hleft
    rw [bind_of_ok hspend, bind_get, if_neg hleft]
    rfl

/-- The subscribers of a feed, who push as long as pushes are left, do nothing else to it. -/
theorem push_repushes (listener : Listener ω) (notes : ω → List Note) (depth : Nat) :
    ∃ nested, (∀ payload, Repushes listener notes (nested payload)) ∧
      ∀ origin data, push listener depth origin data = pushWith listener nested origin data := by
  induction depth with
  | zero => exact ⟨_, fun _ => .inward (inward_pure notes), fun _ _ => rfl⟩
  | succ depth ih =>
      obtain ⟨nested, hnested, hpush⟩ := ih
      refine ⟨_, fun payload => ?_, push_succ_eq hpush⟩
      exact (Repushes.inward (inward_spend notes)).bind (repushes_repush hnested payload)

end Delivery

namespace Session

variable {ω : Type}

/-- The beginning of a push that passes the checks. -/
theorem timely_begin {s : Session ω} {lifetime now : Int} {held : Option (List Stamp)}
    (hfeed : s.feed.Holds lifetime held)
    (hsubscribers : ∀ r ∈ s.feed.subscribers, r.pushesOnly = true)
    (hstill : ∀ n, s.clock.face n = .ok (.int now))
    (hahead : Stamp.ahead? now (held.getD []) = none) :
    s.begin.Timely lifetime now := by
  refine ⟨hfeed.lifetime_eq, hstill, ?_, fun _ => lt_of_shown_begin, hsubscribers⟩
  intro log hlog
  rw [mem_logs_begin, hfeed.log_eq] at hlog
  obtain ⟨ss, rfl, rfl⟩ := Option.map_eq_some_iff.mp hlog
  exact ⟨ss, rfl, hfeed.ordered, hahead⟩

section

variable [Limits]

/-- While a push is told, subscribers push in turn, as often as they like.  All these pushes
succeed, and with a log in place they are all kept: the live stamps are followed by one stamp for
each push that the subscribers were told of.  If there was no log, the outermost push is kept and
all others are lost. -/
theorem pushes_kept_with_log (listener : Listener ω) (notes : ω → List Note)
    (hlistener : listener.WritesDown notes) (s : Session ω) (lifetime now : Int)
    (hlifetime : 0 < lifetime) (held : Option (List Stamp)) (hfeed : s.feed.Holds lifetime held)
    (hsubscribers : ∀ r ∈ s.feed.subscribers, r.pushesOnly = true)
    (nested : Bytes → Delivery.Act ω Unit)
    (hnested : ∀ payload, Delivery.Repushes listener notes (nested payload))
    (origin data : Value) (payload : Bytes)
    (hvet : Feed.vet s.feed.authority now (held.getD []) origin data = .ok payload) :
    ∃ t news,
      run (Delivery.pushWith listener nested origin data) (s.atTime now) =
        .ok ⟨payload, .int now⟩ t ∧
      t.feed = s.feed.holding lifetime
        ((held.map fun ss => Stamp.liveAt lifetime now ss ++ news).getD [] ++ [⟨payload, now⟩]) ∧
      (s.feed.subscribers = [] → news = []) ∧
      ∀ number < s.feed.subscribers.length,
        (Note.heardBy number (notes t.world)).Perm
          (Note.heardBy number (notes s.world) ++
            (news.map Stamp.event ++ [⟨payload, .int now⟩])) := by
  obtain ⟨hauthorise, hoctets, hahead⟩ := Feed.vet_eq_ok_iff.mp hvet
  have htimely := timely_begin (s := s.atTime now) hfeed hsubscribers (fun _ => rfl) hahead
  have hshown : (s.atTime now).begin.shown = held.map fun _ => 0 := by
    change s.feed.log.map (fun _ => 0) = _
    rw [hfeed.log_eq, Option.map_map]
    rfl
  obtain ⟨e, news, hpush, hadvances, habsent, hnone⟩ :=
    Delivery.pushWith_advances hlifetime hlistener
      (fun payload => (hnested payload).takes hlifetime hlistener) htimely hauthorise hoctets
  have hheard := hadvances.heard
  simp only [List.nil_append, List.map_append] at hheard
  refine ⟨(s.atTime now).finish e, news, run_of_ok hpush, ?_, hnone, hheard⟩
  have hsame : e.subscribers = s.feed.subscribers := hadvances.subscribers_eq
  have hlog : e.log? = some (Log.stamped lifetime
      ((held.map fun ss => Stamp.liveAt lifetime now ss ++ news).getD [] ++
        [⟨payload, now⟩])) := by
    cases held with
    | none => exact habsent hshown
    | some ss =>
        have hfirst : (s.atTime now).begin.logs[0]? = some (Log.stamped lifetime ss) := by
          change s.feed.log.toList[0]? = _
          rw [hfeed.log_eq]
          rfl
        have hshown : (s.atTime now).begin.shown = some 0 := hshown
        have hkept := hadvances.log_eq 0 ss hfirst
        have hlast := (hadvances.shown_iff 0 (List.getElem?_eq_some_iff.mp hfirst).1).mpr hshown
        rw [if_pos hshown, Stamp.absorb_of_ne_nil (List.concat_ne_nil _ _)] at hkept
        rw [Delivery.log?, hlast, Option.map_some, Option.getD_some, List.append_assoc]
        exact hkept
  simp only [finish, hsame, hlog]
  rfl

end

open scoped Limits

/-- A feed without a log, one of whose subscribers pushes twice when it is told of a push: three
pushes are told, one is kept. -/
theorem pushes_kept_with_log_of_echo :
    let listener : Listener (List Note) := fun note notes => .ok (notes ++ [note])
    let feed : Feed := ⟨"ann", .int 10, none, [.record, .push [2]], 2⟩
    let s : Session (List Note) := ⟨feed, Clock.showing (.int 0), []⟩
    ∃ t, push listener (.str "ann") (.bytes .fixed [1]) (s.atTime 5) = .ok ⟨[1], .int 5⟩ t ∧
      (Note.heardBy 0 t.world).length = 3 ∧ t.feed.log = some (Log.stamped 10 [⟨[1], 5⟩]) := by
  intro listener feed s
  have hlistener : listener.WritesDown id := fun note notes => ⟨notes ++ [note], rfl, rfl⟩
  have hfeed : feed.Holds 10 none := ⟨rfl, rfl, List.Pairwise.nil⟩
  have hsubscribers : ∀ r ∈ feed.subscribers, r.pushesOnly = true := by decide
  have hvet : Feed.vet "ann" 5 [] (.str "ann") (.bytes .fixed [1]) = .ok [1] := by rfl
  obtain ⟨nested, hnested, hpush⟩ := Delivery.push_repushes listener id 2
  obtain ⟨t, news, hrun, hleft, -, -⟩ := pushes_kept_with_log listener id hlistener s 10 5
    (by decide) none hfeed hsubscribers nested hnested _ _ _ hvet
  have heard : (Note.heardBy 0 (ending (push listener (.str "ann") (.bytes .fixed [1])
      (s.atTime 5))).world).length = 3 := by decide +kernel
  have hstep : push listener (.str "ann") (.bytes .fixed [1]) (s.atTime 5) =
      .ok ⟨[1], .int 5⟩ t := by
    rw [← hpush] at hrun
    exact hrun
  rw [hstep] at heard
  exact ⟨t, hstep, heard, congrArg Feed.log hleft⟩

end Session
end LiveFeed
