/-
Requests that are refused have no influence.  Whoever leaves some of them out of a course of
inquiries finds the same replies and the same feed at all the others, and every entry that has been
added stems from a request signed by the authority.
-/
import LiveFeed.Proofs.Feed.Steady
import LiveFeed.Proofs.Request.Restart

namespace LiveFeed

/-- Whether a request was refused or failed. -/
def Reply.isRefusal : Reply → Bool
  | .dealt outcome => !outcome.isAccepted
  | .failed _ => true
  | .shown _ | .unread _ => false

/-- An inquiry, the time at which it was made, the reply and the feed that it left. -/
structure Minute where
  now : Int
  inquiry : Inquiry
  reply : Reply
  feed : Feed

namespace Minute

def step (minute : Minute) : Int × Inquiry := (minute.now, minute.inquiry)

/-- Whether an entry stems from an inquiry: a request to push its payload, signed by the authority,
that was accepted at its time. -/
def Brings (authority : Text) (entry : Entry) (minute : Minute) : Prop :=
  ∃ fields, minute.inquiry = .request fields ∧
    Desk.argument fields "origin" = .str authority ∧ Desk.payload fields = .ok entry.payload ∧
    entry.recordedAt = .int minute.now ∧
    minute.reply = .dealt (.emitted ⟨entry.payload, entry.recordedAt⟩)

/-- Minutes from which some refusals may have been left out. -/
inductive Thins : List Minute → List Minute → Prop where
  | nil : Thins [] []
  | keep (minute : Minute) {all kept : List Minute} (hrest : Thins all kept) :
      Thins (minute :: all) (minute :: kept)
  | drop {minute : Minute} {all kept : List Minute} (hrefused : minute.reply.isRefusal = true)
      (hrest : Thins all kept) : Thins (minute :: all) kept

/-- All refusals may be left out. -/
theorem Thins.filter (all : List Minute) :
    Thins all (all.filter fun minute => !minute.reply.isRefusal) := by
  induction all with
  | nil => exact .nil
  | cons minute rest ih =>
      by_cases hrefused : minute.reply.isRefusal = true
      · rw [List.filter_cons_of_neg (by simp [hrefused])]
        exact .drop hrefused ih
      · rw [List.filter_cons_of_pos (by simp [hrefused])]
        exact .keep minute ih

end Minute

/-- The entries of the log of a feed, if it has one. -/
def Feed.entries (feed : Feed) : List Entry := (feed.log.map Log.entries).getD []

namespace Feed

variable {feed : Feed} {lifetime : Int} {held : Option (List Stamp)}

theorem Carries.entries_eq (h : feed.Carries lifetime held) :
    feed.entries = (held.getD []).map Stamp.entry := by
  rw [entries, h.log_eq]
  cases held <;> rfl

end Feed

namespace Desk

variable {ω : Type} {listener : Listener ω}

/-- A desk whose feed has whole times and passive subscribers. -/
structure Orderly (desk : Desk ω) (lifetime : Int) (held : Option (List Stamp)) : Prop where
  carries : desk.session.feed.Carries lifetime held
  passive : ∀ r ∈ desk.session.feed.subscribers, r.isPassive = true

variable {lifetime now : Int} {held : Option (List Stamp)} {desk later : Desk ω}

theorem Orderly.of_feed_eq (h : desk.Orderly lifetime held)
    (hfeed : later.session.feed = desk.session.feed) : later.Orderly lifetime held := by
  constructor
  · rw [hfeed]
    exact h.carries
  · rw [hfeed]
    exact h.passive

theorem Orderly.of_holding (h : desk.Orderly lifetime held) {ss : List Stamp}
    (hss : Stamp.Ordered ss)
    (hfeed : later.session.feed = desk.session.feed.holding lifetime ss) :
    later.Orderly lifetime (some ss) := by
  constructor
  · rw [hfeed]
    exact h.carries.holding hss
  · rw [hfeed]
    exact h.passive

section

variable [Limits]

/-- The minutes of a course of inquiries, each made at its time. -/
def minutes (listener : Listener ω) :
    List (Int × Inquiry) → Desk ω → List Minute × Desk ω
  | [], desk => ([], desk)
  | (now, inquiry) :: rest, desk =>
      let (reply, desk) := (desk.atTime now).reply listener inquiry
      let (later, last) := minutes listener rest desk
      (⟨now, inquiry, reply, desk.session.feed⟩ :: later, last)

/-- Two runs of a request that give the same and leave the same feed. -/
abbrev Alike {α : Type} (r r' : EStateM.Result Fault (Desk ω) α) : Prop :=
  Abreast (fun a b => a.session.feed = b.session.feed) r r'

theorem refuse_alike (call : Call) (fault : Feed.Fault) {s t : Session ω} (h : s.feed = t.feed)
    (m m' : Metrics) : Alike (refuse call fault s m) (refuse call fault t m') := by
  unfold refuse
  cases fault.reason? with
  | none => exact .error h
  | some reason => exact .ok h

theorem clean_alike {s t : Session ω} (h : Session.Alike s.clean t.clean) (m m' : Metrics) :
    Alike (clean ⟨s, m⟩) (clean ⟨t, m'⟩) := by
  unfold clean
  dsimp only
  generalize s.clean = first at h ⊢
  generalize t.clean = second at h ⊢
  cases h with
  | ok hfeed => exact .ok hfeed
  | error hfeed => exact refuse_alike .clean _ hfeed _ _

theorem push_alike {s t : Session ω} {origin : Value} {payload : Bytes}
    (h : Session.Alike (s.push listener origin (.bytes .fixed payload))
      (t.push listener origin (.bytes .fixed payload))) (m m' : Metrics) :
    Alike (push listener origin payload ⟨s, m⟩) (push listener origin payload ⟨t, m'⟩) := by
  unfold push
  dsimp only
  generalize s.push listener origin (.bytes .fixed payload) = first at h ⊢
  generalize t.push listener origin (.bytes .fixed payload) = second at h ⊢
  cases h with
  | ok hfeed => exact .ok hfeed
  | error hfeed => exact refuse_alike .push _ hfeed _ _

theorem handle_alike {s : Session ω} (hfeed : s.feed.Carries lifetime held)
    (hpassive : ∀ r ∈ s.feed.subscribers, r.isPassive = true)
    (hstill : ∀ n, s.clock.face n = .ok (.int now)) (hsteady : listener.Steady)
    (request : List (Text × Value)) (world : ω) (m m' : Metrics) :
    Alike (handle listener request ⟨s, m⟩) (handle listener request ⟨{ s with world }, m'⟩) := by
  rw [handle_eq, handle_eq]
  cases Call.ofName? (argument request "call") with
  | none => exact .error rfl
  | some call =>
      cases call with
      | clean => exact clean_alike (Session.clean_alike hfeed (hstill _) world) _ _
      | push =>
          cases payload request with
          | error fault => exact .error rfl
          | ok payload =>
              exact push_alike (Session.push_alike hfeed hpassive hstill hsteady _ _ world) _ _

theorem reply_alike {s : Session ω} (hfeed : s.feed.Carries lifetime held)
    (hpassive : ∀ r ∈ s.feed.subscribers, r.isPassive = true)
    (hstill : ∀ n, s.clock.face n = .ok (.int now)) (hsteady : listener.Steady)
    (inquiry : Inquiry) (world : ω) (m m' : Metrics) :
    (reply listener inquiry ⟨s, m⟩).1 = (reply listener inquiry ⟨{ s with world }, m'⟩).1 ∧
      (reply listener inquiry ⟨s, m⟩).2.session.feed =
        (reply listener inquiry ⟨{ s with world }, m'⟩).2.session.feed := by
  unfold reply
  cases inquiry with
  | request fields =>
      have halike := handle_alike hfeed hpassive hstill hsteady fields world m m'
      dsimp only
      generalize handle listener fields ⟨s, m⟩ = first at halike ⊢
      generalize handle listener fields ⟨{ s with world }, m'⟩ = second at halike ⊢
      cases halike with
      | ok hsame => exact ⟨rfl, hsame⟩
      | error hsame => exact ⟨rfl, hsame⟩
  | read =>
      have halike := Session.read_alike hfeed (hstill _) world
      dsimp only
      generalize s.read = first at halike ⊢
      generalize ({ s with world } : Session ω).read = second at halike ⊢
      cases halike with
      | ok hsame => exact ⟨rfl, hsame⟩
      | error hsame => exact ⟨rfl, hsame⟩

/-- Desks with the same feed reply alike at the same time, and are left with the same feed. -/
theorem reply_eq_of_feed_eq (h : desk.Orderly lifetime held) (hsteady : listener.Steady)
    {other : Desk ω} (hsame : desk.session.feed = other.session.feed) (now : Int)
    (inquiry : Inquiry) :
    ((desk.atTime now).reply listener inquiry).1 = ((other.atTime now).reply listener inquiry).1 ∧
      ((desk.atTime now).reply listener inquiry).2.session.feed =
        ((other.atTime now).reply listener inquiry).2.session.feed := by
  obtain ⟨s, m⟩ := desk
  obtain ⟨⟨_, _, world⟩, m'⟩ := other
  obtain rfl := hsame
  have hfeed : (s.atTime now).feed.Carries lifetime held := h.carries
  exact reply_alike hfeed h.passive (fun _ => rfl) hsteady inquiry world m m'

/-- A reply leaves the feed as it was; or the request was accepted, and of the stamps that are left
it has brought those that were not there before. -/
theorem reply_cases (h : desk.Orderly lifetime held) (listener : Listener ω) (now : Int)
    (inquiry : Inquiry) {reply : Reply}
    (hreply : (desk.atTime now).reply listener inquiry = (reply, later)) :
    later.session.feed = desk.session.feed ∨
      reply.isRefusal = false ∧ ∃ ss, Stamp.Ordered ss ∧
        later.session.feed = desk.session.feed.holding lifetime ss ∧
        ∀ stamp ∈ ss, stamp ∈ held.getD [] ∨
          Minute.Brings desk.session.feed.authority stamp.entry
            ⟨now, inquiry, reply, later.session.feed⟩ := by
  have hfeed : (desk.atTime now).session.feed.Carries lifetime held := h.carries
  have hclock : (desk.atTime now).session.clock.Shows now := rfl
  cases inquiry with
  | request fields =>
      have hsettles : Settles listener lifetime now (held.getD []) desk.session.feed
          desk.metrics fields (handle listener fields (desk.atTime now)) :=
        settles_handle hfeed hclock h.passive listener fields desk.metrics
      unfold Desk.reply at hreply
      dsimp only at hreply
      generalize handle listener fields (desk.atTime now) = result at hsettles hreply
      cases hsettles with
      | failed hsame _ =>
          cases hreply
          exact .inl hsame
      | rejected _ _ hsame _ =>
          cases hreply
          exact .inl hsame
      | cleaned _ hleft _ =>
          cases hreply
          refine .inr ⟨rfl, _, h.carries.ordered.liveAt lifetime now, hleft, ?_⟩
          intro stamp hstamp
          exact .inl (List.mem_of_mem_filter hstamp)
      | emitted _ hpayload hvet hleft _ =>
          cases hreply
          obtain ⟨hauthorise, -, hahead⟩ := Feed.vet_eq_ok_iff.mp hvet
          refine .inr ⟨rfl, _, h.carries.ordered.record hahead lifetime _, hleft, ?_⟩
          intro stamp hstamp
          rcases List.mem_append.mp hstamp with hlive | hnew
          · exact .inl (List.mem_of_mem_filter hlive)
          · obtain rfl := List.mem_singleton.mp hnew
            have hsigned := Feed.authorise_eq_ok_iff_eq.mp hauthorise
            exact .inr ⟨fields, rfl, hsigned, hpayload, rfl, rfl⟩
  | read =>
      have hread := Session.read_eq hfeed hclock
      unfold Desk.reply at hreply
      dsimp only at hreply
      rw [hread] at hreply
      cases held with
      | none =>
          cases hreply
          exact .inl rfl
      | some ss =>
          cases hreply
          exact .inl rfl

/-- The desk stays orderly, and a refusal leaves its feed as it was. -/
theorem Orderly.reply (h : desk.Orderly lifetime held) (listener : Listener ω) (now : Int)
    (inquiry : Inquiry) {reply : Reply}
    (hreply : (desk.atTime now).reply listener inquiry = (reply, later)) :
    (∃ held', later.Orderly lifetime held') ∧
      (reply.isRefusal = true → later.session.feed = desk.session.feed) := by
  rcases reply_cases h listener now inquiry hreply with hsame | ⟨haccepted, ss, hss, hleft, -⟩
  · exact ⟨⟨held, h.of_feed_eq hsame⟩, fun _ => hsame⟩
  · refine ⟨⟨some ss, h.of_holding hss hleft⟩, fun hrefused => ?_⟩
    rw [haccepted] at hrefused
    contradiction

theorem minutes_cons (listener : Listener ω) (now : Int) (inquiry : Inquiry)
    (rest : List (Int × Inquiry)) {reply : Reply}
    (hreply : (desk.atTime now).reply listener inquiry = (reply, later)) :
    desk.minutes listener ((now, inquiry) :: rest) =
      (⟨now, inquiry, reply, later.session.feed⟩ :: (later.minutes listener rest).1,
        (later.minutes listener rest).2) := by
  rw [minutes, hreply]

/-- The desk stays orderly throughout a course of inquiries. -/
theorem Orderly.minutes (h : desk.Orderly lifetime held) (listener : Listener ω)
    (steps : List (Int × Inquiry)) :
    ∃ held', (desk.minutes listener steps).2.Orderly lifetime held' := by
  induction steps generalizing desk held with
  | nil => exact ⟨held, h⟩
  | cons step rest ih =>
      obtain ⟨now, inquiry⟩ := step
      rcases hreply : (desk.atTime now).reply listener inquiry with ⟨reply, later⟩
      obtain ⟨⟨_, horderly⟩, -⟩ := h.reply listener now inquiry hreply
      rw [minutes_cons listener now inquiry rest hreply]
      exact ih horderly

/-- Two desks with the same feed go through the same minutes, if the second one is spared some of
the requests that the first one refuses. -/
theorem minutes_of_thins (h : desk.Orderly lifetime held) (hsteady : listener.Steady)
    {other : Desk ω} (hsame : desk.session.feed = other.session.feed)
    (steps : List (Int × Inquiry)) {kept : List Minute}
    (hthins : Minute.Thins (desk.minutes listener steps).1 kept) :
    (other.minutes listener (kept.map Minute.step)).1 = kept ∧
      (other.minutes listener (kept.map Minute.step)).2.session.feed =
        (desk.minutes listener steps).2.session.feed := by
  induction steps generalizing desk held other kept with
  | nil =>
      cases hthins
      exact ⟨rfl, hsame.symm⟩
  | cons step rest ih =>
      obtain ⟨now, inquiry⟩ := step
      rcases hreply : (desk.atTime now).reply listener inquiry with ⟨reply, later⟩
      obtain ⟨⟨_, horderly⟩, hrefusal⟩ := h.reply listener now inquiry hreply
      rw [minutes_cons listener now inquiry rest hreply] at hthins ⊢
      cases hthins with
      | keep _ hrest =>
          rcases hreply' : (other.atTime now).reply listener inquiry with ⟨reply', later'⟩
          have halike := reply_eq_of_feed_eq h hsteady hsame now inquiry
          rw [hreply, hreply'] at halike
          obtain ⟨rfl, hfeed⟩ : reply = reply' ∧ later.session.feed = later'.session.feed := halike
          obtain ⟨hminutes, hlast⟩ := ih horderly hfeed hrest
          rw [List.map_cons, Minute.step, minutes_cons listener now inquiry _ hreply', hminutes,
            ← hfeed]
          exact ⟨rfl, hlast⟩
      | drop hrefused hrest =>
          exact ih horderly ((hrefusal hrefused).trans hsame) hrest

/-- Every entry of the feed that is left was there at the beginning or was brought. -/
theorem entries_minutes (h : desk.Orderly lifetime held) (listener : Listener ω)
    (steps : List (Int × Inquiry)) {entry : Entry}
    (hentry : entry ∈ (desk.minutes listener steps).2.session.feed.entries) :
    entry ∈ desk.session.feed.entries ∨
      ∃ minute ∈ (desk.minutes listener steps).1,
        minute.Brings desk.session.feed.authority entry := by
  induction steps generalizing desk held with
  | nil => exact .inl hentry
  | cons step rest ih =>
      obtain ⟨now, inquiry⟩ := step
      rcases hreply : (desk.atTime now).reply listener inquiry with ⟨reply, later⟩
      obtain ⟨⟨_, horderly⟩, -⟩ := h.reply listener now inquiry hreply
      rw [minutes_cons listener now inquiry rest hreply] at hentry ⊢
      have hauthority : later.session.feed.authority = desk.session.feed.authority := by
        rcases reply_cases h listener now inquiry hreply with hsame | ⟨-, ss, -, hleft, -⟩
        · rw [hsame]
        · rw [hleft]
          rfl
      rcases ih horderly hentry with hearlier | ⟨minute, hminute, hbrings⟩
      · rcases reply_cases h listener now inquiry hreply with hsame | ⟨-, ss, hss, hleft, hbrought⟩
        · rw [hsame] at hearlier
          exact .inl hearlier
        · rw [(h.of_holding hss hleft).carries.entries_eq] at hearlier
          obtain ⟨stamp, hstamp, rfl⟩ := List.mem_map.mp hearlier
          rcases hbrought stamp hstamp with hheld | hbrings
          · rw [h.carries.entries_eq]
            exact .inl (List.mem_map_of_mem hheld)
          · exact .inr ⟨_, List.mem_cons_self, hbrings⟩
      · rw [hauthority] at hbrings
        exact .inr ⟨minute, List.mem_cons_of_mem _ hminute, hbrings⟩

/-- Refused and failed requests have no influence.  Whichever of them are left out, the others are
replied to as before, reads show the same, and each leaves the same feed; and every entry of the
feed in the end was there at the beginning or stems from a request of the authority. -/
theorem refusals_have_no_influence (listener : Listener ω) (hsteady : listener.Steady)
    (desk : Desk ω) (lifetime : Int) (held : Option (List Stamp))
    (hfeed : desk.session.feed.Carries lifetime held)
    (hpassive : ∀ r ∈ desk.session.feed.subscribers, r.isPassive = true)
    (steps : List (Int × Inquiry)) :
    (∀ kept, Minute.Thins (desk.minutes listener steps).1 kept →
      (desk.minutes listener (kept.map Minute.step)).1 = kept ∧
        (desk.minutes listener (kept.map Minute.step)).2.session.feed =
          (desk.minutes listener steps).2.session.feed) ∧
    ∀ entry ∈ (desk.minutes listener steps).2.session.feed.entries,
      entry ∈ desk.session.feed.entries ∨
        ∃ minute ∈ (desk.minutes listener steps).1,
          minute.Brings desk.session.feed.authority entry := by
  have horderly : desk.Orderly lifetime held := ⟨hfeed, hpassive⟩
  constructor
  · intro kept hthins
    exact minutes_of_thins horderly hsteady rfl steps hthins
  · intro entry hentry
    exact entries_minutes horderly listener steps hentry

end

open scoped Limits

/-- A forged, a failing and a belated push do not keep a genuine one from being read. -/
theorem refusals_have_no_influence_on_reading :
    let listener : Listener (List Note) := fun note notes => .ok (note :: notes)
    let feed : Feed := ⟨"ann", .int 10, none, [.record, .fail (some [11]) .error], 0⟩
    let desk : Desk (List Note) := ⟨⟨feed, Clock.showing (.int 0), []⟩, Metrics.zero⟩
    let push (origin data : Text) : Inquiry :=
      .request [("call", .str "push_data"), ("origin", .str origin), ("data", .str data)]
    let steps : List (Int × Inquiry) := [(5, push "ann" "0a"), (6, push "bob" "0a"),
      (7, push "ann" "0b"), (3, push "ann" "0a"), (9, .read)]
    let kept := (desk.minutes listener steps).1.filter fun minute => !minute.reply.isRefusal
    kept.map Minute.now = [5, 9] ∧
      (desk.minutes listener steps).2.session.feed.entries.map Entry.payload = [[10]] ∧
      (desk.minutes listener (kept.map Minute.step)).1 = kept := by
  intro listener feed desk push steps kept
  have hsteady : listener.Steady := fun _ _ _ => rfl
  have hfeed : feed.Carries 10 none := ⟨fun _ => rfl, rfl, List.Pairwise.nil⟩
  have hpassive : ∀ r ∈ feed.subscribers, r.isPassive = true := by decide
  obtain ⟨hkept, -⟩ :=
    refusals_have_no_influence listener hsteady desk 10 none hfeed hpassive steps
  exact ⟨by decide +kernel, by decide +kernel, (hkept kept (Minute.Thins.filter _)).1⟩

end Desk
end LiveFeed
