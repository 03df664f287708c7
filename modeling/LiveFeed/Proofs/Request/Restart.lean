/-
A service that saves its feed after every accepted request can be restarted at any time: the file
always holds the log that is in use, so that nobody who asks can tell the difference.
-/
import LiveFeed.Proofs.Log.Snapshot
import LiveFeed.Proofs.Request.Handling
import LiveFeed.Proofs.StateFile

namespace LiveFeed

/-- What one may ask a desk for: to deal with a request, or to show the feed. -/
inductive Inquiry where
  | request (fields : List (Text × Value))
  | read

/-- What a desk replies. -/
inductive Reply where
  | dealt (outcome : Outcome)
  | failed (fault : Desk.Fault)
  | shown (payloads : Option (List Bytes))
  | unread (fault : Feed.Fault)

namespace Desk

variable {ω : Type}

/-- The same desk with its clock set to a time. -/
def atTime (desk : Desk ω) (now : Int) : Desk ω :=
  { desk with session := { desk.session with clock := Clock.showing (.int now) } }

variable [Limits]

/-- Replies to an inquiry. -/
def reply (listener : Listener ω) (inquiry : Inquiry) (desk : Desk ω) : Reply × Desk ω :=
  match inquiry with
  | .request fields =>
      match handle listener fields desk with
      | .ok outcome desk => (.dealt outcome, desk)
      | .error fault desk => (.failed fault, desk)
  | .read =>
      match desk.session.read with
      | .ok payloads session => (.shown payloads, { desk with session })
      | .error fault session => (.unread fault, { desk with session })

/-- Replies to inquiries one after the other, each at its time. -/
def course (listener : Listener ω) : List (Int × Inquiry) → Desk ω → List Reply × Desk ω
  | [], desk => ([], desk)
  | (now, inquiry) :: rest, desk =>
      let (reply, desk) := (desk.atTime now).reply listener inquiry
      let (replies, desk) := course listener rest desk
      (reply :: replies, desk)

theorem reply_eq_of_session_eq (listener : Listener ω) (inquiry : Inquiry) {a b : Desk ω}
    (h : a.session = b.session) :
    (a.reply listener inquiry).1 = (b.reply listener inquiry).1 ∧
      (a.reply listener inquiry).2.session = (b.reply listener inquiry).2.session := by
  obtain ⟨s, m⟩ := a
  obtain ⟨t, m'⟩ := b
  obtain rfl : s = t := h
  cases inquiry with
  | request fields =>
      have hview := view_handle listener fields s m m'
      simp only [reply]
      cases ha : handle listener fields ⟨s, m⟩ <;> cases hb : handle listener fields ⟨s, m'⟩ <;>
        simp_all [view]
  | read =>
      simp only [reply]
      cases s.read <;> exact ⟨rfl, rfl⟩

/-- Desks with equal feeds and surroundings reply alike, whatever they have counted. -/
theorem course_eq_of_feed_eq (listener : Listener ω) (steps : List (Int × Inquiry))
    {a b : Desk ω} (hfeed : a.session.feed = b.session.feed)
    (hworld : a.session.world = b.session.world) :
    (a.course listener steps).1 = (b.course listener steps).1 ∧
      (a.course listener steps).2.session.feed = (b.course listener steps).2.session.feed ∧
      (a.course listener steps).2.session.world = (b.course listener steps).2.session.world := by
  induction steps generalizing a b with
  | nil => exact ⟨rfl, hfeed, hworld⟩
  | cons step rest ih =>
      obtain ⟨now, inquiry⟩ := step
      have hsession : (a.atTime now).session = (b.atTime now).session := by
        simp only [atTime, hfeed, hworld]
      obtain ⟨hreply, hafter⟩ := reply_eq_of_session_eq listener inquiry hsession
      obtain ⟨hreplies, hrest⟩ := ih (congrArg Session.feed hafter) (congrArg Session.world hafter)
      exact ⟨congrArg₂ List.cons hreply hreplies, hrest⟩

end Desk

/-- A service between two requests: its desk, and the files around it. -/
structure Station (ω : Type) where
  desk : Desk ω
  tree : FileTree

namespace Station

variable {ω : Type} [Limits]

/-- Deals with a request at a time, and saves the feed to the path if the request was accepted.
There is no station afterwards if the feed is not saved. -/
def serve (listener : Listener ω) (path : Text) (now : Int) (request : List (Text × Value))
    (station : Station ω) : Option (Station ω) :=
  match Desk.handle listener request (station.desk.atTime now) with
  | .error _ desk => some ⟨desk, station.tree⟩
  | .ok outcome desk =>
      if outcome.isAccepted then
        match StateFile.persist path desk.session.feed (desk.metrics, station.tree) with
        | .ok none (metrics, tree) => some ⟨{ desk with metrics }, tree⟩
        | _ => none
      else some ⟨desk, station.tree⟩

/-- The stations of services that save to a path.  The first one begins without a log, where nothing
has been saved; each further one takes over the files and loads its feed from the path, under a
lifetime of its own. -/
inductive Reachable (path : Text) : Int → Station ω → Prop where
  | first {lifetime : Int} {station : Station ω}
      (hfile : StateFile.read station.tree path = .ok .null)
      (hlifetime : station.desk.session.feed.lifetime = .int lifetime)
      (hlog : station.desk.session.feed.log = none)
      (hpassive : ∀ r ∈ station.desk.session.feed.subscribers, r.isPassive = true) :
      Reachable path lifetime station
  | restarted {earlier lifetime : Int} {before station : Station ω} {snapshot : Value} {feed : Feed}
      (hbefore : Reachable path earlier before) (htree : station.tree = before.tree)
      (hfile : StateFile.read before.tree path = .ok snapshot)
      (hlifetime : feed.lifetime = .int lifetime)
      (hload : feed.load snapshot = .ok station.desk.session.feed)
      (hpassive : ∀ r ∈ feed.subscribers, r.isPassive = true) :
      Reachable path lifetime station
  | served {lifetime now : Int} {before station : Station ω} {listener : Listener ω}
      {request : List (Text × Value)} (hbefore : Reachable path lifetime before)
      (hserve : before.serve listener path now request = some station) :
      Reachable path lifetime station

/-- The file at the path holds the log in use, though perhaps under another lifetime. -/
structure Saved (path : Text) (lifetime : Int) (station : Station ω) (held : Option (List Stamp)) :
    Prop where
  holds : station.desk.session.feed.Holds lifetime held
  passive : ∀ r ∈ station.desk.session.feed.subscribers, r.isPassive = true
  file : ∃ stored, StateFile.read station.tree path = .ok (Snapshot.ofHeld stored held)

end Station

namespace Station

variable {ω : Type} {path : Text} {lifetime now : Int} {station : Station ω}
  {held : Option (List Stamp)}

section

variable [Limits]

theorem Saved.of_feed_eq (h : station.Saved path lifetime held) {later : Station ω}
    (hfeed : later.desk.session.feed = station.desk.session.feed)
    (htree : later.tree = station.tree) : later.Saved path lifetime held := by
  refine ⟨?_, ?_, ?_⟩
  · rw [hfeed]
    exact h.holds
  · rw [hfeed]
    exact h.passive
  · rw [htree]
    exact h.file

/-- A saved feed is what is read from the file. -/
theorem read_of_persist {feed : Feed} {m metrics : Metrics} {tree later : FileTree}
    (hfeed : feed.Holds lifetime held)
    (h : StateFile.persist path feed (m, tree) = .ok none (metrics, later)) :
    StateFile.read later path = .ok (Snapshot.ofHeld lifetime held) := by
  have hwrite := StateFile.write_of_persist h
  rw [hfeed.carries.snapshot_eq] at hwrite
  exact StateFile.read_of_write (Snapshot.isPlain_ofHeld lifetime held)
    (Snapshot.depth_ofHeld_le lifetime held) hwrite

/-- One request and the save after it keep the file and the log together. -/
theorem Saved.serve (h : station.Saved path lifetime held) (listener : Listener ω) (now : Int)
    (request : List (Text × Value)) {later : Station ω}
    (hserve : station.serve listener path now request = some later) :
    ∃ held', later.Saved path lifetime held' := by
  have hsettles : Desk.Settles listener lifetime now (held.getD []) station.desk.session.feed
      station.desk.metrics request (Desk.handle listener request (station.desk.atTime now)) :=
    Desk.settles_handle (s := (station.desk.atTime now).session) h.holds.carries rfl h.passive
      listener request station.desk.metrics
  rw [Station.serve] at hserve
  cases hhandle : Desk.handle listener request (station.desk.atTime now) with
  | error fault desk =>
      rw [hhandle] at hserve hsettles
      cases hserve
      exact ⟨held, h.of_feed_eq hsettles.feed_of_failed rfl⟩
  | ok outcome desk =>
      rw [hhandle] at hserve hsettles
      cases haccepted : outcome.isAccepted with
      | false =>
          simp only [haccepted] at hserve
          cases hserve
          exact ⟨held, h.of_feed_eq (hsettles.feed_of_rejected haccepted) rfl⟩
      | true =>
          obtain ⟨ss, hss, hfeed⟩ := hsettles.feed_of_accepted haccepted h.holds.ordered
          have hholds : desk.session.feed.Holds lifetime (some ss) := by
            rw [hfeed]
            exact h.holds.holding hss
          simp only [haccepted, ↓reduceIte] at hserve
          split at hserve
          · rename_i metrics tree hpersist
            cases hserve
            refine ⟨some ss, hholds, ?_, lifetime, read_of_persist hholds hpersist⟩
            rw [hfeed]
            exact h.passive
          · cases hserve

/-- At every station that can be reached, the file holds the log in use. -/
theorem Reachable.saved (h : Reachable path lifetime station) :
    ∃ held, station.Saved path lifetime held := by
  induction h with
  | first hfile hlifetime hlog hpassive =>
      exact ⟨none, ⟨hlifetime, hlog, List.Pairwise.nil⟩, hpassive, 0, hfile⟩
  | restarted hbefore htree hfile hlifetime hload hpassive ih =>
      obtain ⟨held, hsaved⟩ := ih
      obtain ⟨stored, hstored⟩ := hsaved.file
      have hsnapshot := Except.ok.inj (hfile.symm.trans hstored)
      rw [hsnapshot, Feed.load_ofHeld hlifetime stored hsaved.holds.ordered] at hload
      have hfeed := (Except.ok.inj hload).symm
      refine ⟨held, ⟨?_, ?_, hsaved.holds.ordered⟩, ?_, stored, ?_⟩
      · rw [hfeed]
        exact hlifetime
      · rw [hfeed]
      · rw [hfeed]
        exact hpassive
      · rw [htree]
        exact hstored
  | served hbefore hserve ih =>
      obtain ⟨held, hsaved⟩ := ih
      exact hsaved.serve _ _ _ hserve

/-- The feed that is loaded from the file at any time has the log in use, and a desk that goes on
with it, having counted nothing, replies to everybody as if there had been no restart. -/
theorem restart_invisible (h : Reachable path lifetime station) :
    ∃ snapshot restored, StateFile.read station.tree path = .ok snapshot ∧
      (Feed.new station.desk.session.feed.authority (.int lifetime)).load snapshot = .ok restored ∧
      restored.log = station.desk.session.feed.log ∧
      ∀ (clock : Clock) (listener : Listener ω) (steps : List (Int × Inquiry)),
        let running := station.desk.session
        let feed := { restored with
          subscribers := running.feed.subscribers
          reentrantPushes := running.feed.reentrantPushes }
        let restarted : Desk ω := ⟨⟨feed, clock, running.world⟩, Metrics.zero⟩
        (restarted.course listener steps).1 = (station.desk.course listener steps).1 ∧
          (restarted.course listener steps).2.session.feed =
            (station.desk.course listener steps).2.session.feed ∧
          (restarted.course listener steps).2.session.world =
            (station.desk.course listener steps).2.session.world := by
  obtain ⟨held, hsaved⟩ := h.saved
  obtain ⟨stored, hfile⟩ := hsaved.file
  refine ⟨_, _, hfile, Feed.load_ofHeld rfl stored hsaved.holds.ordered, hsaved.holds.log_eq.symm,
    ?_⟩
  intro clock listener steps running feed restarted
  apply Desk.course_eq_of_feed_eq
  · simp only [restarted, feed, running, ← hsaved.holds.log_eq, ← hsaved.holds.lifetime_eq,
      Feed.new]
  · rfl

end

open scoped Limits

/-- After a push that has been saved, a restart finds the stored entry. -/
theorem restart_after_push :
    let listener : Listener (List Note) := fun note notes => .ok (note :: notes)
    let feed := (Feed.new (.ofString "ann") (.int 10)).subscribe .record
    let start : Station (List Note) :=
      ⟨⟨⟨feed, Clock.showing (.int 0), []⟩, Metrics.zero⟩, FileTree.empty⟩
    let request : List (Text × Value) :=
      [("call", .str "push_data"), ("origin", .str "ann"), ("data", .str "00fF")]
    ∃ station snapshot restored,
      start.serve listener "state.json" 5 request = some station ∧
        StateFile.read station.tree "state.json" = .ok snapshot ∧
        (Feed.new station.desk.session.feed.authority (.int 10)).load snapshot = .ok restored ∧
        restored.log.map Log.size = some 1 := by
  intro listener feed start request
  have hfile : StateFile.read start.tree "state.json" = .ok .null := by rfl
  have hpassive : ∀ r ∈ feed.subscribers, r.isPassive = true := by decide
  have hfirst : Reachable "state.json" 10 start := .first hfile rfl rfl hpassive
  have hsize : (start.serve listener "state.json" 5 request).map
      (fun station => station.desk.session.feed.log.map Log.size) = some (some 1) := by
    decide +kernel
  obtain ⟨station, hserve, hlog⟩ := Option.map_eq_some_iff.mp hsize
  obtain ⟨snapshot, restored, hread, hload, hrestored, -⟩ :=
    restart_invisible (.served hfirst hserve)
  exact ⟨station, snapshot, restored, hserve, hread, hload, by rw [hrestored, hlog]⟩

end Station
end LiveFeed
