/-
The window of a running service.  Every lifetime that a service can be configured with is positive,
and under a positive lifetime each accepted change of a feed leaves what is younger than that and
nothing else.
-/
import LiveFeed.Proofs.Feed.Window
import LiveFeed.Proofs.Service.Configuration

namespace LiveFeed.Service

section

variable [Limits]

/-- A service that gets past its configuration opens a feed with a named authority and a positive
lifetime.  A feed with a positive lifetime that starts with whole times keeps the window, whatever
becomes of it: an accepted push or cleanup, also one by a subscriber in the middle of a push,
leaves entries that are younger than the lifetime, and readers see all of them at that time.  A log
that was saved under another lifetime is under the new one as soon as it is loaded. -/
theorem accepted_changes_keep_window :
    (∀ (arguments : List Text) (s t : State),
      (configure arguments >>= fun configured => openFeed configured.2) s = .ok () t →
        ∃ (authority : Text) (lifetime : Int), authority.isEmpty = false ∧ 0 < lifetime ∧
          t.desk.session.feed = Feed.new authority (.int lifetime)) ∧
    ∀ {ω : Type} (listener : Listener ω) (lifetime : Int), 0 < lifetime →
      ∀ s : Session ω, s.Counts lifetime →
        (∀ t, s.Reaches listener t → t.KeepsWindow listener lifetime ∧
          ∀ d, t.begin.Amid listener d → d.KeepsWindow listener lifetime) ∧
        ∀ (saved : Int) (ss : List Stamp), Stamp.Ordered ss →
          ∃ t, s.load (Snapshot.encode (Log.stamped saved ss)) = .ok () t ∧
            t.feed.log = some (Log.stamped lifetime ss) ∧ t.KeepsWindow listener lifetime := by
  refine ⟨fun _ _ _ => feed_of_configure, ?_⟩
  intro ω listener lifetime hlifetime s hcounts
  have hkeeps {t : Session ω} (hreaches : s.Reaches listener t) :
      t.KeepsWindow listener lifetime :=
    (hcounts.reaches hreaches).keepsWindow hlifetime listener
  refine ⟨fun t hreaches => ⟨hkeeps hreaches, ?_⟩, ?_⟩
  · intro d hamid
    exact ((hcounts.reaches hreaches).begin_sound.amid hamid).keepsWindow hlifetime listener
  · intro saved ss hordered
    obtain ⟨held, hfeed⟩ := hcounts.holds
    have hload : s.load (Snapshot.encode (Log.stamped saved ss)) = .ok ()
        { s with feed := { s.feed with log := some (Log.stamped lifetime ss) } } :=
      Session.load_ofHeld hfeed.lifetime_eq saved
        (show Stamp.Ordered ((some ss).getD []) from hordered)
    refine ⟨_, hload, rfl, hkeeps (.load .start hload ?_)⟩
    rintro _ ⟨⟩ e he
    obtain ⟨stamp, -, rfl⟩ := List.mem_map.mp he
    exact ⟨stamp.time, rfl⟩

end

open scoped Limits

/-- Two stamps were saved under a lifetime of ten.  A service that is started with a lifetime of five
in its arguments has loaded both of them, and holds only the younger one and its own after the first
push. -/
theorem accepted_changes_keep_window_of_shorter_lifetime :
    let document := "authority: ann\nlifetime_ms: 10\n"
    let tree := FileTree.empty.build (Path.ofText defaultConfigFile) (.file (Utf8.encode document))
    let start := State.startWith (Clock.showing (.int 12)) tree []
    let arguments : List Text := ["--authority", "bob", "--lifetime-ms", "5"]
    let held : List Stamp := [⟨[1], 1⟩, ⟨[2], 9⟩]
    let kept := Log.stamped 5 [⟨[2], 9⟩, ⟨[3], 12⟩]
    let listener : Listener Outside := fun _ outside => .ok outside
    ∃ s t u event,
      (configure arguments >>= fun configured => openFeed configured.2) start = .ok () s ∧
        s.desk.session.load (Snapshot.encode (Log.stamped 10 held)) = .ok () t ∧
        t.feed.log = some (Log.stamped 5 held) ∧
        t.push listener (.str "bob") (.bytes .fixed [3]) = .ok event u ∧ u.Filled 5 12 kept := by
  intro document tree start arguments held kept listener
  obtain ⟨hconfigured, hkeeps⟩ := accepted_changes_keep_window
  have hconfigures : Configures arguments start.tree
      { Options.default with authority := some "bob", lifetime := some (some 5) }
      ⟨"bob", 5, "oracle-requests", "oracle-events"⟩ :=
    ⟨by decide +kernel, ⟨"ann", 10, "oracle-requests", "oracle-events"⟩, by decide +kernel, rfl⟩
  let s : State := { start with desk.session.feed := Feed.new "bob" (.int 5) }
  let t : Session Outside :=
    { s.desk.session with feed := { s.desk.session.feed with log := some (Log.stamped 5 held) } }
  have hopen : (configure arguments >>= fun configured => openFeed configured.2) start =
      .ok () s := bind_of_ok (configure_eq hconfigures)
  obtain ⟨_, _, -, hpositive, hfeed⟩ := hconfigured _ _ _ hopen
  cases hfeed
  have hcounts : s.desk.session.Counts 5 :=
    ⟨⟨none, rfl, rfl, List.Pairwise.nil⟩, fun _ => ⟨12, rfl⟩⟩
  have hordered : Stamp.Ordered held := by simp [held, Stamp.Ordered]
  obtain ⟨t', hload, hlog, hwindow⟩ := (hkeeps listener 5 hpositive _ hcounts).2 10 held hordered
  have hsame : s.desk.session.load (Snapshot.encode (Log.stamped 10 held)) = .ok () t :=
    Session.load_ofHeld rfl 10 (show Stamp.Ordered ((some held).getD []) from hordered)
  obtain rfl : t' = t := by
    rw [hload] at hsame
    cases hsame
    rfl
  have hholds : t.feed.Holds 5 (some held) := ⟨rfl, rfl, hordered⟩
  have hpush : t.push listener (.str "bob") (.bytes .fixed [3]) =
      .ok ⟨[3], .int 12⟩ { t.ticked with feed := t.feed.holding 5 [⟨[2], 9⟩, ⟨[3], 12⟩] } :=
    Session.push_recorded hholds.carries rfl listener _ _ (by rfl) (List.forall_mem_nil _)
  obtain ⟨now, payload, log, hclock, -, -, hfilled, -⟩ := hwindow.push _ _ _ _ hpush
  cases hclock
  cases hfilled.log_eq
  exact ⟨s, t, _, _, hopen, hload, hlog, hpush, hfilled⟩

end LiveFeed.Service
