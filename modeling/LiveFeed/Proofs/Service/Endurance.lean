/-
How long a service lasts when the broker refuses nothing.  Only a message without a value, or one
that is nested too deeply, puts an end to it; any other message is handled or counted as an error,
and the service goes on.
-/
import LiveFeed.Proofs.Service.Run

namespace LiveFeed

namespace Desk

variable {ω : Type} [Limits]

theorem errors_refuse (call : Call) (fault : Feed.Fault) (s : Session ω) (m : Metrics) :
    (ending (refuse call fault s m)).metrics.errors = m.errors := by
  unfold refuse
  split <;> rfl

/-- A request is not counted as an error by the desk. -/
theorem errors_handle (listener : Listener ω) (request : List (Text × Value)) (desk : Desk ω) :
    (ending (handle listener request desk)).metrics.errors = desk.metrics.errors := by
  obtain ⟨s, m⟩ := desk
  rw [handle_eq]
  split
  · rfl
  · cases hclean : Session.clean s with
    | ok count t =>
        rw [clean_of_ok hclean]
        rfl
    | error fault t =>
        rw [clean_of_error hclean]
        exact errors_refuse .clean fault t _
  · split
    · rfl
    · rename_i payload _
      cases hpush : Session.push listener (argument request "origin") (.bytes .fixed payload) s with
      | ok event t =>
          rw [push_of_ok hpush]
          rfl
      | error fault t =>
          rw [push_of_error hpush]
          exact errors_refuse .push fault t _

end Desk

namespace Service

namespace Fate

def isFailed : Fate → Bool
  | .failed => true
  | _ => false

def isHandled : Fate → Bool
  | .handled _ => true
  | _ => false

/-- Whether a request was accepted, after which the feed is saved. -/
def isAccepted : Fate → Bool
  | .handled outcome => outcome.isAccepted
  | _ => false

/-- A message is either handled or malformed. -/
theorem countP_isHandled (fates : List Fate) :
    fates.countP isOfMessage = fates.countP isHandled + fates.countP isMalformed := by
  induction fates with
  | nil => rfl
  | cons fate rest ih =>
      simp only [List.countP_cons, ih]
      cases fate <;> simp [isOfMessage, isHandled, isMalformed] <;> omega

end Fate

namespace Ledger

variable {stateFile : Option Text}

theorem errors_setClock (seconds : Option Value) (l : Ledger) :
    (l.setClock seconds).desk.metrics.errors = l.desk.metrics.errors := by
  cases seconds <;> rfl

theorem errors_gauge (l : Ledger) : l.gauge.desk.metrics.errors = l.desk.metrics.errors := by
  unfold gauge
  split <;> rfl

/-- Errors have been counted: one for each message that was skipped and each error of the source of
the messages, and one for each save that failed after an accepted request. -/
def Counts (stateFile : Option Text) (fates : List Fate) (before after : Nat) : Prop :=
  ∃ unsaved ≤ fates.countP Fate.isAccepted, (stateFile = none → unsaved = 0) ∧
    after = before + fates.countP Fate.isMalformed + fates.countP Fate.isFailed + unsaved

theorem Counts.trans {fates later : List Fate} {before between after : Nat}
    (hfirst : Counts stateFile fates before between)
    (hsecond : Counts stateFile later between after) :
    Counts stateFile (fates ++ later) before after := by
  obtain ⟨unsaved, hle, hnone, hbetween⟩ := hfirst
  obtain ⟨unsaved', hle', hnone', hafter⟩ := hsecond
  refine ⟨unsaved + unsaved', ?_, ?_, ?_⟩
  · rw [List.countP_append]
    exact Nat.add_le_add hle hle'
  · intro hfile
    rw [hnone hfile, hnone' hfile]
  · rw [List.countP_append, List.countP_append, hafter, hbetween]
    omega

/-- An arrival after which nothing fails to be saved counts as one error or none. -/
theorem counts_saved (stateFile : Option Text) (fate : Fate) (before : Nat) :
    Counts stateFile [fate] before
      (before + (if fate.isMalformed then 1 else 0) + if fate.isFailed then 1 else 0) := by
  refine ⟨0, Nat.zero_le _, fun _ => rfl, ?_⟩
  simp only [List.countP_singleton, Nat.add_zero]

variable [Limits]

/-- A save is counted as an error at most once, and not at all without a state file. -/
theorem errors_save (stateFile : Option Text) (l : Ledger) :
    ∃ unsaved, (l.save stateFile).desk.metrics.errors = l.desk.metrics.errors + unsaved ∧
      unsaved ≤ 1 ∧ (stateFile = none → unsaved = 0) := by
  cases stateFile with
  | none => exact ⟨0, rfl, Nat.zero_le 1, fun _ => rfl⟩
  | some path =>
      rcases StateFile.metrics_persist path l.desk.session.feed l.desk.metrics l.tree with
        hsaved | hunsaved
      · exact ⟨0, congrArg Metrics.errors hsaved, Nat.zero_le 1, nofun⟩
      · exact ⟨1, congrArg Metrics.errors hunsaved, Nat.le_refl 1, nofun⟩

theorem counts_handled (stateFile : Option Text) (outcome : Outcome) (l : Ledger) :
    Counts stateFile [.handled outcome] l.desk.metrics.errors
      (l.saveAfter stateFile outcome).gauge.desk.metrics.errors := by
  rw [errors_gauge, saveAfter]
  by_cases haccepted : outcome.isAccepted = true
  · rw [if_pos haccepted]
    obtain ⟨unsaved, herrors, hle, hnone⟩ := errors_save stateFile l
    refine ⟨unsaved, ?_, hnone, herrors⟩
    rw [List.countP_singleton, Fate.isAccepted, if_pos haccepted]
    exact hle
  · rw [if_neg haccepted]
    exact counts_saved stateFile _ _

theorem counts_receive (stateFile : Option Text) (value : Option Bytes) (l : Ledger) :
    Counts stateFile [(l.receive stateFile value).1] l.desk.metrics.errors
      (l.receive stateFile value).2.desk.metrics.errors := by
  unfold receive
  split
  · exact counts_saved stateFile _ _
  · rename_i request _
    have hhandle := Desk.errors_handle scribe request l.desk
    unfold apply
    cases hresult : Desk.handle scribe request l.desk with
    | error fault desk =>
        rw [hresult] at hhandle
        rw [← hhandle]
        exact counts_saved stateFile _ _
    | ok outcome desk =>
        rw [hresult] at hhandle
        rw [← hhandle]
        exact counts_handled stateFile outcome { l with desk }

theorem counts_deal (stateFile : Option Text) (arrival : Arrival) (l : Ledger) :
    Counts stateFile [(l.deal stateFile arrival).1] l.desk.metrics.errors
      (l.deal stateFile arrival).2.desk.metrics.errors := by
  rw [← errors_setClock arrival.seconds l]
  unfold deal
  split
  · exact counts_saved stateFile _ _
  · split
    · exact counts_saved stateFile _ _
    · exact counts_saved stateFile _ _
  · exact counts_receive stateFile _ _

/-- Along a run errors are counted for what is skipped and for what fails. -/
theorem counts_run (stateFile : Option Text) (arrivals : List Arrival) (l : Ledger) :
    Counts stateFile (l.run stateFile arrivals).1 l.desk.metrics.errors
      (l.run stateFile arrivals).2.desk.metrics.errors := by
  induction arrivals generalizing l with
  | nil => exact ⟨0, Nat.zero_le _, fun _ => rfl, rfl⟩
  | cons arrival rest ih => exact (counts_deal stateFile arrival l).trans (ih _)

end Ledger

variable {arguments : List Text} {failures : List (Text × Text)} {options : Options}
  {config : Config} {clock : Clock} {tree : FileTree} {held : Option (List Stamp)}

section

variable [Limits]

/-- If the broker refuses nothing, a service fails at the first message that has no value or is
nested too deeply, and only there; up to there it does what its ledger says.  If there is none, it
consumes all messages: each is handled or skipped, and the errors counted are those skipped, the
errors of the source of the messages and the saves that failed. -/
theorem run_fails_iff_unreadable (hconfigures : Configures arguments tree options config)
    (hlifetime : Digits.fit config.lifetime = true) (hshown : Presentable options config)
    (htopics : ∀ topic ∈ [config.requestsTopic, config.eventsTopic], Creatable failures topic)
    (hrestores : Restores tree options.stateFile held) (hclock : clock.IsWhole)
    {arrivals : List Arrival} (harrivals : ∀ arrival ∈ arrivals, arrival.IsWhole) :
    let opening := Ledger.opening config clock tree held
    let served := arrivals.takeWhile Arrival.isReadable
    let fates := (opening.run options.stateFile served).1
    let result := run arguments failures arrivals (State.startWith clock tree [])
    served.countP Arrival.bringsMessage =
        fates.countP Fate.isHandled + fates.countP Fate.isMalformed ∧
      ((∀ arrival ∈ arrivals, arrival.isReadable = true) →
        served = arrivals ∧
          ∃ s, result = .ok () s ∧ Account config [] options.stateFile opening served s ∧
            s.consumed = served.countP Arrival.bringsMessage ∧
            Ledger.Counts options.stateFile fates 0 s.desk.metrics.errors) ∧
      ((∃ arrival ∈ arrivals, arrival.isReadable = false) →
        ∃ fault s, result = .error fault s ∧ Account config [] options.stateFile opening served s ∧
          s.consumed = served.countP Arrival.bringsMessage + 1) := by
  intro opening served fates result
  obtain ⟨s, taken, rest, hsplit, hserve, hrun⟩ :=
    exists_served hconfigures hlifetime hshown htopics hrestores hclock harrivals []
  have hends : Ends config [] options.stateFile opening taken rest result := by
    rw [show result = serveAndFinish options config arrivals s from hrun]
    exact (ends_serveAndFinish hserve).1
  obtain rfl : taken = served := by
    rw [hends.served_eq, ← hsplit]
  refine ⟨?_, ?_, ?_⟩
  · rw [Ledger.countP_bringsMessage options.stateFile _ opening]
    exact Fate.countP_isHandled fates
  · intro hreadable
    refine ⟨List.takeWhile_eq_self_iff.mpr hreadable, ?_⟩
    generalize result = outcome at hends
    cases hends with
    | all haccount hconsumed hmetrics =>
        refine ⟨_, rfl, haccount, hconsumed, ?_⟩
        rw [hmetrics]
        exact Ledger.counts_run options.stateFile _ opening
    | stopped _ _ hstops =>
        have hunreadable := hstops.unreadable_or_refused.resolve_right List.not_mem_nil
        have hmem := hsplit ▸ List.mem_append_right _ List.mem_cons_self
        exact absurd (hunreadable.symm.trans (hreadable _ hmem)) Bool.false_ne_true
  · rintro ⟨arrival, harrival, hunreadable⟩
    generalize result = outcome at hends
    cases hends with
    | all haccount _ _ =>
        rw [List.append_nil] at hsplit
        rw [hsplit] at harrival
        have hreadable := haccount.readable arrival harrival
        exact absurd (hunreadable.symm.trans hreadable) Bool.false_ne_true
    | stopped haccount hconsumed _ => exact ⟨_, _, rfl, haccount, hconsumed⟩

end

open scoped Limits

/-- A message without a value stops a service, and the push after it is not served. -/
theorem run_fails_at_tombstone :
    let document := "authority: ann\nlifetime_ms: 10\n"
    let tree := FileTree.empty.build (Path.ofText defaultConfigFile) (.file (Utf8.encode document))
    let request := "\x7b\"call\": \"push_data\", \"origin\": \"ann\", \"data\": \"61\"\x7d"
    let push : Arrival := ⟨some (.int 1), .message (some (Utf8.encode request))⟩
    let tombstone : Arrival := ⟨none, .message none⟩
    let start := State.startWith (Clock.showing (.int 0)) tree []
    ∃ fault s, run [] [] [push, tombstone, push] start = .error fault s ∧ s.consumed = 2 := by
  intro document tree request push tombstone start
  have hclock : (Clock.showing (.int 0)).IsWhole := fun _ => ⟨0, rfl⟩
  have harrivals : ∀ arrival ∈ [push, tombstone, push], arrival.IsWhole := by
    have hpush : push.IsWhole := by
      rintro _ ⟨⟩
      exact ⟨1000, by decide +kernel⟩
    have htombstone : tombstone.IsWhole := nofun
    simp [hpush, htombstone]
  have hlifetime : Digits.fit 10 = true := by decide +kernel
  have hserved : ([push, tombstone, push].takeWhile Arrival.isReadable).countP
      Arrival.bringsMessage = 1 := by decide +kernel
  obtain ⟨-, -, hfails⟩ := run_fails_iff_unreadable configures_two_lines hlifetime
    presentable_two_lines creatable_default (restores_default tree) hclock harrivals
  obtain ⟨fault, s, hrun, -, hconsumed⟩ := hfails ⟨tombstone, by simp, rfl⟩
  exact ⟨fault, s, hrun, hconsumed.trans (congrArg (· + 1) hserved)⟩

end Service
end LiveFeed
