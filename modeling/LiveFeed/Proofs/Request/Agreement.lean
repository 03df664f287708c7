/-
Requests, the desk and the watcher agree.  The text of a request arrives at the desk, which does to
the feed exactly what was asked for and replies with a message that a watcher can make out.  Only
times with too many digits stand in the way, since no message can hold them.
-/
import LiveFeed.Proofs.Feed.Operation
import LiveFeed.Proofs.Request.Handling
import LiveFeed.Proofs.Watcher.Sighting

namespace LiveFeed

/-- Among subscribers that only take note, a call is refused by the feed itself. -/
theorem Call.Permits.mem_reasons {ω : Type} {listener : Listener ω} {subscribers : List Reaction}
    {call : Call} {reason : Reason}
    (h : call.Permits listener subscribers reason) (hlistener : listener.Accepts)
    (hrecord : ∀ r ∈ subscribers, r = .record) : reason ∈ call.reasons := by
  cases h with
  | own hmem => exact hmem
  | told hraises =>
      cases hraises with
      | subscriber hmem => exact absurd (hrecord _ hmem) nofun
      | @listener note world _ hnote _ =>
          obtain ⟨later, haccepted⟩ := hlistener note world
          rw [haccepted] at hnote
          cases hnote

theorem Call.isPrintableAscii_of_mem_reasons {call : Call} {reason : Reason}
    (h : reason ∈ call.reasons) : ∀ c ∈ reason.name.toList, LiveFeed.IsPrintableAscii c := by
  have hpush : reason ∈ Call.push.reasons := by
    cases call with
    | push => exact h
    | clean =>
        rw [List.mem_singleton.mp h]
        decide
  have hall : (Call.push.reasons.all fun r =>
      r.name.toList.all fun c => decide (LiveFeed.IsPrintableAscii c)) = true := by decide
  have hname := List.all_eq_true.mp hall reason hpush
  intro c hc
  exact of_decide_eq_true (List.all_eq_true.mp hname c hc)

namespace Desk

variable {ω α : Type} [Limits]

/-- A desk does what an operation of the feed does.  It leaves the same session; its outcome is that
of the accepted call, or the refusal with the reason and the wording of the fault. -/
inductive Mirrors (call : Call) (outcomeOf : α → Outcome) :
    EStateM.Result Feed.Fault (Session ω) α → EStateM.Result Fault (Desk ω) Outcome → Prop where
  | accepted {a : α} {s : Session ω} {m : Metrics} :
      Mirrors call outcomeOf (.ok a s) (.ok (outcomeOf a) ⟨s, m⟩)
  | refused {fault : Feed.Fault} {reason : Reason} {s : Session ω} {m : Metrics}
      (hreason : fault.reason? = some reason) :
      Mirrors call outcomeOf (.error fault s) (.ok (.rejected call reason fault.message) ⟨s, m⟩)

theorem mirrors_refuse {call : Call} {outcomeOf : α → Outcome} {fault : Feed.Fault}
    {reason : Reason} (hreason : fault.reason? = some reason) (s : Session ω) (m : Metrics) :
    Mirrors call outcomeOf (.error fault s) (refuse call fault s m) := by
  simp only [refuse, hreason]
  exact .refused hreason

variable {listener : Listener ω} {s : Session ω} {lifetime now : Int} {held : Option (List Stamp)}

/-- If the log is ahead of a time, both can be put in words. -/
def HasWords (now : Int) (held : List Stamp) : Prop :=
  ∀ latest, Stamp.ahead? now held = some latest →
    Digits.fit now = true ∧ Digits.fit latest = true

theorem mirrors_stale {call : Call} {outcomeOf : α → Outcome} {held : List Stamp}
    (hwords : HasWords now held) {latest : Int} (hahead : Stamp.ahead? now held = some latest)
    (s : Session ω) (m : Metrics) :
    Mirrors call outcomeOf (.error (.log (.ofStale (.int now) (.int latest))) s)
      (refuse call (.log (.ofStale (.int now) (.int latest))) s m) := by
  obtain ⟨hnow, hlatest⟩ := hwords latest hahead
  rw [Log.Fault.ofStale_of_fit hnow hlatest]
  exact mirrors_refuse rfl s m

theorem mirrors_clean (hfeed : s.feed.Carries lifetime held) (hclock : s.clock.Shows now)
    (hwords : HasWords now (held.getD [])) (m : Metrics) :
    Mirrors .clean .cleaned (Session.clean s) (clean ⟨s, m⟩) := by
  have hclean := Session.clean_eq hfeed hclock
  cases hahead : Stamp.ahead? now (held.getD []) with
  | some latest =>
      simp only [hahead] at hclean
      rw [clean_of_error hclean, hclean]
      exact mirrors_stale hwords hahead _ _
  | none =>
      simp only [hahead] at hclean
      rw [clean_of_ok hclean, hclean]
      exact .accepted

theorem mirrors_push (hlistener : listener.Accepts) (hfeed : s.feed.Carries lifetime held)
    (hclock : s.clock.Shows now) (hrecord : ∀ r ∈ s.feed.subscribers, r = .record)
    (hwords : HasWords now (held.getD [])) (origin : Option String) (payload : Bytes)
    (m : Metrics) :
    Mirrors .push .emitted
      (Session.push listener (Message.signer origin) (.bytes .fixed payload) s)
      (push listener (Message.signer origin) payload ⟨s, m⟩) := by
  cases hvet : Feed.vet s.feed.authority now (held.getD []) (Message.signer origin)
      (.bytes .fixed payload) with
  | error fault =>
      have hpush := Session.push_refused hfeed hclock listener _ _ hvet
      rw [push_of_error hpush, hpush]
      rcases Feed.vet_eq_error hvet with rfl | rfl | ⟨latest, hahead, rfl⟩
      · exact mirrors_refuse rfl _ _
      · rw [Feed.Fault.ofOrigin, Message.wordless?_signer]
        exact mirrors_refuse rfl _ _
      · exact mirrors_stale hwords hahead _ _
  | ok admitted =>
      have hpush := Session.push_recorded hfeed hclock listener _ _ hvet hrecord
      obtain ⟨world, hchorus⟩ := Delivery.chorus_accepts hlistener ⟨admitted, .int now⟩ 0
        s.feed.subscribers.length s.world
      rw [hchorus] at hpush
      rw [push_of_ok hpush, hpush]
      exact .accepted

/-- A push by the authority to a log that is ahead of the time fails, if it cannot be put in words
by how much. -/
theorem push_without_words (hfeed : s.feed.Carries lifetime held) (hclock : s.clock.Shows now)
    (listener : Listener ω) (payload : Bytes) {latest : Int}
    (hahead : Stamp.ahead? now (held.getD []) = some latest)
    (hfit : (Digits.fit now && Digits.fit latest) = false) (m : Metrics) :
    push listener (.str s.feed.authority) payload ⟨s, m⟩ =
      .error (.feed (.log (.wordless .tooLong))) ⟨s.ticked, m⟩ := by
  have hvet := Feed.vet_authority s.feed.authority now (held.getD []) .fixed payload
  simp only [hahead, Log.Fault.ofStale_int, hfit, Bool.false_eq_true, ↓reduceIte] at hvet
  have hpush := Session.push_refused hfeed hclock listener _ _ hvet
  rw [push_of_error hpush, Feed.authorise_authority]
  rfl

/-! What arrives -/

theorem handle_pushRequest (listener : Listener ω) (origin : Option String) (payload : Bytes)
    {fields : List (Text × Value)}
    (hfields : Message.pushRequest (Message.signer origin) payload = .object fields)
    (s : Session ω) (m : Metrics) :
    handle listener fields ⟨s, m⟩ =
      push listener (Message.signer origin) payload ⟨s, m.countRequest .push⟩ := by
  cases hfields
  have hcall : Call.ofName? (argument [("call", .str Call.push.name),
      ("origin", Message.signer origin), ("data", .str (Hex.encode payload))] "call") =
        some .push := rfl
  have hpayload : Desk.payload [("call", .str Call.push.name),
      ("origin", Message.signer origin), ("data", .str (Hex.encode payload))] = .ok payload := by
    change (Hex.decode (Hex.encode payload)).mapError _ = _
    rw [Hex.decode_encode]
    rfl
  rw [handle_eq, hcall, hpayload]
  rfl

theorem handle_cleanRequest (listener : Listener ω) {fields : List (Text × Value)}
    (hfields : Message.cleanRequest = .object fields) (s : Session ω) (m : Metrics) :
    handle listener fields ⟨s, m⟩ = clean ⟨s, m.countRequest .clean⟩ := by
  cases hfields
  rw [handle_eq]
  rfl

/-- What becomes of a request is told by a message that a watcher makes out, on a line of printable
characters; only an accepted push at a time with too many digits is not told at all. -/
theorem outcome_is_seen (hlistener : listener.Accepts) (hfeed : s.feed.Carries lifetime held)
    (hclock : s.clock.Shows now) (hrecord : ∀ r ∈ s.feed.subscribers, r = .record)
    {fields : List (Text × Value)}
    {m : Metrics} {outcome : Outcome} {desk : Desk ω}
    (hhandle : handle listener fields ⟨s, m⟩ = .ok outcome desk) :
    (∃ count, outcome = .cleaned count) ∨
      (∃ payload, outcome = .emitted ⟨payload, .int now⟩ ∧ ¬Digits.fit now = true) ∨
      ∃ sighting, Message.IsSeenAs outcome.message sighting ∧ sighting.line.IsPrintableAscii := by
  have hpassive : ∀ r ∈ s.feed.subscribers, r.isPassive = true := by
    intro r hr
    rw [hrecord r hr]
    rfl
  have hsettles := settles_handle hfeed hclock hpassive listener fields m
  rw [hhandle] at hsettles
  cases hsettles with
  | cleaned _ _ _ => exact .inl ⟨_, rfl⟩
  | @rejected call reason detail _ _ hpermits _ _ =>
      refine .inr (.inr ⟨_, Message.isSeenAs_rejected call reason detail, ?_⟩)
      apply Sighting.isPrintableAscii_line_rejected
      exact Call.isPrintableAscii_of_mem_reasons (hpermits.mem_reasons hlistener hrecord)
  | @emitted payload _ _ _ _ _ _ =>
      by_cases hfit : Digits.fit now = true
      · refine .inr (.inr ⟨_, Message.isSeenAs_emitted payload hfit, ?_⟩)
        exact Sighting.isPrintableAscii_line_emitted now payload
      · exact .inr (.inl ⟨payload, rfl, hfit⟩)

end Desk

namespace Message

variable [Limits]

/-- Accepted pushes that are seen on the same line have the same payload and the same time. -/
theorem emitted_inj_of_line_eq {payload payload' : Bytes} {time time' : Int}
    {sighting sighting' : Sighting}
    (hseen : IsSeenAs (emitted ⟨payload, .int time⟩) sighting)
    (hseen' : IsSeenAs (emitted ⟨payload', .int time'⟩) sighting')
    (hline : sighting.line = sighting'.line) : payload = payload' ∧ time = time' := by
  rw [hseen.eq_emitted, hseen'.eq_emitted] at hline
  exact (Sighting.line_emitted_inj hline).symm

end Message

namespace Desk

variable {ω : Type}

section

variable [Limits]

/-- The text of a request arrives and has exactly the effect of the operation, whoever has signed
it and whatever the payload, unless the log is ahead of the time and one of the two has too many
digits.  The message about what becomes of a request is made out by a watcher and shown on a line of
printable characters, unless it tells of an accepted push at a time with too many digits; and two
accepted pushes are shown alike only if they have the same payload and the same time. -/
theorem requests_mirror_operations (listener : Listener ω) (hlistener : listener.Accepts)
    (s : Session ω) (lifetime now : Int) (held : Option (List Stamp))
    (hfeed : s.feed.Carries lifetime held) (hclock : s.clock.Shows now)
    (hrecord : ∀ r ∈ s.feed.subscribers, r = .record) (hwords : HasWords now (held.getD []))
    (m : Metrics) :
    (∀ origin payload, ∃ text fields,
      Json.text? (Message.pushRequest (Message.signer origin) payload) = .ok text ∧
        Wire.decode (Utf8.encode text) = .ok fields ∧
        Mirrors .push .emitted
          (Session.push listener (Message.signer origin) (.bytes .fixed payload) s)
          (handle listener fields ⟨s, m⟩)) ∧
    (∃ text fields, Json.text? Message.cleanRequest = .ok text ∧
      Wire.decode (Utf8.encode text) = .ok fields ∧
      Mirrors .clean .cleaned (Session.clean s) (handle listener fields ⟨s, m⟩)) ∧
    (∀ fields outcome desk, handle listener fields ⟨s, m⟩ = .ok outcome desk →
      (∃ count, outcome = .cleaned count) ∨
        (∃ payload, outcome = .emitted ⟨payload, .int now⟩ ∧ ¬Digits.fit now = true) ∨
        ∃ sighting, Message.IsSeenAs outcome.message sighting ∧
          sighting.line.IsPrintableAscii) ∧
    ∀ (payload payload' : Bytes) (time time' : Int) (sighting sighting' : Sighting),
      Message.IsSeenAs (Message.emitted ⟨payload, .int time⟩) sighting →
      Message.IsSeenAs (Message.emitted ⟨payload', .int time'⟩) sighting' →
      sighting.line = sighting'.line → payload = payload' ∧ time = time' := by
  refine ⟨?_, ?_, ?_, ?_⟩
  · intro origin payload
    obtain ⟨text, htext⟩ := Message.exists_text?_pushRequest origin payload
    refine ⟨text, _, htext,
      Wire.decode_of_text? (Message.isPlain_pushRequest origin payload)
        (Message.depth_pushRequest origin payload) htext, ?_⟩
    rw [handle_pushRequest listener origin payload rfl]
    exact mirrors_push hlistener hfeed hclock hrecord hwords _ payload _
  · obtain ⟨text, htext⟩ := Message.exists_text?_cleanRequest
    refine ⟨text, _, htext,
      Wire.decode_of_text? Message.isPlain_cleanRequest Message.depth_cleanRequest htext, ?_⟩
    rw [handle_cleanRequest listener rfl]
    exact mirrors_clean hfeed hclock hwords _
  · intro fields outcome desk hhandle
    exact outcome_is_seen hlistener hfeed hclock hrecord hhandle
  · intro payload payload' time time' sighting sighting' hseen hseen' hline
    exact Message.emitted_inj_of_line_eq hseen hseen' hline

end

open scoped Limits

/-- A belated push of quotes, a backslash and what cannot be shown is refused in words; a timely one
is seen on one line. -/
theorem requests_mirror_operations_of_belated_push :
    let listener : Listener (List Note) := fun note notes => .ok (note :: notes)
    let feed : Feed :=
      ⟨"auth", .int 1000, some (Log.stamped 1000 [⟨[97], 1000⟩]), [.record], 0⟩
    let s : Session (List Note) := ⟨feed, Clock.showing (.int 500), []⟩
    let payload : Bytes := [0, 39, 34, 92, 255]
    (∃ text fields desk,
      Json.text? (Message.pushRequest (Message.signer (some "auth")) payload) = .ok text ∧
        Wire.decode (Utf8.encode text) = .ok fields ∧
        handle listener fields ⟨s, Metrics.zero⟩ =
          .ok (.rejected .push .stale "time 500 is older than latest entry at 1000") desk) ∧
    ∃ sighting, Message.IsSeenAs (Message.emitted ⟨payload, .int 2000⟩) sighting ∧
      sighting.line = Text.ofString "EMITTED   at=2000  data=b'\\x00\\'\"\\\\\\xff'" := by
  intro listener feed s payload
  have hlistener : listener.Accepts := fun note notes => ⟨note :: notes, rfl⟩
  have hfeed : s.feed.Carries 1000 (some [⟨[97], 1000⟩]) :=
    ⟨nofun, rfl, List.pairwise_singleton _ _⟩
  have hrecord : ∀ r ∈ s.feed.subscribers, r = .record := by decide
  have hwords : HasWords 500 [⟨[97], 1000⟩] := by
    intro latest hahead
    cases hahead
    exact ⟨by decide +kernel, by decide +kernel⟩
  have hclock : s.clock.Shows 500 := rfl
  obtain ⟨hpushes, -⟩ := requests_mirror_operations listener hlistener s 1000 500 _ hfeed hclock
    hrecord hwords Metrics.zero
  constructor
  · obtain ⟨text, fields, htext, hfields, hmirrors⟩ := hpushes (some "auth") payload
    have hvet : Feed.vet s.feed.authority 500 [⟨[97], 1000⟩] (.str "auth")
        (.bytes .fixed payload) = .error (.log (.stale (.int 500) (.int 1000))) := by
      rw [← Log.Fault.ofStale_of_fit (by decide +kernel) (by decide +kernel)]
      rfl
    have hpush := Session.push_refused hfeed hclock listener _ _ hvet
    have hmessage : Feed.Fault.message (.log (.stale (.int 500) (.int 1000))) =
        "time 500 is older than latest entry at 1000" := by decide +kernel
    rw [Message.signer, hpush] at hmirrors
    refine ⟨text, fields, ?_⟩
    generalize handle listener fields ⟨s, Metrics.zero⟩ = result at hmirrors
    cases hmirrors with
    | refused hreason =>
        cases hreason
        rw [hmessage]
        exact ⟨_, htext, hfields, rfl⟩
  · exact ⟨_, Message.isSeenAs_emitted payload (by decide +kernel), by decide +kernel⟩

/-- A request of the authority fails when the clock shows a time before the newest entry that has
too many digits. -/
theorem push_request_fails_without_words :
    let listener : Listener (List Note) := fun note notes => .ok (note :: notes)
    let feed : Feed :=
      ⟨"auth", .int 1000, some (Log.stamped 1000 [⟨[97], 1000⟩]), [.record], 0⟩
    let s : Session (List Note) := ⟨feed, Clock.showing (.int (-Nat.pow 10 4302)), []⟩
    ∃ text fields desk,
      Json.text? (Message.pushRequest (Message.signer (some "auth")) [97]) = .ok text ∧
        Wire.decode (Utf8.encode text) = .ok fields ∧
        handle listener fields ⟨s, Metrics.zero⟩ =
          .error (.feed (.log (.wordless .tooLong))) desk := by
  intro listener feed s
  have hfeed : s.feed.Carries 1000 (some [⟨[97], 1000⟩]) :=
    ⟨nofun, rfl, List.pairwise_singleton _ _⟩
  have hclock : s.clock.Shows (-Nat.pow 10 4302) := rfl
  have hahead : Stamp.ahead? (-Nat.pow 10 4302) [⟨[97], 1000⟩] = some 1000 := by
    decide +kernel
  have hfit : (Digits.fit (-Nat.pow 10 4302) && Digits.fit 1000) = false := by decide +kernel
  obtain ⟨text, htext⟩ := Message.exists_text?_pushRequest (some "auth") [97]
  refine ⟨text, _, ⟨s.ticked, Metrics.zero.countRequest .push⟩, htext,
    Wire.decode_of_text? (Message.isPlain_pushRequest (some "auth") [97])
      (Message.depth_pushRequest (some "auth") [97]) htext, ?_⟩
  rw [handle_pushRequest listener (some "auth") [97] rfl]
  exact push_without_words hfeed hclock listener [97] hahead hfit _

end Desk
end LiveFeed
