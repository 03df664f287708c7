/-
A watcher counts every message once, under its own kind, and goes on to the last one whatever the
messages hold.  Which of the events it shows is all that depends on its arguments.
-/
import LiveFeed.Proofs.Json.Wording
import LiveFeed.Proofs.Text.Hex
import LiveFeed.Proofs.Value.Order
import LiveFeed.Watcher.Run

namespace LiveFeed

namespace Sighting

/-- The event that the fields of an object tell of: an accepted push, with its payload as
hexadecimal text, or a request that was refused. -/
inductive Told (fields : List (Text × Value)) : Sighting → Prop where
  | emitted {text : Text} {data : Bytes}
      (hkind : Value.field? fields "event" = some (.str "emitted"))
      (hdata : Value.field? fields "data" = some (.str text))
      (hspells : Hex.Spells text.chars data) :
      Told fields (.emitted (detail fields "recorded_at") data)
  | rejected (hkind : Value.field? fields "event" = some (.str "rejected")) :
      Told fields (.rejected (detail fields "call") (detail fields "error"))

variable {fields : List (Text × Value)} {sighting : Sighting}

theorem detail_eq_str_iff {key : String} {text : Text} :
    detail fields key = .str text ↔ Value.field? fields key = some (.str text) := by
  rw [detail]
  cases Value.field? fields key <;> simp

theorem data_eq_ok_iff {data : Bytes} :
    Sighting.data fields = .ok data ↔
      ∃ text, Value.field? fields "data" = some (.str text) ∧ Hex.Spells text.chars data := by
  rw [Sighting.data]
  cases hdata : Value.field? fields "data" with
  | none => simp
  | some v =>
      cases v with
      | str text => simp [mapError_eq_ok_iff, Hex.decode_eq_ok_iff]
      | _ => simp

/-- From its fields an object is taken for the event it tells of, and for no other. -/
theorem ofFields_eq_ok_iff : ofFields fields = .ok sighting ↔ Told fields sighting := by
  constructor
  · intro h
    rw [ofFields] at h
    split at h
    · next hkind =>
        obtain ⟨data, hdata, h⟩ := bind_eq_ok_iff.mp h
        cases h
        obtain ⟨text, htext, hspells⟩ := data_eq_ok_iff.mp hdata
        exact .emitted (detail_eq_str_iff.mp (Value.same_str_iff.mp hkind)) htext hspells
    · split at h
      · next hkind =>
          cases h
          exact .rejected (detail_eq_str_iff.mp (Value.same_str_iff.mp hkind))
      · cases h
  · rintro (⟨hkind, hdata, hspells⟩ | hkind)
    · have hsame := Value.same_str_iff.mpr (detail_eq_str_iff.mpr hkind)
      have hdecoded := data_eq_ok_iff.mpr ⟨_, hdata, hspells⟩
      simp only [ofFields, hsame, hdecoded, bind, Except.bind, pure, Except.pure, if_true]
    · have hdetail := detail_eq_str_iff.mpr hkind
      have hother : (detail fields "event").same (.str "emitted") = false := by
        rw [hdetail, ← Bool.not_eq_true, Value.same_str_iff]
        intro h
        exact absurd (Value.str.inj h) (by decide)
      have hsame := Value.same_str_iff.mpr hdetail
      simp only [ofFields, hother, hsame, Bool.false_eq_true, if_false, if_true]

end Sighting

/-- The value of a message, if the broker gave one. -/
def Poll.octets? : Poll → Option Bytes
  | .message value => value
  | .nothing | .failure _ _ => none

section

variable [Limits]

/-- Whether what the broker gave can be read: a message has a value, and what it holds is not nested
too deeply. -/
def Poll.isReadable : Poll → Bool
  | .message none => false
  | .message (some octets) =>
      match Wire.decode octets with
      | .error fault => !fault.isTooDeep
      | .ok _ => true
  | .nothing | .failure _ _ => true

namespace Tally

/-- Counts a message under its kind. -/
def note (t : Tally) (octets : Bytes) : Tally :=
  match Watcher.sight octets with
  | .ok sighting => t.count sighting
  | .error _ => t.countMalformed

end Tally

end

namespace Watcher

/-- Whether an event is shown. -/
def Options.shows (options : Options) (sighting : Sighting) : Bool :=
  !options.rejectedOnly || sighting.isRejected

/-- Either every event is shown, or only the refused requests. -/
theorem filter_shows (options : Options) (seen : List Sighting) :
    seen.filter options.shows =
      if options.rejectedOnly then seen.filter Sighting.isRejected else seen := by
  cases hrejected : options.rejectedOnly with
  | true =>
      apply List.filter_congr
      intro sighting _
      rw [Options.shows, hrejected]
      rfl
  | false =>
      apply List.filter_eq_self.mpr
      intro sighting _
      rw [Options.shows, hrejected]
      rfl

section

variable [Limits]

/-- The events that messages tell of, in their order. -/
def sightings (messages : List Bytes) : List Sighting :=
  messages.filterMap fun octets => (sight octets).toOption

/-- The line about what went wrong, if something did. -/
def complaint? : Poll → Option Text
  | .nothing | .message none => none
  | .failure code text =>
      if code = Poll.endOfPartition then none else some ("Consumer error: " ++ text)
  | .message (some octets) =>
      match sight octets with
      | .ok _ => none
      | .error fault => some ("Skipping malformed event: " ++ fault.message)

/-- The lines of the events that are shown. -/
def Options.lines (options : Options) (polls : List Poll) : List Text :=
  ((sightings (polls.filterMap Poll.octets?)).filter options.shows).map Sighting.line

/-- A watcher that has taken note of what it was given. -/
def State.noted (s : State) (options : Options) (polls : List Poll) : State :=
  { s with
    output := ⟨(options.lines polls).reverse ++ s.output.printed,
      (polls.filterMap complaint?).reverse ++ s.output.reported⟩
    tally := (polls.filterMap Poll.octets?).foldl Tally.note s.tally }

variable {options : Options} {s : State}

theorem sight_eq_ok_iff {octets : Bytes} {sighting : Sighting} :
    sight octets = .ok sighting ↔
      ∃ fields, Wire.decode octets = .ok fields ∧ Sighting.Told fields sighting := by
  simp only [sight, bind_eq_ok_iff, mapError_eq_ok_iff, Sighting.ofFields_eq_ok_iff]

theorem noted_message (s : State) (options : Options) (octets : Bytes) :
    s.noted options [.message (some octets)] =
      { s with
        output := ⟨((((sight octets).toOption.toList).filter options.shows).map
            Sighting.line).reverse ++ s.output.printed,
          (complaint? (.message (some octets))).toList ++ s.output.reported⟩
        tally := s.tally.note octets } := by
  simp only [State.noted, Options.lines, sightings, List.filterMap_cons, List.filterMap_nil,
    Poll.octets?, List.foldl_cons, List.foldl_nil]
  cases (sight octets).toOption <;> cases complaint? (.message (some octets)) <;> rfl

/-- A message that tells of an event is counted, and the event may be shown. -/
theorem note_of_sighting {octets : Bytes} {sighting : Sighting}
    (hsight : sight octets = .ok sighting) (options : Options) (s : State) :
    note options octets s = .ok () (s.noted options [.message (some octets)]) := by
  rw [noted_message]
  simp only [note, hsight, complaint?, Tally.note, Except.toOption, Option.toList_some]
  by_cases hshown : options.shows sighting = true
  · rw [List.filter_cons_of_pos hshown]
    rw [Options.shows] at hshown
    simp only [hshown]
    rfl
  · rw [List.filter_cons_of_neg hshown]
    rw [Options.shows] at hshown
    simp only [hshown]
    rfl

theorem decode_of_sight_error {octets : Bytes} {fault : Wire.Fault}
    (h : sight octets = .error (.wire fault)) : Wire.decode octets = .error fault := by
  rcases bind_eq_error_iff.mp h with hdecode | ⟨fields, -, hfields⟩
  · obtain ⟨cause, hcause, heq⟩ := mapError_eq_error_iff.mp hdecode
    cases heq
    exact hcause
  · obtain ⟨cause, -, heq⟩ := mapError_eq_error_iff.mp hfields
    cases heq

/-- A message that tells of no event is counted too, and reported. -/
theorem note_of_malformed {octets : Bytes} {fault : Malformed}
    (hsight : sight octets = .error fault)
    (hreadable : (Poll.message (some octets)).isReadable = true) (options : Options) (s : State) :
    note options octets s = .ok () (s.noted options [.message (some octets)]) := by
  have hnote : note options octets = (do
      modify fun s => { s with tally := s.tally.countMalformed }
      report ("Skipping malformed event: " ++ fault.message)) := by
    unfold note
    split
    · next nest hdeep =>
        rw [Poll.isReadable, decode_of_sight_error hdeep] at hreadable
        cases hreadable
    · next hother =>
        rw [hsight] at hother
        cases hother
        rfl
    · next hother =>
        rw [hsight] at hother
        cases hother
  rw [noted_message, hnote]
  simp only [complaint?, Tally.note, hsight, Except.toOption]
  rfl

/-- One result is taken note of. -/
theorem step_eq {poll : Poll} (h : poll.isReadable = true) (options : Options) (s : State) :
    step options poll s = .ok () (s.noted options [poll]) := by
  cases poll with
  | nothing => rfl
  | failure code text =>
      by_cases hcode : code = Poll.endOfPartition
      · have hquiet : complaint? (.failure code text) = none := if_pos hcode
        simp only [step, if_pos hcode, State.noted, List.filterMap_cons, hquiet]
        rfl
      · have hloud : complaint? (.failure code text) = some ("Consumer error: " ++ text) :=
          if_neg hcode
        simp only [step, if_neg hcode, State.noted, List.filterMap_cons, hloud]
        rfl
  | message value =>
      cases value with
      | none => cases h
      | some octets =>
          cases hsight : sight octets with
          | ok sighting => exact note_of_sighting hsight options s
          | error fault => exact note_of_malformed hsight h options s

theorem noted_noted (s : State) (options : Options) (polls rest : List Poll) :
    (s.noted options polls).noted options rest = s.noted options (polls ++ rest) := by
  simp only [State.noted, Options.lines, sightings, List.filterMap_append, List.filter_append,
    List.map_append, List.reverse_append, List.append_assoc, List.foldl_append]

/-- Everything that the broker gives is taken note of, one after the other. -/
theorem watch_eq {polls : List Poll} (h : ∀ poll ∈ polls, poll.isReadable = true)
    (options : Options) (s : State) :
    watch options polls s =
      .ok () { s.noted options polls with
        output := ((s.noted options polls).output.print "").print "Shutting down watcher..." } := by
  induction polls generalizing s with
  | nil => rfl
  | cons poll rest ih =>
      obtain ⟨hpoll, hrest⟩ := List.forall_mem_cons.mp h
      rw [watch, bind_of_ok (step_eq hpoll options s), ih hrest, noted_noted]
      rfl

/-! The tally -/

theorem sightings_cons (octets : Bytes) (rest : List Bytes) :
    sightings (octets :: rest) = (sight octets).toOption.toList ++ sightings rest := by
  rw [sightings, List.filterMap_cons]
  cases (sight octets).toOption <;> rfl

/-- Every message adds one to the count of its kind. -/
theorem tally_of_notes (messages : List Bytes) (t : Tally) :
    messages.foldl Tally.note t =
      ⟨t.emitted + (sightings messages).countP (!·.isRejected),
        t.rejected + (sightings messages).countP (·.isRejected),
        t.malformed + messages.countP fun octets => (sight octets).toOption.isNone⟩ := by
  induction messages generalizing t with
  | nil => rfl
  | cons octets rest ih =>
      rw [List.foldl_cons, ih, sightings_cons]
      cases hsight : sight octets with
      | ok sighting =>
          cases hrejected : sighting.isRejected <;>
            simp [Tally.note, Tally.count, hsight, hrejected, Except.toOption, Nat.add_assoc,
              Nat.add_comm 1]
      | error fault =>
          simp [Tally.note, Tally.countMalformed, hsight, Except.toOption, Nat.add_assoc,
            Nat.add_comm 1]

/-- A message tells of an event or does not. -/
theorem length_sightings_add (messages : List Bytes) :
    (sightings messages).length +
      messages.countP (fun octets => (sight octets).toOption.isNone) = messages.length := by
  induction messages with
  | nil => rfl
  | cons octets rest ih =>
      rw [List.length_cons, ← ih, sightings_cons]
      cases hsight : sight octets <;> simp [hsight, Except.toOption] <;> omega

/-! The whole run -/

theorem run_eq {polls : List Poll} (h : ∀ poll ∈ polls, poll.isReadable = true)
    {arguments : List Text} (hread : Options.grammar.read Options.default arguments = .ok options) :
    ∃ outside, run arguments polls State.start =
      .ok () { State.start.noted options polls with
        outside
        output := (((State.start.noted options polls).output.print "").print
          "Shutting down watcher...").print (State.start.noted options polls).tally.text } := by
  let begun : State :=
    { State.start with
      outside := (State.start.outside.record
        (.consumer (Settings.ofGroup options.servers options.group))).record
          (.subscribe options.topic) }
  have hcaught : (tryCatch (watch options polls) fun fault => do
      finish
      throw fault) begun = .ok () _ := tryCatch_of_ok (watch_eq h options begun)
  refine ⟨begun.outside.record .close, ?_⟩
  unfold run
  rw [hread]
  exact (bind_of_ok hcaught).trans rfl

/-- A watcher counts every message once.  The fields of an object are taken for the event that they
tell of and for no other, and what is read of a message can be put in words.  Whatever messages come
in between other results, as long as they have values that are not nested too deeply, a watcher goes
through all of them: it counts every message under its kind, reports what went wrong, shows the
events in their order and sums up.  The lines of the events depend on its arguments only through
`--rejected-only`, with which they are those of the refused requests; the tally and the reports do
not depend on the arguments. -/
theorem run_counts_every_message {polls : List Poll}
    (hreadable : ∀ poll ∈ polls, poll.isReadable = true) :
    (∀ fields sighting, Sighting.ofFields fields = .ok sighting ↔ Sighting.Told fields sighting) ∧
      (∀ octets fields, Wire.decode octets = .ok fields →
        ∀ f ∈ fields, f.2.wordless? = none) ∧
      (∀ octets sighting, sight octets = .ok sighting ↔
        ∃ fields, Wire.decode octets = .ok fields ∧ Sighting.Told fields sighting) ∧
      let messages := polls.filterMap Poll.octets?
      let seen := sightings messages
      ∃ tally : Tally,
        tally.emitted = seen.countP (!·.isRejected) ∧ tally.rejected = seen.countP (·.isRejected) ∧
          tally.malformed = messages.countP (fun octets => (sight octets).toOption.isNone) ∧
          tally.emitted + tally.rejected + tally.malformed = messages.length ∧
          ∀ arguments options, Options.grammar.read Options.default arguments = .ok options →
            ∃ s, run arguments polls State.start = .ok () s ∧ s.tally = tally ∧
              s.output.reported.reverse = polls.filterMap complaint? ∧
              s.output.printed.reverse =
                (if options.rejectedOnly then seen.filter Sighting.isRejected else seen).map
                    Sighting.line ++
                  ([.ofString "", .ofString "Shutting down watcher...",
                    .ofString tally.text] : List Text) := by
  refine ⟨fun _ _ => Sighting.ofFields_eq_ok_iff, fun _ _ => Wire.wordless_of_decode,
    fun _ _ => sight_eq_ok_iff, ?_⟩
  intro messages seen
  have hkinds : seen.length = seen.countP (·.isRejected) + seen.countP (!·.isRejected) := by
    simpa using List.length_eq_countP_add_countP (fun sighting : Sighting => sighting.isRejected)
  have hall : seen.length +
      messages.countP (fun octets => (sight octets).toOption.isNone) = messages.length :=
    length_sightings_add messages
  have htally := tally_of_notes messages Tally.zero
  refine ⟨messages.foldl Tally.note Tally.zero, ?_, ?_, ?_, ?_, ?_⟩
  · rw [htally]
    exact Nat.zero_add _
  · rw [htally]
    exact Nat.zero_add _
  · rw [htally]
    exact Nat.zero_add _
  · rw [htally]
    change 0 + seen.countP (!·.isRejected) + (0 + seen.countP (·.isRejected)) +
      (0 + messages.countP fun octets => (sight octets).toOption.isNone) = messages.length
    omega
  · intro arguments options hread
    obtain ⟨outside, hrun⟩ := run_eq hreadable hread
    refine ⟨_, hrun, rfl, ?_, ?_⟩
    · exact (congrArg List.reverse (List.append_nil _)).trans (List.reverse_reverse _)
    · have hprinted : (State.start.noted options polls).output.printed =
          (options.lines polls).reverse := List.append_nil _
      simp only [Output.print, hprinted, List.reverse_cons, List.reverse_reverse,
        List.append_assoc, List.singleton_append, Options.lines, filter_shows]
      rfl

end

open scoped Limits

/-- Between other results come an accepted push, octets that are no text, and a refusal.  Shown are
both events, or the refusal only. -/
theorem run_counts_every_message_of_three :
    let polls : List Poll := [.nothing,
      .message (some (Utf8.encode
        "\x7b\"event\": \"emitted\", \"recorded_at\": 3, \"data\": \"0a\"\x7d")),
      .failure Poll.endOfPartition "", .failure 3 "down", .message (some [0xff]),
      .message (some (Utf8.encode "\x7b\"event\": \"rejected\"\x7d"))]
    let closing : List Text :=
      ["", "Shutting down watcher...", "Done. 1 emitted, 1 rejected, 1 malformed."]
    ∃ s t, run [] polls State.start = .ok () s ∧
      run ["--rejected-only"] polls State.start = .ok () t ∧
      s.tally = ⟨1, 1, 1⟩ ∧ t.tally = ⟨1, 1, 1⟩ ∧ t.output.reported = s.output.reported ∧
      s.output.printed.reverse = .ofString "EMITTED   at=3  data=b'\\n'" ::
        .ofString "REJECTED  call=None  error=None" :: closing ∧
      t.output.printed.reverse = .ofString "REJECTED  call=None  error=None" :: closing := by
  intro polls closing
  have hreadable : ∀ poll ∈ polls, poll.isReadable = true := by decide +kernel
  obtain ⟨-, -, -, tally, hemitted, hrejected, hmalformed, -, hrun⟩ :=
    run_counts_every_message hreadable
  have htally : tally = ⟨1, 1, 1⟩ := by
    obtain ⟨emitted, rejected, malformed⟩ := tally
    rw [Tally.mk.injEq]
    exact ⟨hemitted.trans (by decide +kernel), hrejected.trans (by decide +kernel),
      hmalformed.trans (by decide +kernel)⟩
  have hfew : Options.grammar.read Options.default ["--rejected-only"] =
      .ok { Options.default with rejectedOnly := true } :=
    toOption_eq_some_iff.mp (by decide +kernel)
  obtain ⟨s, hs, hcounted, hreported, hprinted⟩ := hrun [] Options.default rfl
  obtain ⟨t, ht, hcounted', hreported', hprinted'⟩ := hrun ["--rejected-only"] _ hfew
  refine ⟨s, t, hs, ht, hcounted.trans htally, hcounted'.trans htally, ?_, ?_, ?_⟩
  · rw [← List.reverse_inj, hreported, hreported']
  · rw [hprinted, htally]
    decide +kernel
  · rw [hprinted', htally]
    decide +kernel

end Watcher
end LiveFeed
