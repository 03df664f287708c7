/-
What a publisher sends, and what it says that it has sent.  It sends just what its command asks for,
as long as the broker refuses nothing.  What it says counts every request but the cleanups of a
stream.
-/
import LiveFeed.Proofs.Config
import LiveFeed.Proofs.Publisher.Carrying

namespace LiveFeed.Publisher

open Message (IsTold)

variable {arguments : List Text} {options : Options} {tree : FileTree} {config : Config}
  {refusals : List Nat} {chance : Chance} {streamed : Nat} {requests : List Value}

/-- The line that sums up a run. -/
def summary (count : Nat) : Text := "Done. " ++ toString count ++ " requests sent."

/-- The last line says how many requests have been sent. -/
def HasSummedUp (count : Nat) (s : State) : Prop :=
  s.output.printed.head? = some (summary count)

theorem Options.Signs.isTold {authority : Text} {origin : Value}
    (h : options.Signs authority origin) : IsTold origin := by
  cases h with
  | unsigned => exact .inl rfl
  | given => exact .inr ⟨_, rfl⟩
  | authority => exact .inr ⟨_, rfl⟩

/-- A publisher that has been started and asks for its client. -/
def State.opening (options : Options) (refusals : List Nat) (chance : Chance) : State :=
  { State.start refusals chance with
    outside := (Outside.start refusals).record (.producer (settings options)) }

theorem stands_opening (options : Options) (refusals : List Nat) (chance : Chance) :
    Stands chance [] 0 (State.opening options refusals chance) :=
  ⟨rfl, rfl, rfl⟩

/-- A stream can be carried out as it is without arguments, however often there are cleanups. -/
theorem isFeasible_default (every : Int) :
    Command.IsFeasible (.stream { Streaming.default with cleanEvery := every }) := by
  refine ⟨⟨1, rfl, by decide +kernel, by decide +kernel⟩, List.cons_ne_nil _ _, ?_⟩
  simp [Streaming.default]

section

variable [Limits]

theorem posts_opening (config : Config) (options : Options) (refusals : List Nat)
    (chance : Chance) : Posts config refusals [] (State.opening options refusals chance) :=
  (Outside.HasSent.start config.requestsTopic config.authority refusals).record nofun

/-- With arguments and a configuration a publisher obeys its command and sums up. -/
theorem run_eq (hread : Options.grammar.read Options.default arguments = .ok options)
    (hload : Config.load tree options.configFile = .ok config) (streamed : Nat) :
    run arguments tree streamed (State.start refusals chance) =
      (do
        obey config (options.originOf config.authority) streamed options.command
        ask .flush
        print (summary (← get).count))
        (State.opening options refusals chance) := by
  unfold run
  simp only [hread, hload]
  rfl

theorem sends_run (hread : Options.grammar.read Options.default arguments = .ok options)
    (hload : Config.load tree options.configFile = .ok config)
    (hshown : options.command.IsShown config)
    (hasks : options.command.Asks (options.originOf config.authority) chance streamed requests)
    (hauthority : requests ≠ [] → config.authority.hasHalf = false) :
    Sends config refusals requests (HasSummedUp (options.command.counted streamed))
      (run arguments tree streamed (State.start refusals chance)) := by
  have hobeys := sends_obey hshown hasks hauthority
    (options.signs_originOf config.authority).isTold
    (posts_opening config options refusals chance) (stands_opening options refusals chance)
  rw [run_eq hread hload]
  refine hobeys.andThen ?_
  intro t ht hcount
  rw [← hcount]
  exact .all (Outside.HasSent.record ht nofun) (show _ = some (summary t.count) from rfl)

/-- The line about a stream is shown if the name of the topic has octets: all else in it is. -/
theorem isShown_of_topic {command : Command} (htopic : ∀ streaming, command = .stream streaming →
    config.requestsTopic.hasHalf = false) : command.IsShown config := by
  intro streaming hstream
  apply Limits.unprinted?_eq_none
  simp [streamLine, Text.hasHalf_append, htopic streaming hstream]

/-- A publisher sends what its command asks for, and all its pushes carry the same origin: none if
they are unsigned, else the given one unless it is empty, else the authority.  What can be carried
out asks for requests, if chance hands out floats; in a stream there are as many pushes as readings
were made, and one cleanup for every so many of them.  Of these requests all are sent to the topic
of requests, in their order, or those before the first one that the broker refuses. -/
theorem run_sends_requests (hread : Options.grammar.read Options.default arguments = .ok options)
    (hload : Config.load tree options.configFile = .ok config)
    (hauthority : config.authority.hasHalf = false)
    (htopic : ∀ streaming, options.command = .stream streaming →
      config.requestsTopic.hasHalf = false)
    (refusals : List Nat) (chance : Chance) (streamed : Nat) :
    ∃ origin, options.Signs config.authority origin ∧
      (options.command.IsFeasible → chance.HandsOutFloats →
        ∃ requests, options.command.Asks origin chance streamed requests) ∧
      ∀ requests, options.command.Asks origin chance streamed requests →
        requests.length = options.command.counted streamed + options.command.uncounted streamed ∧
          Sends config refusals requests (HasSummedUp (options.command.counted streamed))
            (run arguments tree streamed (State.start refusals chance)) := by
  refine ⟨_, options.signs_originOf config.authority, ?_, ?_⟩
  · intro hfeasible hchance
    exact hfeasible.exists_asks _ hchance streamed
  · intro requests hasks
    exact ⟨hasks.length_eq,
      sends_run hread hload (isShown_of_topic htopic) hasks fun _ => hauthority⟩

end

section

open scoped Limits

/-- A configuration may name an authority without octets: then nothing is sent. -/
theorem push_fails_at_halves :
    let document := "authority: \"\\ud83d\\ude00\"\nlifetime_ms: 10\n"
    let tree := FileTree.empty.build (Path.ofText defaultConfigFile) (.file (Utf8.encode document))
    let options : Options := { Options.default with command := .push ["x"] }
    let authority : Text := ⟨[.half 0x3D, .half 0x600]⟩
    Options.grammar.read Options.default ["push", "x"] = .ok options ∧
      Config.load tree options.configFile =
        .ok ⟨authority, 10, "oracle-requests", "oracle-events"⟩ ∧
      ∃ fault s, run ["push", "x"] tree 0 (State.start [] ⟨[], [], []⟩) = .error fault s ∧
        s.outside.sent = [] := by
  intro document tree options authority
  have hread : Options.grammar.read Options.default ["push", "x"] = .ok options := rfl
  have hload : Config.load tree options.configFile =
      .ok ⟨authority, 10, "oracle-requests", "oracle-events"⟩ := by decide +kernel
  refine ⟨hread, hload, ?_⟩
  rw [run_eq hread hload]
  exact ⟨_, _, rfl, rfl⟩

/-- A stream in the name of another one than the authority, with a cleanup after every second
reading: seven requests for five readings, of which the broker may refuse the fifth. -/
theorem run_sends_requests_of_five_readings :
    let document := "authority: ann\nlifetime_ms: 10\n"
    let tree := FileTree.empty.build (Path.ofText defaultConfigFile) (.file (Utf8.encode document))
    let arguments : List Text := ["--origin", "bob", "stream", "--clean-every", "-2"]
    let options : Options := { Options.default with
      origin := some "bob", command := .stream { Streaming.default with cleanEvery := -2 } }
    Options.grammar.read Options.default arguments = .ok options ∧
      ∃ requests, options.command.Asks (.str "bob") ⟨[], [], []⟩ 5 requests ∧
        requests.length = 7 ∧
        (∃ s, run arguments tree 5 (State.start [] ⟨[], [], []⟩) = .ok () s ∧
          s.outside.sent.length = 7) ∧
        ∃ s, run arguments tree 5 (State.start [4] ⟨[], [], []⟩) = .error .queueFull s ∧
          s.outside.sent.length = 4 := by
  intro document tree arguments options
  have hread : Options.grammar.read Options.default arguments = .ok options := rfl
  have hchance : Chance.HandsOutFloats ⟨[], [], []⟩ := ⟨nofun, nofun⟩
  have hbob {origin : Value} (h : options.Signs "ann" origin) : origin = .str "bob" := by
    cases h with
    | unsigned hunsigned => cases hunsigned
    | given _ hgiven _ =>
        cases hgiven
        rfl
    | authority _ hempty => exact absurd (hempty _ rfl) (by decide)
  have htopic : ∀ streaming, options.command = .stream streaming →
      Text.hasHalf "oracle-requests" = false := fun _ _ => rfl
  have hall := run_sends_requests hread Config.load_two_lines rfl htopic [] ⟨[], [], []⟩ 5
  have hsome := run_sends_requests hread Config.load_two_lines rfl htopic [4] ⟨[], [], []⟩ 5
  obtain ⟨origin, hsigns, hasks, hsends⟩ := hall
  obtain ⟨origin', hsigns', -, hsends'⟩ := hsome
  cases hbob hsigns
  cases hbob hsigns'
  obtain ⟨requests, hasks⟩ := hasks (isFeasible_default (-2)) hchance
  obtain ⟨hlength, hsends⟩ := hsends requests hasks
  obtain ⟨-, hsends'⟩ := hsends' requests hasks
  refine ⟨hread, requests, hasks, hlength, ?_, ?_⟩
  · generalize run arguments tree 5 (State.start [] ⟨[], [], []⟩) = result at hsends ⊢
    cases hsends with
    | all hposts _ => exact ⟨_, rfl, (Outside.HasSent.length_sent hposts).trans hlength⟩
    | refused _ hrefused _ => cases hrefused
  · generalize run arguments tree 5 (State.start [4] ⟨[], [], []⟩) = result at hsends' ⊢
    cases hsends' with
    | all hposts _ =>
        have hfifth : 4 < requests.length := by
          rw [hlength]
          decide
        exact absurd (List.mem_singleton_self 4) (Outside.HasSent.accepted hposts 4 hfifth)
    | refused _ hrefused hposts =>
        exact ⟨_, rfl, (Outside.HasSent.length_sent hposts).trans (List.mem_singleton.mp hrefused)⟩

end

section

variable [Limits]

/-- What a publisher says that it has sent is what it has sent but for the cleanups of a stream, as
long as the broker refuses nothing: the two agree unless a stream has come to its first cleanup.  A
command that can be carried out is, and whatever else comes to its end counts in the same way. -/
theorem run_counts_all_but_cleanups
    (hread : Options.grammar.read Options.default arguments = .ok options)
    (hload : Config.load tree options.configFile = .ok config) (chance : Chance)
    (streamed : Nat) :
    let result := run arguments tree streamed (State.start [] chance)
    let count := options.command.counted streamed
    (config.authority.hasHalf = false →
      (∀ streaming, options.command = .stream streaming → config.requestsTopic.hasHalf = false) →
      options.command.IsFeasible → chance.HandsOutFloats → ∃ s, result = .ok () s) ∧
    ∀ s, result = .ok () s →
      HasSummedUp count s ∧
        (∀ action ∈ s.outside.sent,
          ∃ text, action = .produce config.requestsTopic config.authority text) ∧
        s.outside.sent.length = count + options.command.uncounted streamed ∧
        (s.outside.sent.length = count ↔
          ∀ streaming, options.command = .stream streaming → streaming.cleanEvery ≠ 0 →
            streamed < streaming.cleanEvery.natAbs) := by
  intro result count
  refine ⟨?_, ?_⟩
  · intro hauthority htopic hfeasible hchance
    obtain ⟨requests, hasks⟩ :=
      hfeasible.exists_asks (options.originOf config.authority) hchance streamed
    have hsends : Sends config [] requests (HasSummedUp count) result :=
      sends_run hread hload (isShown_of_topic htopic) hasks fun _ => hauthority
    generalize result = ended at hsends ⊢
    cases hsends with
    | all hposts hsummed => exact ⟨_, rfl⟩
    | refused hsplit hrefused hposts => cases hrefused
  · intro s hrun
    obtain ⟨_, t, hobey, -⟩ := exists_of_bind_ok ((run_eq hread hload streamed).symm.trans hrun)
    obtain ⟨requests, hasks, hshown, hnamed⟩ := exists_asks_of_obey
      (options.signs_originOf config.authority).isTold (posts_opening config options [] chance)
      (stands_opening options [] chance) hobey
    have hsends : Sends config [] requests (HasSummedUp count) result :=
      sends_run hread hload hshown hasks hnamed
    rw [hrun] at hsends
    cases hsends with
    | all hposts hsummed =>
        have hlength : s.outside.sent.length = count + options.command.uncounted streamed :=
          (Outside.HasSent.length_sent hposts).trans hasks.length_eq
        refine ⟨hsummed, fun _ => Outside.HasSent.exists_text_of_mem hposts, hlength, ?_⟩
        rw [hlength, Nat.add_eq_left]
        exact options.command.uncounted_eq_zero_iff streamed

end

open scoped Limits

/-- One reading and the cleanup after it are counted as one request. -/
theorem run_counts_all_but_cleanups_of_one_reading :
    let document := "authority: ann\nlifetime_ms: 10\n"
    let tree := FileTree.empty.build (Path.ofText defaultConfigFile) (.file (Utf8.encode document))
    let arguments : List Text := ["stream", "--clean-every", "1"]
    ∃ s, run arguments tree 1 (State.start [] ⟨[], [], []⟩) = .ok () s ∧ HasSummedUp 1 s ∧
      s.outside.sent.length = 2 := by
  intro document tree arguments
  let options : Options := { Options.default with
    command := .stream { Streaming.default with cleanEvery := 1 } }
  have hread : Options.grammar.read Options.default arguments = .ok options := rfl
  obtain ⟨hends, hcounts⟩ := run_counts_all_but_cleanups hread Config.load_two_lines ⟨[], [], []⟩ 1
  obtain ⟨s, hrun⟩ := hends rfl (fun _ _ => rfl) (isFeasible_default 1) ⟨nofun, nofun⟩
  obtain ⟨hsummed, -, hlength, -⟩ := hcounts s hrun
  exact ⟨s, hrun, hsummed, hlength⟩

end LiveFeed.Publisher
