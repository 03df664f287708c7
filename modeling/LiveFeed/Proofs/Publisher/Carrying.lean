/-
What a publisher has done that has come to its end.  Nothing has kept it from carrying out its
command: every payload had octets, and every round of a stream a reading.
-/
import LiveFeed.Proofs.Publisher.Sending

namespace LiveFeed.Publisher

open Message (IsTold)

variable {config : Config} {refusals : List Nat} {requests : List Value} {s t : State}
  {origin request : Value} {chance : Chance} {prices : Prices} {count : Nat}

theorem drawChoice?_of_chooseFeed {feed : Text} {feeds : List Text}
    (h : chooseFeed feeds s = .ok feed t) :
    ∃ chosen, s.chance.drawChoice? feeds = (some feed, chosen) := by
  rw [chooseFeed_eq] at h
  cases hdraw : s.chance.drawChoice? feeds with
  | mk drawn chosen =>
      rw [hdraw] at h
      cases drawn with
      | none => cases h
      | some drawn =>
          cases h
          exact ⟨chosen, rfl⟩

theorem step_of_nextReading {feed : Text} {reading : Bytes}
    (h : nextReading feed s = .ok reading t) :
    ∃ start started change changed later, s.chance.drawUniform = (start, started) ∧
      started.drawGauss = (change, changed) ∧
      Prices.step feed start change s.prices = .ok reading later := by
  rw [nextReading_eq] at h
  dsimp only at h
  cases hstep : Prices.step feed s.chance.drawUniform.1 s.chance.drawUniform.2.drawGauss.1
      s.prices with
  | ok made later =>
      rw [hstep] at h
      cases h
      exact ⟨_, _, _, _, later, rfl, rfl, hstep⟩
  | error fault later =>
      rw [hstep] at h
      cases h

variable [Limits]

/-- Nothing is sent in the name of an authority without octets. -/
theorem named_of_send (h : send config request s = .ok () t) :
    config.authority.hasHalf = false := by
  obtain ⟨octets, u, hoctets, -⟩ := exists_of_bind_ok h
  exact Utf8.exists_encodeText_iff.mp ⟨octets, (octetsOf_eq_ok_iff.mp hoctets).1⟩

theorem named_of_sendPush {payload : Bytes} (h : sendPush config origin payload s = .ok () t) :
    config.authority.hasHalf = false := by
  obtain ⟨_, u, hsend, -⟩ := exists_of_bind_ok h
  exact named_of_send hsend

/-- What has been pushed are the octets of the payloads. -/
theorem exists_octets_of_pushes {payloads : List Text}
    (h : (payloads.forM fun payload => do sendPush config origin (← octetsOf payload)) s =
      .ok () t) :
    ∃ octets, List.Forall₂ (fun text os => Utf8.encodeText text = .ok os) payloads octets ∧
      (octets ≠ [] → config.authority.hasHalf = false) := by
  induction payloads generalizing s with
  | nil => exact ⟨[], .nil, fun hne => absurd rfl hne⟩
  | cons payload rest ih =>
      obtain ⟨_, u, hfirst, hrest⟩ := exists_of_bind_ok h
      obtain ⟨os, v, hoctets, hpush⟩ := exists_of_bind_ok hfirst
      obtain ⟨octets, hall, -⟩ := ih hrest
      obtain ⟨hencode, -⟩ := octetsOf_eq_ok_iff.mp hoctets
      exact ⟨os :: octets, .cons hencode hall, fun _ => named_of_sendPush hpush⟩

section Rounds

variable {streaming : Streaming} {feed : Text} {reading : Bytes} {delay : Float}

/-- What has been shown could be. -/
theorem unprinted?_of_display {line : Text} (h : display line s = .ok () t) :
    Limits.unprinted? line = none := by
  cases hline : Limits.unprinted? line with
  | none => rfl
  | some fault =>
      simp only [display, hline] at h
      cases h

theorem unslept?_of_wait (h : wait delay s = .ok () t) : Limits.unslept? delay = none := by
  cases hdelay : Limits.unslept? delay with
  | none => rfl
  | some fault =>
      simp only [wait, hdelay] at h
      cases h

/-- A round that has come to its end has slept. -/
theorem unslept?_of_round (h : round config origin streaming delay s = .ok () t) :
    Limits.unslept? delay = none := by
  obtain ⟨_, _, -, h⟩ := exists_of_bind_ok h
  obtain ⟨_, _, -, h⟩ := exists_of_bind_ok h
  obtain ⟨_, u, -, h⟩ := exists_of_bind_ok h
  rw [bind_get] at h
  have hrest {v : State} (h : (if u.count % progressInterval = 0 then do
      let _ ← print ("  ... " ++ toString u.count ++ " requests sent")
      wait delay
    else wait delay) v = .ok () t) : Limits.unslept? delay = none := by
    split at h
    · obtain ⟨_, _, -, h⟩ := exists_of_bind_ok h
      exact unslept?_of_wait h
    · exact unslept?_of_wait h
  dsimp only at h
  split at h
  · obtain ⟨_, _, -, h⟩ := exists_of_bind_ok h
    exact hrest h
  · exact hrest h

/-- Every round has had a reading. -/
theorem exists_readings_of_rounds (horigin : IsTold origin) {n : Nat}
    (h : Posts config refusals requests s) (hstands : Stands chance prices count s)
    (hrun : rounds config origin streaming delay n s = .ok () t) :
    ∃ readings, readings.length = n ∧ Readings streaming.feeds chance prices readings ∧
      (readings ≠ [] → config.authority.hasHalf = false) ∧
      (readings ≠ [] → Limits.unslept? delay = none) := by
  induction n generalizing requests chance prices count s with
  | zero => exact ⟨[], rfl, .done, fun hne => absurd rfl hne, fun hne => absurd rfl hne⟩
  | succ n ih =>
      obtain ⟨_, u, hround, hrest⟩ := exists_of_bind_ok hrun
      obtain ⟨feed, v, hchoose, hmake⟩ := exists_of_bind_ok hround
      obtain ⟨reading, w, hread, hsend⟩ := exists_of_bind_ok hmake
      obtain ⟨_, x, hpush, -⟩ := exists_of_bind_ok hsend
      have hnamed := named_of_sendPush hpush
      have hslept := unslept?_of_round hround
      obtain ⟨chosen, hfeed⟩ := drawChoice?_of_chooseFeed hchoose
      rw [hstands.chance_eq] at hfeed
      obtain ⟨v', hchoose', hv, hdrawn⟩ := exists_chooseFeed h hstands hfeed
      rw [hchoose'] at hchoose
      cases hchoose
      obtain ⟨start, started, change, changed, later, hstart, hchange, hstep⟩ :=
        step_of_nextReading hread
      rw [hdrawn.chance_eq] at hstart
      rw [hdrawn.prices_eq] at hstep
      -- Now that its reading is known, what the round sends says where it leaves off.
      have hsends := sends_round hnamed horigin hslept h hstands hfeed hstart hchange hstep
      rw [hround] at hsends
      cases hsends with
      | all hu hthere =>
          obtain ⟨rest, hlength, hreadings, -⟩ := ih hu hthere hrest
          exact ⟨reading :: rest, congrArg (· + 1) hlength,
            .next hfeed hstart hchange hstep hreadings, fun _ => hnamed, fun _ => hslept⟩

end Rounds

/-- A command that has been carried out has asked for something and could be shown, and nothing has
been sent in the name of an authority without octets. -/
theorem exists_asks_of_obey (horigin : IsTold origin) {streamed : Nat} {command : Command}
    (h : Posts config refusals [] s) (hstands : Stands chance [] 0 s)
    (hrun : obey config origin streamed command s = .ok () t) :
    ∃ requests, command.Asks origin chance streamed requests ∧ command.IsShown config ∧
      (requests ≠ [] → config.authority.hasHalf = false) := by
  cases command with
  | push payloads =>
      obtain ⟨octets, hoctets, hnamed⟩ := exists_octets_of_pushes hrun
      refine ⟨_, .push hoctets, nofun, fun hne => hnamed ?_⟩
      rintro rfl
      exact hne rfl
  | clean =>
      obtain ⟨_, u, hsend, -⟩ := exists_of_bind_ok hrun
      exact ⟨_, .clean, nofun, fun _ => named_of_send hsend⟩
  | stream streaming =>
      obtain ⟨_, u, hprint, hrun⟩ := exists_of_bind_ok hrun
      have hline := unprinted?_of_display hprint
      have hshown : Command.IsShown config (.stream streaming) := by
        rintro _ ⟨⟩
        exact hline
      have hsends := sends_display hline h hstands
      rw [hprint] at hsends
      obtain ⟨hu, hthere⟩ := hsends
      cases hrate : streaming.rate with
      | none =>
          rw [hrate] at hrun
          cases hrun
      | some rate =>
          rw [hrate] at hrun
          dsimp only at hrun
          cases hmoves : rate == 0 with
          | true =>
              rw [hmoves] at hrun
              cases hrun
          | false =>
              rw [hmoves, if_neg Bool.false_ne_true] at hrun
              obtain ⟨_, v, hrounds, -⟩ := exists_of_bind_ok hrun
              obtain ⟨readings, hlength, hreadings, hnamed, hsleeps⟩ :=
                exists_readings_of_rounds horigin hu hthere hrounds
              refine ⟨_, .stream hrate hmoves hsleeps hlength hreadings, hshown,
                fun hne => hnamed ?_⟩
              rintro rfl
              exact hne rfl

end LiveFeed.Publisher
