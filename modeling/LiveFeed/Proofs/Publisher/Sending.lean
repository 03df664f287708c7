/-
A publisher at work sends what it is asked for, in this order, until the broker refuses a request.
What one round of a stream does is said once, and all rounds follow by induction on the readings.
-/
import LiveFeed.Proofs.Outside
import LiveFeed.Proofs.Publisher.Requests
import LiveFeed.Proofs.Request.Message

namespace LiveFeed.Publisher

open Message (IsTold)

/-- What has octets is turned into them, and nothing else happens. -/
theorem octetsOf_eq_ok_iff {s t : State} {text : Text} {octets : Bytes} :
    octetsOf text s = .ok octets t ↔ Utf8.encodeText text = .ok octets ∧ t = s := by
  unfold octetsOf
  constructor
  · intro h
    cases hencode : Utf8.encodeText text with
    | error halves =>
        rw [hencode] at h
        cases h
    | ok os =>
        rw [hencode] at h
        cases h
        exact ⟨rfl, rfl⟩
  · rintro ⟨hencode, rfl⟩
    rw [hencode]
    rfl

/-- What is drawn of the feeds is chosen. -/
theorem chooseFeed_eq (feeds : List Text) (s : State) :
    chooseFeed feeds s =
      let asked : State := { s with outside := s.outside.record (.choice feeds) }
      match s.chance.drawChoice? feeds with
      | (some feed, chance) => .ok feed { asked with chance }
      | (none, _) => .error .noFeeds asked := by
  let asked : State := { s with outside := s.outside.record (.choice feeds) }
  have hask : ask (.choice feeds) s = .ok () asked := rfl
  unfold chooseFeed
  rw [bind_of_ok hask, bind_get]
  dsimp only [asked]
  cases s.chance.drawChoice? feeds with
  | mk drawn chance => cases drawn <;> rfl

/-- A reading is made of what is drawn, whatever becomes of it. -/
theorem nextReading_eq (feed : Text) (s : State) :
    nextReading feed s =
      let asked : State := { s with
        outside := (s.outside.record (.uniform Prices.startLow Prices.startHigh)).record
          (.gauss Prices.changeMean Prices.changeDeviation) }
      let (start, started) := s.chance.drawUniform
      let (change, changed) := started.drawGauss
      match Prices.step feed start change s.prices with
      | .ok reading prices => .ok reading { asked with chance := changed, prices }
      | .error fault prices =>
          .error (.reading fault) { asked with chance := changed, prices } := by
  let first : State :=
    { s with outside := s.outside.record (.uniform Prices.startLow Prices.startHigh) }
  let asked : State :=
    { first with outside := first.outside.record (.gauss Prices.changeMean Prices.changeDeviation) }
  have hfirst : ask (.uniform Prices.startLow Prices.startHigh) s = .ok () first := rfl
  have hsecond : ask (.gauss Prices.changeMean Prices.changeDeviation) first = .ok () asked := rfl
  unfold nextReading
  rw [bind_of_ok hfirst, bind_of_ok hsecond, bind_get]
  dsimp only [asked, first]
  cases Prices.step feed s.chance.drawUniform.1 s.chance.drawUniform.2.drawGauss.1 s.prices <;> rfl

theorem cleansAfter_iff {streaming : Streaming} {number : Nat} :
    cleansAfter streaming number = true ↔
      streaming.cleanEvery ≠ 0 ∧ streaming.cleanEvery ∣ number := by
  rw [Int.dvd_iff_emod_eq_zero, cleansAfter, Bool.and_eq_true, decide_eq_true_iff,
    decide_eq_true_iff]

variable [Limits]

/-- Requests have been sent in their order, and the broker has refused none of them. -/
def Posts (config : Config) (refusals : List Nat) (requests : List Value) (s : State) : Prop :=
  Outside.HasSent config.requestsTopic config.authority refusals requests s.outside

/-- A publisher sends requests in their order: all of them, and gets to a state of a kind, or those
before the one that the broker refuses. -/
inductive Sends (config : Config) (refusals : List Nat) (requests : List Value)
    (Arrived : State → Prop) : EStateM.Result Fault State Unit → Prop where
  | all {s : State} (hposts : Posts config refusals requests s) (harrived : Arrived s) :
      Sends config refusals requests Arrived (.ok () s)
  | refused {before rest : List Value} {request : Value} {s : State}
      (hsplit : requests = before ++ request :: rest) (hrefused : before.length ∈ refusals)
      (hposts : Posts config refusals before s) :
      Sends config refusals requests Arrived (.error .queueFull s)

variable {config : Config} {refusals : List Nat} {requests more : List Value}
  {Arrived Reached : State → Prop} {s t : State} {act : Act Unit} {next : Unit → Act Unit}
  {origin request : Value} {payload : Bytes}

/-- What goes on after some requests have been sent sends more of them. -/
theorem Sends.bind (hact : Sends config refusals requests Arrived (act s))
    (hnext : ∀ t, Posts config refusals requests t → Arrived t →
      Sends config refusals (requests ++ more) Reached (next () t)) :
    Sends config refusals (requests ++ more) Reached ((act >>= next) s) := by
  generalize hresult : act s = result at hact
  cases hact with
  | @all t hposts harrived =>
      rw [bind_of_ok hresult]
      exact hnext t hposts harrived
  | @refused before rest request t hsplit hrefused hposts =>
      rw [bind_of_error hresult]
      have hlonger : requests ++ more = before ++ request :: (rest ++ more) := by
        rw [hsplit, List.append_assoc, List.cons_append]
      exact .refused hlonger hrefused hposts

/-- What goes on after some requests have been sent may send no more of them. -/
theorem Sends.andThen (hact : Sends config refusals requests Arrived (act s))
    (hnext : ∀ t, Posts config refusals requests t → Arrived t →
      Sends config refusals requests Reached (next () t)) :
    Sends config refusals requests Reached ((act >>= next) s) := by
  rw [← List.append_nil requests]
  refine hact.bind ?_
  rw [List.append_nil]
  exact hnext

/-- Where a publisher stands: what its next reading depends on, and how much it has counted. -/
structure Stands (chance : Chance) (prices : Prices) (count : Nat) (s : State) : Prop where
  chance_eq : s.chance = chance
  prices_eq : s.prices = prices
  count_eq : s.count = count

variable {chance chosen started changed : Chance} {prices later : Prices} {count : Nat}

/-- Whatever else is asked of the outside, no request is sent. -/
theorem sends_ask {action : Action} (haction : ∀ topic key text, action ≠ .produce topic key text)
    (h : Posts config refusals requests s) (hstands : Stands chance prices count s) :
    Sends config refusals requests (Stands chance prices count) (ask action s) :=
  .all (Outside.HasSent.record h haction)
    ⟨hstands.chance_eq, hstands.prices_eq, hstands.count_eq⟩

theorem sends_print (line : Text) (h : Posts config refusals requests s)
    (hstands : Stands chance prices count s) :
    Sends config refusals requests (Stands chance prices count) (print line s) :=
  .all h ⟨hstands.chance_eq, hstands.prices_eq, hstands.count_eq⟩

theorem sends_display {line : Text} (hshown : Limits.unprinted? line = none)
    (h : Posts config refusals requests s) (hstands : Stands chance prices count s) :
    Sends config refusals requests (Stands chance prices count) (display line s) := by
  simp only [display, hshown]
  exact sends_print line h hstands

theorem sends_wait {seconds : Float} (hslept : Limits.unslept? seconds = none)
    (h : Posts config refusals requests s) (hstands : Stands chance prices count s) :
    Sends config refusals requests (Stands chance prices count) (wait seconds s) := by
  simp only [wait, hslept]
  exact sends_ask nofun h hstands

/-- A request with a text is sent, or the broker refuses it. -/
theorem sends_send (hauthority : config.authority.hasHalf = false)
    (htext : ∃ text, Json.text? request = .ok text) (h : Posts config refusals requests s)
    (hstands : Stands chance prices count s) :
    Sends config refusals (requests ++ [request]) (Stands chance prices count)
      (send config request s) := by
  obtain ⟨octets, hoctets⟩ := Utf8.exists_encodeText_iff.mpr hauthority
  obtain ⟨text, htext⟩ := htext
  unfold send
  rw [bind_of_ok (octetsOf_eq_ok_iff.mpr ⟨hoctets, rfl⟩)]
  simp only [htext]
  rw [bind_get]
  cases hsend : s.outside.send? config.requestsTopic config.authority text with
  | none => exact .refused rfl (Outside.HasSent.refused h hsend) h
  | some world =>
      exact .all (Outside.HasSent.send h htext hsend)
        ⟨hstands.chance_eq, hstands.prices_eq, hstands.count_eq⟩

theorem sends_countOne (h : Posts config refusals requests s)
    (hstands : Stands chance prices count s) :
    Sends config refusals requests (Stands chance prices (count + 1)) (countOne s) :=
  .all h ⟨hstands.chance_eq, hstands.prices_eq, congrArg (· + 1) hstands.count_eq⟩

/-- A push is counted after it has been sent. -/
theorem sends_sendPush (hauthority : config.authority.hasHalf = false) (horigin : IsTold origin)
    (payload : Bytes) (h : Posts config refusals requests s)
    (hstands : Stands chance prices count s) :
    Sends config refusals (requests ++ [Message.pushRequest origin payload])
      (Stands chance prices (count + 1)) (sendPush config origin payload s) :=
  (sends_send hauthority (horigin.exists_text?_pushRequest payload) h hstands).andThen fun _ =>
    sends_countOne

section Round

variable {streaming : Streaming} {feed : Text} {feeds : List Text} {start change : Value}
  {reading : Bytes}

theorem exists_chooseFeed (h : Posts config refusals requests s)
    (hstands : Stands chance prices count s)
    (hfeed : chance.drawChoice? feeds = (some feed, chosen)) :
    ∃ t, chooseFeed feeds s = .ok feed t ∧ Posts config refusals requests t ∧
      Stands chosen prices count t := by
  obtain ⟨rfl, rfl, rfl⟩ := hstands
  have hchoose := chooseFeed_eq feeds s
  rw [hfeed] at hchoose
  exact ⟨_, hchoose, Outside.HasSent.record h nofun, rfl, rfl, rfl⟩

theorem exists_nextReading (h : Posts config refusals requests s)
    (hstands : Stands chosen prices count s) (hstart : chosen.drawUniform = (start, started))
    (hchange : started.drawGauss = (change, changed))
    (hstep : Prices.step feed start change prices = .ok reading later) :
    ∃ t, nextReading feed s = .ok reading t ∧ Posts config refusals requests t ∧
      Stands changed later count t := by
  obtain ⟨rfl, rfl, rfl⟩ := hstands
  have hmake := nextReading_eq feed s
  simp only [hstart, hchange, hstep] at hmake
  refine ⟨_, hmake, Outside.HasSent.record (Outside.HasSent.record h ?_) ?_, rfl, rfl, rfl⟩
  · exact nofun
  · exact nofun

/-- A round pushes a reading, and may ask for a cleanup after it. -/
theorem sends_round (hauthority : config.authority.hasHalf = false) (horigin : IsTold origin)
    {delay : Float} (hslept : Limits.unslept? delay = none)
    (h : Posts config refusals requests s) (hstands : Stands chance prices count s)
    (hfeed : chance.drawChoice? streaming.feeds = (some feed, chosen))
    (hstart : chosen.drawUniform = (start, started))
    (hchange : started.drawGauss = (change, changed))
    (hstep : Prices.step feed start change prices = .ok reading later) :
    Sends config refusals
      (requests ++ (Message.pushRequest origin reading ::
        cleanupAfter streaming.cleanEvery (count + 1)))
      (Stands changed later (count + 1)) (round config origin streaming delay s) := by
  obtain ⟨t, hchoose, ht, hdrawn⟩ := exists_chooseFeed h hstands hfeed
  obtain ⟨u, hmake, hu, hmade⟩ := exists_nextReading ht hdrawn hstart hchange hstep
  unfold round
  rw [bind_of_ok hchoose, bind_of_ok hmake, List.append_cons]
  refine (sends_sendPush hauthority horigin reading hu hmade).bind ?_
  intro v hv hpushed
  rw [bind_get, hpushed.count_eq]
  -- What remains, whether there is a cleanup or not, is to tell of the progress and to wait.
  have hrest {requests : List Value} {w : State} (hw : Posts config refusals requests w)
      (hthere : Stands changed later (count + 1) w) :
      Sends config refusals requests (Stands changed later (count + 1))
        ((if (count + 1) % progressInterval = 0 then do
            let _ ← print ("  ... " ++ toString (count + 1) ++ " requests sent")
            wait delay
          else wait delay) w) := by
    split
    · exact (sends_print _ hw hthere).andThen fun _ => sends_wait hslept
    · exact sends_wait hslept hw hthere
  by_cases hcleans : cleansAfter streaming (count + 1) = true
  · rw [cleanupAfter, if_pos (cleansAfter_iff.mp hcleans)]
    simp only [hcleans, if_true]
    exact (sends_send hauthority Message.exists_text?_cleanRequest hv hpushed).andThen
      fun _ => hrest
  · rw [cleanupAfter, if_neg (cleansAfter_iff.not.mp hcleans), List.append_nil]
    simp only [hcleans, Bool.false_eq_true, if_false]
    exact hrest hv hpushed

/-- All rounds of a stream together send its requests.  The induction is on the readings that are
still to come; each round leaves chance and prices where the next reading begins. -/
theorem sends_rounds {readings : List Bytes}
    (hreadings : Readings streaming.feeds chance prices readings)
    (hauthority : readings ≠ [] → config.authority.hasHalf = false) (horigin : IsTold origin)
    {delay : Float} (hslept : readings ≠ [] → Limits.unslept? delay = none)
    (h : Posts config refusals requests s) (hstands : Stands chance prices count s) :
    Sends config refusals (requests ++ streamRequests origin streaming.cleanEvery count readings)
      (fun t => t.count = count + readings.length)
      (rounds config origin streaming delay readings.length s) := by
  induction hreadings generalizing requests count s with
  | done =>
      have hnone : requests ++ streamRequests origin streaming.cleanEvery count [] = requests :=
        List.append_nil requests
      rw [hnone]
      exact .all h hstands.count_eq
  | @next chance chosen started changed prices later feed start change reading rest hfeed hstart
      hchange hstep hrest ih =>
      have hnamed := hauthority (List.cons_ne_nil reading rest)
      have hwaited := hslept (List.cons_ne_nil reading rest)
      rw [streamRequests_cons, ← List.append_assoc, List.length_cons, rounds]
      refine (sends_round hnamed horigin hwaited h hstands hfeed hstart hchange hstep).bind ?_
      intro t ht hthere
      rw [← Nat.add_assoc, Nat.add_right_comm]
      exact ih (fun _ => hnamed) (fun _ => hwaited) ht hthere

end Round

/-- Payloads are pushed one after the other. -/
theorem sends_pushes {payloads : List Text} {octets : List Bytes}
    (hoctets : List.Forall₂ (fun text os => Utf8.encodeText text = .ok os) payloads octets)
    (hauthority : octets ≠ [] → config.authority.hasHalf = false) (horigin : IsTold origin)
    (h : Posts config refusals requests s) (hstands : Stands chance prices count s) :
    Sends config refusals (requests ++ octets.map (Message.pushRequest origin))
      (fun t => t.count = count + octets.length)
      ((payloads.forM fun payload => do sendPush config origin (← octetsOf payload)) s) := by
  induction hoctets generalizing requests count s with
  | nil =>
      rw [List.map_nil, List.append_nil]
      exact .all h hstands.count_eq
  | @cons payload os payloads octets hpayload hrest ih =>
      have hnamed := hauthority (List.cons_ne_nil os octets)
      have hpush : Sends config refusals (requests ++ [Message.pushRequest origin os])
          (Stands chance prices (count + 1)) ((octetsOf payload >>= sendPush config origin) s) := by
        rw [bind_of_ok (octetsOf_eq_ok_iff.mpr ⟨hpayload, rfl⟩)]
        exact sends_sendPush hnamed horigin os h hstands
      rw [List.map_cons, List.append_cons, List.length_cons]
      refine hpush.bind ?_
      intro t ht hthere
      rw [← Nat.add_assoc, Nat.add_right_comm]
      exact ih (fun _ => hnamed) ht hthere

/-- A stream with a rate other than zero goes on for as long as there are readings. -/
theorem sends_stream {streaming : Streaming} {rate : Float} {readings : List Bytes}
    (hshown : Limits.unprinted? (streamLine config streaming) = none)
    (hrate : streaming.rate = some rate) (hmoves : (rate == 0) = false)
    (hsleeps : readings ≠ [] → Limits.unslept? (1 / rate) = none)
    (hreadings : Readings streaming.feeds chance prices readings)
    (hauthority : readings ≠ [] → config.authority.hasHalf = false) (horigin : IsTold origin)
    (h : Posts config refusals requests s) (hstands : Stands chance prices count s) :
    Sends config refusals (requests ++ streamRequests origin streaming.cleanEvery count readings)
      (fun t => t.count = count + readings.length)
      (stream config origin streaming readings.length s) := by
  unfold stream
  simp only [hrate, hmoves, Bool.false_eq_true, if_false]
  refine (sends_display hshown h hstands).bind ?_
  intro t ht hthere
  refine (sends_rounds hreadings hauthority horigin hsleeps ht hthere).andThen ?_
  intro u hu hcount
  exact .all hu hcount

/-- If a command is to stream, the line that says so can be shown. -/
def Command.IsShown (config : Config) (command : Command) : Prop :=
  ∀ streaming, command = .stream streaming →
    Limits.unprinted? (streamLine config streaming) = none

/-- A command is obeyed by sending what it asks for. -/
theorem sends_obey {streamed : Nat} {command : Command} (hshown : command.IsShown config)
    (hasks : command.Asks origin chance streamed requests)
    (hauthority : requests ≠ [] → config.authority.hasHalf = false) (horigin : IsTold origin)
    (h : Posts config refusals [] s) (hstands : Stands chance [] 0 s) :
    Sends config refusals requests (fun t => t.count = command.counted streamed)
      (obey config origin streamed command s) := by
  cases hasks with
  | @push payloads octets hoctets =>
      have hpushes := sends_pushes hoctets (fun hne => hauthority (by simpa using hne)) horigin h
        hstands
      rw [List.nil_append, Nat.zero_add, ← hoctets.length_eq] at hpushes
      exact hpushes
  | clean =>
      have hnamed := hauthority (List.cons_ne_nil _ _)
      refine (sends_send hnamed Message.exists_text?_cleanRequest h hstands).andThen ?_
      intro t ht hthere
      exact .all ht (congrArg (· + 1) hthere.count_eq)
  | @stream streaming rate readings hrate hmoves hsleeps hlength hreadings =>
      have hnamed : readings ≠ [] → config.authority.hasHalf = false := by
        intro hsome
        obtain ⟨reading, rest, rfl⟩ := List.exists_cons_of_ne_nil hsome
        exact hauthority (by rw [streamRequests_cons]; exact List.cons_ne_nil _ _)
      have hstream := sends_stream (hshown streaming rfl) hrate hmoves hsleeps hreadings hnamed
        horigin h hstands
      rw [List.nil_append, Nat.zero_add, hlength] at hstream
      exact hstream

end LiveFeed.Publisher
