/-
The requests that a command asks for, and how many there are.  Every push carries one origin.  In a
stream each reading is pushed, and after every so many of them comes a cleanup.
-/
import LiveFeed.Proofs.Number.Place
import LiveFeed.Proofs.Publisher.Readings
import LiveFeed.Publisher.Run
import Mathlib.Data.Int.Basic
import Mathlib.Data.Nat.Basic

namespace LiveFeed.Publisher

/-- The origin that all pushes carry: none if they are unsigned, else the one that is given, unless
it is empty, and else the authority. -/
inductive Options.Signs (options : Options) (authority : Text) : Value → Prop where
  | unsigned (hunsigned : options.unsigned = true) : Signs options authority .null
  | given {origin : Text} (hsigned : options.unsigned = false)
      (hgiven : options.origin = some origin) (hfilled : origin.isEmpty = false) :
      Signs options authority (.str origin)
  | authority (hsigned : options.unsigned = false)
      (hempty : ∀ origin, options.origin = some origin → origin.isEmpty = true) :
      Signs options authority (.str authority)

theorem Options.signs_originOf (options : Options) (authority : Text) :
    options.Signs authority (options.originOf authority) := by
  cases hunsigned : options.unsigned with
  | true =>
      have hnone : options.originOf authority = .null := if_pos hunsigned
      rw [hnone]
      exact .unsigned hunsigned
  | false =>
      by_cases hfilled : ∃ origin, options.origin = some origin ∧ origin.isEmpty = false
      · obtain ⟨origin, hgiven, hfilled⟩ := hfilled
        have hsome : options.originOf authority = .str origin := by
          simp [originOf, hunsigned, hgiven, hfilled]
        rw [hsome]
        exact .given hunsigned hgiven hfilled
      · have hempty : ∀ origin, options.origin = some origin → origin.isEmpty = true := by
          intro origin hgiven
          by_contra hfull
          exact hfilled ⟨origin, hgiven, Bool.eq_false_iff.mpr hfull⟩
        have hsame : options.originOf authority = .str authority := by
          cases hgiven : options.origin with
          | none => simp [originOf, hunsigned, hgiven]
          | some origin => simp [originOf, hunsigned, hgiven, hempty origin hgiven]
        rw [hsame]
        exact .authority hunsigned hempty

/-- The cleanup after the push of a number. -/
def cleanupAfter (every : Int) (number : Nat) : List Value :=
  if every ≠ 0 ∧ every ∣ number then [Message.cleanRequest] else []

/-- The requests of a stream that has pushed a number of readings before: each reading is pushed,
and after each push whose number is a multiple of `every`, unless that is zero, comes a cleanup. -/
def streamRequests (origin : Value) (every : Int) (before : Nat) (readings : List Bytes) :
    List Value :=
  (readings.zipIdx (before + 1)).flatMap fun (reading, number) =>
    Message.pushRequest origin reading :: cleanupAfter every number

/-- The requests that a command asks for.  A stream must not have a rate of zero, is stopped after a
number of readings, and sleeps after each. -/
inductive Command.Asks [Limits] (origin : Value) (chance : Chance) (streamed : Nat) :
    Command → List Value → Prop where
  | push {payloads : List Text} {octets : List Bytes}
      (hoctets : List.Forall₂ (fun text os => Utf8.encodeText text = .ok os) payloads octets) :
      Asks origin chance streamed (.push payloads) (octets.map (Message.pushRequest origin))
  | clean : Asks origin chance streamed .clean [Message.cleanRequest]
  | stream {streaming : Streaming} {rate : Float} {readings : List Bytes}
      (hrate : streaming.rate = some rate) (hmoves : (rate == 0) = false)
      (hsleeps : readings ≠ [] → Limits.unslept? (1 / rate) = none)
      (hlength : readings.length = streamed)
      (hreadings : Readings streaming.feeds chance [] readings) :
      Asks origin chance streamed (.stream streaming)
        (streamRequests origin streaming.cleanEvery 0 readings)

/-- A command that can be carried out: what is to be pushed has octets, and a stream has a positive
rate, not so small that the time between two readings could not be slept, and something to choose
from. -/
def Command.IsFeasible : Command → Prop
  | .push payloads => ∀ payload ∈ payloads, payload.hasHalf = false
  | .clean => True
  | .stream streaming =>
      (∃ rate, streaming.rate = some rate ∧ 0 < rate ∧ Sleep.fault? (1 / rate) = none) ∧
        streaming.feeds ≠ [] ∧ ∀ feed ∈ streaming.feeds, feed.hasHalf = false

/-- The number of requests of a command but for the cleanups of a stream. -/
def Command.counted (streamed : Nat) : Command → Nat
  | .push payloads => payloads.length
  | .clean => 1
  | .stream _ => streamed

/-- The number of cleanups of a stream. -/
def Command.uncounted (streamed : Nat) : Command → Nat
  | .push _ | .clean => 0
  | .stream streaming =>
      if streaming.cleanEvery = 0 then 0 else streamed / streaming.cleanEvery.natAbs

/-- Only a stream that has not come to its first cleanup has none. -/
theorem Command.uncounted_eq_zero_iff (command : Command) (streamed : Nat) :
    command.uncounted streamed = 0 ↔ ∀ streaming, command = .stream streaming →
      streaming.cleanEvery ≠ 0 → streamed < streaming.cleanEvery.natAbs := by
  cases command with
  | push payloads => simp [uncounted]
  | clean => simp [uncounted]
  | stream streaming =>
      have hsame : (∀ other, Command.stream streaming = .stream other → other.cleanEvery ≠ 0 →
          streamed < other.cleanEvery.natAbs) ↔
            (streaming.cleanEvery ≠ 0 → streamed < streaming.cleanEvery.natAbs) := by
        constructor
        · exact fun h => h streaming rfl
        · rintro h other ⟨⟩
          exact h
      rw [hsame, uncounted]
      by_cases hnever : streaming.cleanEvery = 0
      · simp [hnever]
      · simp [hnever, Nat.div_eq_zero_iff]

theorem streamRequests_cons (origin : Value) (every : Int) (before : Nat) (reading : Bytes)
    (rest : List Bytes) :
    streamRequests origin every before (reading :: rest) =
      Message.pushRequest origin reading :: cleanupAfter every (before + 1) ++
        streamRequests origin every (before + 1) rest := by
  simp only [streamRequests, List.zipIdx_cons, List.flatMap_cons]

/-- Of the numbers from one on, those after which a cleanup comes are found by division. -/
theorem length_cleanupAfter (every : Int) (before : Nat) :
    (cleanupAfter every (before + 1)).length + before / every.natAbs =
      (before + 1) / every.natAbs := by
  have hdivides : (every ≠ 0 ∧ every ∣ ((before + 1 : Nat) : Int)) ↔
      every.natAbs ∣ before + 1 := by
    rw [Int.dvd_natCast]
    constructor
    · exact fun h => h.2
    · intro h
      refine ⟨?_, h⟩
      rintro rfl
      exact absurd (Nat.eq_zero_of_zero_dvd h) (Nat.succ_ne_zero before)
  rw [Nat.succ_div, cleanupAfter]
  by_cases h : every.natAbs ∣ before + 1
  · rw [if_pos h, if_pos (hdivides.mpr h), List.length_singleton, Nat.add_comm]
  · rw [if_neg h, if_neg (hdivides.not.mpr h), List.length_nil, Nat.zero_add, Nat.add_zero]

theorem length_streamRequests (origin : Value) (every : Int) (before : Nat)
    (readings : List Bytes) :
    (streamRequests origin every before readings).length + before / every.natAbs =
      readings.length + (before + readings.length) / every.natAbs := by
  induction readings generalizing before with
  | nil => rfl
  | cons reading rest ih =>
      have hrest := ih (before + 1)
      have hcleanup := length_cleanupAfter every before
      rw [streamRequests_cons, List.cons_append, List.length_cons, List.length_append,
        List.length_cons]
      rw [Nat.add_assoc, Nat.add_comm 1] at hrest
      omega

/-- A command asks for its pushes or its cleanup, and a stream for its cleanups besides. -/
theorem Command.Asks.length_eq [Limits] {origin : Value} {chance : Chance} {streamed : Nat}
    {command : Command} {requests : List Value}
    (h : command.Asks origin chance streamed requests) :
    requests.length = command.counted streamed + command.uncounted streamed := by
  cases h with
  | push hoctets =>
      rw [List.length_map, counted, uncounted, Nat.add_zero, hoctets.length_eq]
  | clean => rfl
  | @stream streaming rate readings hrate hmoves hsleeps hlength hreadings =>
      have hcount := length_streamRequests origin streaming.cleanEvery 0 readings
      rw [Nat.zero_div, Nat.add_zero, Nat.zero_add, hlength] at hcount
      rw [hcount, counted, uncounted]
      split
      · next hnever => rw [hnever, Int.natAbs_zero, Nat.div_zero]
      · rfl

theorem exists_octets {payloads : List Text}
    (h : ∀ payload ∈ payloads, payload.hasHalf = false) :
    ∃ octets, List.Forall₂ (fun text os => Utf8.encodeText text = .ok os) payloads octets := by
  induction payloads with
  | nil => exact ⟨[], .nil⟩
  | cons payload rest ih =>
      obtain ⟨hpayload, hrest⟩ := List.forall_mem_cons.mp h
      obtain ⟨os, hos⟩ := Utf8.exists_encodeText_iff.mpr hpayload
      obtain ⟨octets, hoctets⟩ := ih hrest
      exact ⟨os :: octets, .cons hos hoctets⟩

/-- What can be carried out asks for something. -/
theorem Command.IsFeasible.exists_asks [Limits] {command : Command} (h : command.IsFeasible)
    (origin : Value) {chance : Chance} (hchance : chance.HandsOutFloats) (streamed : Nat) :
    ∃ requests, command.Asks origin chance streamed requests := by
  cases command with
  | push payloads =>
      obtain ⟨octets, hoctets⟩ := exists_octets h
      exact ⟨_, .push hoctets⟩
  | clean => exact ⟨_, .clean⟩
  | stream streaming =>
      obtain ⟨⟨rate, hrate, hpositive, hsleeps⟩, hfeeds, hoctets⟩ := h
      obtain ⟨readings, hlength, hreadings⟩ :=
        exists_readings hfeeds hoctets hchance (List.forall_mem_nil _) streamed
      exact ⟨_, .stream hrate (Binary64.beq_eq_false_of_lt hpositive)
        (fun _ => Limits.unslept?_eq_none _ hsleeps) hlength hreadings⟩

end LiveFeed.Publisher
