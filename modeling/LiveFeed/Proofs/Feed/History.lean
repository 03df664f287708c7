/-
What a feed holds after any history.  The times may go back and forth: of all that was stored, the
feed holds what is live at every push and cleanup that was accepted afterwards, and from that alone
it follows which operations it refuses and what readers see.
-/
import LiveFeed.Proofs.Feed.Operation

namespace LiveFeed

/-- Whether a stamp is live at each of the given times. -/
def Stamp.outlasts (lifetime : Int) (times : List Int) (s : Stamp) : Bool :=
  times.all fun time => s.isLive lifetime time

namespace History

/-- The times of the pushes and cleanups that were accepted. -/
def mutations (occurrences : List Occurrence) : List Int :=
  (occurrences.filter (·.answer.isAccepted)).map (·.now)

/-- The accepted pushes that are live at every push and cleanup accepted after them. -/
def lastingPushes (lifetime : Int) : List Occurrence → List Stamp
  | [] => []
  | o :: rest =>
      o.stored?.toList.filter (Stamp.outlasts lifetime (mutations rest)) ++
        lastingPushes lifetime rest

/-- Of the initial stamps and the accepted pushes, those that are live at every push and cleanup
accepted after them. -/
def lasting (lifetime : Int) (initial : List Stamp) (occurrences : List Occurrence) :
    List Stamp :=
  initial.filter (Stamp.outlasts lifetime (mutations occurrences)) ++
    lastingPushes lifetime occurrences

theorem mutations_cons (o : Occurrence) (rest : List Occurrence) :
    mutations (o :: rest) =
      if o.answer.isAccepted then o.now :: mutations rest else mutations rest := by
  by_cases h : o.answer.isAccepted = true <;> simp [mutations, h]

theorem stored?_of_refused {o : Occurrence} (h : o.answer.isAccepted = false) :
    o.stored? = none := by
  unfold Occurrence.stored?
  split
  · rename_i _ _ _ hanswer
    simp [hanswer, Answer.isAccepted] at h
  · rfl

theorem lasting_cons (lifetime : Int) (initial : List Stamp) (o : Occurrence)
    (rest : List Occurrence) :
    lasting lifetime initial (o :: rest) =
      lasting lifetime ((o.after lifetime (some initial)).getD []) rest := by
  by_cases h : o.answer.isAccepted = true
  · have hfilter : initial.filter (Stamp.outlasts lifetime (o.now :: mutations rest)) =
        (Stamp.liveAt lifetime o.now initial).filter
          (Stamp.outlasts lifetime (mutations rest)) := by
      rw [Stamp.liveAt, List.filter_filter]
      apply List.filter_congr
      intro s _
      simp [Stamp.outlasts, Bool.and_comm]
    simp [lasting, lastingPushes, mutations_cons, Occurrence.after, h, hfilter]
  · rw [Bool.not_eq_true] at h
    simp [lasting, lastingPushes, mutations_cons, Occurrence.after, h, stored?_of_refused h]

theorem lasting_of_never (lifetime : Int) {occurrences : List Occurrence}
    (h : mutations occurrences = []) : lasting lifetime [] occurrences = [] := by
  induction occurrences with
  | nil => rfl
  | cons o rest ih =>
      rw [mutations_cons] at h
      by_cases haccepted : o.answer.isAccepted = true
      · simp [haccepted] at h
      · rw [Bool.not_eq_true] at haccepted
        rw [if_neg (by simp [haccepted])] at h
        rw [lasting_cons, Occurrence.after, haccepted]
        exact ih h

/-- The stamps left by a sequence of occurrences are the lasting ones. -/
theorem foldl_after (lifetime : Int) (held : Option (List Stamp))
    (occurrences : List Occurrence) :
    occurrences.foldl (fun held o => o.after lifetime held) held =
      if held = none ∧ mutations occurrences = [] then none
      else some (lasting lifetime (held.getD []) occurrences) := by
  induction occurrences generalizing held with
  | nil =>
      cases held with
      | none => rfl
      | some ss =>
          have hall : ss.filter (Stamp.outlasts lifetime []) = ss :=
            List.filter_eq_self.mpr fun _ _ => rfl
          simp [lasting, lastingPushes, mutations, hall]
  | cons o rest ih =>
      rw [List.foldl_cons, ih, lasting_cons, mutations_cons]
      by_cases h : o.answer.isAccepted = true
      · simp [Occurrence.after, h]
      · rw [Bool.not_eq_true] at h
        simp [Occurrence.after, h]

end History

/-- What the answer to a push or a cleanup tells of the newest stamp.  The operation is refused
exactly if that stamp is later than the time: as stale if both times can be written, and for want of
words if one of them has too many digits. -/
structure Stamp.Judge (ss : List Stamp) (now : Int) (answer : Answer) : Prop where
  stale_iff : answer.isStale = true ↔ ∃ last, ss.getLast? = some last ∧ now < last.time ∧
    (Digits.fit now && Digits.fit last.time) = true
  wordless_iff : answer.isWordless = true ↔ ∃ last, ss.getLast? = some last ∧ now < last.time ∧
    (Digits.fit now && Digits.fit last.time) = false
  accepted_eq : answer.isAccepted = !(answer.isStale || answer.isWordless)

namespace Feed

variable {now : Int}

theorem judge_of_refused [Limits] {ss : List Stamp} {last : Stamp} (hlast : ss.getLast? = some last)
    (hlt : now < last.time) :
    Stamp.Judge ss now (.refused (.log (.ofStale (.int now) (.int last.time)))) := by
  rw [Log.Fault.ofStale_int]
  cases hwritten : Digits.fit now && Digits.fit last.time <;>
  exact ⟨by simpa [Answer.isStale, hlast, hlt] using hwritten,
    by simpa [Answer.isWordless, hlast, hlt] using hwritten, rfl⟩

theorem judge_of_accepted {ss : List Stamp} {answer : Answer} (hahead : Stamp.ahead? now ss = none)
    (haccepted : answer.isAccepted = true) : Stamp.Judge ss now answer := by
  have hnone (written : Bool) : ¬ ∃ last, ss.getLast? = some last ∧ now < last.time ∧
      (Digits.fit now && Digits.fit last.time) = written := by
    rintro ⟨last, hlast, hlt, -⟩
    exact Int.not_lt.mpr (Stamp.ahead?_eq_none_iff.mp hahead last hlast) hlt
  cases answer with
  | pushed event => exact ⟨iff_of_false nofun (hnone true), iff_of_false nofun (hnone false), rfl⟩
  | cleaned count => exact ⟨iff_of_false nofun (hnone true), iff_of_false nofun (hnone false), rfl⟩
  | shown payloads => cases haccepted
  | refused fault => cases haccepted

variable [Limits]

/-- The stamps judge a cleanup. -/
theorem judge_clean (authority : Text) (lifetime now : Int) (held : Option (List Stamp)) :
    Stamp.Judge (held.getD []) now (reply authority lifetime now held .clean) := by
  cases hahead : Stamp.ahead? now (held.getD []) with
  | none =>
      rw [reply, hahead]
      exact judge_of_accepted hahead rfl
  | some latest =>
      obtain ⟨hlatest, hlt⟩ := Stamp.ahead?_eq_some_iff.mp hahead
      obtain ⟨last, hlast, rfl⟩ := Option.map_eq_some_iff.mp hlatest
      rw [reply, hahead]
      exact judge_of_refused hlast hlt

/-- The stamps judge a push of octets by the authority. -/
theorem judge_push (authority : Text) (lifetime now : Int) (held : Option (List Stamp))
    (container : Container) (octets : Bytes) :
    Stamp.Judge (held.getD []) now
      (reply authority lifetime now held (.push (.str authority) (.bytes container octets))) := by
  rw [reply, vet_authority]
  cases hahead : Stamp.ahead? now (held.getD []) with
  | none => exact judge_of_accepted hahead rfl
  | some latest =>
      obtain ⟨hlatest, hlt⟩ := Stamp.ahead?_eq_some_iff.mp hahead
      obtain ⟨last, hlast, rfl⟩ := Option.map_eq_some_iff.mp hlatest
      exact judge_of_refused hlast hlt

end Feed

namespace Session

variable {ω : Type}

section

variable [Limits]

/-- After any history the log holds exactly the lasting stamps, and it is there if it was there
before or anything was accepted.  A push of octets by the authority or a cleanup is refused exactly
when the newest lasting stamp is later than the time, as stale if both times can be written and for
want of words otherwise; a read shows the lasting stamps that are live. -/
theorem history_holds_lasting (listener : Listener ω) (hlistener : listener.Accepts)
    (s : Session ω) (lifetime : Int) (initial : Option (List Stamp))
    (hfeed : s.feed.Holds lifetime initial) (hrecord : ∀ r ∈ s.feed.subscribers, r = .record)
    (steps : List (Int × Operation)) :
    let occurrences := (s.history listener steps).1
    let t := (s.history listener steps).2
    let kept := History.lasting lifetime (initial.getD []) occurrences
    let never := initial = none ∧ History.mutations occurrences = []
    let answer (now : Int) (operation : Operation) : Answer :=
      ((t.atTime now).perform listener operation).1
    (t.feed.log = if never then none else some (Log.stamped lifetime kept)) ∧
      (∀ now container octets, Stamp.Judge kept now
        (answer now (.push (.str s.feed.authority) (.bytes container octets)))) ∧
      (∀ now, Stamp.Judge kept now (answer now .clean)) ∧
      ∀ now, answer now .read = .shown
        (if never then none else some ((Stamp.liveAt lifetime now kept).map Stamp.payload)) := by
  have hs : s.Plain s.feed.authority lifetime initial := ⟨rfl, hfeed, hrecord⟩
  obtain ⟨t, hhistory, ht⟩ := history_plain hlistener hs steps
  rw [History.foldl_after] at ht
  rw [hhistory]
  intro occurrences t kept never answer
  have hkept : (if never then none else some kept).getD [] = kept := by
    by_cases hnever : never
    · rw [if_pos hnever]
      simp only [kept, hnever.1, Option.getD_none, History.lasting_of_never lifetime hnever.2]
    · rw [if_neg hnever, Option.getD_some]
  have hanswer (now : Int) (operation : Operation) : answer now operation =
      Feed.reply s.feed.authority lifetime now (if never then none else some kept) operation := by
    obtain ⟨u, hperform, -⟩ := perform_plain hlistener ht now operation
    exact congrArg Prod.fst hperform
  refine ⟨?_, ?_, ?_, ?_⟩
  · rw [ht.holds.log_eq]
    exact apply_ite (Option.map (Log.stamped lifetime)) never none (some kept)
  · intro now container octets
    have hjudge := Feed.judge_push s.feed.authority lifetime now
      (if never then none else some kept) container octets
    rwa [hkept, ← hanswer] at hjudge
  · intro now
    have hjudge := Feed.judge_clean s.feed.authority lifetime now
      (if never then none else some kept)
    rwa [hkept, ← hanswer] at hjudge
  · intro now
    rw [hanswer, Feed.reply, apply_ite (Option.map _), Option.map_none, Option.map_some]

end

open scoped Limits

/-- After a cleanup that empties the log, the next push may be earlier than the last one. -/
theorem history_after_emptying :
    let listener : Listener (List Note) := fun note notes => .ok (note :: notes)
    let feed := (Feed.new (.ofString "ann") (.int 10)).subscribe .record
    let s : Session (List Note) := ⟨feed, Clock.showing (.int 0), []⟩
    let push (payload : Bytes) : Operation :=
      .push (.str (.ofString "ann")) (.bytes .fixed payload)
    let t := (s.history listener [(5, push [1]), (20, .clean), (3, push [2])]).2
    t.feed.log = some (Log.stamped 10 [⟨[2], 3⟩]) ∧
      ((t.atTime 2).perform listener .clean).1.isStale = true := by
  intro listener feed s push t
  have hlistener : listener.Accepts := fun note notes => ⟨note :: notes, rfl⟩
  have hfeed : s.feed.Holds 10 none := ⟨rfl, rfl, List.Pairwise.nil⟩
  have hrecord : ∀ r ∈ s.feed.subscribers, r = .record := by decide
  let steps : List (Int × Operation) := [(5, push [1]), (20, .clean), (3, push [2])]
  obtain ⟨hlog, -, hclean, -⟩ :=
    history_holds_lasting listener hlistener s 10 none hfeed hrecord steps
  obtain ⟨u, hhistory, -⟩ := history_plain hlistener ⟨rfl, hfeed, hrecord⟩ steps
  have hkept : History.lasting 10 [] (Feed.chronicle feed.authority 10 none steps) =
      [⟨[2], 3⟩] := by decide +kernel
  have hmutations : History.mutations (Feed.chronicle feed.authority 10 none steps) ≠ [] := by
    decide +kernel
  rw [hhistory, if_neg fun never => hmutations never.2] at hlog
  have hlast : t.feed.log = some (Log.stamped 10 [⟨[2], 3⟩]) := by
    calc
      t.feed.log = u.feed.log := congrArg (fun run => run.2.feed.log) hhistory
      _ = some (Log.stamped 10 (History.lasting 10 [] _)) := hlog
      _ = some (Log.stamped 10 [⟨[2], 3⟩]) := congrArg (some <| Log.stamped 10 ·) hkept
  refine ⟨hlast, (hclean 2).stale_iff.mpr ⟨⟨[2], 3⟩, ?_, by decide, by decide +kernel⟩⟩
  rw [hhistory]
  exact congrArg List.getLast? hkept

/-- A cleanup at a time of too many digits is not refused as stale, although the newest stamp is
later. -/
theorem cleanup_fails_without_words :
    let listener : Listener (List Note) := fun note notes => .ok (note :: notes)
    let feed : Feed := ⟨"ann", .int 10, some (Log.stamped 10 [⟨[1], 0⟩]), [.record], 0⟩
    let s : Session (List Note) := ⟨feed, Clock.showing (.int 0), []⟩
    let now : Int := -Nat.pow 10 4300
    let clean := ((s.history listener []).2.atTime now).perform listener .clean
    History.lasting 10 [⟨[1], 0⟩] (s.history listener []).1 = [⟨[1], 0⟩] ∧ now < 0 ∧
      clean.1.isStale = false ∧ clean.1.isAccepted = false := by
  intro listener feed s now clean
  have hlistener : listener.Accepts := fun note notes => ⟨note :: notes, rfl⟩
  have hs : s.Plain "ann" 10 (some [⟨[1], 0⟩]) :=
    ⟨rfl, ⟨rfl, rfl, List.pairwise_singleton _ _⟩, by decide⟩
  have hjudge (time : Int) :
      Stamp.Judge [⟨[1], 0⟩] time ((s.atTime time).perform listener .clean).1 := by
    obtain ⟨t, hperform, -⟩ := perform_plain hlistener hs time .clean
    rw [hperform]
    exact Feed.judge_clean "ann" 10 time (some [⟨[1], 0⟩])
  replace hjudge : Stamp.Judge [⟨[1], 0⟩] now clean.1 := hjudge now
  have hlater : now < 0 := by decide +kernel
  have hwords : (Digits.fit now && Digits.fit 0) = false := by decide +kernel
  have hwordless := hjudge.wordless_iff.mpr ⟨_, rfl, hlater, hwords⟩
  refine ⟨rfl, hlater, ?_, ?_⟩
  · rw [Bool.eq_false_iff]
    intro hstale
    obtain ⟨last, hlast, -, hwritten⟩ := hjudge.stale_iff.mp hstale
    cases hlast
    exact Bool.noConfusion (hwords.symm.trans hwritten)
  · rw [hjudge.accepted_eq, hwordless, Bool.or_true]
    rfl

end Session
end LiveFeed
