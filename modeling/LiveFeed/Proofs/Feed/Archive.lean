/-
Eviction cannot be observed as long as the clock never goes back.  An archive is a feed that drops
nothing; beside it, a feed has dropped only what no later operation can find live or ahead of its
time, so that both give the same answers.
-/
import LiveFeed.Proofs.Feed.Operation
import Mathlib.Data.List.Forall2

namespace LiveFeed

/-- What can be told of an answer without knowing how many entries were evicted. -/
def Answer.observed : Answer → Answer
  | .cleaned _ => .cleaned 0
  | answer => answer

/-- Whether two answers are the same, save that, if a feed was never written, the one may show
nothing where the other shows that no payload is live. -/
def Answer.Agrees (unwritten : Prop) (a b : Answer) : Prop :=
  a = b ∨ unwritten ∧ a = .shown none ∧ b = .shown (some [])

/-- A feed that drops nothing: every stamp it was given, and whether there was an accepted push or
cleanup, or a log to begin with. -/
structure Archive where
  authority : Text
  lifetime : Int
  written : Bool
  stamps : List Stamp

namespace Archive

/-- The archive that begins with what a feed holds. -/
def ofHeld (authority : Text) (lifetime : Int) (held : Option (List Stamp)) : Archive :=
  ⟨authority, lifetime, held.isSome, held.getD []⟩

/-- An archive beside a feed that has dropped some stamps.  These have expired, and none is ahead of
the given time. -/
structure Covers (a : Archive) (held : Option (List Stamp)) (dropped : List Stamp) (now : Int) :
    Prop where
  written_eq : a.written = held.isSome
  stamps_eq : a.stamps = dropped ++ held.getD []
  ordered : Stamp.Ordered (held.getD [])
  time_le : ∀ s ∈ dropped, s.time ≤ now
  expired : ∀ s ∈ dropped, s.isLive a.lifetime now = false

variable {a : Archive} {held : Option (List Stamp)} {dropped : List Stamp} {now : Int}

theorem covers_ofHeld (authority : Text) (lifetime : Int) (hordered : Stamp.Ordered (held.getD []))
    (now : Int) : (ofHeld authority lifetime held).Covers held [] now :=
  ⟨rfl, rfl, hordered, by simp, by simp⟩

theorem Covers.later (h : a.Covers held dropped now) {later : Int} (hle : now ≤ later) :
    a.Covers held dropped later :=
  ⟨h.written_eq, h.stamps_eq, h.ordered, fun s hs => Int.le_trans (h.time_le s hs) hle,
    fun s hs => Stamp.isLive_eq_false_later hle (h.expired s hs)⟩

theorem Covers.ahead?_eq (h : a.Covers held dropped now) :
    Stamp.ahead? now a.stamps = Stamp.ahead? now (held.getD []) := by
  rw [h.stamps_eq, Stamp.ahead?_append_of_le h.time_le]

theorem Covers.liveAt_eq (h : a.Covers held dropped now) :
    Stamp.liveAt a.lifetime now a.stamps = Stamp.liveAt a.lifetime now (held.getD []) := by
  rw [h.stamps_eq, Stamp.liveAt_append_of_expired h.expired]

/-- When nothing is ahead of the time, a feed that drops what has expired stays covered. -/
theorem Covers.evict (h : a.Covers held dropped now)
    (hahead : Stamp.ahead? now (held.getD []) = none) {stored : List Stamp}
    (hordered : Stamp.Ordered (Stamp.liveAt a.lifetime now (held.getD []) ++ stored)) :
    ({ a with written := true, stamps := a.stamps ++ stored } : Archive).Covers
      (some (Stamp.liveAt a.lifetime now (held.getD []) ++ stored))
      (dropped ++ Stamp.expiredAt a.lifetime now (held.getD [])) now := by
  refine ⟨rfl, ?_, hordered, ?_, ?_⟩
  · calc
      a.stamps ++ stored = dropped ++ held.getD [] ++ stored := by rw [h.stamps_eq]
      _ = dropped ++ (Stamp.expiredAt a.lifetime now (held.getD []) ++
            Stamp.liveAt a.lifetime now (held.getD [])) ++ stored := by
          rw [Stamp.expiredAt_append_liveAt h.ordered]
      _ = _ := by simp only [Option.getD_some, List.append_assoc]
  · intro s hs
    rcases List.mem_append.mp hs with hdropped | hexpired
    · exact h.time_le s hdropped
    · exact h.ordered.time_le hahead s (List.mem_filter.mp hexpired).1
  · intro s hs
    rcases List.mem_append.mp hs with hdropped | hexpired
    · exact h.expired s hdropped
    · simpa using (List.mem_filter.mp hexpired).2

/-- An archive that was never written holds nothing. -/
def Sound (a : Archive) : Prop := a.written = false → a.stamps = []

theorem sound_ofHeld (authority : Text) (lifetime : Int) (held : Option (List Stamp)) :
    (ofHeld authority lifetime held).Sound := by
  cases held with
  | none =>
      intro _
      rfl
  | some ss =>
      intro h
      cases h

theorem agrees_refl (unwritten : Prop) (answers : List Answer) :
    List.Forall₂ (Answer.Agrees unwritten) answers answers :=
  List.forall₂_same.mpr fun _ _ => Or.inl rfl

variable [Limits]

/-- Performs an operation at a time: with the checks of a feed, and without dropping anything. -/
def perform (a : Archive) (now : Int) : Operation → Answer × Archive
  | .push origin data =>
      match Feed.vet a.authority now a.stamps origin data with
      | .ok payload =>
          (.pushed ⟨payload, .int now⟩,
            { a with written := true, stamps := a.stamps ++ [⟨payload, now⟩] })
      | .error fault => (.refused fault, a)
  | .clean =>
      match Stamp.ahead? now a.stamps with
      | some latest => (.refused (.log (.ofStale (.int now) (.int latest))), a)
      | none => (.cleaned 0, { a with written := true })
  | .read =>
      let payloads := (Stamp.liveAt a.lifetime now a.stamps).map Stamp.payload
      (.shown (if a.written then some payloads else none), a)

/-- The answers to operations that are performed one after the other. -/
def answers : Archive → List (Int × Operation) → List Answer
  | _, [] => []
  | a, (now, operation) :: rest =>
      (a.perform now operation).1 :: answers (a.perform now operation).2 rest

/-- The archive after operations. -/
def after (a : Archive) (steps : List (Int × Operation)) : Archive :=
  steps.foldl (fun a step => (a.perform step.1 step.2).2) a

theorem answers_append (a : Archive) (xs ys : List (Int × Operation)) :
    a.answers (xs ++ ys) = a.answers xs ++ (a.after xs).answers ys := by
  induction xs generalizing a with
  | nil => rfl
  | cons x xs ih => exact congrArg _ (ih (a.perform x.1 x.2).2)

theorem length_answers (a : Archive) (steps : List (Int × Operation)) :
    (a.answers steps).length = steps.length := by
  induction steps generalizing a with
  | nil => rfl
  | cons step rest ih => exact congrArg (· + 1) (ih (a.perform step.1 step.2).2)

theorem Covers.vet_eq (h : a.Covers held dropped now) (origin data : Value) :
    Feed.vet a.authority now a.stamps origin data =
      Feed.vet a.authority now (held.getD []) origin data := by
  simp only [Feed.vet, h.ahead?_eq]

/-- Beside a feed that it covers, an archive gives the same answer to an operation, and it covers
the feed afterwards. -/
theorem Covers.perform (h : a.Covers held dropped now) (operation : Operation) :
    let answer := Feed.reply a.authority a.lifetime now held operation
    (a.perform now operation).1 = answer.observed ∧
      ∃ dropped', (a.perform now operation).2.Covers
        (Occurrence.after a.lifetime ⟨now, operation, answer⟩ held) dropped' now := by
  cases operation with
  | push origin data =>
      cases hvet : Feed.vet a.authority now (held.getD []) origin data with
      | error fault =>
          simp only [Archive.perform, h.vet_eq, Feed.reply, hvet]
          exact ⟨rfl, dropped, h⟩
      | ok payload =>
          obtain ⟨-, hoctets, hahead⟩ := Feed.vet_eq_ok_iff.mp hvet
          obtain ⟨container, rfl⟩ := Log.octets_eq_ok_iff.mp hoctets
          simp only [Archive.perform, h.vet_eq, Feed.reply, hvet]
          exact ⟨rfl, _, h.evict hahead (h.ordered.record hahead a.lifetime payload)⟩
  | clean =>
      cases hahead : Stamp.ahead? now (held.getD []) with
      | some latest =>
          simp only [Archive.perform, h.ahead?_eq, Feed.reply, hahead]
          exact ⟨rfl, dropped, h⟩
      | none =>
          have hevict := h.evict hahead
            (by simpa using h.ordered.liveAt a.lifetime now : Stamp.Ordered (_ ++ []))
          rw [List.append_nil a.stamps] at hevict
          simp only [Archive.perform, h.ahead?_eq, Feed.reply, hahead]
          exact ⟨rfl, _, hevict⟩
  | read =>
      simp only [Archive.perform, h.liveAt_eq, Feed.reply, h.written_eq]
      refine ⟨?_, dropped, h⟩
      cases held <;> rfl

theorem perform_lifetime (a : Archive) (now : Int) (operation : Operation) :
    (a.perform now operation).2.lifetime = a.lifetime := by
  cases operation <;> simp only [Archive.perform] <;> split <;> rfl

theorem perform_authority (a : Archive) (now : Int) (operation : Operation) :
    (a.perform now operation).2.authority = a.authority := by
  cases operation <;> simp only [Archive.perform] <;> split <;> rfl

/-- An archive gives the answers of a feed that it covers as long as the times never decrease, and
it covers the feed afterwards. -/
theorem Covers.answers (h : a.Covers held dropped now) (steps : List (Int × Operation))
    (htimes : steps.Pairwise fun x y => x.1 ≤ y.1) (hnow : ∀ step ∈ steps, now ≤ step.1) :
    let occurrences := Feed.chronicle a.authority a.lifetime held steps
    a.answers steps = occurrences.map (·.answer.observed) ∧
      (a.after steps).written =
        (occurrences.foldl (fun held o => o.after a.lifetime held) held).isSome := by
  induction steps generalizing a held dropped now with
  | nil => exact ⟨rfl, h.written_eq⟩
  | cons step rest ih =>
      obtain ⟨time, operation⟩ := step
      obtain ⟨hfirst, hrest⟩ := List.pairwise_cons.mp htimes
      have hlater := h.later (hnow _ List.mem_cons_self)
      obtain ⟨hanswer, dropped', hcovers⟩ := hlater.perform operation
      have hih := ih hcovers hrest hfirst
      rw [perform_lifetime, perform_authority] at hih
      exact ⟨congrArg₂ List.cons hanswer hih.1, hih.2⟩

/-- An archive that begins with what a feed holds gives the answers of the feed. -/
theorem answers_ofHeld (authority : Text) (lifetime : Int)
    (hordered : Stamp.Ordered (held.getD [])) {steps : List (Int × Operation)}
    (htimes : steps.Pairwise fun x y => x.1 ≤ y.1) :
    let a := ofHeld authority lifetime held
    let occurrences := Feed.chronicle authority lifetime held steps
    a.answers steps = occurrences.map (·.answer.observed) ∧
      (a.after steps).written =
        (occurrences.foldl (fun held o => o.after lifetime held) held).isSome := by
  cases steps with
  | nil => exact ⟨rfl, rfl⟩
  | cons step rest =>
      refine (covers_ofHeld authority lifetime hordered step.1).answers (step :: rest) htimes ?_
      intro later hlater
      rcases List.mem_cons.mp hlater with rfl | hrest
      · exact Int.le_refl _
      · exact (List.pairwise_cons.mp htimes).1 later hrest

theorem Sound.perform (h : a.Sound) (now : Int) (operation : Operation) :
    (a.perform now operation).2.Sound := by
  cases operation with
  | push origin data =>
      simp only [Archive.perform]
      split
      · nofun
      · exact h
  | clean =>
      simp only [Archive.perform]
      split
      · exact h
      · nofun
  | read => exact h

theorem Sound.after (h : a.Sound) (steps : List (Int × Operation)) : (a.after steps).Sound := by
  induction steps generalizing a with
  | nil => exact h
  | cons step rest ih => exact ih (h.perform step.1 step.2)

/-- An archive that counts as written agrees with one that was never written. -/
theorem Sound.answers_written (h : a.Sound) (hwritten : a.written = false)
    (steps : List (Int × Operation)) :
    List.Forall₂ (Answer.Agrees True) (a.answers steps)
      (({ a with written := true } : Archive).answers steps) := by
  induction steps with
  | nil => exact .nil
  | cons step rest ih =>
      obtain ⟨now, operation⟩ := step
      cases operation with
      | push origin data =>
          simp only [answers, Archive.perform]
          split
          · exact agrees_refl _ _
          · exact .cons (Or.inl rfl) ih
      | clean =>
          have hahead : Stamp.ahead? now a.stamps = none := by rw [h hwritten]; rfl
          simp only [answers, Archive.perform, hahead]
          exact agrees_refl _ _
      | read =>
          refine .cons (Or.inr ⟨trivial, ?_, ?_⟩) ih
          · simp [Archive.perform, hwritten]
          · simp [Archive.perform, h hwritten, Stamp.liveAt]

/-- One cleanup more or less changes no other answer, except that a feed that was never written
begins to show that nothing is live. -/
theorem Sound.answers_clean (h : a.Sound) (before after : List (Int × Operation)) (now : Int) :
    List.Forall₂ (Answer.Agrees ((a.after before).written = false)) (a.answers (before ++ after))
      ((a.answers (before ++ (now, .clean) :: after)).eraseIdx before.length) := by
  have hle : (a.answers before).length ≤ before.length := Nat.le_of_eq (length_answers a before)
  rw [answers_append, answers_append, List.eraseIdx_append_of_length_le hle, length_answers,
    Nat.sub_self]
  apply List.rel_append (agrees_refl _ _)
  cases hahead : Stamp.ahead? now (a.after before).stamps with
  | some latest =>
      simp only [answers, Archive.perform, hahead, List.eraseIdx_zero, List.tail_cons]
      exact agrees_refl _ _
  | none =>
      simp only [answers, Archive.perform, hahead, List.eraseIdx_zero, List.tail_cons]
      by_cases hwritten : (a.after before).written = false
      · have hagree := (h.after before).answers_written hwritten after
        exact hagree.imp fun _ _ => Or.imp_right fun hshown => ⟨hwritten, hshown.2⟩
      · have hsame : ({ a.after before with written := true } : Archive) = a.after before := by
          rw [← eq_true_of_ne_false hwritten]
        rw [hsame]
        exact agrees_refl _ _

end Archive

namespace Session

variable {ω : Type}

section

variable [Limits]

/-- When the clock never goes back, a feed gives the answers of an archive, and one cleanup more or
less changes no other answer, except that a feed that was never written begins to show that nothing
is live. -/
theorem history_matches_archive (listener : Listener ω) (hlistener : listener.Accepts)
    (s : Session ω) (lifetime : Int) (initial : Option (List Stamp))
    (hfeed : s.feed.Holds lifetime initial) (hrecord : ∀ r ∈ s.feed.subscribers, r = .record) :
    let answers (steps : List (Int × Operation)) : List Answer :=
      (s.history listener steps).1.map (·.answer.observed)
    (∀ steps : List (Int × Operation), steps.Pairwise (fun x y => x.1 ≤ y.1) →
      answers steps = (Archive.ofHeld s.feed.authority lifetime initial).answers steps) ∧
    ∀ (before after : List (Int × Operation)) (now : Int),
      (before ++ (now, .clean) :: after).Pairwise (fun x y => x.1 ≤ y.1) →
      List.Forall₂ (Answer.Agrees ((s.history listener before).2.feed.log = none))
        (answers (before ++ after))
        ((answers (before ++ (now, .clean) :: after)).eraseIdx before.length) := by
  intro answers
  have hs : s.Plain s.feed.authority lifetime initial := ⟨rfl, hfeed, hrecord⟩
  have hanswers (steps : List (Int × Operation)) (htimes : steps.Pairwise fun x y => x.1 ≤ y.1) :
      answers steps = (Archive.ofHeld s.feed.authority lifetime initial).answers steps := by
    obtain ⟨t, hhistory, -⟩ := history_plain hlistener hs steps
    rw [(Archive.answers_ofHeld s.feed.authority lifetime hfeed.ordered htimes).1]
    exact congrArg (fun run => run.1.map (·.answer.observed)) hhistory
  refine ⟨hanswers, ?_⟩
  intro before after now htimes
  have hbefore : before.Pairwise fun x y => x.1 ≤ y.1 := (List.pairwise_append.mp htimes).1
  have hwithout : (before ++ after).Pairwise fun x y => x.1 ≤ y.1 :=
    htimes.sublist ((List.sublist_cons_self _ _).append_left before)
  rw [hanswers _ htimes, hanswers _ hwithout]
  have hagrees := (Archive.sound_ofHeld s.feed.authority lifetime initial).answers_clean before
    after now
  apply hagrees.imp
  intro _ _
  apply Or.imp_right
  apply And.imp_left
  intro hwritten
  obtain ⟨t, hhistory, ht⟩ := history_plain hlistener hs before
  rw [(Archive.answers_ofHeld s.feed.authority lifetime hfeed.ordered hbefore).2] at hwritten
  rw [hhistory, ht.holds.log_eq, Option.map_eq_none_iff]
  exact Option.not_isSome_iff_eq_none.mp (by simp [hwritten])

end

open scoped Limits

/-- A cleanup before the time of an entry is refused, and a reader does not notice one that evicts
the entry. -/
theorem history_matches_archive_of_future :
    let listener : Listener (List Note) := fun note notes => .ok (note :: notes)
    let feed : Feed :=
      { Feed.new (.ofString "ann") (.int 10) with log := some (Log.stamped 10 [⟨[1], 7⟩]) }
    let s : Session (List Note) := ⟨feed, Clock.showing (.int 0), []⟩
    let push : Operation := .push (.str (.ofString "ann")) (.bytes .fixed [2])
    let answers (steps : List (Int × Operation)) : List Answer :=
      (s.history listener steps).1.map (·.answer.observed)
    answers [(3, .clean), (8, push), (17, .clean), (17, .read)] =
        [.refused (.log (.stale (.int 3) (.int 7))), .pushed ⟨[2], .int 8⟩, .cleaned 0,
          .shown (some [[2]])] ∧
      answers [(3, .clean), (8, push), (17, .read)] =
        [.refused (.log (.stale (.int 3) (.int 7))), .pushed ⟨[2], .int 8⟩,
          .shown (some [[2]])] := by
  intro listener feed s push answers
  have hlistener : listener.Accepts := fun note notes => ⟨note :: notes, rfl⟩
  have hfeed : s.feed.Holds 10 (some [⟨[1], 7⟩]) := ⟨rfl, rfl, List.pairwise_singleton _ _⟩
  have hrecord : ∀ r ∈ s.feed.subscribers, r = .record := by decide
  obtain ⟨hanswers, -⟩ := history_matches_archive listener hlistener s 10 _ hfeed hrecord
  rw [← Log.Fault.ofStale_of_fit (by decide +kernel) (by decide +kernel)]
  refine ⟨(hanswers _ ?_).trans rfl, (hanswers _ ?_).trans rfl⟩
  · decide
  · decide

end Session
end LiveFeed
