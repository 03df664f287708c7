/-
What a log shows, whatever its times are.  Where every entry can be judged, live or expired, the
search ends at a boundary, and what lies behind the boundary is what a filter of the live entries
keeps if and only if no entry behind a live one has expired.  A log of times in order is of that
kind, and then its operations are those of a filtered list.
-/
import LiveFeed.Log.Basic
import LiveFeed.Proofs.Log.Boundary
import LiveFeed.Proofs.Steps
import Mathlib.Data.List.Chain

namespace LiveFeed

section Lasting

variable {α : Type} {p : α → Bool} {l : List α}

/-- Once a test holds along a list, it holds to the end. -/
def Lasting (p : α → Bool) (l : List α) : Prop := l.Pairwise fun a b => p a = true → p b = true

/-- Of such a list the elements that fail the test come first. -/
theorem Lasting.filter_not_append_filter (h : Lasting p l) :
    (l.filter fun a => !p a) ++ l.filter p = l := by
  induction l with
  | nil => rfl
  | cons first rest ih =>
      obtain ⟨hfirst, hrest⟩ := List.pairwise_cons.mp h
      by_cases hp : p first = true
      · have hall : ∀ a ∈ first :: rest, p a = true :=
          List.forall_mem_cons.mpr ⟨hp, fun a ha => hfirst a ha hp⟩
        have hnone : ((first :: rest).filter fun a => !p a) = [] := by
          apply List.filter_eq_nil_iff.mpr
          intro a ha
          simp [hall a ha]
        rw [hnone, List.filter_eq_self.mpr hall, List.nil_append]
      · simp [hp, ih hrest]

theorem Lasting.drop_eq_filter (h : Lasting p l) :
    l.drop (l.filter fun a => !p a).length = l.filter p := by
  conv_lhs => arg 2; rw [← h.filter_not_append_filter]
  exact List.drop_left

/-- If the elements from an index on are those that pass the test, the test lasts: before the index
it never holds. -/
theorem lasting_of_drop_eq_filter {index : Nat} (h : l.drop index = l.filter p) :
    Lasting p l := by
  have hbehind : ∀ a ∈ l.drop index, p a = true := by
    intro a ha
    rw [h] at ha
    exact (List.mem_filter.mp ha).2
  have hbefore : ∀ a ∈ l.take index, ¬ p a = true := by
    have hsplit : (l.take index).filter p ++ l.drop index = l.filter p := by
      conv_rhs => rw [← List.take_append_drop index l]
      rw [List.filter_append, List.filter_eq_self.mpr hbehind]
    rw [← h, List.append_left_eq_self] at hsplit
    exact List.filter_eq_nil_iff.mp hsplit
  rw [Lasting, ← List.take_append_drop index l, List.pairwise_append]
  refine ⟨List.pairwise_of_forall_mem_list ?_, List.pairwise_of_forall_mem_list ?_, ?_⟩
  · intro a ha _ _ hp
    exact absurd hp (hbefore a ha)
  · intro _ _ b hb _
    exact hbehind b hb
  · intro _ _ b hb _
    exact hbehind b hb

end Lasting

namespace Log

variable {log : Log} {now : Value} {live : Entry → Bool}

/-- Neighbours can be compared, and the later one is not the less. -/
def InOrder (entries : List Entry) : Prop :=
  entries.IsChain fun earlier later =>
    Value.order .less later.recordedAt earlier.recordedAt = .ok false

theorem checkOrder_eq_ok_iff {entries : List Entry} :
    checkOrder entries = .ok () ↔ InOrder entries := by
  induction entries with
  | nil => simp [checkOrder, InOrder]
  | cons first rest ih =>
      cases rest with
      | nil => simp [checkOrder, InOrder]
      | cons second rest =>
          rw [InOrder, List.isChain_cons_cons, checkOrder]
          cases Value.order .less second.recordedAt first.recordedAt with
          | error fault => simp
          | ok before => cases before <;> simp [ih, InOrder]

theorem ofEntries?_eq_ok_iff {lifetime : Value} {entries : List Entry} {log : Log} :
    ofEntries? lifetime entries = .ok log ↔
      log = ⟨lifetime, entries⟩ ∧ checkOrder entries = .ok () := by
  rw [ofEntries?, bind_eq_ok_iff]
  constructor
  · rintro ⟨_, hordered, h⟩
    cases h
    exact ⟨rfl, hordered⟩
  · rintro ⟨rfl, hordered⟩
    exact ⟨(), hordered, rfl⟩

/-- Every entry of a log can be judged at a time, and is live as a test says. -/
def Judged (log : Log) (now : Value) (live : Entry → Bool) : Prop :=
  ∀ e ∈ log.entries, e.isLive log.lifetime now = .ok (live e)

theorem Judged.isLiveAt (h : log.Judged now live) {index : Nat} {e : Entry}
    (he : log.entries[index]? = some e) : log.isLiveAt now index = .ok (live e) := by
  rw [Log.isLiveAt, he]
  exact h e (List.mem_of_getElem? he)

/-- A boundary among entries that can be judged: the entry before it has expired, the entry at it is
live. -/
structure IsBoundary (live : Entry → Bool) (entries : List Entry) (index : Nat) : Prop where
  le_length : index ≤ entries.length
  before : ∀ e, 0 < index → entries[index - 1]? = some e → live e = false
  here : ∀ e, entries[index]? = some e → live e = true

/-- A search among entries that can be judged ends at a boundary. -/
theorem search_isBoundary_of_judges {ε : Type} {test : Nat → Except ε Bool} {entries : List Entry}
    (h : ∀ i e, entries[i]? = some e → test i = .ok (live e)) :
    ∃ index, Boundary.search test 0 entries.length = .ok index ∧
      IsBoundary live entries index := by
  obtain ⟨index, hfound, hbound⟩ :=
    Boundary.search_isBoundary test 0 entries.length (Nat.zero_le _) (by
      intro i _ hi
      exact ⟨_, h i _ (List.getElem?_eq_getElem hi)⟩)
  refine ⟨index, hfound, hbound.le_high, ?_, ?_⟩
  · intro e hpos he
    have hdead := hbound.before hpos
    rw [h _ e he, Except.ok.injEq] at hdead
    exact hdead
  · intro e he
    have hshown := hbound.here (List.getElem?_eq_some_iff.mp he).1
    rw [h _ e he, Except.ok.injEq] at hshown
    exact hshown

theorem Judged.exists_boundary (h : log.Judged now live) :
    ∃ index, log.boundary now = .ok index ∧ IsBoundary live log.entries index := by
  obtain ⟨index, hfound, hbound⟩ := search_isBoundary_of_judges fun _ _ he => h.isLiveAt he
  exact ⟨index, by rw [boundary, hfound, mapError_ok], hbound⟩

/-- Where a live entry stays live to the end, a boundary is the number of the expired ones. -/
theorem IsBoundary.eq_of_lasting {entries : List Entry} {index : Nat}
    (h : IsBoundary live entries index) (hlasting : Lasting live entries) :
    index = (entries.filter fun e => !live e).length := by
  have hsplit := hlasting.filter_not_append_filter
  have hdead : ∀ e ∈ entries.filter fun e => !live e, live e = false := by
    intro e he
    simpa using (List.mem_filter.mp he).2
  have hshown : ∀ e ∈ entries.filter live, live e = true := by
    intro e he
    exact (List.mem_filter.mp he).2
  generalize (entries.filter fun e => !live e) = dead at hsplit hdead ⊢
  generalize entries.filter live = shown at hsplit hshown
  have hlength := congrArg List.length hsplit
  rw [List.length_append] at hlength
  rcases Nat.lt_trichotomy index dead.length with hlt | heq | hgt
  · have hget : entries[index]? = some dead[index] := by
      rw [← hsplit, List.getElem?_append_left hlt, List.getElem?_eq_getElem hlt]
    have hlive := h.here _ hget
    rw [hdead _ (List.getElem_mem hlt)] at hlive
    cases hlive
  · exact heq
  · have hle := h.le_length
    have hinside : index - 1 - dead.length < shown.length := by omega
    have hget : entries[index - 1]? = some shown[index - 1 - dead.length] := by
      rw [← hsplit, List.getElem?_append_right (by omega), List.getElem?_eq_getElem hinside]
    have hexpired := h.before _ (by omega) hget
    rw [hshown _ (List.getElem_mem hinside)] at hexpired
    cases hexpired

theorem Judged.boundary_of_lasting (h : log.Judged now live) (hlasting : Lasting live log.entries) :
    log.boundary now = .ok (log.entries.filter fun e => !live e).length := by
  obtain ⟨index, hfound, hbound⟩ := h.exists_boundary
  rw [hfound, hbound.eq_of_lasting hlasting]

/-- What lies behind the boundary is what a filter keeps, if and only if liveness lasts. -/
theorem Judged.drop_eq_filter_iff (h : log.Judged now live) {index : Nat}
    (hfound : log.boundary now = .ok index) :
    log.entries.drop index = log.entries.filter live ↔ Lasting live log.entries := by
  constructor
  · exact lasting_of_drop_eq_filter
  · intro hlasting
    rw [h.boundary_of_lasting hlasting, Except.ok.injEq] at hfound
    rw [← hfound]
    exact hlasting.drop_eq_filter

/-- The log with the entries that pass a test. -/
def filtered (log : Log) (live : Entry → Bool) : Log :=
  { log with entries := log.entries.filter live }

theorem Judged.live_of_lasting (h : log.Judged now live) (hlasting : Lasting live log.entries) :
    log.live now = .ok ((log.entries.filter live).map Entry.payload) := by
  rw [Log.live, h.boundary_of_lasting hlasting, ← hlasting.drop_eq_filter]
  rfl

theorem exists_of_boundary_error {fault : Fault} (h : log.boundary now = .error fault) :
    ∃ e ∈ log.entries, ∃ cause, e.isLive log.lifetime now = .error cause ∧
      fault = .value cause := by
  rw [boundary] at h
  cases hsearch : Boundary.search (log.isLiveAt now) 0 log.entries.length with
  | ok index =>
      rw [hsearch] at h
      cases h
  | error cause =>
      rw [hsearch, mapError_error] at h
      cases h
      obtain ⟨i, -, hi, htest⟩ := Boundary.exists_of_search_error hsearch
      rw [Log.isLiveAt, List.getElem?_eq_getElem hi] at htest
      exact ⟨_, List.getElem_mem hi, cause, htest, rfl⟩

/-- Where no entry can be judged nothing can be found, unless there is nothing to find. -/
theorem boundary_error (hne : log.entries ≠ [])
    (h : ∀ e ∈ log.entries, ∃ cause, e.isLive log.lifetime now = .error cause) :
    ∃ cause, log.boundary now = .error (.value cause) := by
  obtain ⟨cause, hsearch⟩ :=
    Boundary.search_error (log.isLiveAt now) (List.length_pos_iff.mpr hne) (by
      intro i _ hi
      rw [Log.isLiveAt, List.getElem?_eq_getElem hi]
      exact h _ (List.getElem_mem hi))
  exact ⟨cause, by rw [boundary, hsearch, mapError_error]⟩

theorem live_eq_error_iff {fault : Fault} :
    log.live now = .error fault ↔ log.boundary now = .error fault := by
  simp only [Log.live, bind, Except.bind, pure, Except.pure]
  cases log.boundary now <;> simp

variable [Limits]

theorem Judged.evict_of_lasting (h : log.Judged now live) (hlasting : Lasting live log.entries) :
    log.evict now = (log.checkTime now).map fun _ =>
      ((log.entries.filter fun e => !live e).length, log.filtered live) := by
  rw [evict, h.boundary_of_lasting hlasting, filtered, ← hlasting.drop_eq_filter]
  cases log.checkTime now <;> rfl

/-! Whatever fails does so because an entry cannot be judged, or because of the time itself -/

theorem evict_eq_error {fault : Fault} (h : log.evict now = .error fault) :
    log.checkTime now = .error fault ∨ log.boundary now = .error fault := by
  simp only [evict, bind, Except.bind, pure, Except.pure] at h
  cases htime : log.checkTime now with
  | error other =>
      rw [htime] at h
      cases h
      exact .inl rfl
  | ok =>
      cases hfound : log.boundary now with
      | error other =>
          rw [htime, hfound] at h
          cases h
          exact .inr rfl
      | ok index =>
          rw [htime, hfound] at h
          cases h

/-! A push evicts and then records; before that it looks at what it is given -/

theorem push_of_no_octets (log : Log) (now : Value) {payload : Value}
    (h : ∀ container octets, payload ≠ .bytes container octets) :
    log.push now payload = .error (.notOctets payload.kind) := by
  cases payload with
  | bytes container octets => exact absurd rfl (h container octets)
  | _ => rfl

section Push

variable {container : Container} {octets : Bytes}

theorem push_eq_error_iff {fault : Fault} :
    log.push now (.bytes container octets) = .error fault ↔ log.evict now = .error fault := by
  simp only [push, Log.octets, bind, Except.bind, pure, Except.pure]
  cases log.evict now <;> simp

theorem push_eq_ok_iff {next : Log} :
    log.push now (.bytes container octets) = .ok next ↔
      ∃ count kept, log.evict now = .ok (count, kept) ∧
        next = { kept with entries := kept.entries ++ [⟨octets, now⟩] } := by
  simp only [push, Log.octets, bind, Except.bind, pure, Except.pure]
  cases log.evict now with
  | error fault => simp
  | ok evicted =>
      obtain ⟨count, kept⟩ := evicted
      simp [eq_comm]

end Push

end Log
end LiveFeed
