/-
Which snapshots are accepted.  A snapshot is an object; its times, where there are any, are whole
numbers.  It is accepted if and only if it is well formed, which is said here without the reader: it
has entries and a lifetime, or is given one, every entry is an object with a payload in hexadecimal
text and a time, and times do not decrease.  Otherwise the fault tells what is missing, which entry
is the first bad one, or which two times are out of order.
-/
import LiveFeed.Feed.Delivery
import LiveFeed.Proofs.Log.Snapshot

namespace LiveFeed

/-- The whole number that a value is; truth values count as zero and one. -/
def Value.whole? (v : Value) : Option Int :=
  match v.number? with
  | some (.whole n) => some n
  | _ => none

theorem Value.order_less_of_whole {v w : Value} {m n : Int} (hv : v.whole? = some m)
    (hw : w.whole? = some n) : Value.order .less v w = .ok (decide (m < n)) := by
  have hnumber {u : Value} {k : Int} (hu : u.whole? = some k) : u.number? = some (.whole k) := by
    unfold whole? at hu
    split at hu
    · rename_i hwhole
      rw [hwhole, Option.some.inj hu]
    · cases hu
  rw [order_of_numbers .less (hnumber hv) (hnumber hw)]
  exact congrArg Except.ok (Comparison.holds_less m n)

namespace Log

variable {entries : List Entry}

/-- All times are whole numbers or truth values. -/
def HasWholeTimes (entries : List Entry) : Prop :=
  ∀ e ∈ entries, ∃ n, e.recordedAt.whole? = some n

/-- The times of entries, as far as they are whole. -/
def wholeTimes (entries : List Entry) : List Int := entries.filterMap (·.recordedAt.whole?)

theorem wholeTimes_cons {e : Entry} {n : Int} (h : e.recordedAt.whole? = some n)
    (rest : List Entry) : wholeTimes (e :: rest) = n :: wholeTimes rest :=
  List.filterMap_cons_some h

/-- Whole times are in order if and only if they never decrease. -/
theorem inOrder_iff_of_whole (h : HasWholeTimes entries) :
    InOrder entries ↔ (wholeTimes entries).Pairwise (· ≤ ·) := by
  rw [← List.isChain_iff_pairwise]
  induction entries with
  | nil => simp [InOrder, wholeTimes]
  | cons first rest ih =>
      obtain ⟨hfirst, hrest⟩ := List.forall_mem_cons.mp h
      obtain ⟨m, hm⟩ := hfirst
      cases rest with
      | nil => simp [InOrder, wholeTimes, hm]
      | cons second rest =>
          obtain ⟨n, hn⟩ := hrest second List.mem_cons_self
          have hmore := ih hrest
          rw [InOrder, wholeTimes_cons hn] at hmore
          rw [InOrder, wholeTimes_cons hm, wholeTimes_cons hn, List.isChain_cons_cons,
            List.isChain_cons_cons, Value.order_less_of_whole hn hm, hmore]
          simp

/-- Whole times that are not in order are refused because one is less than the one before it. -/
theorem checkOrder_of_whole (h : HasWholeTimes entries) {fault : Fault}
    (hfault : checkOrder entries = .error fault) :
    ∃ later earlier, fault = .outOfOrder later earlier := by
  fun_induction checkOrder entries with
  | case1 earlier later rest cause horder =>
      obtain ⟨m, hm⟩ := h earlier (by simp)
      obtain ⟨n, hn⟩ := h later (by simp)
      rw [Value.order_less_of_whole hn hm] at horder
      cases horder
  | case2 earlier later rest _ => exact ⟨_, _, (Except.error.inj hfault).symm⟩
  | case3 earlier later rest _ ih =>
      exact ih (fun e he => h e (List.mem_cons_of_mem earlier he)) hfault
  | case4 => cases hfault

end Log

namespace Snapshot

variable {fields : List (Text × Value)} {given : Option Int} {vs : List Value} {es : List Entry}

/-! Well-formed snapshots -/

/-- A value that tells of an entry: an object with a payload in hexadecimal text and a time. -/
def IsEntry (v : Value) : Prop :=
  ∃ fields text octets time, v = .object fields ∧
    Value.field? fields "payload" = some (.str text) ∧ Hex.Spells text.chars octets ∧
    Value.field? fields "recorded_at" = some time

/-- The time of which a value tells, if it is whole. -/
def time? : Value → Option Int
  | .object fields => (Value.field? fields "recorded_at").bind Value.whole?
  | _ => none

/-- If a value has a time, it is whole. -/
def HasWholeTime (v : Value) : Prop :=
  ∀ fields time, v = .object fields → Value.field? fields "recorded_at" = some time →
    ∃ n, time.whole? = some n

/-- The lifetime of a snapshot: the one that is given, or else the stored one. -/
def lifetime? (fields : List (Text × Value)) (given : Option Int) : Option Value :=
  (given.map Value.int).or (Value.field? fields "lifetime")

/-- An object that tells of a log. -/
structure IsWellFormed (fields : List (Text × Value)) (given : Option Int) : Prop where
  lifetime : (lifetime? fields given).isSome = true
  entries : ∃ vs, Value.field? fields "entries" = some (.list vs) ∧ (∀ v ∈ vs, IsEntry v) ∧
    (vs.filterMap time?).Pairwise (· ≤ ·)

/-- What is wrong with an object that tells of no log. -/
inductive Rejects (fields : List (Text × Value)) (given : Option Int) : Fault → Prop where
  | noEntries (hentries : Value.field? fields "entries" = none) :
      Rejects fields given (.missingField "entries")
  | noLifetime (hentries : (Value.field? fields "entries").isSome = true)
      (hlifetime : lifetime? fields given = none) :
      Rejects fields given (.missingField "lifetime")
  | badEntry {front rest : List Value} {bad : Value} (cause : EntryFault)
      (hlifetime : (lifetime? fields given).isSome = true)
      (hentries : Value.field? fields "entries" = some (.list (front ++ bad :: rest)))
      (hfront : ∀ v ∈ front, IsEntry v) (hbad : ¬ IsEntry bad) :
      Rejects fields given (.badEntry front.length cause)
  | outOfOrder {vs : List Value} (later earlier : Value)
      (hlifetime : (lifetime? fields given).isSome = true)
      (hentries : Value.field? fields "entries" = some (.list vs))
      (hall : ∀ v ∈ vs, IsEntry v) (hunordered : ¬ (vs.filterMap time?).Pairwise (· ≤ ·)) :
      Rejects fields given (.log (.outOfOrder later earlier))

/-! What is read -/

theorem lookup_eq_ok_iff {v w : Value} {key : String} :
    lookup v key = .ok w ↔ ∃ fields, v = .object fields ∧ Value.field? fields key = some w := by
  cases v with
  | object fields =>
      rw [lookup]
      cases hfield : Value.field? fields key with
      | none => simp [hfield]
      | some found => simp [hfield]
  | _ => simp [lookup]

theorem isEntry_iff {v : Value} : IsEntry v ↔ ∃ e, Stores v e := by
  constructor
  · rintro ⟨fields, text, octets, time, rfl, hpayload, hspells, htime⟩
    exact ⟨⟨octets, time⟩, text, lookup_eq_ok_iff.mpr ⟨fields, rfl, hpayload⟩, hspells,
      lookup_eq_ok_iff.mpr ⟨fields, rfl, htime⟩⟩
  · rintro ⟨e, text, hpayload, hspells, htime⟩
    obtain ⟨fields, rfl, hpayloadField⟩ := lookup_eq_ok_iff.mp hpayload
    obtain ⟨_, hsame, htimeField⟩ := lookup_eq_ok_iff.mp htime
    cases hsame
    exact ⟨fields, text, e.payload, e.recordedAt, rfl, hpayloadField, hspells, htimeField⟩

theorem Stores.time?_eq {v : Value} {e : Entry} (h : Stores v e) :
    time? v = e.recordedAt.whole? := by
  obtain ⟨-, -, -, htime⟩ := h
  obtain ⟨fields, rfl, hfield⟩ := lookup_eq_ok_iff.mp htime
  rw [time?, hfield, Option.bind_some]

theorem Stores.whole {v : Value} {e : Entry} (h : Stores v e) (hwhole : HasWholeTime v) :
    ∃ n, e.recordedAt.whole? = some n := by
  obtain ⟨-, -, -, htime⟩ := h
  obtain ⟨fields, rfl, hfield⟩ := lookup_eq_ok_iff.mp htime
  exact hwhole fields e.recordedAt rfl hfield

/-- The entries that are read are those that are told of, with their times. -/
theorem wholeTimes_of_stores (h : List.Forall₂ Stores vs es) :
    vs.filterMap time? = Log.wholeTimes es := by
  induction h with
  | nil => rfl
  | cons hentry _ ih =>
      rw [Log.wholeTimes, List.filterMap_cons, List.filterMap_cons, hentry.time?_eq, ih]
      rfl

theorem hasWholeTimes_of_stores (h : List.Forall₂ Stores vs es)
    (hwhole : ∀ v ∈ vs, HasWholeTime v) : Log.HasWholeTimes es := by
  induction h with
  | nil => nofun
  | cons hentry _ ih =>
      obtain ⟨hfirst, hrest⟩ := List.forall_mem_cons.mp hwhole
      exact List.forall_mem_cons.mpr ⟨hentry.whole hfirst, ih hrest⟩

theorem exists_stores_iff : (∃ es, List.Forall₂ Stores vs es) ↔ ∀ v ∈ vs, IsEntry v := by
  induction vs with
  | nil => simp
  | cons v rest ih =>
      rw [List.forall_mem_cons, ← ih, isEntry_iff]
      constructor
      · rintro ⟨es, h⟩
        obtain ⟨e, more, hentry, hmore, -⟩ := List.forall₂_cons_left_iff.mp h
        exact ⟨⟨e, hentry⟩, more, hmore⟩
      · rintro ⟨⟨e, hentry⟩, more, hmore⟩
        exact ⟨e :: more, .cons hentry hmore⟩

/-- Reading entries fails at the first bad one, and with its index. -/
theorem decodeEntries_eq_error {index : Nat} {fault : Fault}
    (h : decodeEntries index vs = .error fault) :
    ∃ front bad rest cause, vs = front ++ bad :: rest ∧ (∀ v ∈ front, IsEntry v) ∧
      ¬ IsEntry bad ∧ fault = .badEntry (index + front.length) cause := by
  induction vs generalizing index with
  | nil => cases h
  | cons v rest ih =>
      rw [decodeEntries] at h
      rcases bind_eq_error_iff.mp h with hbad | ⟨e, hentry, h⟩
      · obtain ⟨cause, hcause, rfl⟩ := mapError_eq_error_iff.mp hbad
        refine ⟨[], v, rest, cause, rfl, List.forall_mem_nil _, ?_, rfl⟩
        rw [isEntry_iff]
        rintro ⟨e, hstores⟩
        rw [decodeEntry_eq_ok_iff.mpr hstores] at hcause
        cases hcause
      · have hfirst : IsEntry v :=
          isEntry_iff.mpr ⟨e, decodeEntry_eq_ok_iff.mp (mapError_eq_ok_iff.mp hentry)⟩
        rcases bind_eq_error_iff.mp h with hmore | ⟨more, -, hdone⟩
        · obtain ⟨front, bad, after, cause, rfl, hfront, hbad, rfl⟩ := ih hmore
          refine ⟨v :: front, bad, after, cause, rfl, List.forall_mem_cons.mpr ⟨hfirst, hfront⟩,
            hbad, ?_⟩
          rw [List.length_cons, Nat.add_right_comm, Nat.add_assoc]
        · cases hdone

theorem mentions_object (fields : List (Text × Value)) (key : String) :
    mentions (.object fields) key = .ok (Value.field? fields key).isSome := by
  rw [mentions, Value.field?, Option.isSome_map]
  exact congrArg Except.ok (Bool.eq_iff_iff.mpr (by rw [List.any_eq_true, List.find?_isSome]))

/-- The last stage of reading: the entries are read, and then their order is checked. -/
def rebuild (lifetime stored : Value) : Except Fault Log := do
  let entries ← decodeEntries 0 (← members stored)
  (Log.ofEntries? lifetime entries).mapError .log

/-- The stages of reading an object. -/
theorem decode_object (fields : List (Text × Value)) (given : Option Int) :
    decode (.object fields) (given.map Value.int) =
      match Value.field? fields "entries", lifetime? fields given with
      | none, _ => .error (.missingField "entries")
      | some _, none => .error (.missingField "lifetime")
      | some stored, some lifetime => rebuild lifetime stored := by
  rw [decode, mentions_object]
  cases hentries : Value.field? fields "entries" with
  | none => rfl
  | some stored =>
      have hlookup : lookup (.object fields) "entries" = .ok stored := by
        rw [lookup, hentries]
      cases given with
      | some length =>
          simp only [Option.map_some, lifetimeOf, hlookup]
          rfl
      | none =>
          rw [Option.map_none, lifetimeOf, mentions_object, lookup, hlookup, lifetime?,
            Option.map_none, Option.none_or]
          cases Value.field? fields "lifetime" <;> rfl

/-- The entries that stand in a list are read and put in order, or one of them is bad, or two of
them are out of order. -/
theorem rebuild_cases (lifetime : Value) (hwhole : ∀ v ∈ vs, HasWholeTime v) :
    (∃ es, List.Forall₂ Stores vs es ∧ (vs.filterMap time?).Pairwise (· ≤ ·) ∧
      rebuild lifetime (.list vs) = .ok ⟨lifetime, es⟩) ∨
    (∃ front bad rest cause, vs = front ++ bad :: rest ∧ (∀ v ∈ front, IsEntry v) ∧
      ¬ IsEntry bad ∧ rebuild lifetime (.list vs) = .error (.badEntry front.length cause)) ∨
    (∀ v ∈ vs, IsEntry v) ∧ ¬ (vs.filterMap time?).Pairwise (· ≤ ·) ∧
      ∃ later earlier, rebuild lifetime (.list vs) = .error (.log (.outOfOrder later earlier)) := by
  have hrebuild : rebuild lifetime (.list vs) = decodeEntries 0 vs >>= fun entries =>
      (Log.ofEntries? lifetime entries).mapError .log := rfl
  cases hread : decodeEntries 0 vs with
  | error fault =>
      obtain ⟨front, bad, rest, cause, hvs, hfront, hbad, rfl⟩ := decodeEntries_eq_error hread
      refine .inr (.inl ⟨front, bad, rest, cause, hvs, hfront, hbad, ?_⟩)
      rw [hrebuild, hread, Nat.zero_add]
      rfl
  | ok es =>
      have hstores := decodeEntries_eq_ok_iff.mp hread
      have horder := Log.inOrder_iff_of_whole (hasWholeTimes_of_stores hstores hwhole)
      rw [← wholeTimes_of_stores hstores, ← Log.checkOrder_eq_ok_iff] at horder
      cases hcheck : Log.checkOrder es with
      | ok _ =>
          refine .inl ⟨es, hstores, horder.mp hcheck, ?_⟩
          rw [hrebuild, hread]
          exact mapError_eq_ok_iff.mpr (Log.ofEntries?_eq_ok_iff.mpr ⟨rfl, hcheck⟩)
      | error fault =>
          obtain ⟨later, earlier, rfl⟩ :=
            Log.checkOrder_of_whole (hasWholeTimes_of_stores hstores hwhole) hcheck
          refine .inr (.inr ⟨exists_stores_iff.mp ⟨es, hstores⟩, ?_, later, earlier, ?_⟩)
          · intro hsorted
            rw [horder.mpr hsorted] at hcheck
            cases hcheck
          · rw [hrebuild, hread]
            change (Log.ofEntries? lifetime es).mapError Fault.log = _
            rw [Log.ofEntries?, hcheck]
            rfl

/-! Acceptance -/

/-- If an object has entries, they are a list, and the times in it are whole. -/
def ListsWholeTimes (fields : List (Text × Value)) : Prop :=
  ∀ stored, Value.field? fields "entries" = some stored →
    ∃ vs, stored = .list vs ∧ ∀ v ∈ vs, HasWholeTime v

/-- An object is read as a log with its lifetime and its entries if it is well formed, and else it
is refused for what is wrong with it. -/
theorem decode_cases (h : ListsWholeTimes fields) (given : Option Int) :
    (∃ lifetime vs es, lifetime? fields given = some lifetime ∧
      Value.field? fields "entries" = some (.list vs) ∧ List.Forall₂ Stores vs es ∧
      IsWellFormed fields given ∧
      decode (.object fields) (given.map Value.int) = .ok ⟨lifetime, es⟩) ∨
    ∃ fault, Rejects fields given fault ∧
      decode (.object fields) (given.map Value.int) = .error fault := by
  rw [decode_object]
  cases hstored : Value.field? fields "entries" with
  | none => exact .inr ⟨_, .noEntries hstored, rfl⟩
  | some stored =>
      obtain ⟨vs, rfl, hwhole⟩ := h stored hstored
      cases hlifetime : lifetime? fields given with
      | none => exact .inr ⟨_, .noLifetime (by rw [hstored]; rfl) hlifetime, rfl⟩
      | some lifetime =>
          have hsome : (lifetime? fields given).isSome = true := by rw [hlifetime]; rfl
          obtain ⟨es, hes, hsorted, hread⟩ | ⟨front, bad, rest, cause, rfl, hfront, hbad, hread⟩ |
            ⟨hall, hunordered, later, earlier, hread⟩ := rebuild_cases lifetime hwhole
          · exact .inl ⟨lifetime, vs, es, rfl, rfl, hes,
              ⟨hsome, vs, hstored, exists_stores_iff.mp ⟨es, hes⟩, hsorted⟩, hread⟩
          · exact .inr ⟨_, .badEntry cause hsome hstored hfront hbad, hread⟩
          · exact .inr ⟨_, .outOfOrder later earlier hsome hstored hall hunordered, hread⟩

/-- What is refused is not well formed. -/
theorem Rejects.not_wellFormed {fault : Fault} (h : Rejects fields given fault) :
    ¬ IsWellFormed fields given := by
  rintro ⟨hlifetime, vs, hvs, hall, hsorted⟩
  cases h with
  | noEntries hentries =>
      rw [hentries] at hvs
      cases hvs
  | noLifetime _ hnone =>
      rw [hnone] at hlifetime
      cases hlifetime
  | badEntry cause _ hentries _ hbad =>
      rw [hvs] at hentries
      cases hentries
      exact hbad (hall _ (List.mem_append_right _ List.mem_cons_self))
  | outOfOrder later earlier _ hentries _ hunordered =>
      rw [hvs] at hentries
      cases hentries
      exact hunordered hsorted

/-- The place of the first element without a property is determined. -/
theorem first_unique {α : Type} {p : α → Prop} {front front' rest rest' : List α} {bad bad' : α}
    (h : front ++ bad :: rest = front' ++ bad' :: rest') (hfront : ∀ v ∈ front, p v)
    (hbad : ¬ p bad) (hfront' : ∀ v ∈ front', p v) (hbad' : ¬ p bad') :
    front.length = front'.length := by
  induction front generalizing front' with
  | nil =>
      cases front' with
      | nil => rfl
      | cons _ _ =>
          cases h
          exact absurd (hfront' bad List.mem_cons_self) hbad
  | cons first more ih =>
      cases front' with
      | nil =>
          cases h
          exact absurd (hfront bad' List.mem_cons_self) hbad'
      | cons first' more' =>
          obtain ⟨-, hrest⟩ := List.cons.inj h
          exact congrArg (· + 1) (ih hrest (fun v hv => hfront v (List.mem_cons_of_mem _ hv))
            fun v hv => hfront' v (List.mem_cons_of_mem _ hv))

/-- With a lifetime, entries of which one is bad are refused with the index of the first bad one. -/
theorem Rejects.first_bad {fault : Fault} (h : Rejects fields given fault)
    (hlifetime : (lifetime? fields given).isSome = true) {front rest : List Value} {bad : Value}
    (hentries : Value.field? fields "entries" = some (.list (front ++ bad :: rest)))
    (hfront : ∀ v ∈ front, IsEntry v) (hbad : ¬ IsEntry bad) :
    ∃ cause, fault = .badEntry front.length cause := by
  cases h with
  | noEntries hnone =>
      rw [hentries] at hnone
      cases hnone
  | noLifetime _ hnone =>
      rw [hnone] at hlifetime
      cases hlifetime
  | badEntry cause _ hentries' hfront' hbad' =>
      rw [hentries] at hentries'
      have hsame := Value.list.inj (Option.some.inj hentries')
      exact ⟨cause, by rw [first_unique hsame hfront hbad hfront' hbad']⟩
  | outOfOrder _ _ _ hentries' hall _ =>
      rw [hentries] at hentries'
      cases hentries'
      exact absurd (hall _ (List.mem_append_right _ List.mem_cons_self)) hbad

section

variable [Limits]

/-- An object is read as a log if and only if it is well formed; the log has its lifetime and
exactly its entries, in their order.  Else the fault is one of four, and with a lifetime a bad entry
is reported before times out of order, the first one by its index.  A feed loads an object if and
only if it is read under the lifetime of the feed, and it is as before if not. -/
theorem decode_accepts_well_formed (h : ListsWholeTimes fields) (given : Option Int) :
    ((∃ log, decode (.object fields) (given.map Value.int) = .ok log) ↔
      IsWellFormed fields given) ∧
    (∀ log, decode (.object fields) (given.map Value.int) = .ok log →
      lifetime? fields given = some log.lifetime ∧
        ∃ vs, Value.field? fields "entries" = some (.list vs) ∧
          List.Forall₂ Stores vs log.entries) ∧
    (∀ fault, decode (.object fields) (given.map Value.int) = .error fault →
      Rejects fields given fault) ∧
    (∀ front bad rest, (lifetime? fields given).isSome = true →
      Value.field? fields "entries" = some (.list (front ++ bad :: rest)) →
      (∀ v ∈ front, IsEntry v) → ¬ IsEntry bad →
      ∃ cause : EntryFault,
        decode (.object fields) (given.map Value.int) = .error (.badEntry front.length cause) ∧
        (Fault.badEntry front.length cause).message =
          "snapshot: bad entry #" ++ toString front.length ++ ": " ++ cause.message) ∧
    ∀ {ω : Type} (s : Session ω) (lifetime : Int), s.feed.lifetime = .int lifetime →
      match decode (.object fields) (some (.int lifetime)) with
      | .ok log =>
          Session.load (.object fields) s =
            .ok () { s with feed := { s.feed with log := some log } }
      | .error fault => Session.load (.object fields) s = .error (.snapshot fault) s := by
  have hcases := decode_cases h given
  refine ⟨?_, ?_, ?_, ?_, ?_⟩
  · obtain ⟨lifetime, vs, es, -, -, -, hwell, hread⟩ | ⟨fault, hrejects, hread⟩ := hcases
    · exact ⟨fun _ => hwell, fun _ => ⟨_, hread⟩⟩
    · refine ⟨?_, fun hwell => absurd hwell hrejects.not_wellFormed⟩
      rintro ⟨log, hlog⟩
      rw [hlog] at hread
      cases hread
  · intro log hlog
    obtain ⟨lifetime, vs, es, hlifetime, hvs, hes, -, hread⟩ | ⟨fault, -, hread⟩ := hcases
    all_goals
      rw [hlog] at hread
      cases hread
    exact ⟨hlifetime, vs, hvs, hes⟩
  · intro fault hfault
    obtain ⟨lifetime, vs, es, -, -, -, -, hread⟩ | ⟨fault, hrejects, hread⟩ := hcases
    all_goals
      rw [hfault] at hread
      cases hread
    exact hrejects
  · intro front bad rest hlifetime hentries hfront hbad
    obtain ⟨lifetime, vs, es, -, -, -, hwell, -⟩ | ⟨fault, hrejects, hread⟩ := hcases
    · exact absurd hwell
        (Rejects.badEntry (.notText .null) hlifetime hentries hfront hbad).not_wellFormed
    · obtain ⟨cause, rfl⟩ := hrejects.first_bad hlifetime hentries hfront hbad
      exact ⟨cause, hread, rfl⟩
  · intro ω s lifetime hlifetime
    rw [← hlifetime]
    simp only [Session.load, Feed.load]
    cases decode (.object fields) (some s.feed.lifetime) <;> rfl

end

open scoped Limits

/-- Of two entries with times out of order and a number after them, the number is reported. -/
theorem decode_accepts_well_formed_number_last :
    let front := [encodeEntry ⟨[97], .int 5⟩, encodeEntry ⟨[98], .int 3⟩]
    let fields : List (Text × Value) :=
      [("lifetime", .int 9), ("entries", .list (front ++ [.int 7]))]
    ListsWholeTimes fields ∧
      ∃ cause, decode (.object fields) none = .error (.badEntry 2 cause) := by
  intro front fields
  have hstored : Value.field? fields "entries" = some (.list (front ++ [.int 7])) := rfl
  have hwhole : ListsWholeTimes fields := by
    intro stored hentries
    rw [hstored] at hentries
    refine ⟨_, (Option.some.inj hentries).symm, ?_⟩
    simp only [front, List.cons_append, List.nil_append, List.forall_mem_cons]
    refine ⟨?_, ?_, nofun, nofun⟩ <;>
    · rintro _ _ ⟨⟩ ⟨⟩
      exact ⟨_, rfl⟩
  have hfront : ∀ v ∈ front, IsEntry v := by
    simp only [front, List.forall_mem_cons]
    exact ⟨isEntry_iff.mpr ⟨_, stores_encodeEntry _⟩, isEntry_iff.mpr ⟨_, stores_encodeEntry _⟩,
      nofun⟩
  have hbad : ¬ IsEntry (.int 7) := by
    rintro ⟨_, _, _, _, ⟨⟩, _⟩
  obtain ⟨-, -, -, hfirst, -⟩ := decode_accepts_well_formed hwhole none
  obtain ⟨cause, hread, -⟩ := hfirst front (.int 7) [] rfl hstored hfront hbad
  exact ⟨hwhole, cause, hread⟩

end Snapshot
end LiveFeed
