/-
Snapshots of logs.  A log is rebuilt from exactly those values that tell of it, and what is written
of a log is the canonical one among them: it has nothing but the lifetime and the entries, and
payloads in lower-case digits.  The snapshot of a log with whole times is a plain value.
-/
import LiveFeed.Log.Snapshot
import LiveFeed.Proofs.Json.RoundTrip
import LiveFeed.Proofs.Json.Stop
import LiveFeed.Proofs.Log.Stamp
import LiveFeed.Proofs.Steps
import Mathlib.Data.List.Forall2

namespace LiveFeed.Snapshot

theorem isPlain_encodeEntry (s : Stamp) : (encodeEntry s.entry).isPlain = true := by
  have hkeys : [Text.ofString "payload", Text.ofString "recorded_at"].Nodup := by decide
  simp [encodeEntry, Stamp.entry, Value.isPlain, Value.fieldsArePlain, hkeys]

theorem isPlain_encode (lifetime : Int) (ss : List Stamp) :
    (encode (Log.stamped lifetime ss)).isPlain = true := by
  have hkeys : [Text.ofString "lifetime", Text.ofString "entries"].Nodup := by decide
  have hentries : Value.arePlain ((ss.map Stamp.entry).map encodeEntry) = true := by
    induction ss with
    | nil => rfl
    | cons s rest ih => simpa [Value.arePlain, isPlain_encodeEntry] using ih
  rw [encode, Log.stamped_lifetime, Log.stamped_entries]
  simp only [Value.isPlain, Value.fieldsArePlain, hentries, List.map_cons, List.map_nil, hkeys,
    Text.hasHalf_ofString, decide_true, Bool.not_false, Bool.and_self]

variable {key other : String} (v w : Value)

theorem lookup_first : lookup (.object [(key, v), (other, w)]) key = .ok v := by
  simp [lookup, Value.field?]

theorem lookup_second (h : Text.ofString key ≠ Text.ofString other) :
    lookup (.object [(key, v), (other, w)]) other = .ok w := by
  simp [lookup, Value.field?, h]

theorem mentions_of_lookup {v w : Value} (h : lookup v key = .ok w) :
    mentions v key = .ok true := by
  unfold lookup at h
  split at h
  · rename_i fields
    split at h
    · rename_i found hfield
      obtain ⟨field, hfind, -⟩ := Option.map_eq_some_iff.mp hfield
      have hkey := List.find?_some hfind
      have hany : fields.any (·.1 = Text.ofString key) = true :=
        List.any_eq_true.mpr ⟨field, List.mem_of_find?_eq_some hfind, hkey⟩
      rw [mentions, hany]
    · cases h
  · cases h

/-! What is read -/

/-- A value tells of an entry: it has a text that spells the payload, and the time. -/
def Stores (v : Value) (e : Entry) : Prop :=
  ∃ text, lookup v "payload" = .ok (.str text) ∧ Hex.Spells text.chars e.payload ∧
    lookup v "recorded_at" = .ok e.recordedAt

theorem decodeEntry_eq_ok_iff {v : Value} {e : Entry} : decodeEntry v = .ok e ↔ Stores v e := by
  rw [decodeEntry]
  constructor
  · intro h
    obtain ⟨found, hpayload, h⟩ := bind_eq_ok_iff.mp h
    cases found with
    | str text =>
        obtain ⟨bytes, hbytes, h⟩ := bind_eq_ok_iff.mp h
        obtain ⟨time, htime, h⟩ := bind_eq_ok_iff.mp h
        cases h
        exact ⟨text, mapError_eq_ok_iff.mp hpayload,
          Hex.decode_eq_ok_iff.mp (mapError_eq_ok_iff.mp hbytes), mapError_eq_ok_iff.mp htime⟩
    | _ => cases h
  · rintro ⟨text, hpayload, hspells, htime⟩
    rw [hpayload, htime]
    simp only [mapError_ok, bind, Except.bind, Hex.decode_eq_ok_iff.mpr hspells]
    rfl

theorem decodeEntries_eq_ok_iff {index : Nat} {vs : List Value} {es : List Entry} :
    decodeEntries index vs = .ok es ↔ List.Forall₂ Stores vs es := by
  induction vs generalizing index es with
  | nil =>
      rw [decodeEntries, List.forall₂_nil_left_iff, Except.ok.injEq, eq_comm]
  | cons v rest ih =>
      rw [decodeEntries, List.forall₂_cons_left_iff]
      constructor
      · intro h
        obtain ⟨e, hentry, h⟩ := bind_eq_ok_iff.mp h
        obtain ⟨more, hmore, h⟩ := bind_eq_ok_iff.mp h
        cases h
        exact ⟨e, more, decodeEntry_eq_ok_iff.mp (mapError_eq_ok_iff.mp hentry), ih.mp hmore, rfl⟩
      · rintro ⟨e, more, hentry, hmore, rfl⟩
        rw [decodeEntry_eq_ok_iff.mpr hentry, ih.mpr hmore]
        rfl

/-- A snapshot tells of a log under a lifetime that may be given: it has that lifetime or, without
one, the stored one, and its entries are those that are stored, in their order. -/
structure Tells (snapshot : Value) (lifetime : Option Value) (log : Log) : Prop where
  lifetime_eq : lifetimeOf snapshot lifetime = .ok log.lifetime
  stored : ∃ stored vs, lookup snapshot "entries" = .ok stored ∧ members stored = .ok vs ∧
    List.Forall₂ Stores vs log.entries
  ordered : Log.checkOrder log.entries = .ok ()

/-- A log is rebuilt from the snapshots that tell of it, and from no others. -/
theorem decode_eq_ok_iff {snapshot : Value} {lifetime : Option Value} {log : Log} :
    decode snapshot lifetime = .ok log ↔ Tells snapshot lifetime log := by
  rw [decode]
  constructor
  · intro h
    obtain ⟨found, -, h⟩ := bind_eq_ok_iff.mp h
    cases found with
    | false => cases h
    | true =>
        obtain ⟨length, hlifetime, h⟩ := bind_eq_ok_iff.mp h
        obtain ⟨stored, hstored, h⟩ := bind_eq_ok_iff.mp h
        obtain ⟨vs, hvs, h⟩ := bind_eq_ok_iff.mp h
        obtain ⟨entries, hentries, h⟩ := bind_eq_ok_iff.mp h
        obtain ⟨rfl, hordered⟩ := Log.ofEntries?_eq_ok_iff.mp (mapError_eq_ok_iff.mp h)
        exact ⟨hlifetime, ⟨stored, vs, mapError_eq_ok_iff.mp hstored, hvs,
          decodeEntries_eq_ok_iff.mp hentries⟩, hordered⟩
  · rintro ⟨hlifetime, ⟨stored, vs, hstored, hvs, hentries⟩, hordered⟩
    rw [mentions_of_lookup hstored, hlifetime, hstored]
    simp only [bind, Except.bind, Bool.not_true, Bool.false_eq_true, ↓reduceIte, mapError_ok, hvs,
      decodeEntries_eq_ok_iff.mpr hentries, Log.ofEntries?_eq_ok_iff.mpr ⟨rfl, hordered⟩]

/-! What is written -/

theorem stores_encodeEntry (e : Entry) : Stores (encodeEntry e) e := by
  have hne : Text.ofString "payload" ≠ Text.ofString "recorded_at" := by decide
  refine ⟨Hex.encode e.payload, lookup_first _ _, ?_, lookup_second _ _ hne⟩
  exact Hex.decode_eq_ok_iff.mp (Hex.decode_encode e.payload)

theorem lookup_lifetime_encode (log : Log) : lookup (encode log) "lifetime" = .ok log.lifetime :=
  lookup_first _ _

theorem lookup_entries_encode (log : Log) :
    lookup (encode log) "entries" = .ok (.list (log.entries.map encodeEntry)) :=
  lookup_second _ _ (by decide)

/-- What is written of a log tells of its entries under every lifetime that it has or is given. -/
theorem tells_encode {log : Log} (hordered : Log.checkOrder log.entries = .ok ())
    {lifetime : Option Value} {length : Value}
    (hlifetime : lifetimeOf (encode log) lifetime = .ok length) :
    Tells (encode log) lifetime { log with lifetime := length } := by
  refine ⟨hlifetime, ⟨_, _, lookup_entries_encode log, rfl, ?_⟩, hordered⟩
  rw [List.forall₂_map_left_iff, List.forall₂_same]
  intro e _
  exact stores_encodeEntry e

theorem lifetimeOf_stored {snapshot lifetime : Value}
    (h : lookup snapshot "lifetime" = .ok lifetime) : lifetimeOf snapshot none = .ok lifetime := by
  simp only [lifetimeOf, mentions_of_lookup h, h, bind, Except.bind, Bool.not_true,
    Bool.false_eq_true, ↓reduceIte, mapError_ok]

theorem lookup_of_lifetimeOf {snapshot lifetime : Value}
    (h : lifetimeOf snapshot none = .ok lifetime) : lookup snapshot "lifetime" = .ok lifetime := by
  rw [lifetimeOf] at h
  obtain ⟨found, -, h⟩ := bind_eq_ok_iff.mp h
  cases found with
  | false => cases h
  | true => exact mapError_eq_ok_iff.mp h

theorem lifetimeOf_given (snapshot : Value) {lifetime : Value} (h : lifetime ≠ .null) :
    lifetimeOf snapshot (some lifetime) = .ok lifetime := by
  cases lifetime with
  | null => contradiction
  | _ => rfl

/-- A log is rebuilt from what is written of it. -/
theorem decode_encode {log : Log} (hordered : Log.checkOrder log.entries = .ok ()) :
    decode (encode log) none = .ok log :=
  decode_eq_ok_iff.mpr (tells_encode hordered (lifetimeOf_stored (lookup_lifetime_encode log)))

/-- A log with whole times is rebuilt under whatever lifetime. -/
theorem decode_encode_stamped (stored lifetime : Int) {ss : List Stamp} (h : Stamp.Ordered ss) :
    decode (encode (Log.stamped stored ss)) (some (.int lifetime)) =
      .ok (Log.stamped lifetime ss) :=
  decode_eq_ok_iff.mpr (tells_encode (Log.checkOrder_stamped h) (lifetimeOf_given _ nofun))

/-! The canonical form -/

/-- The written form of an entry: the payload in lower-case digits alone, and the time. -/
def IsCanonical (v : Value) (e : Entry) : Prop :=
  ∃ text : Text, v = .object [("payload", .str text), ("recorded_at", e.recordedAt)] ∧
    Hex.Spells text.chars e.payload ∧ ∀ c ∈ text.chars, Hex.IsLowerDigit c

theorem isCanonical_encodeEntry (e : Entry) : IsCanonical (encodeEntry e) e := by
  refine ⟨Hex.encode e.payload, rfl, ?_, ?_⟩
  · exact Hex.decode_eq_ok_iff.mp (Hex.decode_encode e.payload)
  · intro c hc
    rw [Text.chars_ofString, Hex.encode, String.toList_ofList] at hc
    exact Hex.isLowerDigit_of_mem_digits hc

/-- Reads a snapshot, under a lifetime that may be given, and writes what has been read. -/
def recode (lifetime : Option Value) (snapshot : Value) : Except Fault Value := do
  return encode (← decode snapshot lifetime)

theorem recode_of_decode {snapshot : Value} {lifetime : Option Value} {log : Log}
    (h : decode snapshot lifetime = .ok log) : recode lifetime snapshot = .ok (encode log) := by
  rw [recode, h]
  rfl

/-- Under the lifetime under which it was rebuilt, a log is rebuilt from what is written of it. -/
theorem decode_encode_again {snapshot : Value} {lifetime : Option Value} {log : Log}
    (h : Tells snapshot lifetime log) : decode (encode log) lifetime = .ok log := by
  have hstored := lifetimeOf_stored (lookup_lifetime_encode log)
  have hlifetime : lifetimeOf (encode log) lifetime = .ok log.lifetime := by
    cases lifetime with
    | none => exact hstored
    | some given =>
        cases given with
        | null => exact hstored
        | _ => exact h.lifetime_eq
  exact decode_eq_ok_iff.mpr (tells_encode h.ordered hlifetime)

/-- A lifetime that is given replaces the stored one and changes nothing else. -/
theorem Tells.given {snapshot : Value} {log : Log} (h : Tells snapshot none log)
    {lifetime : Value} (hlifetime : lifetime ≠ .null) :
    Tells snapshot (some lifetime) { log with lifetime } :=
  ⟨lifetimeOf_given snapshot hlifetime, h.stored, h.ordered⟩

/-- Every log is rebuilt from what is written of it.  Whatever a log was rebuilt from, what is
written of it is the canonical form, in which each entry has lower-case digits that spell the same
payload as the stored text; it is read again as the same log and written again as it is.  A lifetime
that is given replaces the stored one, and the entries stay the same. -/
theorem recode_canonical :
    (∀ lifetime entries log, Log.ofEntries? lifetime entries = .ok log →
      decode (encode log) none = .ok log) ∧
    (∀ snapshot lifetime log, decode snapshot lifetime = .ok log →
      decode (encode log) none = .ok log ∧
      (∃ stored vs, lookup snapshot "entries" = .ok stored ∧ members stored = .ok vs ∧
        List.Forall₂ Stores vs log.entries) ∧
      (∃ vs, encode log = .object [("lifetime", log.lifetime), ("entries", .list vs)] ∧
        List.Forall₂ IsCanonical vs log.entries) ∧
      recode none (encode log) = .ok (encode log) ∧
      recode lifetime (encode log) = .ok (encode log)) ∧
    (∀ snapshot lifetime, lifetime ≠ .null →
      (∀ log, decode snapshot (some lifetime) = .ok log → log.lifetime = lifetime) ∧
      ∀ log, decode snapshot none = .ok log →
        lookup snapshot "lifetime" = .ok log.lifetime ∧
          decode snapshot (some lifetime) = .ok { log with lifetime }) := by
  refine ⟨?_, ?_, ?_⟩
  · intro lifetime entries log h
    obtain ⟨rfl, hordered⟩ := Log.ofEntries?_eq_ok_iff.mp h
    exact decode_encode hordered
  · intro snapshot lifetime log h
    have htells := decode_eq_ok_iff.mp h
    have hagain := decode_encode htells.ordered
    refine ⟨hagain, htells.stored, ⟨_, rfl, ?_⟩, recode_of_decode hagain,
      recode_of_decode (decode_encode_again htells)⟩
    rw [List.forall₂_map_left_iff, List.forall₂_same]
    intro e _
    exact isCanonical_encodeEntry e
  · intro snapshot lifetime hlifetime
    constructor
    · intro log h
      have hgiven := (decode_eq_ok_iff.mp h).lifetime_eq
      rw [lifetimeOf_given snapshot hlifetime] at hgiven
      exact (Except.ok.inj hgiven).symm
    · intro log h
      have htells := decode_eq_ok_iff.mp h
      exact ⟨lookup_of_lifetimeOf htells.lifetime_eq, decode_eq_ok_iff.mpr (htells.given hlifetime)⟩

/-- A snapshot in mixed letter case, with blanks and further fields, has its canonical form. -/
theorem recode_canonical_of_untidy :
    let untidy : Value := .object [("by", .str "ann"),
      ("entries", .list [
        .object [("recorded_at", .int 3), ("payload", .str " 0A\tfF"), ("by", .null)],
        .object [("payload", .str ""), ("recorded_at", .int 3)]]),
      ("lifetime", .int 10)]
    let log : Log := ⟨.int 5, [⟨[10, 255], .int 3⟩, ⟨[], .int 3⟩]⟩
    decode untidy (some (.int 5)) = .ok log ∧
      recode (some (.int 5)) untidy = .ok (encode log) ∧
      recode (some (.int 5)) (encode log) = .ok (encode log) := by
  intro untidy log
  have hread : decode untidy (some (.int 5)) = .ok log := by
    refine decode_eq_ok_iff.mpr ⟨rfl, ⟨_, _, rfl, rfl, .cons ?_ (.cons ?_ .nil)⟩, rfl⟩
    · exact ⟨_, rfl, Hex.decode_eq_ok_iff.mp (by decide +kernel), rfl⟩
    · exact ⟨_, rfl, .done, rfl⟩
  obtain ⟨-, -, -, -, hagain⟩ := recode_canonical.2.1 untidy (some (.int 5)) log hread
  exact ⟨hread, recode_of_decode hread, hagain⟩

/-- The snapshot of a log that may be absent. -/
def ofHeld (lifetime : Int) : Option (List Stamp) → Value
  | none => .null
  | some ss => encode (Log.stamped lifetime ss)

theorem isPlain_ofHeld (lifetime : Int) (held : Option (List Stamp)) :
    (ofHeld lifetime held).isPlain = true := by
  cases held with
  | none => rfl
  | some ss => exact isPlain_encode lifetime ss

theorem stopped_encodeEntry (room : Nat) {s : Stamp} (h : Digits.fit s.time = true) :
    (Json.writeWithin (room + 1) (encodeEntry s.entry)).stopped = none := by
  rw [encodeEntry, Json.stopped_object]
  simp [Json.writeFields, Stamp.entry, h]

theorem depth_encodeEntry (s : Stamp) : (encodeEntry s.entry).depth = 1 := rfl

variable [Limits]

/-- A snapshot is written to its end if its lifetime and its times fit. -/
theorem stopped_ofHeld {lifetime : Int} (hlifetime : Digits.fit lifetime = true)
    {held : Option (List Stamp)} (htimes : ∀ s ∈ held.getD [], Digits.fit s.time = true) :
    (Json.write (ofHeld lifetime held)).stopped = none := by
  cases held with
  | none => rfl
  | some ss =>
      -- Within the snapshot there is room for the list of entries and for each of them.
      obtain ⟨room, hroom⟩ := Nat.exists_eq_add_of_le Limits.three_le_writeDepth
      have hinner : Limits.writeDepth - 1 = room + 1 + 1 := by omega
      have hentries : ∀ v ∈ (ss.map Stamp.entry).map encodeEntry,
          (Json.writeWithin (room + 1) v).stopped = none := by
        rw [List.map_map]
        rintro v hv
        obtain ⟨s, hs, rfl⟩ := List.mem_map.mp hv
        exact stopped_encodeEntry room (htimes s hs)
      rw [ofHeld, encode, Json.stopped_write_object, hinner]
      simp only [Json.writeFields, Json.Written.stopped_followedBy, Json.Written.stopped_ofList,
        Log.stamped_lifetime, Json.stopped_int, hlifetime, ↓reduceIte, Option.none_or,
        Log.stamped_entries]
      rw [Json.stopped_list, Json.stopped_items _ hentries]
      rfl

/-- There is room for a snapshot when it is read. -/
theorem depth_ofHeld_le (lifetime : Int) (held : Option (List Stamp)) :
    (ofHeld lifetime held).depth ≤ Limits.readDepth := by
  refine Nat.le_trans ?_ Limits.three_le_readDepth
  cases held with
  | none => exact Nat.zero_le 3
  | some ss =>
      have hentries : Value.depthOfItems ((ss.map Stamp.entry).map encodeEntry) ≤ 1 := by
        induction ss with
        | nil => exact Nat.zero_le 1
        | cons s rest ih => exact Nat.max_le.mpr ⟨Nat.le_of_eq (depth_encodeEntry s), ih⟩
      simp only [ofHeld, encode, Value.depth, Value.depthOfFields, Log.stamped_entries,
        Log.stamped_lifetime]
      omega

end LiveFeed.Snapshot
