/-
Readers of a log that goes on changing.  In memory the log is a list that is changed in place, and a
reader goes along a list from position to position and looks at it only when it is asked.  What keeps
the readers apart from the changes is that each of them has a list of its own, copied when it was
opened; so a reader hands out what was live at its time in the log as it stood then, and opening
readers and taking from them does not reach the log.
-/
import LiveFeed.Proofs.Log.Timed

namespace LiveFeed
namespace Log

/-- A reader in memory: it is at a position of the list at an address, or has come to the end. -/
inductive Reader where
  | along (address position : Nat)
  | exhausted
deriving Repr, DecidableEq

/-- The address of the list that a reader still goes along. -/
def Reader.address? : Reader → Option Nat
  | .along address _ => some address
  | .exhausted => none

/-- Lists of entries by address, and the readers that have been opened.  The list of the log itself
has the address 0. -/
structure Memory where
  lifetime : Value
  lists : List (List Entry)
  readers : List Reader

/-- What is done with a log in memory. -/
inductive Use where
  | push (now : Int) (payload : Value)
  | evict (now : Int)
  | openReader (now : Int)
  | take (reader count : Nat)
deriving Repr

namespace Use

variable [Limits]

/-- How a use changes the log; a change that is refused leaves it as it is. -/
def change (log : Log) : Use → Log
  | .push now payload => (log.push (.int now) payload).toOption.getD log
  | .evict now => ((log.evict (.int now)).map Prod.snd).toOption.getD log
  | .openReader _ => log
  | .take _ _ => log

/-- Whether a use is meant to change the log. -/
def isChange : Use → Bool
  | .push _ _ => true
  | .evict _ => true
  | .openReader _ => false
  | .take _ _ => false

/-- How many payloads a use asks of a reader. -/
def asks (reader : Nat) : Use → Nat
  | .take asked count => if asked = reader then count else 0
  | _ => 0

end Use

/-- A log with whole times in order stays one. -/
theorem Timed.change [Limits] {log : Log} {lifetime : Value} (h : log.Timed lifetime) (u : Use) :
    (u.change log).Timed lifetime := by
  cases u with
  | push now payload =>
      simp only [Use.change]
      cases hpush : log.push (.int now) payload with
      | error fault => exact h
      | ok next => exact h.push hpush
  | evict now =>
      simp only [Use.change]
      cases hevict : log.evict (.int now) with
      | error fault => exact h
      | ok evicted =>
          obtain ⟨hlifetime, ss, hss, hordered, -⟩ := h.evict hevict
          exact ⟨hlifetime, ss, hss, hordered⟩
  | openReader now => exact h
  | take reader count => exact h

namespace Memory

/-- A log alone in memory, without readers. -/
def ofLog (log : Log) : Memory := ⟨log.lifetime, [log.entries], []⟩

/-- The log, as its list is now. -/
def log (m : Memory) : Log := ⟨m.lifetime, m.lists.headD []⟩

/-- Changes the list of the log in place. -/
def write (m : Memory) (log : Log) : Memory := { m with lists := m.lists.set 0 log.entries }

/-- The next payload of a reader, looked up in its list as it is now. -/
def next (m : Memory) : Reader → Option Bytes × Reader
  | .along address position =>
      match m.lists[address]?.bind fun entries => entries[position]? with
      | some e => (some e.payload, .along address (position + 1))
      | none => (none, .exhausted)
  | .exhausted => (none, .exhausted)

/-- Takes payloads from a reader one by one, until there are enough or it has come to its end. -/
def takeFrom (m : Memory) (r : Reader) : Nat → List Bytes × Reader
  | 0 => ([], r)
  | count + 1 =>
      match m.next r with
      | (none, moved) => ([], moved)
      | (some payload, moved) =>
          let (payloads, moved) := m.takeFrom moved count
          (payload :: payloads, moved)

/-- Opens a reader on a copy of the entries behind the boundary. -/
def openReader (m : Memory) (now : Value) : Except Fault Memory := do
  let count ← m.log.boundary now
  return { m with
    lists := m.lists ++ [m.log.entries.drop count]
    readers := m.readers ++ [.along m.lists.length 0] }

/-- The payloads that a reader has still before it. -/
def rest (m : Memory) : Reader → List Bytes
  | .along address position => ((m.lists.getD address []).drop position).map Entry.payload
  | .exhausted => []

/-- The log has whole times in order and a list in memory, and every reader goes along another
list. -/
structure Separate (m : Memory) (lifetime : Value) : Prop where
  timed : m.log.Timed lifetime
  nonempty : m.lists ≠ []
  readers : ∀ r ∈ m.readers, ∀ address ∈ r.address?, 0 < address ∧ address < m.lists.length

variable {m : Memory} {lifetime : Value}

/-- A log in memory from which nothing has been read. -/
theorem separate_ofLog {log : Log} (h : log.Timed lifetime) : (ofLog log).Separate lifetime where
  timed := h
  nonempty := List.cons_ne_nil _ _
  readers := nofun

/-! The log -/

theorem log_write (h : m.lists ≠ []) {log : Log} (hlifetime : log.lifetime = m.lifetime) :
    (m.write log).log = log := by
  obtain ⟨_, _ | ⟨own, copies⟩, _⟩ := m
  · exact absurd rfl h
  · cases log
    cases hlifetime
    rfl

theorem openReader_eq_ok_iff {now : Value} {opened : Memory} :
    m.openReader now = .ok opened ↔ ∃ count, m.log.boundary now = .ok count ∧
      opened = { m with
        lists := m.lists ++ [m.log.entries.drop count]
        readers := m.readers ++ [.along m.lists.length 0] } := by
  rw [openReader, bind_eq_ok_iff]
  constructor
  · rintro ⟨count, hcount, h⟩
    exact ⟨count, hcount, (Except.ok.inj h).symm⟩
  · rintro ⟨count, hcount, rfl⟩
    exact ⟨count, hcount, rfl⟩

/-! One reader -/

/-- A reader has a next payload as long as there is one before it. -/
theorem rest_next (m : Memory) (r : Reader) :
    (∃ payload moved, m.next r = (some payload, moved) ∧ m.rest r = payload :: m.rest moved) ∨
      (∃ moved, m.next r = (none, moved) ∧ m.rest r = [] ∧ m.rest moved = []) := by
  cases r with
  | exhausted => exact .inr ⟨.exhausted, rfl, rfl, rfl⟩
  | along address position =>
      have hlook : (m.lists[address]?.bind fun entries => entries[position]?) =
          (m.lists.getD address [])[position]? := by
        rw [List.getD_eq_getElem?_getD]
        cases m.lists[address]? <;> rfl
      simp only [next, hlook, rest]
      cases hnext : (m.lists.getD address [])[position]? with
      | none =>
          rw [List.getElem?_eq_none_iff] at hnext
          refine .inr ⟨.exhausted, rfl, ?_, rfl⟩
          rw [List.drop_of_length_le hnext, List.map_nil]
      | some e =>
          obtain ⟨hlt, he⟩ := List.getElem?_eq_some_iff.mp hnext
          refine .inl ⟨e.payload, _, rfl, ?_⟩
          rw [List.drop_eq_getElem_cons hlt, he, List.map_cons]

/-- Payload by payload a reader in memory hands out what a cursor over the rest hands out at once. -/
theorem takeFrom_eq_take (m : Memory) (r : Reader) (count : Nat) :
    ((m.takeFrom r count).1, Cursor.mk (m.rest (m.takeFrom r count).2)) =
      Cursor.take ⟨m.rest r⟩ count := by
  induction count generalizing r with
  | zero => rfl
  | succ count ih =>
      obtain ⟨payload, moved, hnext, hrest⟩ | ⟨moved, hnext, hrest, hend⟩ := rest_next m r
      · obtain ⟨hpayloads, hmoved⟩ := Prod.mk.inj (ih moved)
        simp only [takeFrom, hnext, Cursor.take, hrest, List.take_succ_cons, List.drop_succ_cons,
          hpayloads, hmoved]
      · simp only [takeFrom, hnext, Cursor.take, hrest, hend, List.take_nil, List.drop_nil]

theorem address?_next (m : Memory) (r : Reader) :
    ∀ address ∈ (m.next r).2.address?, address ∈ r.address? := by
  intro address haddress
  cases r with
  | exhausted => exact haddress
  | along own position =>
      simp only [next] at haddress
      split at haddress
      · exact haddress
      · cases haddress

/-- A reader never moves to another list. -/
theorem address?_takeFrom (m : Memory) (r : Reader) (count : Nat) :
    ∀ address ∈ (m.takeFrom r count).2.address?, address ∈ r.address? := by
  induction count generalizing r with
  | zero => exact fun _ => id
  | succ count ih =>
      intro address haddress
      have hnext := address?_next m r address
      rw [takeFrom] at haddress
      cases hmoved : m.next r with
      | mk payload? moved =>
          rw [hmoved] at haddress hnext
          cases payload? with
          | none => exact hnext haddress
          | some payload => exact hnext (ih moved address haddress)

/-- A reader sees its own list only. -/
theorem rest_congr {m' : Memory} {r : Reader}
    (h : ∀ address ∈ r.address?, m'.lists[address]? = m.lists[address]?) :
    m'.rest r = m.rest r := by
  cases r with
  | exhausted => rfl
  | along address position =>
      simp only [rest, List.getD_eq_getElem?_getD, h address rfl]

section

variable [Limits]

/-- Uses the log once, and tells which payloads were taken. -/
def use (m : Memory) : Use → List Bytes × Memory
  | .push now payload => ([], m.write (Use.change m.log (.push now payload)))
  | .evict now => ([], m.write (Use.change m.log (.evict now)))
  | .openReader now => ([], (m.openReader (.int now)).toOption.getD m)
  | .take reader count =>
      match m.readers[reader]? with
      | some r =>
          let (payloads, moved) := m.takeFrom r count
          (payloads, { m with readers := m.readers.set reader moved })
      | none => ([], m)

/-- The memory after a run of uses. -/
def after (m : Memory) (uses : List Use) : Memory := uses.foldl (fun m u => (m.use u).2) m

/-- The payloads that a use takes from a reader. -/
def handed (m : Memory) (reader : Nat) : Use → List Bytes
  | .take asked count => if asked = reader then (m.use (.take asked count)).1 else []
  | _ => []

/-- The payloads that a run of uses takes from a reader, one after the other. -/
def taken (m : Memory) (reader : Nat) : List Use → List Bytes
  | [] => []
  | u :: rest => m.handed reader u ++ (m.use u).2.taken reader rest

/-- What opening a reader leaves: all that was, and perhaps one list and one reader more. -/
theorem use_openReader_cases (m : Memory) (now : Int) :
    (m.use (.openReader now)).2 = m ∨ ∃ count, m.log.boundary (.int now) = .ok count ∧
      (m.use (.openReader now)).2 = { m with
        lists := m.lists ++ [m.log.entries.drop count]
        readers := m.readers ++ [.along m.lists.length 0] } := by
  simp only [use]
  cases hopen : m.openReader (.int now) with
  | error fault => exact .inl rfl
  | ok opened => exact .inr (openReader_eq_ok_iff.mp hopen)

/-- A use does to the log in memory what it does to a log. -/
theorem Separate.log_use (h : m.Separate lifetime) (u : Use) :
    (m.use u).2.log = u.change m.log := by
  have hlifetime : (u.change m.log).lifetime = m.lifetime :=
    (h.timed.change u).lifetime_eq.trans h.timed.lifetime_eq.symm
  cases u with
  | push now payload => exact log_write h.nonempty hlifetime
  | evict now => exact log_write h.nonempty hlifetime
  | openReader now =>
      obtain hsame | ⟨count, -, hopened⟩ := use_openReader_cases m now
      · rw [hsame]
        rfl
      · rw [hopened]
        obtain ⟨_, _ | ⟨own, copies⟩, _⟩ := m
        · exact absurd rfl h.nonempty
        · rfl
  | take reader count =>
      simp only [use]
      cases m.readers[reader]? <;> rfl

/-! One use -/

/-- No use changes a list that a reader goes along. -/
theorem lists_use (m : Memory) (u : Use) {address : Nat} (hpos : 0 < address)
    (hlt : address < m.lists.length) : (m.use u).2.lists[address]? = m.lists[address]? := by
  cases u with
  | push now payload => exact List.getElem?_set_ne (Nat.ne_of_lt hpos)
  | evict now => exact List.getElem?_set_ne (Nat.ne_of_lt hpos)
  | openReader now =>
      obtain hsame | ⟨count, -, hopened⟩ := use_openReader_cases m now
      · rw [hsame]
      · rw [hopened]
        exact List.getElem?_append_left hlt
  | take reader count =>
      simp only [use]
      cases m.readers[reader]? <;> rfl

theorem length_lists_use (m : Memory) (u : Use) :
    m.lists.length ≤ (m.use u).2.lists.length := by
  cases u with
  | push now payload => exact Nat.le_of_eq List.length_set.symm
  | evict now => exact Nat.le_of_eq List.length_set.symm
  | openReader now =>
      obtain hsame | ⟨count, -, hopened⟩ := use_openReader_cases m now
      · rw [hsame]
      · rw [hopened, List.length_append]
        exact Nat.le_add_right _ _
  | take reader count =>
      simp only [use]
      cases m.readers[reader]? <;> exact Nat.le_refl _

/-- After a use a reader goes along the list that it went along before, or it has just been opened
on a new one. -/
theorem address?_use (m : Memory) (u : Use) {r : Reader} (hr : r ∈ (m.use u).2.readers)
    {address : Nat} (haddress : address ∈ r.address?) :
    (∃ r' ∈ m.readers, address ∈ r'.address?) ∨
      (address = m.lists.length ∧ address < (m.use u).2.lists.length) := by
  cases u with
  | push now payload => exact .inl ⟨r, hr, haddress⟩
  | evict now => exact .inl ⟨r, hr, haddress⟩
  | openReader now =>
      obtain hsame | ⟨count, -, hopened⟩ := use_openReader_cases m now
      · rw [hsame] at hr
        exact .inl ⟨r, hr, haddress⟩
      · rw [hopened] at hr ⊢
        rcases List.mem_append.mp hr with hold | hnew
        · exact .inl ⟨r, hold, haddress⟩
        · rw [List.mem_singleton] at hnew
          subst hnew
          cases haddress
          exact .inr ⟨rfl, by simp⟩
  | take reader count =>
      simp only [use] at hr
      cases htaken : m.readers[reader]? with
      | none =>
          rw [htaken] at hr
          exact .inl ⟨r, hr, haddress⟩
      | some own =>
          rw [htaken] at hr
          rcases List.mem_or_eq_of_mem_set hr with hold | rfl
          · exact .inl ⟨r, hold, haddress⟩
          · exact .inl ⟨own, List.mem_of_getElem? htaken,
              address?_takeFrom m own count address haddress⟩

theorem Separate.use (h : m.Separate lifetime) (u : Use) : (m.use u).2.Separate lifetime := by
  refine ⟨?_, ?_, ?_⟩
  · rw [h.log_use]
    exact h.timed.change u
  · have hpos := Nat.lt_of_lt_of_le (List.length_pos_of_ne_nil h.nonempty) (length_lists_use m u)
    exact List.ne_nil_of_length_pos hpos
  · intro r hr address haddress
    obtain ⟨r', hr', haddress'⟩ | ⟨rfl, hlt⟩ := address?_use m u hr haddress
    · obtain ⟨hpos, hlt⟩ := h.readers r' hr' address haddress'
      exact ⟨hpos, Nat.lt_of_lt_of_le hlt (length_lists_use m u)⟩
    · exact ⟨List.length_pos_of_ne_nil h.nonempty, hlt⟩

/-- What a reader has still before it, if it has been opened. -/
def view (m : Memory) (reader : Nat) : Option (List Bytes) := m.readers[reader]?.map m.rest

/-- A use takes from what a reader has before it what it asks of the reader, and no more. -/
theorem Separate.view_use (h : m.Separate lifetime) {reader : Nat} {shown : List Bytes}
    (hview : m.view reader = some shown) (u : Use) :
    m.handed reader u = shown.take (u.asks reader) ∧
      (m.use u).2.view reader = some (shown.drop (u.asks reader)) := by
  obtain ⟨r, hr, rfl⟩ := Option.map_eq_some_iff.mp hview
  have hframe {r' : Reader} (hr' : ∀ address ∈ r'.address?, address ∈ r.address?) :
      (m.use u).2.rest r' = m.rest r' := by
    apply rest_congr
    intro address haddress
    obtain ⟨hpos, hlt⟩ := h.readers r (List.mem_of_getElem? hr) address (hr' address haddress)
    exact lists_use m u hpos hlt
  have hkept (hasks : u.asks reader = 0) (hreaders : (m.use u).2.readers[reader]? = some r) :
      (m.use u).2.view reader = some ((m.rest r).drop (u.asks reader)) := by
    rw [view, hreaders, Option.map_some, hframe (fun _ => id), hasks, List.drop_zero]
  cases u with
  | push now payload => exact ⟨rfl, hkept rfl hr⟩
  | evict now => exact ⟨rfl, hkept rfl hr⟩
  | openReader now =>
      refine ⟨rfl, hkept rfl ?_⟩
      obtain hsame | ⟨count, -, hopened⟩ := use_openReader_cases m now
      · rw [hsame, hr]
      · rw [hopened]
        have hlt := (List.getElem?_eq_some_iff.mp hr).1
        rw [List.getElem?_append_left hlt, hr]
  | take asked count =>
      by_cases hasked : asked = reader
      · subst hasked
        obtain ⟨hpayloads, hmoved⟩ := Prod.mk.inj (takeFrom_eq_take m r count)
        have hlt := (List.getElem?_eq_some_iff.mp hr).1
        have hasks : (Use.take asked count).asks asked = count := if_pos rfl
        rw [hasks]
        constructor
        · simp only [handed, if_true, Memory.use, hr, hpayloads]
        · have hreaders : (m.use (.take asked count)).2.readers[asked]? =
              some (m.takeFrom r count).2 := by
            simp only [Memory.use, hr, List.getElem?_set_self hlt]
          rw [view, hreaders, Option.map_some, hframe (address?_takeFrom m r count),
            Option.some.injEq]
          exact Cursor.mk.inj hmoved
      · have hasks : (Use.take asked count).asks reader = 0 := if_neg hasked
        refine ⟨?_, hkept hasks ?_⟩
        · rw [handed, if_neg hasked, hasks, List.take_zero]
        · simp only [Memory.use]
          cases m.readers[asked]? with
          | none => exact hr
          | some other =>
              change (m.readers.set asked _)[reader]? = _
              rw [List.getElem?_set_ne hasked, hr]

/-! A run of uses -/

/-- How many payloads a run of uses asks of a reader. -/
def asked (reader : Nat) (uses : List Use) : Nat := (uses.map (Use.asks reader)).sum

theorem Separate.after (h : m.Separate lifetime) (uses : List Use) :
    (m.after uses).Separate lifetime := by
  induction uses generalizing m with
  | nil => exact h
  | cons u rest ih => exact ih (h.use u)

/-- Of a run of uses only the changes reach the log. -/
theorem Separate.log_after (h : m.Separate lifetime) (uses : List Use) :
    (m.after uses).log = (uses.filter Use.isChange).foldl Use.change m.log := by
  induction uses generalizing m with
  | nil => rfl
  | cons u rest ih =>
      have hrest := ih (h.use u)
      rw [h.log_use] at hrest
      cases u <;> exact hrest

/-- In a run of uses a reader hands out what it had before it, as far as it is asked. -/
theorem Separate.view_after (h : m.Separate lifetime) {reader : Nat} {shown : List Bytes}
    (hview : m.view reader = some shown) (uses : List Use) :
    m.taken reader uses = shown.take (asked reader uses) ∧
      (m.after uses).view reader = some (shown.drop (asked reader uses)) := by
  induction uses generalizing m shown with
  | nil => exact ⟨rfl, hview⟩
  | cons u rest ih =>
      obtain ⟨hhanded, hmoved⟩ := h.view_use hview u
      obtain ⟨htaken, hend⟩ := ih (h.use u) hmoved
      rw [List.drop_drop] at hend
      refine ⟨?_, hend⟩
      rw [taken, hhanded, htaken]
      exact List.take_add.symm

theorem use_openReader_of_ok {now : Int} {cursor : Cursor}
    (h : m.log.openCursor (.int now) = .ok cursor) :
    ∃ count, cursor.remaining = (m.log.entries.drop count).map Entry.payload ∧
      (m.use (.openReader now)).2 = { m with
        lists := m.lists ++ [m.log.entries.drop count]
        readers := m.readers ++ [.along m.lists.length 0] } := by
  obtain ⟨shown, hshown, hcursor⟩ := bind_eq_ok_iff.mp h
  cases hcursor
  obtain ⟨count, hcount, hshown⟩ := bind_eq_ok_iff.mp hshown
  cases hshown
  have hopen := openReader_eq_ok_iff.mpr ⟨count, hcount, rfl⟩
  refine ⟨count, rfl, ?_⟩
  simp only [use, hopen, Except.toOption, Option.getD_some]

/-- A reader that has just been opened has before it what a cursor has that is opened then. -/
theorem view_openReader {now : Int} {cursor : Cursor}
    (h : m.log.openCursor (.int now) = .ok cursor) :
    (m.use (.openReader now)).2.view m.readers.length = some cursor.remaining := by
  obtain ⟨count, hremaining, hopened⟩ := use_openReader_of_ok h
  simp only [hopened, hremaining, view, rest, List.getElem?_concat_length, Option.map_some,
    List.getD_eq_getElem?_getD, Option.getD_some, List.drop_zero]

/-- Readers are stable views.  Take a log that is accepted with whole times, whatever its lifetime,
and any run of pushes, evictions, openings of readers and takes from them.  Of the run only the
pushes and the evictions reach the log.  If the lifetime is a number, a reader can then be opened at
every time; and a reader that can be opened is one of the payloads that are live at its time in the
log as it stands.  Whatever is done later, the payloads taken from it are the first so many of these
as were asked of it, and when all of them have been asked for, nothing more is taken. -/
theorem readers_keep_view {lifetime : Value} {entries : List Entry} {log : Log}
    (haccepted : ofEntries? lifetime entries = .ok log) (hwhole : log.IsWhole)
    (before : List Use) (now : Int) :
    let m := (ofLog log).after before
    let opened := (m.use (.openReader now)).2
    let reader := m.readers.length
    m.log = (before.filter Use.isChange).foldl Use.change log ∧
      (lifetime.number?.isSome = true → ∃ cursor, m.log.openCursor (.int now) = .ok cursor) ∧
      ∀ cursor, m.log.openCursor (.int now) = .ok cursor →
        ∃ live, m.log.Judged (.int now) live ∧
          cursor.remaining = (m.log.entries.filter live).map Entry.payload ∧
          ∀ later : List Use,
            opened.taken reader later = cursor.remaining.take (asked reader later) ∧
              (cursor.remaining.length ≤ asked reader later →
                ∀ count, (opened.after later).handed reader (.take reader count) = []) := by
  have htimed := timed_of_accepted haccepted hwhole
  have hstart := separate_ofLog htimed
  intro m opened reader
  have hseparate : m.Separate lifetime := hstart.after before
  refine ⟨hstart.log_after before, ?_, ?_⟩
  · intro hnumber
    obtain ⟨n, hn⟩ := Option.isSome_iff_exists.mp hnumber
    obtain ⟨live, -, hshown⟩ := hseparate.timed.live_of_number hn now
    exact ⟨_, bind_eq_ok_iff.mpr ⟨_, hshown, rfl⟩⟩
  · intro cursor hcursor
    obtain ⟨payloads, hread, hpayloads⟩ := bind_eq_ok_iff.mp hcursor
    cases hpayloads
    obtain ⟨live, hjudged, hlive⟩ := hseparate.timed.live_eq hread
    refine ⟨live, hjudged, hlive, ?_⟩
    intro later
    obtain ⟨htaken, hend⟩ :=
      (hseparate.use (.openReader now)).view_after (view_openReader hcursor) later
    refine ⟨htaken, ?_⟩
    intro hall count
    rw [List.drop_of_length_le hall] at hend
    have hopened := (hseparate.use (.openReader now)).after later
    rw [(hopened.view_use hend (.take reader count)).1, List.take_nil]

end

open scoped Limits

/-- Two readers that take their turns, the second opened after a push that drops an entry the first
has still before it.  Both come to their ends while the log is emptied. -/
theorem readers_keep_view_of_two :
    let log : Log := stamped 10 [⟨[1], 0⟩, ⟨[2], 5⟩, ⟨[3], 7⟩]
    let first : List Use := [.openReader 8, .push 12 (.bytes .fixed [4])]
    let m := (ofLog log).after first
    let opened := (m.use (.openReader 12)).2
    let later : List Use := [.take 1 2, .take 0 1, .evict 30, .take 0 5, .take 1 9]
    m.log = stamped 10 [⟨[2], 5⟩, ⟨[3], 7⟩, ⟨[4], 12⟩] ∧
      ((ofLog log).use (.openReader 8)).2.taken 0 (first.tail ++ .openReader 12 :: later) =
        [[1], [2], [3]] ∧
      opened.taken 1 later = [[2], [3], [4]] ∧
      ∀ count, (opened.after later).handed 1 (.take 1 count) = [] := by
  intro log first m opened later
  have hordered : Stamp.Ordered [⟨[1], 0⟩, ⟨[2], 5⟩, ⟨[3], 7⟩] := by simp [Stamp.Ordered]
  have hkept : Stamp.Ordered [⟨[2], 5⟩, ⟨[3], 7⟩, ⟨[4], 12⟩] := by simp [Stamp.Ordered]
  have haccepted : ofEntries? (.int 10) log.entries = .ok log :=
    ofEntries?_eq_ok_iff.mpr ⟨rfl, checkOrder_stamped hordered⟩
  have hwhole : log.IsWhole := by simp [IsWhole, log, Stamp.entry]
  obtain ⟨-, -, hfirst⟩ := readers_keep_view haccepted hwhole [] 8
  obtain ⟨hchanges, -, hsecond⟩ := readers_keep_view haccepted hwhole first 12
  have hlog : m.log = stamped 10 [⟨[2], 5⟩, ⟨[3], 7⟩, ⟨[4], 12⟩] := by
    refine hchanges.trans ?_
    change (log.push (.int 12) (.bytes .fixed [4])).toOption.getD log = _
    rw [push_stamped hordered]
    rfl
  have hcursor : log.openCursor (.int 8) = .ok ⟨[[1], [2], [3]]⟩ := by
    rw [openCursor, live_stamped hordered]
    rfl
  have hcursor' : m.log.openCursor (.int 12) = .ok ⟨[[2], [3], [4]]⟩ := by
    rw [openCursor, hlog, live_stamped hkept]
    rfl
  obtain ⟨_, -, -, hview⟩ := hfirst _ hcursor
  obtain ⟨_, -, -, hview'⟩ := hsecond _ hcursor'
  have hreader : m.readers.length = 1 := by
    obtain ⟨count, -, hopened⟩ := use_openReader_of_ok (m := ofLog log) hcursor
    change ((ofLog log).use (.openReader 8)).2.readers.length = 1
    rw [hopened]
    rfl
  have hend := (hview' later).2
  rw [hreader] at hend
  have htaken := (hview' later).1
  rw [hreader] at htaken
  exact ⟨hlog, (hview _).1, htaken, hend (by decide)⟩

end Memory
end Log
end LiveFeed
