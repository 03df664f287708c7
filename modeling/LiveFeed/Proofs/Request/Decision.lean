/-
The decision table of a desk: which requests cannot be understood, which are refused and why, and
which are accepted.  Understanding comes before the signer and the signer before the time, so that
the clock is read only for what might still be accepted; a subscriber is told only of what is.  A
refusal has to name what it objects to, and the table holds where that can be put in words.
-/
import LiveFeed.Proofs.Feed.Advance
import LiveFeed.Proofs.Request.Verdict
import LiveFeed.Proofs.Text.Hex

namespace LiveFeed.Desk

/-- A request asks for a call by its name. -/
def Asks (request : List (Text × Value)) (call : Call) : Prop :=
  argument request "call" = .str call.name

/-- A request hands over octets: a text that spells them. -/
def Hands (request : List (Text × Value)) (payload : Bytes) : Prop :=
  ∃ text, argument request "data" = .str text ∧ Hex.Spells text.chars payload

/-- A request that cannot be understood: it asks for neither call, or for a push of nothing that is
hexadecimal text. -/
def IsMalformed (request : List (Text × Value)) : Prop :=
  (∀ call, ¬Asks request call) ∨ Asks request .push ∧ ∀ payload, ¬Hands request payload

/-- The refusals, with the call, the reason and the fault. -/
inductive Refuses (authority : Text) (now : Int) (held : List Stamp)
    (request : List (Text × Value)) : Call → Reason → Feed.Fault → Prop where
  | unsigned {payload : Bytes} (hasks : Asks request .push) (hhands : Hands request payload)
      (horigin : argument request "origin" = .null) :
      Refuses authority now held request .push .badOrigin .noOrigin
  | foreign {payload : Bytes} (hasks : Asks request .push) (hhands : Hands request payload)
      (hsigned : argument request "origin" ≠ .null)
      (horigin : argument request "origin" ≠ .str authority) :
      Refuses authority now held request .push .wrongAuthority
        (.wrongAuthority (argument request "origin"))
  | belatedPush {payload : Bytes} {newest : Stamp} (hasks : Asks request .push)
      (hhands : Hands request payload) (horigin : argument request "origin" = .str authority)
      (hnewest : held.getLast? = some newest) (hlater : now < newest.time) :
      Refuses authority now held request .push .stale
        (.log (.stale (.int now) (.int newest.time)))
  | belatedClean {newest : Stamp} (hasks : Asks request .clean)
      (hnewest : held.getLast? = some newest) (hlater : now < newest.time) :
      Refuses authority now held request .clean .stale
        (.log (.stale (.int now) (.int newest.time)))

/-- Whatever an answer to a request would have to name can be put in words: its signer, and a time
with the newest stamp if that is later.  Its call may have too many digits, but not be nested too
deeply. -/
structure IsTellable [Limits] (now : Int) (held : List Stamp) (request : List (Text × Value)) :
    Prop where
  call : (argument request "call").wordless? ≠ some .tooDeep
  origin : (argument request "origin").wordless? = none
  times : ∀ newest, held.getLast? = some newest → now < newest.time →
    Digits.fit now = true ∧ Digits.fit newest.time = true

/-- No stamp is later than a time, as far as the newest one tells. -/
def IsTimely (now : Int) (held : List Stamp) : Prop :=
  ∀ newest, held.getLast? = some newest → newest.time ≤ now

/-- A push that is accepted: understood, signed by the authority, and in time. -/
structure Admits (authority : Text) (now : Int) (held : List Stamp)
    (request : List (Text × Value)) (payload : Bytes) : Prop where
  asks : Asks request .push
  hands : Hands request payload
  origin_eq : argument request "origin" = .str authority
  timely : IsTimely now held

/-- A cleanup that is accepted. -/
structure Cleans (now : Int) (held : List Stamp) (request : List (Text × Value)) : Prop where
  asks : Asks request .clean
  timely : IsTimely now held

/-- The requests for which the clock is read: cleanups, and what the authority has signed and can be
understood. -/
def Consults (authority : Text) (request : List (Text × Value)) : Prop :=
  Asks request .clean ∨ Asks request .push ∧ (∃ payload, Hands request payload) ∧
    argument request "origin" = .str authority

variable {authority : Text} {now : Int} {held : List Stamp} {request : List (Text × Value)}
  {payload : Bytes}

theorem asks_iff {call : Call} :
    Asks request call ↔ Call.ofName? (argument request "call") = some call := by
  rw [Asks, Call.ofName?_eq_some_iff, Value.same_str_iff]

theorem hands_iff : Hands request payload ↔ Desk.payload request = .ok payload := by
  rw [Hands, Desk.payload]
  cases hdata : argument request "data" with
  | str text => simp [mapError_eq_ok_iff, Hex.decode_eq_ok_iff]
  | _ => simp

theorem isTimely_iff : IsTimely now held ↔ Stamp.ahead? now held = none :=
  Stamp.ahead?_eq_none_iff.symm

theorem ahead?_eq_some_iff_newest {latest : Int} : Stamp.ahead? now held = some latest ↔
    ∃ newest, held.getLast? = some newest ∧ now < newest.time ∧ newest.time = latest := by
  rw [Stamp.ahead?_eq_some_iff, Option.map_eq_some_iff]
  constructor
  · rintro ⟨⟨newest, hnewest, rfl⟩, hlater⟩
    exact ⟨newest, hnewest, hlater, rfl⟩
  · rintro ⟨newest, hnewest, hlater, rfl⟩
    exact ⟨⟨newest, hnewest, rfl⟩, hlater⟩

/-! The rows of the table -/

theorem Asks.unique {call other : Call} (h : Asks request call) (h' : Asks request other) :
    call = other := by
  have hboth := asks_iff.mp h
  rw [asks_iff.mp h', Option.some.injEq] at hboth
  exact hboth.symm

/-- What is wrong with a request that cannot be understood. -/
inductive IsOwn (request : List (Text × Value)) : Fault → Prop where
  | unknownCall : IsOwn request (.unknownCall (argument request "call"))
  | longCall : IsOwn request (.wordlessCall .tooLong)
  | noData : IsOwn request .noData
  | notHex (position : Nat) : IsOwn request (.notHex position)

theorem isOwn_of_payload {fault : Fault} (h : Desk.payload request = .error fault) :
    IsOwn request fault := by
  unfold Desk.payload at h
  split at h
  · obtain ⟨position, -, rfl⟩ := mapError_eq_error_iff.mp h
    exact .notHex position
  · cases h
    exact .noData

theorem IsTellable.isOwn_ofCall [Limits] (h : IsTellable now held request) :
    IsOwn request (.ofCall (argument request "call")) := by
  unfold Fault.ofCall
  cases hwordless : (argument request "call").wordless? with
  | none => exact .unknownCall
  | some cause =>
      cases cause with
      | tooLong => exact .longCall
      | tooDeep => exact absurd hwordless h.call

theorem IsTellable.ofOrigin_eq [Limits] (h : IsTellable now held request) :
    Feed.Fault.ofOrigin (argument request "origin") =
      .wrongAuthority (argument request "origin") := by
  rw [Feed.Fault.ofOrigin, h.origin]

theorem IsTellable.ofStale_eq [Limits] (h : IsTellable now held request) {newest : Stamp}
    (hnewest : held.getLast? = some newest) (hlater : now < newest.time) :
    Log.Fault.ofStale (.int now) (.int newest.time) = .stale (.int now) (.int newest.time) := by
  obtain ⟨hnow, hnewest⟩ := h.times newest hnewest hlater
  exact Log.Fault.ofStale_of_fit hnow hnewest

/-- Every request falls into one of the rows. -/
theorem rows (authority : Text) (now : Int) (held : List Stamp)
    (request : List (Text × Value)) :
    IsMalformed request ∨
      (∃ call reason fault, Refuses authority now held request call reason fault) ∨
      Cleans now held request ∨ ∃ payload, Admits authority now held request payload := by
  cases hcall : Call.ofName? (argument request "call") with
  | none =>
      refine .inl (.inl fun call hasks => ?_)
      rw [asks_iff.mp hasks] at hcall
      cases hcall
  | some call =>
      have hasks : Asks request call := asks_iff.mpr hcall
      cases call with
      | clean =>
          cases hahead : Stamp.ahead? now held with
          | some latest =>
              obtain ⟨newest, hnewest, hlater, -⟩ := ahead?_eq_some_iff_newest.mp hahead
              exact .inr (.inl ⟨_, _, _, .belatedClean hasks hnewest hlater⟩)
          | none => exact .inr (.inr (.inl ⟨hasks, isTimely_iff.mpr hahead⟩))
      | push =>
          cases hpayload : Desk.payload request with
          | error fault =>
              refine .inl (.inr ⟨hasks, fun payload hhands => ?_⟩)
              rw [hands_iff.mp hhands] at hpayload
              cases hpayload
          | ok payload =>
              have hhands := hands_iff.mpr hpayload
              by_cases hnull : argument request "origin" = .null
              · exact .inr (.inl ⟨_, _, _, .unsigned hasks hhands hnull⟩)
              · by_cases horigin : argument request "origin" = .str authority
                · cases hahead : Stamp.ahead? now held with
                  | some latest =>
                      obtain ⟨newest, hnewest, hlater, -⟩ := ahead?_eq_some_iff_newest.mp hahead
                      exact .inr (.inl ⟨_, _, _,
                        .belatedPush hasks hhands horigin hnewest hlater⟩)
                  | none =>
                      exact .inr (.inr (.inr ⟨payload, hasks, hhands, horigin,
                        isTimely_iff.mpr hahead⟩))
                · exact .inr (.inl ⟨_, _, _, .foreign hasks hhands hnull horigin⟩)

section

variable {ω : Type} {listener : Listener ω} {notes : ω → List Note} {s : Session ω}
  {lifetime now : Int} {held : Option (List Stamp)} {request : List (Text × Value)}

theorem IsMalformed.not_consults (h : IsMalformed request) : ¬Consults authority request := by
  rintro (hasks | ⟨hasks, ⟨payload, hhands⟩, -⟩)
  · rcases h with hnone | ⟨hpush, -⟩
    · exact hnone _ hasks
    · cases hpush.unique hasks
  · rcases h with hnone | ⟨-, hother⟩
    · exact hnone _ hasks
    · exact hother payload hhands

theorem not_consults_of_origin (hasks : Asks request .push)
    (horigin : argument request "origin" ≠ .str authority) : ¬Consults authority request := by
  rintro (hclean | ⟨-, -, hsigned⟩)
  · cases hasks.unique hclean
  · exact horigin hsigned

/-- The message about an accepted push has the payload in digits of the lower case. -/
theorem message_emitted (payload : Bytes) (now : Int) :
    ∃ text : Text, (Outcome.emitted ⟨payload, .int now⟩).message =
        .object [("event", .str "emitted"), ("data", .str text), ("recorded_at", .int now)] ∧
      Hex.Spells text.chars payload ∧ ∀ c ∈ text.chars, Hex.IsLowerDigit c := by
  refine ⟨Hex.encode payload, rfl, Hex.decode_eq_ok_iff.mp (Hex.decode_encode payload), ?_⟩
  intro c hc
  rw [Text.chars_ofString, Hex.encode, String.toList_ofList] at hc
  exact Hex.isLowerDigit_of_mem_digits hc

variable [Limits]

theorem handle_of_malformed (hmalformed : IsMalformed request)
    (htellable : IsTellable now (held.getD []) request) (listener : Listener ω) (s : Session ω)
    (m : Metrics) :
    ∃ fault m', handle listener request ⟨s, m⟩ = .error fault ⟨s, m'⟩ ∧ IsOwn request fault := by
  rw [handle_eq]
  rcases hmalformed with hasks | ⟨hasks, hhands⟩
  · have hcall : Call.ofName? (argument request "call") = none := by
      rw [Option.eq_none_iff_forall_ne_some]
      exact fun call hcall => hasks call (asks_iff.mpr hcall)
    rw [hcall]
    exact ⟨_, _, rfl, htellable.isOwn_ofCall⟩
  · rw [asks_iff.mp hasks]
    cases hpayload : payload request with
    | ok octets => exact absurd (hands_iff.mpr hpayload) (hhands octets)
    | error fault => exact ⟨fault, _, rfl, isOwn_of_payload hpayload⟩

/-- Whether the clock is read between two sessions depends on the request and its signer. -/
inductive LooksUp (authority : Text) (request : List (Text × Value)) (s t : Session ω) : Prop where
  | read (hconsults : Consults authority request) (hclock : t.clock = s.clock.read.2) :
      LooksUp authority request s t
  | spared (hconsults : ¬Consults authority request) (hclock : t.clock = s.clock) :
      LooksUp authority request s t

/-- A refusal leaves the session as it was, but for the clock where that has been read. -/
theorem handle_of_refuses (hfeed : s.feed.Carries lifetime held) (hclock : s.clock.Shows now)
    (hsubscribers : s.feed.subscribers = [.record]) {call : Call} {reason : Reason}
    {fault : Feed.Fault}
    (hrefuses : Refuses s.feed.authority now (held.getD []) request call reason fault)
    (htellable : IsTellable now (held.getD []) request) (listener : Listener ω) (m : Metrics) :
    ∃ desk, handle listener request ⟨s, m⟩ = .ok (.rejected call reason fault.message) desk ∧
      desk.session.world = s.world ∧ LooksUp s.feed.authority request s desk.session := by
  rw [handle_eq_carryOut hfeed hclock hsubscribers, verdict]
  cases hrefuses with
  | unsigned hasks hhands horigin =>
      have hfault : Feed.authorise s.feed.authority (argument request "origin") =
          .error .noOrigin := Feed.authorise_eq_error_iff.mpr (.inl ⟨horigin, rfl⟩)
      simp only [asks_iff.mp hasks, hands_iff.mp hhands, vetted, hfault]
      exact ⟨_, rfl, rfl, .spared (not_consults_of_origin hasks (by simp [horigin])) rfl⟩
  | foreign hasks hhands hsigned horigin =>
      have hfault := Feed.authorise_eq_error_iff.mpr (.inr ⟨hsigned, horigin, rfl⟩)
      rw [htellable.ofOrigin_eq] at hfault
      simp only [asks_iff.mp hasks, hands_iff.mp hhands, vetted, hfault]
      exact ⟨_, rfl, rfl, .spared (not_consults_of_origin hasks horigin) rfl⟩
  | belatedPush hasks hhands horigin hnewest hlater =>
      have hahead := ahead?_eq_some_iff_newest.mpr ⟨_, hnewest, hlater, rfl⟩
      simp only [asks_iff.mp hasks, hands_iff.mp hhands, vetted,
        Feed.authorise_eq_ok_iff_eq.mpr horigin, hahead, Verdict.carryOut,
        htellable.ofStale_eq hnewest hlater]
      exact ⟨_, rfl, rfl, .read (.inr ⟨hasks, ⟨_, hhands⟩, horigin⟩) rfl⟩
  | belatedClean hasks hnewest hlater =>
      have hahead := ahead?_eq_some_iff_newest.mpr ⟨_, hnewest, hlater, rfl⟩
      simp only [asks_iff.mp hasks, hahead, Verdict.carryOut,
        htellable.ofStale_eq hnewest hlater]
      exact ⟨_, rfl, rfl, .read (.inl hasks) rfl⟩

theorem handle_of_cleans (hfeed : s.feed.Carries lifetime held) (hclock : s.clock.Shows now)
    (hsubscribers : s.feed.subscribers = [.record]) (hcleans : Cleans now (held.getD []) request)
    (listener : Listener ω) (m : Metrics) :
    ∃ desk, handle listener request ⟨s, m⟩ =
        .ok (.cleaned (Stamp.expiredAt lifetime now (held.getD [])).length) desk ∧
      desk.session.world = s.world ∧ LooksUp s.feed.authority request s desk.session := by
  rw [handle_eq_carryOut hfeed hclock hsubscribers, verdict]
  simp only [asks_iff.mp hcleans.asks, isTimely_iff.mp hcleans.timely]
  exact ⟨_, rfl, rfl, .read (.inl hcleans.asks) rfl⟩

theorem handle_of_admits (hlistener : listener.WritesDown notes)
    (hfeed : s.feed.Carries lifetime held) (hclock : s.clock.Shows now)
    (hsubscribers : s.feed.subscribers = [.record]) {payload : Bytes}
    (hadmits : Admits s.feed.authority now (held.getD []) request payload) (m : Metrics) :
    ∃ desk, handle listener request ⟨s, m⟩ = .ok (.emitted ⟨payload, .int now⟩) desk ∧
      notes desk.session.world = notes s.world ++ [.told 0 ⟨payload, .int now⟩] ∧
      LooksUp s.feed.authority request s desk.session := by
  obtain ⟨later, htold, hnotes⟩ := hlistener (.told 0 ⟨payload, .int now⟩) s.world
  rw [handle_eq_carryOut hfeed hclock hsubscribers, verdict]
  simp only [asks_iff.mp hadmits.asks, hands_iff.mp hadmits.hands, vetted,
    Feed.authorise_eq_ok_iff_eq.mpr hadmits.origin_eq, isTimely_iff.mp hadmits.timely,
    Verdict.carryOut, htold]
  exact ⟨_, rfl, hnotes, .read (.inr ⟨hadmits.asks, ⟨_, hadmits.hands⟩, hadmits.origin_eq⟩) rfl⟩

/-- The decision table.  Each request falls into one row, which determines the result, what the
subscriber is told and whether the clock is read. -/
inductive Decides (authority : Text) (lifetime now : Int) (held : List Stamp)
    (notes : ω → List Note) (s : Session ω) (request : List (Text × Value)) :
    EStateM.Result Fault (Desk ω) Outcome → Prop where
  | malformed {fault : Fault} {desk : Desk ω} (hmalformed : IsMalformed request)
      (hown : IsOwn request fault) (hworld : desk.session.world = s.world)
      (hclock : LooksUp authority request s desk.session) :
      Decides authority lifetime now held notes s request (.error fault desk)
  | refused {call : Call} {reason : Reason} {fault : Feed.Fault} {desk : Desk ω}
      (hrefuses : Refuses authority now held request call reason fault)
      (hworld : desk.session.world = s.world)
      (hclock : LooksUp authority request s desk.session) :
      Decides authority lifetime now held notes s request
        (.ok (.rejected call reason fault.message) desk)
  | cleaned {desk : Desk ω} (hcleans : Cleans now held request)
      (hworld : desk.session.world = s.world)
      (hclock : LooksUp authority request s desk.session) :
      Decides authority lifetime now held notes s request
        (.ok (.cleaned (Stamp.expiredAt lifetime now held).length) desk)
  | emitted {payload : Bytes} {desk : Desk ω} (hadmits : Admits authority now held request payload)
      (hnotes : notes desk.session.world = notes s.world ++ [.told 0 ⟨payload, .int now⟩])
      (hclock : LooksUp authority request s desk.session) :
      Decides authority lifetime now held notes s request
        (.ok (.emitted ⟨payload, .int now⟩) desk)

namespace Decides

variable {ss : List Stamp} {result : EStateM.Result Fault (Desk ω) Outcome}

theorem looksUp (h : Decides authority lifetime now ss notes s request result) :
    LooksUp authority request s (ending result).session := by
  cases h <;> assumption

theorem world_eq (h : Decides authority lifetime now ss notes s request result)
    (hother : ∀ event desk, result ≠ .ok (.emitted event) desk) :
    (ending result).session.world = s.world := by
  cases h with
  | emitted _ _ _ => exact absurd rfl (hother _ _)
  | _ => assumption

end Decides

theorem decides_handle (hlistener : listener.WritesDown notes)
    (hfeed : s.feed.Carries lifetime held) (hclock : s.clock.Shows now)
    (hsubscribers : s.feed.subscribers = [.record])
    (htellable : IsTellable now (held.getD []) request) (m : Metrics) :
    Decides s.feed.authority lifetime now (held.getD []) notes s request
      (handle listener request ⟨s, m⟩) := by
  rcases rows s.feed.authority now (held.getD []) request with
    hmalformed | ⟨call, reason, fault, hrefuses⟩ | hcleans | ⟨payload, hadmits⟩
  · obtain ⟨fault, m', hhandle, hown⟩ := handle_of_malformed hmalformed htellable listener s m
    rw [hhandle]
    exact .malformed hmalformed hown rfl (.spared hmalformed.not_consults rfl)
  · obtain ⟨desk, hhandle, hworld, hread⟩ :=
      handle_of_refuses hfeed hclock hsubscribers hrefuses htellable listener m
    rw [hhandle]
    exact .refused hrefuses hworld hread
  · obtain ⟨desk, hhandle, hworld, hread⟩ :=
      handle_of_cleans hfeed hclock hsubscribers hcleans listener m
    rw [hhandle]
    exact .cleaned hcleans hworld hread
  · obtain ⟨desk, hhandle, hnotes, hread⟩ :=
      handle_of_admits hlistener hfeed hclock hsubscribers hadmits m
    rw [hhandle]
    exact .emitted hadmits hnotes hread

/-! The columns of the table -/

section Columns

variable (hlistener : listener.WritesDown notes) (hfeed : s.feed.Carries lifetime held)
  (hclock : s.clock.Shows now) (hsubscribers : s.feed.subscribers = [.record])
  (htellable : IsTellable now (held.getD []) request) (m : Metrics)

include hlistener hfeed hclock hsubscribers htellable

/-- A request fails if and only if it is malformed. -/
theorem handle_fails_iff :
    (∃ fault desk, handle listener request ⟨s, m⟩ = .error fault desk) ↔ IsMalformed request := by
  constructor
  · rintro ⟨fault, desk, hresult⟩
    have hdecides := decides_handle hlistener hfeed hclock hsubscribers htellable m
    rw [hresult] at hdecides
    cases hdecides with
    | malformed hmalformed _ _ _ => exact hmalformed
  · intro hmalformed
    obtain ⟨fault, m', hhandle, -⟩ := handle_of_malformed hmalformed htellable listener s m
    exact ⟨_, _, hhandle⟩

theorem isOwn_of_handle {fault : Fault} {desk : Desk ω}
    (h : handle listener request ⟨s, m⟩ = .error fault desk) : IsOwn request fault := by
  have hdecides := decides_handle hlistener hfeed hclock hsubscribers htellable m
  rw [h] at hdecides
  cases hdecides with
  | malformed _ hown _ _ => exact hown

theorem handle_rejects_iff {call : Call} {reason : Reason} {detail : String} :
    (∃ desk, handle listener request ⟨s, m⟩ = .ok (.rejected call reason detail) desk) ↔
      ∃ fault, Refuses s.feed.authority now (held.getD []) request call reason fault ∧
        detail = fault.message := by
  constructor
  · rintro ⟨desk, hresult⟩
    have hdecides := decides_handle hlistener hfeed hclock hsubscribers htellable m
    rw [hresult] at hdecides
    cases hdecides with
    | refused hrefuses _ _ => exact ⟨_, hrefuses, rfl⟩
  · rintro ⟨fault, hrefuses, rfl⟩
    obtain ⟨desk, hhandle, -⟩ :=
      handle_of_refuses hfeed hclock hsubscribers hrefuses htellable listener m
    exact ⟨desk, hhandle⟩

theorem handle_emits_iff {event : Event} :
    (∃ desk, handle listener request ⟨s, m⟩ = .ok (.emitted event) desk) ↔
      ∃ payload, Admits s.feed.authority now (held.getD []) request payload ∧
        event = ⟨payload, .int now⟩ := by
  constructor
  · rintro ⟨desk, hresult⟩
    have hdecides := decides_handle hlistener hfeed hclock hsubscribers htellable m
    rw [hresult] at hdecides
    cases hdecides with
    | emitted hadmits _ _ => exact ⟨_, hadmits, rfl⟩
  · rintro ⟨payload, hadmits, rfl⟩
    obtain ⟨desk, hhandle, -⟩ := handle_of_admits hlistener hfeed hclock hsubscribers hadmits m
    exact ⟨desk, hhandle⟩

theorem handle_cleans_iff {count : Nat} :
    (∃ desk, handle listener request ⟨s, m⟩ = .ok (.cleaned count) desk) ↔
      Cleans now (held.getD []) request ∧
        count = (Stamp.expiredAt lifetime now (held.getD [])).length := by
  constructor
  · rintro ⟨desk, hresult⟩
    have hdecides := decides_handle hlistener hfeed hclock hsubscribers htellable m
    rw [hresult] at hdecides
    cases hdecides with
    | cleaned hcleans _ _ => exact ⟨hcleans, rfl⟩
  · rintro ⟨hcleans, rfl⟩
    obtain ⟨desk, hhandle, -⟩ := handle_of_cleans hfeed hclock hsubscribers hcleans listener m
    exact ⟨desk, hhandle⟩

theorem told_of_handle {event : Event} {desk : Desk ω}
    (h : handle listener request ⟨s, m⟩ = .ok (.emitted event) desk) :
    notes desk.session.world = notes s.world ++ [.told 0 event] := by
  have hdecides := decides_handle hlistener hfeed hclock hsubscribers htellable m
  rw [h] at hdecides
  cases hdecides with
  | emitted _ hnotes _ => exact hnotes

/-- The clock is read for what is consulted about, and for nothing else. -/
theorem clock_of_handle :
    let clock := (ending (handle listener request ⟨s, m⟩)).session.clock
    (Consults s.feed.authority request → clock = s.clock.read.2) ∧
      (¬Consults s.feed.authority request → clock = s.clock) := by
  cases (decides_handle hlistener hfeed hclock hsubscribers htellable m).looksUp with
  | read hconsults hread => exact ⟨fun _ => hread, fun hspared => absurd hconsults hspared⟩
  | spared hspared hkept => exact ⟨fun hconsults => absurd hconsults hspared, fun _ => hkept⟩

end Columns

end

section

variable [Limits]

/-- What becomes of a request, whatever its fields are, at a feed with whole times and one
subscriber who takes note, as long as what a refusal would have to name can be put in words.  It
fails if and only if it is malformed.  The refusals come in their order, first for the signer and
then for the time, with their reasons; a push that is accepted is told with the octets that were
handed over, in digits of the lower case, and the time; a cleanup that is accepted is not told.  The
subscriber is told of an accepted push and of nothing else, and the clock is read if and only if
neither the request nor the signer stands in the way. -/
theorem decision_table {ω : Type} (listener : Listener ω) (notes : ω → List Note)
    (hlistener : listener.WritesDown notes) (s : Session ω) (lifetime now : Int)
    (held : Option (List Stamp)) (hfeed : s.feed.Carries lifetime held)
    (hclock : s.clock.Shows now) (hsubscribers : s.feed.subscribers = [.record])
    (request : List (Text × Value)) (htellable : IsTellable now (held.getD []) request)
    (m : Metrics) :
    let authority := s.feed.authority
    let stamps := held.getD []
    let result := handle listener request ⟨s, m⟩
    ((∃ fault desk, result = .error fault desk) ↔ IsMalformed request) ∧
    (∀ fault desk, result = .error fault desk → IsOwn request fault) ∧
    (∀ call reason detail, (∃ desk, result = .ok (.rejected call reason detail) desk) ↔
      ∃ fault, Refuses authority now stamps request call reason fault ∧
        detail = fault.message) ∧
    (∀ event, (∃ desk, result = .ok (.emitted event) desk) ↔
      ∃ payload, Admits authority now stamps request payload ∧ event = ⟨payload, .int now⟩) ∧
    (∀ payload, ∃ text : Text, (Outcome.emitted ⟨payload, .int now⟩).message =
        .object [("event", .str "emitted"), ("data", .str text), ("recorded_at", .int now)] ∧
      Hex.Spells text.chars payload ∧ ∀ c ∈ text.chars, Hex.IsLowerDigit c) ∧
    (∀ count, (Outcome.cleaned count).message = .null ∧
      ((∃ desk, result = .ok (.cleaned count) desk) ↔
        Cleans now stamps request ∧ count = (Stamp.expiredAt lifetime now stamps).length)) ∧
    (∀ event desk, result = .ok (.emitted event) desk →
      notes desk.session.world = notes s.world ++ [.told 0 event]) ∧
    ((∀ event desk, result ≠ .ok (.emitted event) desk) →
      (ending result).session.world = s.world) ∧
    (Consults authority request → (ending result).session.clock = s.clock.read.2) ∧
    (¬Consults authority request → (ending result).session.clock = s.clock) :=
  ⟨handle_fails_iff hlistener hfeed hclock hsubscribers htellable m,
    fun _ _ => isOwn_of_handle hlistener hfeed hclock hsubscribers htellable m,
    fun _ _ _ => handle_rejects_iff hlistener hfeed hclock hsubscribers htellable m,
    fun _ => handle_emits_iff hlistener hfeed hclock hsubscribers htellable m,
    fun payload => message_emitted payload now,
    fun _ => ⟨rfl, handle_cleans_iff hlistener hfeed hclock hsubscribers htellable m⟩,
    fun _ _ => told_of_handle hlistener hfeed hclock hsubscribers htellable m,
    (decides_handle hlistener hfeed hclock hsubscribers htellable m).world_eq,
    clock_of_handle hlistener hfeed hclock hsubscribers htellable m⟩

end

open scoped Limits

/-- A timely push in mixed letter case with blanks is emitted, and the subscriber is told. -/
theorem decision_table_of_untidy_push :
    let listener : Listener (List Note) := fun note notes => .ok (notes ++ [note])
    let feed : Feed :=
      ⟨"auth", .int 1000, some (Log.stamped 1000 [⟨[97], 400⟩]), [.record], 0⟩
    let s : Session (List Note) := ⟨feed, Clock.showing (.int 500), []⟩
    let request : List (Text × Value) :=
      [("data", .str " 0A\tfF"), ("origin", .str "auth"), ("call", .str "push_data")]
    ∃ desk, handle listener request ⟨s, Metrics.zero⟩ =
        .ok (.emitted ⟨[10, 255], .int 500⟩) desk ∧
      desk.session.world = [.told 0 ⟨[10, 255], .int 500⟩] ∧
      desk.session.clock.reads = 1 := by
  intro listener feed s request
  have hlistener : listener.WritesDown id := fun note notes => ⟨notes ++ [note], rfl, rfl⟩
  have hfeed : s.feed.Carries 1000 (some [⟨[97], 400⟩]) :=
    ⟨nofun, rfl, List.pairwise_singleton _ _⟩
  have hclock : s.clock.Shows 500 := rfl
  have hhands : Hands request [10, 255] :=
    ⟨" 0A\tfF", rfl, Hex.decode_eq_ok_iff.mp (by decide +kernel)⟩
  have htimely : IsTimely 500 [⟨[97], 400⟩] := by
    intro newest hnewest
    cases hnewest
    decide
  have htellable : IsTellable 500 [⟨[97], 400⟩] request := by
    refine ⟨?_, Value.wordless?_str _, ?_⟩
    · rw [show argument request "call" = .str "push_data" from rfl, Value.wordless?_str]
      exact nofun
    intro newest hnewest hlater
    exact absurd (htimely newest hnewest) (Int.not_le.mpr hlater)
  obtain ⟨-, -, -, hemitted, -, -, htold, -, hread, -⟩ :=
    decision_table listener id hlistener s 1000 500 _ hfeed hclock rfl request htellable
      Metrics.zero
  obtain ⟨desk, hhandle⟩ := (hemitted _).mpr ⟨[10, 255], ⟨rfl, hhands, rfl, htimely⟩, rfl⟩
  have hconsults : Consults s.feed.authority request := .inr ⟨rfl, ⟨_, hhands⟩, rfl⟩
  refine ⟨desk, hhandle, htold _ desk hhandle, ?_⟩
  have hclock' := hread hconsults
  rw [hhandle] at hclock'
  exact congrArg Clock.reads hclock'

/-- A cleanup is understood and refused, since the clock shows a time before the newest entry; but
that time has too many digits, so the request fails. -/
theorem clean_request_fails_without_words :
    let listener : Listener (List Note) := fun note notes => .ok (notes ++ [note])
    let feed : Feed :=
      ⟨"auth", .int 1000, some (Log.stamped 1000 [⟨[97], 1000⟩]), [.record], 0⟩
    let now : Int := -Nat.pow 10 4302
    let s : Session (List Note) := ⟨feed, Clock.showing (.int now), []⟩
    let request : List (Text × Value) := [("call", .str "clean_outdated_data")]
    ¬IsMalformed request ∧
      Refuses "auth" now [⟨[97], 1000⟩] request .clean .stale
        (.log (.stale (.int now) (.int 1000))) ∧
      ∃ desk, handle listener request ⟨s, Metrics.zero⟩ =
        .error (.feed (.log (.wordless .tooLong))) desk := by
  intro listener feed now s request
  have hlater : now < 1000 := by decide +kernel
  have hfit : (Digits.fit now && Digits.fit 1000) = false := by decide +kernel
  -- Only these two facts about the time count, and its digits would be in the way.
  clear_value now
  have hasks : Asks request .clean := rfl
  have hfeed : s.feed.Carries 1000 (some [⟨[97], 1000⟩]) :=
    ⟨nofun, rfl, List.pairwise_singleton _ _⟩
  have hclock : s.clock.Shows now := rfl
  have hnewest : [(⟨[97], 1000⟩ : Stamp)].getLast? = some ⟨[97], 1000⟩ := rfl
  have hrefuses : Refuses s.feed.authority now [⟨[97], 1000⟩] request .clean .stale
      (.log (.stale (.int now) (.int 1000))) := .belatedClean hasks hnewest hlater
  have hahead := ahead?_eq_some_iff_newest.mpr ⟨_, hnewest, hlater, rfl⟩
  refine ⟨?_, hrefuses, ⟨s.ticked, Metrics.zero.countRequest .clean⟩, ?_⟩
  · rintro (hneither | ⟨hpush, -⟩)
    · exact hneither .clean hasks
    · cases hpush.unique hasks
  · rw [handle_eq_carryOut hfeed hclock rfl, verdict]
    simp only [asks_iff.mp hasks, Option.getD_some, hahead, Verdict.carryOut,
      Log.Fault.ofStale_int, hfit, Bool.false_eq_true, ↓reduceIte]
    rfl

end LiveFeed.Desk
