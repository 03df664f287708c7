/-
The counters of a feed service.
-/
import LiveFeed.Request.Message

namespace LiveFeed

/-- What has been counted since the start. -/
structure Metrics where
  /-- Requests whose call is known. -/
  requests : Call → Nat
  /-- The requests that the feed refused, newest first. -/
  refusals : List (Call × Reason)
  /-- Entries dropped by cleanups. -/
  evicted : Nat
  /-- The payloads that readers saw last. -/
  live : Nat
  /-- Malformed requests, failed saves and faults of the message source. -/
  errors : Nat

namespace Metrics

/-- Nothing has been counted. -/
def zero : Metrics := ⟨fun _ => 0, [], 0, 0, 0⟩

/-- Counting begins at zero. -/
instance : Inhabited Metrics := ⟨zero⟩

def countRequest (m : Metrics) (call : Call) : Metrics :=
  { m with requests := fun c => m.requests c + if c = call then 1 else 0 }

def countRejection (m : Metrics) (call : Call) (reason : Reason) : Metrics :=
  { m with refusals := (call, reason) :: m.refusals }

/-- How many requests for a call were refused for a reason. -/
def rejections (m : Metrics) (call : Call) (reason : Reason) : Nat :=
  m.refusals.count (call, reason)

/-- The reasons for which requests were refused. -/
def reasons (m : Metrics) : List Reason := (m.refusals.map (·.2)).eraseDups

/-- Counts dropped entries. -/
def countEvicted (m : Metrics) (count : Nat) : Metrics := { m with evicted := m.evicted + count }

def countError (m : Metrics) : Metrics := { m with errors := m.errors + 1 }

/-- A named number with labels. -/
structure Sample where
  name : String
  labels : List (String × String)
  value : Nat
deriving Repr, DecidableEq

/-- The calls in the order of their names. -/
def calls : List Call := [.clean, .push]

/-- All samples in the order of their names and labels; those with labels only once they count. -/
def samples (m : Metrics) : List Sample :=
  let reasons := m.reasons.mergeSort fun r s => r.name ≤ s.name
  let rejections := calls.flatMap fun call => reasons.map fun reason =>
    Sample.mk "oracle_rejections_total" [("call", call.name), ("reason", reason.name)]
      (m.rejections call reason)
  let requests := calls.map fun call =>
    Sample.mk "oracle_requests_total" [("call", call.name)] (m.requests call)
  [⟨"oracle_evicted_entries_total", [], m.evicted⟩, ⟨"oracle_live_entries", [], m.live⟩]
    ++ rejections.filter (0 < ·.value)
    ++ [⟨"oracle_request_errors_total", [], m.errors⟩]
    ++ requests.filter (0 < ·.value)

end Metrics
end LiveFeed
