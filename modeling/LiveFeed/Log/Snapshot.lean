/-
Logs as documents.  A snapshot is an object with the lifetime and the entries of a log, each with
its payload as hexadecimal text.  Reading takes any value and says what keeps it from being a
snapshot; a faulty entry is named by its index.
-/
import LiveFeed.Log.Basic

namespace LiveFeed.Snapshot

def encodeEntry (e : Entry) : Value :=
  .object [("payload", .str (Hex.encode e.payload)), ("recorded_at", e.recordedAt)]

def encode (log : Log) : Value :=
  .object [("lifetime", log.lifetime), ("entries", .list (log.entries.map encodeEntry))]

/-- Why a value has no field of a given name. -/
inductive LookupFault where
  | missing (key : String)
  | noFields (kind : Kind)
deriving Repr, DecidableEq

/-- The wording of a failed look-up. -/
def LookupFault.message : LookupFault → String
  | .missing key => Quoted.text key
  | .noFields .list => "list indices must be integers or slices, not str"
  | .noFields .str => "string indices must be integers, not 'str'"
  | .noFields (.bytes .fixed) => "byte indices must be integers or slices, not str"
  | .noFields (.bytes .growable) => "bytearray indices must be integers or slices, not str"
  | .noFields (.bytes .view) => "memoryview: invalid slice key"
  | .noFields kind => "'" ++ kind.name ++ "' object is not subscriptable"

/-- Why a value is not the snapshot of an entry. -/
inductive EntryFault where
  | lookup (fault : LookupFault)
  | notText (kind : Kind)
  | notHex (position : Nat)
deriving Repr, DecidableEq

/-- The name of a type where a text was expected. -/
def argumentName : Kind → String
  | .null => "None"
  | kind => kind.name

/-- The wording of hexadecimal text that breaks off at a position. -/
def notHexMessage (position : Nat) : String :=
  "non-hexadecimal number found in fromhex() arg at position " ++ toString position

/-- The wording of a faulty entry. -/
def EntryFault.message : EntryFault → String
  | .lookup fault => fault.message
  | .notText kind => "fromhex() argument must be str, not " ++ argumentName kind
  | .notHex position => notHexMessage position

/-- Why a value is not a snapshot. -/
inductive Fault where
  | missingField (name : String)
  | badEntry (index : Nat) (fault : EntryFault)
  | lookup (fault : LookupFault)
  | noMembers (kind : Kind)
  | notIterable (kind : Kind)
  | log (fault : Log.Fault)
deriving Repr

def Fault.message [Limits] : Fault → String
  | .missingField name => "snapshot: missing required field '" ++ name ++ "'"
  | .badEntry index fault => "snapshot: bad entry #" ++ toString index ++ ": " ++ fault.message
  | .lookup fault => fault.message
  | .noMembers (.bytes _) => "a bytes-like object is required, not 'str'"
  | .noMembers kind => "argument of type '" ++ kind.name ++ "' is not iterable"
  | .notIterable kind => "'" ++ kind.name ++ "' object is not iterable"
  | .log fault => fault.message

/-- Whether a value mentions a name: as a key, as an item or as a part of a text. -/
def mentions (v : Value) (name : String) : Except Fault Bool :=
  match v with
  | .object fields => .ok (fields.any (·.1 = name))
  | .list items => .ok (items.any (Value.same (.str name)))
  | .str t => .ok (t.contains name)
  | .bytes .view _ => .ok false
  | v => .error (.noMembers v.kind)

def lookup (v : Value) (key : String) : Except LookupFault Value :=
  match v with
  | .object fields =>
      match Value.field? fields key with
      | some v => .ok v
      | none => .error (.missing key)
  | v => .error (.noFields v.kind)

/-- The values that are met by going through a value: the items of a list, the keys of an object,
the characters of a text, the octets of a container. -/
def members (v : Value) : Except Fault (List Value) :=
  match v with
  | .list items => .ok items
  | .object fields => .ok (fields.map fun f => .str f.1)
  | .str t => .ok (t.points.map fun p => .str ⟨[p]⟩)
  | .bytes _ octets => .ok (octets.map fun b => .int b.toNat)
  | v => .error (.notIterable v.kind)

/-- Reads the snapshot of an entry. -/
def decodeEntry (v : Value) : Except EntryFault Entry := do
  match ← (lookup v "payload").mapError .lookup with
  | .str text =>
      let payload ← (Hex.decode text).mapError .notHex
      let recordedAt ← (lookup v "recorded_at").mapError .lookup
      return ⟨payload, recordedAt⟩
  | other => throw (.notText other.kind)

/-- Reads entries, of which the first has the given index. -/
def decodeEntries : Nat → List Value → Except Fault (List Entry)
  | _, [] => .ok []
  | index, v :: rest => do
      let e ← (decodeEntry v).mapError (.badEntry index)
      return e :: (← decodeEntries (index + 1) rest)

/-- The lifetime of a snapshot: the one that is given, unless it is null, else the stored one. -/
def lifetimeOf (snapshot : Value) : Option Value → Except Fault Value
  | none | some .null => do
      if !(← mentions snapshot "lifetime") then throw (.missingField "lifetime")
      (lookup snapshot "lifetime").mapError .lookup
  | some lifetime => .ok lifetime

/-- Rebuilds a log from its snapshot, under the given lifetime or the stored one. -/
def decode (snapshot : Value) (lifetime : Option Value) : Except Fault Log := do
  if !(← mentions snapshot "entries") then throw (.missingField "entries")
  let lifetime ← lifetimeOf snapshot lifetime
  let stored ← (lookup snapshot "entries").mapError .lookup
  let entries ← decodeEntries 0 (← members stored)
  (Log.ofEntries? lifetime entries).mapError .log

end LiveFeed.Snapshot
