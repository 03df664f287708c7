/-
The text of a document as it comes in.

A file is read in blocks of octets and handed on in pages of characters with unified line ends.  A
page is read only when something beyond the pages before it is wanted, so a fault in it shows only
then: whatever is wrong with the text in front of it is found first.
-/
import LiveFeed.Yaml.Token

namespace LiveFeed.Yaml

/-- The part of a text that can be read, and what happens when more is wanted: a fault, or nothing
if this is all of the text. -/
structure Source where
  chars : List Char
  beyond : Option Fault

namespace Source

/-- The least number of octets that are read at once. -/
def blockSize : Nat := 8192

/-- The number of characters in a page. -/
def pageSize : Nat := 4096

/-- A file in the middle of being read. -/
structure Inflow where
  octets : Bytes
  /-- The octets of a character that is not complete yet. -/
  begun : Bytes
  /-- Whether a carriage return has been read that a line feed may follow. -/
  afterReturn : Bool
  /-- Characters that have been read and not handed on. -/
  ready : List Char
  /-- The numbers of octets and characters of the last block. -/
  lastBlock : Nat × Nat

namespace Inflow

/-- The beginning of a file. -/
def start (octets : Bytes) : Inflow := ⟨octets, [], false, [], (0, 0)⟩

/-- How many octets are read for a number of characters: as many as the last block took for them. -/
def sizeFor (wanted : Nat) (s : Inflow) : Nat :=
  let (octets, chars) := s.lastBlock
  max blockSize (if chars < octets then octets * wanted / chars else wanted)

/-- Line ends of all kinds as line feeds.  A carriage return at the end waits for what follows it,
unless nothing does. -/
def unify (afterReturn ended : Bool) (cs : List Char) : List Char × Bool :=
  let waits := afterReturn && cs.isEmpty && !ended
  let cs := if afterReturn && !waits then '\r' :: cs else cs
  let returns := cs.getLast? == some '\r' && !ended
  (LineEnds.unify (if returns then cs.dropLast else cs), waits || returns)

/-- Reads a block.  The answer says whether the file was at its end. -/
def block (wanted : Nat) (s : Inflow) : Except Utf8.Fault (Bool × Inflow) := do
  let size := s.sizeFor wanted
  let taken := s.octets.take size
  let (decoded, begun) ← Utf8.decodePart taken.isEmpty (s.begun ++ taken)
  let (cs, afterReturn) := unify s.afterReturn taken.isEmpty decoded
  return (taken.isEmpty && cs.isEmpty,
    ⟨s.octets.drop size, begun, afterReturn, s.ready ++ cs,
      if cs.isEmpty then (0, 0) else (taken.length, cs.length)⟩)

/-- Reads blocks until there is a page, or the end of the file. -/
def fill : Nat → Inflow → Except Utf8.Fault Inflow
  | 0, s => .ok s
  | fuel + 1, s =>
      if pageSize ≤ s.ready.length then .ok s
      else do
        let (ended, s) ← s.block (pageSize - s.ready.length)
        if ended then return s else fill fuel s

/-- The pages of a file, and the fault of the one after them. -/
def pages : Nat → Inflow → List (List Char) × Option Utf8.Fault
  | 0, _ => ([], none)
  | fuel + 1, s =>
      match fill (s.octets.length + 3) s with
      | .error fault => ([], some fault)
      | .ok s =>
          if s.ready.isEmpty then ([], none)
          else
            let (more, fault) := pages fuel { s with ready := s.ready.drop pageSize }
            (s.ready.take pageSize :: more, fault)

end Inflow

/-- Whether a character may occur in a document at all. -/
def isAllowed (c : Char) : Bool :=
  let n := c.toNat
  n == 9 || n == 10 || n == 13 || (32 ≤ n && n ≤ 126) || n == 0x85 || (0xA0 ≤ n && n ≤ 0xD7FF)
    || (0xE000 ≤ n && n ≤ 0xFFFD) || 0x10000 ≤ n

/-- The text of pages up to the first one that holds a character that is not allowed.  `fault` is
that of the page after the last one. -/
def ofPages (fault : Option Utf8.Fault) : List (List Char) → Source
  | [] => ⟨[], fault.map .encoding⟩
  | page :: rest =>
      if page.all isAllowed then
        let source := ofPages fault rest
        { source with chars := page ++ source.chars }
      else ⟨[], some .malformed⟩

/-- The text of a file.  At the beginning two pages are read at once. -/
def ofBytes (octets : Bytes) : Source :=
  match Inflow.pages (octets.length + 2) (.start octets) with
  | ([_], some fault) => ofPages (some fault) []
  | (first :: second :: rest, fault) => ofPages fault ((first ++ second) :: rest)
  | (pages, fault) => ofPages fault pages

end Source
end LiveFeed.Yaml
