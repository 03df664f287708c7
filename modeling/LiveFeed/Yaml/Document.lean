/-
Nodes read as values.

Each node is read once, and collections are read level by level: everything that stands directly in
a collection comes before whatever stands deeper, also when it is written later.  So of several
faults the one on the outermost level is found, and of those on one level the first one.
-/
import LiveFeed.Yaml.Descent
import LiveFeed.Yaml.Merge
import LiveFeed.Yaml.Scalar

namespace LiveFeed.Yaml

/-- The value of a document and the collections in it. -/
structure Document where
  root : Datum
  collections : List (Ref × Collection)
deriving Repr

namespace Document

/-- A document in the middle of being read. -/
structure Reading where
  graph : Graph
  /-- How much fuel there is for merging. -/
  mergeFuel : Nat
  /-- The values of the nodes that have been met. -/
  known : Array (Option Datum)
  /-- The collections that have been met and not been read, the last one first. -/
  waiting : List Ref
  collections : List (Ref × Collection)

namespace Reading

abbrev Step := EStateM Fault Reading

/-- A document of which nothing has been read. -/
def start (graph : Graph) : Reading :=
  ⟨graph, 3 * graph.fieldCount + 3, Array.replicate graph.size none, [], []⟩

/-- The value of a node that is met for the first time.  A collection waits until it is read. -/
def meet (r : Ref) : Step Datum := do
  let s ← get
  match s.graph.tag r with
  | .seq | .map | .set | .orderedMap | .pairs =>
      set { s with waiting := r :: s.waiting }
      return .collection r
  | .merge | .default | .unknown => throw .malformed
  | tag =>
      match s.graph.scalarText (s.graph.size + 1) r with
      | .error fault => throw fault
      | .ok text =>
          if tag == .timestamp && s.graph.isMapping r then throw .timestampMapping
          else match Scalar.read r tag text with
            | .ok value => return value
            | .error fault => throw fault

def value (r : Ref) : Step Datum := do
  match ((← get).known[r]?).join with
  | some value => return value
  | none =>
      let value ← meet r
      modify fun s => { s with known := s.known.setIfInBounds r (some value) }
      return value

/-- A key, which must not be a collection. -/
def key (r : Ref) : Step Datum := do
  let key ← value r
  if key.isKey then return key else throw .malformed

/-- The fields of a mapping after merging. -/
def fields (r : Ref) : Step (List (Datum × Datum)) := do
  let s ← get
  if !s.graph.isMapping r then throw .malformed
  match Graph.flatten s.mergeFuel r s.graph with
  | .error fault _ => throw fault
  | .ok _ graph =>
      set { s with graph }
      let read ← (graph.fields r).mapM fun field => do
        let name ← key field.1
        return (name, ← value field.2)
      return read.foldl (fun fields field => Datum.put fields field.1 field.2) []

def items (r : Ref) : Step (List Datum) := do
  match ((← get).graph.node r).content with
  | .sequence items => items.mapM value
  | _ => throw .malformed

/-- The pairs in a sequence of mappings with one field each. -/
def pairs (r : Ref) : Step (List (Datum × Datum)) := do
  match ((← get).graph.node r).content with
  | .sequence items =>
      items.mapM fun item => do
        match ((← get).graph.node item).content with
        | .mapping [(name, field)] => return (← value name, ← value field)
        | _ => throw .malformed
  | _ => throw .malformed

/-- What a collection of a type holds. -/
def content (r : Ref) : Tag → Step Collection
  | .map => .mapping <$> fields r
  | .set => return .set ((← fields r).map (·.1))
  | .orderedMap | .pairs => .pairs <$> pairs r
  | _ => .list <$> items r

def collection (r : Ref) : Step Unit := do
  let content ← content r ((← get).graph.tag r)
  modify fun s => { s with collections := (r, content) :: s.collections }

/-- Reads the collections that wait, then those met in them, and so on. -/
def levels : Nat → Step Unit
  | 0 => return
  | fuel + 1 => do
      let s ← get
      if !s.waiting.isEmpty then
        set { s with waiting := [] }
        s.waiting.reverse.forM collection
        levels fuel

/-- Reads a document. -/
def all (root : Ref) : Step Datum := do
  let root ← value root
  levels ((← get).graph.size + 1)
  return root

end Reading

/-- What a collection holds. -/
def collection? (d : Document) (r : Ref) : Option Collection :=
  (d.collections.find? (·.1 == r)).map (·.2)

/-- The fields of a value that is a mapping. -/
def fields? (d : Document) : Datum → Option (List (Datum × Datum))
  | .collection r =>
      match d.collection? r with
      | some (.mapping fields) => some fields
      | _ => none
  | _ => none

/-- Whether a value counts as nothing: null, false, zero, and whatever is empty. -/
def isBlank (d : Document) : Datum → Bool
  | .null => true
  | .bool b => !b
  | .int n => n == 0
  | .float x => x == 0
  | .str t => t.isEmpty
  | .binary octets => octets.isEmpty
  | .notANumber _ | .date _ | .moment _ => false
  | .collection r => (d.collection? r).any Collection.isEmpty

end Document

/-- The document in a file; without one, null. -/
def read (octets : Bytes) : Except Fault Document := do
  match ← Graph.ofSource? (Source.ofBytes octets) with
  | (_, none) => return ⟨.null, []⟩
  | (graph, some root) =>
      match Document.Reading.all root (Document.Reading.start graph) with
      | .ok root s => return ⟨root, s.collections⟩
      | .error fault _ => throw fault

end LiveFeed.Yaml
