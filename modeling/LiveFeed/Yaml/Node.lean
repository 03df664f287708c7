/-
The nodes of a document.  A node is known by its number, so that an alias and the node it names are
the same one, and a collection can stand inside itself.
-/
import LiveFeed.Yaml.Tag
import LiveFeed.Yaml.Token

namespace LiveFeed.Yaml

/-- The number of a node in its document. -/
abbrev Ref := Nat

/-- What a node holds: a text, items, or fields with their keys. -/
inductive Content where
  | scalar (text : Text)
  | sequence (items : List Ref)
  | mapping (fields : List (Ref × Ref))
deriving Repr, DecidableEq

/-- A node with the type that it is tagged with. -/
structure Node where
  tag : Tag
  content : Content
deriving Repr, DecidableEq

/-- The nodes of a document by their numbers. -/
structure Graph where
  nodes : Array Node

namespace Graph

/-- A document without nodes. -/
def empty : Graph := ⟨#[]⟩

/-- The number of nodes. -/
def size (g : Graph) : Nat := g.nodes.size

/-- The same document with a node more, and the number of that node. -/
def add (g : Graph) (node : Node) : Ref × Graph := (g.nodes.size, ⟨g.nodes.push node⟩)

/-- A node; a scalar without characters at a number that no node has. -/
def node (g : Graph) (r : Ref) : Node := (g.nodes[r]?).getD ⟨.null, .scalar ""⟩

/-- The type of a node. -/
def tag (g : Graph) (r : Ref) : Tag := (g.node r).tag

/-- The fields of a mapping; other nodes have none. -/
def fields (g : Graph) (r : Ref) : List (Ref × Ref) :=
  match (g.node r).content with
  | .mapping fields => fields
  | _ => []

/-- The number of fields in all mappings. -/
def fieldCount (g : Graph) : Nat :=
  g.nodes.foldl (fun count node => match node.content with
    | .mapping fields => count + fields.length
    | _ => count) 0

def isMapping (g : Graph) (r : Ref) : Bool :=
  match (g.node r).content with
  | .mapping _ => true
  | _ => false

/-- The same document with another content of a node. -/
def fill (g : Graph) (r : Ref) (content : Content) : Graph :=
  ⟨g.nodes.modify r fun node => { node with content }⟩

/-- The same document with another type of a node. -/
def retag (g : Graph) (r : Ref) (tag : Tag) : Graph :=
  ⟨g.nodes.modify r fun node => { node with tag }⟩

/-- The text of a scalar.  In a mapping that of the value of the key `=` is taken, which is looked
for in the same way.  A search that takes more steps than there are nodes never ends. -/
def scalarText (g : Graph) : Nat → Ref → Except Fault Text
  | 0, _ => .error .tooDeep
  | fuel + 1, r =>
      match (g.node r).content with
      | .scalar text => .ok text
      | .sequence _ => .error .malformed
      | .mapping fields =>
          match fields.find? fun field => g.tag field.1 == .default with
          | some field => scalarText g fuel field.2
          | none => .error .malformed

end Graph
end LiveFeed.Yaml
