/-
Mappings that take fields from others.  The value of a key `<<` is a mapping, or a list of mappings,
whose fields come first, so that the mapping's own ones replace them.  What is taken from a mapping
is what it has taken itself.
-/
import LiveFeed.Yaml.Node

namespace LiveFeed.Yaml.Graph

/-- A step of merging, which changes the document. -/
abbrev Merging := EStateM Fault Graph

def fieldsOf (r : Ref) : Merging (List (Ref × Ref)) := return (← get).fields r

/-- Whether fields are to be taken from the value of a key. -/
def isMerge (g : Graph) (key : Ref) : Bool := g.tag key == .merge

/-- Takes the keys `=` among keys for texts. -/
def settle (keys : List Ref) : Merging Unit :=
  modify fun g => keys.foldl (fun g key => if g.tag key == .default then g.retag key .str else g) g

mutual

/-- Gives a mapping all the fields that it takes from others.  Each key `<<` is worked off once and
takes three units of fuel. -/
def flatten : Nat → Ref → Merging Unit
  | 0, _ => return
  | fuel + 1, r => do
      let taken ← takenFrom fuel r 0
      if !taken.isEmpty then
        modify fun g => g.fill r (.mapping (taken ++ g.fields r))

/-- Works off the keys `<<` among the fields of a mapping after the first `passed` ones, and returns
the fields that are taken. -/
def takenFrom : Nat → Ref → Nat → Merging (List (Ref × Ref))
  | 0, _, _ => return []
  | fuel + 1, r, passed => do
      let g ← get
      let fields := g.fields r
      let before := (fields.drop passed).takeWhile (!g.isMerge ·.1)
      settle (before.map (·.1))
      let place := passed + before.length
      match fields[place]? with
      | none => return []
      | some (_, value) =>
          modify fun g => g.fill r (.mapping (fields.eraseIdx place))
          let taken ← valueFields fuel value
          return taken ++ (← takenFrom fuel r place)

/-- The fields that are taken from a value; of several mappings those of the last one come first. -/
def valueFields : Nat → Ref → Merging (List (Ref × Ref))
  | 0, _ => return []
  | fuel + 1, value => do
      match ((← get).node value).content with
      | .mapping _ =>
          flatten fuel value
          fieldsOf value
      | .sequence items =>
          let parts ← items.mapM fun item => do
            if !(← get).isMapping item then throw .malformed
            flatten fuel item
            fieldsOf item
          return parts.reverse.flatten
      | .scalar _ => throw .malformed

end
end LiveFeed.Yaml.Graph
