/-
The nodes that tokens make up.  Tokens are read by recursive descent; an alias is the node that
carries its anchor.  A collection gets its number and its anchor at its beginning, so that an alias
inside it can name it.
-/
import LiveFeed.Yaml.Lexer
import LiveFeed.Yaml.Node

namespace LiveFeed.Yaml

/-- The reading of tokens. -/
structure Descent where
  rest : List Token
  /-- Why there are no more tokens than these. -/
  stopped : Fault
  /-- What the handles of tags stand for. -/
  handles : List (String × String)
  anchors : List (String × Ref)
  graph : Graph
  /-- How many collections are open. -/
  depth : Nat

namespace Descent

abbrev Step := EStateM Fault Descent

def peek : Step Token := do
  match (← get).rest with
  | token :: _ => return token
  | [] => throw (← get).stopped

/-- Passes the next token. -/
def pass : Step Unit := modify fun d => { d with rest := d.rest.drop 1 }

/-- How many collections may stand in each other. -/
def depthLimit : Nat := 488

/-- Breaks off. -/
def fail {α : Type} : Step α := throw .malformed

/-- Passes the next token, which must be the given one. -/
def expect (token : Token) : Step Unit := do
  if (← peek) == token then pass else fail

/-- Whether the next token is one of the given ones. -/
def sees (tokens : List Token) : Step Bool := do
  return tokens.contains (← peek)

/-- An anchor and a tag in either order, if they are there. -/
structure Properties where
  anchor : Option String
  tag : Option (Option String × String)

def anchor? : Step (Option String) := do
  match ← peek with
  | .anchor name =>
      pass
      return some name
  | _ => return none

def tag? : Step (Option (Option String × String)) := do
  match ← peek with
  | .tag handle suffix =>
      pass
      return some (handle, suffix)
  | _ => return none

/-- Reads the properties of a node. -/
def properties : Step Properties := do
  match ← anchor? with
  | some name => return ⟨some name, ← tag?⟩
  | none =>
      match ← tag? with
      | some tag => return ⟨← anchor?, some tag⟩
      | none => return ⟨none, none⟩

/-- The name of the type that a tag stands for; none for the tag that leaves the type open. -/
def typeName? : Option (Option String × String) → Step (Option String)
  | none => return none
  | some (none, suffix) => return if suffix == "!" then none else some suffix
  | some (some handle, suffix) => do
      match (← get).handles.find? (·.1 == handle) with
      | none => fail
      | some (_, meaning) =>
          return if meaning ++ suffix == "!" then none else some (meaning ++ suffix)

/-- Adds a node, with an anchor that must be new. -/
def add (anchor : Option String) (node : Node) : Step Ref := do
  let d ← get
  let (r, graph) := d.graph.add node
  match anchor with
  | none =>
      set { d with graph }
      return r
  | some name =>
      if d.anchors.any (·.1 == name) then fail
      else
        set { d with graph, anchors := (name, r) :: d.anchors }
        return r

/-- Adds a scalar.  If its type is open, its text decides. -/
def addScalar (anchor : Option String) (tag : Option Tag) (text : Text) : Step Ref :=
  add anchor ⟨tag.getD (Tag.ofPlain text), .scalar text⟩

/-- Adds a scalar without characters and without a tag. -/
def addEmpty : Step Ref := addScalar none none ""

/-- Adds a collection, and then what `inside` reads. -/
def addCollection (anchor : Option String) (tag : Tag) (inside : Step Content) : Step Ref := do
  if depthLimit ≤ (← get).depth then throw .tooDeep
  let r ← add anchor ⟨tag, .sequence []⟩
  modify fun d => { d with depth := d.depth + 1 }
  let content ← inside
  modify fun d => { d with depth := d.depth - 1, graph := d.graph.fill r content }
  return r

/-- The node that an alias names. -/
def named (name : String) : Step Ref := do
  match (← get).anchors.find? (·.1 == name) with
  | some (_, r) => return r
  | none => fail

def typeOf (name : Option String) (otherwise : Tag) : Tag :=
  match name with
  | some name => Tag.ofName name
  | none => otherwise

/-- The two ways of writing a node. -/
inductive Style where
  | flow
  /-- In blocks.  The items of a sequence may stand at the indent of the key that they belong to. -/
  | block (indentless : Bool)
deriving Repr, DecidableEq

mutual

def node (style : Style) : Nat → Step Ref
  | 0 => fail
  | fuel + 1 => do
      match ← peek with
      | .alias name =>
          pass
          named name
      | _ =>
          let given ← properties
          let name ← typeName? given.tag
          content style given name fuel

/-- Reads a node after its properties. -/
def content (style : Style) (given : Properties) (name : Option String) : Nat → Step Ref
  | 0 => fail
  | fuel + 1 => do
      let sequence (items : Step (List Ref)) : Step Ref :=
        addCollection given.anchor (typeOf name .seq) (.sequence <$> items)
      let mapping (fields : Step (List (Ref × Ref))) : Step Ref :=
        addCollection given.anchor (typeOf name .map) (.mapping <$> fields)
      let token ← peek
      match token, style with
      | .blockEntry, .block true => sequence (indentlessItems fuel)
      | .scalar text plain, _ =>
          pass
          let isOpen := name.isNone && (plain || given.tag.isSome)
          addScalar given.anchor (if isOpen then none else some (typeOf name .str)) text
      | .flowSequenceStart, _ =>
          pass
          sequence (flowItems true fuel)
      | .flowMappingStart, _ =>
          pass
          mapping (flowFields true fuel)
      | .blockSequenceStart, .block _ =>
          pass
          sequence (blockItems fuel)
      | .blockMappingStart, .block _ =>
          pass
          mapping (blockFields fuel)
      | _, _ =>
          if given.anchor.isSome || given.tag.isSome then
            addScalar given.anchor (name.map Tag.ofName) ""
          else fail

/-- Reads a node, or nothing before one of the given tokens. -/
def nodeUnless (ends : List Token) (style : Style) : Nat → Step Ref
  | 0 => fail
  | fuel + 1 => do
      if ← sees ends then addEmpty else node style fuel

/-- Reads the items of a block sequence, and its end. -/
def blockItems : Nat → Step (List Ref)
  | 0 => fail
  | fuel + 1 => do
      if ← sees [.blockEntry] then
        pass
        let item ← nodeUnless [.blockEntry, .blockEnd] (.block false) fuel
        return item :: (← blockItems fuel)
      else
        expect .blockEnd
        return []

/-- Reads the items of a sequence that has no indent of its own. -/
def indentlessItems : Nat → Step (List Ref)
  | 0 => fail
  | fuel + 1 => do
      if ← sees [.blockEntry] then
        pass
        let item ← nodeUnless [.blockEntry, .key, .value, .blockEnd] (.block false) fuel
        return item :: (← indentlessItems fuel)
      else return []

/-- Reads a value and the colon before it, if they are there. -/
def valueUnless (ends : List Token) (style : Style) : Nat → Step Ref
  | 0 => fail
  | fuel + 1 => do
      if ← sees [.value] then
        pass
        nodeUnless ends style fuel
      else addEmpty

/-- Reads the fields of a block mapping, and its end. -/
def blockFields : Nat → Step (List (Ref × Ref))
  | 0 => fail
  | fuel + 1 => do
      if ← sees [.key] then
        pass
        let ends : List Token := [.key, .value, .blockEnd]
        let key ← nodeUnless ends (.block true) fuel
        let value ← valueUnless ends (.block true) fuel
        return (key, value) :: (← blockFields fuel)
      else
        expect .blockEnd
        return []

/-- Reads the items of a flow sequence, and its end.  A key makes an item a mapping of one field. -/
def flowItems (first : Bool) : Nat → Step (List Ref)
  | 0 => fail
  | fuel + 1 => do
      if ← sees [.flowSequenceEnd] then
        pass
        return []
      else
        if !first then expect .flowEntry
        if ← sees [.flowSequenceEnd] then
          pass
          return []
        else
          let ends : List Token := [.flowEntry, .flowSequenceEnd]
          if ← sees [.key] then
            let item ← addCollection none .map do
              pass
              let key ← nodeUnless (.value :: ends) .flow fuel
              let value ← valueUnless ends .flow fuel
              return .mapping [(key, value)]
            return item :: (← flowItems false fuel)
          else
            let item ← node .flow fuel
            return item :: (← flowItems false fuel)

/-- Reads the fields of a flow mapping, and its end.  A node without a colon after it is a key. -/
def flowFields (first : Bool) : Nat → Step (List (Ref × Ref))
  | 0 => fail
  | fuel + 1 => do
      if ← sees [.flowMappingEnd] then
        pass
        return []
      else
        if !first then expect .flowEntry
        if ← sees [.flowMappingEnd] then
          pass
          return []
        else
          let ends : List Token := [.flowEntry, .flowMappingEnd]
          if ← sees [.key] then
            pass
            let key ← nodeUnless (.value :: ends) .flow fuel
            let value ← valueUnless ends .flow fuel
            return (key, value) :: (← flowFields false fuel)
          else
            let key ← node .flow fuel
            return (key, ← addEmpty) :: (← flowFields false fuel)

end

/-! Documents -/

/-- The handles that need no directive. -/
def defaultHandles : List (String × String) := [("!", "!"), ("!!", Tag.namespaceText)]

/-- Reads directives: at most one version, which must be the first one of the language, and no
handle twice. -/
def directives (seen : Bool) (handles : List (String × String)) :
    Nat → Step (List (String × String))
  | 0 => fail
  | fuel + 1 => do
      match ← peek with
      | .directive content =>
          pass
          match content with
          | .version major =>
              if seen || major != 1 then fail else directives true handles fuel
          | .handle name meaning =>
              if handles.any (·.1 == name) then fail
              else directives seen ((name, meaning) :: handles) fuel
          | .other => directives seen handles fuel
      | _ => return handles

def endsDocument : Token → Bool
  | .directive _ | .documentStart | .documentEnd | .streamEnd => true
  | _ => false

/-- Passes the marks of a document's end. -/
def passEnds : Nat → Step Unit
  | 0 => return
  | fuel + 1 => do
      if ← sees [.documentEnd] then
        pass
        passEnds fuel

/-- Reads the node of a document that begins with directives and a mark. -/
def marked (fuel : Nat) : Step Ref := do
  let handles ← directives false [] fuel
  modify fun d => { d with handles := handles ++ defaultHandles }
  expect .documentStart
  if endsDocument (← peek) then addEmpty else node (.block false) fuel

/-- Reads the end of a document, after which no other one may begin. -/
def documentEnd (fuel : Nat) : Step Unit := do
  passEnds fuel
  if (← peek) == .streamEnd then return
  else
    let _ ← directives false [] fuel
    fail

/-- Reads a text of one document, or of none. -/
def single (fuel : Nat) : Step (Option Ref) := do
  match ← peek with
  | .streamEnd => return none
  | .directive _ | .documentStart =>
      let root ← marked fuel
      documentEnd fuel
      return some root
  | _ =>
      let root ← node (.block false) fuel
      documentEnd fuel
      return some root

end Descent

/-- The nodes of a document and the number of the outermost one, if there is a document at all. -/
def Graph.ofSource? (source : Source) : Except Fault (Graph × Option Ref) :=
  let (tokens, stopped) := Token.ofSource source
  let start : Descent :=
    ⟨tokens, stopped.getD .malformed, Descent.defaultHandles, [], Graph.empty, 0⟩
  match Descent.single (8 * tokens.length + 8) start with
  | .ok root d => .ok (d.graph, root)
  | .error fault _ => .error fault

end LiveFeed.Yaml
