/-
The configuration of a feed: who may write, how long entries live, and the topics that requests and
events travel on.
-/
import LiveFeed.FileTree
import LiveFeed.Yaml.Document

namespace LiveFeed

/-- The configuration of a feed. -/
structure Config where
  authority : Text
  /-- The lifetime of entries in milliseconds. -/
  lifetime : Int
  requestsTopic : Text
  eventsTopic : Text
deriving Repr, DecidableEq

namespace Config

/-- What keeps a document from being a configuration. -/
inductive Problem where
  | notMapping
  | missing (field : String)
  | badAuthority
  | badLifetime
  | badTopics
  /-- Topics that there are not, in the order of their names. -/
  | unknownTopics (names : List Text)
  /-- Topics that there are not, one of them a whole number that is too long to be written. -/
  | unwrittenTopics
  | badTopic (name : Text)
deriving Repr, DecidableEq

def Problem.text : Problem → Text
  | .notMapping => "expected a mapping at the top level"
  | .missing field => "missing required field '" ++ field ++ "'"
  | .badAuthority => "'authority' must be a non-empty string"
  | .badLifetime => "'lifetime_ms' must be a positive integer"
  | .badTopics => "'topics' must be a mapping"
  | .unknownTopics names => "unknown topics " ++ (Value.list (names.map .str)).quoted
  | .unwrittenTopics => Digits.unwritten
  | .badTopic name => "topic '" ++ name ++ "' must be a non-empty string"

/-- The wording of a problem in a file of the given name. -/
def Problem.message (file : Text) : Problem → Text
  | .unwrittenTopics => Problem.unwrittenTopics.text
  | problem => file ++ ": " ++ problem.text

/-- The topics that a configuration may name, with the names they have otherwise. -/
def defaultTopics : List (Text × Text) :=
  [("requests", "oracle-requests"), ("events", "oracle-events")]

def require (fields : List (Yaml.Datum × Yaml.Datum)) (name : String) :
    Except Problem Yaml.Datum :=
  match Yaml.Datum.field? fields name with
  | some value => .ok value
  | none => .error (.missing name)

def nonEmpty (problem : Problem) : Yaml.Datum → Except Problem Text
  | .str text => if text.isEmpty then .error problem else .ok text
  | _ => .error problem

/-- A whole number above zero; truth values do not count as numbers. -/
def positive : Yaml.Datum → Except Problem Int
  | .int n => if 0 < n then .ok n else .error .badLifetime
  | _ => .error .badLifetime

/-- The fields of a value, none when it counts as nothing; the given problem if it is no mapping. -/
def fieldsOr (problem : Problem) (document : Yaml.Document) (value : Yaml.Datum) :
    Except Problem (List (Yaml.Datum × Yaml.Datum)) :=
  if document.isBlank value then .ok []
  else match document.fields? value with
    | some fields => .ok fields
    | none => .error problem

def isTopic (key : Yaml.Datum) : Bool :=
  defaultTopics.any fun topic => Yaml.Datum.sameKey (.str topic.1) key

/-- Refuses keys that are no topics. -/
def checkNames (fields : List (Yaml.Datum × Yaml.Datum)) : Except Problem Unit :=
  let unknown := (fields.map (·.1)).filter fun key => !(isTopic key)
  if unknown.isEmpty then .ok ()
  else match unknown.mapM Yaml.Datum.keyText? with
    | some names => .error (.unknownTopics (names.mergeSort fun a b => (compare a b).isLE))
    | none => .error .unwrittenTopics

/-- The names given to topics, in order.  Keys that are no texts name no topic. -/
def topicNames : List (Yaml.Datum × Yaml.Datum) → Except Problem (List (Text × Text))
  | [] => .ok []
  | (.str key, value) :: rest => do
      let name ← nonEmpty (.badTopic key) value
      return (key, name) :: (← topicNames rest)
  | _ :: rest => topicNames rest

/-- The name of a topic: the one given to it, else the one it has otherwise. -/
def topic (given : List (Text × Text)) (key : Text) : Text :=
  (((given ++ defaultTopics).find? (·.1 = key)).map (·.2)).getD ""

/-- The configuration that a document holds; a document that counts as nothing holds no fields. -/
def ofDocument (document : Yaml.Document) : Except Problem Config := do
  let fields ← fieldsOr .notMapping document document.root
  let authority ← require fields "authority"
  let lifetime ← require fields "lifetime_ms"
  let authority ← nonEmpty .badAuthority authority
  let lifetime ← positive lifetime
  let topics ← fieldsOr .badTopics document ((Yaml.Datum.field? fields "topics").getD .null)
  checkNames topics
  let given ← topicNames topics
  return ⟨authority, lifetime, topic given "requests", topic given "events"⟩

/-- Why no configuration is loaded. -/
inductive Fault where
  | noPath
  | notFound (path : Text)
  | file (fault : FileTree.Fault)
  | yaml (fault : Yaml.Fault)
  /-- The document in a file of the given name is no configuration. -/
  | problem (file : Text) (what : Problem)
deriving Repr, DecidableEq

def Fault.message? : Fault → Option Text
  | .noPath => some "expected str, bytes or os.PathLike object, not list"
  | .notFound path => some ("Config file not found: " ++ path)
  | .file fault => some fault.message
  | .yaml fault => fault.message?.map Text.ofString
  | .problem name what => some (what.message name)

/-- Loads the configuration in a file. -/
def load (tree : FileTree) (path : Option Text) : Except Fault Config := do
  match path with
  | none => throw .noPath
  | some path =>
      let path := Path.ofText path
      match ← (tree.node? path).mapError .file with
      | some (.file content) =>
          let document ← (Yaml.read content).mapError .yaml
          (ofDocument document).mapError (.problem path.name)
      | _ => throw (.notFound path.text)

end Config
end LiveFeed
