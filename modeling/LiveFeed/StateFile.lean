/-
Snapshots kept in files.  A new snapshot is written beside the old one and then takes its place, so
that at every moment the file holds one snapshot completely.
-/
import LiveFeed.FileTree
import LiveFeed.Json.Reader
import LiveFeed.Json.Writer
import LiveFeed.Request.Handling

namespace LiveFeed.StateFile

variable [Limits]

/-- Why a state file is not read. -/
inductive ReadFault where
  | file (fault : FileTree.Fault)
  | encoding (fault : Utf8.Fault)
  | json (fault : Json.Fault)
deriving Repr, DecidableEq

def ReadFault.message : ReadFault → String
  | .file fault => fault.message
  | .encoding fault => fault.message
  | .json fault => fault.message

/-- Reads the value in a file, null when there is none yet. -/
def read (tree : FileTree) (path : Text) : Except ReadFault Value := do
  let path := Path.ofText path
  match ← (tree.node? path).mapError .file with
  | none => return .null
  | some _ =>
      let content ← (tree.readFile path).mapError .file
      let text ← (FileTree.textOf content).mapError .encoding
      (Json.read text).mapError .json

/-- Why a state file is not written. -/
inductive WriteFault where
  | file (fault : FileTree.Fault)
  | noName (path : Text)
  /-- The path holds something that no name can hold. -/
  | invalidPath (fault : Path.Fault)
  /-- The value has no JSON text. -/
  | unwritable (problem : Json.Unwritable)
deriving Repr, DecidableEq

def WriteFault.message : WriteFault → String
  | .file fault => fault.message
  | .noName path => "PosixPath(" ++ Quoted.text path ++ ") has an empty name"
  | .invalidPath fault => fault.message
  | .unwritable problem => problem.message

/-- The path of the file that is written first. -/
def temporary (path : Path) : Path := path.withName (path.name ++ ".tmp")

/-- Writes a value to a file.  When this fails half-way, what has been written stays in the
temporary file. -/
def write (path : Text) (v : Value) : EStateM WriteFault FileTree Unit := fun tree =>
  let path := Path.ofText path
  if path.name.isEmpty then .error (.noName path.text) tree
  else match (temporary path).fault? with
    | some fault => .error (.invalidPath fault) tree
    | none =>
        match tree.writable (temporary path) with
        | .error fault => .error (.file fault) tree
        | .ok place =>
            let written := Json.write v
            let tree := tree.put place (.file (Utf8.encode (String.ofList written.chars)))
            match written.stopped with
            | some problem => .error (.unwritable problem) tree
            | none =>
                match tree.rename (temporary path) path with
                | .error fault => .error (.file fault) tree
                | .ok tree => .ok () tree

/-- The line that reports a failed save. -/
def failureLine (path : Text) (fault : FileTree.Fault) : Text :=
  "Could not save state to " ++ path ++ ": " ++ fault.message

/-- Saves the snapshot of a feed.  A refusal by the file system is counted and gives the line that
reports it; every other fault is passed on. -/
def persist (path : Text) (feed : Feed) :
    EStateM WriteFault (Metrics × FileTree) (Option Text) := fun (metrics, tree) =>
  match write path feed.snapshot tree with
  | .ok () tree => .ok none (metrics, tree)
  | .error (.file fault) tree => .ok (some (failureLine path fault)) (metrics.countError, tree)
  | .error fault tree => .error fault (metrics, tree)

end LiveFeed.StateFile
