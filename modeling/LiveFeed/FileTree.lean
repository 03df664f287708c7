/-
A tree of files around the current directory, and paths into it.  Its nodes are files and
directories.  There are no links: under a name stands what was put there, and nothing else.
-/
import LiveFeed.Text.Utf8

namespace LiveFeed

/-- A path as a list of names; empty names and single dots do not count. -/
structure Path where
  /-- The slashes in front: none for a path from the current directory, else one, or exactly two. -/
  root : Text
  names : List Text
deriving Repr, DecidableEq

namespace Path

/-- The name of the directory that a directory is in. -/
def parent : Text := ".."

/-- Splits a path at its slashes. -/
def ofText (text : Text) : Path where
  root := match (text.points.takeWhile (· == .char '/')).length with
    | 0 => ""
    | 2 => "//"
    | _ => "/"
  names := (text.split '/').filter fun name => !name.isEmpty && name != Text.ofString "."

/-- The text of a path; the current directory is a dot. -/
def text (path : Path) : Text :=
  let text := path.root ++ Text.join "/" path.names
  if text.isEmpty then "." else text

/-- The last name, empty for the current directory. -/
def name (path : Path) : Text := path.names.getLast?.getD ""

/-- The same path with another last name. -/
def withName (path : Path) (name : Text) : Path :=
  { path with names := path.names.dropLast ++ [name] }

/-- Whether a half stands for an octet of a name that is not UTF-8. -/
def isOctet (p : CodePoint) : Bool := 0xDC80 ≤ p.toNat && p.toNat ≤ 0xDCFF

def octets (p : CodePoint) : Bytes :=
  match p with
  | .char c => String.utf8EncodeChar c
  | p => [UInt8.ofNat (p.toNat % 256)]

/-- The number of octets of a text in the file system. -/
def size (t : Text) : Nat := (t.points.flatMap octets).length

/-- Why a path cannot be given to the file system at all. -/
inductive Fault where
  /-- A name holds halves that stand for no octets. -/
  | encoding (halves : Utf8.Unpaired)
  /-- A name holds the character that ends names. -/
  | embeddedNull
deriving Repr, DecidableEq

def Fault.message : Fault → String
  | .encoding halves => halves.message
  | .embeddedNull => "embedded null byte"

/-- What keeps a path from being given to the file system, if something does. -/
def fault? (path : Path) : Option Fault :=
  match Utf8.unpaired? (fun p => p.isHalf && !isOctet p) path.text with
  | some halves => some (.encoding halves)
  | none => if path.text.points.contains (.char '\x00') then some .embeddedNull else none

end Path

/-- What stands under a name. -/
inductive FileTree.Node where
  | file (content : Bytes)
  | directory
deriving Repr, DecidableEq

/-- The files and directories that are known, by the names that lead to them: from the current
directory, or from the root if the first of them is a slash.  A place outside the current directory
begins with as many parents as lie between. -/
structure FileTree where
  nodes : List (List Text × FileTree.Node)
deriving Repr, DecidableEq

namespace FileTree

/-- Why the file system refuses an operation.  A path is given as it was asked for. -/
inductive Fault where
  | notFound (path : Text)
  | notDirectory (path : Text)
  | isDirectory (path : Text)
  /-- A name on the path, or the whole path, has too many octets. -/
  | nameTooLong (path : Text)
  /-- A file cannot take the place of a directory. -/
  | replacesDirectory (source target : Text)
  /-- A file cannot take the place of the directory that a path goes back to in its last step. -/
  | busy (source target : Text)
deriving Repr, DecidableEq

def Fault.message : Fault → String
  | .notFound path => "[Errno 2] No such file or directory: " ++ Quoted.text path
  | .notDirectory path => "[Errno 20] Not a directory: " ++ Quoted.text path
  | .isDirectory path => "[Errno 21] Is a directory: " ++ Quoted.text path
  | .nameTooLong path => "[Errno 36] File name too long: " ++ Quoted.text path
  | .replacesDirectory source target =>
      "[Errno 21] Is a directory: " ++ Quoted.text source ++ " -> " ++ Quoted.text target
  | .busy source target =>
      "[Errno 16] Device or resource busy: " ++ Quoted.text source ++ " -> " ++ Quoted.text target

/-- A tree without files. -/
def empty : FileTree := ⟨[]⟩

def root : List Text := ["/"]

/-- The directories that every system has below its root. -/
def systemDirectories : List Text :=
  ["bin", "boot", "dev", "etc", "home", "lib", "media", "mnt", "opt", "proc", "root", "run", "sbin",
    "srv", "sys", "tmp", "usr", "var"]

/-- Whether a directory stands at a place in every tree: the current directory, those it is in, the
root and the directories of the system. -/
def isStanding (place : List Text) : Bool :=
  place.all (· == Path.parent) || place == root ||
    systemDirectories.any fun name => place == root ++ [name]

/-- What stands at a place. -/
def nodeAt? (tree : FileTree) (place : List Text) : Option Node :=
  if isStanding place then some .directory
  else (tree.nodes.find? (·.1 = place)).map (·.2)

/-- Puts a file or directory in its place, where nothing or a file stood. -/
def put (tree : FileTree) (place : List Text) (node : Node) : FileTree :=
  if tree.nodes.any (·.1 = place) then
    ⟨tree.nodes.map fun entry => if entry.1 = place then (place, node) else entry⟩
  else ⟨tree.nodes ++ [(place, node)]⟩

/-- Takes away what stands at a place. -/
def remove (tree : FileTree) (place : List Text) : FileTree :=
  ⟨tree.nodes.filter (·.1 ≠ place)⟩

/-- The place one step from a directory.  The root is the directory that it is in. -/
def next (place : List Text) (name : Text) : List Text :=
  if name != Path.parent then place ++ [name]
  else if place == root then root
  else if place.all (· == Path.parent) then place ++ [Path.parent]
  else place.dropLast

/-- The most octets of a name. -/
def nameLimit : Nat := 255

/-- The most octets of a path. -/
def pathLimit : Nat := 4095

/-- Goes from a directory along the names of a path.  All but the last name must lead through
directories; where the last one leads, nothing need stand. -/
def walk (tree : FileTree) (path : Text) : List Text → List Text → Except Fault (List Text)
  | place, [] => .ok place
  | place, name :: rest =>
      if nameLimit < Path.size name then .error (.nameTooLong path)
      else if rest.isEmpty then .ok (next place name)
      else match tree.nodeAt? (next place name) with
        | some .directory => walk tree path (next place name) rest
        | some (.file _) => .error (.notDirectory path)
        | none => .error (.notFound path)

def place (tree : FileTree) (path : Path) : Except Fault (List Text) :=
  if pathLimit < Path.size path.text then .error (.nameTooLong path.text)
  else tree.walk path.text (if path.root.isEmpty then [] else root) path.names

/-- What stands where a path leads.  A path that cannot be walked leads nowhere, but for one that is
too long, which is a fault. -/
def node? (tree : FileTree) (path : Path) : Except Fault (Option Node) :=
  if path.fault?.isSome then .ok none
  else match tree.place path with
    | .ok place => .ok (tree.nodeAt? place)
    | .error (.nameTooLong path) => .error (.nameTooLong path)
    | .error _ => .ok none

def readFile (tree : FileTree) (path : Path) : Except Fault Bytes := do
  match tree.nodeAt? (← tree.place path) with
  | some (.file content) => return content
  | some .directory => throw (.isDirectory path.text)
  | none => throw (.notFound path.text)

/-- Whether a file can be written at a path, and then its place. -/
def writable (tree : FileTree) (path : Path) : Except Fault (List Text) := do
  let place ← tree.place path
  match tree.nodeAt? place with
  | some .directory => throw (.isDirectory path.text)
  | _ => return place

/-- Moves a file over another one, or to a place where nothing stands. -/
def rename (tree : FileTree) (source target : Path) : Except Fault FileTree := do
  let fromPlace ← tree.place source
  let toPlace ← tree.place target
  if target.name = Path.parent then throw (.busy source.text target.text)
  match tree.nodeAt? fromPlace, tree.nodeAt? toPlace with
  | some (.file _), some .directory => throw (.replacesDirectory source.text target.text)
  | some (.file content), _ => return (tree.remove fromPlace).put toPlace (.file content)
  | _, _ => throw (.notFound source.text)

/-- Puts a file or directory in its place, after the directories above it. -/
def build (tree : FileTree) (path : Path) (node : Node) : FileTree :=
  let above := (List.range (path.names.length - 1)).map fun n => path.names.take (n + 1)
  let tree := above.foldl
    (fun tree place => if tree.nodeAt? place = none then tree.put place .directory else tree) tree
  if path.names.isEmpty then tree else tree.put path.names node

/-- The files that are new or have another content than before. -/
def changedSince (tree before : FileTree) : List (List Text × Bytes) :=
  tree.nodes.filterMap fun (place, node) =>
    match node with
    | .directory => none
    | .file content =>
        if before.nodeAt? place = some (.file content) then none else some (place, content)

end FileTree

def FileTree.textOf (content : Bytes) : Except Utf8.Fault String := do
  return String.ofList (LineEnds.unify (← Utf8.decode content).toList)

end LiveFeed
