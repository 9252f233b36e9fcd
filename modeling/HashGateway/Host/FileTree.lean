import HashGateway.Host.Fault
import HashGateway.Host.Path
import HashGateway.Ordered
import HashGateway.Text.Utf8

/-!
# Trees of files

Folders and files below one root, without links, in which everything may be read and
written. A path is walked part by part from the root or from the working folder.

## Main definitions

* `Node` — a file with its bytes, or a folder with its entries
* `FileTree` — a root, a working folder, and the limits on names
* `FileTree.resolve` — where a path leads
* `FileTree.read` — the bytes of a file
* `FileTree.openForWriting` — the place of a file that is made if it does not exist
* `FileTree.checkAppend` — whether a file could be opened for writing, without making it
-/

namespace HashGateway.Host

/-- A file with its bytes, or a folder with its entries. -/
inductive Node
  | file (content : Bytes)
  | folder (entries : List (String × Node))

/-- The names on the way from the root to a place. -/
abbrev Place := List String

namespace Node

/-- The node at a place below a node. -/
def at? : Node → Place → Option Node
  | node, [] => some node
  | .folder entries, name :: rest =>
    match Ordered.find? name entries with
    | some child => child.at? rest
    | none => none
  | .file _, _ :: _ => none

/-- A node with another one put at a place below it whose folder exists. -/
def put : Node → Place → (new : Node) → Node
  | _, [], new => new
  | .folder entries, name :: rest, new =>
    match Ordered.find? name entries with
    | some child => .folder (Ordered.insert name (child.put rest new) entries)
    | none => if rest.isEmpty then .folder (Ordered.insert name new entries) else .folder entries
  | .file content, _ :: _, _ => .file content

/-- The names of the entries of a folder. -/
def names : Node → List String
  | .folder entries => entries.map Prod.fst
  | .file _ => []

end Node

/-- How long names and paths may be. -/
structure Limits where
  /-- The largest number of bytes of a name. -/
  name : Nat
  /-- The number of bytes that a path has to stay below. -/
  path : Nat
  deriving DecidableEq, Repr

/-- The limits of most systems. -/
def Limits.usual : Limits := ⟨255, 4096⟩

/-- A tree of files with a working folder. -/
structure FileTree where
  root : Node
  workingFolder : Place
  /-- How long names and paths may be, if that is limited. -/
  limits : Option Limits

namespace FileTree

/-- Whether a name is longer than the limit. -/
def nameTooLong (tree : FileTree) (name : String) : Bool :=
  tree.limits.any fun limits => limits.name < (Utf8.bytes name).length

/-- Whether a path is longer than the limit. -/
def pathTooLong (tree : FileTree) (text : String) : Bool :=
  tree.limits.any fun limits => limits.path ≤ (Utf8.bytes text).length

/-- The node at a place. -/
def node? (tree : FileTree) (place : Place) : Option Node := tree.root.at? place

/-- Where a part of a path leads from a place. -/
def step (tree : FileTree) (place : Place) (part : String) : Except Fault Place :=
  match tree.node? place with
  | some (.folder entries) =>
    if Path.stays part then .ok place
    else if part = ".." then .ok place.dropLast
    else if tree.nameTooLong part then .error .nameTooLong
    else if (Ordered.find? part entries).isSome then .ok (place ++ [part])
    else .error .notFound
  | some (.file _) => .error .notDirectory
  | none => .error .notFound

/-- Where the parts of a path lead from a place. -/
def walk (tree : FileTree) : Place → List String → Except Fault Place
  | place, [] => .ok place
  | place, part :: parts =>
    match tree.step place part with
    | .ok place => walk tree place parts
    | .error fault => .error fault

/-- The place that a path begins at. -/
def start (tree : FileTree) (path : Path) : Place :=
  if path.absolute then [] else tree.workingFolder

/-- Refuses texts that are no paths. -/
def checkText (tree : FileTree) (text : String) : Except Fault Unit :=
  if text.toList.contains '\x00' then .error .nulInName
  else if text.isEmpty then .error .notFound
  else if tree.pathTooLong text then .error .nameTooLong
  else .ok ()

/-- Where a path leads. -/
def resolve (tree : FileTree) (text : String) : Except Fault Place := do
  tree.checkText text
  let path := Path.ofText text
  tree.walk (tree.start path) path.parts

/-- The bytes of a file. -/
def read (tree : FileTree) (text : String) : Except Fault Bytes := do
  match tree.node? (← tree.resolve text) with
  | some (.file content) => return content
  | some (.folder _) => throw .isDirectory
  | none => throw .notFound

/-- The text of a file. -/
def readText (tree : FileTree) (text : String) : Except Fault (List Char) := do
  match Utf8.decode (← tree.read text) with
  | .ok cs => return cs
  | .error _ => throw .notText

/-- The parts without the empty ones at the end. -/
def withoutSlashes (parts : List String) : List String :=
  (parts.reverse.dropWhile (· == "")).reverse

/-- The place of a file that is opened for writing and made if it does not exist. The last part
of the path has to be a name that no folder has. -/
def openForWriting (tree : FileTree) (text : String) : Except Fault Place := do
  tree.checkText text
  let path := Path.ofText text
  let parts := withoutSlashes path.parts
  let folder ← tree.walk (tree.start path) parts.dropLast
  match tree.node? folder with
  | none => throw .notFound
  | some (.file _) => throw .notDirectory
  | some (.folder entries) =>
    -- A slash at the end and the dots lead to folders, which cannot be written.
    let name := parts.getLastD ""
    if parts.length < path.parts.length || Path.stays name || name = ".." then throw .isDirectory
    else if tree.nameTooLong name then throw .nameTooLong
    else
      match Ordered.find? name entries with
      | some (.folder _) => throw .isDirectory
      | _ => return folder ++ [name]

/-- The tree after a file has been made at a place, if there was none. -/
def touch (tree : FileTree) (place : Place) : FileTree :=
  match tree.node? place with
  | some _ => tree
  | none => { tree with root := tree.root.put place (.file []) }

/-- The tree with new bytes of the file at a place. -/
def overwrite (tree : FileTree) (place : Place) (content : Bytes) : FileTree :=
  { tree with root := tree.root.put place (.file content) }

/-- Whether a file could be opened for appending, without making it: an existing one has to be
no folder, and for another one the folder has to exist that its path names. -/
def checkAppend (tree : FileTree) (text : String) : Except Fault Unit :=
  match tree.resolve text with
  | .ok place =>
    match tree.node? place with
    | some (.folder _) => .error .isDirectory
    | _ => .ok ()
  -- What does not exist can be made when its folder exists.
  | .error _ => do
    match tree.node? (← tree.resolve (Path.ofText text).parent.text) with
    | some (.folder _) => return ()
    | some (.file _) => throw .parentNotFolder
    | none => throw .notFound

/-- The names in the working folder. -/
def listing (tree : FileTree) : List String :=
  match tree.node? tree.workingFolder with
  | some node => node.names
  | none => []

end FileTree

end HashGateway.Host
