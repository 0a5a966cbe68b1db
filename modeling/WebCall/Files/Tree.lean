import WebCall.Text.Ascii
import WebCall.Text.Utf8

/-!
# File trees

A tree of directories and files, and what the system does with a path: looking at it, making
directories, reading and writing files. A path is a text, with slashes between the names of
directories. It is resolved name by name; every name before the last must be that of a directory,
`.` stands for the directory itself and `..` for the one above it.

What an operation returns with the tree is the state after it, also when it failed.

## Main definitions

* `FileTree.resolve`: the place that a path names.
* `FileTree.makeDirectory`, `FileTree.makeAll`: making one directory, or all that are missing.
* `FileTree.read`, `FileTree.write`: the bytes of a file.
-/
namespace WebCall

namespace Path

/-- A path that starts at the top. -/
def isAbsolute (path : String) : Bool := path.toList.head? == some '/'

/-- A path below another one. An absolute path is not below any other. -/
def join (base path : String) : String :=
  if isAbsolute path then path
  else if base.isEmpty || base.toList.getLast? == some '/' then base ++ path
  else base ++ "/" ++ path

/-- The names in a path, outermost first. Slashes in a row count as one. -/
def names (path : String) : List String :=
  (Text.pieces '/' path.toList).filterMap fun name =>
    if name.isEmpty then none else some (.ofList name)

/-- Whether a path ends with a slash, so that it can only name a directory. -/
def endsWithSlash (path : String) : Bool := path.toList.getLast? == some '/'

/-- The names of a path without the ones that stand for the directory itself. -/
def steps (path : String) : List String := (names path).filter (· != ".")

/-- The path of the directory that holds what is at a path. The top is held by itself. -/
def parent (path : String) : String :=
  (if isAbsolute path then "/" else "") ++ "/".intercalate (steps path).dropLast

end Path

/-- Why the system refuses something. -/
inductive FileError
  /-- Nothing is there. -/
  | missing
  /-- A name on the way is not that of a directory. -/
  | notDirectory
  /-- A directory is where a file should be. -/
  | isDirectory
  /-- Something is there already. -/
  | occupied
  /-- A name has too many bytes. -/
  | longName
  /-- The path holds a NUL. -/
  | nul
  deriving DecidableEq, Repr

/-- The text of the error. -/
def FileError.message : FileError → String
  | missing => "No such file or directory (os error 2)"
  | notDirectory => "Not a directory (os error 20)"
  | isDirectory => "Is a directory (os error 21)"
  | occupied => "File exists (os error 17)"
  | longName => "File name too long (os error 36)"
  | nul => "file name contained an unexpected NUL byte"

/-- What is at a place. -/
inductive FileNode
  | file (bytes : Bytes)
  | directory
  deriving DecidableEq, Repr

/-- A place in a tree: the names from the innermost to the outermost. -/
abbrev Place := List String

/-- The places at which something is. The top is a directory always. Of two nodes at one place the
first counts. -/
structure FileTree where
  /-- The places below the top and their nodes. -/
  nodes : List (Place × FileNode) := []

namespace FileTree

/-- What is at a place. -/
def node? (t : FileTree) (place : Place) : Option FileNode :=
  if place = [] then some .directory else t.nodes.lookup place

/-- Puts a node at a place. -/
def set (t : FileTree) (place : Place) (node : FileNode) : FileTree :=
  ⟨(place, node) :: t.nodes⟩

theorem node?_set {t : FileTree} {place other : Place} {node : FileNode} (h : place ≠ []) :
    (t.set place node).node? other = if other = place then some node else t.node? other := by
  unfold node? set
  by_cases h1 : other = place
  · subst h1; simp [h]
  · have : (other == place) = false := by simpa using h1
    simp [h1, List.lookup_cons, this]

/-- The longest name, in bytes. -/
def longestName : Nat := 255

/-- The place that a name leads to from a directory. -/
def step (place : Place) (name : String) : Except FileError Place :=
  if name = "." then .ok place
  else if name = ".." then .ok place.tail
  else if longestName < name.utf8ByteSize then .error .longName
  else .ok (name :: place)

/-- The place that names lead to. Each of them has to start at a directory; what is at the place
they lead to does not matter. -/
def walk (t : FileTree) : Place → List String → Except FileError Place
  | place, [] => .ok place
  | place, name :: rest =>
    match t.node? place with
    | none => .error .missing
    | some (.file _) => .error .notDirectory
    | some .directory => (step place name).bind fun place => t.walk place rest

/-- The names of a path, unless it holds a NUL. -/
def names (path : String) : Except FileError (List String) :=
  if path.toList.contains (Char.ofNat 0) then .error .nul else .ok (Path.names path)

/-- The names of a path at which something is looked for. The empty path leads nowhere. -/
def sought (path : String) : Except FileError (List String) :=
  if path.isEmpty then .error .missing else names path

/-- The place that a path names, and what is there. -/
def resolve (t : FileTree) (path : String) : Except FileError (Place × FileNode) :=
  (sought path).bind fun names =>
    (t.walk [] (if Path.endsWithSlash path then names ++ ["."] else names)).bind fun place =>
      match t.node? place with
      | some node => .ok (place, node)
      | none => .error .missing

/-- Whether anything is at a path. -/
def has (t : FileTree) (path : String) : Bool := (t.resolve path).isOk

/-- Makes a directory, whose names are given. -/
def makeDirectory (t : FileTree) (names : List String) : Except FileError Unit × FileTree :=
  match t.walk [] names with
  | .error e => (.error e, t)
  | .ok place =>
    match t.node? place with
    | some _ => (.error .occupied, t)
    | none => (.ok (), t.set place .directory)

/-- Whether names lead to a directory. -/
def isDirectory (t : FileTree) (names : List String) : Bool :=
  match t.walk [] names with
  | .ok place => t.node? place == some .directory
  | .error _ => false

/-- Makes a directory unless it is there already. -/
def ensureDirectory (t : FileTree) (names : List String) : Except FileError Unit × FileTree :=
  match t.makeDirectory names with
  | (.ok _, t) => (.ok (), t)
  | (.error e, t) => if t.isDirectory names then (.ok (), t) else (.error e, t)

/-- Makes a directory and those above it that are missing. The names are given from the innermost to
the outermost. -/
def makeAll (t : FileTree) : List String → Except FileError Unit × FileTree
  | [] => (.ok (), t)
  | name :: above =>
    let names := (name :: above).reverse
    match t.makeDirectory names with
    | (.error .missing, _) =>
      match t.makeAll above with
      | (.ok _, t) => t.ensureDirectory names
      | failed => failed
    | _ => t.ensureDirectory names

/-- Makes the directory at a path and those above it that are missing. -/
def makeDirectories (t : FileTree) (path : String) : Except FileError Unit × FileTree :=
  match names path with
  | .error e => (.error e, t)
  | .ok _ => t.makeAll (Path.steps path).reverse

/-- Makes the directory that holds the file of a path, and those above it that are missing. -/
def makeParents (t : FileTree) (path : String) : Except FileError Unit × FileTree :=
  t.makeDirectories (Path.parent path)

/-- The bytes of the file at a path. -/
def read (t : FileTree) (path : String) : Except FileError Bytes :=
  (t.resolve path).bind fun r =>
    match r.2 with
    | .file bytes => .ok bytes
    | .directory => .error .isDirectory

/-- The place of the file that writing to a path would change or make. -/
def target (t : FileTree) (path : String) : Except FileError Place :=
  (sought path).bind fun names =>
    (t.walk [] names).bind fun place =>
      if Path.endsWithSlash path ∨ names.getLast? ∈ [none, some ".", some ".."] then
        .error .isDirectory
      else match t.node? place with
        | some .directory => .error .isDirectory
        | _ => .ok place

/-- Writes a file, in place of the one that is there. -/
def write (t : FileTree) (path : String) (bytes : Bytes) : Except FileError Unit × FileTree :=
  match t.target path with
  | .error e => (.error e, t)
  | .ok place => (.ok (), t.set place (.file bytes))

/-- Opens a file to add to its end; it is made if it is missing. -/
def openToAppend (t : FileTree) (path : String) : Except FileError Unit × FileTree :=
  match t.target path with
  | .error e => (.error e, t)
  | .ok place =>
    match t.node? place with
    | some _ => (.ok (), t)
    | none => (.ok (), t.set place (.file []))

/-- The text of the file at a path, if there is one. -/
def text? (t : FileTree) (path : String) : Option String :=
  (t.read path).toOption.map Utf8.decodeLossy

end FileTree

end WebCall
