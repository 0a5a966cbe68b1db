import WebCall.Files.Tree

/-!
# The disk

The outer layer between file trees and the disk: looking at what is on the way to a path, and making
what a changed tree has more than the tree before.
-/
namespace WebCall.Disk

/-- The path of a place. -/
def pathOf (place : Place) : String := "/" ++ "/".intercalate place.reverse

/-- Whether a path can be opened. -/
def opens (path : String) : IO Bool := do
  try discard (IO.FS.Handle.mk path .read); return true
  catch _ => return false

/-- What is at a place. The bytes of a file are read only if they matter. -/
def look (place : Place) (withBytes : Bool) : IO (Option FileNode) := do
  if ← opens (pathOf place ++ "/.") then return some .directory
  try
    if withBytes then return some (.file (← IO.FS.readBinFile (pathOf place)).toList)
    discard (IO.FS.Handle.mk (pathOf place) .read)
    return some (.file [])
  catch
    | .noFileOrDirectory .. => return none
    | e => throw e

/-- Adds what is found on the way along names to a tree, as long as there are directories. -/
def follow (withBytes : Bool) : FileTree → Place → List String → IO FileTree
  | t, _, [] => return t
  | t, place, name :: rest => do
    match FileTree.step place name with
    | .error _ => return t
    | .ok place =>
      match ← look place withBytes with
      | none => return t
      | some node =>
        let t := if place = [] then t else t.set place node
        if node = .directory then follow withBytes t place rest else return t

/-- Adds what is found on the way to a path to a tree. -/
def survey (t : FileTree) (path : String) (withBytes : Bool) : IO FileTree :=
  follow withBytes t [] (Path.names path)

/-- Makes what a tree has more than the tree before. The places at which that fails come with the
reason. -/
def commit (before after : FileTree) : IO (List (Place × IO.Error)) := do
  let added := (after.nodes.take (after.nodes.length - before.nodes.length)).reverse
  let mut failures := []
  for (place, node) in added do
    try
      match node with
      | .directory => IO.FS.createDir (pathOf place)
      | .file bytes => IO.FS.writeBinFile (pathOf place) ⟨bytes.toArray⟩
    catch e => failures := failures ++ [(place, e)]
  return failures

end WebCall.Disk
