import NativeLaunch.Fault
import NativeLaunch.Path

/-!
# File trees

Directories, files and symbolic links, and how a path finds its way among them.  This file
defines:

* `FileTree` — a finite map from locations to what stands there;
* `FileTree.walk` — the walk of a path from directory to directory, following links on the way;
* `FileTree.resolve` — what a path names: something present, or a free name in a directory.

A location is the list of names from the root, with no links and no dots; a path is text that may
hold both.
-/

namespace NativeLaunch

/-- A place in a tree: the names from the root down. -/
abbrev Location := List Bytes

/-- What stands at a location. -/
inductive FileNode
  | directory
  | file (content : Bytes)
  | link (target : Bytes)
  /-- A device that is empty to read and forgets what is written. -/
  | sink
deriving DecidableEq, Repr

namespace FileNode

/-- Whether the node is a directory. -/
def isDirectory : FileNode → Bool
  | .directory => true
  | _ => false

/-- Whether the node is a plain file. -/
def isFile : FileNode → Bool
  | .file _ => true
  | _ => false

end FileNode

/-- A finite tree of files.  The root is a directory of every tree and is not listed. -/
structure FileTree where
  nodes : List (Location × FileNode) := []
deriving DecidableEq, Repr

namespace FileTree

/-- What stands at a location, if anything. -/
def node? (tree : FileTree) (place : Location) : Option FileNode :=
  if place = [] then some .directory else tree.nodes.lookup place

/-- The tree without what stands at a location. -/
def erase (tree : FileTree) (place : Location) : FileTree :=
  ⟨tree.nodes.filter (·.1 ≠ place)⟩

/-- The tree with a node at a location, in place of what stood there. -/
def insert (tree : FileTree) (place : Location) (node : FileNode) : FileTree :=
  ⟨(place, node) :: (tree.erase place).nodes⟩

/-- The names directly under a location, with what they name. -/
def children (tree : FileTree) (place : Location) : List (Bytes × FileNode) :=
  tree.nodes.filterMap fun (location, node) =>
    match location.getLast? with
    | some name => if location.dropLast = place then some (name, node) else none
    | none => none

/-! ## Walking -/

/-- What a path names. -/
inductive Found
  | present (place : Location) (node : FileNode)
  | vacant (directory : Location) (name : Bytes)
deriving DecidableEq, Repr

/-- The longest name that a directory can hold, in bytes. -/
def maxNameLength : Nat := 255

/-- The length at which a path is too long to be looked up, in bytes. -/
def pathLimit : Nat := 4096

/-- How many links one path may lead through. -/
def maxLinks : Nat := 40

/-- The segments to walk for the text of a path or link: a slash at its end asks for a directory,
as a last `.` does. -/
def steps (text : Bytes) : List Bytes :=
  let segments := (Path.split text).filter (· ≠ [])
  if text.getLast? = some Path.slash then segments ++ [[Path.dot]] else segments

/-- Walks segments from a directory.  A link in the middle is always followed, one at the end only
if told so; a link's own segments are walked before the rest. -/
def walk (tree : FileTree) (follow : Bool) :
    (budget : Nat) → (here : Location) → (segments : List Bytes) → Except FaultKind Found
  | _, here, [] => .ok (.present here .directory)
  | budget, here, segment :: rest =>
    if segment = [Path.dot] then
      tree.walk follow budget here rest
    else if segment = [Path.dot, Path.dot] then
      tree.walk follow budget here.dropLast rest
    else if maxNameLength < segment.length then
      .error .invalidFilename
    else
      match tree.node? (here ++ [segment]) with
      | none => if rest.isEmpty then .ok (.vacant here segment) else .error .notFound
      | some .directory => tree.walk follow budget (here ++ [segment]) rest
      | some (.link target) =>
        if rest.isEmpty && !follow then
          .ok (.present (here ++ [segment]) (.link target))
        else
          match budget with
          | 0 => .error .filesystemLoop
          | budget + 1 =>
            if target = [] then .error .notFound
            else
              tree.walk follow budget (if target.head? = some Path.slash then [] else here)
                (steps target ++ rest)
      | some node =>
        if rest.isEmpty then .ok (.present (here ++ [segment]) node) else .error .notADirectory
termination_by budget _ segments => (budget, segments.length)

/-- The faults that a path's own text can have. -/
def textFault? (path : Path) : Option FaultKind :=
  if path.bytes.contains 0 then some .invalidInput
  else if path.bytes = [] then some .notFound
  else if pathLimit ≤ path.bytes.length then some .invalidFilename
  else none

/-- What a path names, seen from a working directory; a slash at the path's end is left to the
operation. -/
def resolve (tree : FileTree) (workingDirectory : Location) (follow : Bool) (path : Path) :
    Except FaultKind Found :=
  match textFault? path with
  | some kind => .error kind
  | none =>
    tree.walk follow maxLinks (if path.isAbsolute then [] else workingDirectory)
      ((Path.split path.bytes).filter (· ≠ []))

/-- The location and node that a path names, links followed.  A path with a slash at its end must
name a directory. -/
def find (tree : FileTree) (workingDirectory : Location) (path : Path) :
    Except FaultKind (Location × FileNode) :=
  match tree.resolve workingDirectory true path with
  | .error kind => .error kind
  | .ok (.vacant _ _) => .error .notFound
  | .ok (.present place node) =>
    if path.endsWithSlash && !node.isDirectory then .error .notADirectory else .ok (place, node)

end FileTree

end NativeLaunch
