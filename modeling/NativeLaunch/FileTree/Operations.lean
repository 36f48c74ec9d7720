import NativeLaunch.FileTree.Basic

/-!
# Operations on file trees

Reading, writing, making and removing, each as one function from a tree to a result and the tree
afterwards.  An operation that fails leaves the tree as it was; `makeDirectories` is the exception,
for it keeps the directories made before it failed.
-/

namespace NativeLaunch

namespace FileTree

/-! ## Looking -/

/-- Whether a path names anything, links followed. -/
def pathExists (tree : FileTree) (wd : Location) (path : Path) : Bool :=
  (tree.find wd path).isOk

/-- Whether a path names a directory, links followed. -/
def isDirectory (tree : FileTree) (wd : Location) (path : Path) : Bool :=
  match tree.find wd path with
  | .ok (_, node) => node.isDirectory
  | .error _ => false

/-- Whether a path names a plain file, links followed. -/
def isFile (tree : FileTree) (wd : Location) (path : Path) : Bool :=
  match tree.find wd path with
  | .ok (_, node) => node.isFile
  | .error _ => false

/-- The content of the file that a path names. -/
def read (tree : FileTree) (wd : Location) (path : Path) : Except FaultKind Bytes :=
  match tree.find wd path with
  | .ok (_, .file content) => .ok content
  | .ok (_, .sink) => .ok []
  | .ok (_, _) => .error .isADirectory
  | .error kind => .error kind

/-- The names in the directory that a path names, with what they name. -/
def list (tree : FileTree) (wd : Location) (path : Path) :
    Except FaultKind (List (Bytes × FileNode)) :=
  match tree.find wd path with
  | .ok (place, .directory) => .ok (tree.children place)
  | .ok (_, _) => .error .notADirectory
  | .error kind => .error kind

/-! ## Writing -/

/-- Writes a file, making it if its name is free. -/
def write (tree : FileTree) (wd : Location) (path : Path) (content : Bytes) :
    Except FaultKind Unit × FileTree :=
  match tree.resolve wd true path with
  | .error kind => (.error kind, tree)
  | .ok found =>
    if path.endsWithSlash then (.error .isADirectory, tree)
    else
      match found with
      | .vacant directory name => (.ok (), tree.insert (directory ++ [name]) (.file content))
      | .present place (.file _) => (.ok (), tree.insert place (.file content))
      | .present _ .sink => (.ok (), tree)
      | .present _ _ => (.error .isADirectory, tree)

/-- Makes an empty file at a free name, and answers where it stands. -/
def createNew (tree : FileTree) (wd : Location) (path : Path) :
    Except FaultKind Location × FileTree :=
  match tree.resolve wd false path with
  | .error kind => (.error kind, tree)
  | .ok found =>
    if path.endsWithSlash then (.error .isADirectory, tree)
    else
      match found with
      | .vacant directory name => (.ok (directory ++ [name]), tree.insert (directory ++ [name]) (.file []))
      | .present _ _ => (.error .alreadyExists, tree)

/-! ## Directories and links -/

/-- Makes one directory at a free name. -/
def makeDirectory (tree : FileTree) (wd : Location) (path : Path) :
    Except FaultKind Unit × FileTree :=
  match tree.resolve wd false path with
  | .error kind => (.error kind, tree)
  | .ok (.present _ _) => (.error .alreadyExists, tree)
  | .ok (.vacant directory name) => (.ok (), tree.insert (directory ++ [name]) .directory)

/-- `makeDirectories` with a bound on how many parents are tried. -/
def makeDirectoriesWithin : Nat → FileTree → Location → Path → Except FaultKind Unit × FileTree
  | 0, tree, _, _ => (.error .invalidFilename, tree)
  | depth + 1, tree, wd, path =>
    if path.bytes = [] then (.ok (), tree)
    else
      match tree.makeDirectory wd path with
      | (.ok _, made) => (.ok (), made)
      | (.error .notFound, _) =>
        match path.parent? with
        | none => (.error .other, tree)
        | some parent =>
          match makeDirectoriesWithin depth tree wd parent with
          | (.error kind, grown) => (.error kind, grown)
          | (.ok _, grown) =>
            match grown.makeDirectory wd path with
            | (.ok _, made) => (.ok (), made)
            | (.error kind, _) =>
              if grown.isDirectory wd path then (.ok (), grown) else (.error kind, grown)
      | (.error kind, _) =>
        if tree.isDirectory wd path then (.ok (), tree) else (.error kind, tree)

/-- Makes a directory and those above it that are missing; one that is there already will do.
Each parent is a shorter path, so the path's length bounds their number. -/
def makeDirectories (tree : FileTree) (wd : Location) (path : Path) :
    Except FaultKind Unit × FileTree :=
  makeDirectoriesWithin (path.bytes.length + 1) tree wd path

/-- Makes a symbolic link at a free name. -/
def makeLink (tree : FileTree) (wd : Location) (path : Path) (target : Bytes) :
    Except FaultKind Unit × FileTree :=
  if target = [] then (.error .notFound, tree)
  else
    match tree.resolve wd false path with
    | .error kind => (.error kind, tree)
    | .ok (.present _ _) => (.error .alreadyExists, tree)
    | .ok (.vacant directory name) =>
      if path.endsWithSlash then (.error .notFound, tree)
      else (.ok (), tree.insert (directory ++ [name]) (.link target))

/-! ## Renaming -/

/-- Where a location is found after what stood at one of them was moved to another. -/
def relocate (source target place : Location) : Location :=
  if source.isPrefixOf place then target ++ place.drop source.length else place

/-- Moves what stands at a location, and all below it, in place of what stood at another. -/
def move (tree : FileTree) (source target : Location) : FileTree :=
  ⟨(tree.erase target).nodes.map fun (place, node) => (relocate source target place, node)⟩

/-- Why one node cannot take the place of another. -/
def replaceFault? (tree : FileTree) (node : FileNode) (place : Location) (old : FileNode) :
    Option FaultKind :=
  if node.isDirectory && !old.isDirectory then some .notADirectory
  else if !node.isDirectory && old.isDirectory then some .isADirectory
  else if old.isDirectory && !(tree.children place).isEmpty then some .directoryNotEmpty
  else none

/-- Whether a path ends in a name, slashes after it left aside. -/
def endsInName (path : Path) : Bool :=
  match ((Path.split path.bytes).filter (· ≠ [])).getLast? with
  | some segment => segment ≠ [Path.dot] && segment ≠ [Path.dot, Path.dot]
  | none => false

/-- Moves what stands at a location to what a path names; answers both locations.  Nothing can be
moved below itself, or in place of what it is below. -/
def moveTo (tree : FileTree) (source : Location) (node : FileNode) (found : Found) :
    Except FaultKind (Location × Location) × FileTree :=
  let (target, fault?) := match found with
    | .vacant directory name => (directory ++ [name], none)
    | .present place old => (place, tree.replaceFault? node place old)
  if source = target then (.ok (source, target), tree)
  else if source.isPrefixOf target then (.error .invalidInput, tree)
  else if target.isPrefixOf source then (.error .directoryNotEmpty, tree)
  else
    match fault? with
    | some kind => (.error kind, tree)
    | none => (.ok (source, target), tree.move source target)

/-- Gives what a path names another path, in place of what that named; answers where it stood and
where it stands. -/
def rename (tree : FileTree) (wd : Location) (path next : Path) :
    Except FaultKind (Location × Location) × FileTree :=
  match tree.resolve wd false path, tree.resolve wd false next with
  | .error kind, _ => (.error kind, tree)
  | _, .error kind => (.error kind, tree)
  | .ok found, .ok other =>
    if !endsInName path || !endsInName next then (.error .resourceBusy, tree)
    else
      match found with
      | .vacant _ _ => (.error .notFound, tree)
      | .present source node =>
        if !node.isDirectory && (path.endsWithSlash || next.endsWithSlash) then
          (.error .notADirectory, tree)
        else tree.moveTo source node other

/-! ## Removing -/

/-- Removes the name of a file or link. -/
def unlink (tree : FileTree) (wd : Location) (path : Path) : Except FaultKind Unit × FileTree :=
  match tree.resolve wd false path with
  | .error kind => (.error kind, tree)
  | .ok (.vacant _ _) => (.error .notFound, tree)
  | .ok (.present place node) =>
    if node.isDirectory then (.error .isADirectory, tree)
    else if path.endsWithSlash then (.error .notADirectory, tree)
    else (.ok (), tree.erase place)

/-- Removes a location and everything below it. -/
def eraseBelow (tree : FileTree) (place : Location) : FileTree :=
  ⟨tree.nodes.filter fun (location, _) => !place.isPrefixOf location⟩

/-- Removes what a path names, with everything below it; a link at the end is not followed. -/
def removeAll (tree : FileTree) (wd : Location) (path : Path) :
    Except FaultKind Unit × FileTree :=
  match tree.resolve wd false path with
  | .error kind => (.error kind, tree)
  | .ok (.vacant _ _) => (.error .notFound, tree)
  | .ok (.present place _) => (.ok (), tree.eraseBelow place)

end FileTree

end NativeLaunch
