import NativeLaunch.FileTree.Operations
import NativeLaunch.Platform

/-!
# The world around a process

What a process finds around it and leaves behind: the files, its directories and host, the medium
that takes new files, the temporary files it still has to delete, and a journal of the native code
it has mapped and called.  Everything that happens to the outside is a function on a `World`.
-/

namespace NativeLaunch

/-- How the medium under new files behaves. -/
structure Medium where
  /-- How many bytes one new file can take, and the fault of writing past them. -/
  room : Option (Nat × Fault) := none
  /-- The fault of bringing a written file to the medium. -/
  syncFault : Option Fault := none
deriving DecidableEq, Repr, Inhabited

namespace Medium

/-- Writes a chunk to a new file after what was written already. -/
def append (medium : Medium) (written chunk : Bytes) : Except Fault Bytes :=
  match medium.room with
  | none => .ok (written ++ chunk)
  | some (room, fault) =>
    if room < written.length + chunk.length then .error fault else .ok (written ++ chunk)

/-- Brings a written file to the medium. -/
def sync (medium : Medium) (written : Bytes) : Except Fault Bytes :=
  match medium.syncFault with
  | none => .ok written
  | some fault => .error fault

end Medium

/-- The surroundings of a process. -/
structure World where
  files : FileTree := {}
  workingDirectory : Location := []
  /-- Whether the working directory can be named, as it cannot where no way leads to it from the root. -/
  workingDirectoryNamed : Bool := true
  homeDirectory : Path := ⟨[]⟩
  /-- The home directory on record for the account, if there is one. -/
  accountHome : Option Path := none
  temporaryDirectory : Path := ⟨[]⟩
  /-- The directory that holds the running program. -/
  programDirectory : Path := ⟨[Path.slash]⟩
  host : Platform.Host := .current
  medium : Medium := {}
  /-- The number of temporary names handed out so far. -/
  serial : Nat := 0
  /-- Extracted files to be deleted when the process ends. -/
  pending : List Path := []
  /-- The libraries mapped into the process. -/
  mapped : List Path := []
  /-- The argument lists that the native entry point was called with, in order. -/
  nativeCalls : List (List Bytes) := []
  /-- What was written to standard output. -/
  output : Bytes := []
deriving Repr

namespace Location

/-- The path of a location. -/
def toPath (place : Location) : Path :=
  match place with
  | [] => ⟨[Path.slash]⟩
  | _ => ⟨place.flatMap (Path.slash :: ·)⟩

end Location

namespace World

/-- The working directory as a path. -/
def workingPath (world : World) : Path := Location.toPath world.workingDirectory

/-- The working directory by its name, if it has one. -/
def currentDirectory? (world : World) : Option Path :=
  if world.workingDirectoryNamed then some world.workingPath else none

/-- Replaces the files by the second part of an operation's answer. -/
def withFiles (world : World) {α : Type} (answer : α × FileTree) : α × World :=
  (answer.1, { world with files := answer.2 })

/-- Whether a path names anything. -/
def pathExists (world : World) (path : Path) : Bool :=
  world.files.pathExists world.workingDirectory path

/-- Whether a path names a directory. -/
def isDirectory (world : World) (path : Path) : Bool :=
  world.files.isDirectory world.workingDirectory path

/-- The content of the file that a path names. -/
def read (world : World) (path : Path) : Except FaultKind Bytes :=
  world.files.read world.workingDirectory path

/-- Writes a file, making it if its name is free. -/
def write (world : World) (path : Path) (content : Bytes) : Except FaultKind Unit × World :=
  world.withFiles (world.files.write world.workingDirectory path content)

/-- Makes one directory at a free name. -/
def makeDirectory (world : World) (path : Path) : Except FaultKind Unit × World :=
  world.withFiles (world.files.makeDirectory world.workingDirectory path)

/-- Makes a directory and the missing ones above it. -/
def makeDirectories (world : World) (path : Path) : Except FaultKind Unit × World :=
  world.withFiles (world.files.makeDirectories world.workingDirectory path)

/-- Removes the name of a file or link. -/
def unlink (world : World) (path : Path) : Except FaultKind Unit × World :=
  world.withFiles (world.files.unlink world.workingDirectory path)

/-- Makes a symbolic link at a free name. -/
def makeLink (world : World) (path : Path) (target : Bytes) : Except FaultKind Unit × World :=
  world.withFiles (world.files.makeLink world.workingDirectory path target)

/-- Gives what a path names another path; answers where it stood and where it stands.  A working
directory that is moved stays the working directory. -/
def rename (world : World) (path next : Path) : Except FaultKind (Location × Location) × World :=
  match world.files.rename world.workingDirectory path next with
  | (.error kind, _) => (.error kind, world)
  | (.ok (source, target), files) =>
    (.ok (source, target),
      { world with
        files := files
        workingDirectory := FileTree.relocate source target world.workingDirectory })

/-- Writes to standard output. -/
def print (world : World) (bytes : Bytes) : World :=
  { world with output := world.output ++ bytes }

end World

end NativeLaunch
