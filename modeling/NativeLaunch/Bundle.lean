import NativeLaunch.FileTree.Operations

/-!
# Resource bundles

Where artifacts come from.  A bundle is known by two functions: opening a resource by its path
(`/system/architecture/file`) and listing the paths it carries.  This file defines streams, which
are scripts of what successive reads deliver, and the bundles over memory and over a directory.
-/

namespace NativeLaunch

/-! ## Streams -/

/-- What one read from a stream delivers. -/
inductive ReadStep
  | chunk (bytes : Bytes)
  | fault (fault : Fault)
deriving DecidableEq, Repr

/-- A stream as the results of its successive reads; after the last comes the end. -/
abbrev Stream := List ReadStep

namespace Stream

/-- Reads a stream to its end: an empty chunk or the end of the script.  Interrupted reads are
tried again; any other fault stops the reading. -/
def readAll : Stream → Except Fault Bytes
  | [] => .ok []
  | .chunk [] :: _ => .ok []
  | .chunk bytes :: rest =>
    match readAll rest with
    | .ok more => .ok (bytes ++ more)
    | .error fault => .error fault
  | .fault fault :: rest => if fault.isInterruption then readAll rest else .error fault

end Stream

/-! ## Bundles -/

/-- A source of artifacts.  Both functions may look at the files around them, seen from the
working directory. -/
structure Bundle where
  /-- Opens a resource for reading; nothing if the bundle has no such entry. -/
  openResource : FileTree → Location → String → Except Fault (Option Stream)
  /-- Every resource path that the bundle carries. -/
  resourcePaths : FileTree → Location → List String

namespace Bundle

/-- Texts in code point order. -/
def sorted (paths : List String) : List String :=
  paths.mergeSort fun a b => decide (a ≤ b)

/-! ### In memory -/

/-- Resources by path. -/
abbrev Resources := List (String × Bytes)

/-- Adds a resource, in place of an earlier one at the same path. -/
def Resources.add (resources : Resources) (path : String) (content : Bytes) : Resources :=
  (path, content) :: resources.filter (·.1 ≠ path)

/-- A bundle over resources held in memory. -/
def memory (resources : Resources) : Bundle where
  openResource _ _ path := .ok ((resources.lookup path).map fun content => [.chunk content])
  resourcePaths _ _ := sorted (resources.map (·.1))

/-! ### In the program -/

/-- A bundle over the table of artifacts that the program was built with, in the table's order. -/
def embedded (table : Resources) : Bundle where
  openResource _ _ path := .ok ((table.lookup path).map fun content => [.chunk content])
  resourcePaths _ _ := table.map (·.1)

/-- The table of a build without artifacts. -/
def builtIn : Resources := []

/-! ### In a directory -/

/-- The segments of a resource path that lead somewhere inside a bundle; empty ones and `..` do
not. -/
def innerSegments (resource : String) : List Bytes :=
  (Path.split (Utf8.encode resource)).filter fun segment =>
    segment ≠ [] && segment ≠ [Path.dot, Path.dot]

/-- The path of a resource in a bundle directory. -/
def locate (root : Path) (resource : String) : Path :=
  (innerSegments resource).foldl (fun path segment => path.join ⟨segment⟩) root

/-- The platform directories that a bundle directory is searched for. -/
def platformDirectories : List (String × String) :=
  ["windows", "macos", "linux"].flatMap fun os => ["aarch64", "x86_64"].map fun arch => (os, arch)

/-- A bundle over the files below a directory. -/
def directory (root : Path) : Bundle where
  openResource files wd resource :=
    let path := locate root resource
    if files.isFile wd path then
      match files.read wd path with
      | .ok content => .ok (some [.chunk content])
      | .error kind => .error (.system kind)
    else
      .ok none
  resourcePaths files wd :=
    sorted <| platformDirectories.flatMap fun (os, arch) =>
      let place := (root.join (Path.ofString os)).join (Path.ofString arch)
      match files.list wd place with
      | .error _ => []
      | .ok entries =>
        (entries.filter fun (name, _) => files.isFile wd (place.join ⟨name⟩)).map fun (name, _) =>
          "/" ++ os ++ "/" ++ arch ++ "/" ++ Utf8.decodeLossy name

/-! ### Scripted -/

/-- A bundle that answers every path alike: with one stream, or with a fault. -/
def uniform (answer : Except Fault Stream) : Bundle where
  openResource _ _ _ := answer.map some
  resourcePaths _ _ := []

end Bundle

end NativeLaunch
