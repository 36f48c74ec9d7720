import NativeLaunch.CommandLine

/-!
# The program

The command line on a real disk.  A run is a function on a `World`, so the parts of the disk that a
run can look at are read into a file tree first, and what the run changed in the tree is carried
out afterwards.  Links are read as what they lead to.
-/

namespace NativeLaunch

namespace Disk

/-- The name of a location on the disk. -/
def name (place : Location) : String := (Location.toPath place).display

/-- The names in a directory; nothing if there is no directory that can be read. -/
def entries? (place : Location) : IO (Option (List Bytes)) := do
  match ← (IO.FS.realPath (name place)).toBaseIO with
  | .error _ => return none
  | .ok real =>
    match ← real.readDir.toBaseIO with
    | .error _ => return none
    | .ok found => return some (found.toList.map fun entry => Utf8.encode entry.fileName)

/-- Adds to a tree what stands at a location, and what stands below it down to a depth. -/
def survey : (depth : Nat) → FileTree → Location → IO FileTree
  | depth, tree, place => do
    match ← entries? place with
    | none =>
      match ← (IO.FS.readBinFile (name place)).toBaseIO with
      | .error _ => return tree
      | .ok content => return tree.insert place (.file content.toList)
    | some names =>
      let grown := if place = [] then tree else tree.insert place .directory
      match depth with
      | 0 => return grown
      | below + 1 => names.foldlM (fun grown entry => survey below grown (place ++ [entry])) grown

/-- The location that the text of an absolute path spells, links left aside. -/
def spelled (path : Path) : Location :=
  path.components.foldl
    (fun place component =>
      match component with
      | .named segment => place ++ [segment]
      | .up => place.dropLast
      | _ => place)
    []

/-- Adds what a path leads to, down to a depth, and the directories on the way. -/
def surveyPath (depth : Nat) (world : World) (path : Path) : IO World := do
  let place := spelled (world.workingPath.join path)
  let above ← (List.range place.length).foldlM
    (fun tree length => survey 0 tree (place.take length)) world.files
  return { world with files := ← survey depth above place }

/-- Brings the disk from one tree to another. -/
def carryOut (before after : FileTree) : IO Unit := do
  for (place, node) in after.nodes.reverse do
    if before.node? place != some node then
      match node with
      | .directory => IO.FS.createDirAll (name place)
      | .file content => IO.FS.writeBinFile (name place) ⟨content.toArray⟩
      | _ => pure ()
  for (place, _) in before.nodes do
    if (after.node? place).isNone then IO.FS.removeFile (name place)

/-- The home directory on record for the account that runs the program. -/
def accountHome : IO (Option Path) := do
  match ← (IO.FS.lines "/proc/self/status").toBaseIO, ← (IO.FS.lines "/etc/passwd").toBaseIO with
  | .ok status, .ok accounts =>
    let number? := status.toList.findSome? fun line => match line.splitOn "\t" with
      | "Uid:" :: number :: _ => some number
      | _ => none
    return accounts.toList.findSome? fun line => match line.splitOn ":" with
      | [_, _, number, _, _, home, _] =>
        if some number = number? && home ≠ "" then some (.ofString home) else none
      | _ => none
  | _, _ => return none

/-- The surroundings of the program, as far as a run on some options looks at them. -/
def surroundings (options : CommandLine.Options) : IO World := do
  let here ← IO.currentDir.toBaseIO
  let home ← IO.getEnv "HOME"
  let temporary ← IO.getEnv "TMPDIR"
  let program ← IO.appDir
  let bare : World :=
    { workingDirectory := match here with
        | .ok name => spelled (.ofString name.toString)
        | .error _ => []
      workingDirectoryNamed := here.isOk
      homeDirectory := .ofString (home.getD "")
      accountHome := ← accountHome
      temporaryDirectory := .ofString (temporary.getD "/tmp")
      programDirectory := .ofString program.toString }
  let settingsFile := (options.settings.or (Settings.defaultPath? bare)).toList
  let known ← (⟨[]⟩ :: bare.temporaryDirectory :: settingsFile).foldlM (surveyPath 0) bare
  match options.loadSettings known with
  | .error _ => return known
  | .ok loaded =>
    let settings := options.override loaded
    let artifacts : List Path := match settings.nativesDirectory with
      | none => []
      | some root => Bundle.platformDirectories.map fun (system, architecture) =>
        (root.join (.ofString system)).join (.ofString architecture)
    let mentioned := (options.configPath settings known).toOption.toList ++
      settings.extraArguments.map .ofString
    mentioned.foldlM (surveyPath 0) (← artifacts.foldlM (surveyPath 1) known)

/-- Runs the program on the disk. -/
def run (words : List String) : IO UInt32 := do
  let world ← match CommandLine.Options.parse words with
    | .error _ => pure {}
    | .ok options => surroundings options
  let (ending, after) := CommandLine.run nativeLoader Bundle.builtIn words world
  carryOut world.files after.files
  (← IO.getStdout).write ⟨after.output.toArray⟩
  (← IO.getStderr).putStr ending.complaint
  return ending.exitCode.toUInt32

end Disk

end NativeLaunch

/-- The program. -/
def main (words : List String) : IO UInt32 := NativeLaunch.Disk.run words
