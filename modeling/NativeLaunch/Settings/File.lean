import NativeLaunch.Settings
import NativeLaunch.World

/-!
# Settings files

Loading settings from a file and saving them.  Settings are turned into text before anything is
made on disk, so settings that have no text leave the files as they were.
-/

namespace NativeLaunch

namespace Settings

/-- Why settings could not be loaded or saved. -/
inductive FileFault
  | homeless
  | unreadable (path : Path)
  | illFormed
  | noText
  | directoryNotMade
  | notWritten
deriving DecidableEq, Repr

/-- The message of a fault. -/
def FileFault.message : FileFault → String
  | .homeless => "Failed to get home directory"
  | .unreadable path => "Failed to read settings file " ++ path.display
  | .illFormed => "Failed to parse settings file"
  | .noText => "Failed to serialize settings"
  | .directoryNotMade => "Failed to create settings directory"
  | .notWritten => "Failed to write settings file"

/-- Loads settings from a file. -/
def load (world : World) (path : Path) : Except FileFault Settings :=
  match world.read path with
  | .error _ => .error (.unreadable path)
  | .ok bytes =>
    match Utf8.decode? bytes with
    | none => .error (.unreadable path)
    | some text =>
      match ofText? text with
      | none => .error .illFormed
      | some settings => .ok settings

/-- The home directory; an empty name stands for that on record for the account. -/
def homeDirectory? (world : World) : Option Path :=
  if world.homeDirectory.bytes = [] then world.accountHome else some world.homeDirectory

/-- Where settings are looked for when no file is given. -/
def defaultPath? (world : World) : Option Path :=
  (homeDirectory? world).map fun home =>
    (home.join (.ofString ".limbo-bridge")).join (.ofString "settings.yaml")

/-- Loads settings from the default place; the defaults if there is no file. -/
def loadDefault (world : World) : Except FileFault Settings :=
  match defaultPath? world with
  | none => .error .homeless
  | some path => if world.pathExists path then load world path else .ok {}

/-- Saves settings to a file, making the directories above it. -/
def save (settings : Settings) (world : World) (path : Path) : Except FileFault Unit × World :=
  match settings.render? with
  | none => (.error .noText, world)
  | some text =>
    let (made, world) : Except FaultKind Unit × World := match path.parent? with
      | none => (.ok (), world)
      | some parent => world.makeDirectories parent
    match made with
    | .error _ => (.error .directoryNotMade, world)
    | .ok _ =>
      match world.write path (Utf8.encode text) with
      | (.error _, world) => (.error .notWritten, world)
      | (.ok _, world) => (.ok (), world)

end Settings

end NativeLaunch
