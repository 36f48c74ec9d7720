import NativeLaunch.CommandLine.Options
import NativeLaunch.Launch
import NativeLaunch.Settings.File

/-!
# The command line

What the program does with its options, from the settings to the exit code.  The settings come
first, and while they are being loaded nothing is changed.  The command line has its say over them;
then the directory of the configuration file is made, and the artifact launched.  Whatever happens,
the files extracted on the way are deleted at the end.
-/

namespace NativeLaunch

namespace CommandLine

/-! ## Texts -/

/-- The name under which the program presents itself. -/
def programTitle : String := "limbo-bridge"

/-- The version of the program. -/
def programVersion : String := "1.0.0"

/-- The form of a command line. -/
def usageLine : String := "Usage: " ++ programTitle ++ " [OPTIONS] [-- <NATIVE_ARGS>...]"

/-- The lines of the help text. -/
def helpLines : List String :=
  [programTitle ++ " - run the bundled limbo server for this platform",
    "",
    usageLine,
    "",
    "Arguments:",
    "  [NATIVE_ARGS]...  Arguments forwarded to the server after `--`",
    "",
    "Options:",
    "  -c, --config <CONFIG>            Path to the server configuration file (server.toml)",
    "      --data-dir <DATA_DIR>        Data directory holding server.toml",
    "      --settings <SETTINGS>        Launcher settings file (YAML)",
    "      --natives-dir <NATIVES_DIR>  Load native artifacts from this directory instead of the "
      ++ "embedded bundle",
    "      --list-artifacts             Print the resolved platform and available artifacts, then "
      ++ "exit",
    "  -d, --debug                      Enable debug logging",
    "  -h, --help                       Print help",
    "  -V, --version                    Print version"]

/-- Lines as one text. -/
def joinLines (lines : List String) : String := String.join (lines.map (· ++ "\n"))

/-- What a halt prints. -/
def Halt.output : Halt → String
  | .version => joinLines [programTitle ++ " " ++ programVersion]
  | .help => joinLines helpLines
  | .misuse => ""

/-- The exit code of a halt. -/
def Halt.exitCode : Halt → UInt8
  | .misuse => 2
  | _ => 0

/-! ## Settings of a run -/

/-- Loads the settings from the file that the options name, else from the default place. -/
def Options.loadSettings (options : Options) (world : World) :
    Except Settings.FileFault Settings :=
  match options.settings with
  | some path => Settings.load world path
  | none => Settings.loadDefault world

/-- Settings with what the options say in their place, and with the native arguments at the end. -/
def Options.override (options : Options) (settings : Settings) : Settings :=
  { settings with
    dataDirectory := options.dataDirectory.getD settings.dataDirectory
    nativesDirectory := options.nativesDirectory.or settings.nativesDirectory
    extraArguments := settings.extraArguments ++ options.nativeArguments }

/-- The bundle that settings take artifacts from: a directory, else what the program was built with. -/
def bundleOf (builtIn : Bundle.Resources) (settings : Settings) : Bundle :=
  match settings.nativesDirectory with
  | some root => .directory root
  | none => .embedded builtIn

/-- The arguments of the native call. -/
def invocationOf (settings : Settings) (config : Path) : Invocation :=
  (Invocation.withProgramName settings.programName config).addExtra settings.extraArguments

/-! ## Listing -/

/-- What there is for the host in a bundle, and all else that the bundle carries. -/
def listing (bundle : Bundle) (world : World) : String :=
  let paths := bundle.resourcePaths world.files world.workingDirectory
  let platform := match world.host.resolve with
    | .ok descriptor =>
      descriptor.display ++ " -> " ++ descriptor.resourceSubpath ++
        (if paths.contains descriptor.resourceSubpath then " (bundled)" else " (missing)")
    | .error failure => failure.message
  joinLines (("platform: " ++ platform) :: paths.map ("  " ++ ·))

/-! ## Runs -/

/-- Why a run failed. -/
inductive RunFault
  | settings (fault : Settings.FileFault)
  | configPath (path : Path)
  | workingDirectory
  | dataDirectory (path : Path)
  | launch (failure : Failure)
deriving DecidableEq, Repr

namespace RunFault

/-- The message of a fault. -/
def message : RunFault → String
  | .settings fault => fault.message
  | .configPath path => "Failed to resolve " ++ path.display
  | .workingDirectory => "Failed to get current directory"
  | .dataDirectory path => "Failed to create data directory " ++ path.display
  | .launch failure => failure.message

/-- The exit code of a fault. -/
def exitCode : RunFault → UInt8
  | .launch failure => failure.exitCode
  | _ => 1

end RunFault

/-- The configuration file of a run, absolute. -/
def Options.configPath (options : Options) (settings : Settings) (world : World) :
    Except RunFault Path :=
  match options.config with
  | some path =>
    match Path.absolute? world.currentDirectory? path with
    | some config => .ok config
    | none => .error (.configPath path)
  | none =>
    match settings.configPath? world.currentDirectory? with
    | some config => .ok config
    | none => .error .workingDirectory

/-- Makes the directory that a file is to stand in. -/
def makeParent (world : World) (path : Path) : Except RunFault Unit × World :=
  match path.parent? with
  | none => (.ok (), world)
  | some directory =>
    match world.makeDirectories directory with
    | (.ok _, made) => (.ok (), made)
    | (.error _, left) => (.error (.dataDirectory directory), left)

variable {Library : Type} (loader : Loader Library) (builtIn : Bundle.Resources)

/-- Launches the native component for given settings and configuration file. -/
def launchWith (settings : Settings) (config : Path) (world : World) :
    Except RunFault ExitStatus × World :=
  match makeParent world config with
  | (.error fault, left) => (.error fault, left)
  | (.ok _, prepared) =>
    match prepared.launch loader (bundleOf builtIn settings) (invocationOf settings config) with
    | (.error failure, after) => (.error (.launch failure), after)
    | (.ok status, after) => (.ok status, after)

/-- Carries out the options, save for the cleanup at the end. -/
def execute (options : Options) (world : World) : Except RunFault ExitStatus × World :=
  match options.loadSettings world with
  | .error fault => (.error (.settings fault), world)
  | .ok loaded =>
    let settings := options.override loaded
    if options.listArtifacts then
      (.ok .success, world.print (Utf8.encode (listing (bundleOf builtIn settings) world)))
    else
      match options.configPath settings world with
      | .error fault => (.error fault, world)
      | .ok config => launchWith loader builtIn settings config world

/-- How the program ended. -/
inductive Ending
  | halted (halt : Halt)
  | failed (fault : RunFault)
  | exited (status : ExitStatus)
deriving DecidableEq, Repr

/-- The exit code of the program. -/
def Ending.exitCode : Ending → UInt8
  | .halted halt => halt.exitCode
  | .failed fault => fault.exitCode
  | .exited status => status.code

/-- What the ending has to complain of. -/
def Ending.complaint : Ending → String
  | .halted .misuse => joinLines [usageLine]
  | .failed fault => joinLines [programTitle ++ ": " ++ fault.message]
  | _ => ""

/-- The ending that a run's result amounts to. -/
def Ending.ofRun : Except RunFault ExitStatus → Ending
  | .ok status => .exited status
  | .error fault => .failed fault

/-- Runs the program on the words of a command line, its own name left out. -/
def runWords (words : List Bytes) (world : World) : Ending × World :=
  match Options.read words with
  | .error halt => (.halted halt, world.print (Utf8.encode halt.output))
  | .ok options =>
    let (result, after) := execute loader builtIn options world
    (.ofRun result, after.runExitCleanup.2)

/-- Runs the program on a command line of texts. -/
def run (words : List String) (world : World) : Ending × World :=
  runWords loader builtIn (words.map Utf8.encode) world

end CommandLine

end NativeLaunch
